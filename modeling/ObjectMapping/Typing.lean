import ObjectMapping.Descriptor

/-! Which records a program can hold and which descriptors it can build. The slots of
an instance hold data of their shapes, down to the records that they embed, and a
field is declared on a slot that its owner has. -/
namespace ObjectMapping

mutual

/-- The datum may stand in a slot of the shape. -/
inductive Datum.Holds (c : Catalogue) : Shape → Datum → Prop where
  | plain {p : PlainShape} {s : Scalar} (same : s.type = p.type) :
      Datum.Holds c (.plain p) (.scalar s)
  | enum {e : Enumeration} (named : (e.nameOf? n).isSome) :
      Datum.Holds c (.enum e) (.scalar (.enum n))
  | record {r : Record} (same : r.type = type) (inside : Record.Instance c r) :
      Datum.Holds c (.record type) (.record r)
  | vacant : Datum.Holds c .variant .vacant
  | occupied (inside : Record.Instance c r) : Datum.Holds c .variant (.occupied r)
  | unset : Datum.Holds c (.nullable s) .unset
  | present (inside : Datum.Holds c s d) : Datum.Holds c (.nullable s) (.present d)
  | list {items : List Datum} (each : ∀ d ∈ items, Datum.Holds c s d) :
      Datum.Holds c (.list s) (.list items)

/-- The record is an instance of a declared type. -/
inductive Record.Instance (c : Catalogue) : Record → Prop where
  | intro {r : Record} (found : c.type? r.type = some t) (content : String → Datum)
      (stored : ∀ name slot, t.slot? name = some slot → r.slot? name = some (content name))
      (holds : ∀ name slot, t.slot? name = some slot → Datum.Holds c slot.shape (content name)) :
      Record.Instance c r

end

/-- The records that the value holds are instances of declared types. -/
inductive Value.Typed (c : Catalogue) : Value → Prop where
  | null : Value.Typed c .null
  | scalar (s : Scalar) : Value.Typed c (.scalar s)
  | object {r : Record} (inside : r.Instance c) : Value.Typed c (.object r)
  | array {items : List Value} (each : ∀ v ∈ items, Value.Typed c v) : Value.Typed c (.array items)

namespace Catalogue

/-- Every type begins with an instance of its own. -/
def Sound (c : Catalogue) : Prop :=
  ∀ name t, c.type? name = some t → t.initial.type = name ∧ t.initial.Instance c

/-- The path leads from the instances of the type to a slot of the shape. -/
inductive Leads (c : Catalogue) : TypeName → List String → Shape → Prop where
  | slot (found : c.type? type = some t) (has : t.slot? name = some slot) :
      Leads c type [name] slot.shape
  | through {inner : TypeName} (found : c.type? type = some t) (has : t.slot? name = some slot)
      (embeds : slot.shape = .record inner) (rest : Leads c inner path shape) :
      Leads c type (name :: path) shape

end Catalogue

/-- The field is declared on a slot of a declared type. -/
inductive Field.Declared (c : Catalogue) : Field → Prop where
  | slot {type : TypeName} (found : c.type? type = some t) (has : t.slot? slot.name = some slot)
      (offset : Nat) (name : String) : Declared c (.ofSlot c type { slot with offset := offset } name)
  | withDefault (declared : Declared c f) (v : Value) : Declared c (f.withDefault v)
  | withEnumeration (declared : Declared c f) (e : Enumeration) : Declared c (f.withEnumeration e)
  | mandatoriness (declared : Declared c f) (rule : Mandatoriness) :
      Declared c { f with mandatoriness := rule }
  | primaryKey (declared : Declared c f) (flag : Bool) : Declared c { f with primaryKey := flag }
  | autoIncrement (declared : Declared c f) (flag : Bool) :
      Declared c { f with autoIncrement := flag }

namespace Descriptor

mutual

/-- The descriptor may be put together like this so far. -/
inductive Draft.Formed (c : Catalogue) : Draft → Prop where
  | draft {t : RecordType} (found : c.type? t.name = some t) (name : String) :
      Draft.Formed c (Descriptor.draft t name)
  | table {b : Draft} (formed : Draft.Formed c b) (table : Option String) :
      Draft.Formed c { b with table := table }
  | extend {b : Draft} (formed : Draft.Formed c b) (super : Descriptor.Built c d)
      (has : b.type.slot? base.name = some base) (embeds : base.shape = .record d.type)
      (ok : b.extend d base = .ok extended) : Draft.Formed c extended
  | field {b : Draft} (formed : Draft.Formed c b) (declared : Field.Declared c f) :
      Draft.Formed c (b.field f)

/-- The descriptor is a finished one. -/
inductive Built (c : Catalogue) : Descriptor → Prop where
  | build {b : Draft} (formed : Draft.Formed c b) (ok : b.build = .ok d) : Descriptor.Built c d

end

end Descriptor

end ObjectMapping
