import ObjectMapping.Action
import ObjectMapping.Typing

/-! Access to fields through inheritance: from which declaration a field comes, through which
embedded records it is reached, and what reading and writing it should do. -/
namespace ObjectMapping

namespace Record

/-- The two records are the same but for what the slot at the end of the path holds. -/
inductive AlikeBut : List String → Record → Record → Prop where
  | slot {type : TypeName} {before after : List (String × Datum)}
      (first : name ∉ before.map (·.1)) (old new : Datum) :
      AlikeBut [name] (.mk type (before ++ (name, old) :: after))
        (.mk type (before ++ (name, new) :: after))
  | inside {type : TypeName} {before after : List (String × Datum)}
      (first : name ∉ before.map (·.1)) (alike : AlikeBut path r s) :
      AlikeBut (name :: path) (.mk type (before ++ (name, .record r) :: after))
        (.mk type (before ++ (name, .record s) :: after))

/-- The record that is embedded at the end of a path. -/
def embedded? (r : Record) : List String → Option Record
  | [] => some r
  | slot :: path =>
    match r.slot? slot with
    | some (.record inner) => inner.embedded? path
    | _ => none

/-- The record with another one embedded at the end of a path. -/
def embed (r : Record) (new : Record) : List String → Record
  | [] => new
  | slot :: path =>
    match r.slot? slot with
    | some (.record inner) => r.setSlot slot (.record (inner.embed new path))
    | _ => r

end Record

/-- The field `f` of `d` is the field `g` of `root`, inherited through the slots `bases`. Each of
them embeds a record of the type that is described next. -/
inductive Descriptor.Inherits (c : Catalogue) (root : Descriptor) (g : Field) :
    Descriptor → Field → List Slot → Prop where
  | own (built : root.Built c) (member : g ∈ root.fields) : Inherits c root g root g []
  | through {d super : Descriptor} {base : Slot} (built : d.Built c)
      (member : f.inherit d.type base ∈ d.fields) (found : c.type? d.type = some t)
      (has : t.slot? base.name = some base) (embeds : base.shape = .record super.type)
      (rest : Inherits c root g super f bases) :
      Inherits c root g d (f.inherit d.type base) (base :: bases)

namespace Field

/-- The field describes this slot of its own type. -/
def On (c : Catalogue) (f : Field) (slot : Slot) : Prop :=
  ∃ t, c.type? f.owner = some t ∧ t.slot? slot.name = some slot ∧ f.path = [slot.name] ∧
    f.shape = slot.shape

/-- Write the field of a record in place. The record is changed last, after all that can fail. -/
def assign (f : Field) (v : Value) : Action Record Unit := do
  let r ← getThe Record
  if v.isNull && !f.isNullable && f.type != .variant then
    throw (.data .integrityError "NULL assigned to a non-nullable field" (some f.name))
  else if r.type = f.owner then
    let d ← Action.ofExcept (inField f.name (f.shape.ofValue v))
    match r.set? d f.path with
    | some changed => modify fun _ => changed
    | none => throw f.mismatch
  else throw f.mismatch

/-- The field can be read and written in the record, and only there. -/
structure Lawful (f : Field) (r : Record) : Prop where
  reads : ∃ v, f.get r = .ok v
  /-- A value is not refused for want of the field. -/
  owned : ∀ v e, f.set r v = .error e → e.usageKind? ≠ some .objectMismatch
  /-- A value that is taken changes one slot. -/
  contained : ∀ v changed, f.set r v = .ok changed → r.AlikeBut f.path changed
  /-- What is read after a value has been taken is taken again and changes nothing. -/
  settled : ∀ v changed, f.set r v = .ok changed →
    ∃ w, f.get changed = .ok w ∧ f.set changed w = .ok changed
  /-- Writing in place does what writing does. -/
  assigned : ∀ v changed, (f.assign v).perform r = (.ok (), changed) ↔ f.set r v = .ok changed
  /-- A value that is refused leaves the record as it is. -/
  unharmed : ∀ v e s, (f.assign v).perform r = (.error e, s) → s = r ∧ f.set r v = .error e

end Field

end ObjectMapping
