import ObjectMapping.RecordType

/-! Changes of records, slot by slot. A slot is given other contents, or the record in it is changed
in turn. -/
namespace ObjectMapping

/-- A change of what a slot holds. -/
inductive Edit where
  /-- Something else is put there. -/
  | put (d : Datum)
  /-- The record that the slot holds is changed, after a nullable slot without one has got one. -/
  | merge (steps : List (String × Edit))

namespace Edit

variable (fresh : TypeName → String → Record)

mutual

/-- What a slot holds after the change; `new` is for a slot that is without a record. -/
def apply (new : Record) : Edit → Datum → Datum
  | put d, _ => d
  | merge steps, .record r => .record (run steps r)
  | merge steps, .present (.record r) => .present (.record (run steps r))
  | merge steps, .unset => .present (.record (run steps new))
  | merge _, d => d

/-- The record after changes of its slots, one after the other; `fresh` makes the new records. -/
def run : List (String × Edit) → Record → Record
  | [], r => r
  | (name, e) :: rest, r =>
    match r.slot? name with
    | some d => run rest (r.setSlot name (apply (fresh r.type name) e d))
    | none => run rest r

end

/-- The change at the end of a path through embedded records. -/
def atPath (e : Edit) : List String → List (String × Edit)
  | [] => []
  | [name] => [(name, e)]
  | name :: path => [(name, merge (e.atPath path))]

end Edit

/-- The record that a slot begins with when it holds one for the first time. -/
def Catalogue.fresh (c : Catalogue) (type : TypeName) (name : String) : Record :=
  c.initial ((((c.type? type).bind (·.slot? name)).bind (·.shape.recordType?)).getD "")

end ObjectMapping
