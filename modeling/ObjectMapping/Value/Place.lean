import ObjectMapping.Value

/-! Where the parts of a value lie: a place is the way that leads to them through the slots of
records, of whatever kind the slots are, and through the elements of lists. -/
namespace ObjectMapping.Value

/-- A step from a value to one of its parts. -/
inductive Step where
  | slot (name : String)
  | item (index : Nat)

/-- The part that lies in a place. -/
def at? : Value → List Step → Option Value
  | v, [] => some v
  | .object r, .slot name :: place => (r.slot? name).bind fun d => d.toValue.at? place
  | .array items, .item index :: place => items[index]?.bind fun v => v.at? place
  | _, _ :: _ => none

/-- The type of the record that the value is. -/
def recordType? : Value → Option TypeName
  | .object r => some r.type
  | _ => none

/-- The type of the record that lies in a place. -/
def typeAt? (v : Value) (place : List Step) : Option TypeName := (v.at? place).bind recordType?

end ObjectMapping.Value
