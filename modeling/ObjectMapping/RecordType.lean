import ObjectMapping.Shape

/-! Record types: the slots of their instances, the instance that new ones begin
as, and the memory layout as far as it is known. -/
namespace ObjectMapping

/-- A slot of a record type. -/
structure Slot where
  name : String
  shape : Shape
  offset : Nat
  size : Nat

/-- A record type. Its name is its identity. -/
structure RecordType where
  name : TypeName
  slots : List Slot
  /-- The bytes of an instance; zero, with all offsets and sizes, when unknown. -/
  size : Nat
  /-- The instance that new records begin as. -/
  initial : Record

namespace RecordType

/-- The slot of the given name. -/
def slot? (t : RecordType) (name : String) : Option Slot := t.slots.find? (·.name == name)

end RecordType

/-- The record types that a program declares. -/
abbrev Catalogue := List RecordType

namespace Catalogue

/-- The record type of the given name. -/
def type? (c : Catalogue) (name : TypeName) : Option RecordType := c.find? (·.name == name)

/-- The instance that records of the named type begin as. -/
def initial (c : Catalogue) (name : TypeName) : Record :=
  match c.type? name with
  | some t => t.initial
  | none => .mk name []

/-- The instance whose slots all begin as their shapes do. -/
def zeroRecord (c : Catalogue) (name : TypeName) (slots : List Slot) : Record :=
  .mk name (slots.map fun s => (s.name, s.shape.zero c.initial))

/-- The catalogue with one more type, whose instances begin with zeros. Types that
it embeds must be declared before. -/
def declare (c : Catalogue) (name : TypeName) (slots : List Slot) (size : Nat) : Catalogue :=
  c ++ [⟨name, slots, size, c.zeroRecord name slots⟩]

end Catalogue

end ObjectMapping
