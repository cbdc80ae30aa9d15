import ObjectMapping.Registry
import ObjectMapping.Json.Settings

/-! What the place of a value tells about it, be it a field or an element of a list,
when the value is written as a tree or read from one. -/
namespace ObjectMapping

/-- The description of the place of a value. -/
structure Json.Context where
  type : FieldType
  nullable : Bool
  enumeration : Option Enumeration
  recordType : Option TypeName
  /-- The shape of the elements, if the place is known to hold a list. -/
  element : Option Shape

namespace Json.Context

/-- The place that a field is. -/
def ofField (f : Field) : Context where
  type := f.type
  nullable := f.isNullable
  enumeration := f.enumeration
  recordType := f.shape.recordType?
  element := f.shape.element?

/-- The place of the elements. A list of lists has no form as a tree. -/
def elements (c : Context) : Except Error Context :=
  match c.element with
  | none => .error (.ofData (.typeMismatch .array) "array field has no element description")
  | some e =>
    if e.type = .array then
      .error (.ofData .unsupportedNesting "arrays of arrays are not supported")
    else
      .ok {
        type := e.type
        nullable := 0 < e.nullableDepth
        enumeration := e.enumeration?
        recordType := e.recordType?
        element := none }

end Json.Context

/-- An explicit choice of the types that polymorphic values may have, under names of
their own. -/
abbrev TypeMap := List (String × Record)

namespace TypeMap

/-- The map with one more name, or with another type for a name. -/
def insert (map : TypeMap) (name : String) (initial : Record) : TypeMap :=
  map.filter (·.1 != name) ++ [(name, initial)]

/-- Every registered type under its registered name. -/
def ofRegistry (reg : Registry) : TypeMap :=
  reg.objects.foldl (fun map d => map.insert d.name d.initial) []

/-- Whether the name stands for a type. -/
def contains (map : TypeMap) (name : String) : Bool := map.any (·.1 == name)

/-- A new instance of the type that a name stands for. -/
def resolver (map : TypeMap) : Resolver := fun name => map.lookup name

end TypeMap

end ObjectMapping
