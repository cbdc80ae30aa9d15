/-! The tags that tell what kind of value a described field holds. Ten of them
fit into one database column; objects, arrays and variants do not. -/
namespace ObjectMapping

/-- The kind of value a field holds. A `variant` is a polymorphic object whose
type is named by a discriminant in the tree format. -/
inductive FieldType where
  | bool
  | int32
  | uint32
  | int64
  | uint64
  | float
  | double
  | string
  | enum
  | dateTime
  | object
  | array
  | variant
  deriving DecidableEq

namespace FieldType

/-- Whether the type is one of the four sized integer types. -/
def isInteger : FieldType → Bool
  | int32 | uint32 | int64 | uint64 => true
  | _ => false

/-- Whether the type is one of the two floating types. -/
def isFloating : FieldType → Bool
  | float | double => true
  | _ => false

/-- Whether a value of the type fits into a single database column. -/
def isColumn : FieldType → Bool
  | object | array | variant => false
  | _ => true

/-- The name of the type in messages. -/
def name : FieldType → String
  | bool => "bool"
  | int32 => "int32"
  | uint32 => "uint32"
  | int64 => "int64"
  | uint64 => "uint64"
  | float => "float"
  | double => "double"
  | string => "string"
  | enum => "enum"
  | dateTime => "datetime"
  | object => "object"
  | array => "array"
  | variant => "variant"

/-- Every type, in the order of declaration. -/
def all : List FieldType :=
  [bool, int32, uint32, int64, uint64, float, double, string, enum, dateTime, object, array,
    variant]

end FieldType

end ObjectMapping
