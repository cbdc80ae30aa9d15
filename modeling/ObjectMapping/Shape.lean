import ObjectMapping.Value

/-! The shapes of slots: which data a slot may hold, how they are read as values
and which values may be written into it. Writing is strict: apart from `null` in
a nullable slot, a slot takes back only the kind of value that it yields. -/
namespace ObjectMapping

/-- A shape of values without parts whose range is fixed. -/
inductive PlainShape where
  | bool
  | int32
  | uint32
  | int64
  | uint64
  | float
  | double
  | string
  | dateTime
  deriving DecidableEq

/-- The shape of a slot, built up from plain ones without bound. -/
inductive Shape where
  | plain (p : PlainShape)
  /-- One of the values of an enumeration. -/
  | enum (e : Enumeration)
  /-- An embedded record of a fixed type. -/
  | record (type : TypeName)
  /-- A record of any type, or nothing. -/
  | variant
  | nullable (inner : Shape)
  | list (element : Shape)
  deriving DecidableEq

namespace PlainShape

/-- The tag of the shape. -/
def type : PlainShape → FieldType
  | bool => .bool
  | int32 => .int32
  | uint32 => .uint32
  | int64 => .int64
  | uint64 => .uint64
  | float => .float
  | double => .double
  | string => .string
  | dateTime => .dateTime

/-- The content that slots of the shape begin with. -/
def zero : PlainShape → Scalar
  | bool => .bool false
  | int32 => .int32 0
  | uint32 => .uint32 0
  | int64 => .int64 0
  | uint64 => .uint64 0
  | float => .float (.zero false)
  | double => .double (.zero false)
  | string => .string ""
  | dateTime => .dateTime .epoch

/-- The content that writing a scalar puts into a slot of the shape. A slot of
unsigned numbers also stores flags, so it takes an enumeration value as its number. -/
def accept : PlainShape → Scalar → Option Scalar
  | uint32, .enum n => some (.uint32 n)
  | p, s => if s.type = p.type then some s else none

end PlainShape

namespace Shape

/-- The tag of the shape; nullability does not show in it. -/
def type : Shape → FieldType
  | plain p => p.type
  | enum _ => .enum
  | record _ => .object
  | variant => .variant
  | nullable inner => inner.type
  | list _ => .array

/-- How many times the shape is nullable. -/
def nullableDepth : Shape → Nat
  | nullable inner => inner.nullableDepth + 1
  | _ => 0

/-- The enumeration whose values the shape holds. -/
def enumeration? : Shape → Option Enumeration
  | enum e => some e
  | nullable inner => inner.enumeration?
  | _ => none

/-- The type of the records that the shape embeds. -/
def recordType? : Shape → Option TypeName
  | record type => some type
  | nullable inner => inner.recordType?
  | _ => none

/-- The shape of the elements, for a list. -/
def element? : Shape → Option Shape
  | list element => some element
  | nullable inner => inner.element?
  | _ => none

/-- The content that slots of the shape begin with; embedded records begin as
`initial` says. -/
def zero (initial : TypeName → Record) : Shape → Datum
  | plain p => .scalar p.zero
  | enum e => .scalar (.enum e.default)
  | record type => .record (initial type)
  | variant => .vacant
  | nullable _ => .unset
  | list _ => .list []

/-- The content of one written enumeration value. -/
def enumOfNumber (e : Enumeration) (n : UInt32) : Except Error Datum :=
  if (e.nameOf? n).isSome then .ok (.scalar (.enum n)) else .error (e.unknownValue n)

/-- The content that writing a value puts into a slot that is neither nullable
nor a list. -/
def singleOfValue (shape : Shape) (v : Value) : Except Error Datum :=
  match shape, v with
  | plain p, .scalar s =>
    match p.accept s with
    | some stored => .ok (.scalar stored)
    | none => .error (Value.mismatch p.type v)
  | enum e, .enum n => enumOfNumber e n
  | enum e, .uint32 n => enumOfNumber e n
  | record type, .object r =>
    if r.type = type then .ok (.record r)
    else .error (.ofData (.typeMismatch .object) s!"object is not a {type}")
  | variant, .null => .ok .vacant
  | variant, .object r => .ok (.occupied r)
  | shape, v => .error (Value.mismatch shape.type v)

/-- The content that writing a value puts into a slot of the shape. -/
def ofValue : Shape → Value → Except Error Datum
  | nullable _, .null => .ok .unset
  | nullable inner, v => (inner.ofValue v).map .present
  | list element, .array items => (items.mapM element.ofValue).map .list
  | list _, v => .error (Value.mismatch .array v)
  | shape, v => shape.singleOfValue v

end Shape

end ObjectMapping
