import ObjectMapping.RecordType

/-! Fields: the described slots of a record type. A field knows how its slot is
read and written through values, where the slot lies (a field that a type inherits
lies inside the embedded record), and what happens when a source does not mention it. -/
namespace ObjectMapping

/-- What becomes of a field that a source does not mention. -/
inductive Mandatoriness where
  /-- The source is refused. -/
  | required
  /-- The field keeps its value. -/
  | optional
  /-- The field receives its default. -/
  | defaultable
  deriving DecidableEq

namespace Mandatoriness

/-- The name of the rule for display. -/
def name : Mandatoriness → String
  | required => "Required"
  | optional => "Optional"
  | defaultable => "Defaultable"

/-- Every rule, in the order of declaration. -/
def all : List Mandatoriness := [required, optional, defaultable]

end Mandatoriness

/-- A described slot of a record type. -/
structure Field where
  name : String
  /-- The type whose instances have the field. -/
  owner : TypeName
  /-- The slots that lead from an instance to the value, the last one holding it. -/
  path : List String
  shape : Shape
  /-- The tag of the field; that of its shape, unless numbers are declared to be
  values of an enumeration. -/
  type : FieldType
  enumeration : Option Enumeration
  mandatoriness : Mandatoriness
  explicitDefault : Option Value
  /-- What a slot of the shape reads as in the beginning. -/
  zero : Value
  primaryKey : Bool
  autoIncrement : Bool
  offset : Nat
  size : Nat

namespace Field

/-- The field for a slot of a type, before anything else is declared about it. -/
def ofSlot (c : Catalogue) (owner : TypeName) (slot : Slot) (name : String) : Field where
  name := name
  owner := owner
  path := [slot.name]
  shape := slot.shape
  type := slot.shape.type
  enumeration := slot.shape.enumeration?
  mandatoriness :=
    match slot.shape.type with
    | .enum | .array | .object => .defaultable
    | _ => .optional
  explicitDefault := none
  zero := (slot.shape.zero c.initial).toValue
  primaryKey := false
  autoIncrement := false
  offset := slot.offset
  size := slot.size

/-- The field with a default for absent values, which makes it defaultable. -/
def withDefault (f : Field) (value : Value) : Field :=
  { f with explicitDefault := some value, mandatoriness := .defaultable }

/-- The field with values described by an enumeration. Unsigned numbers become
values of the enumeration and the field defaultable. -/
def withEnumeration (f : Field) (e : Enumeration) : Field :=
  if f.type = .uint32 then
    { f with enumeration := some e, type := .enum, mandatoriness := .defaultable }
  else { f with enumeration := some e }

/-- The same field of a type that embeds the owner in the given slot. -/
def inherit (f : Field) (owner : TypeName) (base : Slot) : Field :=
  { f with owner := owner, path := base.name :: f.path, offset := base.offset + f.offset }

/-- Whether the field may hold no value. -/
def isNullable (f : Field) : Bool := 0 < f.shape.nullableDepth

/-- Whether the field's value fits into a single database column. -/
def isColumn (f : Field) : Bool := f.type.isColumn

/-- The error for a record that does not have the field. -/
def mismatch (f : Field) : Error :=
  .usage .objectMismatch s!"field '{f.name}' belongs to {f.owner}, not to the given object"

/-- A value read from the slot, as the field presents it. -/
def present (f : Field) : Value → Value
  | .uint32 bits => if f.type = .enum then .enum bits else .uint32 bits
  | v => v

/-- The value of the field in a record. -/
def get (f : Field) (r : Record) : Except Error Value :=
  if r.type = f.owner then
    match r.get? f.path with
    | some d => .ok (f.present d.toValue)
    | none => .error f.mismatch
  else .error f.mismatch

/-- The record with a new value in the field. -/
def set (f : Field) (r : Record) (v : Value) : Except Error Record :=
  if v.isNull && !f.isNullable && f.type != .variant then
    .error (.data .integrityError "NULL assigned to a non-nullable field" (some f.name))
  else if r.type = f.owner then do
    let d ← inField f.name (f.shape.ofValue v)
    match r.set? d f.path with
    | some changed => .ok changed
    | none => .error f.mismatch
  else .error f.mismatch

/-- The value that a defaultable field receives when a source does not mention it. -/
def defaultForAbsent (f : Field) : Value :=
  match f.explicitDefault with
  | some v => v
  | none =>
    match f.enumeration with
    | some e => if !f.isNullable && f.type == .enum then .enum e.default else f.zero
    | none => f.zero

/-- The record after a source has not mentioned the field. -/
def resolveAbsent (f : Field) (r : Record) : Except Error Record :=
  match f.mandatoriness with
  | .required => .error (.data .missingField "required field is absent" (some f.name))
  | .optional => .ok r
  | .defaultable => f.set r f.defaultForAbsent

end Field

end ObjectMapping
