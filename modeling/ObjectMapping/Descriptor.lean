import ObjectMapping.Field
import ObjectMapping.Text.Identifier

/-! Descriptors: the name, the table and the fields under which the instances of a
record type are known. Inherited fields come first; the order of fields is the
order of columns and of keys. A descriptor is put together step by step and
checked as a whole at the end. -/
namespace ObjectMapping

/-- The described type that a descriptor inherits from. -/
structure SuperType where
  name : String
  type : TypeName

/-- The description of a record type. -/
structure Descriptor where
  name : String
  table : String
  type : TypeName
  super : Option SuperType
  fields : List Field
  /-- How many of the fields, at the front, are inherited. -/
  inherited : Nat
  /-- The instance that new records begin as. -/
  initial : Record

/-- ASCII letters in lower case, everything else as it is. -/
def foldCase (text : String) : String := String.ofList (text.toList.map Char.toLower)

namespace Descriptor

/-- The fields that are not inherited. -/
def ownFields (d : Descriptor) : List Field := d.fields.drop d.inherited

/-- The fields that fit into database columns. -/
def columns (d : Descriptor) : List Field := d.fields.filter Field.isColumn

/-- The field of exactly the given name. -/
def field? (d : Descriptor) (name : String) : Option Field := d.fields.find? (·.name == name)

/-- The first field whose name agrees up to the case of ASCII letters. -/
def fieldFolded? (d : Descriptor) (name : String) : Option Field :=
  d.fields.find? fun f => foldCase f.name == foldCase name

/-- The first field flagged as primary key. -/
def primaryKey? (d : Descriptor) : Option Field := d.fields.find? (·.primaryKey)

/-- Whether the record is an instance of the described type. -/
def describes (d : Descriptor) (r : Record) : Bool := r.type == d.type

/-- A new instance from named values: of several values of one name the first
counts, and fields without a value are resolved as absent. -/
def construct (d : Descriptor) (values : List (String × Value)) : Except Error Record :=
  d.fields.foldlM (fun r f =>
    match values.lookup f.name with
    | some v => f.set r v
    | none => f.resolveAbsent r) d.initial

/-- Apply a step to every field in order, until one fails. -/
def visit [Monad m] (d : Descriptor) (step : Field → m PUnit) : m PUnit := d.fields.forM step

end Descriptor

/-- A descriptor that is being put together. -/
structure Descriptor.Draft where
  type : RecordType
  name : String
  table : Option String
  super : Option SuperType
  fields : List Field
  inherited : Nat

namespace Descriptor

/-- The beginning of a descriptor. -/
def draft (type : RecordType) (name : String) : Draft :=
  { type, name, table := none, super := none, fields := [], inherited := 0 }

namespace Draft

/-- Inherit the fields of a described type that the slot `base` embeds. This comes
before the type's own fields. -/
def extend (b : Draft) (d : Descriptor) (base : Slot) : Except Error Draft :=
  let embedded := base.shape.recordType?.getD ""
  if d.type ≠ embedded then
    .error (.metadata .superMismatch s!"{d.name} describes {d.type}, not {embedded}")
  else if !b.fields.isEmpty then
    .error (.metadata .superMismatch s!"{b.name} must declare its super type before its fields")
  else
    let fields := d.fields.map fun f => f.inherit b.type.name base
    .ok { b with fields := fields, inherited := fields.length, super := some ⟨d.name, d.type⟩ }

/-- Add a field. -/
def field (b : Draft) (f : Field) : Draft := { b with fields := b.fields ++ [f] }

/-- Whether a default of the given type suits the field. -/
def suits (f : Field) : Option FieldType → Bool
  | none => f.isNullable
  | some t => t == f.type || t == .uint32 && f.enumeration.isSome

/-- The complaint about a field taken by itself, if there is one. -/
def complaint? (b : Draft) (f : Field) : Option Error :=
  let place := s!"{b.name}.{f.name}"
  if !isIdentifier f.name then
    some (.metadata .invalidName s!"{place} is not a valid identifier")
  else if b.type.size < f.offset + f.size then
    some (.metadata .layout
      s!"{place} at offset {f.offset} with size {f.size} exceeds object size {b.type.size}")
  else if 1 < f.shape.nullableDepth then
    some (.metadata .nestedNullable s!"{place} is a nullable of a nullable")
  else if (f.shape.element?.map Shape.nullableDepth).any (1 < ·) then
    some (.metadata .nestedNullable s!"{place} holds nullables of nullables")
  else
    match f.explicitDefault with
    | none => none
    | some v =>
      if !suits f v.type? then
        some (.metadata .defaultMismatch
          s!"{place} is {f.type.name} but its default is {v.kindName}")
      else
        match v, f.enumeration with
        | .enum n, some e =>
          if e.contains n then none
          else some (.metadata .defaultMismatch
            s!"{place} default {n.toNat} is not a value of {e.name}")
        | _, _ => none

/-- Check the fields in order against each other and by themselves. -/
def checkFields (b : Draft) : (seen : List String) → List Field → Except Error Unit
  | _, [] => .ok ()
  | seen, f :: rest =>
    if f.owner ≠ b.type.name then
      .error (.metadata .unknownReference
        s!"field '{f.name}' is bound to {f.owner}, not to {b.name}")
    else
      match b.complaint? f with
      | some e => .error e
      | none =>
        if seen.contains f.name then
          .error (.metadata .duplicateField s!"{b.name} declares field '{f.name}' twice")
        else checkFields b (f.name :: seen) rest

/-- The finished descriptor, if nothing is wrong with it. -/
def build (b : Draft) : Except Error Descriptor := do
  let table := b.table.getD b.name
  for name in [b.name, table] do
    if !isIdentifier name then
      throw (.metadata .invalidName s!"'{name}' is not a valid identifier")
  b.checkFields [] b.fields
  return {
    name := b.name
    table := table
    type := b.type.name
    super := b.super
    fields := b.fields
    inherited := b.inherited
    initial := b.type.initial }

end Draft

end Descriptor

end ObjectMapping
