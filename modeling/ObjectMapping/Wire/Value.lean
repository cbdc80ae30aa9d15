import ObjectMapping.Expr
import ObjectMapping.Text.Hex
import ObjectMapping.Value.Size
import ObjectMapping.Wire.Basic

/-! Values and records as trees that keep their types. Texts and truth values stand
for themselves; every other scalar is an object whose only key names its type, and
a floating number is given by its bits. A record names the descriptor that it is
read with. -/
namespace ObjectMapping.Wire

/-- What the names in trees stand for. -/
structure Scope where
  described : List Descriptor
  enums : List Enumeration
  /-- The record type of a short name. -/
  recordType : String → RecordType
  /-- The shape that a column is declared with. -/
  columnShape : String → ColumnShape

namespace Scope

/-- The descriptor of a name. -/
def descriptor (s : Scope) (j : Json) : Except Error Descriptor :=
  match s.described.find? (·.name == j.text) with
  | some d => .ok d
  | none => .error (.usage .unregisteredType s!"{j.text} is not described")

/-- The descriptor of the type that a record is an instance of. -/
def describing? (s : Scope) (r : Record) : Option Descriptor := s.described.find? (·.describes r)

/-- A field by its name, or else by its name up to case. -/
def field (d : Descriptor) (name : String) : Except Error Field :=
  match (d.field? name).or (d.fieldFolded? name) with
  | some f => .ok f
  | none => .error (.usage .objectMismatch s!"{d.name} has no field '{name}'")

end Scope

/-- A reported date-time as its six numbers. -/
def ofReported (t : ReportedTime) : Json :=
  ofWhole [t.year.toInt, t.month, t.day, t.hour, t.minute, t.second]

/-- The date-time of six numbers, as reported. -/
def readReported (j : Json) : ReportedTime :=
  ⟨.ofInt (j.nth 0).whole, (j.nth 1).count, (j.nth 2).count, (j.nth 3).count, (j.nth 4).count,
    (j.nth 5).count⟩

/-- The bits of a floating number in `width` digits. No number is like any other. -/
def ofFloating (width : Nat) (x : Floating f) : Json :=
  .string (if x.isNaN then "nan" else Hex.ofNat width x.toBits)

/-- The floating number of the given bits. -/
def readFloating (j : Json) : Floating f :=
  if j.text = "nan" then .nan else .ofBits ((Hex.number? j.text.toList).getD 0)

def ofScalar : Scalar → Json
  | .bool b => .bool b
  | .string s => .string s
  | .int32 n => .object [("int32", .integer n.toInt)]
  | .uint32 n => .object [("uint32", .integer n.toNat)]
  | .int64 n => .object [("int64", .integer n.toInt)]
  | .uint64 n => .object [("uint64", .integer n.toNat)]
  | .enum n => .object [("enum", .integer n.toNat)]
  | .float x => .object [("float", ofFloating 8 x)]
  | .double x => .object [("double", ofFloating 16 x)]
  | .dateTime t => .object [("datetime", ofReported t.toReported)]

/-- The scalar of the type that `tag` names. -/
def readScalar (tag : String) (j : Json) : Except Error Scalar :=
  match tag with
  | "int32" => .ok (.int32 (.ofInt j.whole))
  | "uint32" => .ok (.uint32 (.ofNat j.count))
  | "int64" => .ok (.int64 (.ofInt j.whole))
  | "uint64" => .ok (.uint64 (.ofNat j.count))
  | "enum" => .ok (.enum (.ofNat j.count))
  | "float" => .ok (.float (readFloating j))
  | "double" => .ok (.double (readFloating j))
  | "datetime" => (DateTime.ofReported (readReported j)).map .dateTime
  | _ => .error (.malformed s!"'{tag}' names no type of scalars")

variable (s : Scope)

mutual

/-- A tree as a value. -/
def readValue (j : Json) : Except Error Value :=
  match j with
  | .null => .ok .null
  | .bool b => .ok (.bool b)
  | .string text => .ok (.string text)
  | .object [("array", .array items)] => (readValues items).map .array
  | .object [("object", .object members)] => (readMembers members).map .object
  | .object [(tag, scalar)] => (readScalar tag scalar).map .scalar
  | _ => .error (.malformed "the tree stands for no value")
termination_by (sizeOf j, 0)

/-- Trees as values. -/
def readValues : List Json → Except Error (List Value)
  | [] => .ok []
  | j :: rest => do
    let v ← readValue j
    let others ← readValues rest
    return v :: others
termination_by items => (sizeOf items, 0)

/-- The record that the members of an object describe. -/
def readMembers (members : List (String × Json)) : Except Error Record :=
  let name := ((members.lookup "type").getD .null).text
  match s.described.find? (·.name == name) with
  | none => .ok (s.recordType name).initial
  | some d =>
    match found : members.lookup "fields" with
    | some (.object fields) =>
      have : sizeOf fields < sizeOf members := by
        have smaller := sizeOf_lookup_lt found
        simp at smaller
        omega
      readFields d d.initial fields
    | _ => .ok d.initial
termination_by (sizeOf members, 1)

/-- The record with the named fields set in order. -/
def readFields (d : Descriptor) (r : Record) : List (String × Json) → Except Error Record
  | [] => .ok r
  | (name, j) :: rest => do
    let v ← readValue j
    let f ← Scope.field d name
    readFields d (← f.set r v) rest
termination_by fields => (sizeOf fields, 0)

end

/-- A tree as a record. -/
def readRecord (j : Json) : Except Error Record := readMembers s j.members

mutual

def ofValue : Value → Json
  | .null => .null
  | .scalar x => ofScalar x
  | .object r => .object [("object", ofRecord r)]
  | .array items => .object [("array", .array (ofValues items))]
termination_by v => (sizeOf v, 0, 0)

def ofValues : List Value → List Json
  | [] => []
  | v :: rest => ofValue v :: ofValues rest
termination_by items => (sizeOf items, 0, 0)

/-- A record by the first descriptor of its type. -/
def ofRecord (r : Record) : Json :=
  match s.describing? r with
  | some d => ofRecordBy d r
  | none => .object [("type", .null)]
termination_by (sizeOf r, 2, 0)

/-- A record by the fields of a descriptor. -/
def ofRecordBy (d : Descriptor) (r : Record) : Json :=
  .object [("type", .string d.name), ("fields", .array (ofFields r d.fields))]
termination_by (sizeOf r, 1, 0)

/-- The fields of a record, each with its name. -/
def ofFields (r : Record) : List Field → List Json
  | [] => []
  | f :: rest =>
    let content := match read : f.get r with
      | .ok v =>
        have := Field.sizeOf_get_lt read
        ofValue v
      | .error e => ofError e
    .array [.string f.name, content] :: ofFields r rest
termination_by fields => (sizeOf r, 0, fields.length)

end

end ObjectMapping.Wire
