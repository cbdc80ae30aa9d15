import ObjectMapping.Action
import ObjectMapping.Descriptor
import ObjectMapping.Text.Utf8

/-! Rows of a result and their binding into records. Columns are matched with
fields by name, up to case; a column without a field is skipped with a notice. A
failure stops at its column, and the fields bound before keep their new values. -/
namespace ObjectMapping

/-- Something worth telling that does not fail the operation at hand. -/
inductive Notice where
  /-- A column of a result that no field is named after. -/
  | unmatchedColumn (column object : String)
  /-- The number of statements still open when their transaction ended. -/
  | openStatements (count : Nat)
  /-- The unit of work left open at the end of a transaction could not be undone. -/
  | rollbackFailed (cause : Error)
  deriving DecidableEq

namespace Notice

/-- Whether the notice reports a failure and not only a warning. -/
def isFailure : Notice → Bool
  | rollbackFailed _ => true
  | _ => false

end Notice

/-- Read access to the current row of an executed statement. Text is read in two
steps: its length in bytes, then the bytes into room of exactly that length. -/
structure Row where
  columns : List String
  isNull : Nat → Except Error Bool
  /-- A truth value, number or enumeration value as the wanted type. -/
  fixed : Nat → FieldType → Except Error Value
  textLength : Nat → Except Error Nat
  text : Nat → (room : Nat) → Except Error (List UInt8)
  time : Nat → Except Error ReportedTime

/-- A record that a row is being bound into, and what there was to tell on the way. -/
structure BindTarget where
  record : Record
  notices : List Notice

namespace Row

/-- The text in a column. -/
def readText (row : Row) (index : Nat) : Except Error Value := do
  let length ← row.textLength index
  let bytes ← row.text index length
  match Utf8.read bytes with
  | .ok text => return .string text
  | .error fault => throw (.malformed fault.message)

/-- The value in a column that is not `NULL`, as a field type asks for it. -/
def readAs (row : Row) (index : Nat) (type : FieldType) : Except Error Value :=
  match type with
  | .string => row.readText index
  | .dateTime => do
    let reported ← row.time index
    let time ← DateTime.ofReported reported
    return .dateTime time
  | .object | .array | .variant =>
    .error (.ofData (.unsupportedType type) "cannot bind non-plain objects from a result column")
  | _ => row.fixed index type

/-- The value in a column for a field; only a nullable field takes `NULL`. -/
def readField (row : Row) (index : Nat) (f : Field) : Except Error Value := do
  if ← row.isNull index then
    if f.isNullable then return .null
    else throw (.data .integrityError "NULL fetched into a non-nullable field" (some f.name))
  else inField f.name (row.readAs index f.type)

/-- The record with the value of a column in a field. -/
def bindColumn (row : Row) (index : Nat) (f : Field) (r : Record) : Except Error Record := do
  f.set r (← row.readField index f)

/-- Bind the columns, the first of which is at `index`. -/
def bindColumns (row : Row) (d : Descriptor) : (index : Nat) → List String → Action BindTarget Unit
  | _, [] => pure ()
  | index, name :: rest => do
    match d.fieldFolded? name with
    | some f =>
      Action.update fun t => (row.bindColumn index f t.record).map fun r => { t with record := r }
    | none =>
      modify fun t => { t with notices := t.notices ++ [.unmatchedColumn name d.name] }
    bindColumns row d (index + 1) rest

/-- Bind the row into a record of the described type. -/
def bind (row : Row) (d : Descriptor) : Action BindTarget Unit :=
  row.bindColumns d 0 row.columns

/-- Asked in the way of the value's type, the row answers for the column with the value. -/
def Yields (row : Row) (index : Nat) : Value → Prop
  | .null => row.isNull index = .ok true
  | .string text =>
    row.isNull index = .ok false ∧ row.textLength index = .ok (Utf8.bytes text).length ∧
      row.text index (Utf8.bytes text).length = .ok (Utf8.bytes text)
  | .dateTime t => row.isNull index = .ok false ∧ row.time index = .ok t.toReported
  | v => row.isNull index = .ok false ∧ ∀ type, v.type? = some type → row.fixed index type = .ok v

/-- The row has the columns that a query for the described records lists, one for each
column field, and in them the values of the record. -/
structure Shows (row : Row) (d : Descriptor) (r : Record) : Prop where
  columns : row.columns = d.columns.map (·.name)
  cells : ∀ index f v, d.columns[index]? = some f → f.get r = .ok v → row.Yields index v

end Row

/-- Every column field is the first field that has its name up to case. -/
def Descriptor.ColumnsFound (d : Descriptor) : Prop :=
  ∀ f ∈ d.columns, d.fieldFolded? f.name = some f

end ObjectMapping
