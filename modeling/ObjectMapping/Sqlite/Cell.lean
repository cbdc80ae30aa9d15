import ObjectMapping.Row
import ObjectMapping.Decimal

/-! The cells of a database: what a parameter is stored as, and how a cell is read
back as the value that a field asks for. -/
namespace ObjectMapping.Sqlite

/-- A stored value, by storage class. -/
inductive Cell where
  | null
  | integer (n : Int64)
  | real (x : Double)
  | text (s : String)
  | blob (bytes : List UInt8)
  deriving DecidableEq

namespace Cell

/-- The name of the storage class in messages. -/
def className : Cell → String
  | null => "Null"
  | integer _ => "Integer"
  | real _ => "Real"
  | text _ => "Text"
  | blob _ => "Blob"

/-- The cell that a scalar is bound as. -/
def ofScalar : Scalar → Except Error Cell
  | .bool b => .ok (integer (if b then 1 else 0))
  | .int32 n => .ok (integer n.toInt64)
  | .uint32 n => .ok (integer n.toUInt64.toInt64)
  | .enum n => .ok (integer n.toUInt64.toInt64)
  | .int64 n => .ok (integer n)
  | .uint64 n =>
    if n.toNat < 0x8000000000000000 then .ok (integer n.toInt64)
    else .error (.ofData (.typeMismatch .int64) s!"{n.toNat} exceeds the SQLite integer range")
  | .float x => .ok (real x.widen)
  | .double x => .ok (real x)
  | .string s => .ok (text s)
  | .dateTime t => .ok (text t.text)

/-- The cell that a value is bound as. -/
def ofValue : Value → Except Error Cell
  | .null => .ok null
  | .scalar s => ofScalar s
  | .object _ =>
    .error (.ofData (.unsupportedType .object) "objects cannot be bound as parameters")
  | .array _ =>
    .error (.ofData (.unsupportedType .array) "arrays cannot be bound as parameters")

/-- The cell as the database keeps it, which knows no `nan`. -/
def stored : Cell → Cell
  | real x => if x.isNaN then null else real x
  | other => other

/-- The error for a cell that cannot be read as a type. -/
def mismatch (target : FieldType) (c : Cell) : Error :=
  .ofData (.typeMismatch target) s!"SQLite {c.className} cannot be read as {target.name}"

/-- The cell as a truth value, number or enumeration value. -/
def toFixed (target : FieldType) (c : Cell) : Except Error Value :=
  match target, c with
  | .bool, integer n => .ok (.bool (n != 0))
  | .float, real x => .ok (.float x.narrow)
  | .float, integer n => .ok (.float (.ofInt n.toInt))
  | .double, real x => .ok (.double x)
  | .double, integer n => .ok (.double (.ofInt n.toInt))
  | target, integer n =>
    if target.isInteger || target == .enum then (Value.int64 n).coerceInteger target
    else .error (mismatch target c)
  | target, c => .error (mismatch target c)

/-- The bytes of the cell's text. -/
def textBytes : Cell → List UInt8
  | null => []
  | integer n => Utf8.bytes (toString n.toInt)
  | real x => Utf8.bytes x.plainText
  | text s => Utf8.bytes s
  | blob bytes => bytes

/-- The bytes of the cell's text, for room that must have exactly their number. -/
def toText (room : Nat) (c : Cell) : Except Error (List UInt8) :=
  let bytes := c.textBytes
  if room = bytes.length then .ok bytes
  else .error (.ofBackend .fetch
    s!"text buffer holds {room} bytes but the column has {bytes.length}")

/-- The cell as a point in time: canonical text, or seconds since the epoch. -/
def toTime : Cell → Except Error ReportedTime
  | text s =>
    match DateTime.readParts s with
    | some [year, month, day, hour, minute, second] =>
      .ok ⟨Int32.ofNat year, month, day, hour, minute, second⟩
    | _ => .error (.malformed s!"'{s}' is not a date-time of the form YYYY-MM-DD HH:MM:SS")
  | integer n => (DateTime.ofUnix n.toInt).map DateTime.toReported
  | c => .error (mismatch .dateTime c)

/-- The cell in a column of a row. -/
def inColumn (cells : List Cell) (index : Nat) : Except Error Cell :=
  match cells[index]? with
  | some c => .ok c
  | none =>
    .error (.ofBackend .fetch
      s!"column {index} requested but the current row has {cells.length} columns")

/-- Read access to a row of cells. -/
def row (columns : List String) (cells : List Cell) : Row where
  columns := columns
  isNull index := (inColumn cells index).map (· == null)
  fixed index target := (inColumn cells index).bind (toFixed target)
  textLength index := (inColumn cells index).map fun c => c.textBytes.length
  text index room := (inColumn cells index).bind (toText room)
  time index := (inColumn cells index).bind toTime

/-- The time that a row reports comes to the same date-time as another way to it: the one succeeds
exactly if the other does, what is reported numbers the month of the date-time from one, and both
fail for the form of their input only. -/
structure SameTime (reported : Except Error ReportedTime) (direct : Except Error DateTime) :
    Prop where
  agree : ∀ t, reported >>= DateTime.ofReported = .ok t ↔ direct = .ok t
  number : ∀ t, direct = .ok t → reported = .ok t.toReported
  malformed : ∀ e, reported >>= DateTime.ofReported = .error e ∨ direct = .error e →
    e.dataKind? = some .formatError

end Cell

end ObjectMapping.Sqlite
