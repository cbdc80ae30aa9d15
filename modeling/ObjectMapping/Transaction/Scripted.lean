import ObjectMapping.Transaction

/-! A connection without a database: its answers are set beforehand, and every kind
of call can be made to fail. -/
namespace ObjectMapping.Scripted

/-- The kinds of calls that can be made to fail. -/
inductive Fault where
  | start
  | commit
  | rollback
  | create
  | prepare
  | execute
  | fetch
  | lastId
  deriving DecidableEq

namespace Fault

/-- The name of the call in messages. -/
def name : Fault → String
  | start => "begin"
  | commit => "commit"
  | rollback => "rollback"
  | create => "create"
  | prepare => "prepare"
  | execute => "execute"
  | fetch => "fetch"
  | lastId => "last_id"

/-- The kind of the backend error. -/
def kind : Fault → BackendKind
  | start | commit | rollback => .transaction
  | create | prepare => .prepare
  | execute | lastId => .execute
  | fetch => .fetch

def all : List Fault := [start, commit, rollback, create, prepare, execute, fetch, lastId]

def ofName? (name : String) : Option Fault := all.find? (·.name == name)

end Fault

/-- An answer in a column of a row. -/
inductive Cell where
  | value (v : Value)
  | bytes (data : List UInt8)
  | time (t : ReportedTime)

/-- What the connection answers. -/
structure Script where
  columns : List String
  rows : List (List Cell)
  affected : Nat
  lastId : Int64
  faults : List Fault

namespace Script

/-- The script with a fault switched on or off. -/
def setFault (s : Script) (f : Fault) (on : Bool) : Script :=
  { s with faults := if on then f :: s.faults else s.faults.filter (· ≠ f) }

end Script

/-- A statement with the rows that were not fetched yet. -/
structure Statement where
  columns : List String
  pending : List (List Cell)

namespace Cell

/-- The failure of a row to answer. -/
def failure (what : String) : Error := .ofBackend .fetch s!"mock {what} failure"

/-- The cell in a column. -/
def inColumn (cells : List Cell) (index : Nat) : Except Error Cell :=
  match cells[index]? with
  | some c => .ok c
  | none => .error (failure "column")

def isNull : Cell → Bool
  | value .null => true
  | _ => false

/-- The value itself if it is of the wanted type, and otherwise converted as a whole number. -/
def toFixed (target : FieldType) : Cell → Except Error Value
  | value v => if v.type? = some target then .ok v else v.coerceInteger target
  | _ => .error (failure "fixed")

def toText : Cell → Except Error (List UInt8)
  | value (.string s) => .ok (Utf8.bytes s)
  | bytes data => .ok data
  | _ => .error (failure "text")

def toTime : Cell → Except Error ReportedTime
  | value (.dateTime t) => .ok t.toReported
  | time t => .ok t
  | _ => .error (failure "time")

/-- Read access to a row of answers. -/
def row (columns : List String) (cells : List Cell) : Row where
  columns := columns
  isNull index := (inColumn cells index).map isNull
  fixed index target := (inColumn cells index).bind (toFixed target)
  textLength index := ((inColumn cells index).bind toText).map List.length
  text index _ := (inColumn cells index).bind toText
  time index := (inColumn cells index).bind toTime

end Cell

/-- Fail if the script says so. -/
def guard (f : Fault) : Action Script Unit := do
  if (← get).faults.contains f then throw (.ofBackend f.kind s!"mock {f.name} failure")

/-- The connector that follows its script. -/
def connector (dialect : Dialect) : Connector Script Statement where
  dialect := dialect
  start := guard .start
  commit := guard .commit
  rollback := guard .rollback
  create _ _ := do
    guard .create
    return ⟨(← get).columns, []⟩
  prepare := (guard .prepare).onFirst
  execute _ := do
    (guard .execute).onFirst
    modify fun (script, s) => (script, { s with pending := script.rows })
    return (← get).1.affected
  fetch := do
    (guard .fetch).onFirst
    let (script, s) ← get
    match s.pending with
    | [] => return none
    | cells :: rest =>
      set (script, { s with pending := rest })
      return some (Cell.row s.columns cells)
  lastInsertId _ := do
    guard .lastId
    return (← get).lastId
  release _ script := script

end ObjectMapping.Scripted
