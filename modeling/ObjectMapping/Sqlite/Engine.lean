import ObjectMapping.Sqlite.Cell
import ObjectMapping.Transaction

/-! Connections to a database engine. The engine is a parameter: what it makes of the texts of
statements is left to it. The rows of a query are copied when it is executed, so that a statement
does not hold on to the database while its rows are read. -/
namespace ObjectMapping.Sqlite

/-- What the engine says about a text. -/
structure Prepared where
  /-- The names of the columns of the result; a text that yields no rows has none. -/
  columns : List String
  /-- Why the parameter at a position, counted from one, cannot be bound. -/
  refuses : Nat → Option String

/-- What keeps a query from yielding more rows. -/
inductive Stop where
  /-- The engine could not step to the next row. -/
  | step (message : String)
  /-- A cell of the next row could not be copied. -/
  | copy (message : String)

/-- The rows that a query has yielded, and what stopped it before the last one. -/
structure Answer where
  rows : List (List Cell)
  stop : Option Stop

/-- A database engine with a state of type `δ`. Failures come with the message of the engine. -/
structure Engine (δ : Type) where
  /-- Run a text without parameters for its effect. -/
  batch : String → δ → Except String Unit × δ
  prepare : String → δ → Except String Prepared
  /-- Run a text that yields no rows; yields the number of affected rows. -/
  run : String → List Cell → δ → Except String Nat × δ
  query : String → List Cell → δ → Answer × δ
  lastId : δ → Int64

/-- A statement with the rows that were not fetched yet. -/
structure Statement where
  sql : String
  columns : List String
  pending : List (List Cell)

namespace Stop

def error : Stop → Error
  | step message => .ofBackend .execute message
  | copy message => .ofBackend .fetch message

end Stop

namespace Answer

/-- How the execution of the query ends; no row counts as affected. -/
def outcome (a : Answer) : Except Error Nat :=
  match a.stop with
  | none => .ok 0
  | some stop => .error stop.error

end Answer

namespace Prepared

/-- The parameters from the given position on as cells, each of them bound before the next one is
looked at. -/
def bind (p : Prepared) : (position : Nat) → List Value → Except Error (List Cell)
  | _, [] => .ok []
  | position, v :: rest => do
    let c ← Cell.ofValue v
    match p.refuses position with
    | some message => throw (.ofBackend .execute message)
    | none =>
      let cells ← p.bind (position + 1) rest
      return c :: cells

end Prepared

namespace Engine

variable {δ : Type} (e : Engine δ)

/-- Run a text that opens or closes a transaction. -/
def control (sql : String) : Action δ Unit :=
  .ofFunction fun db =>
    let (outcome, db) := e.batch sql db
    (outcome.mapError fun message => .backend .transaction message (some sql), db)

def prepared (sql : String) (db : δ) : Except Error Prepared :=
  (e.prepare sql db).mapError (.ofBackend .prepare)

/-- Take over the names of the columns. -/
def prepareStatement : Action (δ × Statement) Unit := do
  let (db, s) ← get
  let p ← .ofExcept (e.prepared s.sql db)
  set (db, { s with columns := p.columns })

/-- Run the statement. What an earlier execution left is replaced by the rows of a query, as many as
there were until it stopped, and stays if the text yields no rows. -/
def execute (params : List Value) : Action (δ × Statement) Nat := do
  let (db, s) ← get
  let p ← .ofExcept (e.prepared s.sql db)
  let cells ← .ofExcept (p.bind 1 params)
  if p.columns.isEmpty then
    .ofFunction fun (db, s) =>
      let (outcome, db) := e.run s.sql cells db
      (outcome.mapError (.ofBackend .execute), db, s)
  else
    .ofFunction fun (db, s) =>
      let (answer, db) := e.query s.sql cells db
      (answer.outcome, db, { s with pending := answer.rows })

/-- The next of the copied rows. -/
def fetch : Action (δ × Statement) (Option Row) := do
  let (db, s) ← get
  match s.pending with
  | [] => return none
  | cells :: rest =>
    set (db, { s with pending := rest })
    return some (Cell.row s.columns cells)

/-- A connection to the engine. -/
def connector : Connector δ Statement where
  dialect := .sqlite
  start := e.control "BEGIN"
  commit := e.control "COMMIT"
  rollback := e.control "ROLLBACK"
  create _ sql := pure ⟨sql, [], []⟩
  prepare := e.prepareStatement
  execute := e.execute
  fetch := fetch
  lastInsertId _ := return e.lastId (← get)
  release _ db := db

end Engine

end ObjectMapping.Sqlite
