import ObjectMapping.Row
import ObjectMapping.Statement

/-! Units of work over one connection. A transaction hands out statements and
keeps each of them on its way

    created → prepared → executed → done

whatever the connection answers. States only move forward, every statement stays
open until it is closed or the transaction ends, and every call that the connection
receives is entered in a journal. -/
namespace ObjectMapping

/-- How far a statement has come. -/
inductive StatementState where
  | created
  | prepared
  | executed
  | done
  deriving DecidableEq

namespace StatementState

/-- The position of the state on the way. -/
def rank : StatementState → Nat
  | created => 0
  | prepared => 1
  | executed => 2
  | done => 3

/-- The name of the state in messages. -/
def name : StatementState → String
  | created => "Created"
  | prepared => "Prepared"
  | executed => "Executed"
  | done => "Done"

/-- The error for a statement that is not in the state an operation wants. -/
def refusal (state wanted : StatementState) : Error :=
  let kind := match state with
    | created => UsageKind.notPrepared
    | prepared => .alreadyPrepared
    | executed => .alreadyExecuted
    | done => .statementDone
  .usage kind s!"statement is {state.name}, expected {wanted.name}"

end StatementState

/-- A reference to a statement of a transaction. -/
structure Handle where
  id : Nat
  kind : StatementKind
  deriving DecidableEq

/-- A backend connection with a state `σ` of its own, whose statements carry a
state `ι`. Every call may fail and may change the state nonetheless. -/
structure Connector (σ ι : Type) where
  dialect : Dialect
  start : Action σ Unit
  commit : Action σ Unit
  rollback : Action σ Unit
  create : StatementKind → String → Action σ ι
  prepare : Action (σ × ι) Unit
  /-- Run with positional parameters; yields the number of affected rows. -/
  execute : List Value → Action (σ × ι) Nat
  /-- Advance to the next row, if there is one. -/
  fetch : Action (σ × ι) (Option Row)
  lastInsertId : ι → Action σ Int64
  release : ι → σ → σ

/-- Open, prepare and execute a statement outside any transaction. Yields the number
of affected rows and the state of the statement, whose rows wait to be fetched. -/
def Connector.run (c : Connector σ ι) (sql : String) (params : List Value) :
    Action σ (Nat × ι) := do
  let statement ← c.create .custom sql
  let act : Action (σ × ι) Nat := do
    c.prepare
    c.execute params
  .ofFunction fun connection =>
    let (result, connection, statement) := act.perform (connection, statement)
    (result.map (·, statement), connection)

/-- A call that a connection receives. The text is that of the statement. -/
inductive Call where
  | start
  | commit
  | rollback
  | create (handle : Handle) (sql : String)
  | prepare (handle : Handle) (sql : String)
  | execute (handle : Handle) (sql : String) (params : List Value)
  | fetch (handle : Handle) (sql : String)
  | lastInsertId (handle : Handle) (sql : String)
  | release (handle : Handle) (sql : String)

/-- How a call ended. -/
inductive CallOutcome where
  | succeeded
  /-- A fetch that found no further row. -/
  | exhausted
  | failed
  deriving DecidableEq

/-- A call together with its outcome. -/
structure JournalEntry where
  call : Call
  outcome : CallOutcome

/-- An open statement. -/
structure OpenStatement (ι : Type) where
  sql : String
  state : StatementState
  params : List Value
  statement : ι

/-- A unit of work over a connection. -/
structure Transaction (σ ι : Type) where
  connection : σ
  active : Bool
  nextId : Nat
  /-- The open statements, in order of creation. -/
  statements : List (Handle × OpenStatement ι)
  journal : List JournalEntry
  notices : List Notice

namespace Transaction

variable {σ ι : Type}

/-- The transaction over a connection before anything has happened. -/
def new (connection : σ) : Transaction σ ι :=
  { connection, active := false, nextId := 1, statements := [], journal := [], notices := [] }

/-- The number of open statements. -/
def openCount (tx : Transaction σ ι) : Nat := tx.statements.length

/-- Enter a call in the journal. -/
def record (tx : Transaction σ ι) (call : Call) (outcome : CallOutcome) : Transaction σ ι :=
  { tx with journal := tx.journal ++ [⟨call, outcome⟩] }

/-- Whether a result counts as a success in the journal. -/
def outcomeOf : Except Error α → CallOutcome
  | .ok _ => .succeeded
  | .error _ => .failed

/-- Let the connection do something that involves no statement. -/
def onConnection (call : Call) (act : Action σ α) : Action (Transaction σ ι) α :=
  .ofFunction fun tx =>
    let (result, connection) := act.perform tx.connection
    (result, { tx with connection := connection }.record call (outcomeOf result))

/-- Begin a unit of work. -/
def start (c : Connector σ ι) : Action (Transaction σ ι) Unit := do
  if (← get).active then
    throw (.usage .transactionActive "a transaction is already in progress")
  onConnection .start c.start
  modify fun tx => { tx with active := true }

/-- End the unit of work and keep its changes. -/
def commit (c : Connector σ ι) : Action (Transaction σ ι) Unit := do
  if !(← get).active then
    throw (.usage .noActiveTransaction "commit without a transaction in progress")
  onConnection .commit c.commit
  modify fun tx => { tx with active := false }

/-- End the unit of work and undo its changes. -/
def rollback (c : Connector σ ι) : Action (Transaction σ ι) Unit := do
  if !(← get).active then
    throw (.usage .noActiveTransaction "rollback without a transaction in progress")
  onConnection .rollback c.rollback
  modify fun tx => { tx with active := false }

/-- Open a statement. -/
def create (c : Connector σ ι) (kind : StatementKind) (sql : String) :
    Action (Transaction σ ι) Handle := do
  let handle : Handle := ⟨(← get).nextId, kind⟩
  let statement ← (onConnection (.create handle sql) (c.create kind sql)).mapError (·.withSql sql)
  modify fun tx => { tx with
    nextId := tx.nextId + 1
    statements := tx.statements ++ [(handle, ⟨sql, .created, [], statement⟩)] }
  return handle

/-- The error for a handle that refers to no open statement. -/
def unknownStatement (h : Handle) : Error :=
  .usage .unknownStatement s!"no such statement: {h.id}"

/-- The open statement that a handle refers to. -/
def lookup (h : Handle) : Action (Transaction σ ι) (OpenStatement ι) := do
  match (← get).statements.lookup h with
  | some s => return s
  | none => throw (unknownStatement h)

/-- Change the open statement that a handle refers to. -/
def change (h : Handle) (f : OpenStatement ι → OpenStatement ι) (tx : Transaction σ ι) :
    Transaction σ ι :=
  { tx with statements := tx.statements.map fun (k, s) => if k = h then (k, f s) else (k, s) }

/-- The state of a statement. -/
def stateOf (h : Handle) : Action (Transaction σ ι) StatementState :=
  return (← lookup h).state

/-- Supply the parameters for the execution to come. -/
def bindParameters (h : Handle) (params : List Value) : Action (Transaction σ ι) Unit := do
  let s ← lookup h
  if StatementState.prepared.rank < s.state.rank then throw (s.state.refusal .prepared)
  modify (change h fun s => { s with params := params })

/-- Let the connection act on an open statement. -/
def onStatement (h : Handle) (s : OpenStatement ι) (call : Call) (outcome : α → CallOutcome)
    (act : Action (σ × ι) α) : Action (Transaction σ ι) α :=
  .ofFunction fun tx =>
    let (result, connection, statement) := act.perform (tx.connection, s.statement)
    let entry := match result with
      | .ok a => outcome a
      | .error _ => .failed
    let tx :=
      { tx with connection := connection }.change h fun s => { s with statement := statement }
    (result.mapError (·.withSql s.sql), tx.record call entry)

/-- Have the text of a created statement checked. -/
def prepare (c : Connector σ ι) (h : Handle) : Action (Transaction σ ι) Unit := do
  let s ← lookup h
  if s.state ≠ .created then throw (s.state.refusal .created)
  onStatement h s (.prepare h s.sql) (fun _ => .succeeded) c.prepare
  modify (change h fun s => { s with state := .prepared })

/-- Run a prepared statement; yields the number of affected rows. -/
def execute (c : Connector σ ι) (h : Handle) : Action (Transaction σ ι) Nat := do
  let s ← lookup h
  if s.state ≠ .prepared then throw (s.state.refusal .prepared)
  let affected ←
    onStatement h s (.execute h s.sql s.params) (fun _ => .succeeded) (c.execute s.params)
  modify (change h fun s => { s with state := .executed })
  return affected

/-- Prepare and execute a statement as far as that has not happened yet. -/
def ensureExecuted (c : Connector σ ι) (h : Handle) : StatementState → Action (Transaction σ ι) Unit
  | .created => do
    prepare c h
    let _ ← execute c h
  | .prepared => do
    let _ ← execute c h
  | _ => pure ()

/-- The next row of an executed statement, which is done when there is none. -/
def nextRow (c : Connector σ ι) (h : Handle) : Action (Transaction σ ι) (Option Row) := do
  let s ← lookup h
  let row ← onStatement h s (.fetch h s.sql)
    (fun row => if row.isSome then .succeeded else .exhausted) c.fetch
  if row.isNone then modify (change h fun s => { s with state := .done })
  return row

/-- Bind a row into the record, passing on what there is to tell. -/
def bindRow (row : Row) (d : Descriptor) : Action (Transaction σ ι × Record) Unit :=
  .ofFunction fun (tx, r) =>
    let (result, target) := (row.bind d).perform ⟨r, []⟩
    (result, { tx with notices := tx.notices ++ target.notices }, target.record)

/-- Bind the next row of a statement into a record of the described type, preparing
and executing the statement first if need be. Yields whether there was a row. -/
def fetchNext (c : Connector σ ι) (h : Handle) (d : Descriptor) :
    Action (Transaction σ ι × Record) Bool := do
  if !d.describes (← get).2 then
    throw (.usage .objectMismatch s!"fetch target is not a {d.name}")
  let s ← (lookup h).onFirst
  if s.state = .done then return false
  (ensureExecuted c h s.state).onFirst
  match ← (nextRow c h).onFirst with
  | none => return false
  | some row =>
    bindRow row d
    return true

/-- Write the key that the backend made up for an executed insertion into the
record. Yields whether the described type has a key. -/
def readGeneratedKey (c : Connector σ ι) (h : Handle) (d : Descriptor) :
    Action (Transaction σ ι × Record) Bool := do
  let some key := d.primaryKey? | return false
  let s ← (lookup h).onFirst
  if s.state.rank < StatementState.executed.rank then throw (s.state.refusal .executed)
  let id ← (onConnection (.lastInsertId h s.sql) (c.lastInsertId s.statement)).onFirst
  let value ← Action.ofExcept (inField key.name ((Value.int64 id).coerceInteger key.type))
  Action.onSecond (Action.update fun r => key.set r value)
  return true

/-- Release a statement; its handle refers to nothing from then on. -/
def close (c : Connector σ ι) (h : Handle) : Action (Transaction σ ι) Unit := do
  let s ← lookup h
  modify fun tx =>
    { tx with
      statements := tx.statements.filter (·.1 ≠ h)
      connection := c.release s.statement tx.connection }.record (.release h s.sql) .succeeded

/-- Release the given statements in order. -/
def releaseAll (c : Connector σ ι) :
    List (Handle × OpenStatement ι) → Transaction σ ι → Transaction σ ι
  | [], tx => tx
  | (h, s) :: rest, tx =>
    releaseAll c rest
      ({ tx with connection := c.release s.statement tx.connection }.record
        (.release h s.sql) .succeeded)

/-- Undo the unit of work that is still open, if there is one. -/
def abandon (c : Connector σ ι) (tx : Transaction σ ι) : Transaction σ ι :=
  if tx.active then
    match (onConnection .rollback c.rollback).perform tx with
    | (.ok _, tx) => tx
    | (.error e, tx) => { tx with notices := tx.notices ++ [.rollbackFailed e] }
  else tx

/-- End the transaction: release what is still open, with one notice for all of it,
and undo the unit of work that is still open. -/
def finish (c : Connector σ ι) (tx : Transaction σ ι) : Transaction σ ι :=
  let left := tx.statements
  let noted := if left.isEmpty then [] else [Notice.openStatements left.length]
  abandon c (releaseAll c left { tx with statements := [], notices := tx.notices ++ noted })

/-- The transaction in one line. -/
def summary (c : Connector σ ι) (tx : Transaction σ ι) : String :=
  "Transaction \x7b dialect: " ++ c.dialect.displayName ++ ", active: " ++ toString tx.active ++
    ", open_statements: " ++ toString tx.openCount ++ " \x7d"

end Transaction

end ObjectMapping
