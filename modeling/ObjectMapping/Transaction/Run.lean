import ObjectMapping.Transaction
import ObjectMapping.Statement.Select
import ObjectMapping.Statement.Insert
import ObjectMapping.Statement.Update

/-! Running statements in a transaction. Whatever happens on the way, the statement
that a run opened is closed again; only a query stays open, as a cursor, until
the cursor is closed. -/
namespace ObjectMapping

variable {σ ι : Type}

namespace Transaction

/-- Close a statement, if it is still open. -/
def dispose (c : Connector σ ι) (h : Handle) : Action (Transaction σ ι) Unit :=
  .ofFunction fun tx => (.ok (), ((close c h).perform tx).2)

/-- Bind, prepare and execute an open statement. -/
def runOpen (c : Connector σ ι) (h : Handle) (params : List Value) :
    Action (Transaction σ ι) Nat := do
  bindParameters h params
  prepare c h
  execute c h

/-- Open, run and close a statement. -/
def run (c : Connector σ ι) (kind : StatementKind) (s : BoundStatement) :
    Action (Transaction σ ι) Nat := do
  let h ← create c kind s.sql
  (runOpen c h s.params).andFinally (dispose c h)

end Transaction

namespace Insert

/-- Insert the record, which receives the key that the backend made up. Yields the
number of affected rows. -/
def exec (c : Connector σ ι) (d : Descriptor) : Action (Transaction σ ι × Record) Nat := do
  let i : Insert := ⟨⟨(← get).2, d⟩⟩
  let generated := generatesKey (← Action.ofExcept i.currentValues)
  let s ← Action.ofExcept (i.bind c.dialect)
  let h ← (Transaction.create c .insert s.sql).onFirst
  let body : Action (Transaction σ ι × Record) Nat := do
    let affected ← (Transaction.runOpen c h s.params).onFirst
    if generated then
      let _ ← Transaction.readGeneratedKey c h d
    return affected
  body.andFinally (Transaction.dispose c h).onFirst

end Insert

namespace Update

/-- Run the update; yields the number of affected rows. -/
def exec (u : Update) (c : Connector σ ι) : Action (Transaction σ ι) Nat := do
  Transaction.run c .update (← Action.ofExcept (u.bind c.dialect))

end Update

namespace Delete

/-- Run the deletion; yields the number of affected rows. -/
def exec (x : Delete) (c : Connector σ ι) : Action (Transaction σ ι) Nat := do
  Transaction.run c .delete (← Action.ofExcept (x.bind c.dialect))

end Delete

/-- Run a statement given as text. -/
def runCustom (c : Connector σ ι) (sql : String) : Action (Transaction σ ι) Unit := do
  let _ ← Transaction.run c .custom ⟨sql, []⟩

/-- The open statement of a query, whose rows are bound into a record one by one. -/
structure Cursor where
  handle : Handle
  descriptor : Descriptor

namespace Select

/-- Open the query; it runs when the first row is asked for. -/
def exec (q : Select) (c : Connector σ ι) : Action (Transaction σ ι) Cursor := do
  let sql ← Action.ofExcept (q.sql c.dialect)
  return ⟨← Transaction.create c .select sql, q.target.descriptor⟩

end Select

namespace Cursor

/-- Bind the next row into the record; yields whether there was one. -/
def fetchNext (k : Cursor) (c : Connector σ ι) : Action (Transaction σ ι × Record) Bool :=
  Transaction.fetchNext c k.handle k.descriptor

/-- Close the statement of the cursor, if it is still open. -/
def close (k : Cursor) (c : Connector σ ι) : Action (Transaction σ ι) Unit :=
  Transaction.dispose c k.handle

/-- The record after each of the remaining rows, but of at most `limit` rows. -/
def collect (k : Cursor) (c : Connector σ ι) :
    (limit : Nat) → Action (Transaction σ ι × Record) (List Record)
  | 0 => pure []
  | limit + 1 => do
    if ← k.fetchNext c then
      let current := (← get).2
      let rest ← k.collect c limit
      return current :: rest
    else return []

/-- Like `collect`, closing the cursor in the end. -/
def fetchAll (k : Cursor) (c : Connector σ ι) (limit : Nat) :
    Action (Transaction σ ι × Record) (List Record) :=
  (k.collect c limit).andFinally (k.close c).onFirst

end Cursor

end ObjectMapping
