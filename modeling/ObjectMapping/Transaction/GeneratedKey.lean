import ObjectMapping.Statement.Parameters
import ObjectMapping.Transaction.Run

/-! The key that the backend makes up for an inserted record: which field waits for it, and
which field it is written into. -/
namespace ObjectMapping.Insert

variable {σ ι : Type}

/-- Whether the value of the field is left to the backend. -/
def leaves (i : Insert) (f : Field) : Bool :=
  match f.get i.target.record with
  | .ok v => leftToBackend f v
  | .error _ => false

/-- The key fields that wait for a value from the backend. -/
def leftKeys (i : Insert) : List Field :=
  i.target.descriptor.columns.filter fun f => f.primaryKey && i.leaves f

/-- What the connection reports as the generated key once the insertion has run. -/
def reportedKey (i : Insert) (c : Connector σ ι) : Action (Transaction σ ι) Int64 := do
  let s ← Action.ofExcept (i.bind c.dialect)
  let h ← Transaction.create c .insert s.sql
  let _ ← Transaction.runOpen c h s.params
  let opened ← Transaction.lookup h
  Transaction.onConnection (.lastInsertId h opened.sql) (c.lastInsertId opened.statement)

/-- What an insertion is to leave of its record. -/
structure Settled (i : Insert) (reported : Except Error Int64) (after : Record) : Prop where
  /-- What was sent is still there. -/
  sent : ∀ f ∈ i.boundFields, ∃ v, f.get i.target.record = .ok v ∧ f.get after = .ok v
  /-- What was left to the backend is what the backend reports. -/
  generated : ∀ f ∈ i.leftKeys, ∃ id v, reported = .ok id ∧ f.get after = .ok v ∧
    v.toInt? = some id.toInt

/-- A key that waits for a value lies where the first field flagged as key does, and nothing
that is sent lies there. -/
def KeyFound (i : Insert) : Prop :=
  ∀ f ∈ i.leftKeys, (∃ key, i.target.descriptor.primaryKey? = some key ∧ key.path = f.path) ∧
    ∀ g ∈ i.boundFields, g.path ≠ f.path

end ObjectMapping.Insert
