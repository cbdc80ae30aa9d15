import ObjectMapping.Statement

/-! Changes to the rows of a record's table: updates, which assign columns, and
deletions. Both may be restricted to the row of the record's key. -/
namespace ObjectMapping

/-- What a column is set to. -/
inductive AssignedValue where
  | expr (e : Expr)
  /-- The value that the record holds when the statement is produced. -/
  | current

/-- The assignment of a column. -/
structure Assignment where
  column : ColumnRef
  value : AssignedValue

namespace TypedColumn

/-- The assignment of a constant of the column's shape. -/
def assign (c : TypedColumn) (d : Datum) : Assignment := ⟨c.ref, .expr (.constant d.toValue)⟩

/-- The assignment of an expression. -/
def assignExpr (c : TypedColumn) (e : Expr) : Assignment := ⟨c.ref, .expr e⟩

/-- The assignment of what the record holds. -/
def assignCurrent (c : TypedColumn) : Assignment := ⟨c.ref, .current⟩

end TypedColumn

/-- An update of rows of a record's table. -/
structure Update where
  target : Storable
  sets : List Assignment
  filter : Option Expr
  byKey : Bool

namespace Update

/-- The update that assigns nothing yet. -/
def start (target : Storable) : Update := { target, sets := [], filter := none, byKey := false }

/-- Add an assignment. -/
def set (u : Update) (a : Assignment) : Update := { u with sets := u.sets ++ [a] }

/-- Assign to every column but those of the key what the record holds. -/
def setAll (u : Update) : Except Error Update := do
  let d := u.target.descriptor
  let columns ← (d.columns.filter fun f => !f.primaryKey).mapM fun f => ColumnRef.make d f.name
  return { u with sets := u.sets ++ columns.map fun c => ⟨c, .current⟩ }

/-- Change only rows that satisfy one more condition. -/
def restrict (u : Update) (e : Expr) : Update := { u with filter := addFilter u.filter e }

/-- Change only the row with the record's key. -/
def byPrimaryKey (u : Update) : Update := { u with byKey := true }

/-- The text of one assignment, and the parameters bound up to it. -/
def setText (dialect : Dialect) (record : Record) (bound : List Value) (a : Assignment) :
    Except Error (String × List Value) := do
  let (right, bound) ← match a.value with
    | .expr e => do
      let text ← dialect.compile e
      pure (text, bound)
    | .current => do
      let v ← a.column.field.get record
      pure (dialect.placeholder (bound.length + 1), bound ++ [v])
  let left ← SqlStyle.compile ⟨dialect, false⟩ (.column a.column)
  return (left ++ " = " ++ right, bound)

/-- The texts of the assignments in order, and the parameters bound by them. -/
def setTexts (dialect : Dialect) (record : Record) :
    (bound : List Value) → List Assignment → Except Error (List String × List Value)
  | bound, [] => .ok ([], bound)
  | bound, a :: rest => do
    let (text, bound) ← setText dialect record bound a
    let (texts, bound) ← setTexts dialect record bound rest
    return (text :: texts, bound)

/-- The text and the parameters of the update. -/
def bind (u : Update) (dialect : Dialect) : Except Error BoundStatement := do
  if u.sets.isEmpty then throw (.usage .emptyUpdate "update without any assignment")
  let (texts, bound) ← setTexts dialect u.target.record [] u.sets
  let clause ← whereClause dialect u.target u.filter u.byKey bound
  return ⟨"UPDATE " ++ dialect.quoteIdentifier u.target.descriptor.table ++ " SET " ++
    ", ".intercalate texts ++ clause.sql, clause.params⟩

end Update

/-- A deletion of rows of a record's table. -/
structure Delete where
  target : Storable
  filter : Option Expr
  byKey : Bool

namespace Delete

/-- The deletion of all rows. -/
def all (target : Storable) : Delete := { target, filter := none, byKey := false }

/-- Delete only rows that satisfy one more condition. -/
def restrict (x : Delete) (e : Expr) : Delete := { x with filter := addFilter x.filter e }

/-- Delete only the row with the record's key. -/
def byPrimaryKey (x : Delete) : Delete := { x with byKey := true }

/-- The text and the parameters of the deletion. -/
def bind (x : Delete) (dialect : Dialect) : Except Error BoundStatement := do
  let clause ← whereClause dialect x.target x.filter x.byKey []
  return ⟨"DELETE FROM " ++ dialect.quoteIdentifier x.target.descriptor.table ++ clause.sql,
    clause.params⟩

end Delete

end ObjectMapping
