import ObjectMapping.Registry
import ObjectMapping.Expr.Render

/-! Statements on the table of a stored record. A statement is put together
independently of any dialect; its text and its parameters are produced for one. -/
namespace ObjectMapping

/-- What a statement does. -/
inductive StatementKind where
  | select
  | insert
  | update
  | delete
  /-- Text that is passed to the backend as it is. -/
  | custom
  deriving DecidableEq

namespace StatementKind

/-- The name of the kind for display. -/
def name : StatementKind → String
  | select => "Select"
  | insert => "Insert"
  | update => "Update"
  | delete => "Delete"
  | custom => "Custom"

/-- Every kind, in the order of declaration. -/
def all : List StatementKind := [select, insert, update, delete, custom]

end StatementKind

/-- The text of a statement with the values of its placeholders in order. -/
structure BoundStatement where
  sql : String
  params : List Value

/-- The condition that results from adding one more. -/
def addFilter (filter : Option Expr) (e : Expr) : Option Expr :=
  some (match filter with
    | some old => old.and e
    | none => e)

/-- The key of a keyed statement. -/
def keyField (d : Descriptor) : Except Error Field :=
  match d.primaryKey? with
  | some key => .ok key
  | none => .error (.usage .missingPrimaryKey s!"{d.name} declares no primary key")

/-- The equation between the key column and the next placeholder. -/
def keyCondition (dialect : Dialect) (d : Descriptor) (key : Field) (index : Nat) : String :=
  dialect.qualified d.table key.name ++ " = " ++ dialect.placeholder index

/-- The `WHERE` clause for a condition and, for a keyed statement, the key of the
record, whose value joins the parameters bound so far. -/
def whereClause (dialect : Dialect) (target : Storable) (filter : Option Expr) (byKey : Bool)
    (bound : List Value) : Except Error BoundStatement := do
  let condition ← filter.mapM dialect.compile
  if byKey then
    let key ← keyField target.descriptor
    let value ← key.get target.record
    let equation := keyCondition dialect target.descriptor key (bound.length + 1)
    let sql := match condition with
      | some text => " WHERE (" ++ text ++ ") AND " ++ equation
      | none => " WHERE " ++ equation
    return ⟨sql, bound ++ [value]⟩
  else
    let sql := match condition with
      | some text => " WHERE " ++ text
      | none => ""
    return ⟨sql, bound⟩

end ObjectMapping
