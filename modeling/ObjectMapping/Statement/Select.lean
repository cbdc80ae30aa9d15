import ObjectMapping.Statement

/-! Queries. A query lists the columns of its target, may join further tables in
one way, and filters, orders and pages its rows. -/
namespace ObjectMapping

/-- How a query joins further tables. -/
inductive JoinKind where
  | inner
  | leftOuter
  deriving DecidableEq

namespace JoinKind

/-- The name of the kind in messages. -/
def name : JoinKind → String
  | inner => "Inner"
  | leftOuter => "LeftOuter"

def keyword : JoinKind → String
  | inner => "INNER JOIN"
  | leftOuter => "LEFT OUTER JOIN"

end JoinKind

/-- A joined table; without a condition every pair of rows is joined. -/
structure Join where
  table : String
  condition : Option Expr

/-- A query for the rows of a record's table. -/
structure Select where
  target : Storable
  filter : Option Expr
  joinKind : Option JoinKind
  joins : List Join
  /-- The keys of the order, each with whether it ascends. -/
  order : List (Expr × Bool)
  limit : Option Nat
  offset : Option Nat

namespace Select

/-- The query for all rows. -/
def all (target : Storable) : Select :=
  { target, filter := none, joinKind := none, joins := [], order := [], limit := none,
    offset := none }

/-- Join one more table; all joins of a query are of one kind. -/
def join (q : Select) (kind : JoinKind) (d : Descriptor) (condition : Option Expr) :
    Except Error Select :=
  let joined : Select :=
    { q with joinKind := some kind, joins := q.joins ++ [⟨d.table, condition⟩] }
  match q.joinKind with
  | none => .ok joined
  | some active =>
    if active = kind then .ok joined
    else .error (.usage .mixedJoins
      s!"cannot add a {kind.name} join to a {active.name} join")

/-- Keep only rows that satisfy one more condition. -/
def restrict (q : Select) (e : Expr) : Select := { q with filter := addFilter q.filter e }

/-- Order by one more key. -/
def orderBy (q : Select) (e : Expr) (ascending : Bool) : Select :=
  { q with order := q.order ++ [(e, ascending)] }

/-- The listed columns. -/
def columnList (q : Select) (dialect : Dialect) : String :=
  let d := q.target.descriptor
  match d.columns with
  | [] => "*"
  | columns => ", ".intercalate (columns.map fun f => dialect.qualified d.table f.name)

/-- The text of one join. -/
def joinText (q : Select) (dialect : Dialect) (j : Join) : Except Error String := do
  let condition ← match j.condition with
    | some e => dialect.compile e
    | none => pure "1 = 1"
  let keyword := (q.joinKind.getD .inner).keyword
  return " " ++ keyword ++ " " ++ dialect.quoteIdentifier j.table ++ " ON " ++ condition

/-- The text of one key of the order. -/
def orderText (dialect : Dialect) (key : Expr × Bool) : Except Error String := do
  let text ← dialect.compile key.1
  return text ++ (if key.2 then " ASC" else " DESC")

/-- The text of the query. -/
def sql (q : Select) (dialect : Dialect) : Except Error String := do
  let source := dialect.quoteIdentifier q.target.descriptor.table
  let joins ← q.joins.mapM (q.joinText dialect)
  let filter ← q.filter.mapM dialect.compile
  let order ← q.order.mapM (orderText dialect)
  return "SELECT " ++ q.columnList dialect ++ " FROM " ++ source ++ String.join joins ++
    (match filter with | some text => " WHERE " ++ text | none => "") ++
    (if order.isEmpty then "" else " ORDER BY " ++ ", ".intercalate order) ++
    dialect.pagination q.limit q.offset (!q.order.isEmpty)

end Select

end ObjectMapping
