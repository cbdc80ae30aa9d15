import Mathlib.Data.List.Forall2
import ObjectMapping.Statement.Select

/-! Queries as the calls that put them together: what the calls of each kind contribute, the query
that comes of it, and its text. -/
namespace ObjectMapping

namespace Expr

/-- The conditions in one. A single one stays as it is, and several become one node, with the
conditions of those that are conjunctions themselves side by side with the others. -/
def conjunction : List Expr → Option Expr
  | [] => none
  | [e] => some e
  | es => some (logical .and (es.flatMap (·.conjuncts .and)))

end Expr

namespace JoinKind

/-- The error for a join that is not of the kind of those before it. -/
def mixed (active kind : JoinKind) : Error :=
  .usage .mixedJoins s!"cannot add a {kind.name} join to a {active.name} join"

end JoinKind

namespace Select

/-- A call on a query that is being put together. -/
inductive Step where
  | join (kind : JoinKind) (d : Descriptor) (condition : Option Expr)
  | filter (e : Expr)
  | order (e : Expr) (ascending : Bool)
  | limit (n : Nat)
  | offset (n : Nat)

namespace Step

/-- What the call makes of a query. -/
def apply (q : Select) : Step → Except Error Select
  | join kind d condition => q.join kind d condition
  | filter e => .ok (q.restrict e)
  | order e ascending => .ok (q.orderBy e ascending)
  | limit n => .ok { q with limit := some n }
  | offset n => .ok { q with offset := some n }

def join? : Step → Option (JoinKind × Join)
  | join kind d condition => some (kind, ⟨d.table, condition⟩)
  | _ => none

def filter? : Step → Option Expr
  | filter e => some e
  | _ => none

def order? : Step → Option (Expr × Bool)
  | order e ascending => some (e, ascending)
  | _ => none

def limit? : Step → Option Nat
  | limit n => some n
  | _ => none

def offset? : Step → Option Nat
  | offset n => some n
  | _ => none

end Step

/-- The query for all rows after a sequence of calls, which ends at the first one that fails. -/
def made (target : Storable) (steps : List Step) : Except Error Select :=
  steps.foldlM Step.apply (all target)

section

variable (steps : List Step)

def joinsOf : List (JoinKind × Join) := steps.filterMap Step.join?

def filtersOf : List Expr := steps.filterMap Step.filter?

def orderOf : List (Expr × Bool) := steps.filterMap Step.order?

/-- The limit that was set last. -/
def limitOf : Option Nat := (steps.filterMap Step.limit?).getLast?

/-- The offset that was set last. -/
def offsetOf : Option Nat := (steps.filterMap Step.offset?).getLast?

/-- The kind of the first join. -/
def kindOf : Option JoinKind := (joinsOf steps).head?.map (·.1)

/-- The calls of each kind put side by side. -/
def assembled (target : Storable) : Select where
  target := target
  filter := Expr.conjunction (filtersOf steps)
  joinKind := kindOf steps
  joins := (joinsOf steps).map (·.2)
  order := orderOf steps
  limit := limitOf steps
  offset := offsetOf steps

end

/-- Two sequences have the same joins, the same filters and the same keys of the order, each in the
same order, and the last of their limits and of their offsets are the same. -/
structure Alike (steps others : List Step) : Prop where
  joins : joinsOf others = joinsOf steps
  filters : filtersOf others = filtersOf steps
  order : orderOf others = orderOf steps
  limit : limitOf others = limitOf steps
  offset : offsetOf others = offsetOf steps

/-- All joins are of one kind. -/
def OneKind (steps : List Step) : Prop := ∀ j ∈ joinsOf steps, some j.1 = kindOf steps

/-- Joins of one kind are followed by the first one of the other kind, which is refused. -/
inductive Mixed : List Step → Error → Prop where
  | of_join {before : List Step} {first kind : JoinKind} (d : Descriptor) (condition : Option Expr)
      (after : List Step) (found : kindOf before = some first) (uniform : OneKind before)
      (other : kind ≠ first) : Mixed (before ++ .join kind d condition :: after) (first.mixed kind)

section

variable (dialect : Dialect)

/-- A text joins a table by a keyword, on the compiled condition or on one that always holds. -/
def JoinWritten (keyword : String) (j : Join) (text : String) : Prop :=
  ∃ on, (match j.condition with
      | some e => dialect.compile e = .ok on
      | none => on = "1 = 1") ∧
    text = " " ++ keyword ++ " " ++ dialect.quoteIdentifier j.table ++ " ON " ++ on

/-- A text is the compiled expression and a direction. -/
def KeyWritten (key : Expr × Bool) (text : String) : Prop :=
  ∃ compiled, dialect.compile key.1 = .ok compiled ∧
    text = compiled ++ if key.2 then " ASC" else " DESC"

/-- A text selects from the table of the target. The joins stand in it in the order of the calls,
all under the keyword of the first one, the condition is the conjunction of the filters, and the
keys of the order stand in the order of the calls. -/
inductive Written (target : Storable) (steps : List Step) : String → Prop where
  | of_parts {joins keys : List String} {condition : Option String}
      (joined : List.Forall₂ (JoinWritten dialect ((kindOf steps).getD .inner).keyword)
        ((joinsOf steps).map (·.2)) joins)
      (filtered : (Expr.conjunction (filtersOf steps)).mapM dialect.compile = .ok condition)
      (ordered : List.Forall₂ (KeyWritten dialect) (orderOf steps) keys) :
      Written target steps ("SELECT " ++ (all target).columnList dialect ++ " FROM " ++
        dialect.quoteIdentifier target.descriptor.table ++ String.join joins ++
        condition.elim "" (" WHERE " ++ ·) ++
        (if keys.isEmpty then "" else " ORDER BY " ++ ", ".intercalate keys) ++
        dialect.pagination (limitOf steps) (offsetOf steps) (!(orderOf steps).isEmpty))

end

end Select

end ObjectMapping
