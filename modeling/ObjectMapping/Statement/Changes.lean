import ObjectMapping.Statement.Update

/-! Updates and deletions as the calls that put them together: the assignments that the calls
contribute, the condition that they add up to, and whether one of them asks for the row of the
record's key. -/
namespace ObjectMapping

/-- A call that restricts the rows which a statement is about. -/
inductive Restriction where
  | filter (e : Expr)
  | byKey

namespace Restriction

def filter? : Restriction → Option Expr
  | filter e => some e
  | byKey => none

def isByKey : Restriction → Bool
  | filter _ => false
  | byKey => true

section

variable (calls : List Restriction)

def filtersOf : List Expr := calls.filterMap filter?

/-- The condition that the calls add up to. -/
def conditionOf : Option Expr := (filtersOf calls).foldl addFilter none

/-- Whether one of the calls asks for the row of the key. -/
def keyed : Bool := calls.any isByKey

end

end Restriction

namespace Update

/-- A call on an update that is being put together. -/
inductive Step where
  | assign (c : TypedColumn) (d : Datum)
  | assignExpr (c : TypedColumn) (e : Expr)
  | assignCurrent (c : TypedColumn)
  /-- Assign to every column but those of the key what the record holds. -/
  | assignAll
  | restrict (call : Restriction)

namespace Step

/-- What the call makes of an update. -/
def apply (u : Update) : Step → Except Error Update
  | assign c d => .ok (u.set (c.assign d))
  | assignExpr c e => .ok (u.set (c.assignExpr e))
  | assignCurrent c => .ok (u.set c.assignCurrent)
  | assignAll => u.setAll
  | restrict (.filter e) => .ok (u.restrict e)
  | restrict .byKey => .ok u.byPrimaryKey

/-- What the call assigns in records that the descriptor describes. -/
def assignments (d : Descriptor) : Step → List Assignment
  | assign c x => [c.assign x]
  | assignExpr c e => [c.assignExpr e]
  | assignCurrent c => [c.assignCurrent]
  | assignAll => (d.columns.filter fun f => !f.primaryKey).map fun f => ⟨⟨d, f⟩, .current⟩
  | restrict _ => []

def restriction? : Step → Option Restriction
  | assign _ _ => none
  | assignExpr _ _ => none
  | assignCurrent _ => none
  | assignAll => none
  | restrict call => some call

/-- The column that the call names. -/
def column? : Step → Option TypedColumn
  | assign c _ => some c
  | assignExpr c _ => some c
  | assignCurrent c => some c
  | assignAll => none
  | restrict _ => none

/-- The expression that the call hands over. -/
def expr? : Step → Option Expr
  | assign _ d => some (.constant d.toValue)
  | assignExpr _ e => some e
  | assignCurrent _ => none
  | assignAll => none
  | restrict call => call.filter?

end Step

/-- The update after a sequence of calls, which ends at the first one that fails. -/
def made (target : Storable) (steps : List Step) : Except Error Update :=
  steps.foldlM Step.apply (start target)

def restrictionsOf (steps : List Step) : List Restriction := steps.filterMap Step.restriction?

/-- The calls of each kind put side by side. -/
def assembled (target : Storable) (steps : List Step) : Update where
  target := target
  sets := steps.flatMap (Step.assignments target.descriptor)
  filter := Restriction.conditionOf (restrictionsOf steps)
  byKey := Restriction.keyed (restrictionsOf steps)

end Update

namespace Delete

/-- What a call makes of a deletion. -/
def apply (x : Delete) : Restriction → Delete
  | .filter e => x.restrict e
  | .byKey => x.byPrimaryKey

/-- The deletion after a sequence of calls. -/
def made (target : Storable) (calls : List Restriction) : Delete := calls.foldl apply (all target)

end Delete

end ObjectMapping
