import ObjectMapping.Statement.Parameters

/-! Statements that are restricted to the row of the record's key. A database reads the
condition of a statement as alternatives, each of them conditions that hold together; words in
parentheses and between quotes join nothing. Of the conditions only the equations of columns
with placeholders are given a meaning: what else a database makes of them is left open. -/
namespace ObjectMapping

namespace Sql

/-- How many parentheses are open after the token. -/
def Token.deepen (depth : Nat) (t : Token) : Nat :=
  if t = .sign "(" then depth + 1 else if t = .sign ")" then depth - 1 else depth

/-- The parts that a word joins outside parentheses, `depth` of them being open. -/
def partsFrom (word : String) : (depth : Nat) → List Token → List (List Token)
  | _, [] => [[]]
  | depth, t :: rest =>
    if t = .word word ∧ depth = 0 then [] :: partsFrom word 0 rest
    else (partsFrom word (t.deepen depth) rest).modifyHead (t :: ·)

/-- The parts that a word joins outside parentheses. -/
def parts (word : String) (ts : List Token) : List (List Token) := partsFrom word 0 ts

/-- The parts, each with the number of placeholders before it. -/
def placed : (bound : Nat) → List (List Token) → List (Nat × List Token)
  | _, [] => []
  | bound, part :: rest => (bound, part) :: placed (bound + (placeholders part).length) rest

/-- Whether the condition after `bound` placeholders holds, if it is told of every condition in
it, with the number of placeholders before that, whether it holds. -/
def Selects (holds : Nat → List Token → Prop) (bound : Nat) (ts : List Token) : Prop :=
  ∃ alternative ∈ placed bound (parts "OR" ts),
    ∀ condition ∈ placed alternative.1 (parts "AND" alternative.2), holds condition.1 condition.2

/-- The equation of a column with the placeholder after `bound` others. -/
def equation (dialect : Dialect) (table column : String) (bound : Nat) : List Token :=
  [.quoted dialect.nameQuote table, .sign ".", .quoted dialect.nameQuote column, .sign "=",
    .placeholder (dialect.placeholder (bound + 1))]

/-- The condition in parentheses. -/
def enclosed (inside : List Token) : List Token := .sign "(" :: (inside ++ [.sign ")"])

/-- The first condition stands in parentheses of its own, and nothing but one `AND` outside of
them joins it with the second one. -/
structure Guards (inside guard condition : List Token) : Prop where
  balanced : closes 0 inside
  closed : closes 0 condition
  single : parts "OR" condition = [condition]
  joined : parts "AND" condition = [enclosed inside, guard]

/-- An equation holds of no row but those that have the value of the placeholder in the column. -/
def Equates (dialect : Dialect) (table : String) (params : List Value) (row : String → Value)
    (holds : Nat → List Token → Prop) : Prop :=
  ∀ bound column v, holds bound (equation dialect table column bound) →
    params[bound]? = some v → row column = v

end Sql

namespace Descriptor

/-- The fields flagged as primary key. -/
def keys (d : Descriptor) : List Field := d.fields.filter (·.primaryKey)

/-- No field but one is flagged as primary key. -/
def SingleKey (d : Descriptor) : Prop := ∀ f ∈ d.keys, d.primaryKey? = some f

end Descriptor

/-- The statement is an update or a deletion restricted to the row of the target's key. -/
inductive Keyed (dialect : Dialect) (target : Storable) :
    (sets : List Assignment) → (filter : Option Expr) → BoundStatement → Prop where
  | update (ok : Update.bind ⟨target, sets, filter, true⟩ dialect = .ok s) :
      Keyed dialect target sets filter s
  | delete (ok : Delete.bind ⟨target, filter, true⟩ dialect = .ok s) :
      Keyed dialect target [] filter s

namespace BoundStatement

/-- One of the conditions that the `WHERE` clause joins is the equation of the field's column with
a placeholder that stands for the value. -/
def Equates (s : BoundStatement) (dialect : Dialect) (d : Descriptor) (f : Field) (v : Value) :
    Prop :=
  ∃ start conditions bound, s.sql = start ++ (" WHERE " ++ " AND ".intercalate conditions) ∧
    keyCondition dialect d f (bound + 1) ∈ conditions ∧ s.params[bound]? = some v

/-- The statement is read as what stands before the `WHERE` clause and the condition in it. -/
def Reads (s : BoundStatement) (dialect : Dialect) (before condition : List Sql.Token) : Prop :=
  ∃ start text, s.sql = start ++ (" WHERE " ++ text) ∧ Sql.tokens dialect start = some before ∧
    Sql.tokens dialect text = some condition ∧
    Sql.tokens dialect s.sql = some (before ++ .word "WHERE" :: condition)

end BoundStatement

end ObjectMapping
