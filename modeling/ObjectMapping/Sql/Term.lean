import ObjectMapping.Sql.Token

/-! The grammar of SQL expressions. Operators bind by levels, from the loosest:

    OR < AND < NOT < comparisons, IS, LIKE < + - < * / % < unary minus

The operands of an operator are of its own level or a tighter one on the left, and
of a tighter one on the right; `NOT` and the sign take an operand of their own level
or a tighter one. Everything else is an operand as it stands. -/
namespace ObjectMapping.Sql

/-- An operator between two operands. -/
inductive Operator where
  | or
  | and
  | eq
  | ne
  | lt
  | le
  | gt
  | ge
  | like
  | is
  | isNot
  | add
  | sub
  | mul
  | div
  | rem
  deriving DecidableEq, Repr

namespace Operator

/-- How tight the operator binds. -/
def level : Operator → Nat
  | or => 0
  | and => 1
  | eq | ne | lt | le | gt | ge | like | is | isNot => 3
  | add | sub => 4
  | mul | div | rem => 5

/-- The token that the operator begins with. -/
def token : Operator → Token
  | or => .word "OR"
  | and => .word "AND"
  | eq => .sign "="
  | ne => .sign "<>"
  | lt => .sign "<"
  | le => .sign "<="
  | gt => .sign ">"
  | ge => .sign ">="
  | like => .word "LIKE"
  | is | isNot => .word "IS"
  | add => .sign "+"
  | sub => .sign "-"
  | mul => .sign "*"
  | div => .sign "/"
  | rem => .sign "%"

/-- The tokens of the operator. -/
def tokens : Operator → List Token
  | isNot => [.word "IS", .word "NOT"]
  | op => [op.token]

/-- Every operator of one token. -/
def all : List Operator :=
  [or, and, eq, ne, lt, le, gt, ge, like, is, add, sub, mul, div, rem]

/-- The operator that begins with a token. -/
def ofToken? (t : Token) : Option Operator := all.find? (·.token = t)

end Operator

/-- The level of `NOT`. -/
def notLevel : Nat := 2

/-- The level of the sign. -/
def signLevel : Nat := 6

/-- The level of what is an operand as it stands. -/
def operandLevel : Nat := 7

/-- The words that the grammar is made of. -/
def keywords : List String :=
  ["OR", "AND", "NOT", "LIKE", "IS", "CASE", "WHEN", "THEN", "ELSE", "END", "CAST", "AS"]

/-- The words that are values. -/
def constants : List String := ["NULL", "TRUE", "FALSE"]

/-- Whether the word may be the name of a function or of a type. -/
def isFree (word : String) : Bool := !keywords.contains word && !constants.contains word

/-- An operand that has no operands of its own. -/
inductive Atom where
  | word (text : String)
  | number (text : String)
  | quoted (quote : Char) (text : String)
  /-- A quoted text whose meaning a word before it tells. -/
  | prefixed (introducer : String) (text : String)
  /-- A column of a table. -/
  | qualified (quote : Char) (table column : String)
  deriving DecidableEq, Repr

namespace Atom

def tokens : Atom → List Token
  | word text => [.word text]
  | number text => [.number text]
  | quoted quote text => [.quoted quote text]
  | prefixed introducer text => [.word introducer, .quoted '\'' text]
  | qualified quote table column => [.quoted quote table, .sign ".", .quoted quote column]

/-- Whether the grammar has the atom. -/
def Fits : Atom → Prop
  | word text => text ∉ keywords
  | number _ => True
  | quoted _ _ => True
  | prefixed introducer _ => isFree introducer
  | qualified quote _ _ => quote ≠ '\''

end Atom

/-- Whether the parentheses among the tokens close, `depth` of them being open. -/
def closes : (depth : Nat) → List Token → Bool
  | depth, [] => depth == 0
  | depth, t :: rest =>
    if t = .sign "(" then closes (depth + 1) rest
    else if t = .sign ")" then depth != 0 && closes (depth - 1) rest
    else closes depth rest

/-- The name of a type; it may take arguments in parentheses, which are closed again. -/
structure SqlType where
  tokens : List Token
  closed : closes 0 tokens

/-- An expression as it is read, parentheses included. -/
inductive Term where
  | atom (a : Atom)
  | paren (inner : Term)
  | not (operand : Term)
  | neg (operand : Term)
  | binary (op : Operator) (left right : Term)
  | cast (operand : Term) (type : SqlType)
  | call (name : String) (args : List Term)
  | conditional (branches : List (Term × Term)) (otherwise : Option Term)

namespace Term

mutual

/-- The tokens of a term. -/
def fringe : Term → List Token
  | atom a => a.tokens
  | paren inner => .sign "(" :: (inner.fringe ++ [.sign ")"])
  | not operand => .word "NOT" :: operand.fringe
  | neg operand => .sign "-" :: operand.fringe
  | binary op left right => left.fringe ++ (op.tokens ++ right.fringe)
  | cast operand type =>
    .word "CAST" :: .sign "(" :: (operand.fringe ++ .word "AS" :: (type.tokens ++ [.sign ")"]))
  | call name args => .word name :: .sign "(" :: (fringeList args ++ [.sign ")"])
  | conditional branches otherwise =>
    .word "CASE" :: (fringeBranches branches ++ (fringeElse otherwise ++ [.word "END"]))

/-- The tokens of the arguments of a function. -/
def fringeList : List Term → List Token
  | [] => []
  | [t] => t.fringe
  | t :: u :: rest => t.fringe ++ .sign "," :: fringeList (u :: rest)

/-- The tokens of the branches of a conditional. -/
def fringeBranches : List (Term × Term) → List Token
  | [] => []
  | (condition, result) :: rest =>
    .word "WHEN" :: (condition.fringe ++ .word "THEN" :: (result.fringe ++ fringeBranches rest))

/-- The tokens of the last part of a conditional. -/
def fringeElse : Option Term → List Token
  | none => []
  | some t => .word "ELSE" :: t.fringe

end

/-- How tight the outermost operator of the term binds. -/
def level : Term → Nat
  | not _ => notLevel
  | neg _ => signLevel
  | binary op _ _ => op.level
  | _ => operandLevel

mutual

/-- Whether the operands of every operator in the term bind tight enough. -/
def Fits : Term → Prop
  | atom a => a.Fits
  | paren inner => inner.Fits
  | not operand => operand.Fits ∧ notLevel ≤ operand.level
  | neg operand => operand.Fits ∧ signLevel ≤ operand.level
  | binary op left right =>
    left.Fits ∧ right.Fits ∧ op.level ≤ left.level ∧ op.level < right.level
  | cast operand _ => operand.Fits
  | call name args => isFree name ∧ FitsList args
  | conditional branches otherwise =>
    branches ≠ [] ∧ FitsBranches branches ∧ FitsElse otherwise

/-- Whether every argument of a function fits. -/
def FitsList : List Term → Prop
  | [] => True
  | t :: rest => t.Fits ∧ FitsList rest

/-- Whether every branch of a conditional fits. -/
def FitsBranches : List (Term × Term) → Prop
  | [] => True
  | (condition, result) :: rest => condition.Fits ∧ result.Fits ∧ FitsBranches rest

/-- Whether the last part of a conditional fits. -/
def FitsElse : Option Term → Prop
  | none => True
  | some t => t.Fits

end

mutual

/-- The operators and operands of a term, without the parentheses. -/
def bare : Term → Term
  | atom a => atom a
  | paren inner => inner.bare
  | not operand => not operand.bare
  | neg operand => neg operand.bare
  | binary op left right => binary op left.bare right.bare
  | cast operand type => cast operand.bare type
  | call name args => call name (bareList args)
  | conditional branches otherwise => conditional (bareBranches branches) (bareElse otherwise)

def bareList : List Term → List Term
  | [] => []
  | t :: rest => t.bare :: bareList rest

def bareBranches : List (Term × Term) → List (Term × Term)
  | [] => []
  | (condition, result) :: rest => (condition.bare, result.bare) :: bareBranches rest

def bareElse : Option Term → Option Term
  | none => none
  | some t => some t.bare

end

end Term

end ObjectMapping.Sql
