import ObjectMapping.Expr

/-! Writing expressions. Every node is announced once, before its operands, and
answered with the text of its own token; the layout, including the parentheses
that keep the tree's grouping, is the same whoever answers. -/
namespace ObjectMapping

/-- A node of an expression without its operands. -/
inductive Expr.Head where
  | column (c : ColumnRef)
  | literal (v : Value)
  | null
  | unary (op : UnaryOp)
  | cast (target : FieldType)
  | binary (op : BinaryOp)
  | call (name : String) (arity : Nat)
  | relational (op : Comparator) (rightIsNull : Bool)
  | logical (connective : Connective)
  /-- Announces a conditional; the answer to it is not used. -/
  | conditional (branches : Nat)

namespace Expr

/-- An operand's text. Conditions as operands stand in parentheses. -/
def grouped (e : Expr) (text : String) : String :=
  match e with
  | logical .. | relational .. => "(" ++ text ++ ")"
  | _ => text

/-- A sign or a word before its operand. Two signs are kept apart, because two
minus signs begin a comment. -/
def unaryText (token operand : String) : String :=
  if token.toList.getLast?.any Char.isAlpha then token ++ " " ++ operand
  else if operand.toList.head?.any (fun c => c == '-' || c == '+') then
    token ++ "(" ++ operand ++ ")"
  else token ++ operand

variable [Monad m] (answer : Head → m String)

mutual

/-- The text of an expression, from the answers to its nodes. -/
def render : Expr → m String
  | column c => answer (.column c)
  | literal v => answer (.literal v)
  | null => answer .null
  | unary op operand => do
    let token ← answer (.unary op)
    let text ← render operand
    return unaryText token (operand.grouped text)
  | cast target operand => do
    let type ← answer (.cast target)
    let text ← render operand
    return "CAST(" ++ text ++ " AS " ++ type ++ ")"
  | binary op left right => do
    let token ← answer (.binary op)
    let l ← render left
    let r ← render right
    return "(" ++ left.grouped l ++ " " ++ token ++ " " ++ right.grouped r ++ ")"
  | call name args => do
    let name ← answer (.call name args.length)
    let texts ← renderList args
    return name ++ "(" ++ ", ".intercalate texts ++ ")"
  | relational op left right => do
    let token ← answer (.relational op right.isNullNode)
    let l ← render left
    let r ← render right
    return left.grouped l ++ " " ++ token ++ " " ++ right.grouped r
  | logical connective children => do
    let token ← answer (.logical connective)
    let texts ← renderOperands children
    return (" " ++ token ++ " ").intercalate texts
  | conditional branches otherwise => do
    let _ ← answer (.conditional branches.length)
    let cases ← renderBranches branches
    let last ← renderElse otherwise
    return "CASE" ++ cases ++ last ++ " END"

/-- The texts of the arguments of a function. -/
def renderList : List Expr → m (List String)
  | [] => pure []
  | e :: rest => do
    let text ← render e
    let texts ← renderList rest
    return text :: texts

/-- The texts of the operands of a connective. -/
def renderOperands : List Expr → m (List String)
  | [] => pure []
  | e :: rest => do
    let text ← render e
    let texts ← renderOperands rest
    return e.grouped text :: texts

/-- The branches of a conditional, one after the other. -/
def renderBranches : List (Expr × Expr) → m String
  | [] => pure ""
  | (condition, result) :: rest => do
    let c ← render condition
    let r ← render result
    let texts ← renderBranches rest
    return " WHEN " ++ c ++ " THEN " ++ r ++ texts

/-- The last part of a conditional, if there is one. -/
def renderElse : Option Expr → m String
  | none => pure ""
  | some e => do
    let text ← render e
    return " ELSE " ++ text

end

end Expr

/-- How the columns of an expression are written for a dialect. -/
structure SqlStyle where
  dialect : Dialect
  /-- Whether columns carry the name of their table. -/
  qualified : Bool

namespace SqlStyle

def unaryToken : UnaryOp → String
  | .not => "NOT"
  | .neg => "-"

def binaryToken : BinaryOp → String
  | .add => "+"
  | .sub => "-"
  | .mul => "*"
  | .div => "/"
  | .rem => "%"

/-- The token of a comparison; comparing with `NULL` for equality has tokens of its own. -/
def comparatorToken : Comparator → (rightIsNull : Bool) → String
  | .eq, true => "IS"
  | .ne, true => "IS NOT"
  | .eq, false => "="
  | .ne, false => "<>"
  | .lt, _ => "<"
  | .le, _ => "<="
  | .gt, _ => ">"
  | .ge, _ => ">="
  | .like, _ => "LIKE"

def connectiveToken : Connective → String
  | .and => "AND"
  | .or => "OR"

/-- The SQL token of a node. -/
def token (s : SqlStyle) : Expr.Head → Except Error String
  | .column c =>
    .ok (if s.qualified then s.dialect.qualified c.table c.name
      else s.dialect.quoteIdentifier c.name)
  | .literal v => s.dialect.literal v
  | .null => .ok "NULL"
  | .unary op => .ok (unaryToken op)
  | .cast target => s.dialect.castType target
  | .binary op => .ok (binaryToken op)
  | .call name _ => .ok (s.dialect.functionName name)
  | .relational op rightIsNull => .ok (comparatorToken op rightIsNull)
  | .logical connective => .ok (connectiveToken connective)
  | .conditional _ => .ok ""

/-- The SQL text of an expression. -/
def compile (s : SqlStyle) (e : Expr) : Except Error String := e.render s.token

end SqlStyle

namespace Dialect

/-- The SQL text of an expression with qualified columns. -/
def compile (d : Dialect) (e : Expr) : Except Error String := SqlStyle.compile ⟨d, true⟩ e

end Dialect

end ObjectMapping
