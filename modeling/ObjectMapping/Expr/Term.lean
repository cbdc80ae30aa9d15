import ObjectMapping.Expr.Render
import ObjectMapping.Text.Identifier
import ObjectMapping.Sql.Term

/-! What the text of an expression has to be read as: the operators of the
expression on its operands, and between quotes nothing but the names and texts that
occur in it. -/
namespace ObjectMapping

open Sql (Atom Operator SqlType Term)

/-- The opening quote of names. -/
def Dialect.nameQuote : Dialect → Char
  | .postgres | .sqlite => '"'
  | .mysql => '\x60'
  | .mssql => '['

/-- The type that a text names. -/
def Sql.SqlType.ofText (d : Dialect) (text : String) : SqlType :=
  match Sql.tokens d text with
  | some ts => if closed : Sql.closes 0 ts then ⟨ts, closed⟩ else ⟨[], rfl⟩
  | none => ⟨[], rfl⟩

/-- A number as a term; the sign of a negative one is an operator. -/
def Sql.Term.ofNumber (text : String) : Term :=
  match text.toList with
  | '-' :: digits => .neg (.atom (.number (String.ofList digits)))
  | _ => .atom (.number text)

/-- The operands of an operator in a row, joined from the left. -/
def Sql.Term.chain (op : Operator) : List Term → Term
  | [] => .atom (.word "")
  | t :: rest => rest.foldl (.binary op) t

namespace Dialect

/-- A truth value as a term. -/
def boolTerm (d : Dialect) (b : Bool) : Term :=
  match d with
  | postgres | mysql => .atom (.word (if b then "TRUE" else "FALSE"))
  | sqlite | mssql => .atom (.number (if b then "1" else "0"))

/-- A text as a term. -/
def textTerm (d : Dialect) (text : String) : Term :=
  match d with
  | mssql => .atom (.prefixed "N" text)
  | postgres | sqlite | mysql => .atom (.quoted '\'' text)

/-- A date-time as a term. -/
def dateTimeTerm (d : Dialect) (t : DateTime) : Term :=
  match d with
  | sqlite => .atom (.quoted '\'' t.text)
  | postgres | mysql => .atom (.prefixed "TIMESTAMP" t.text)
  | mssql =>
    .call "CONVERT" [.atom (.word "DATETIME2"), .atom (.quoted '\'' t.text), .atom (.number "120")]

/-- A scalar as a term. -/
def scalarTerm (d : Dialect) : Scalar → Term
  | .bool b => d.boolTerm b
  | .int32 n => .ofNumber (toString n.toInt)
  | .uint32 n => .ofNumber (toString n.toNat)
  | .int64 n => .ofNumber (toString n.toInt)
  | .uint64 n => .ofNumber (toString n.toNat)
  | .float x => .ofNumber x.widen.plainText
  | .double x => .ofNumber x.plainText
  | .string s => d.textTerm s
  | .enum n => .ofNumber (toString n.toNat)
  | .dateTime t => d.dateTimeTerm t

/-- A value as a term; records and lists have none. -/
def literalTerm (d : Dialect) : Value → Term
  | .scalar s => d.scalarTerm s
  | _ => .atom (.word "NULL")

/-- The type that a conversion names. -/
def castTerm (d : Dialect) (target : FieldType) : SqlType :=
  match d.castType target with
  | .ok text => .ofText d text
  | .error _ => ⟨[], rfl⟩

end Dialect

/-- What a scalar has between quotes. -/
def Scalar.quotations : Scalar → List (Char × String)
  | string s => [('\'', s)]
  | dateTime t => [('\'', t.text)]
  | _ => []

/-- The operator of an arithmetic node. -/
def BinaryOp.operator : BinaryOp → Operator
  | add => .add
  | sub => .sub
  | mul => .mul
  | div => .div
  | rem => .rem

/-- The operator of a comparison; there are two for comparing with `NULL`. -/
def Comparator.operator : Comparator → (rightIsNull : Bool) → Operator
  | eq, true => .is
  | ne, true => .isNot
  | eq, false => .eq
  | ne, false => .ne
  | lt, _ => .lt
  | le, _ => .le
  | gt, _ => .gt
  | ge, _ => .ge
  | like, _ => .like

def Connective.operator : Connective → Operator
  | and => .and
  | or => .or

/-- The column as it is named in a text. -/
def SqlStyle.columnAtom (s : SqlStyle) (c : ColumnRef) : Atom :=
  if s.qualified then .qualified s.dialect.nameQuote c.table c.name
  else .quoted s.dialect.nameQuote c.name

namespace Expr

mutual

/-- The operators of the expression on its operands. -/
def term (s : SqlStyle) : Expr → Term
  | column c => .atom (s.columnAtom c)
  | literal v => s.dialect.literalTerm v
  | null => .atom (.word "NULL")
  | unary .not operand => .not (operand.term s)
  | unary .neg operand => .neg (operand.term s)
  | binary op left right => .binary op.operator (left.term s) (right.term s)
  | cast target operand => .cast (operand.term s) (s.dialect.castTerm target)
  | call name args => .call (s.dialect.functionName name) (termList s args)
  | relational op left right =>
    .binary (op.operator right.isNullNode) (left.term s) (right.term s)
  | logical connective children => .chain connective.operator (termList s children)
  | conditional branches otherwise => .conditional (termBranches s branches) (termElse s otherwise)

def termList (s : SqlStyle) : List Expr → List Term
  | [] => []
  | e :: rest => e.term s :: termList s rest

def termBranches (s : SqlStyle) : List (Expr × Expr) → List (Term × Term)
  | [] => []
  | (condition, result) :: rest => (condition.term s, result.term s) :: termBranches s rest

def termElse (s : SqlStyle) : Option Expr → Option Term
  | none => none
  | some e => some (e.term s)

end

mutual

/-- The names of tables and columns and the texts in the expression, in order, each
with its opening quote. -/
def quotations (s : SqlStyle) : Expr → List (Char × String)
  | column c =>
    if s.qualified then [(s.dialect.nameQuote, c.table), (s.dialect.nameQuote, c.name)]
    else [(s.dialect.nameQuote, c.name)]
  | literal (.scalar v) => v.quotations
  | literal _ => []
  | null => []
  | unary _ operand => operand.quotations s
  | binary _ left right => left.quotations s ++ right.quotations s
  | cast _ operand => operand.quotations s
  | call _ args => quotationsList s args
  | relational _ left right => left.quotations s ++ right.quotations s
  | logical _ children => quotationsList s children
  | conditional branches otherwise => quotationsBranches s branches ++ quotationsElse s otherwise

def quotationsList (s : SqlStyle) : List Expr → List (Char × String)
  | [] => []
  | e :: rest => e.quotations s ++ quotationsList s rest

def quotationsBranches (s : SqlStyle) : List (Expr × Expr) → List (Char × String)
  | [] => []
  | (condition, result) :: rest =>
    condition.quotations s ++ (result.quotations s ++ quotationsBranches s rest)

def quotationsElse (s : SqlStyle) : Option Expr → List (Char × String)
  | none => []
  | some e => e.quotations s

end

/-- An expression that the operations of the library build, with identifiers for the
names of functions. -/
inductive Constructed : Expr → Prop where
  | column (c : ColumnRef) : Constructed (column c)
  | constant (v : Value) : Constructed (constant v)
  | null : Constructed null
  | unary (op : UnaryOp) (operand : Constructed e) : Constructed (unary op e)
  | binary (op : BinaryOp) (left : Constructed a) (right : Constructed b) :
      Constructed (binary op a b)
  | cast (target : FieldType) (operand : Constructed e) : Constructed (cast target e)
  | call (name : isIdentifier f) (args : ∀ e ∈ es, Constructed e) : Constructed (call f es)
  | relational (op : Comparator) (left : Constructed a) (right : Constructed b) :
      Constructed (relational op a b)
  | combine (connective : Connective) (left : Constructed a) (right : Constructed b) :
      Constructed (combine connective a b)
  | conditional (conditions : ∀ branch ∈ branches, Constructed branch.1)
      (results : ∀ branch ∈ branches, Constructed branch.2)
      (last : ∀ e ∈ otherwise, Constructed e) : Constructed (conditional branches otherwise)

/-- Whether the expression is a negated condition. -/
def isNegation : Expr → Bool
  | unary .not _ => true
  | _ => false

mutual

/-- Whether no sign, arithmetic operator or comparison in the expression has a negated
condition for an operand, every conditional has a branch, and no function is named like
a word of the grammar. -/
def Groupable (s : SqlStyle) : Expr → Prop
  | column _ => True
  | literal _ => True
  | null => True
  | unary .not operand => operand.Groupable s
  | unary .neg operand => operand.isNegation = false ∧ operand.Groupable s
  | binary _ left right =>
    left.isNegation = false ∧ right.isNegation = false ∧ left.Groupable s ∧ right.Groupable s
  | cast _ operand => operand.Groupable s
  | call name args => Sql.isFree (s.dialect.functionName name) ∧ GroupableList s args
  | relational _ left right =>
    left.isNegation = false ∧ right.isNegation = false ∧ left.Groupable s ∧ right.Groupable s
  | logical _ children => GroupableList s children
  | conditional branches otherwise =>
    branches ≠ [] ∧ GroupableBranches s branches ∧ GroupableElse s otherwise

def GroupableList (s : SqlStyle) : List Expr → Prop
  | [] => True
  | e :: rest => e.Groupable s ∧ GroupableList s rest

def GroupableBranches (s : SqlStyle) : List (Expr × Expr) → Prop
  | [] => True
  | (condition, result) :: rest =>
    condition.Groupable s ∧ result.Groupable s ∧ GroupableBranches s rest

def GroupableElse (s : SqlStyle) : Option Expr → Prop
  | none => True
  | some e => e.Groupable s

end

end Expr

end ObjectMapping
