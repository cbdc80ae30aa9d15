import ObjectMapping.Expr.Tree

/-! What the connectives of an expression look like, and what they come to when every other
condition is true, false or neither. -/
namespace ObjectMapping

namespace Expr

/-- An expression that the operations of the library build. -/
inductive Obtained : Expr → Prop where
  | column (c : ColumnRef) : Obtained (column c)
  | constant (v : Value) : Obtained (constant v)
  | null : Obtained null
  | unary (op : UnaryOp) (operand : Obtained e) : Obtained (unary op e)
  | binary (op : BinaryOp) (left : Obtained a) (right : Obtained b) : Obtained (binary op a b)
  | cast (target : FieldType) (operand : Obtained e) : Obtained (cast target e)
  | call (name : String) (args : ∀ e ∈ es, Obtained e) : Obtained (call name es)
  | relational (op : Comparator) (left : Obtained a) (right : Obtained b) :
      Obtained (relational op a b)
  | combine (connective : Connective) (left : Obtained a) (right : Obtained b) :
      Obtained (combine connective a b)
  | conditional (conditions : ∀ branch ∈ branches, Obtained branch.1)
      (results : ∀ branch ∈ branches, Obtained branch.2)
      (last : ∀ e ∈ otherwise, Obtained e) : Obtained (conditional branches otherwise)

/-- At its top the expression is in normal form: a connective joins two conditions or more, none of
them joined by the same connective, and no literal is the null value, which has a node of its own. -/
def Normal : Expr → Prop
  | logical connective children =>
    2 ≤ children.length ∧ ∀ inner, logical connective inner ∉ children
  | literal v => v ≠ .null
  | _ => True

/-- Everything in the expression is in normal form. -/
def Flat (e : Expr) : Prop := ∀ x ∈ e.preorder, x.Normal

end Expr

/-- What a condition comes to in a database: about an absent value it may neither hold nor fail. -/
inductive Truth where
  | holds
  | unknown
  | fails
  deriving DecidableEq

namespace Truth

/-- Whether both conditions hold. -/
def and : Truth → Truth → Truth
  | fails, _ | _, fails => fails
  | holds, holds => holds
  | _, _ => unknown

/-- Whether one of the conditions holds. -/
def or : Truth → Truth → Truth
  | holds, _ | _, holds => holds
  | fails, fails => fails
  | _, _ => unknown

end Truth

namespace Connective

/-- What two conditions come to that are joined by the connective. -/
def join : Connective → Truth → Truth → Truth
  | and => Truth.and
  | or => Truth.or

/-- What no conditions at all come to. -/
def unit : Connective → Truth
  | and => .holds
  | or => .fails

end Connective

namespace Expr

variable (value : Expr → Truth)

mutual

/-- What an expression comes to, if the expressions that are not joined by a connective come to
these values. -/
def truth : Expr → Truth
  | logical connective children => truthAll connective children
  | e => value e

/-- What the conditions come to that are joined by the connective. -/
def truthAll (connective : Connective) : List Expr → Truth
  | [] => connective.unit
  | e :: rest => connective.join (truth e) (truthAll connective rest)

end

end Expr

end ObjectMapping
