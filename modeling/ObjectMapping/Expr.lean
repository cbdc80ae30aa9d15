import ObjectMapping.Dialect
import ObjectMapping.Descriptor

/-! SQL expressions as trees. The operations that build them keep logical nodes
flat: conditions joined by one connective are the children of one node. -/
namespace ObjectMapping

inductive UnaryOp where
  | not
  | neg
  deriving DecidableEq

/-- An arithmetic operator. -/
inductive BinaryOp where
  | add
  | sub
  | mul
  | div
  | rem
  deriving DecidableEq

/-- A comparison. -/
inductive Comparator where
  | eq
  | ne
  | lt
  | le
  | gt
  | ge
  | like
  deriving DecidableEq

inductive Connective where
  | and
  | or
  deriving DecidableEq

/-- The word for the operator. -/
def UnaryOp.name : UnaryOp → String
  | not => "not"
  | neg => "neg"

namespace BinaryOp

/-- The word for the operator. -/
def name : BinaryOp → String
  | add => "add"
  | sub => "sub"
  | mul => "mul"
  | div => "div"
  | rem => "rem"

/-- Every operator, in the order of declaration. -/
def all : List BinaryOp := [add, sub, mul, div, rem]

end BinaryOp

namespace Comparator

/-- The word for the comparison. -/
def name : Comparator → String
  | eq => "eq"
  | ne => "ne"
  | lt => "lt"
  | le => "le"
  | gt => "gt"
  | ge => "ge"
  | like => "like"

/-- Every comparison, in the order of declaration. -/
def all : List Comparator := [eq, ne, lt, le, gt, ge, like]

end Comparator

/-- The word for the connective. -/
def Connective.name : Connective → String
  | and => "and"
  | or => "or"

/-- A column of a described type. -/
structure ColumnRef where
  descriptor : Descriptor
  field : Field

/-- An expression. -/
inductive Expr where
  | column (c : ColumnRef)
  | literal (v : Value)
  | null
  | unary (op : UnaryOp) (operand : Expr)
  | binary (op : BinaryOp) (left right : Expr)
  | cast (target : FieldType) (operand : Expr)
  | call (name : String) (args : List Expr)
  | relational (op : Comparator) (left right : Expr)
  | logical (connective : Connective) (children : List Expr)
  | conditional (branches : List (Expr × Expr)) (otherwise : Option Expr)

namespace ColumnRef

/-- The column of exactly the given name. -/
def make (d : Descriptor) (name : String) : Except Error ColumnRef :=
  match d.field? name with
  | none => .error (.usage .objectMismatch s!"{d.name} has no field '{name}'")
  | some f =>
    if f.isColumn then .ok ⟨d, f⟩
    else .error (.usage .objectMismatch s!"{d.name}.{name} is not a column")

def table (c : ColumnRef) : String := c.descriptor.table

def name (c : ColumnRef) : String := c.field.name

end ColumnRef

namespace Expr

/-- A constant; `null` has a node of its own. -/
def constant : Value → Expr
  | .null => null
  | v => literal v

def isNullNode : Expr → Bool
  | null => true
  | _ => false

/-- The conditions that the expression contributes to a logical node. -/
def conjuncts (connective : Connective) : Expr → List Expr
  | logical c children => if c = connective then children else [logical c children]
  | e => [e]

/-- Two conditions joined into one logical node. -/
def combine (connective : Connective) (a b : Expr) : Expr :=
  logical connective (a.conjuncts connective ++ b.conjuncts connective)

def and (a b : Expr) : Expr := combine .and a b

def or (a b : Expr) : Expr := combine .or a b

def isNull (e : Expr) : Expr := relational .eq e null

def isNotNull (e : Expr) : Expr := relational .ne e null

def lower (e : Expr) : Expr := call "lower" [e]

def upper (e : Expr) : Expr := call "upper" [e]

def length (e : Expr) : Expr := call "length" [e]

def abs (e : Expr) : Expr := call "abs" [e]

def coalesce (a b : Expr) : Expr := call "coalesce" [a, b]

end Expr

/-- The shape that a column is taken to have, under the name that messages use for it. -/
structure ColumnShape where
  name : String
  shape : Shape

/-- A column whose values are known to have a certain shape. -/
structure TypedColumn where
  ref : ColumnRef
  shape : Shape

namespace TypedColumn

/-- Whether a column field holds values of the shape. Unsigned numbers stand for
the values of an enumeration. -/
def matchesShape (f : Field) (s : Shape) : Bool :=
  (f.type == s.type || s.type == .uint32 && f.type == .enum && f.enumeration.isSome) &&
    f.shape.nullableDepth == s.nullableDepth

/-- The column of the given name of a record type, if the descriptor describes the
type and the column has the shape. -/
def make (d : Descriptor) (type : TypeName) (wanted : ColumnShape) (name : String) :
    Except Error TypedColumn :=
  if d.type ≠ type then
    .error (.usage .objectMismatch s!"{d.name} does not describe {type}")
  else do
    let ref ← ColumnRef.make d name
    if matchesShape ref.field wanted.shape then .ok ⟨ref, wanted.shape⟩
    else .error (.usage .objectMismatch s!"{d.name}.{name} is not of type {wanted.name}")

/-- The column as an expression. -/
def expr (c : TypedColumn) : Expr := .column c.ref

end TypedColumn

end ObjectMapping
