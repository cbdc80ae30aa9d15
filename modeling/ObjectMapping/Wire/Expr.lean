import ObjectMapping.Expr.Render
import ObjectMapping.Wire.Value

/-! Expressions as trees: arrays that begin with the word for what they do. What is
announced about a node when an expression is written is an array too. -/
namespace ObjectMapping.Wire

/-- The error for a word that no expression begins with. -/
def unknownWord (word : String) : Error := .malformed s!"no expression begins with '{word}'"

/-- An expression with one operand. -/
def unary (op : String) (e : Expr) : Except Error Expr :=
  match op with
  | "not" => .ok (.unary .not e)
  | "neg" => .ok (.unary .neg e)
  | "is_null" => .ok e.isNull
  | "is_not_null" => .ok e.isNotNull
  | "lower" => .ok e.lower
  | "upper" => .ok e.upper
  | "length" => .ok e.length
  | "abs" => .ok e.abs
  | _ => .error (unknownWord op)

/-- An expression with two operands. -/
def binary (op : String) (a b : Expr) : Except Error Expr :=
  match BinaryOp.all.find? (·.name == op), Comparator.all.find? (·.name == op) with
  | some op, _ => .ok (.binary op a b)
  | none, some op => .ok (.relational op a b)
  | none, none =>
    match op with
    | "and" | "&" => .ok (a.and b)
    | "or" | "|" => .ok (a.or b)
    | "coalesce" => .ok (a.coalesce b)
    | _ => .error (unknownWord op)

/-- The expression that results from applying one with one operand several times. -/
def repeated (op : String) : (times : Nat) → Expr → Except Error Expr
  | 0, e => .ok e
  | times + 1, e => do repeated op times (← unary op e)

variable (s : Scope)

/-- A column of the type that a descriptor describes. -/
def typedColumn (d : Descriptor) (shape name : Json) : Except Error TypedColumn :=
  TypedColumn.make d d.type (s.columnShape shape.text) name.text

mutual

/-- A tree as an expression. -/
def readExpr (j : Json) : Except Error Expr :=
  match j with
  | .array (.string op :: args) => readNode op args
  | _ => .error (.malformed "the tree stands for no expression")
termination_by (sizeOf j, 0)

/-- The expression of a word and its arguments. -/
def readNode (op : String) (args : List Json) : Except Error Expr :=
  match op, args with
  | "col", [object, name] => do
    return .column (← ColumnRef.make (← s.descriptor object) name.text)
  | "lit", [v] | "opt", [v] => (readValue s v).map .constant
  | "null", [] => .ok .null
  | "cast", [target, e] => do return .cast (← readType target) (← readExpr e)
  | "fn", [name, .array args] => do return .call name.text (← readExprs args)
  | "case", [.array branches, .null] => do return .conditional (← readBranches branches) none
  | "case", [.array branches, otherwise] => do
    return .conditional (← readBranches branches) (some (← readExpr otherwise))
  | "typed", object :: shape :: name :: call :: operands => do
    let c ← typedColumn s (← s.descriptor object) shape name
    match operands with
    | [] =>
      if call.text = "expr" ∨ call.text = "into" then return c.expr
      unary call.text c.expr
    | e :: _ => binary call.text c.expr (← readExpr e)
  | "rep", [times, op, e] => do repeated op.text times.count (← readExpr e)
  | "fold", [op, .array (first :: rest)] => do
    let first ← readExpr first
    (← readExprs rest).foldlM (binary op.text) first
  | op, [e] => do unary op (← readExpr e)
  | op, [a, b] => do
    let a ← readExpr a
    binary op a (← readExpr b)
  | op, _ => .error (unknownWord op)
termination_by (sizeOf args, 1)

/-- Trees as expressions, in order. -/
def readExprs : List Json → Except Error (List Expr)
  | [] => .ok []
  | j :: rest => do
    let e ← readExpr j
    let others ← readExprs rest
    return e :: others
termination_by items => (sizeOf items, 0)

/-- The branches of a conditional. -/
def readBranches : List Json → Except Error (List (Expr × Expr))
  | [] => .ok []
  | .array [condition, result] :: rest => do
    let c ← readExpr condition
    let r ← readExpr result
    let others ← readBranches rest
    return (c, r) :: others
  | _ :: _ => .error (.malformed "a branch has a condition and a result")
termination_by items => (sizeOf items, 0)

end

mutual

def ofExpr : Expr → Json
  | .column c => .array [.string "col", .string c.table, .string c.name]
  | .literal v => .array [.string "lit", ofValue s v]
  | .null => .array [.string "null"]
  | .unary op e => .array [.string op.name, ofExpr e]
  | .binary op a b => .array [.string op.name, ofExpr a, ofExpr b]
  | .cast target e => .array [.string "cast", .string target.name, ofExpr e]
  | .call name args => .array [.string "fn", .string name, .array (ofExprs args)]
  | .relational op a b => .array [.string op.name, ofExpr a, ofExpr b]
  | .logical connective children => .array [.string connective.name, .array (ofExprs children)]
  | .conditional branches otherwise =>
    .array [.string "case", .array (ofBranches branches), ofElse otherwise]

def ofExprs : List Expr → List Json
  | [] => []
  | e :: rest => ofExpr e :: ofExprs rest

def ofBranches : List (Expr × Expr) → List Json
  | [] => []
  | (condition, result) :: rest => .array [ofExpr condition, ofExpr result] :: ofBranches rest

def ofElse : Option Expr → Json
  | none => .null
  | some e => ofExpr e

end

/-- What is announced about a node, the word for its sort first. -/
def ofHead : Expr.Head → List Json
  | .column c => [.string "column", .string c.table, .string c.name]
  | .literal v => [.string "literal", ofValue s v]
  | .null => [.string "null"]
  | .unary op => [.string "unary", .string op.name]
  | .cast target => [.string "cast", .string target.name]
  | .binary op => [.string "binary", .string op.name]
  | .call name arity => [.string "function", .string name, .integer arity]
  | .relational op rightIsNull => [.string "relational", .string op.name, .bool rightIsNull]
  | .logical connective => [.string "logical", .string connective.name]
  | .conditional branches => [.string "conditional", .integer branches]

end ObjectMapping.Wire
