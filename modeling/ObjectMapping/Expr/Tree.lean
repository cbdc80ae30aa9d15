import ObjectMapping.Expr.Render

/-! Expressions as trees of nodes: what a node says of itself, what stands directly below it, and the
order in which all of them are visited. -/
namespace ObjectMapping.Expr

/-- The node without what stands below it. -/
def head : Expr → Head
  | column c => .column c
  | literal v => .literal v
  | null => .null
  | unary op _ => .unary op
  | binary op _ _ => .binary op
  | cast target _ => .cast target
  | call name args => .call name args.length
  | relational op _ right => .relational op right.isNullNode
  | logical connective _ => .logical connective
  | conditional branches _ => .conditional branches.length

/-- The expressions directly below the node, from left to right. Of a conditional, each condition
stands before its result, and what is left over stands last. -/
def operands : Expr → List Expr
  | column _ | literal _ | null => []
  | unary _ operand | cast _ operand => [operand]
  | binary _ left right | relational _ left right => [left, right]
  | call _ args => args
  | logical _ children => children
  | conditional branches otherwise =>
    branches.flatMap (fun branch => [branch.1, branch.2]) ++ otherwise.toList

theorem sizeOf_operand {e x : Expr} (below : x ∈ e.operands) : sizeOf x < sizeOf e := by
  cases e with
  | column | literal | null => cases below
  | unary _ operand | cast _ operand =>
    obtain rfl := List.mem_singleton.mp below
    simp only [unary.sizeOf_spec, cast.sizeOf_spec]
    omega
  | binary _ left right | relational _ left right =>
    simp only [operands, List.mem_cons, List.not_mem_nil, or_false] at below
    simp only [binary.sizeOf_spec, relational.sizeOf_spec]
    rcases below with rfl | rfl <;> omega
  | call _ items | logical _ items =>
    have inside : sizeOf x < sizeOf items := List.sizeOf_lt_of_mem below
    simp only [call.sizeOf_spec, logical.sizeOf_spec]
    omega
  | conditional branches otherwise =>
    simp only [operands, List.mem_append, List.mem_flatMap, List.mem_cons, List.not_mem_nil,
      or_false, Option.mem_toList] at below
    simp only [conditional.sizeOf_spec]
    rcases below with ⟨⟨condition, result⟩, member, part⟩ | rfl
    · have inside := List.sizeOf_lt_of_mem member
      simp only [Prod.mk.sizeOf_spec] at inside
      rcases part with rfl | rfl <;> omega
    · simp only [Option.some.sizeOf_spec]
      omega

/-- The expression and all that stands below it, each before what stands below itself. -/
def preorder (e : Expr) : List Expr := e :: e.operands.attach.flatMap fun x => preorder x.1
termination_by sizeOf e
decreasing_by exact sizeOf_operand x.2

/-- The nodes of an expression, each before what stands below it. -/
def nodes (e : Expr) : List Head := e.preorder.map head

end ObjectMapping.Expr
