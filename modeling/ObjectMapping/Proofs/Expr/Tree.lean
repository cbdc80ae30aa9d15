import ObjectMapping.Expr.Tree
import Mathlib.Data.List.Basic

/-! Everything in an expression is the expression itself or stands below one of its operands. -/
namespace ObjectMapping.Expr

/-- What holds of an expression if it holds of its operands holds of every expression. -/
@[elab_as_elim]
theorem operand_induction {motive : Expr → Prop}
    (step : ∀ e : Expr, (∀ x ∈ e.operands, motive x) → motive e) (e : Expr) : motive e :=
  step e fun x below =>
    have := sizeOf_operand below
    operand_induction step x
termination_by sizeOf e

theorem preorder_eq (e : Expr) : e.preorder = e :: e.operands.flatMap preorder := by
  rw [preorder, List.flatMap_subtype (g := preorder) fun _ _ => rfl, List.unattach_attach]

theorem nodes_eq (e : Expr) : e.nodes = [e.head] ++ e.operands.flatMap nodes := by
  rw [nodes, preorder_eq, List.map_cons, List.map_flatMap]
  rfl

/-- What stands below a conditional are the two sides of its branches, and what is left over. -/
theorem forall_conditional {P : Expr → Prop} {branches : List (Expr × Expr)} {otherwise : Option Expr} :
    (∀ x ∈ (conditional branches otherwise).operands, P x) ↔
      (∀ branch ∈ branches, P branch.1 ∧ P branch.2) ∧ ∀ e ∈ otherwise, P e := by
  rw [operands, List.forall_mem_append, List.forall_mem_flatMap]
  simp only [List.forall_mem_cons, List.not_mem_nil, false_imp_iff, implies_true, and_true,
    Option.mem_toList, Option.mem_def]

end ObjectMapping.Expr
