import ObjectMapping.Statement.Assigned

/-! Every term is a balanced piece of text: a reader that counts parentheses is after it as deep
as it was before. So a term in parentheses is a part of its own, whatever words it contains. -/
namespace ObjectMapping.Sql

/-- A balanced piece does not change whether the parentheses close. -/
theorem closes_closed (k : Nat) (ts rest : List Token) (closed : closes j ts) :
    closes (k + j) (ts ++ rest) = closes k rest := by
  induction ts generalizing j with
  | nil =>
    obtain rfl : j = 0 := by simpa [closes] using closed
    rfl
  | cons t ts ih =>
    rw [closes] at closed
    rw [List.cons_append, closes]
    split
    · rename_i opens
      rw [if_pos opens] at closed
      exact ih closed
    · rename_i opens
      rw [if_neg opens] at closed
      split
      · rename_i ends
        rw [if_pos ends] at closed
        cases j with
        | zero => simp at closed
        | succ j =>
          have inside : closes j ts := by simpa using closed
          have deep : (k + (j + 1) != 0) = true := by simp
          rw [deep, Bool.true_and]
          exact ih inside
      · rename_i ends
        rw [if_neg ends] at closed
        exact ih closed

namespace Term

private theorem closes_atom (k : Nat) (a : Atom) (rest : List Token) :
    closes k (a.tokens ++ rest) = closes k rest := by
  cases a <;> simp [Atom.tokens, closes]

private theorem closes_operator (k : Nat) (op : Operator) (rest : List Token) :
    closes k (op.tokens ++ rest) = closes k rest := by
  cases op <;> simp [Operator.tokens, Operator.token, closes]

mutual

theorem closes_fringe (k : Nat) (t : Term) (rest : List Token) :
    closes k (t.fringe ++ rest) = closes k rest := by
  cases t with
  | atom a => exact closes_atom k a rest
  | paren inner => simp [fringe, closes, closes_fringe (k + 1) inner]
  | not operand => simp [fringe, closes, closes_fringe k operand]
  | neg operand => simp [fringe, closes, closes_fringe k operand]
  | binary op left right =>
    simp [fringe, closes_fringe k left, closes_fringe k right, closes_operator]
  | cast operand type =>
    simp [fringe, closes, closes_fringe (k + 1) operand,
      closes_closed (k + 1) type.tokens _ type.closed]
  | call name args => simp [fringe, closes, closes_fringeList (k + 1) args]
  | conditional branches otherwise =>
    simp [fringe, closes, closes_fringeBranches k branches, closes_fringeElse k otherwise]

theorem closes_fringeList (k : Nat) (args : List Term) (rest : List Token) :
    closes k (fringeList args ++ rest) = closes k rest := by
  match args with
  | [] => rfl
  | [t] => exact closes_fringe k t rest
  | t :: u :: args =>
    simp [fringeList, closes, closes_fringe k t, closes_fringeList k (u :: args)]

theorem closes_fringeBranches (k : Nat) (branches : List (Term × Term)) (rest : List Token) :
    closes k (fringeBranches branches ++ rest) = closes k rest := by
  match branches with
  | [] => rfl
  | (condition, result) :: branches =>
    simp [fringeBranches, closes, closes_fringe k condition, closes_fringe k result,
      closes_fringeBranches k branches]

theorem closes_fringeElse (k : Nat) (otherwise : Option Term) (rest : List Token) :
    closes k (fringeElse otherwise ++ rest) = closes k rest := by
  match otherwise with
  | none => rfl
  | some t => simp [fringeElse, closes, closes_fringe k t]

end

/-- The parentheses of a term close. -/
theorem closed (t : Term) : closes 0 t.fringe := by
  have whole := closes_fringe 0 t []
  rw [List.append_nil] at whole
  exact whole

end Term

/-- A balanced piece inside parentheses belongs to the part that it stands in. -/
theorem splitFrom_closed (separator : Token) (k : Nat) (ts rest : List Token)
    (closed : closes j ts) : splitFrom separator (k + 1 + j) (ts ++ rest) =
      (splitFrom separator (k + 1) rest).modifyHead (ts ++ ·) := by
  induction ts generalizing j with
  | nil =>
    obtain rfl : j = 0 := by simpa [closes] using closed
    exact (congrFun List.modifyHead_id _).symm
  | cons t ts ih =>
    have deep : ¬(t = separator ∧ k + 1 + j = 0) := by omega
    rw [closes] at closed
    rw [List.cons_append, splitFrom, if_neg deep, Token.deepen]
    split
    · rename_i opens
      rw [if_pos opens] at closed
      rw [Nat.add_assoc, ih closed, List.modifyHead_modifyHead]
      rfl
    · rename_i opens
      rw [if_neg opens] at closed
      split
      · rename_i ends
        rw [if_pos ends] at closed
        cases j with
        | zero => simp at closed
        | succ j =>
          have inside : closes j ts := by simpa using closed
          rw [Nat.add_succ_sub_one, ih inside, List.modifyHead_modifyHead]
          rfl
      · rename_i ends
        rw [if_neg ends] at closed
        rw [ih closed, List.modifyHead_modifyHead]
        rfl

/-- Words join the parts that they separate. -/
theorem partsFrom_eq (word : String) (depth : Nat) (ts : List Token) :
    partsFrom word depth ts = splitFrom (.word word) depth ts := by
  induction ts generalizing depth with
  | nil => rfl
  | cons t ts ih => simp only [partsFrom, splitFrom, ih]

/-- What stands in one pair of parentheses is a piece of one part. -/
theorem splitFrom_enclosed (separator : Token) (depth : Nat) (ts rest : List Token)
    (closed : closes 0 ts) (outer : ¬(.sign "(" = separator ∧ depth = 0)) :
    splitFrom separator depth (.sign "(" :: (ts ++ .sign ")" :: rest)) =
      (splitFrom separator depth rest).modifyHead (.sign "(" :: (ts ++ [.sign ")"]) ++ ·) := by
  have inside := splitFrom_closed separator depth ts (.sign ")" :: rest) closed
  rw [Nat.add_zero] at inside
  rw [splitFrom, if_neg outer]
  simp [splitFrom, Token.deepen, inside, Function.comp_def]

/-- What stands in one pair of parentheses is a part of its own. -/
theorem partsFrom_enclosed (word : String) (ts rest : List Token) (closed : closes 0 ts) :
    partsFrom word 0 (.sign "(" :: (ts ++ .sign ")" :: rest)) =
      (partsFrom word 0 rest).modifyHead (.sign "(" :: (ts ++ [.sign ")"]) ++ ·) := by
  have inside := splitFrom_enclosed (.word word) 0 ts rest closed
  simpa only [partsFrom_eq] using inside (by rintro ⟨⟨⟩, -⟩)

end ObjectMapping.Sql
