import ObjectMapping.Sql.Term

/-! The tokens of a term and its operators and operands together determine where its
parentheses stand: every term has a token of its own, and the depth of that token in
the text tells how many parentheses there are around the term. -/
namespace ObjectMapping.Sql

/-- How many parentheses are open at each token that is none. -/
def depths : (depth : Nat) → List Token → List Nat
  | _, [] => []
  | depth, t :: rest =>
    if t = .sign "(" then depths (depth + 1) rest
    else if t = .sign ")" then depths (depth - 1) rest
    else depth :: depths depth rest

theorem depths_length (k j : Nat) (ts : List Token) :
    (depths k ts).length = (depths j ts).length := by
  induction ts generalizing k j with
  | nil => rfl
  | cons t ts ih =>
    rw [depths, depths]
    split
    · exact ih _ _
    · split
      · exact ih _ _
      · exact congrArg (· + 1) (ih _ _)

theorem depths_closed (k : Nat) (ts rest : List Token) (closed : closes j ts) :
    depths (k + j) (ts ++ rest) = depths (k + j) ts ++ depths k rest := by
  induction ts generalizing j with
  | nil =>
    obtain rfl : j = 0 := by simpa [closes] using closed
    rfl
  | cons t ts ih =>
    rw [closes] at closed
    rw [List.cons_append, depths, depths]
    split
    · rename_i opens
      rw [if_pos opens] at closed
      exact ih closed
    · rename_i opens
      rw [if_neg opens] at closed
      split
      · rename_i ends
        rw [if_pos ends] at closed
        cases j with
        | zero => simp at closed
        | succ j => exact ih (by simpa using closed)
      · rename_i ends
        rw [if_neg ends] at closed
        rw [ih closed, List.cons_append]

namespace Term

mutual

/-- The depths of the tokens of a term, told by its structure. -/
def marks (k : Nat) : Term → List Nat
  | atom a => List.replicate a.tokens.length k
  | paren inner => marks (k + 1) inner
  | not operand => k :: marks k operand
  | neg operand => k :: marks k operand
  | binary op left right => marks k left ++ (List.replicate op.tokens.length k ++ marks k right)
  | cast operand type => k :: (marks (k + 1) operand ++ (k + 1) :: depths (k + 1) type.tokens)
  | call _ args => k :: marksList (k + 1) args
  | conditional branches otherwise =>
    k :: (marksBranches k branches ++ (marksElse k otherwise ++ [k]))

def marksList (k : Nat) : List Term → List Nat
  | [] => []
  | [t] => marks k t
  | t :: u :: rest => marks k t ++ k :: marksList k (u :: rest)

def marksBranches (k : Nat) : List (Term × Term) → List Nat
  | [] => []
  | (condition, result) :: rest =>
    k :: (marks k condition ++ k :: (marks k result ++ marksBranches k rest))

def marksElse (k : Nat) : Option Term → List Nat
  | none => []
  | some t => k :: marks k t

end

private theorem depths_atom (k : Nat) (a : Atom) (rest : List Token) :
    depths k (a.tokens ++ rest) = List.replicate a.tokens.length k ++ depths k rest := by
  cases a <;> simp [Atom.tokens, depths, List.replicate]

private theorem depths_operator (k : Nat) (op : Operator) (rest : List Token) :
    depths k (op.tokens ++ rest) = List.replicate op.tokens.length k ++ depths k rest := by
  cases op <;> simp [Operator.tokens, Operator.token, depths, List.replicate]

mutual

theorem depths_fringe (k : Nat) (t : Term) (rest : List Token) :
    depths k (t.fringe ++ rest) = marks k t ++ depths k rest := by
  cases t with
  | atom a => exact depths_atom k a rest
  | paren inner =>
    simp [fringe, marks, depths, depths_fringe (k + 1) inner]
  | not operand => simp [fringe, marks, depths, depths_fringe k operand]
  | neg operand => simp [fringe, marks, depths, depths_fringe k operand]
  | binary op left right =>
    simp [fringe, marks, depths_fringe k left, depths_fringe k right, depths_operator]
  | cast operand type =>
    simp [fringe, marks, depths, depths_fringe (k + 1) operand,
      depths_closed (k + 1) type.tokens _ type.closed]
  | call name args => simp [fringe, marks, depths, depths_fringeList (k + 1) args]
  | conditional branches otherwise =>
    simp [fringe, marks, depths, depths_fringeBranches k branches, depths_fringeElse k otherwise]

theorem depths_fringeList (k : Nat) (args : List Term) (rest : List Token) :
    depths k (fringeList args ++ rest) = marksList k args ++ depths k rest := by
  match args with
  | [] => rfl
  | [t] => exact depths_fringe k t rest
  | t :: u :: args =>
    simp [fringeList, marksList, depths, depths_fringe k t, depths_fringeList k (u :: args)]

theorem depths_fringeBranches (k : Nat) (branches : List (Term × Term)) (rest : List Token) :
    depths k (fringeBranches branches ++ rest) = marksBranches k branches ++ depths k rest := by
  match branches with
  | [] => rfl
  | (condition, result) :: branches =>
    simp [fringeBranches, marksBranches, depths, depths_fringe k condition,
      depths_fringe k result, depths_fringeBranches k branches]

theorem depths_fringeElse (k : Nat) (otherwise : Option Term) (rest : List Token) :
    depths k (fringeElse otherwise ++ rest) = marksElse k otherwise ++ depths k rest := by
  match otherwise with
  | none => rfl
  | some t => simp [fringeElse, marksElse, depths, depths_fringe k t]

end

mutual

theorem marks_length (k j : Nat) (t : Term) : (marks k t).length = (marks j t.bare).length := by
  cases t with
  | atom a => simp [bare, marks]
  | paren inner => simpa [bare, marks] using marks_length (k + 1) j inner
  | not operand => simpa [bare, marks] using marks_length k j operand
  | neg operand => simpa [bare, marks] using marks_length k j operand
  | binary op left right => simp [bare, marks, marks_length k j left, marks_length k j right]
  | cast operand type =>
    simp [bare, marks, marks_length (k + 1) (j + 1) operand, depths_length (k + 1) (j + 1)]
  | call name args => simpa [bare, marks] using marksList_length (k + 1) (j + 1) args
  | conditional branches otherwise =>
    simp [bare, marks, marksBranches_length k j branches, marksElse_length k j otherwise]

theorem marksList_length (k j : Nat) (args : List Term) :
    (marksList k args).length = (marksList j (bareList args)).length := by
  match args with
  | [] => rfl
  | [t] => simpa [bareList, marksList] using marks_length k j t
  | t :: u :: args =>
    have more := marksList_length k j (u :: args)
    simp only [bareList] at more
    simp [bareList, marksList, marks_length k j t, more]

theorem marksBranches_length (k j : Nat) (branches : List (Term × Term)) :
    (marksBranches k branches).length = (marksBranches j (bareBranches branches)).length := by
  match branches with
  | [] => rfl
  | (condition, result) :: branches =>
    simp [bareBranches, marksBranches, marks_length k j condition, marks_length k j result,
      marksBranches_length k j branches]

theorem marksElse_length (k j : Nat) (otherwise : Option Term) :
    (marksElse k otherwise).length = (marksElse j (bareElse otherwise)).length := by
  match otherwise with
  | none => rfl
  | some t => simp [bareElse, marksElse, marks_length k j t]

end

/-- The term without the parentheses around it. -/
def core : Term → Term
  | paren inner => inner.core
  | t => t

/-- The number of parentheses around the term. -/
def parens : Term → Nat
  | paren inner => inner.parens + 1
  | _ => 0

private theorem marks_core (k : Nat) (t : Term) : marks k t = marks (k + t.parens) t.core := by
  match t with
  | paren inner =>
    rw [marks, marks_core (k + 1) inner, core, parens]
    congr 1
    omega
  | atom _ | not _ | neg _ | binary _ _ _ | cast _ _ | call _ _ | conditional _ _ => rfl

private theorem bare_core (t : Term) : t.core.bare = t.bare := by
  match t with
  | paren inner => exact bare_core inner
  | atom _ | not _ | neg _ | binary _ _ _ | cast _ _ | call _ _ | conditional _ _ => rfl

private theorem parens_core (t : Term) : t.core.parens = 0 := by
  match t with
  | paren inner => exact parens_core inner
  | atom _ | not _ | neg _ | binary _ _ _ | cast _ _ | call _ _ | conditional _ _ => rfl

private theorem sizeOf_core_le (t : Term) : sizeOf t.core ≤ sizeOf t := by
  match t with
  | paren inner =>
    have inside := sizeOf_core_le inner
    rw [core, paren.sizeOf_spec]
    omega
  | atom _ | not _ | neg _ | binary _ _ _ | cast _ _ | call _ _ | conditional _ _ =>
    exact Nat.le_refl _

private theorem eq_of_core (t u : Term) (inside : t.core = u.core) (around : t.parens = u.parens) :
    t = u := by
  match t, u with
  | paren t, paren u => exact congrArg paren (eq_of_core t u inside (Nat.succ.inj around))
  | paren _, atom _ | paren _, not _ | paren _, neg _ | paren _, binary _ _ _ | paren _, cast _ _
  | paren _, call _ _ | paren _, conditional _ _ => cases around
  | atom _, u | not _, u | neg _, u | binary _ _ _, u | cast _ _, u | call _ _, u
  | conditional _ _, u =>
    cases u with
    | paren u => cases around
    | _ => exact inside

private theorem replicate_append_inj (some : 0 < n)
    (same : List.replicate n k ++ xs = List.replicate n j ++ ys) : k = j ∧ xs = ys := by
  obtain ⟨n, rfl⟩ : ∃ m, n = m + 1 := ⟨n - 1, by omega⟩
  obtain ⟨first, rest⟩ := List.append_inj same (by simp)
  exact ⟨(List.cons.inj first).1, rest⟩

/-- No other term has the operators, the operands and the depths of this one. -/
private def Sole (t : Term) : Prop :=
  ∀ u k, t.bare = u.bare → marks k t = marks k u → t = u

private theorem length_eq_of_bare {t u : Term} (same : t.bare = u.bare) (k j : Nat) :
    (marks k t).length = (marks j u).length := by
  rw [marks_length k 0, same, ← marks_length]

private theorem soleList {args args' : List Term} {k : Nat} (each : ∀ t ∈ args, Sole t)
    (same : bareList args = bareList args') (deep : marksList k args = marksList k args') :
    args = args' := by
  match args, args' with
  | [], [] => rfl
  | [], _ :: _ | _ :: _, [] => simp [bareList] at same
  | [t], [u] =>
    exact congrArg (· :: []) (each t List.mem_cons_self u k (List.cons.inj same).1 deep)
  | [_], _ :: _ :: _ | _ :: _ :: _, [_] => simp [bareList] at same
  | t :: t' :: args, u :: u' :: args' =>
    obtain ⟨first, same⟩ := List.cons.inj same
    obtain ⟨deepFirst, deep⟩ := List.append_inj deep (length_eq_of_bare first k k)
    have others : ∀ x ∈ t' :: args, Sole x := fun x later => each x (List.mem_cons_of_mem _ later)
    have rest : t' :: args = u' :: args' := soleList others same (List.cons.inj deep).2
    rw [each t List.mem_cons_self u k first deepFirst, rest]

private theorem soleBranches {branches branches' : List (Term × Term)} {k : Nat}
    (each : ∀ branch ∈ branches, Sole branch.1 ∧ Sole branch.2)
    (same : bareBranches branches = bareBranches branches')
    (deep : marksBranches k branches = marksBranches k branches') : branches = branches' := by
  match branches, branches' with
  | [], [] => rfl
  | [], _ :: _ | _ :: _, [] => simp [bareBranches] at same
  | (condition, result) :: branches, (condition', result') :: branches' =>
    obtain ⟨first, same⟩ := List.cons.inj same
    obtain ⟨sameCondition, sameResult⟩ := Prod.mk.inj first
    obtain ⟨deepCondition, deep⟩ :=
      List.append_inj (List.cons.inj deep).2 (length_eq_of_bare sameCondition k k)
    obtain ⟨deepResult, deep⟩ :=
      List.append_inj (List.cons.inj deep).2 (length_eq_of_bare sameResult k k)
    obtain ⟨soleCondition, soleResult⟩ := each (condition, result) List.mem_cons_self
    have rest : branches = branches' :=
      soleBranches (fun branch later => each branch (List.mem_cons_of_mem _ later)) same deep
    have left : condition = condition' := soleCondition condition' k sameCondition deepCondition
    have right : result = result' := soleResult result' k sameResult deepResult
    rw [left, right, rest]

private theorem soleElse {otherwise otherwise' : Option Term} {k : Nat}
    (each : ∀ t, otherwise = some t → Sole t) (same : bareElse otherwise = bareElse otherwise')
    (deep : marksElse k otherwise = marksElse k otherwise') : otherwise = otherwise' := by
  match otherwise, otherwise' with
  | none, none => rfl
  | none, some _ | some _, none => simp [bareElse] at same
  | some t, some u =>
    exact congrArg some (each t rfl u k (Option.some.inj same) (List.cons.inj deep).2)

/-- Terms without parentheses around them that differ in nothing but depth stand equally
deep, if what they are made of is determined by its depths. -/
private theorem plain_unique {t u : Term} {k j : Nat}
    (smaller : ∀ x : Term, sizeOf x < sizeOf t → Sole x) (plain : t.parens = 0)
    (plain' : u.parens = 0) (same : t.bare = u.bare) (deep : marks k t = marks j u) :
    k = j ∧ t = u := by
  cases t with
  | paren inner => cases plain
  | atom a =>
    cases u with
    | atom b =>
      obtain rfl : a = b := by simpa [bare] using same
      have some : 0 < a.tokens.length := by cases a <;> simp [Atom.tokens]
      exact ⟨(replicate_append_inj some (congrArg (· ++ []) deep)).1, rfl⟩
    | paren inner => cases plain'
    | _ => simp [bare] at same
  | not operand =>
    cases u with
    | not operand' =>
      obtain ⟨rfl, deep⟩ := List.cons.inj deep
      have sole := smaller operand (by simp)
      exact ⟨rfl, congrArg not (sole operand' k (by simpa [bare] using same) deep)⟩
    | paren inner => cases plain'
    | _ => simp [bare] at same
  | neg operand =>
    cases u with
    | neg operand' =>
      obtain ⟨rfl, deep⟩ := List.cons.inj deep
      have sole := smaller operand (by simp)
      exact ⟨rfl, congrArg neg (sole operand' k (by simpa [bare] using same) deep)⟩
    | paren inner => cases plain'
    | _ => simp [bare] at same
  | binary op left right =>
    cases u with
    | binary op' left' right' =>
      obtain ⟨rfl, sameLeft, sameRight⟩ : op = op' ∧ left.bare = left'.bare ∧
          right.bare = right'.bare := by simpa [bare] using same
      obtain ⟨deepLeft, deep⟩ := List.append_inj deep (length_eq_of_bare sameLeft k j)
      have some : 0 < op.tokens.length := by cases op <;> simp [Operator.tokens]
      obtain ⟨rfl, deepRight⟩ := replicate_append_inj some deep
      have soleLeft := smaller left (by rw [binary.sizeOf_spec]; omega)
      have soleRight := smaller right (by rw [binary.sizeOf_spec]; omega)
      obtain rfl := soleLeft left' k sameLeft deepLeft
      obtain rfl := soleRight right' k sameRight deepRight
      exact ⟨rfl, rfl⟩
    | paren inner => cases plain'
    | _ => simp [bare] at same
  | cast operand type =>
    cases u with
    | cast operand' type' =>
      obtain ⟨sameOperand, rfl⟩ : operand.bare = operand'.bare ∧ type = type' := by
        simpa [bare] using same
      obtain ⟨rfl, deep⟩ := List.cons.inj deep
      have sole := smaller operand (by rw [cast.sizeOf_spec]; omega)
      have inside := (List.append_inj deep (length_eq_of_bare sameOperand (k + 1) (k + 1))).1
      obtain rfl := sole operand' (k + 1) sameOperand inside
      exact ⟨rfl, rfl⟩
    | paren inner => cases plain'
    | _ => simp [bare] at same
  | call name args =>
    cases u with
    | call name' args' =>
      obtain ⟨rfl, sameArgs⟩ : name = name' ∧ bareList args = bareList args' := by
        simpa [bare] using same
      obtain ⟨rfl, deep⟩ := List.cons.inj deep
      have each : ∀ x ∈ args, Sole x := by
        intro x member
        have below := List.sizeOf_lt_of_mem member
        exact smaller x (by rw [call.sizeOf_spec]; omega)
      exact ⟨rfl, congrArg (call name) (soleList each sameArgs deep)⟩
    | paren inner => cases plain'
    | _ => simp [bare] at same
  | conditional branches otherwise =>
    cases u with
    | conditional branches' otherwise' =>
      obtain ⟨sameBranches, sameElse⟩ : bareBranches branches = bareBranches branches' ∧
          bareElse otherwise = bareElse otherwise' := by simpa [bare] using same
      obtain ⟨rfl, deep⟩ := List.cons.inj deep
      have size : (marksBranches k branches).length = (marksBranches k branches').length := by
        rw [marksBranches_length k 0, sameBranches, ← marksBranches_length]
      have sizeElse : (marksElse k otherwise).length = (marksElse k otherwise').length := by
        rw [marksElse_length k 0, sameElse, ← marksElse_length]
      obtain ⟨deepBranches, deep⟩ := List.append_inj deep size
      have deepElse := (List.append_inj deep sizeElse).1
      have each : ∀ branch ∈ branches, Sole branch.1 ∧ Sole branch.2 := by
        intro (condition, result) member
        have below := List.sizeOf_lt_of_mem member
        rw [Prod.mk.sizeOf_spec] at below
        rw [conditional.sizeOf_spec] at smaller
        exact ⟨smaller condition (by omega), smaller result (by omega)⟩
      have last : ∀ x, otherwise = some x → Sole x := by
        rintro x rfl
        exact smaller x (by rw [conditional.sizeOf_spec, Option.some.sizeOf_spec]; omega)
      obtain rfl := soleBranches each sameBranches deepBranches
      obtain rfl := soleElse last sameElse deepElse
      exact ⟨rfl, rfl⟩
    | paren inner => cases plain'
    | _ => simp [bare] at same

private theorem sole (t : Term) : Sole t := by
  induction size : sizeOf t using Nat.strongRecOn generalizing t with
  | ind _ ih =>
    subst size
    intro u k same deep
    have below := sizeOf_core_le t
    rw [marks_core k t, marks_core k u] at deep
    rw [← bare_core t, ← bare_core u] at same
    obtain ⟨around, inside⟩ := plain_unique
      (fun x smaller => ih (sizeOf x) (Nat.lt_of_lt_of_le smaller below) x rfl)
      (parens_core t) (parens_core u) same deep
    exact eq_of_core t u inside (by omega)

/-- Operators, operands and tokens leave no choice of parentheses. -/
theorem eq_of_bare_of_fringe {t u : Term} (same : t.bare = u.bare) (text : t.fringe = u.fringe) :
    t = u := by
  have deep : ∀ t : Term, depths 0 t.fringe = marks 0 t := by
    intro t
    simpa [depths] using depths_fringe 0 t []
  exact sole t u 0 same (by rw [← deep, ← deep, text])

end Term

end ObjectMapping.Sql
