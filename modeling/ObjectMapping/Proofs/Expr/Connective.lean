import ObjectMapping.Expr.Connective
import ObjectMapping.Expr.Term
import ObjectMapping.Proofs.Expr.Tree

/-! Expressions stay flat: one connective joins all the conditions that it joins in a row, and what
they come to is what they would come to two by two. -/
namespace ObjectMapping

namespace Connective

variable (connective : Connective)

@[simp] theorem unit_join (t : Truth) : connective.join connective.unit t = t := by
  cases connective <;> cases t <;> rfl

@[simp] theorem join_unit (t : Truth) : connective.join t connective.unit = t := by
  cases connective <;> cases t <;> rfl

theorem join_assoc (t u v : Truth) :
    connective.join (connective.join t u) v = connective.join t (connective.join u v) := by
  cases connective <;> cases t <;> cases u <;> cases v <;> rfl

end Connective

namespace Expr

variable {connective : Connective} {a b c e : Expr} {es : List Expr}

/-- Either the expression is joined by the connective itself, or it is one condition. -/
theorem conjuncts_cases (connective : Connective) (e : Expr) :
    (∃ children, e = logical connective children ∧ e.conjuncts connective = children) ∨
      (∀ inner, e ≠ logical connective inner) ∧ e.conjuncts connective = [e] := by
  cases e with
  | logical other children =>
    by_cases same : other = connective
    · subst same
      exact .inl ⟨children, rfl, if_pos rfl⟩
    · exact .inr ⟨fun inner joined => same (logical.inj joined).1, if_neg same⟩
  | _ => exact .inr ⟨nofun, rfl⟩

theorem conjuncts_single (single : ∀ inner, e ≠ logical connective inner) :
    e.conjuncts connective = [e] := by
  rcases conjuncts_cases connective e with ⟨children, joined, -⟩ | ⟨-, alone⟩
  · exact absurd joined (single children)
  · exact alone

@[simp] theorem conjuncts_logical (connective : Connective) (children : List Expr) :
    (logical connective children).conjuncts connective = children := if_pos rfl

@[simp] theorem conjuncts_combine (connective : Connective) (a b : Expr) :
    (combine connective a b).conjuncts connective =
      a.conjuncts connective ++ b.conjuncts connective := conjuncts_logical ..

theorem combine_assoc (connective : Connective) (a b c : Expr) :
    combine connective (combine connective a b) c =
      combine connective a (combine connective b c) := by
  rw [combine, conjuncts_combine, List.append_assoc, ← conjuncts_combine]
  rfl

section

variable (value : Expr → Truth)

theorem truthAll_append (connective : Connective) (es fs : List Expr) :
    truthAll value connective (es ++ fs) =
      connective.join (truthAll value connective es) (truthAll value connective fs) := by
  induction es with
  | nil => rw [truthAll, Connective.unit_join, List.nil_append]
  | cons e es ih => rw [List.cons_append, truthAll, truthAll, ih, Connective.join_assoc]

/-- Conditions come to the same whether they are taken apart or not. -/
theorem truthAll_conjuncts (connective : Connective) (e : Expr) :
    truthAll value connective (e.conjuncts connective) = e.truth value := by
  rcases conjuncts_cases connective e with ⟨children, rfl, parts⟩ | ⟨-, alone⟩
  · rw [parts, truth]
  · rw [alone, truthAll, truthAll, Connective.join_unit]

theorem truth_combine (connective : Connective) (a b : Expr) :
    (combine connective a b).truth value = connective.join (a.truth value) (b.truth value) := by
  rw [combine, truth, truthAll_append, truthAll_conjuncts, truthAll_conjuncts]

end

theorem normal_constant (v : Value) : (constant v).Normal := by
  cases v with
  | null => trivial
  | scalar | object | array => exact nofun

theorem constant_of_normal {v : Value} (normal : (literal v).Normal) : constant v = literal v := by
  cases v with
  | null => exact absurd rfl normal
  | scalar | object | array => rfl

theorem flat_iff : e.Flat ↔ e.Normal ∧ ∀ x ∈ e.operands, x.Flat := by
  rw [Flat, preorder_eq, List.forall_mem_cons]
  refine and_congr_right fun _ => ⟨fun below operand member x inside => ?_, fun below x inside => ?_⟩
  · exact below x (List.mem_flatMap.mpr ⟨operand, member, inside⟩)
  · obtain ⟨operand, member, inside⟩ := List.mem_flatMap.mp inside
    exact below operand member x inside

/-- What a flat expression contributes to a connective: at least one condition, each flat and none
of them joined by the connective. -/
theorem Flat.conjuncts (flat : e.Flat) (connective : Connective) :
    1 ≤ (e.conjuncts connective).length ∧ ∀ x ∈ e.conjuncts connective,
      x.Flat ∧ ∀ inner, x ≠ logical connective inner := by
  rcases conjuncts_cases connective e with ⟨children, rfl, parts⟩ | ⟨single, alone⟩
  · obtain ⟨⟨two, apart⟩, below⟩ := flat_iff.mp flat
    rw [parts]
    exact ⟨Nat.le_of_succ_le two, fun x member =>
      ⟨below x member, fun inner joined => apart inner (joined ▸ member)⟩⟩
  · rw [alone]
    exact ⟨Nat.le_refl 1, List.forall_mem_singleton.mpr ⟨flat, single⟩⟩

theorem Flat.combine (left : a.Flat) (right : b.Flat) : (combine connective a b).Flat := by
  obtain ⟨some, first⟩ := left.conjuncts connective
  obtain ⟨others, second⟩ := right.conjuncts connective
  have each : ∀ x ∈ a.conjuncts connective ++ b.conjuncts connective,
      x.Flat ∧ ∀ inner, x ≠ logical connective inner :=
    List.forall_mem_append.mpr ⟨first, second⟩
  refine flat_iff.mpr ⟨⟨?_, fun inner member => (each _ member).2 inner rfl⟩,
    fun x member => (each x member).1⟩
  rw [List.length_append]
  exact Nat.add_le_add some others

theorem Obtained.flat (obtained : Obtained e) : e.Flat := by
  induction obtained with
  | column | null => exact flat_iff.mpr ⟨trivial, List.forall_mem_nil _⟩
  | constant v =>
    refine flat_iff.mpr ⟨normal_constant v, ?_⟩
    cases v <;> exact List.forall_mem_nil _
  | unary _ _ operand | cast _ _ operand =>
    exact flat_iff.mpr ⟨trivial, List.forall_mem_singleton.mpr operand⟩
  | binary _ _ _ left right | relational _ _ _ left right =>
    exact flat_iff.mpr ⟨trivial,
      List.forall_mem_cons.mpr ⟨left, List.forall_mem_singleton.mpr right⟩⟩
  | call _ _ args => exact flat_iff.mpr ⟨trivial, args⟩
  | combine _ _ _ left right => exact left.combine right
  | conditional _ _ _ conditions results last =>
    exact flat_iff.mpr ⟨trivial, forall_conditional.mpr ⟨fun branch member =>
      ⟨conditions branch member, results branch member⟩, last⟩⟩

/-- Conditions are added to a connective one at a time. -/
theorem Obtained.extend (es : List Expr) (obtained : Obtained (logical connective children))
    (each : ∀ e ∈ es, Obtained e) (apart : ∀ inner, logical connective inner ∉ es) :
    Obtained (logical connective (children ++ es)) := by
  induction es generalizing children with
  | nil => rwa [List.append_nil]
  | cons e es ih =>
    have single : ∀ inner, e ≠ logical connective inner := fun inner joined =>
      apart inner (joined ▸ List.mem_cons_self)
    have longer : Obtained (logical connective (children ++ [e])) := by
      have combined := Obtained.combine connective obtained (each e List.mem_cons_self)
      rwa [Expr.combine, conjuncts_logical, conjuncts_single single] at combined
    rw [List.append_cons]
    exact ih longer (fun x member => each x (List.mem_cons_of_mem e member)) fun inner member =>
      apart inner (List.mem_cons_of_mem e member)

/-- Two conditions are joined first, and the others are added. -/
theorem obtained_logical (two : 2 ≤ es.length) (each : ∀ e ∈ es, Obtained e)
    (apart : ∀ inner, logical connective inner ∉ es) : Obtained (logical connective es) := by
  match es, two with
  | a :: b :: rest, _ =>
    have single : ∀ e ∈ a :: b :: rest, ∀ inner, e ≠ logical connective inner :=
      fun e member inner joined => apart inner (joined ▸ member)
    obtain ⟨first, each⟩ := List.forall_mem_cons.mp each
    obtain ⟨second, each⟩ := List.forall_mem_cons.mp each
    have pair : Obtained (logical connective [a, b]) := by
      have combined := Obtained.combine connective first second
      rwa [combine, conjuncts_single (single a List.mem_cons_self),
        conjuncts_single (single b (List.mem_cons_of_mem a List.mem_cons_self))] at combined
    exact pair.extend rest each fun inner member =>
      apart inner (List.mem_cons_of_mem a (List.mem_cons_of_mem b member))

theorem obtained_of_flat (flat : e.Flat) : Obtained e := by
  induction e using operand_induction with
  | step e ih =>
    obtain ⟨normal, below⟩ := flat_iff.mp flat
    have each : ∀ x ∈ e.operands, Obtained x := fun x member => ih x member (below x member)
    cases e with
    | column c => exact .column c
    | literal v => exact constant_of_normal normal ▸ .constant v
    | null => exact .null
    | unary op operand => exact .unary op (each _ List.mem_cons_self)
    | cast target operand => exact .cast target (each _ List.mem_cons_self)
    | binary op left right =>
      exact .binary op (each _ List.mem_cons_self)
        (each _ (List.mem_cons_of_mem _ List.mem_cons_self))
    | relational op left right =>
      exact .relational op (each _ List.mem_cons_self)
        (each _ (List.mem_cons_of_mem _ List.mem_cons_self))
    | call name args => exact .call name each
    | logical connective children => exact obtained_logical normal.1 each normal.2
    | conditional branches otherwise =>
      obtain ⟨among, last⟩ := forall_conditional.mp each
      exact .conditional (fun branch member => (among branch member).1)
        (fun branch member => (among branch member).2) last

/-- Naming functions by identifiers restricts the operations, and adds none. -/
theorem Constructed.obtained (constructed : Constructed e) : Obtained e := by
  induction constructed with
  | column c => exact .column c
  | constant v => exact .constant v
  | null => exact .null
  | unary op _ operand => exact .unary op operand
  | binary op _ _ left right => exact .binary op left right
  | cast target _ operand => exact .cast target operand
  | call _ _ args => exact .call _ args
  | relational op _ _ left right => exact .relational op left right
  | combine connective _ _ left right => exact .combine connective left right
  | conditional _ _ _ conditions results last => exact .conditional conditions results last

/-- The operations of the library build the flat expressions and no others: at any depth, every
connective joins two conditions or more, and none that the same connective joins. Joining by one
connective is associative in the tree, and so in the text of every dialect. Whatever the other
conditions come to, joined ones come to what the connective makes of the two. -/
theorem connectives_flat :
    (∀ e : Expr, Obtained e ↔ e.Flat) ∧
      (∀ a b c : Expr, (a.and b).and c = a.and (b.and c) ∧ (a.or b).or c = a.or (b.or c)) ∧
      (∀ (s : SqlStyle) (a b c : Expr),
        s.compile ((a.and b).and c) = s.compile (a.and (b.and c)) ∧
          s.compile ((a.or b).or c) = s.compile (a.or (b.or c))) ∧
      ∀ (value : Expr → Truth) (a b : Expr),
        (a.and b).truth value = (a.truth value).and (b.truth value) ∧
          (a.or b).truth value = (a.truth value).or (b.truth value) := by
  have associative (a b c : Expr) :
      (a.and b).and c = a.and (b.and c) ∧ (a.or b).or c = a.or (b.or c) :=
    ⟨combine_assoc .and a b c, combine_assoc .or a b c⟩
  refine ⟨fun e => ⟨Obtained.flat, obtained_of_flat⟩, associative, fun s a b c => ?_,
    fun value a b => ⟨truth_combine value .and a b, truth_combine value .or a b⟩⟩
  exact ⟨congrArg s.compile (associative a b c).1, congrArg s.compile (associative a b c).2⟩

end Expr

end ObjectMapping
