import ObjectMapping.Expr.Term
import ObjectMapping.Proofs.Expr.Connective
import ObjectMapping.Proofs.Sql.Parentheses
import ObjectMapping.Proofs.Sql.ParseSound

/-! The term that the text of an expression is, with the parentheses that rendering
puts. Without them it is what the expression stands for, and its operands bind tight
enough exactly if no negated condition stands where it needs parentheses and has none. -/
namespace ObjectMapping

open Sql (Atom Operator SqlType Term)

namespace Sql.Term

/-- A term that begins with a sign. -/
def IsSigned (t : Term) : Prop := ∃ operand, t = neg operand

/-- The operand of a sign; a second sign stands in parentheses. -/
def unsigned : Term → Term
  | neg operand => paren (neg operand)
  | t => t

end Sql.Term

namespace Expr

/-- An operand of an operator; conditions stand in parentheses. -/
def enclosed (e : Expr) (t : Term) : Term :=
  match e with
  | logical .. | relational .. => .paren t
  | _ => t

mutual

/-- The term that the text of the expression is. -/
def layout (s : SqlStyle) : Expr → Term
  | column c => .atom (s.columnAtom c)
  | literal v => s.dialect.literalTerm v
  | null => .atom (.word "NULL")
  | unary .not operand => .not (operand.enclosed (operand.layout s))
  | unary .neg operand => .neg (operand.enclosed (operand.layout s)).unsigned
  | binary op left right =>
    .paren (.binary op.operator (left.enclosed (left.layout s)) (right.enclosed (right.layout s)))
  | cast target operand => .cast (operand.layout s) (s.dialect.castTerm target)
  | call name args => .call (s.dialect.functionName name) (layoutList s args)
  | relational op left right =>
    .binary (op.operator right.isNullNode) (left.enclosed (left.layout s))
      (right.enclosed (right.layout s))
  | logical connective children => .chain connective.operator (layoutOperands s children)
  | conditional branches otherwise =>
    .conditional (layoutBranches s branches) (layoutElse s otherwise)

def layoutList (s : SqlStyle) : List Expr → List Term
  | [] => []
  | e :: rest => e.layout s :: layoutList s rest

def layoutOperands (s : SqlStyle) : List Expr → List Term
  | [] => []
  | e :: rest => e.enclosed (e.layout s) :: layoutOperands s rest

def layoutBranches (s : SqlStyle) : List (Expr × Expr) → List (Term × Term)
  | [] => []
  | (condition, result) :: rest =>
    (condition.layout s, result.layout s) :: layoutBranches s rest

def layoutElse (s : SqlStyle) : Option Expr → Option Term
  | none => none
  | some e => some (e.layout s)

end

mutual

/-- Whether every connective has a child and every function an identifier for its name. -/
def Formed : Expr → Prop
  | column _ => True
  | literal _ => True
  | null => True
  | unary _ operand => operand.Formed
  | binary _ left right => left.Formed ∧ right.Formed
  | cast _ operand => operand.Formed
  | call name args => isIdentifier name ∧ FormedList args
  | relational _ left right => left.Formed ∧ right.Formed
  | logical _ children => children ≠ [] ∧ FormedList children
  | conditional branches otherwise => FormedBranches branches ∧ FormedElse otherwise

def FormedList : List Expr → Prop
  | [] => True
  | e :: rest => e.Formed ∧ FormedList rest

def FormedBranches : List (Expr × Expr) → Prop
  | [] => True
  | (condition, result) :: rest => condition.Formed ∧ result.Formed ∧ FormedBranches rest

def FormedElse : Option Expr → Prop
  | none => True
  | some e => e.Formed

end

theorem formedList_iff (es : List Expr) : FormedList es ↔ ∀ e ∈ es, e.Formed := by
  induction es with
  | nil => simp [FormedList]
  | cons e es ih => simp [FormedList, ih]

theorem formedBranches_iff (branches : List (Expr × Expr)) :
    FormedBranches branches ↔ ∀ branch ∈ branches, branch.1.Formed ∧ branch.2.Formed := by
  induction branches with
  | nil => simp [FormedBranches]
  | cons branch branches ih => simp [FormedBranches, ih, and_assoc]

private theorem conjuncts_formed {e : Expr} (connective : Connective) (formed : e.Formed) :
    e.conjuncts connective ≠ [] ∧ ∀ child ∈ e.conjuncts connective, child.Formed := by
  rcases conjuncts_cases connective e with ⟨children, rfl, parts⟩ | ⟨-, alone⟩
  · rw [parts]
    exact ⟨formed.1, (formedList_iff children).mp formed.2⟩
  · rw [alone]
    exact ⟨List.cons_ne_nil e [], List.forall_mem_singleton.mpr formed⟩

/-- What the operations of the library build is well formed. -/
theorem Constructed.formed (constructed : Constructed e) : e.Formed := by
  induction constructed with
  | column | null => trivial
  | constant v => cases v <;> trivial
  | unary _ _ operand => exact operand
  | binary _ _ _ left right => exact ⟨left, right⟩
  | cast _ _ operand => exact operand
  | call name _ args => exact ⟨name, (formedList_iff _).mpr args⟩
  | relational _ _ _ left right => exact ⟨left, right⟩
  | combine connective _ _ left right =>
    have first := conjuncts_formed connective left
    have second := conjuncts_formed connective right
    refine ⟨by simp [first.1], (formedList_iff _).mpr ?_⟩
    intro child member
    rcases List.mem_append.mp member with here | there
    · exact first.2 child here
    · exact second.2 child there
  | @conditional branches otherwise _ _ _ conditions results last =>
    refine ⟨(formedBranches_iff _).mpr fun branch member =>
      ⟨conditions branch member, results branch member⟩, ?_⟩
    cases otherwise with
    | none => trivial
    | some e => exact last e rfl

end Expr

namespace Sql.Term

/-- Signs bind looser than operands. -/
theorem signLevel_le_operandLevel : signLevel ≤ operandLevel := by
  unfold signLevel operandLevel
  omega

theorem bare_ofNumber (text : String) : (ofNumber text).bare = ofNumber text := by
  unfold ofNumber
  split <;> rfl

theorem signLevel_le_ofNumber (text : String) : signLevel ≤ (ofNumber text).level := by
  unfold ofNumber
  split
  · exact Nat.le_refl _
  · exact signLevel_le_operandLevel

theorem fits_ofNumber (text : String) : (ofNumber text).Fits := by
  unfold ofNumber
  split
  · exact ⟨trivial, signLevel_le_operandLevel⟩
  · trivial

private theorem bare_foldl (op : Operator) (rest : List Term) (t : Term) :
    (rest.foldl (binary op) t).bare = (bareList rest).foldl (binary op) t.bare := by
  induction rest generalizing t with
  | nil => rfl
  | cons u rest ih => exact ih (binary op t u)

theorem bare_chain (op : Operator) (ts : List Term) :
    (chain op ts).bare = chain op (bareList ts) := by
  cases ts with
  | nil => rfl
  | cons t rest => exact bare_foldl op rest t

theorem bare_unsigned (t : Term) : t.unsigned.bare = t.bare := by
  cases t <;> rfl

theorem fits_unsigned (t : Term) : t.unsigned.Fits ↔ t.Fits := by
  cases t <;> rfl

theorem signLevel_le_unsigned (t : Term) : signLevel ≤ t.unsigned.level ↔ signLevel ≤ t.level := by
  cases t with
  | neg operand => exact iff_of_true signLevel_le_operandLevel (Nat.le_refl _)
  | _ => rfl

private theorem fits_foldl (op : Operator) (rest : List Term) (t : Term)
    (first : op.level ≤ t.level) (tight : ∀ u ∈ rest, op.level < u.level) :
    (rest.foldl (binary op) t).Fits ↔ t.Fits ∧ FitsList rest := by
  induction rest generalizing t with
  | nil => simp [FitsList]
  | cons u rest ih =>
    have next : op.level < u.level := tight u List.mem_cons_self
    rw [List.foldl_cons, ih (binary op t u) (Nat.le_refl _)
      (fun v member => tight v (List.mem_cons_of_mem _ member))]
    simp only [Fits, FitsList]
    constructor
    · rintro ⟨⟨left, right, _⟩, others⟩
      exact ⟨left, right, others⟩
    · rintro ⟨left, right, others⟩
      exact ⟨⟨left, right, first, next⟩, others⟩

theorem fits_chain (op : Operator) (ts : List Term) (some : ts ≠ [])
    (tight : ∀ t ∈ ts, op.level < t.level) : (chain op ts).Fits ↔ FitsList ts := by
  cases ts with
  | nil => exact absurd rfl some
  | cons t rest =>
    exact fits_foldl op rest t (Nat.le_of_lt (tight t List.mem_cons_self))
      fun u member => tight u (List.mem_cons_of_mem _ member)

end Sql.Term

namespace Dialect

theorem bare_literalTerm (d : Dialect) (v : Value) : (d.literalTerm v).bare = d.literalTerm v := by
  cases v with
  | scalar v => cases v <;> cases d <;> first | rfl | exact Sql.Term.bare_ofNumber _
  | _ => rfl

theorem signLevel_le_literalTerm (d : Dialect) (v : Value) :
    Sql.signLevel ≤ (d.literalTerm v).level := by
  cases v with
  | scalar v =>
    cases v <;> cases d <;> first
      | exact Sql.Term.signLevel_le_ofNumber _
      | exact Sql.Term.signLevel_le_operandLevel
  | _ => exact Sql.Term.signLevel_le_operandLevel

theorem fits_literalTerm (d : Dialect) (v : Value) : (d.literalTerm v).Fits := by
  cases v with
  | scalar v =>
    cases v with
    | bool b =>
      have words : ∀ b : Bool, (if b then "TRUE" else "FALSE") ∉ Sql.keywords := by decide
      cases d with
      | postgres | mysql => exact words b
      | sqlite | mssql => trivial
    | string t =>
      cases d with
      | postgres | sqlite | mysql => trivial
      | mssql => exact (by decide : Sql.isFree "N")
    | dateTime t =>
      cases d with
      | sqlite => trivial
      | postgres | mysql => exact (by decide : Sql.isFree "TIMESTAMP")
      | mssql =>
        have free : Sql.isFree "CONVERT" := by decide
        exact ⟨free, (by decide : "DATETIME2" ∉ Sql.keywords), trivial, trivial, trivial⟩
    | _ => exact Sql.Term.fits_ofNumber _
  | _ => exact (by decide : "NULL" ∉ Sql.keywords)

theorem nameQuote_ne (d : Dialect) : d.nameQuote ≠ '\'' := by
  cases d <;> decide

end Dialect

namespace Expr

theorem bare_enclosed (e : Expr) (t : Term) : (e.enclosed t).bare = t.bare := by
  cases e <;> rfl

mutual

/-- Without parentheses the text is what the expression stands for. -/
theorem bare_layout (s : SqlStyle) (e : Expr) : (e.layout s).bare = e.term s := by
  cases e with
  | column c => rfl
  | literal v => exact s.dialect.bare_literalTerm v
  | null => rfl
  | unary op operand =>
    cases op with
    | not => simp [layout, term, Term.bare, bare_enclosed, bare_layout s operand]
    | neg =>
      simp [layout, term, Term.bare, Term.bare_unsigned, bare_enclosed, bare_layout s operand]
  | binary op left right =>
    simp [layout, term, Term.bare, bare_enclosed, bare_layout s left, bare_layout s right]
  | cast target operand => simp [layout, term, Term.bare, bare_layout s operand]
  | call name args => simp [layout, term, Term.bare, bare_layoutList s args]
  | relational op left right =>
    simp [layout, term, Term.bare, bare_enclosed, bare_layout s left, bare_layout s right]
  | logical connective children =>
    simp [layout, term, Term.bare_chain, bare_layoutOperands s children]
  | conditional branches otherwise =>
    simp [layout, term, Term.bare, bare_layoutBranches s branches, bare_layoutElse s otherwise]

theorem bare_layoutList (s : SqlStyle) (es : List Expr) :
    Term.bareList (layoutList s es) = termList s es := by
  match es with
  | [] => rfl
  | e :: es => simp [layoutList, termList, Term.bareList, bare_layout s e, bare_layoutList s es]

theorem bare_layoutOperands (s : SqlStyle) (es : List Expr) :
    Term.bareList (layoutOperands s es) = termList s es := by
  match es with
  | [] => rfl
  | e :: es =>
    simp [layoutOperands, termList, Term.bareList, bare_enclosed, bare_layout s e,
      bare_layoutOperands s es]

theorem bare_layoutBranches (s : SqlStyle) (branches : List (Expr × Expr)) :
    Term.bareBranches (layoutBranches s branches) = termBranches s branches := by
  match branches with
  | [] => rfl
  | (condition, result) :: branches =>
    simp [layoutBranches, termBranches, Term.bareBranches, bare_layout s condition,
      bare_layout s result, bare_layoutBranches s branches]

theorem bare_layoutElse (s : SqlStyle) (otherwise : Option Expr) :
    Term.bareElse (layoutElse s otherwise) = termElse s otherwise := by
  match otherwise with
  | none => rfl
  | some e => simp [layoutElse, termElse, Term.bareElse, bare_layout s e]

end

theorem fits_enclosed (e : Expr) (t : Term) : (e.enclosed t).Fits ↔ t.Fits := by
  cases e <;> rfl

/-- Of all operands only a negated condition binds looser than a sign. -/
theorem signLevel_le_enclosed (s : SqlStyle) (e : Expr) :
    Sql.signLevel ≤ (e.enclosed (e.layout s)).level ↔ e.isNegation = false := by
  cases e with
  | literal v =>
    have tight := s.dialect.signLevel_le_literalTerm v
    simpa [enclosed, layout, isNegation] using tight
  | unary op operand => cases op <;> simp [enclosed, layout, isNegation, Term.level,
      Sql.signLevel, Sql.notLevel]
  | _ => simp [enclosed, layout, isNegation, Term.level, Sql.signLevel, Sql.operandLevel]

theorem notLevel_le_enclosed (s : SqlStyle) (e : Expr) :
    Sql.notLevel ≤ (e.enclosed (e.layout s)).level := by
  cases negation : e.isNegation with
  | false => exact Nat.le_trans (by decide) ((signLevel_le_enclosed s e).mpr negation)
  | true =>
    unfold isNegation at negation
    split at negation
    · exact Nat.le_refl _
    · cases negation

theorem layoutOperands_mem (s : SqlStyle) (es : List Expr) (member : t ∈ layoutOperands s es) :
    Sql.notLevel ≤ t.level := by
  induction es with
  | nil => cases member
  | cons e es ih =>
    rcases List.mem_cons.mp member with rfl | later
    · exact notLevel_le_enclosed s e
    · exact ih later

/-- An operand of an operator of the level of a comparison or a tighter one. -/
private theorem operand_iff (s : SqlStyle) (e : Expr) (level : Nat) (low : Sql.notLevel < level)
    (high : level ≤ Sql.signLevel) :
    level ≤ (e.enclosed (e.layout s)).level ↔ e.isNegation = false := by
  constructor
  · intro tight
    cases negation : e.isNegation with
    | false => rfl
    | true =>
      unfold isNegation at negation
      split at negation
      · exact absurd (Nat.lt_of_lt_of_le low tight) (Nat.lt_irrefl _)
      · cases negation
  · intro plain
    exact Nat.le_trans high ((signLevel_le_enclosed s e).mpr plain)

private theorem fits_binary (s : SqlStyle) (op : Operator) (left right : Expr)
    (low : Sql.notLevel < op.level) :
    (Term.binary op (left.enclosed (left.layout s)) (right.enclosed (right.layout s))).Fits ↔
      left.isNegation = false ∧ right.isNegation = false ∧
        (left.layout s).Fits ∧ (right.layout s).Fits := by
  have high := op.level_lt_signLevel
  rw [Term.Fits, fits_enclosed, fits_enclosed, operand_iff s left op.level low (Nat.le_of_lt high),
    ← Nat.succ_le_iff, operand_iff s right _ (Nat.lt_succ_of_lt low) high]
  constructor
  · rintro ⟨l, r, plain, plain'⟩
    exact ⟨plain, plain', l, r⟩
  · rintro ⟨plain, plain', l, r⟩
    exact ⟨l, r, plain, plain'⟩

mutual

/-- The operands in the text bind tight enough exactly if the expression keeps its
negated conditions out of the places that they do not fit in. -/
theorem fits_layout (s : SqlStyle) (e : Expr) (formed : e.Formed) :
    (e.layout s).Fits ↔ e.Groupable s := by
  cases e with
  | column c =>
    have fits : (s.columnAtom c).Fits := by
      unfold SqlStyle.columnAtom
      split
      · exact s.dialect.nameQuote_ne
      · trivial
    exact iff_of_true fits trivial
  | literal v => exact iff_of_true (s.dialect.fits_literalTerm v) trivial
  | null => exact iff_of_true (by decide : "NULL" ∉ Sql.keywords) trivial
  | unary op operand =>
    cases op with
    | not =>
      rw [layout, Term.Fits, fits_enclosed, fits_layout s operand formed, Groupable]
      exact and_iff_left (notLevel_le_enclosed s operand)
    | neg =>
      rw [layout, Term.Fits, Term.fits_unsigned, Term.signLevel_le_unsigned, fits_enclosed,
        fits_layout s operand formed, signLevel_le_enclosed, Groupable, and_comm]
  | binary op left right =>
    have low : Sql.notLevel < op.operator.level := by cases op <;> decide
    rw [layout, Term.Fits, fits_binary s _ left right low, fits_layout s left formed.1,
      fits_layout s right formed.2, Groupable]
  | cast target operand => exact fits_layout s operand formed
  | call name args =>
    rw [layout, Term.Fits, fits_layoutList s args formed.2, Groupable]
  | relational op left right =>
    have low : Sql.notLevel < (op.operator right.isNullNode).level := by
      cases op <;> cases right.isNullNode <;> decide
    rw [layout, fits_binary s _ left right low, fits_layout s left formed.1,
      fits_layout s right formed.2, Groupable]
  | logical connective children =>
    have loose : connective.operator.level < Sql.notLevel := by cases connective <;> decide
    have some : layoutOperands s children ≠ [] := by
      cases children with
      | nil => exact absurd rfl formed.1
      | cons => simp [layoutOperands]
    rw [layout, Term.fits_chain _ _ some fun t member =>
      Nat.lt_of_lt_of_le loose (layoutOperands_mem s children member)]
    exact fits_layoutOperands s children formed.2
  | conditional branches otherwise =>
    have some : layoutBranches s branches ≠ [] ↔ branches ≠ [] := by
      cases branches <;> simp [layoutBranches]
    rw [layout, Term.Fits, some, fits_layoutBranches s branches formed.1,
      fits_layoutElse s otherwise formed.2, Groupable]

theorem fits_layoutList (s : SqlStyle) (es : List Expr) (formed : FormedList es) :
    Term.FitsList (layoutList s es) ↔ GroupableList s es := by
  match es with
  | [] => exact Iff.rfl
  | e :: es =>
    rw [layoutList, Term.FitsList, fits_layout s e formed.1, fits_layoutList s es formed.2,
      GroupableList]

theorem fits_layoutOperands (s : SqlStyle) (es : List Expr) (formed : FormedList es) :
    Term.FitsList (layoutOperands s es) ↔ GroupableList s es := by
  match es with
  | [] => exact Iff.rfl
  | e :: es =>
    rw [layoutOperands, Term.FitsList, fits_enclosed, fits_layout s e formed.1,
      fits_layoutOperands s es formed.2, GroupableList]

theorem fits_layoutBranches (s : SqlStyle) (branches : List (Expr × Expr))
    (formed : FormedBranches branches) :
    Term.FitsBranches (layoutBranches s branches) ↔ GroupableBranches s branches := by
  match branches with
  | [] => exact Iff.rfl
  | (condition, result) :: branches =>
    rw [layoutBranches, Term.FitsBranches, fits_layout s condition formed.1,
      fits_layout s result formed.2.1, fits_layoutBranches s branches formed.2.2, GroupableBranches]

theorem fits_layoutElse (s : SqlStyle) (otherwise : Option Expr) (formed : FormedElse otherwise) :
    Term.FitsElse (layoutElse s otherwise) ↔ GroupableElse s otherwise := by
  match otherwise with
  | none => exact Iff.rfl
  | some e => exact fits_layout s e formed

end

end Expr

end ObjectMapping
