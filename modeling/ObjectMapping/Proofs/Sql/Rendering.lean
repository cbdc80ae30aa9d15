import ObjectMapping.Proofs.Except
import ObjectMapping.Proofs.Sql.Layout
import ObjectMapping.Proofs.Sql.Literal
import Mathlib.Data.List.Forall2

/-! The text of an expression is read as the tokens of its layout. Its parts meet at
blanks, parentheses and commas, and no minus sign stands before another one. -/
namespace ObjectMapping

namespace Sql

/-- The text is read as the tokens of the term. -/
def Spells (d : Dialect) (text : String) (t : Term) : Prop := Lexes d text.toList t.fringe

/-- Only a sign or a parenthesis is a sign in the first place of a term that is not an
operator between two operands. -/
theorem Term.head_sign {t : Term} (plain : ∀ op left right, t ≠ binary op left right)
    (head : t.fringe.head? = some (.sign c)) : c = "(" ∨ c = "-" ∧ t.IsSigned := by
  cases t with
  | atom a => cases a <;> cases head
  | paren => exact .inl (by cases head; rfl)
  | neg operand => exact .inr ⟨by cases head; rfl, operand, rfl⟩
  | binary op left right => exact absurd rfl (plain op left right)
  | _ => cases head

theorem Term.unsigned_of_not_isSigned {t : Term} (plain : ¬t.IsSigned) : t.unsigned = t := by
  cases t with
  | neg operand => exact absurd ⟨operand, rfl⟩ plain
  | _ => rfl

theorem Term.fringeList_eq (ts : List Term) :
    fringeList ts = List.intercalate [.sign ","] (ts.map fringe) := by
  induction ts with
  | nil => rfl
  | cons t ts ih =>
    cases ts with
    | nil => rw [fringeList, List.map_singleton, List.intercalate_singleton]
    | cons second ts => simp [fringeList, ih]

theorem Term.fringe_chain (op : Operator) (t : Term) (rest : List Term) :
    (chain op (t :: rest)).fringe = t.fringe ++ rest.flatMap (op.tokens ++ ·.fringe) := by
  have folded : ∀ t : Term, (rest.foldl (binary op) t).fringe =
      t.fringe ++ rest.flatMap (op.tokens ++ ·.fringe) := by
    induction rest with
    | nil => simp
    | cons u rest ih =>
      intro t
      rw [List.foldl_cons, ih, fringe, List.flatMap_cons]
      simp
  exact folded t

private theorem toList_intercalate_cons (separator text : String) (texts : List String) :
    (separator.intercalate (text :: texts)).toList =
      text.toList ++ texts.flatMap fun t => separator.toList ++ t.toList := by
  induction texts generalizing text with
  | nil => simp
  | cons second texts ih =>
    rw [String.intercalate_cons_cons, String.toList_append, String.toList_append, ih,
      List.flatMap_cons]
    simp

namespace Spells

theorem paren (inside : Spells d text t) : Spells d ("(" ++ text ++ ")") (.paren t) := by
  have read := Lexes.paren inside (Lexes.nil d)
  rw [Spells, String.toList_append, String.toList_append]
  exact read

theorem binary {op : Operator} (left : Spells d l a) (token : Lexes d text.toList op.tokens)
    (right : Spells d r b) : Spells d (l ++ " " ++ text ++ " " ++ r) (.binary op a b) := by
  have read := left.spaced (token.spaced right)
  simp only [Spells, String.toList_append, List.append_assoc]
  exact read

theorem not (operand : Spells d text t) : Spells d ("NOT" ++ " " ++ text) (.not t) := by
  have word : Lexes d "NOT".toList [.word "NOT"] := .wordText (by decide)
  rw [Spells, String.toList_append, String.toList_append, List.append_assoc]
  exact word.spaced operand

/-- A minus sign before an operand, which stands in parentheses if it begins with a sign. -/
theorem neg (operand : Spells d text t) (plain : ∀ op left right, t ≠ .binary op left right)
    (signed : t.IsSigned → text.toList.head? = some '-') :
    Spells d (Expr.unaryText "-" text) (.neg t.unsigned) := by
  have token : Expr.unaryText "-" text =
      if text.toList.head?.any fun c => c == '-' || c == '+' then "-" ++ "(" ++ text ++ ")"
      else "-" ++ text := rfl
  by_cases negative : t.IsSigned
  · have first := signed negative
    obtain ⟨inner, rfl⟩ := negative
    have same : ("-" ++ "(" ++ text ++ ")").toList = '-' :: ("(" ++ text ++ ")").toList := by simp
    rw [token, first, Option.any_some, if_pos (by decide), Spells, same]
    exact Lexes.minus (paren operand) (by simp)
  · have apart : text.toList.head?.any (fun c => c == '-' || c == '+') = false := by
      cases same : text.toList with
      | nil => rfl
      | cons c rest =>
        rw [Spells, same] at operand
        rw [List.head?_cons, Option.any_some, Bool.or_eq_false_iff, beq_eq_false_iff_ne,
          beq_eq_false_iff_ne]
        constructor
        · rintro rfl
          rcases Term.head_sign plain operand.head_minus with other | ⟨_, sign⟩
          · exact absurd other (by decide)
          · exact negative sign
        · rintro rfl
          rcases Term.head_sign plain operand.head_plus with other | ⟨other, _⟩
          · exact absurd other (by decide)
          · exact absurd other (by decide)
    have other : text.toList.head? ≠ some '-' := by
      intro first
      rw [first] at apart
      exact absurd apart (by decide)
    have read := Lexes.minus operand other
    rw [token, apart, if_neg (by decide), Term.unsigned_of_not_isSigned negative, Spells,
      String.toList_append]
    exact read

theorem cast (operand : Spells d text t) (named : Lexes d name.toList type.tokens) :
    Spells d ("CAST(" ++ text ++ " AS " ++ name ++ ")") (.cast t type) := by
  have call : Lexes d "CAST".toList [.word "CAST"] := .wordText (by decide)
  have as : Lexes d "AS".toList [.word "AS"] := .wordText (by decide)
  have read := call.called (operand.spaced (as.spaced named))
  have first : "CAST(".toList = "CAST".toList ++ ['('] := by decide +kernel
  have second : " AS ".toList = ' ' :: ("AS".toList ++ [' ']) := by decide +kernel
  simp only [Spells, String.toList_append, first, second, List.append_assoc, List.cons_append,
    List.nil_append] at read ⊢
  exact read

/-- Arguments are read as those of a function. -/
theorem list (each : List.Forall₂ (Spells d) texts ts) :
    Lexes d (", ".intercalate texts).toList (Term.fringeList ts) := by
  rw [Term.fringeList_eq]
  exact Lexes.list (List.forall₂_map_right_iff.mpr each)

theorem call (word : Lexes d name.toList [.word name]) (args : List.Forall₂ (Spells d) texts ts) :
    Spells d (name ++ "(" ++ ", ".intercalate texts ++ ")") (.call name ts) := by
  have read := word.called (list args)
  rw [Spells, String.toList_append, String.toList_append, String.toList_append, List.append_assoc,
    List.append_assoc]
  exact read

/-- Operands with an operator between them are read as joined by it. -/
theorem chain {op : Operator} (token : Lexes d name.toList op.tokens) (some : ts ≠ [])
    (each : List.Forall₂ (Spells d) texts ts) :
    Spells d ((" " ++ name ++ " ").intercalate texts) (.chain op ts) := by
  have more : ∀ {texts ts}, List.Forall₂ (Spells d) texts ts → ∀ {text us}, Lexes d text us →
      Lexes d (text ++ texts.flatMap fun t => ' ' :: (name.toList ++ ' ' :: t.toList))
        (us ++ ts.flatMap (op.tokens ++ ·.fringe)) := by
    intro texts ts each
    induction each with
    | nil => simp
    | @cons second u texts ts here rest ih =>
      intro text us read
      have longer := ih (read.spaced (token.spaced here))
      simpa using longer
  cases each with
  | nil => exact absurd rfl some
  | @cons text t texts ts first rest =>
    have read := more rest first
    rw [Spells, toList_intercalate_cons, Term.fringe_chain]
    simpa using read

/-- A branch of a conditional and what comes after it. -/
theorem branch (condition : Spells d c a) (result : Spells d r b)
    (after : Lexes d (' ' :: rest) us) :
    ∃ more, (" WHEN " ++ c ++ " THEN " ++ r).toList ++ ' ' :: rest = ' ' :: more ∧
      Lexes d (' ' :: more) (.word "WHEN" :: (a.fringe ++ .word "THEN" :: (b.fringe ++ us))) := by
  have when : Lexes d "WHEN".toList [.word "WHEN"] := .wordText (by decide)
  have consequence : Lexes d "THEN".toList [.word "THEN"] := .wordText (by decide)
  have ending := (show Lexes d r.toList b.fringe from result).append (by decide) after
  have read := when.spaced (condition.spaced (consequence.spaced ending))
  have first : " WHEN ".toList = ' ' :: ("WHEN".toList ++ [' ']) := by decide +kernel
  have second : " THEN ".toList = ' ' :: ("THEN".toList ++ [' ']) := by decide +kernel
  refine ⟨"WHEN".toList ++ ' ' :: (c.toList ++ ' ' :: ("THEN".toList ++ ' ' ::
    (r.toList ++ ' ' :: rest))), ?_, read.blank⟩
  simp only [String.toList_append, first, second, List.append_assoc, List.cons_append,
    List.nil_append]

end Spells

end Sql

open Sql (Lexes Spells Term)

namespace Dialect

theorem literalTerm_ne_binary (d : Dialect) (v : Value) : d.literalTerm v ≠ .binary op a b := by
  have number : ∀ text, Term.ofNumber text ≠ .binary op a b := by
    intro text
    unfold Term.ofNumber
    split <;> exact Term.noConfusion
  cases v with
  | scalar v => cases v <;> cases d <;> first | exact number _ | exact Term.noConfusion
  | _ => exact Term.noConfusion

/-- Of the literals only the numbers with a sign begin with one. -/
theorem literal_signed {d : Dialect} {v : Value} (ok : d.literal v = .ok text)
    (signed : (d.literalTerm v).IsSigned) : text.toList.head? = some '-' := by
  have number : ∀ text, (Term.ofNumber text).IsSigned → text.toList.head? = some '-' := by
    rintro text ⟨operand, same⟩
    unfold Term.ofNumber at same
    split at same
    · rename_i digits first
      rw [first]
      rfl
    · cases same
  have floating : ∀ x : Double, floatLiteral x = .ok text → (Term.ofNumber x.plainText).IsSigned →
      text.toList.head? = some '-' := by
    intro x ok signed
    unfold floatLiteral at ok
    split at ok
    · exact Except.ok.inj ok ▸ number _ signed
    · cases ok
  cases v with
  | scalar v =>
    cases v with
    | float x => exact floating _ ok signed
    | double x => exact floating _ ok signed
    | bool | string | dateTime =>
      obtain ⟨operand, same⟩ := signed
      cases d <;> cases same
    | _ => exact Except.ok.inj ok ▸ number _ signed
  | _ =>
    obtain ⟨operand, same⟩ := signed
    cases same

end Dialect

namespace Expr

private theorem unaryText_not (text : String) : unaryText "NOT" text = "NOT" ++ " " ++ text := rfl

private theorem head_unaryText (text : String) :
    (unaryText "-" text).toList.head? = some '-' := by
  unfold unaryText
  rw [if_neg (by decide)]
  split <;> simp

theorem enclosed_ne_binary (s : SqlStyle) (e : Expr) :
    e.enclosed (e.layout s) ≠ .binary op a b := by
  cases e with
  | literal v => exact s.dialect.literalTerm_ne_binary v
  | unary op operand => cases op <;> exact Term.noConfusion
  | _ => exact Term.noConfusion

theorem spells_grouped {e : Expr} (spells : Spells d text t) :
    Spells d (e.grouped text) (e.enclosed t) := by
  cases e with
  | relational | logical => exact spells.paren
  | _ => exact spells

theorem render_signed {s : SqlStyle} {e : Expr} (ok : e.render s.token = .ok text)
    (signed : (e.enclosed (e.layout s)).IsSigned) : (e.grouped text).toList.head? = some '-' := by
  cases e with
  | literal v => exact s.dialect.literal_signed ok signed
  | unary op operand =>
    cases op with
    | not =>
      obtain ⟨operand, same⟩ := signed
      cases same
    | neg =>
      rw [render] at ok
      obtain ⟨token, answered, ok⟩ := bind_eq_ok.mp ok
      obtain ⟨inner, rendered, ok⟩ := bind_eq_ok.mp ok
      obtain rfl := Except.ok.inj answered
      obtain rfl := Except.ok.inj ok
      exact head_unaryText _
  | _ =>
    obtain ⟨operand, same⟩ := signed
    cases same

mutual

/-- The text of an expression is read as the tokens of its layout. -/
theorem spells_layout {s : SqlStyle} {e : Expr} (formed : e.Formed)
    (ok : e.render s.token = .ok text) : Spells s.dialect text (e.layout s) := by
  cases e with
  | column c =>
    obtain rfl := Except.ok.inj ok
    rw [layout, SqlStyle.columnAtom]
    split
    · exact s.dialect.lexes_qualified c.table c.name
    · exact s.dialect.lexes_quoteIdentifier c.name
  | literal v => exact s.dialect.lexes_literal v ok
  | null =>
    obtain rfl := Except.ok.inj ok
    exact Lexes.wordText (by decide)
  | unary op operand =>
    rw [render] at ok
    obtain ⟨token, answered, ok⟩ := bind_eq_ok.mp ok
    obtain ⟨inner, rendered, ok⟩ := bind_eq_ok.mp ok
    obtain rfl := Except.ok.inj answered
    obtain rfl := Except.ok.inj ok
    have spells := spells_grouped (e := operand) (spells_layout (e := operand) formed rendered)
    cases op with
    | not =>
      rw [SqlStyle.unaryToken, unaryText_not]
      exact spells.not
    | neg =>
      exact spells.neg (fun _ _ _ => operand.enclosed_ne_binary s) (render_signed rendered)
  | binary op left right =>
    rw [render] at ok
    obtain ⟨token, answered, ok⟩ := bind_eq_ok.mp ok
    obtain ⟨l, leftRendered, ok⟩ := bind_eq_ok.mp ok
    obtain ⟨r, rightRendered, ok⟩ := bind_eq_ok.mp ok
    obtain rfl := Except.ok.inj answered
    obtain rfl := Except.ok.inj ok
    have first := spells_grouped (e := left) (spells_layout formed.1 leftRendered)
    have second := spells_grouped (e := right) (spells_layout formed.2 rightRendered)
    have token : Lexes s.dialect (SqlStyle.binaryToken op).toList op.operator.tokens := by
      cases op <;> cases s.dialect <;> rfl
    have read := (first.binary token second).paren
    simp only [String.append_assoc] at read ⊢
    exact read
  | cast target operand =>
    rw [render] at ok
    obtain ⟨type, named, ok⟩ := bind_eq_ok.mp ok
    obtain ⟨inner, rendered, ok⟩ := bind_eq_ok.mp ok
    obtain rfl := Except.ok.inj ok
    exact (spells_layout (e := operand) formed rendered).cast (s.dialect.lexes_castType target named)
  | call name args =>
    rw [render] at ok
    obtain ⟨token, answered, ok⟩ := bind_eq_ok.mp ok
    obtain ⟨texts, rendered, ok⟩ := bind_eq_ok.mp ok
    obtain rfl := Except.ok.inj answered
    obtain rfl := Except.ok.inj ok
    exact Spells.call (s.dialect.lexes_functionName name formed.1)
      (spells_layoutList formed.2 rendered)
  | relational op left right =>
    rw [render] at ok
    obtain ⟨token, answered, ok⟩ := bind_eq_ok.mp ok
    obtain ⟨l, leftRendered, ok⟩ := bind_eq_ok.mp ok
    obtain ⟨r, rightRendered, ok⟩ := bind_eq_ok.mp ok
    obtain rfl := Except.ok.inj answered
    obtain rfl := Except.ok.inj ok
    have first := spells_grouped (e := left) (spells_layout formed.1 leftRendered)
    have second := spells_grouped (e := right) (spells_layout formed.2 rightRendered)
    have token : Lexes s.dialect (SqlStyle.comparatorToken op right.isNullNode).toList
        (op.operator right.isNullNode).tokens := by
      cases op <;> cases right.isNullNode <;> cases s.dialect <;> rfl
    exact first.binary token second
  | logical connective children =>
    rw [render] at ok
    obtain ⟨token, answered, ok⟩ := bind_eq_ok.mp ok
    obtain ⟨texts, rendered, ok⟩ := bind_eq_ok.mp ok
    obtain rfl := Except.ok.inj answered
    obtain rfl := Except.ok.inj ok
    have token : Lexes s.dialect (SqlStyle.connectiveToken connective).toList
        connective.operator.tokens := by
      cases connective <;> cases s.dialect <;> rfl
    have some : layoutOperands s children ≠ [] := by
      cases children with
      | nil => exact absurd rfl formed.1
      | cons => simp [layoutOperands]
    exact Spells.chain token some (spells_layoutOperands formed.2 rendered)
  | conditional branches otherwise =>
    rw [render] at ok
    obtain ⟨token, answered, ok⟩ := bind_eq_ok.mp ok
    obtain ⟨cases, branchesRendered, ok⟩ := bind_eq_ok.mp ok
    obtain ⟨last, lastRendered, ok⟩ := bind_eq_ok.mp ok
    obtain rfl := Except.ok.inj ok
    have word : Lexes s.dialect "CASE".toList [.word "CASE"] := .wordText (by decide)
    obtain ⟨rest, ending, read⟩ := spells_layoutElse formed.2 lastRendered
    obtain ⟨more, middle, read⟩ := spells_layoutBranches formed.1 branchesRendered read
    rw [Spells, String.append_assoc, String.toList_append, String.toList_append,
      List.append_assoc, ending, middle]
    exact word.append (by decide) read

theorem spells_layoutList {s : SqlStyle} {es : List Expr} (formed : FormedList es)
    (ok : renderList s.token es = .ok texts) :
    List.Forall₂ (Spells s.dialect) texts (layoutList s es) := by
  match es with
  | [] =>
    obtain rfl := Except.ok.inj ok
    exact .nil
  | e :: es =>
    rw [renderList] at ok
    obtain ⟨text, first, ok⟩ := bind_eq_ok.mp ok
    obtain ⟨texts, rest, ok⟩ := bind_eq_ok.mp ok
    obtain rfl := Except.ok.inj ok
    exact .cons (spells_layout formed.1 first) (spells_layoutList formed.2 rest)

theorem spells_layoutOperands {s : SqlStyle} {es : List Expr} (formed : FormedList es)
    (ok : renderOperands s.token es = .ok texts) :
    List.Forall₂ (Spells s.dialect) texts (layoutOperands s es) := by
  match es with
  | [] =>
    obtain rfl := Except.ok.inj ok
    exact .nil
  | e :: es =>
    rw [renderOperands] at ok
    obtain ⟨text, first, ok⟩ := bind_eq_ok.mp ok
    obtain ⟨texts, rest, ok⟩ := bind_eq_ok.mp ok
    obtain rfl := Except.ok.inj ok
    exact .cons (spells_grouped (spells_layout formed.1 first))
      (spells_layoutOperands formed.2 rest)

/-- The branches before something that a blank begins are read before it. -/
theorem spells_layoutBranches {s : SqlStyle} {branches : List (Expr × Expr)}
    (formed : FormedBranches branches) (ok : renderBranches s.token branches = .ok text)
    (after : Lexes s.dialect (' ' :: rest) us) :
    ∃ more, text.toList ++ ' ' :: rest = ' ' :: more ∧
      Lexes s.dialect (' ' :: more) (Term.fringeBranches (layoutBranches s branches) ++ us) := by
  match branches with
  | [] =>
    obtain rfl := Except.ok.inj ok
    exact ⟨rest, rfl, after⟩
  | (condition, result) :: branches =>
    rw [renderBranches] at ok
    obtain ⟨c, first, ok⟩ := bind_eq_ok.mp ok
    obtain ⟨r, second, ok⟩ := bind_eq_ok.mp ok
    obtain ⟨texts, later, ok⟩ := bind_eq_ok.mp ok
    obtain rfl := Except.ok.inj ok
    obtain ⟨more, same, read⟩ := spells_layoutBranches formed.2.2 later after
    obtain ⟨whole, joined, read⟩ := (spells_layout formed.1 first).branch
      (spells_layout formed.2.1 second) read
    refine ⟨whole, ?_, ?_⟩
    · rw [String.toList_append, List.append_assoc, same, joined]
    · simpa [layoutBranches, Term.fringeBranches] using read

/-- The last part of a conditional is read before the word that ends it. -/
theorem spells_layoutElse {s : SqlStyle} {otherwise : Option Expr} (formed : FormedElse otherwise)
    (ok : renderElse s.token otherwise = .ok text) :
    ∃ rest, (text ++ " END").toList = ' ' :: rest ∧
      Lexes s.dialect (' ' :: rest) (Term.fringeElse (layoutElse s otherwise) ++ [.word "END"]) := by
  have ending : Lexes s.dialect "END".toList [.word "END"] := .wordText (by decide)
  match otherwise with
  | none =>
    obtain rfl := Except.ok.inj ok
    exact ⟨"END".toList, by decide +kernel, ending.blank⟩
  | some e =>
    rw [renderElse] at ok
    obtain ⟨inner, rendered, ok⟩ := bind_eq_ok.mp ok
    obtain rfl := Except.ok.inj ok
    have word : Lexes s.dialect "ELSE".toList [.word "ELSE"] := .wordText (by decide)
    have first : " ELSE ".toList = ' ' :: ("ELSE".toList ++ [' ']) := by decide +kernel
    have last : " END".toList = ' ' :: "END".toList := by decide +kernel
    have read := word.spaced ((spells_layout formed rendered).spaced ending)
    refine ⟨"ELSE".toList ++ ' ' :: (inner.toList ++ ' ' :: "END".toList), ?_, read.blank⟩
    simp only [String.toList_append, first, last, List.append_assoc, List.cons_append,
      List.nil_append]

end

end Expr

end ObjectMapping
