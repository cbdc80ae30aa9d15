import ObjectMapping.Proofs.Sql.Rendering

/-! No text breaks out of its quotes: a database finds between quotes what the expression
has for names and texts, and nothing else, whatever characters these are made of. Nor
does it find a placeholder in an expression. -/
namespace ObjectMapping

open Sql (Operator Term placeholders quotedTexts)

namespace Sql

/-- Whether the token is a quoted text or a placeholder. -/
def Token.isPayload : Token → Bool
  | quoted .. | placeholder _ => true
  | _ => false

/-- The quoted texts and the placeholders, in order. -/
def payload (ts : List Token) : List Token := ts.filter Token.isPayload

@[simp] theorem payload_append (ts us : List Token) :
    payload (ts ++ us) = payload ts ++ payload us := List.filter_append ..

@[simp] theorem payload_nil : payload [] = [] := rfl

@[simp] theorem payload_word (text : String) (ts : List Token) : payload (.word text :: ts) = payload ts :=
  rfl

@[simp] theorem payload_number (text : String) (ts : List Token) :
    payload (.number text :: ts) = payload ts := rfl

@[simp] theorem payload_sign (text : String) (ts : List Token) : payload (.sign text :: ts) = payload ts :=
  rfl

@[simp] theorem payload_quoted (quote : Char) (text : String) (ts : List Token) :
    payload (.quoted quote text :: ts) = .quoted quote text :: payload ts := rfl

@[simp] theorem payload_operator (op : Operator) : payload op.tokens = [] := by
  cases op <;> rfl

private theorem filterMap_payload (read : Token → Option α)
    (blind : ∀ t, t.isPayload = false → read t = none) (ts : List Token) :
    (payload ts).filterMap read = ts.filterMap read := by
  rw [payload, List.filterMap_filter]
  congr 1
  funext t
  cases kept : t.isPayload with
  | false => simp [blind t kept]
  | true => rfl

theorem quotedTexts_payload (ts : List Token) : quotedTexts (payload ts) = quotedTexts ts :=
  filterMap_payload _ (fun t plain => by cases t <;> first | rfl | cases plain) ts

theorem placeholders_payload (ts : List Token) : placeholders (payload ts) = placeholders ts :=
  filterMap_payload _ (fun t plain => by cases t <;> first | rfl | cases plain) ts

/-- Texts between quotes as tokens. -/
def quotes (texts : List (Char × String)) : List Token :=
  texts.map fun (quote, text) => .quoted quote text

@[simp] theorem quotes_append (ps qs : List (Char × String)) :
    quotes (ps ++ qs) = quotes ps ++ quotes qs := List.map_append

theorem quotedTexts_quotes (texts : List (Char × String)) : quotedTexts (quotes texts) = texts := by
  induction texts with
  | nil => rfl
  | cons text texts ih => exact congrArg (text :: ·) ih

theorem placeholders_quotes (texts : List (Char × String)) : placeholders (quotes texts) = [] := by
  induction texts with
  | nil => rfl
  | cons text texts ih => exact ih

namespace Term

theorem payload_ofNumber (text : String) : payload (ofNumber text).fringe = [] := by
  unfold ofNumber
  split <;> rfl

theorem payload_chain (op : Operator) (ts : List Term) :
    payload (chain op ts).fringe = ts.flatMap fun t => payload t.fringe := by
  cases ts with
  | nil => rfl
  | cons t rest =>
    rw [fringe_chain, payload_append, List.flatMap_cons]
    congr 1
    induction rest with
    | nil => rfl
    | cons u rest ih => simp [ih]

theorem payload_unsigned (t : Term) : payload t.unsigned.fringe = payload t.fringe := by
  cases t <;> simp [unsigned, fringe]

end Term

end Sql

open Sql (payload quotes)

namespace Dialect

theorem payload_castTerm (d : Dialect) (target : FieldType) :
    payload (d.castTerm target).tokens = [] := by
  cases d <;> cases target <;> rfl

theorem payload_scalarTerm (d : Dialect) (v : Scalar) :
    payload (d.scalarTerm v).fringe = quotes v.quotations := by
  cases v with
  | bool | string | dateTime => cases d <;> rfl
  | _ => exact Term.payload_ofNumber _

end Dialect

namespace Expr

theorem payload_enclosed (e : Expr) (t : Term) :
    payload (e.enclosed t).fringe = payload t.fringe := by
  cases e <;> simp [enclosed, Term.fringe]

mutual

/-- Only the names and texts of the expression stand between quotes in a layout, and no
placeholder is in it. -/
theorem payload_layout (s : SqlStyle) (e : Expr) :
    payload (e.layout s).fringe = quotes (e.quotations s) := by
  cases e with
  | column c =>
    simp only [layout, Term.fringe, SqlStyle.columnAtom, Expr.quotations]
    split <;> rfl
  | literal v =>
    cases v with
    | scalar v => exact s.dialect.payload_scalarTerm v
    | _ => rfl
  | null => rfl
  | unary op operand =>
    cases op with
    | not =>
      simp [layout, Term.fringe, Expr.quotations, payload_enclosed, payload_layout s operand]
    | neg =>
      simp [layout, Term.fringe, Expr.quotations, Term.payload_unsigned, payload_enclosed,
        payload_layout s operand]
  | binary op left right =>
    simp [layout, Term.fringe, Expr.quotations, payload_enclosed, payload_layout s left,
      payload_layout s right]
  | cast target operand =>
    simp [layout, Term.fringe, Expr.quotations, Dialect.payload_castTerm, payload_layout s operand]
  | call name args => simp [layout, Term.fringe, Expr.quotations, payload_layoutList s args]
  | relational op left right =>
    simp [layout, Term.fringe, Expr.quotations, payload_enclosed, payload_layout s left,
      payload_layout s right]
  | logical connective children =>
    rw [layout, Term.payload_chain, Expr.quotations, payload_layoutOperands s children]
  | conditional branches otherwise =>
    simp [layout, Term.fringe, Expr.quotations, payload_layoutBranches s branches,
      payload_layoutElse s otherwise]

theorem payload_layoutList (s : SqlStyle) (es : List Expr) :
    payload (Term.fringeList (layoutList s es)) = quotes (quotationsList s es) := by
  match es with
  | [] => rfl
  | [e] => simp [layoutList, Term.fringeList, quotationsList, payload_layout s e]
  | e :: second :: es =>
    have rest := payload_layoutList s (second :: es)
    rw [layoutList] at rest
    simp [layoutList, Term.fringeList, payload_layout s e, quotationsList, rest]

theorem payload_layoutOperands (s : SqlStyle) (es : List Expr) :
    ((layoutOperands s es).flatMap fun t => payload t.fringe) = quotes (quotationsList s es) := by
  match es with
  | [] => rfl
  | e :: es =>
    rw [layoutOperands, List.flatMap_cons, payload_enclosed, payload_layout s e,
      payload_layoutOperands s es, quotationsList, Sql.quotes_append]

theorem payload_layoutBranches (s : SqlStyle) (branches : List (Expr × Expr)) :
    payload (Term.fringeBranches (layoutBranches s branches)) =
      quotes (quotationsBranches s branches) := by
  match branches with
  | [] => rfl
  | (condition, result) :: branches =>
    simp [layoutBranches, Term.fringeBranches, quotationsBranches, payload_layout s condition,
      payload_layout s result, payload_layoutBranches s branches]

theorem payload_layoutElse (s : SqlStyle) (otherwise : Option Expr) :
    payload (Term.fringeElse (layoutElse s otherwise)) = quotes (quotationsElse s otherwise) := by
  match otherwise with
  | none => rfl
  | some e => simp [layoutElse, Term.fringeElse, quotationsElse, payload_layout s e]

end

/-- The quoted tokens of a layout are those of the expression. -/
theorem quotedTexts_layout (s : SqlStyle) (e : Expr) :
    quotedTexts (e.layout s).fringe = e.quotations s := by
  rw [← Sql.quotedTexts_payload, payload_layout, Sql.quotedTexts_quotes]

theorem placeholders_layout (s : SqlStyle) (e : Expr) : placeholders (e.layout s).fringe = [] := by
  rw [← Sql.placeholders_payload, payload_layout, Sql.placeholders_quotes]

/-- The text of an expression is made of tokens of its dialect, without a comment among
them, and what stands between quotes are the names and texts of the expression. -/
theorem quotedTexts_compile {s : SqlStyle} {e : Expr} (constructed : Constructed e)
    (ok : s.compile e = .ok text) :
    ∃ ts, Sql.tokens s.dialect text = some ts ∧ quotedTexts ts = e.quotations s :=
  ⟨(e.layout s).fringe, spells_layout constructed.formed ok, quotedTexts_layout s e⟩

/-- A text that pretends to end its literal and a sign before a negative number. -/
theorem quotedTexts_compile_hostile :
    (SqlStyle.mk .mysql true).compile (relational .eq (constant (.scalar (.string "\\' -- ")))
        (unary .neg (constant (.scalar (.int32 (-1)))))) = .ok "'\\\\'' -- ' = -(-1)" ∧
      ∃ ts, Sql.tokens .mysql "'\\\\'' -- ' = -(-1)" = some ts ∧
        quotedTexts ts = [('\'', "\\' -- ")] := by
  have ok : (SqlStyle.mk .mysql true).compile
      (relational .eq (constant (.scalar (.string "\\' -- ")))
        (unary .neg (constant (.scalar (.int32 (-1)))))) = .ok "'\\\\'' -- ' = -(-1)" := by
    decide +kernel
  exact ⟨ok, quotedTexts_compile (.relational .eq (.constant _) (.unary .neg (.constant _))) ok⟩

end Expr

end ObjectMapping
