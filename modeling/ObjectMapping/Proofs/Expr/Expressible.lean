import ObjectMapping.Expr.Expressible
import ObjectMapping.Proofs.Except
import ObjectMapping.Proofs.Expr.Calls
import ObjectMapping.Proofs.Floating

/-! Dialects differ in how they write an expression, and not in whether they can. -/
namespace ObjectMapping

variable {s : SqlStyle} {h : Expr.Head} {err : Error}

namespace Expr.Head

theorem exists_fault : (∃ err, h.Fault err) ↔ ¬h.Expressible := by
  constructor
  · rintro ⟨err, fault⟩
    cases fault with
    | float endless | double endless | cast endless => exact Bool.eq_false_iff.mp endless
    | object | array => exact id
  · intro inexpressible
    cases h with
    | literal v =>
      cases v with
      | scalar a =>
        cases a with
        | float x => exact ⟨_, .float (Bool.eq_false_iff.mpr inexpressible)⟩
        | double x => exact ⟨_, .double (Bool.eq_false_iff.mpr inexpressible)⟩
        | _ => exact absurd trivial inexpressible
      | null => exact absurd trivial inexpressible
      | object r => exact ⟨_, .object r⟩
      | array items => exact ⟨_, .array items⟩
    | cast target => exact ⟨_, .cast (Bool.eq_false_iff.mpr inexpressible)⟩
    | _ => exact absurd trivial inexpressible

end Expr.Head

namespace SqlStyle

theorem token_ok (s : SqlStyle) (expressible : h.Expressible) : ∃ text, s.token h = .ok text := by
  cases h with
  | literal v =>
    cases v with
    | scalar a =>
      cases a with
      | float x => exact ⟨_, if_pos (x.isFinite_widen expressible)⟩
      | double x => exact ⟨_, if_pos expressible⟩
      | _ => exact ⟨_, rfl⟩
    | null => exact ⟨_, rfl⟩
    | object | array => exact expressible.elim
  | cast target =>
    rcases s with ⟨dialect, qualified⟩
    cases target with
    | object | array | variant => cases expressible
    | _ => cases dialect <;> exact ⟨_, rfl⟩
  | _ => exact ⟨_, rfl⟩

theorem token_error (s : SqlStyle) (fault : h.Fault err) : s.token h = .error err := by
  cases fault with
  | @float x endless =>
    exact if_neg fun finite => Bool.eq_false_iff.mp endless (x.isFinite_of_widen finite)
  | double endless => exact if_neg (Bool.eq_false_iff.mp endless)
  | object | array => rfl
  | @cast target wide =>
    rcases s with ⟨dialect, qualified⟩
    cases target with
    | object | array | variant => cases dialect <;> rfl
    | _ => cases wide

theorem exists_token : (∃ text, s.token h = .ok text) ↔ h.Expressible := by
  refine ⟨fun ⟨text, ok⟩ => by_contra fun inexpressible => ?_, s.token_ok⟩
  obtain ⟨err, fault⟩ := Expr.Head.exists_fault.mpr inexpressible
  cases ok.symm.trans (s.token_error fault)

theorem token_eq_error : s.token h = .error err ↔ h.Fault err := by
  refine ⟨fun refused => ?_, s.token_error⟩
  have inexpressible : ¬h.Expressible := fun expressible => by
    obtain ⟨text, ok⟩ := s.token_ok expressible
    cases ok.symm.trans refused
  obtain ⟨cause, fault⟩ := Expr.Head.exists_fault.mpr inexpressible
  obtain rfl := Except.error.inj ((s.token_error fault).symm.trans refused)
  exact fault

theorem compile_eq (s : SqlStyle) (e : Expr) :
    s.compile e = (e.nodes.mapM s.token).map e.assemble := Expr.render_eq s.token e

/-- An expression can be written if every node of it can. -/
theorem compile_ok_iff : (∃ text, s.compile e = .ok text) ↔ ∀ h ∈ e.nodes, h.Expressible := by
  simp only [compile_eq, except_map_eq_ok, ← exists_token (s := s), ← exists_mapM_ok]
  exact ⟨fun ⟨_, texts, ok, _⟩ => ⟨texts, ok⟩, fun ⟨texts, ok⟩ => ⟨_, texts, ok, rfl⟩⟩

/-- Writing an expression fails for the first node that cannot be written. -/
theorem compile_eq_error_iff : s.compile e = .error err ↔
    ∃ before h after, e.nodes = before ++ h :: after ∧ (∀ x ∈ before, x.Expressible) ∧
      h.Fault err := by
  simp only [compile_eq, except_map_eq_error, mapM_eq_error, exists_token, token_eq_error]

/-- Whether an expression can be written depends neither on the dialect nor on whether columns carry
the name of their table. It can be if its literals are no records and no lists, and finite where
they are numbers with a fraction, and if its casts lead to types of columns. Otherwise the error is
that of the first node, each coming before what stands below it, of which this is not true. -/
theorem compile_outcome (e : Expr) (s : SqlStyle) :
    ((∃ text, s.compile e = .ok text) ↔ ∀ h ∈ e.nodes, h.Expressible) ∧
      (∀ err, s.compile e = .error err ↔
        ∃ before h after, e.nodes = before ++ h :: after ∧ (∀ x ∈ before, x.Expressible) ∧
          h.Fault err) ∧
      ∀ other : SqlStyle,
        ((∃ text, s.compile e = .ok text) ↔ ∃ text, other.compile e = .ok text) ∧
          ∀ err, s.compile e = .error err ↔ other.compile e = .error err :=
  ⟨compile_ok_iff, fun _ => compile_eq_error_iff, fun _ =>
    ⟨compile_ok_iff.trans compile_ok_iff.symm, fun _ =>
      compile_eq_error_iff.trans compile_eq_error_iff.symm⟩⟩

end SqlStyle

end ObjectMapping
