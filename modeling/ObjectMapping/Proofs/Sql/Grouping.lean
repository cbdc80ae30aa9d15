import ObjectMapping.Proofs.Sql.ParseSound
import ObjectMapping.Proofs.Sql.Rendering

/-! A database that reads the text of an expression gets the operators of the expression
on its operands back, with the exception of negated conditions as operands of anything
that binds tighter: rendering puts no parentheses around them. -/
namespace ObjectMapping.Expr

open Sql (Term)

/-- The text of an expression parses as what the expression stands for exactly if the
expression is groupable. -/
theorem parse_compile {s : SqlStyle} {e : Expr} (constructed : Constructed e)
    (ok : s.compile e = .ok text) :
    (∃ ts t, Sql.tokens s.dialect text = some ts ∧ Sql.parse ts = some t ∧ t.bare = e.term s) ↔
      e.Groupable s := by
  have formed := constructed.formed
  have lexed : Sql.tokens s.dialect text = some (e.layout s).fringe := spells_layout formed ok
  rw [← fits_layout s e formed]
  constructor
  · rintro ⟨ts, t, read, parsed, same⟩
    obtain rfl := Option.some.inj (lexed.symm.trans read)
    obtain ⟨spelled, fits⟩ := Sql.parse_eq_some_iff.mp parsed
    -- Of two terms that differ in parentheses only, each text has just one.
    rw [← bare_layout s e] at same
    exact Term.eq_of_bare_of_fringe same spelled ▸ fits
  · intro fits
    exact ⟨_, _, lexed, Sql.parse_eq_some_iff.mpr ⟨rfl, fits⟩, bare_layout s e⟩

/-- A comparison of a sum with a negative number, below a negation. -/
theorem parse_compile_sum :
    (SqlStyle.mk .sqlite true).compile (unary .not (relational .lt
        (binary .add (constant (.scalar (.int64 1))) (constant (.scalar (.int64 2))))
        (unary .neg (constant (.scalar (.int64 (-3))))))) = .ok "NOT ((1 + 2) < -(-3))" ∧
      ∃ ts t, Sql.tokens .sqlite "NOT ((1 + 2) < -(-3))" = some ts ∧ Sql.parse ts = some t ∧
        t.bare = .not (.binary .lt (.binary .add (.atom (.number "1")) (.atom (.number "2")))
          (.neg (.neg (.atom (.number "3"))))) := by
  have ok : (SqlStyle.mk .sqlite true).compile (unary .not (relational .lt
      (binary .add (constant (.scalar (.int64 1))) (constant (.scalar (.int64 2))))
      (unary .neg (constant (.scalar (.int64 (-3))))))) = .ok "NOT ((1 + 2) < -(-3))" := by
    decide +kernel
  have constructed : Constructed (unary .not (relational .lt
      (binary .add (constant (.scalar (.int64 1))) (constant (.scalar (.int64 2))))
      (unary .neg (constant (.scalar (.int64 (-3))))))) :=
    .unary .not (.relational .lt (.binary .add (.constant _) (.constant _))
      (.unary .neg (.constant _)))
  exact ⟨ok, (parse_compile constructed ok).mpr ⟨rfl, rfl, ⟨rfl, rfl, trivial, trivial⟩, rfl, trivial⟩⟩

/-- A negated condition compared with another one is read as a negated comparison. -/
theorem negation_regrouped :
    Constructed (relational .eq (unary .not (constant (.scalar (.bool true))))
        (constant (.scalar (.bool false)))) ∧
      (SqlStyle.mk .postgres true).compile (relational .eq
        (unary .not (constant (.scalar (.bool true)))) (constant (.scalar (.bool false)))) =
        .ok "NOT TRUE = FALSE" ∧
      (∃ ts, Sql.tokens .postgres "NOT TRUE = FALSE" = some ts ∧ Sql.parse ts =
        some (.not (.binary .eq (.atom (.word "TRUE")) (.atom (.word "FALSE"))))) ∧
      ¬∃ ts t, Sql.tokens .postgres "NOT TRUE = FALSE" = some ts ∧ Sql.parse ts = some t ∧
        t.bare = (relational .eq (unary .not (constant (.scalar (.bool true))))
          (constant (.scalar (.bool false)))).term ⟨.postgres, true⟩ := by
  have lexed : Sql.tokens .postgres "NOT TRUE = FALSE" =
      some [.word "NOT", .word "TRUE", .sign "=", .word "FALSE"] := by
    decide +kernel
  have parsed : Sql.parse [.word "NOT", .word "TRUE", .sign "=", .word "FALSE"] =
      some (.not (.binary .eq (.atom (.word "TRUE")) (.atom (.word "FALSE")))) := rfl
  refine ⟨.relational .eq (.unary .not (.constant _)) (.constant _), by decide +kernel,
    ⟨_, lexed, parsed⟩, ?_⟩
  rintro ⟨ts, t, read, other, same⟩
  obtain rfl := Option.some.inj (lexed.symm.trans read)
  obtain rfl := Option.some.inj (parsed.symm.trans other)
  cases same

end ObjectMapping.Expr
