import ObjectMapping.Transaction.Boundary
import ObjectMapping.Proofs.Transaction.Confinement
import ObjectMapping.Proofs.Transaction.Lifetime

/-! The flag of a transaction mirrors what its client has been told about units of work, the
connection is asked to begin and to end them in turn, and the end of the transaction releases
every statement and undoes what is still under way. -/
namespace ObjectMapping

namespace InProgress

/-- What a further exchange makes of a past is decided by the exchange or before it. -/
private theorem snoc {past : List Exchange} :
    InProgress (past ++ [(q, reply)]) ↔
      (∃ r, (q, reply) = (.start, .ok r)) ∨
        InProgress past ∧ ∀ r, reply = .ok r → q ≠ .start ∧ q ≠ .commit ∧ q ≠ .rollback := by
  constructor
  · rintro ⟨before, r, later, split, quiet⟩
    obtain rfl | ⟨front, last, rfl⟩ := later.eq_nil_or_concat
    · exact .inl ⟨r, by simpa using (List.append_inj' split rfl).2⟩
    · have whole : past ++ [(q, reply)] = (before ++ (.start, .ok r) :: front) ++ [last] := by
        simpa using split
      obtain ⟨rfl, same⟩ := List.append_inj' whole rfl
      obtain rfl : (q, reply) = last := List.singleton_inj.mp same
      refine .inr ⟨⟨before, r, front, rfl, ?_⟩, ?_⟩
      · exact fun q r member => quiet q r (by simp [member])
      · rintro r rfl
        exact quiet q r (by simp)
  · rintro (⟨r, same⟩ | ⟨⟨before, r, later, rfl, quiet⟩, plain⟩)
    · exact ⟨past, r, [], by rw [same], by simp⟩
    · refine ⟨before, r, later ++ [(q, reply)], by simp, ?_⟩
      intro q' r' member
      rcases List.mem_append.mp member with old | new
      · exact quiet q' r' old
      · obtain ⟨rfl, rfl⟩ := Prod.mk.inj (List.mem_singleton.mp new)
        exact plain r' rfl

end InProgress

namespace Transaction

variable {σ ι : Type} {tx next : Transaction σ ι} {c : Connector σ ι}

/-- A request that begins or ends a unit of work is refused if it does not fit, and is else
passed on; the flag turns if the connection has done its part. -/
private def Turned (tx : Transaction σ ι) (call : Call) (wanted : Bool)
    (p : Except Error α × Transaction σ ι) : Prop :=
  (tx.active = wanted → p.2.journal = tx.journal ++ [⟨call, outcomeOf p.1⟩] ∧
    p.2.active = if p.1.isOk then !wanted else wanted) ∧
  (tx.active ≠ wanted → p.1.isOk = false ∧ p.2 = tx)

private theorem Turned.answer {action : Action (Transaction σ ι) Unit}
    (turned : Turned tx call wanted (action.perform tx)) (reply : Reply) :
    Turned tx call wanted
      ((do action; return reply : Action (Transaction σ ι) Reply).perform tx) := by
  rw [Action.perform_answer action (fun _ => reply)]
  revert turned
  cases action.perform tx with
  | mk result next => cases result <;> exact id

end Transaction

end ObjectMapping
