import ObjectMapping.Transaction.Run
import ObjectMapping.Transaction.Tidy
import ObjectMapping.Proofs.Transaction.Confinement
import ObjectMapping.Proofs.Transaction.Reach

/-! Running a statement is a creation, requests about the new statement only, and a request to
close it, and whatever becomes of them, this leaves no trace in the transaction. -/
namespace ObjectMapping

namespace Ledger

variable {ι : Type}

theorem remove_update (l : Ledger ι) (h : Handle) (f : OpenStatement ι → OpenStatement ι) :
    (l.update h f).remove h = l.remove h := by
  simp only [remove, update, mk.injEq, true_and]
  induction l.statements with
  | nil => rfl
  | cons entry rest ih =>
    obtain ⟨k, s⟩ := entry
    by_cases here : k = h
    · simpa [here] using ih
    · simpa [here] using ih

theorem remove_remove (l : Ledger ι) (h : Handle) : (l.remove h).remove h = l.remove h := by
  simp [remove]

theorem remove_absent {l : Ledger ι} (absent : l.find h = none) : l.remove h = l := by
  have kept : l.statements.filter (·.1 ≠ h) = l.statements := by
    refine List.filter_eq_self.mpr fun entry member => decide_eq_true ?_
    rintro rfl
    exact find_eq_none_iff.mp absent (List.mem_map_of_mem member)
  rw [remove, kept]

end Ledger

namespace Transaction

variable {σ ι : Type} {tx next last : Transaction σ ι} {c : Connector σ ι} {h : Handle}
  {l m : Ledger ι}

theorem Tidy.refl (c : Connector σ ι) (tx : Transaction σ ι) : Tidy c tx tx where
  conducted := ⟨[], rfl⟩
  active := rfl
  statements := rfl
  released h := by simp [entered, releases, received, created]

/-- What a statement was does not matter once it is closed. -/
theorem Touched.remove (touched : Touched h l closed m) : m.remove h = l.remove h := by
  cases touched with
  | changed f => exact l.remove_update h f
  | gone => exact l.remove_remove h

/-- A transaction comes to another state by requests about the statement of one handle. -/
def Served (c : Connector σ ι) (h : Handle) (tx next : Transaction σ ι) : Prop :=
  ∃ uses : List Request, (∀ q ∈ uses, q.handle? = some h) ∧ next = tx.after c uses

namespace Served

theorem refl (tx : Transaction σ ι) : Served c h tx tx := ⟨[], by simp, rfl⟩

theorem trans (first : Served c h tx next) (second : Served c h next last) :
    Served c h tx last := by
  obtain ⟨before, own, rfl⟩ := first
  obtain ⟨later, also, rfl⟩ := second
  refine ⟨before ++ later, ?_, by simp [after]⟩
  intro q member
  exact (List.mem_append.mp member).elim (own q) (also q)

theorem one (c : Connector σ ι) (own : q.handle? = some h) (tx : Transaction σ ι) :
    Served c h tx ((answer c q).perform tx).2 :=
  ⟨[q], by simpa using own, rfl⟩

theorem remove (served : Served c h tx next) : next.ledger.remove h = tx.ledger.remove h := by
  obtain ⟨uses, own, rfl⟩ := served
  induction uses generalizing tx with
  | nil => rfl
  | cons q rest ih =>
    have touched := (answer_touched c (own q List.mem_cons_self) tx).2
    exact (ih fun r member => own r (by simp [member])).trans touched.remove

theorem confined (served : Served c h tx next) : Confined h tx next := by
  obtain ⟨uses, own, rfl⟩ := served
  induction uses generalizing tx with
  | nil => exact .refl tx
  | cons q rest ih =>
    have first := answer_confined c (own q List.mem_cons_self) tx
    exact first.trans (ih fun r member => own r (by simp [member]))

end Served

theorem close_ledger (c : Connector σ ι) (h : Handle) (tx : Transaction σ ι) :
    ((dispose c h).perform tx).2.ledger = tx.ledger.remove h := by
  simp only [dispose, Action.perform_ofFunction, close, Action.perform_bind, perform_lookup]
  cases found : tx.ledger.find h with
  | none => exact (Ledger.remove_absent found).symm
  | some s => rfl

end Transaction

end ObjectMapping
