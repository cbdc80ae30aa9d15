import Mathlib.Data.List.Basic
import ObjectMapping.Transaction.Reach
import ObjectMapping.Transaction.Scripted
import ObjectMapping.Proofs.Transaction.Failure
import ObjectMapping.Proofs.Transaction.Lifetime

/-! A transaction knows the handles that it has handed out and that were not closed since, and
no others. -/
namespace ObjectMapping

theorem Ledger.find_eq_none_iff {l : Ledger ι} :
    l.find h = none ↔ h ∉ l.statements.map (·.1) := by
  rw [find, List.lookup_eq_none_iff, List.mem_map]
  constructor
  · rintro apart ⟨entry, member, rfl⟩
    simpa using apart entry member
  · intro absent entry member
    rw [bne_iff_ne]
    rintro rfl
    exact absent ⟨entry, member, rfl⟩

namespace Transaction

variable {σ ι : Type} {tx next : Transaction σ ι} {c : Connector σ ι} {h : Handle} {l m : Ledger ι}

/-- The open statements agree with something that may have happened. -/
theorem Reached.consistent (reached : Reached c tx issued closed) :
    ∃ past, Consistent past tx.ledger ∧ created past = issued := by
  induction reached with
  | new connection => exact ⟨[], consistent_new connection, rfl⟩
  | @answer tx issued closed _ q ih =>
    obtain ⟨past, consistent, made⟩ := ih
    refine ⟨_, consistent.change (answer_moves c q tx).1.change, ?_⟩
    rw [created_append, made]
    exact congrArg (issued ++ ·) (answer_moves c q tx).2
  | reconnect _ connection ih => exact ih

/-- No handle is handed out twice. -/
theorem Reached.nodup (reached : Reached c tx issued closed) : issued.Nodup := by
  obtain ⟨past, consistent, rfl⟩ := reached.consistent
  exact consistent.createdOnce

/-- What a request about a statement leaves of the ledger: the statement is changed, or it was
closed and is gone. -/
inductive Touched (h : Handle) (l : Ledger ι) : List Handle → Ledger ι → Prop where
  | changed (f : OpenStatement ι → OpenStatement ι) : Touched h l [] (l.update h f)
  | gone (found : l.find h = some s) : Touched h l [h] (l.remove h)

theorem Touched.unchanged (h : Handle) (same : m = l) : Touched h l [] m :=
  (same.trans (l.update_same h).symm) ▸ .changed fun s => s

private theorem handles_map (result : Except Error α) (f : α → Reply)
    (unopened : ∀ x h, f x ≠ .opened h) : handles (result.map f) = [] := by
  cases result with
  | error => rfl
  | ok x =>
    change handles (.ok (f x)) = []
    cases reply : f x with
    | opened h => exact absurd reply (unopened x h)
    | _ => rfl

/-- A request about a statement opens none, and closes at most this one. -/
theorem answer_touched (c : Connector σ ι) (own : q.handle? = some h) (tx : Transaction σ ι) :
    handles ((answer c q).perform tx).1 = [] ∧
      Touched h tx.ledger (givenBack q ((answer c q).perform tx).1)
        ((answer c q).perform tx).2.ledger := by
  cases q with
  | start | commit | rollback | create => cases own
  | bindParameters k params =>
    obtain rfl := Option.some.inj own
    rw [answer, Action.perform_answer]
    refine ⟨handles_map _ (fun _ => .done) (by simp), ?_⟩
    have outcome := bindParameters_outcome k params tx
    revert outcome
    cases (bindParameters k params).perform tx with
    | mk result next =>
      cases result with
      | ok =>
        rintro ⟨f, moved⟩
        exact moved ▸ .changed f
      | error => exact fun same => .unchanged k same
  | prepare k =>
    obtain rfl := Option.some.inj own
    rw [answer, Action.perform_answer]
    obtain ⟨f, moved, -⟩ := (prepare_operates c k tx).related.follows
    exact ⟨handles_map _ (fun _ => .done) (by simp), moved ▸ .changed f⟩
  | execute k =>
    obtain rfl := Option.some.inj own
    rw [answer, Action.perform_answer]
    obtain ⟨f, moved, -⟩ := (execute_operates c k tx).related.follows
    exact ⟨handles_map _ .affected (by simp), moved ▸ .changed f⟩
  | fetchNext k d target =>
    obtain rfl := Option.some.inj own
    obtain ⟨f, moved, -⟩ := (fetchNext_operates c k d target tx).related.follows
    exact ⟨handles_map _ (.wrote · _) (by simp), moved ▸ .changed f⟩
  | readGeneratedKey k d target =>
    obtain rfl := Option.some.inj own
    have same := (readGeneratedKey_operates c k d target tx).related.unchanged
    exact ⟨handles_map _ (.wrote · _) (by simp), .unchanged k same⟩
  | close k =>
    obtain rfl := Option.some.inj own
    rw [answer, Action.perform_answer]
    refine ⟨handles_map _ (fun _ => .done) (by simp), ?_⟩
    simp only [close, Action.perform_bind, perform_lookup]
    cases found : tx.ledger.find k with
    | none => exact .unchanged k rfl
    | some s => exact .gone found

theorem Touched.handles (touched : Touched h l closed m) :
    m.statements.map (·.1) = (l.statements.map (·.1)).filter (· ∉ closed) := by
  cases touched with
  | changed f => simp [Ledger.handles_update]
  | gone => simp [Ledger.remove, List.filter_map, Function.comp_def]

/-- Only an open statement is closed. -/
theorem Touched.open (touched : Touched h l closed m) : ∀ k ∈ closed, k ∈ l.statements.map (·.1) := by
  cases touched with
  | changed => simp
  | gone found =>
    intro k member
    obtain rfl := List.mem_singleton.mp member
    refine Decidable.not_not.mp fun absent => ?_
    cases found.symm.trans (Ledger.find_eq_none_iff.mpr absent)

/-- What becomes of the open handles is told by the request and the reply. -/
theorem openHandles_answer (c : Connector σ ι) (q : Request) (tx : Transaction σ ι) :
    ((answer c q).perform tx).2.openHandles =
      tx.openHandles.filter (· ∉ givenBack q ((answer c q).perform tx).1) ++
        handles ((answer c q).perform tx).1 := by
  have flag : ∀ {action : Action (Transaction σ ι) Unit}, FlagOnly tx (action.perform tx) →
      (action.perform tx).2.openHandles = tx.openHandles ++
        handles ((action.perform tx).1.map fun _ => .done) := by
    intro action only
    rw [handles_map _ (fun _ => .done) (by simp), List.append_nil, openHandles, only.statements,
      openHandles]
  cases own : q.handle? with
  | some h =>
    obtain ⟨none, touched⟩ := answer_touched c own tx
    rw [none, List.append_nil]
    exact touched.handles
  | none =>
    cases q with
    | start =>
      rw [answer, Action.perform_answer]
      simpa [givenBack] using flag (start_flagOnly c tx)
    | commit =>
      rw [answer, Action.perform_answer]
      simpa [givenBack] using flag (commit_flagOnly c tx)
    | rollback =>
      rw [answer, Action.perform_answer]
      simpa [givenBack] using flag (rollback_flagOnly c tx)
    | create kind sql =>
      rw [answer, Action.perform_answer]
      have outcome := create_outcome c kind sql tx
      revert outcome
      cases (create c kind sql).perform tx with
      | mk result next =>
        cases result with
        | error =>
          rintro ⟨-, ledger⟩
          have same : next.statements = tx.statements := congrArg Ledger.statements ledger
          simp [givenBack, openHandles, same, handles, Except.map]
        | ok h =>
          rintro ⟨rfl, -, statement, entered⟩
          have statements : next.statements = _ := congrArg Ledger.statements entered
          simp [givenBack, openHandles, statements, Ledger.enter, ledger, handles,
            Except.map]
    | _ => cases own

theorem givenBack_open (c : Connector σ ι) (q : Request) (tx : Transaction σ ι) :
    ∀ h ∈ givenBack q ((answer c q).perform tx).1, h ∈ tx.openHandles := by
  cases own : q.handle? with
  | some h => exact (answer_touched c own tx).2.open
  | none =>
    cases q with
    | start | commit | rollback | create => exact fun _ member => absurd member List.not_mem_nil
    | _ => cases own

/-- The open handles are those that were handed out and not given back. -/
theorem openHandles_reached (reached : Reached c tx issued closed) :
    tx.openHandles = issued.filter (· ∉ closed) ∧ ∀ h ∈ closed, h ∈ issued := by
  induction reached with
  | new connection => exact ⟨rfl, fun _ member => absurd member List.not_mem_nil⟩
  | reconnect _ connection ih => exact ih
  | @answer tx issued closed reached q ih =>
    obtain ⟨open_eq, returned⟩ := ih
    obtain ⟨-, -, apart⟩ := List.nodup_append.mp (reached.answer q).nodup
    have given : ∀ h ∈ closed ++ givenBack q ((answer c q).perform tx).1, h ∈ issued := by
      intro h member
      rcases List.mem_append.mp member with before | now
      · exact returned h before
      · have here := givenBack_open c q tx h now
        rw [open_eq] at here
        exact (List.mem_filter.mp here).1
    refine ⟨?_, fun h member => List.mem_append_left _ (given h member)⟩
    rw [openHandles_answer, open_eq, List.filter_append, List.filter_filter]
    congr 1
    · simp [Bool.and_comm]
    · refine (List.filter_eq_self.mpr fun h new => ?_).symm
      exact decide_eq_true fun member => apart h (given h member) h new rfl

theorem refuses_unknown (unknown : h ∉ tx.openHandles) : Refuses c tx h := by
  have missing : (lookup h).perform tx = (.error (unknownStatement h), tx) := by
    rw [perform_lookup, Ledger.find_eq_none_iff.mpr unknown]
  refine ⟨?_, ?_, ?_, ?_, ?_, ?_, ?_⟩
  · rw [stateOf, Action.perform_bind, missing]
  · intro params
    rw [bindParameters, Action.perform_bind, missing]
  · rw [prepare, Action.perform_bind, missing]
  · rw [execute, Action.perform_bind, missing]
  · intro d target fits
    simp only [fetchNext, Action.perform_bind, Action.perform_get, fits, Bool.not_true,
      Bool.false_eq_true, if_false, Action.perform_onFirst, missing]
  · intro d target
    rw [readGeneratedKey]
    cases d.primaryKey? with
    | none => rfl
    | some key => simp only [Action.perform_bind, Action.perform_onFirst, missing]; rfl
  · rw [close, Action.perform_bind, missing]

/-- In every state, the open handles are those that were handed out and not given back, and
every other one is refused whatever it is used for. -/
theorem strangers_refused (reached : Reached c tx issued closed) :
    tx.openHandles = issued.filter (· ∉ closed) ∧
      ∀ h, h ∈ closed ∨ h ∉ issued → Refuses c tx h := by
  obtain ⟨open_eq, -⟩ := openHandles_reached reached
  refine ⟨open_eq, fun h stranger => refuses_unknown fun here => ?_⟩
  rw [open_eq, List.mem_filter, decide_eq_true_iff] at here
  exact stranger.elim here.2 fun foreign => foreign here.1

namespace Broken

def insertion : Handle := ⟨1, .insert⟩

def query : Handle := ⟨1, .select⟩

/-- An insertion was opened and closed again. -/
def closed : Transaction Unit Unit :=
  (new ()).after connector [.create .insert "q", .close insertion]

/-- Another transaction with an open query. -/
def other : Transaction Unit Unit := (new ()).after connector [.create .select "other"]

theorem closed_reached : Reached connector closed [insertion] [insertion] :=
  ((Reached.new ()).answer (.create .insert "q")).answer (.close insertion)

theorem other_reached : Reached connector other [query] [] :=
  (Reached.new ()).answer (.create .select "other")

end Broken

open Broken in
theorem strangers_refused_closed :
    Reached connector closed [insertion] [insertion] ∧ Refuses connector closed insertion :=
  ⟨closed_reached, (strangers_refused closed_reached).2 insertion (.inl (by decide))⟩

open Broken in
/-- Nobody asks for the handle where there is no key to read, and the handle of another
transaction is taken for the own one of the same number and kind. -/
theorem strangers_answered :
    (Reached connector closed [insertion] [insertion] ∧
      (readGeneratedKey connector insertion descriptor).perform (closed, descriptor.initial) =
        (.ok false, closed, descriptor.initial)) ∧
    Reached connector other [query] [] ∧
      ((close connector query).perform opened).1 = .ok () ∧
      opened.openHandles = [query] ∧
      ((close connector query).perform opened).2.openHandles = [] :=
  ⟨⟨closed_reached, rfl⟩, other_reached, rfl, rfl, rfl⟩

end Transaction

end ObjectMapping
