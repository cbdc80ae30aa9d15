import ObjectMapping.Transaction.Standing
import ObjectMapping.Proofs.Transaction.Moves

/-! A failed request does no harm, and no request harms a statement that it is not about. -/
namespace ObjectMapping

theorem Passage.advanced (passage : Passage s u o t) : s.advanced [(u, o)] = t := by
  cases passage <;> rfl

/-- The calls on a way tell where it ends. -/
theorem Walk.advanced (walk : Walk s uses t) : s.advanced uses = t := by
  induction walk with
  | stay => rfl
  | @step s u o m uses t passage _ ih =>
    have first : s.advanced ((u, o) :: uses) = (s.advanced [(u, o)]).advanced uses := rfl
    rw [first, passage.advanced, ih]

/-- A step whose result is only turned into a reply. -/
theorem Action.perform_answer (action : Action σ α) (f : α → β) (s : σ) :
    (do return f (← action) : Action σ β).perform s =
      ((action.perform s).1.map f, (action.perform s).2) := by
  rw [Action.perform_bind]
  cases action.perform s with
  | mk result t => cases result <;> rfl

/-- A reply is missing only if the step has failed. -/
theorem Action.failed_of_answer {action : Action σ α} {f : α → β}
    (failed : (do return f (← action) : Action σ β).perform s = (.error e, t)) :
    action.perform s = (.error e, t) := by
  rw [Action.perform_answer] at failed
  obtain ⟨error, rfl⟩ := Prod.mk.inj failed
  cases outcome : action.perform s with
  | mk result u =>
    rw [outcome] at error
    cases result with
    | error => rw [Except.error.inj error]
    | ok => cases error

namespace Transaction

variable {σ ι : Type} {tx next last : Transaction σ ι} {c : Connector σ ι}

theorem standing_eq (tx : Transaction σ ι) (h : Handle) :
    tx.standing h = (tx.ledger.find h).map fun s => (s.state, s.params) := rfl

theorem active_of_update (moved : next.ledger = tx.ledger.update h f) : next.active = tx.active :=
  congrArg Ledger.active moved

theorem openHandles_of_update (moved : next.ledger = tx.ledger.update h f) :
    next.openHandles = tx.openHandles := by
  have handles := tx.ledger.handles_update h f
  rwa [← moved] at handles

theorem lookup_of_update (moved : next.ledger = tx.ledger.update h f) (apart : k ≠ h) :
    next.statements.lookup k = tx.statements.lookup k := by
  have found : next.ledger.find k = tx.ledger.find k := by
    rw [moved, Ledger.find_update]
    simp [apart]
  exact found

/-- Nothing that a caller can tell of the statements or the flag has changed. -/
structure Still (tx next : Transaction σ ι) : Prop where
  active : next.active = tx.active
  handles : next.openHandles = tx.openHandles
  standing : ∀ h, next.standing h = tx.standing h

namespace Still

theorem of_ledger (same : next.ledger = tx.ledger) : Still tx next where
  active := congrArg Ledger.active same
  handles := by
    have statements : next.statements = tx.statements := congrArg Ledger.statements same
    rw [openHandles, statements, openHandles]
  standing h := by rw [standing_eq, standing_eq, same]

theorem refl (tx : Transaction σ ι) : Still tx tx := of_ledger rfl

theorem trans (first : Still tx next) (second : Still next last) : Still tx last where
  active := second.active.trans first.active
  handles := second.handles.trans first.handles
  standing h := (second.standing h).trans (first.standing h)

theorem of_used (used : Used tx h s call o next) : Still tx next := by
  obtain ⟨-, statement, moved⟩ := used
  refine ⟨active_of_update moved, openHandles_of_update moved, fun k => ?_⟩
  rw [standing_eq, standing_eq, moved, Ledger.find_update, Option.map_map]
  congr 1
  funext s
  by_cases same : k = h <;> simp [same]

theorem unharmed (still : Still tx next) (plain : q.fetched? = none) : Unharmed c q tx next where
  active := still.active
  handles := still.handles
  standing h _ := still.standing h
  progress h fetched := by cases plain.symm.trans fetched
  retry h _ _ fetched := by cases plain.symm.trans fetched

end Still

/-- The statements are left alone, and the flag too if the step has failed. -/
def FlagOnly (tx : Transaction σ ι) : Except Error α × Transaction σ ι → Prop
  | (.ok _, next) => next.statements = tx.statements
  | (.error _, next) => next.ledger = tx.ledger

theorem FlagOnly.statements (only : FlagOnly tx p) : p.2.statements = tx.statements :=
  match p, only with
  | (.ok _, _), same => same
  | (.error _, _), same => congrArg Ledger.statements same

private theorem FlagOnly.failed (only : FlagOnly tx p) (failed : p = (.error e, next)) :
    next.ledger = tx.ledger := by
  rw [failed] at only
  exact only

/-- A step that changes the flag in the end. -/
private theorem flag_only (refused : Transaction σ ι → Bool) (reason : Error) (call : Call)
    (act : Action σ Unit) (flag : Bool) (tx : Transaction σ ι) :
    FlagOnly tx ((do
      if refused (← get) then throw reason
      onConnection call act
      modify fun tx => { tx with active := flag } : Action (Transaction σ ι) Unit).perform tx) := by
  rw [Action.perform_bind, Action.perform_get]
  cases stop : refused tx with
  | true => simp [stop, FlagOnly]
  | false =>
    simp only [stop, Bool.false_eq_true, if_false, Action.perform_bind, perform_onConnection,
      Action.perform_modify]
    cases (act.perform tx.connection).1 with
    | ok => rfl
    | error => rfl

theorem start_flagOnly (c : Connector σ ι) (tx : Transaction σ ι) :
    FlagOnly tx ((start c).perform tx) :=
  flag_only (·.active) _ _ _ _ tx

theorem commit_flagOnly (c : Connector σ ι) (tx : Transaction σ ι) :
    FlagOnly tx ((commit c).perform tx) :=
  flag_only (!·.active) _ _ _ _ tx

theorem rollback_flagOnly (c : Connector σ ι) (tx : Transaction σ ι) :
    FlagOnly tx ((rollback c).perform tx) :=
  flag_only (!·.active) _ _ _ _ tx

/-- A step on a statement fails before the statement is brought to its next state. -/
private theorem use_spares {wanted : StatementState} {call : OpenStatement ι → Call}
    {outcome : α → CallOutcome} {act : OpenStatement ι → Action (σ × ι) α}
    (last : α → Action (Transaction σ ι) β)
    (safe : ∀ a tx, ∃ b next, (last a).perform tx = (.ok b, next)) (tx : Transaction σ ι) :
    Action.Spares Still (do
      let s ← lookup h
      if s.state ≠ wanted then throw (s.state.refusal wanted)
      let a ← onStatement h s (call s) outcome (act s)
      last a : Action (Transaction σ ι) β) tx := by
  refine .bind (fun _ _ _ => Still.trans) (lookup_operates h (.refl tx)) fun s tx => ?_
  refine .guard _ (.refl tx) fun _ => .last (fun e next failed => ?_) safe
  have used := onStatement_used h s (call s) outcome (act s) tx
  rw [failed] at used
  exact .of_used used

theorem bindParameters_outcome (h : Handle) (params : List Value) (tx : Transaction σ ι) :
    match (bindParameters h params).perform tx with
    | (.ok _, next) => ∃ f, next.ledger = tx.ledger.update h f
    | (.error _, next) => next.ledger = tx.ledger := by
  simp only [bindParameters, Action.perform_bind, perform_lookup]
  cases tx.ledger.find h with
  | none => rfl
  | some s =>
    by_cases late : StatementState.prepared.rank < s.state.rank
    · simp [late]
    · simp only [late, if_false, Action.perform_modify]
      exact ⟨fun s => { s with params := params }, rfl⟩

theorem close_outcome (c : Connector σ ι) (h : Handle) (tx : Transaction σ ι) :
    match (close c h).perform tx with
    | (.ok _, next) => next.ledger = tx.ledger.remove h
    | (.error _, next) => next.ledger = tx.ledger := by
  simp only [close, Action.perform_bind, perform_lookup]
  cases tx.ledger.find h <;> rfl

theorem prepare_spares (c : Connector σ ι) (h : Handle) (tx : Transaction σ ι) :
    (prepare c h).Spares Still tx :=
  use_spares (fun _ => modify (change h fun s => { s with state := .prepared }))
    (fun _ _ => ⟨_, _, rfl⟩) tx

theorem execute_spares (c : Connector σ ι) (h : Handle) (tx : Transaction σ ι) :
    (execute c h).Spares Still tx :=
  use_spares (fun a => do
      modify (change h fun s => { s with state := .executed })
      return a)
    (fun _ _ => ⟨_, _, rfl⟩) tx

/-- Fetching touches the statement of its handle only. -/
theorem fetch_worksOn (c : Connector σ ι) (tx : Transaction σ ι) (fetches : q.fetched? = some h) :
    WorksOn h tx ((answer c q).perform tx).2 := by
  cases q with
  | fetchNext k d target =>
    obtain rfl := Option.some.inj fetches
    exact (fetchNext_operates c k d target tx).related
  | _ => cases fetches

/-- Fetching over and over takes the statement on its way. -/
theorem fetches_follow (c : Connector σ ι) (retries : List Request)
    (fetches : ∀ r ∈ retries, r.fetched? = some h) (tx : Transaction σ ι) :
    tx.ledger.Follows h (received h (history c tx retries)) (tx.after c retries).ledger := by
  induction retries generalizing tx with
  | nil => exact .refl h tx.ledger
  | cons q rest ih =>
    have here := fetches q List.mem_cons_self
    have first := fetch_worksOn c tx here
    have later := ih (fun r member => fetches r (List.mem_cons_of_mem q member))
      ((answer c q).perform tx).2
    have happens : happened tx q ((answer c q).perform tx).1 ((answer c q).perform tx).2 =
        entered tx ((answer c q).perform tx).2 := by
      cases q with
      | fetchNext => rfl
      | _ => cases here
    have whole : history c tx (q :: rest) = entered tx ((answer c q).perform tx).2 ++
        history c ((answer c q).perform tx).2 rest :=
      congrArg (· ++ history c ((answer c q).perform tx).2 rest) happens
    rw [whole, received_append, after, List.foldl_cons]
    exact first.follows.trans later

/-- A fetch that fails leaves its own statement where the last step that succeeded has taken it. -/
theorem fetch_unharmed (fetches : q.fetched? = some h) (works : WorksOn h tx next) :
    Unharmed c q tx next := by
  obtain ⟨f, moved, walk⟩ := works.follows
  have own : ∀ k, q.fetched? = some k → k = h := fun k other =>
    Option.some.inj (other.symm.trans fetches)
  refine ⟨active_of_update moved, openHandles_of_update moved, ?_, ?_, ?_⟩
  · intro k other
    have apart : k ≠ h := by
      rintro rfl
      exact other fetches
    rw [Transaction.standing, lookup_of_update moved apart, Transaction.standing]
  · intro k this
    obtain rfl := own k this
    rw [standing_eq, standing_eq, moved, Ledger.find_update, Option.map_map, Option.map_map]
    cases found : tx.ledger.find k with
    | none => rfl
    | some s =>
      obtain ⟨params, walk⟩ := walk s found
      simp [params, walk.advanced]
  · intro k state params this stands retries again
    obtain rfl := own k this
    obtain ⟨s, found, same⟩ := Option.map_eq_some_iff.mp stands
    obtain ⟨rfl, rfl⟩ := Prod.mk.inj same
    obtain ⟨g, -, later⟩ := fetches_follow c retries again next
    obtain ⟨-, further⟩ := later s found
    exact ⟨fun prepared _ => further.prepare_not_mem prepared,
      fun executed _ => further.execute_not_mem executed⟩

/-- A request that fails does no harm. -/
theorem answer_unharmed (failed : (answer c q).perform tx = (.error e, next)) :
    Unharmed c q tx next := by
  cases q with
  | start =>
    have same := (start_flagOnly c tx).failed (Action.failed_of_answer failed)
    exact (Still.of_ledger same).unharmed rfl
  | commit =>
    have same := (commit_flagOnly c tx).failed (Action.failed_of_answer failed)
    exact (Still.of_ledger same).unharmed rfl
  | rollback =>
    have same := (rollback_flagOnly c tx).failed (Action.failed_of_answer failed)
    exact (Still.of_ledger same).unharmed rfl
  | create kind sql =>
    have outcome := create_outcome c kind sql tx
    rw [Action.failed_of_answer failed] at outcome
    exact (Still.of_ledger outcome.2).unharmed rfl
  | bindParameters h params =>
    have same := bindParameters_outcome h params tx
    rw [Action.failed_of_answer failed] at same
    exact (Still.of_ledger same).unharmed rfl
  | prepare h => exact (prepare_spares c h tx e next (Action.failed_of_answer failed)).unharmed rfl
  | execute h => exact (execute_spares c h tx e next (Action.failed_of_answer failed)).unharmed rfl
  | fetchNext h d target =>
    have works := fetch_worksOn c tx (q := .fetchNext h d target) rfl
    rw [failed] at works
    exact fetch_unharmed rfl works
  | readGeneratedKey h d target =>
    have asks := (readGeneratedKey_operates c h d target tx).related
    have same : next = ((readGeneratedKey c h d).perform (tx, target)).2.1 :=
      (congrArg Prod.snd failed).symm
    rw [← same] at asks
    exact (Still.of_ledger asks.unchanged).unharmed rfl
  | close h =>
    have same := close_outcome c h tx
    rw [Action.failed_of_answer failed] at same
    exact (Still.of_ledger same).unharmed rfl

theorem Apart.of_statements (same : next.statements = tx.statements) : Apart q tx next :=
  ⟨fun _ _ k _ => by rw [same], fun _ k s found => by rw [same, found]⟩

theorem Apart.of_ledger (same : next.ledger = tx.ledger) : Apart q tx next :=
  .of_statements (congrArg Ledger.statements same)

theorem Apart.of_update (moved : next.ledger = tx.ledger.update h f) (own : q.handle? = some h) :
    Apart q tx next := by
  refine ⟨fun k other j apart => ?_, fun none => by cases none.symm.trans own⟩
  obtain rfl := Option.some.inj (other.symm.trans own)
  exact lookup_of_update moved apart

theorem Apart.of_worksOn (works : WorksOn h tx next) (own : q.handle? = some h) :
    Apart q tx next := by
  obtain ⟨_, moved, -⟩ := works.follows
  exact .of_update moved own

/-- No request touches a statement that it is not about. -/
theorem answer_apart (c : Connector σ ι) (q : Request) (tx : Transaction σ ι) :
    Apart q tx ((answer c q).perform tx).2 := by
  cases q with
  | start =>
    rw [answer, Action.perform_answer]
    exact .of_statements (start_flagOnly c tx).statements
  | commit =>
    rw [answer, Action.perform_answer]
    exact .of_statements (commit_flagOnly c tx).statements
  | rollback =>
    rw [answer, Action.perform_answer]
    exact .of_statements (rollback_flagOnly c tx).statements
  | create kind sql =>
    rw [answer, Action.perform_answer]
    have outcome := create_outcome c kind sql tx
    revert outcome
    cases (create c kind sql).perform tx with
    | mk result next =>
      cases result with
      | error => exact fun outcome => .of_ledger outcome.2
      | ok =>
        rintro ⟨-, -, statement, entered⟩
        refine ⟨fun _ other => (by cases other), fun _ k s found => ?_⟩
        have here : next.ledger.find k = (tx.ledger.find k).or _ := entered ▸ Ledger.find_enter ..
        exact here.trans (by rw [show tx.ledger.find k = some s from found, Option.some_or])
  | bindParameters h params =>
    rw [answer, Action.perform_answer]
    have outcome := bindParameters_outcome h params tx
    revert outcome
    cases (bindParameters h params).perform tx with
    | mk result next =>
      cases result with
      | error => exact .of_ledger
      | ok =>
        rintro ⟨f, moved⟩
        exact .of_update moved rfl
  | prepare h =>
    rw [answer, Action.perform_answer]
    exact .of_worksOn (prepare_operates c h tx).related rfl
  | execute h =>
    rw [answer, Action.perform_answer]
    exact .of_worksOn (execute_operates c h tx).related rfl
  | fetchNext h d target => exact .of_worksOn (fetch_worksOn c tx rfl) rfl
  | readGeneratedKey h d target =>
    exact .of_ledger (readGeneratedKey_operates c h d target tx).related.unchanged
  | close h =>
    rw [answer, Action.perform_answer]
    have outcome := close_outcome c h tx
    revert outcome
    cases (close c h).perform tx with
    | mk result next =>
      cases result with
      | error => exact .of_ledger
      | ok =>
        intro removed
        refine ⟨fun k other j apart => ?_, fun none => by cases none⟩
        obtain rfl := Option.some.inj other
        have here : next.ledger.find j = if j = h then none else tx.ledger.find j :=
          removed ▸ Ledger.find_remove ..
        exact here.trans (if_neg apart)

/-- The record is written last, if its key is written at all. -/
theorem readGeneratedKey_spares (c : Connector σ ι) (h : Handle) (d : Descriptor)
    (p : Transaction σ ι × Record) :
    (readGeneratedKey c h d).Spares (fun p q => q.2 = p.2) p := by
  have trans : ∀ p q r : Transaction σ ι × Record, q.2 = p.2 → r.2 = q.2 → r.2 = p.2 :=
    fun _ _ _ first second => second.trans first
  rw [readGeneratedKey]
  cases d.primaryKey? with
  | none => intro e q failed; cases failed
  | some key =>
    refine .bind trans (.onFirst_keeps _ p) fun s p => ?_
    refine .guard _ rfl fun _ => ?_
    refine .bind trans (.onFirst_keeps _ p) fun id p => ?_
    refine .bind trans (.ofExcept _ p rfl) fun value p => ?_
    exact .last (.update _ p) fun _ _ => ⟨_, _, rfl⟩

/-- A request that fails leaves the transaction as it was, up to the steps of a fetch that have
succeeded, and the reading of a generated key leaves the record as it was; whatever becomes of
a request, the statements that it is not about stay as they are. -/
theorem failures_contained (c : Connector σ ι) (tx : Transaction σ ι) (q : Request) :
    (∀ e next, (answer c q).perform tx = (.error e, next) → Unharmed c q tx next) ∧
    Apart q tx ((answer c q).perform tx).2 ∧
    ∀ h d target e p, (readGeneratedKey c h d).perform (tx, target) = (.error e, p) →
      p.2 = target :=
  ⟨fun _ _ failed => answer_unharmed failed, answer_apart c q tx,
    fun h d target e p failed => readGeneratedKey_spares c h d (tx, target) e p failed⟩

namespace Broken

/-- A connection that prepares every statement and executes none. -/
def connector : Connector Unit Unit where
  dialect := .postgres
  start := pure ()
  commit := pure ()
  rollback := pure ()
  create _ _ := pure ()
  prepare := pure ()
  execute _ := throw (.malformed "broken")
  fetch := pure none
  lastInsertId _ := pure 0
  release _ _ := ()

def descriptor : Descriptor := ⟨"Note", "note", "Note", none, [], 0, .mk "Note" []⟩

/-- The first fetch of the rows of the first statement. -/
def fetch : Request := .fetchNext ⟨1, .select⟩ descriptor descriptor.initial

def opened : Transaction Unit Unit :=
  (new ()).after connector [.create .select "q", .bindParameters ⟨1, .select⟩ [.int32 5]]

end Broken

open Broken in
theorem failures_contained_unexecuted :
    ∃ e next, (answer connector fetch).perform opened = (.error e, next) ∧
      opened.standing ⟨1, .select⟩ = some (.created, [.int32 5]) ∧
      next.standing ⟨1, .select⟩ = some (.prepared, [.int32 5]) ∧
      ∀ o, (.prepare, o) ∉ received ⟨1, .select⟩ (history connector next [fetch, fetch]) := by
  obtain ⟨failed, -, -⟩ := failures_contained connector opened fetch
  have unharmed := failed _ ((answer connector fetch).perform opened).2 rfl
  have stands := unharmed.progress ⟨1, .select⟩ rfl
  have retry := unharmed.retry ⟨1, .select⟩ _ _ rfl stands [fetch, fetch]
    (by simp [fetch, Request.fetched?])
  exact ⟨_, _, rfl, rfl, stands, retry.1 (by decide)⟩

end Transaction

end ObjectMapping
