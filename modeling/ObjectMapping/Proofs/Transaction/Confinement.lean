import ObjectMapping.Proofs.Transaction.Failure

/-! A request about a statement leaves the unit of work alone and makes the connection work
on this statement only. -/
namespace ObjectMapping.Transaction

variable {σ ι : Type} {tx next last : Transaction σ ι} {c : Connector σ ι} {h : Handle}

/-- The flag stays, and all calls that the connection receives are about the statement of one
handle. -/
structure Confined (h : Handle) (tx next : Transaction σ ι) : Prop where
  active : next.active = tx.active
  calls : ∃ calls, next.journal = tx.journal ++ calls ∧
    ∀ entry ∈ calls, (entry.call.use? h).isSome

namespace Confined

theorem same (active : next.active = tx.active) (journal : next.journal = tx.journal) :
    Confined h tx next :=
  ⟨active, [], by simpa using journal, by simp⟩

theorem refl (tx : Transaction σ ι) : Confined h tx tx := same rfl rfl

theorem trans (first : Confined h tx next) (second : Confined h next last) :
    Confined h tx last := by
  obtain ⟨before, begun, own⟩ := first.calls
  obtain ⟨later, ended, also⟩ := second.calls
  refine ⟨second.active.trans first.active, before ++ later, ?_, ?_⟩
  · rw [ended, begun, List.append_assoc]
  · intro entry member
    exact (List.mem_append.mp member).elim (own entry) (also entry)

theorem call {entry : JournalEntry} (active : next.active = tx.active)
    (journal : next.journal = tx.journal ++ [entry]) (own : (entry.call.use? h).isSome) :
    Confined h tx next := by
  refine ⟨active, [entry], journal, fun other member => ?_⟩
  obtain rfl := List.mem_singleton.mp member
  exact own

theorem entered (confined : Confined h tx next) :
    ∀ entry, .called entry ∈ entered tx next → (entry.call.use? h).isSome := by
  obtain ⟨calls, journal, own⟩ := confined.calls
  intro entry member
  have added : Transaction.entered tx next = calls.map .called := by
    simp [Transaction.entered, journal]
  obtain ⟨_, there, same⟩ := List.mem_map.mp (added ▸ member)
  exact Event.called.inj same ▸ own _ there

end Confined

private theorem onStatement_confined (s : OpenStatement ι) {call : Call}
    (outcome : α → CallOutcome) (act : Action (σ × ι) α) (own : (call.use? h).isSome)
    (tx : Transaction σ ι) :
    (onStatement h s call outcome act).Ensures (Confined h) tx fun _ _ => True := by
  have used := onStatement_used h s call outcome act tx
  unfold Action.Ensures
  revert used
  cases (onStatement h s call outcome act).perform tx with
  | mk result next =>
    have single : ∀ o, Used tx h s call o next → Confined h tx next := fun o used =>
      used.ledger.elim fun _ moved => .call (congrArg Ledger.active moved) used.journal own
    cases result with
    | ok a => exact fun used => ⟨single _ used, trivial⟩
    | error e => exact fun used => single _ used

private theorem change_confined (f : OpenStatement ι → OpenStatement ι) (tx : Transaction σ ι) :
    (modify (change h f) : Action (Transaction σ ι) Unit).Ensures (Confined h) tx
      fun _ _ => True :=
  ⟨.same rfl rfl, trivial⟩

/-- A step that brings a statement from the wanted state to the next one. -/
private theorem use_confined {wanted : StatementState} {call : OpenStatement ι → Call}
    {outcome : α → CallOutcome} {act : OpenStatement ι → Action (σ × ι) α}
    (own : ∀ s, ((call s).use? h).isSome) (last : α → Action (Transaction σ ι) β)
    (ends : ∀ a tx, (last a).Ensures (Confined h) tx fun _ _ => True) (tx : Transaction σ ι) :
    Action.Ensures (Confined h) (do
      let s ← lookup h
      if s.state ≠ wanted then throw (s.state.refusal wanted)
      let a ← onStatement h s (call s) outcome (act s)
      last a : Action (Transaction σ ι) β) tx fun _ _ => True := by
  refine (lookup_operates h (.refl tx)).bind (fun _ _ _ => Confined.trans) fun s tx _ => ?_
  refine .guard _ (.refl tx) fun _ => ?_
  exact (onStatement_confined s outcome (act s) (own s) tx).bind (fun _ _ _ => Confined.trans)
    fun a tx _ => ends a tx

theorem bindParameters_confined (h : Handle) (params : List Value) (tx : Transaction σ ι) :
    (bindParameters h params).Ensures (Confined h) tx fun _ _ => True := by
  refine (lookup_operates h (.refl tx)).bind (fun _ _ _ => Confined.trans) fun s tx _ => ?_
  exact .guard _ (.refl tx) fun _ => change_confined _ tx

theorem prepare_confined (c : Connector σ ι) (h : Handle) (tx : Transaction σ ι) :
    (prepare c h).Ensures (Confined h) tx fun _ _ => True :=
  use_confined (fun _ => by simp [Call.use?])
    (fun _ => modify (change h fun s => { s with state := .prepared }))
    (fun _ tx => change_confined _ tx) tx

theorem execute_confined (c : Connector σ ι) (h : Handle) (tx : Transaction σ ι) :
    (execute c h).Ensures (Confined h) tx fun _ _ => True :=
  use_confined (fun _ => by simp [Call.use?])
    (fun affected => do
      modify (change h fun s => { s with state := .executed })
      return affected)
    (fun affected tx => (change_confined _ tx).bind (fun _ _ _ => Confined.trans)
      fun _ tx _ => .pure affected tx (.refl tx) trivial) tx

private theorem ensureExecuted_confined (c : Connector σ ι) (h : Handle) (state : StatementState)
    (tx : Transaction σ ι) :
    (ensureExecuted c h state).Ensures (Confined h) tx fun _ _ => True := by
  have run : ∀ tx : Transaction σ ι, Action.Ensures (Confined h)
      (do let _ ← execute c h : Action (Transaction σ ι) Unit) tx fun _ _ => True := fun tx =>
    (execute_confined c h tx).bind (fun _ _ _ => Confined.trans) fun _ tx _ =>
      .pure () tx (.refl tx) trivial
  cases state with
  | created =>
    exact (prepare_confined c h tx).bind (fun _ _ _ => Confined.trans) fun _ tx _ => run tx
  | prepared => exact run tx
  | executed | done => exact .pure () tx (.refl tx) trivial

private theorem nextRow_confined (c : Connector σ ι) (h : Handle) (tx : Transaction σ ι) :
    (nextRow c h).Ensures (Confined h) tx fun _ _ => True := by
  refine (lookup_operates h (.refl tx)).bind (fun _ _ _ => Confined.trans) fun s tx _ => ?_
  refine (onStatement_confined s _ c.fetch (by simp [Call.use?]) tx).bind
    (fun _ _ _ => Confined.trans) fun row tx _ => ?_
  cases row with
  | some row => exact .pure (some row) tx (.refl tx) trivial
  | none =>
    exact (change_confined _ tx).bind (fun _ _ _ => Confined.trans) fun _ tx _ =>
      .pure none tx (.refl tx) trivial

/-- A step that also works on a record of the caller. -/
private theorem beside_trans (p q r : Transaction σ ι × Record) (first : Confined h p.1 q.1)
    (second : Confined h q.1 r.1) : Confined h p.1 r.1 :=
  first.trans second

private theorem bindRow_confined (h : Handle) (row : Row) (d : Descriptor)
    (p : Transaction σ ι × Record) :
    (bindRow row d).Ensures (fun p q => Confined h p.1 q.1) p fun _ _ => True := by
  simp only [Action.Ensures, bindRow, Action.perform_ofFunction]
  cases (row.bind d).perform ⟨p.2, []⟩ with
  | mk result =>
    cases result with
    | ok => exact ⟨.same rfl rfl, trivial⟩
    | error => exact .same rfl rfl

theorem fetchNext_confined (c : Connector σ ι) (h : Handle) (d : Descriptor)
    (p : Transaction σ ι × Record) :
    (fetchNext c h d).Ensures (fun p q => Confined h p.1 q.1) p fun _ _ => True := by
  rw [fetchNext]
  refine (Action.Ensures.get p (.refl p.1)).bind beside_trans ?_
  rintro _ ⟨tx, target⟩ ⟨rfl, -⟩
  refine .guard _ (.refl tx) fun _ => ?_
  refine ((lookup_operates h (.refl tx)).onFirst target).bind beside_trans ?_
  rintro s ⟨tx, target⟩ -
  by_cases finished : s.state = .done
  · simpa [finished, Action.Ensures] using Confined.refl tx
  simp only [finished, if_false]
  refine ((ensureExecuted_confined c h s.state tx).onFirst target).bind beside_trans ?_
  rintro _ ⟨tx, target⟩ -
  refine ((nextRow_confined c h tx).onFirst target).bind beside_trans ?_
  rintro row q -
  cases row with
  | none => exact .pure false q (.refl q.1) trivial
  | some row =>
    exact (bindRow_confined h row d q).bind beside_trans fun _ q _ =>
      .pure true q (.refl q.1) trivial

theorem readGeneratedKey_confined (c : Connector σ ι) (h : Handle) (d : Descriptor)
    (p : Transaction σ ι × Record) :
    (readGeneratedKey c h d).Ensures (fun p q => Confined h p.1 q.1) p fun _ _ => True := by
  obtain ⟨tx, target⟩ := p
  rw [readGeneratedKey]
  cases d.primaryKey? with
  | none => exact .pure false _ (.refl tx) trivial
  | some key =>
    refine ((lookup_operates h (.refl tx)).onFirst target).bind beside_trans ?_
    rintro s ⟨tx, target⟩ -
    refine .guard _ (.refl tx) fun _ => ?_
    have asked : (onConnection (.lastInsertId h s.sql) (c.lastInsertId s.statement)).Ensures
        (Confined h) tx fun _ _ => True := by
      have own : (Call.use? h (.lastInsertId h s.sql)).isSome := by simp [Call.use?]
      simp only [Action.Ensures, perform_onConnection]
      cases (c.lastInsertId s.statement).perform tx.connection with
      | mk result connection =>
        cases result with
        | ok id => exact ⟨.call rfl rfl own, trivial⟩
        | error => exact .call rfl rfl own
    refine (asked.onFirst target).bind beside_trans ?_
    rintro id q -
    refine (Action.Ensures.ofExcept _ q (Confined.refl q.1)).bind beside_trans ?_
    rintro value q -
    refine (Action.Ensures.onSecond _ q.1 q.2 (Confined.refl q.1)).bind beside_trans ?_
    rintro _ q -
    exact .pure true q (.refl q.1) trivial

theorem close_confined (c : Connector σ ι) (h : Handle) (tx : Transaction σ ι) :
    (close c h).Ensures (Confined h) tx fun _ _ => True := by
  refine (lookup_operates h (.refl tx)).bind (fun _ _ _ => Confined.trans) fun s tx _ => ?_
  exact ⟨.call rfl rfl (by simp [Call.use?]), trivial⟩

/-- A request about a statement is answered by work on this statement. -/
theorem answer_confined (c : Connector σ ι) (own : q.handle? = some h) (tx : Transaction σ ι) :
    Confined h tx ((answer c q).perform tx).2 := by
  cases q with
  | start | commit | rollback | create => cases own
  | bindParameters k params =>
    obtain rfl := Option.some.inj own
    rw [answer, Action.perform_answer]
    exact (bindParameters_confined k params tx).related
  | prepare k =>
    obtain rfl := Option.some.inj own
    rw [answer, Action.perform_answer]
    exact (prepare_confined c k tx).related
  | execute k =>
    obtain rfl := Option.some.inj own
    rw [answer, Action.perform_answer]
    exact (execute_confined c k tx).related
  | fetchNext k d target =>
    obtain rfl := Option.some.inj own
    exact (fetchNext_confined c k d (tx, target)).related
  | readGeneratedKey k d target =>
    obtain rfl := Option.some.inj own
    exact (readGeneratedKey_confined c k d (tx, target)).related
  | close k =>
    obtain rfl := Option.some.inj own
    rw [answer, Action.perform_answer]
    exact (close_confined c k tx).related

end ObjectMapping.Transaction
