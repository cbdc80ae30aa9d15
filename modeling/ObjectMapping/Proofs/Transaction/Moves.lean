import ObjectMapping.Proofs.Action
import ObjectMapping.Proofs.Transaction.Ledger

/-! Every operation of a transaction moves its ledger as the list of moves allows,
whatever the connection answers, and enters exactly the calls of that move in the
journal. -/
namespace ObjectMapping.Transaction

variable {σ ι : Type} {tx next last : Transaction σ ι} {c : Connector σ ι}

/-- The part of a transaction that its rules are about. -/
def ledger (tx : Transaction σ ι) : Ledger ι := ⟨tx.active, tx.nextId, tx.statements⟩

/-- A transaction comes to another state while something happens, all of which its
ledger allows and all calls of which are in its journal. -/
structure Moves (tx : Transaction σ ι) (events : List Event) (next : Transaction σ ι) : Prop where
  journal : next.journal = tx.journal ++ events.filterMap Event.entry?
  change : Ledger.Change tx.ledger events next.ledger

theorem Moves.trans (first : Moves tx before next) (second : Moves next later last) :
    Moves tx (before ++ later) last where
  journal := by simp [second.journal, first.journal]
  change := first.change.andThen second.change

/-- A transaction comes to another state by calls of the connection that create no
statement. -/
def Works (tx next : Transaction σ ι) : Prop :=
  ∃ calls : List JournalEntry, created (calls.map .called) = [] ∧
    Moves tx (calls.map .called) next

/-- Notices and the state of the connection may change without any call. -/
theorem Works.same (journal : next.journal = tx.journal) (ledger : next.ledger = tx.ledger) :
    Works tx next :=
  ⟨[], rfl, by simpa using journal, ledger ▸ .stay⟩

theorem Works.refl (tx : Transaction σ ι) : Works tx tx := .same rfl rfl

theorem Works.trans (first : Works tx next) (second : Works next last) : Works tx last := by
  obtain ⟨before, none, first⟩ := first
  obtain ⟨later, noneLater, second⟩ := second
  refine ⟨before ++ later, ?_, by simpa using first.trans second⟩
  rw [List.map_append, created_append, none, noneLater, List.nil_append]

/-- A single call. -/
theorem Works.call {entry : JournalEntry} (uncreated : created [.called entry] = [])
    (journal : next.journal = tx.journal ++ [entry])
    (change : Ledger.Change tx.ledger [.called entry] next.ledger) : Works tx next :=
  ⟨[entry], uncreated, by simpa [Event.entry?] using journal, change⟩

/-- The calls between two states of a transaction are those that the journal has more. -/
theorem Moves.entered (moves : Moves tx events next) :
    entered tx next = (events.filterMap Event.entry?).map .called := by
  simp [Transaction.entered, moves.journal]

theorem Works.moves (works : Works tx next) :
    Moves tx (entered tx next) next ∧ created (entered tx next) = [] := by
  obtain ⟨calls, none, moves⟩ := works
  have same : Transaction.entered tx next = calls.map .called := by
    simp [moves.entered, Function.comp_def, Event.entry?]
  exact same ▸ ⟨moves, none⟩

/-- The calls of two spans of time are those of the whole. -/
theorem entered_trans (first : Works tx next) (second : Works next last) :
    entered tx last = entered tx next ++ entered next last := by
  obtain ⟨before, -, first⟩ := first
  obtain ⟨later, -, second⟩ := second
  rw [(first.trans second).entered, first.entered, second.entered]
  simp

/-- A transaction comes to another state by calls on the statement of one handle, and nothing
but this statement is changed. -/
structure WorksOn (h : Handle) (tx next : Transaction σ ι) : Prop where
  works : Works tx next
  follows : tx.ledger.Follows h (received h (entered tx next)) next.ledger

namespace WorksOn

theorem same (h : Handle) (journal : next.journal = tx.journal)
    (ledger : next.ledger = tx.ledger) : WorksOn h tx next := by
  have none : entered tx next = [] := by simp [entered, journal]
  exact ⟨.same journal ledger, by rw [none, ledger]; exact .refl h tx.ledger⟩

theorem refl (h : Handle) (tx : Transaction σ ι) : WorksOn h tx tx := same h rfl rfl

theorem trans (first : WorksOn h tx next) (second : WorksOn h next last) : WorksOn h tx last where
  works := first.works.trans second.works
  follows := by
    rw [entered_trans first.works second.works, received_append]
    exact first.follows.trans second.follows

end WorksOn

theorem perform_lookup (h : Handle) (tx : Transaction σ ι) :
    (lookup h).perform tx =
      match tx.ledger.find h with
      | some s => (.ok s, tx)
      | none => (.error (unknownStatement h), tx) := by
  simp only [lookup, Action.perform_bind, Action.perform_get, Ledger.find, ledger]
  cases tx.statements.lookup h <;> rfl

theorem perform_lookup_some (there : tx.statements.lookup h = some s) :
    (lookup h).perform tx = (.ok s, tx) := by
  have found : tx.ledger.find h = some s := there
  rw [perform_lookup, found]

theorem perform_onConnection (call : Call) (act : Action σ α) (tx : Transaction σ ι) :
    (onConnection call act).perform tx =
      ((act.perform tx.connection).1, { tx with connection := (act.perform tx.connection).2 }.record
        call (outcomeOf (act.perform tx.connection).1)) :=
  rfl

/-- A call that sets the flag if it succeeds. -/
private theorem works_flag (call : Call) (act : Action σ Unit) (flag : Bool)
    (succeeded : Ledger.Change tx.ledger [.called ⟨call, .succeeded⟩]
      { tx.ledger with active := flag })
    (failed : Ledger.Change tx.ledger [.called ⟨call, .failed⟩] tx.ledger)
    (uncreated : ∀ o, created [.called ⟨call, o⟩] = []) :
    Works tx ((do
      onConnection call act
      modify fun tx => { tx with active := flag } : Action (Transaction σ ι) Unit).perform tx).2 := by
  simp only [Action.perform_bind, perform_onConnection, Action.perform_modify]
  cases (act.perform tx.connection).1 with
  | ok => exact .call (uncreated _) rfl succeeded
  | error => exact .call (uncreated _) rfl failed

theorem start_works (c : Connector σ ι) (tx : Transaction σ ι) :
    Works tx ((start c).perform tx).2 := by
  rw [start, Action.perform_bind, Action.perform_get]
  cases busy : tx.active with
  | true => simpa [busy, Action.perform_bind] using Works.refl tx
  | false =>
    simpa [busy] using works_flag .start c.start true (.start busy) (.startFailed busy)
      (fun _ => rfl)

theorem commit_works (c : Connector σ ι) (tx : Transaction σ ι) :
    Works tx ((commit c).perform tx).2 := by
  rw [commit, Action.perform_bind, Action.perform_get]
  cases busy : tx.active with
  | false => simpa [busy, Action.perform_bind] using Works.refl tx
  | true =>
    simpa [busy] using works_flag .commit c.commit false (.commit busy) (.commitFailed busy)
      (fun _ => rfl)

theorem rollback_works (c : Connector σ ι) (tx : Transaction σ ι) :
    Works tx ((rollback c).perform tx).2 := by
  rw [rollback, Action.perform_bind, Action.perform_get]
  cases busy : tx.active with
  | false => simpa [busy, Action.perform_bind] using Works.refl tx
  | true =>
    simpa [busy] using
      works_flag .rollback c.rollback false (.rollback busy) (.rollbackFailed busy)
        (fun _ => rfl)

/-- A statement is created by one call, and entered under the next number if that succeeds. -/
theorem create_outcome (c : Connector σ ι) (kind : StatementKind) (sql : String)
    (tx : Transaction σ ι) :
    match (create c kind sql).perform tx with
    | (.ok h, next) => h = ⟨tx.nextId, kind⟩ ∧
        next.journal = tx.journal ++ [⟨.create h sql, .succeeded⟩] ∧
        ∃ statement, next.ledger = tx.ledger.enter kind sql statement
    | (.error _, next) =>
      next.journal = tx.journal ++ [⟨.create ⟨tx.nextId, kind⟩ sql, .failed⟩] ∧
        next.ledger = tx.ledger := by
  simp only [create, Action.perform_bind, Action.perform_get, Action.perform_mapError,
    perform_onConnection, Action.perform_modify, Action.perform_pure]
  cases (c.create kind sql).perform tx.connection with
  | mk result connection =>
    cases result with
    | ok statement => exact ⟨rfl, rfl, statement, rfl⟩
    | error => exact ⟨rfl, rfl⟩

theorem create_moves (c : Connector σ ι) (kind : StatementKind) (sql : String)
    (tx : Transaction σ ι) :
    match (create c kind sql).perform tx with
    | (.ok h, next) => Moves tx [.called ⟨.create h sql, .succeeded⟩] next
    | (.error _, next) => Works tx next := by
  have outcome := create_outcome c kind sql tx
  revert outcome
  cases (create c kind sql).perform tx with
  | mk result next =>
    cases result with
    | ok h =>
      rintro ⟨rfl, journal, statement, ledger⟩
      exact ⟨journal, ledger ▸ .create statement⟩
    | error =>
      rintro ⟨journal, ledger⟩
      exact .call rfl journal (by rw [ledger]; exact .createFailed)

theorem bindParameters_moves (h : Handle) (params : List Value) (tx : Transaction σ ι) :
    match (bindParameters h params).perform tx with
    | (.ok _, next) => Moves tx [.bound h params] next
    | (.error _, next) => Works tx next := by
  simp only [bindParameters, Action.perform_bind, perform_lookup]
  cases found : tx.ledger.find h with
  | none => exact .refl tx
  | some s =>
    by_cases late : StatementState.prepared.rank < s.state.rank
    · simpa [late, Action.perform_bind] using Works.refl tx
    · simp only [late, if_false, Action.perform_modify]
      exact ⟨by simp [change, Event.entry?], .bind found (Nat.not_lt.mp late)⟩

/-- The handle refers to a statement in the state. -/
def StandsAt (tx : Transaction σ ι) (h : Handle) (state : StatementState) : Prop :=
  ∃ s, tx.ledger.find h = some s ∧ s.state = state

/-- The connection has acted on an open statement, which is still in its state. -/
structure Used (tx : Transaction σ ι) (h : Handle) (s : OpenStatement ι) (call : Call)
    (o : CallOutcome) (next : Transaction σ ι) : Prop where
  journal : next.journal = tx.journal ++ [⟨call, o⟩]
  ledger : ∃ statement, next.ledger = tx.ledger.update h fun s => { s with statement := statement }

theorem onStatement_used (h : Handle) (s : OpenStatement ι) (call : Call)
    (outcome : α → CallOutcome) (act : Action (σ × ι) α) (tx : Transaction σ ι) :
    match (onStatement h s call outcome act).perform tx with
    | (.ok a, next) => Used tx h s call (outcome a) next
    | (.error _, next) => Used tx h s call .failed next := by
  simp only [onStatement, Action.perform_ofFunction]
  cases act.perform (tx.connection, s.statement) with
  | mk result rest =>
    cases result with
    | ok a => exact ⟨rfl, rest.2, rfl⟩
    | error e => exact ⟨rfl, rest.2, rfl⟩

private theorem uncreated_call (u : Use) (h : Handle) (s : OpenStatement ι) (o : CallOutcome) :
    created [.called ⟨u.call h s, o⟩] = [] := by
  cases u <;> rfl

private theorem received_call (u : Use) (h : Handle) (s : OpenStatement ι) (o : CallOutcome) :
    received h [.called ⟨u.call h s, o⟩] = [(u, o)] := by
  cases u <;> simp [received, Event.received?, Use.call, Call.use?]

/-- One call on a statement, and nothing else is changed. -/
private theorem WorksOn.use {u : Use} (journal : next.journal = tx.journal ++ [⟨u.call h s, o⟩])
    (ledger : next.ledger = tx.ledger.update h f) (found : tx.ledger.find h = some s)
    (passage : Passage s.state u o t) (effect : f s = { s with state := t, statement := statement }) :
    WorksOn h tx next where
  works := .call (uncreated_call ..) journal (ledger ▸ .use found passage effect)
  follows := by
    have call : entered tx next = [.called ⟨u.call h s, o⟩] := by simp [entered, journal]
    rw [call, received_call]
    refine ⟨f, ledger, fun s' same => ?_⟩
    obtain rfl : s = s' := Option.some.inj (found.symm.trans same)
    rw [effect]
    exact ⟨rfl, .one passage⟩

/-- A use that leaves the statement in its state. -/
private theorem Used.stays {u : Use} (used : Used tx h s (u.call h s) o next)
    (found : tx.ledger.find h = some s) (passage : Passage s.state u o s.state) :
    WorksOn h tx next ∧ next.StandsAt h s.state := by
  obtain ⟨journal, statement, ledger⟩ := used
  refine ⟨.use journal ledger found passage rfl, ?_⟩
  exact ⟨{ s with statement := statement }, by simp [ledger, Ledger.find_update, found], rfl⟩

/-- A use after which the statement is brought to its next state. -/
private theorem Used.advances {u : Use} (used : Used tx h s (u.call h s) o next)
    (found : tx.ledger.find h = some s) (passage : Passage s.state u o t) :
    WorksOn h tx (next.change h fun s => { s with state := t }) ∧
      (next.change h fun s => { s with state := t }).StandsAt h t := by
  obtain ⟨journal, statement, ledger⟩ := used
  have moved : (next.change h fun s => { s with state := t }).ledger =
      tx.ledger.update h fun s => { s with state := t, statement := statement } := by
    rw [← Ledger.update_update tx.ledger h (fun s => { s with statement := statement })
      (fun s => { s with state := t }), ← ledger]
    rfl
  refine ⟨.use journal moved found passage rfl, ?_⟩
  exact ⟨{ s with state := t, statement := statement },
    by simp [moved, Ledger.find_update, found], rfl⟩

/-- The statement of a handle is at hand, or there is none. -/
theorem lookup_operates {step : Transaction σ ι → Transaction σ ι → Prop} (h : Handle)
    (stays : step tx tx) :
    (lookup h).Ensures step tx fun s next => tx = next ∧ tx.ledger.find h = some s := by
  simp only [Action.Ensures, perform_lookup]
  cases found : tx.ledger.find h with
  | none => exact stays
  | some s => exact ⟨stays, rfl, rfl⟩

theorem prepare_operates (c : Connector σ ι) (h : Handle) (tx : Transaction σ ι) :
    (prepare c h).Ensures (WorksOn h) tx fun _ next => next.StandsAt h .prepared := by
  refine (lookup_operates h (.refl h tx)).bind (fun _ _ _ => WorksOn.trans) ?_
  rintro s _ ⟨rfl, found⟩
  by_cases ready : s.state = .created
  · have used := onStatement_used h s (.prepare h s.sql) (fun _ => .succeeded) c.prepare tx
    simp only [ready, ne_eq, not_true_eq_false, if_false, Action.Ensures, Action.perform_bind]
    revert used
    cases (onStatement h s (.prepare h s.sql) (fun _ => .succeeded) c.prepare).perform tx with
    | mk result next =>
      cases result with
      | ok => exact fun used => Used.advances (u := .prepare) used found (ready ▸ .prepared)
      | error => exact fun used => (Used.stays (u := .prepare) used found (ready ▸ .refused)).1
  · simpa [ready] using Action.Ensures.throw _ _ (WorksOn.refl h _)

theorem execute_operates (c : Connector σ ι) (h : Handle) (tx : Transaction σ ι) :
    (execute c h).Ensures (WorksOn h) tx fun _ next => next.StandsAt h .executed := by
  refine (lookup_operates h (.refl h tx)).bind (fun _ _ _ => WorksOn.trans) ?_
  rintro s _ ⟨rfl, found⟩
  by_cases ready : s.state = .prepared
  · have used := onStatement_used h s (.execute h s.sql s.params) (fun _ => .succeeded)
      (c.execute s.params) tx
    simp only [ready, ne_eq, not_true_eq_false, if_false, Action.Ensures, Action.perform_bind]
    revert used
    cases (onStatement h s (.execute h s.sql s.params) (fun _ => .succeeded)
      (c.execute s.params)).perform tx with
    | mk result next =>
      cases result with
      | ok => exact fun used => Used.advances (u := .execute) used found (ready ▸ .executed)
      | error => exact fun used => (Used.stays (u := .execute) used found (ready ▸ .broken)).1
  · simpa [ready] using Action.Ensures.throw _ _ (WorksOn.refl h _)

theorem ensureExecuted_operates (c : Connector σ ι) (h : Handle) (tx : Transaction σ ι)
    (stands : tx.StandsAt h state) (unfinished : state ≠ .done) :
    (ensureExecuted c h state).Ensures (WorksOn h) tx fun _ next => next.StandsAt h .executed := by
  have run : ∀ tx : Transaction σ ι, Action.Ensures (WorksOn h)
      (do let _ ← execute c h : Action (Transaction σ ι) Unit) tx
      (fun _ next => next.StandsAt h .executed) := by
    intro tx
    exact (execute_operates c h tx).bind (fun _ _ _ => WorksOn.trans) fun _ next executed =>
      .pure () next (.refl h next) executed
  cases state with
  | created => exact (prepare_operates c h tx).bind (fun _ _ _ => WorksOn.trans) fun _ next _ => run next
  | prepared => exact run tx
  | executed => exact .pure () tx (.refl h tx) stands
  | done => exact absurd rfl unfinished

theorem nextRow_operates (c : Connector σ ι) (h : Handle) (tx : Transaction σ ι)
    (stands : tx.StandsAt h .executed) :
    (nextRow c h).Ensures (WorksOn h) tx fun _ _ => True := by
  obtain ⟨s, there, ran⟩ := stands
  refine (lookup_operates h (.refl h tx)).bind (fun _ _ _ => WorksOn.trans) ?_
  rintro s' _ ⟨rfl, found⟩
  obtain rfl : s = s' := Option.some.inj (there.symm.trans found)
  have used := onStatement_used h s (.fetch h s.sql)
    (fun row : Option Row => if row.isSome then .succeeded else .exhausted) c.fetch tx
  simp only [Action.Ensures, Action.perform_bind]
  revert used
  cases (onStatement h s (.fetch h s.sql)
    (fun row : Option Row => if row.isSome then .succeeded else .exhausted) c.fetch).perform tx with
  | mk result next =>
    cases result with
    | error => exact fun used => (Used.stays (u := .fetch) used found (ran ▸ .interrupted)).1
    | ok row =>
      cases row with
      | none =>
        exact fun used => ⟨(Used.advances (u := .fetch) used found (ran ▸ .exhausted)).1, trivial⟩
      | some =>
        exact fun used => ⟨(Used.stays (u := .fetch) used found (ran ▸ .fetched)).1, trivial⟩

/-- A step that also works on a record of the caller. -/
private abbrev Beside (h : Handle) (p q : Transaction σ ι × Record) : Prop := WorksOn h p.1 q.1

private theorem Beside.trans (p q r : Transaction σ ι × Record) (first : Beside h p q)
    (second : Beside h q r) : Beside h p r :=
  WorksOn.trans first second

private theorem bindRow_operates (h : Handle) (row : Row) (d : Descriptor)
    (p : Transaction σ ι × Record) : (bindRow row d).Ensures (Beside h) p fun _ _ => True := by
  simp only [Action.Ensures, bindRow, Action.perform_ofFunction]
  cases (row.bind d).perform ⟨p.2, []⟩ with
  | mk result =>
    cases result with
    | ok => exact ⟨.same h rfl rfl, trivial⟩
    | error => exact .same h rfl rfl

theorem fetchNext_operates (c : Connector σ ι) (h : Handle) (d : Descriptor) (target : Record)
    (tx : Transaction σ ι) :
    (fetchNext c h d).Ensures (fun p q => WorksOn h p.1 q.1) (tx, target) fun _ _ => True := by
  rw [fetchNext]
  simp only [Action.Ensures, Action.perform_bind, Action.perform_get]
  by_cases fits : d.describes target
  · simp only [fits, Bool.not_true, Bool.false_eq_true, if_false]
    refine ((lookup_operates h (.refl h tx)).onFirst target).bind Beside.trans ?_
    rintro s ⟨_, _⟩ ⟨⟨rfl, found⟩, rfl⟩
    by_cases finished : s.state = .done
    · simpa [finished, Action.Ensures] using WorksOn.refl h tx
    · simp only [finished, if_false]
      have ensured := ensureExecuted_operates c h tx ⟨s, found, rfl⟩ finished
      refine (ensured.onFirst target).bind Beside.trans ?_
      rintro _ ⟨_, _⟩ ⟨executed, rfl⟩
      refine ((nextRow_operates c h _ executed).onFirst target).bind Beside.trans ?_
      rintro row q _
      cases row with
      | none => exact .pure false q (.refl h q.1) trivial
      | some row =>
        exact (bindRow_operates h row d q).bind Beside.trans fun _ q _ =>
          .pure true q (.refl h q.1) trivial
  · simpa [fits, Action.perform_bind] using WorksOn.refl h tx

/-- A question that leaves every statement as it is. -/
structure Asks (tx next : Transaction σ ι) : Prop where
  works : Works tx next
  unchanged : next.ledger = tx.ledger

theorem Asks.refl (tx : Transaction σ ι) : Asks tx tx := ⟨.refl tx, rfl⟩

theorem Asks.trans (first : Asks tx next) (second : Asks next last) : Asks tx last :=
  ⟨first.works.trans second.works, second.unchanged.trans first.unchanged⟩

theorem readGeneratedKey_operates (c : Connector σ ι) (h : Handle) (d : Descriptor)
    (target : Record) (tx : Transaction σ ι) :
    (readGeneratedKey c h d).Ensures (fun p q => Asks p.1 q.1) (tx, target) fun _ _ => True := by
  have asked_trans : ∀ p q r : Transaction σ ι × Record, Asks p.1 q.1 → Asks q.1 r.1 →
      Asks p.1 r.1 := fun _ _ _ => Asks.trans
  rw [readGeneratedKey]
  cases d.primaryKey? with
  | none => exact .pure false _ (.refl tx) trivial
  | some key =>
    refine ((lookup_operates h (.refl tx)).onFirst target).bind asked_trans ?_
    rintro s ⟨_, _⟩ ⟨⟨rfl, found⟩, rfl⟩
    by_cases early : s.state.rank < StatementState.executed.rank
    · simpa [early, Action.Ensures] using Asks.refl tx
    · have asked : (onConnection (.lastInsertId h s.sql) (c.lastInsertId s.statement)).Ensures
          Asks tx fun _ _ => True := by
        have unchanged := Ledger.update_same tx.ledger h
        have change : ∀ o, Ledger.Change tx.ledger [.called ⟨.lastInsertId h s.sql, o⟩] tx.ledger := by
          intro o
          have passage : Passage s.state .lastInsertId o s.state := .asked (Nat.not_lt.mp early)
          have used := Ledger.Change.use (f := fun s => s) found passage rfl
          rwa [unchanged] at used
        simp only [Action.Ensures, perform_onConnection]
        cases (c.lastInsertId s.statement).perform tx.connection with
        | mk result connection =>
          cases result with
          | ok id => exact ⟨⟨.call rfl rfl (change .succeeded), rfl⟩, trivial⟩
          | error => exact ⟨.call rfl rfl (change .failed), rfl⟩
      simp only [early, if_false]
      refine (asked.onFirst target).bind asked_trans ?_
      rintro id q _
      refine (Action.Ensures.ofExcept _ q (Asks.refl q.1)).bind asked_trans ?_
      rintro value _ ⟨_, rfl⟩
      refine (Action.Ensures.onSecond _ q.1 q.2 (Asks.refl q.1)).bind asked_trans ?_
      rintro _ p _
      exact .pure true p (.refl p.1) trivial

theorem close_works (c : Connector σ ι) (h : Handle) (tx : Transaction σ ι) :
    (close c h).Ensures Works tx fun _ _ => True := by
  refine (lookup_operates h (.refl tx)).bind (fun _ _ _ => Works.trans) ?_
  rintro s _ ⟨rfl, found⟩
  exact ⟨.call rfl rfl (.release found), trivial⟩

/-- What a request that did nothing but work made happen. -/
private theorem works_settled (works : Works tx next) (happening : events = entered tx next) :
    Moves tx events next ∧ created events = [] :=
  happening ▸ works.moves

private theorem answered {action : Action (Transaction σ ι) α}
    (works : Works tx (action.perform tx).2) (q : Request) (f : α → Reply)
    (plain : ∀ reply next, happened tx q reply next = entered tx next)
    (unopened : ∀ x h, f x ≠ .opened h) :
    match (do return f (← action) : Action (Transaction σ ι) Reply).perform tx with
    | (reply, next) =>
      Moves tx (happened tx q reply next) next ∧
        created (happened tx q reply next) = handles reply := by
  rw [Action.perform_bind]
  revert works
  cases action.perform tx with
  | mk result next =>
    intro works
    cases result with
    | error => exact works_settled works (plain _ _)
    | ok x =>
      have none : handles (.ok (f x)) = [] := by
        cases reply : f x with
        | opened h => exact absurd reply (unopened x h)
        | _ => rfl
      simp only [Action.perform_pure, none]
      exact works_settled works (plain (.ok (f x)) next)

private theorem answeredTarget (act : Action (Transaction σ ι × Record) Bool)
    (works : act.Ensures (fun p q => Works p.1 q.1) (tx, target) fun _ _ => True) (q : Request)
    (plain : ∀ reply next, happened tx q reply next = entered tx next) :
    match (withTarget target act).perform tx with
    | (reply, next) =>
      Moves tx (happened tx q reply next) next ∧
        created (happened tx q reply next) = handles reply := by
  have works := works.related
  simp only [withTarget, Action.perform_ofFunction]
  revert works
  cases act.perform (tx, target) with
  | mk result rest =>
    intro works
    cases result with
    | ok => exact works_settled works (plain _ _)
    | error => exact works_settled works (plain _ _)

/-- Whatever is asked of a transaction, it moves by what happens then; a statement is
created exactly when its handle is the reply. -/
theorem answer_moves (c : Connector σ ι) (q : Request) (tx : Transaction σ ι) :
    match (answer c q).perform tx with
    | (reply, next) =>
      Moves tx (happened tx q reply next) next ∧
        created (happened tx q reply next) = handles reply := by
  cases q with
  | start => exact answered (start_works c tx) _ (fun _ => .done) (fun _ _ => rfl) (by simp)
  | commit => exact answered (commit_works c tx) _ (fun _ => .done) (fun _ _ => rfl) (by simp)
  | rollback => exact answered (rollback_works c tx) _ (fun _ => .done) (fun _ _ => rfl) (by simp)
  | prepare h =>
    exact answered (prepare_operates c h tx).related.works _ (fun _ => .done) (fun _ _ => rfl) (by simp)
  | execute h =>
    exact answered (execute_operates c h tx).related.works _ .affected (fun _ _ => rfl) (by simp)
  | close h =>
    exact answered (close_works c h tx).related _ (fun _ => .done) (fun _ _ => rfl) (by simp)
  | fetchNext h d target =>
    exact answeredTarget _ ((fetchNext_operates c h d target tx).mono fun _ _ => WorksOn.works) _
      fun _ _ => rfl
  | readGeneratedKey h d target =>
    exact answeredTarget _ ((readGeneratedKey_operates c h d target tx).mono fun _ _ => Asks.works) _
      fun _ _ => rfl
  | create kind sql =>
    have moves := create_moves c kind sql tx
    simp only [answer, Action.perform_bind]
    revert moves
    cases (create c kind sql).perform tx with
    | mk result next =>
      cases result with
      | error => exact fun works => works_settled works rfl
      | ok h =>
        intro moves
        have same : entered tx next = [.called ⟨.create h sql, .succeeded⟩] := moves.entered
        simp only [Action.perform_pure, happened, same]
        exact ⟨moves, rfl⟩
  | bindParameters h params =>
    have moves := bindParameters_moves h params tx
    simp only [answer, Action.perform_bind]
    revert moves
    cases (bindParameters h params).perform tx with
    | mk result next =>
      cases result with
      | error => exact fun works => works_settled works rfl
      | ok =>
        intro moves
        have none : entered tx next = [] := moves.entered
        simp only [Action.perform_pure, happened, none]
        exact ⟨moves, rfl⟩

end ObjectMapping.Transaction
