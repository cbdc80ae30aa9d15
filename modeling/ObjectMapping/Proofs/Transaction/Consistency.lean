import ObjectMapping.Proofs.Transaction.Ledger

/-! The open statements of a transaction agree with what has happened: the calls
that a statement has received lead to the state that it is in, and the parameters
that it holds are those that were bound last. Every move of the ledger keeps this. -/
namespace ObjectMapping

/-- The calls that lead an open statement from its creation to a state. -/
inductive Path : List (Use × CallOutcome) → StatementState → Prop where
  | opened : Path [] .created
  | snoc (path : Path uses s) (passage : Passage s u o t) : Path (uses ++ [(u, o)]) t

/-- The calls of a path, told by the state that it leads to. -/
inductive Path.Form : List (Use × CallOutcome) → StatementState → Prop where
  | created (refusals : Nat) : Form (List.replicate refusals (.prepare, .failed)) .created
  | prepared (refusals failures : Nat) :
      Form (List.replicate refusals (.prepare, .failed) ++ (.prepare, .succeeded) ::
        List.replicate failures (.execute, .failed)) .prepared
  | executed (refusals failures : Nat) (uses : List (Use × CallOutcome))
      (reading : ∀ use ∈ uses, use.1 = .fetch ∨ use.1 = .lastInsertId)
      (unending : (.fetch, .exhausted) ∉ uses) :
      Form (List.replicate refusals (.prepare, .failed) ++ (.prepare, .succeeded) ::
        List.replicate failures (.execute, .failed) ++ (.execute, .succeeded) :: uses) .executed
  | done (refusals failures : Nat) (uses : List (Use × CallOutcome))
      (reading : ∀ use ∈ uses, use.1 = .fetch ∨ use.1 = .lastInsertId)
      (ending : uses.Pairwise MayFollow) :
      Form (List.replicate refusals (.prepare, .failed) ++ (.prepare, .succeeded) ::
        List.replicate failures (.execute, .failed) ++ (.execute, .succeeded) :: uses) .done

private theorem Path.Form.snoc (form : Form uses s) (passage : Passage s u o t) :
    Form (uses ++ [(u, o)]) t := by
  cases form with
  | created refusals =>
    cases passage with
    | refused => simpa [List.replicate_succ'] using Form.created (refusals + 1)
    | prepared => simpa using Form.prepared refusals 0
    | asked ran => simp [StatementState.rank] at ran
  | prepared refusals failures =>
    cases passage with
    | broken => simpa [List.replicate_succ'] using Form.prepared refusals (failures + 1)
    | executed => simpa using Form.executed refusals failures [] (by simp) (by simp)
    | asked ran => simp [StatementState.rank] at ran
  | executed refusals failures uses reading unending =>
    have ending : uses.Pairwise MayFollow :=
      List.pairwise_of_forall_mem_list fun a member _ _ last => absurd (last ▸ member) unending
    cases passage with
    | fetched =>
      simpa using Form.executed refusals failures (uses ++ [(.fetch, .succeeded)])
        (by simpa [or_imp, forall_and] using reading) (by simp [unending])
    | interrupted =>
      simpa using Form.executed refusals failures (uses ++ [(.fetch, .failed)])
        (by simpa [or_imp, forall_and] using reading) (by simp [unending])
    | exhausted =>
      have last : List.Pairwise MayFollow (uses ++ [(.fetch, .exhausted)]) := by
        refine List.pairwise_append.mpr ⟨ending, by simp, ?_⟩
        intro a member b _ last
        exact absurd (last ▸ member) unending
      simpa using Form.done refusals failures (uses ++ [(.fetch, .exhausted)])
        (by simpa [or_imp, forall_and] using reading) last
    | asked ran =>
      simpa using Form.executed refusals failures (uses ++ [(.lastInsertId, o)])
        (by simpa [or_imp, forall_and] using reading) (by simp [unending])
  | done refusals failures uses reading ending =>
    cases passage with
    | asked ran =>
      have later : List.Pairwise MayFollow (uses ++ [(.lastInsertId, o)]) := by
        refine List.pairwise_append.mpr ⟨ending, by simp, ?_⟩
        intro a _ b last _
        simp [List.mem_singleton.mp last]
      simpa using Form.done refusals failures (uses ++ [(.lastInsertId, o)])
        (by simpa [or_imp, forall_and] using reading) later

private theorem Path.form (path : Path uses s) : Path.Form uses s := by
  induction path with
  | opened => exact Path.Form.created 0
  | snoc _ passage ih => exact ih.snoc passage

/-- A statement that is released wherever it stands has lived as it should. -/
theorem Path.lifecycle (path : Path uses s) : Lifecycle (uses ++ [(.release, .succeeded)]) := by
  cases path.form with
  | created refusals => exact .unprepared refusals
  | prepared refusals failures => exact .unexecuted refusals failures
  | executed refusals failures uses reading unending =>
    refine .executed refusals failures uses reading ?_
    exact List.pairwise_of_forall_mem_list fun a member _ _ last => absurd (last ▸ member) unending
  | done refusals failures uses reading ending =>
    exact .executed refusals failures uses reading ending

theorem received_snoc (h : Handle) (past : List Event) (e : Event) :
    received h (past ++ [e]) = received h past ++ (e.received? h).toList := by
  simp only [received, List.filterMap_append]
  cases none : e.received? h <;> simp [none]

theorem created_snoc (past : List Event) (e : Event) :
    created (past ++ [e]) = created past ++ e.created?.toList := by
  simp only [created, List.filterMap_append]
  cases none : e.created? <;> simp [none]

theorem lastBound_snoc (h : Handle) (past : List Event) (e : Event) :
    lastBound h (past ++ [e]) = (e.bound? h).getD (lastBound h past) := by
  simp only [lastBound, List.filterMap_append]
  cases none : e.bound? h <;> simp [none]

theorem Use.use?_call (h k : Handle) (s : OpenStatement ι) (u : Use) :
    (u.call h s).use? k = if h = k then some u else none := by
  cases u <;> rfl

/-- Every execution ran with the parameters that had been bound last. -/
def BoundLast (events : List Event) : Prop :=
  ∀ before h sql params outcome later,
    events = before ++ .called ⟨.execute h sql params, outcome⟩ :: later →
      params = lastBound h before

theorem BoundLast.snoc (past : BoundLast events)
    (next : ∀ h sql params outcome, e = .called ⟨.execute h sql params, outcome⟩ →
      params = lastBound h events) :
    BoundLast (events ++ [e]) := by
  intro before h sql params outcome later split
  obtain rfl | ⟨front, last, rfl⟩ := later.eq_nil_or_concat
  · obtain ⟨rfl, same⟩ := List.append_inj' split rfl
    exact next h sql params outcome (by simpa using same)
  · have whole : events ++ [e] =
        (before ++ .called ⟨.execute h sql params, outcome⟩ :: front) ++ [last] := by
      simpa using split
    exact past before h sql params outcome front (List.append_inj' whole rfl).1

/-- What the open statements of a transaction have to do with what has happened. -/
structure Consistent (past : List Event) (l : Ledger ι) : Prop where
  /-- A number that was not given out yet occurs nowhere. -/
  fresh : ∀ h, l.nextId ≤ h.id →
    received h past = [] ∧ lastBound h past = [] ∧ h ∉ created past ∧ l.find h = none
  distinct : (l.statements.map (·.1)).Nodup
  createdOnce : (created past).Nodup
  opened : ∀ h s, l.find h = some s →
    h ∈ created past ∧ Path (received h past) s.state ∧ s.params = lastBound h past
  closed : ∀ h ∈ created past, l.find h = none → Lifecycle (received h past)
  boundLast : BoundLast past

namespace Consistent

variable {ι : Type} {l m : Ledger ι} {past : List Event}

theorem known (ok : Consistent past l) (found : l.find h = some s) : h.id < l.nextId := by
  refine Nat.lt_of_not_le fun late => ?_
  have unseen := (ok.fresh h late).2.2.2
  simp [unseen] at found

/-- A call that is about no statement changes nothing about the statements. -/
private theorem silent (ok : Consistent past l) (entry : JournalEntry)
    (unheard : ∀ h, (Event.called entry).received? h = none)
    (uncreated : (Event.called entry).created? = none)
    (kept : m.statements = l.statements) (number : m.nextId = l.nextId) :
    Consistent (past ++ [.called entry]) m := by
  have found : ∀ h, m.find h = l.find h := fun h => by simp only [Ledger.find, kept]
  have calls : ∀ h, received h (past ++ [.called entry]) = received h past := fun h => by
    simp [received_snoc, unheard]
  have bound : ∀ h, lastBound h (past ++ [.called entry]) = lastBound h past := fun h => by
    simp [lastBound_snoc, Event.bound?]
  have made : created (past ++ [.called entry]) = created past := by
    simp [created_snoc, uncreated]
  refine ⟨?_, kept ▸ ok.distinct, made ▸ ok.createdOnce, ?_, ?_, ok.boundLast.snoc ?_⟩
  · simpa only [number, calls, bound, made, found] using ok.fresh
  · simpa only [calls, bound, made, found] using ok.opened
  · simpa only [calls, made, found] using ok.closed
  · rintro h sql params outcome ⟨⟩
    simpa [Event.received?, Call.use?] using unheard h

/-- An event about one open statement asks for nothing but that this statement
agrees with it. -/
private theorem updated (ok : Consistent past l) (found : l.find h = some s) (e : Event)
    (others : ∀ k, k ≠ h → e.received? k = none ∧ e.bound? k = none)
    (uncreated : e.created? = none)
    (path : Path (received h (past ++ [e])) (f s).state)
    (holds : (f s).params = lastBound h (past ++ [e]))
    (executed : ∀ k sql params outcome, e = .called ⟨.execute k sql params, outcome⟩ →
      params = lastBound k past) :
    Consistent (past ++ [e]) (l.update h f) := by
  have calls : ∀ k, k ≠ h → received k (past ++ [e]) = received k past := fun k away => by
    simp [received_snoc, (others k away).1]
  have bound : ∀ k, k ≠ h → lastBound k (past ++ [e]) = lastBound k past := fun k away => by
    simp [lastBound_snoc, (others k away).2]
  have made : created (past ++ [e]) = created past := by
    simp [created_snoc, uncreated]
  refine ⟨?_, ?_, made ▸ ok.createdOnce, ?_, ?_, ok.boundLast.snoc executed⟩
  · intro k late
    have away : k ≠ h := by
      rintro rfl
      exact absurd (ok.known found) (Nat.not_lt.mpr late)
    obtain ⟨unheard, unbound, unmade, unseen⟩ := ok.fresh k late
    rw [calls k away, bound k away, made, Ledger.find_update, unseen]
    exact ⟨unheard, unbound, unmade, rfl⟩
  · rw [Ledger.handles_update]
    exact ok.distinct
  · intro k t here
    rw [Ledger.find_update] at here
    by_cases same : k = h
    · subst same
      obtain rfl : f s = t := by simpa [found] using here
      exact ⟨made ▸ (ok.opened k s found).1, path, holds⟩
    · have there : l.find k = some t := by simpa [same] using here
      rw [calls k same, bound k same, made]
      exact ok.opened k t there
  · intro k member gone
    rw [Ledger.find_update, Option.map_eq_none_iff] at gone
    have away : k ≠ h := by
      rintro rfl
      simp [found] at gone
    rw [calls k away]
    exact ok.closed k (made ▸ member) gone

private theorem bind (ok : Consistent past l) (found : l.find h = some s) (params : List Value) :
    Consistent (past ++ [.bound h params]) (l.update h fun s => { s with params := params }) := by
  refine ok.updated found _ ?_ rfl ?_ ?_ (by rintro _ _ _ _ ⟨⟩)
  · intro k away
    exact ⟨rfl, if_neg away.symm⟩
  · simpa [received_snoc, Event.received?] using (ok.opened h s found).2.1
  · simp [lastBound_snoc, Event.bound?]

private theorem use (ok : Consistent past l) (found : l.find h = some s)
    (passage : Passage s.state u o t) (effect : f s = { s with state := t, statement := statement }) :
    Consistent (past ++ [.called ⟨u.call h s, o⟩]) (l.update h f) := by
  obtain ⟨_, path, held⟩ := ok.opened h s found
  refine ok.updated found _ ?_ (by cases u <;> rfl) ?_ ?_ ?_
  · intro k away
    exact ⟨by simp [Event.received?, Use.use?_call, away.symm], rfl⟩
  · simpa [received_snoc, Event.received?, Use.use?_call, effect] using path.snoc passage
  · simpa [lastBound_snoc, Event.bound?, effect] using held
  · intro k sql params outcome same
    cases u with
    | execute =>
      obtain ⟨⟨rfl, -, rfl⟩, -⟩ : (h = k ∧ s.sql = sql ∧ s.params = params) ∧ o = outcome := by
        simpa [Use.call] using same
      exact held
    | _ => simp [Use.call] at same

private theorem create (ok : Consistent past l) (kind : StatementKind) (sql : String)
    (statement : ι) :
    Consistent (past ++ [.called ⟨.create ⟨l.nextId, kind⟩ sql, .succeeded⟩])
      (l.enter kind sql statement) := by
  have calls : ∀ h, received h (past ++ [.called ⟨.create ⟨l.nextId, kind⟩ sql, .succeeded⟩]) =
      received h past := fun h => by
    simp [received_snoc, Event.received?, Call.use?]
  have bound : ∀ h, lastBound h (past ++ [.called ⟨.create ⟨l.nextId, kind⟩ sql, .succeeded⟩]) =
      lastBound h past := fun h => by
    simp [lastBound_snoc, Event.bound?]
  have made : created (past ++ [.called ⟨.create ⟨l.nextId, kind⟩ sql, .succeeded⟩]) =
      created past ++ [⟨l.nextId, kind⟩] := by
    simp [created_snoc, Event.created?]
  have new := ok.fresh ⟨l.nextId, kind⟩ (Nat.le_refl _)
  refine ⟨?_, ?_, ?_, ?_, ?_, ok.boundLast.snoc (by rintro _ _ _ _ ⟨⟩)⟩
  · intro h late
    have later : l.nextId < h.id := late
    have away : h ≠ ⟨l.nextId, kind⟩ := by
      rintro rfl
      exact Nat.lt_irrefl _ later
    obtain ⟨unheard, unbound, unmade, unseen⟩ := ok.fresh h (by omega)
    refine ⟨(calls h).trans unheard, (bound h).trans unbound, ?_, ?_⟩
    · simpa [made, away] using unmade
    · simp [Ledger.find_enter, unseen, away]
  · have absent : ⟨l.nextId, kind⟩ ∉ l.statements.map (·.1) := by
      have apart := new.2.2.2
      simp only [Ledger.find, List.lookup_eq_none_iff] at apart
      intro member
      obtain ⟨entry, there, same⟩ := List.mem_map.mp member
      simpa [same] using apart entry there
    simpa [Ledger.enter, List.nodup_append, ok.distinct] using fun a s m => by
      rintro rfl
      exact absent (List.mem_map_of_mem m)
  · rw [made]
    refine List.nodup_append.mpr ⟨ok.createdOnce, by simp, ?_⟩
    rintro h member _ last rfl
    exact new.2.2.1 (List.mem_singleton.mp last ▸ member)
  · intro h s found
    rw [calls, bound, made]
    rw [Ledger.find_enter] at found
    by_cases same : h = ⟨l.nextId, kind⟩
    · subst same
      obtain rfl : ⟨sql, .created, [], statement⟩ = s := by simpa [new.2.2.2] using found
      rw [new.1, new.2.1]
      exact ⟨by simp, .opened, rfl⟩
    · obtain ⟨member, path, held⟩ := ok.opened h s (by simpa [same] using found)
      exact ⟨by simp [member], path, held⟩
  · intro h member gone
    rw [calls]
    rw [Ledger.find_enter, Option.or_eq_none_iff] at gone
    refine ok.closed h ?_ gone.1
    simpa [made, show h ≠ ⟨l.nextId, kind⟩ by simpa using gone.2] using member

private theorem release (ok : Consistent past l) (found : l.find h = some s) :
    Consistent (past ++ [.called ⟨.release h s.sql, .succeeded⟩]) (l.remove h) := by
  have calls : ∀ k, k ≠ h →
      received k (past ++ [.called ⟨.release h s.sql, .succeeded⟩]) = received k past := by
    intro k away
    simp [received_snoc, Event.received?, Call.use?, away.symm]
  have bound : ∀ k, lastBound k (past ++ [.called ⟨.release h s.sql, .succeeded⟩]) =
      lastBound k past := fun k => by
    simp [lastBound_snoc, Event.bound?]
  have made : created (past ++ [.called ⟨.release h s.sql, .succeeded⟩]) = created past := by
    simp [created_snoc, Event.created?]
  refine ⟨?_, ?_, made ▸ ok.createdOnce, ?_, ?_, ok.boundLast.snoc (by rintro _ _ _ _ ⟨⟩)⟩
  · intro k late
    have away : k ≠ h := by
      rintro rfl
      exact absurd (ok.known found) (Nat.not_lt.mpr late)
    obtain ⟨unheard, unbound, unmade, unseen⟩ := ok.fresh k late
    rw [calls k away, bound, made, Ledger.find_remove, if_neg away]
    exact ⟨unheard, unbound, unmade, unseen⟩
  · exact ok.distinct.sublist (List.Sublist.map _ List.filter_sublist)
  · intro k t here
    rw [Ledger.find_remove] at here
    by_cases same : k = h
    · simp [same] at here
    · rw [calls k same, bound, made]
      exact ok.opened k t (by simpa [same] using here)
  · intro k member gone
    rw [made] at member
    by_cases same : k = h
    · subst same
      simpa [received_snoc, Event.received?, Call.use?] using (ok.opened k s found).2.1.lifecycle
    · rw [Ledger.find_remove, if_neg same] at gone
      rw [calls k same]
      exact ok.closed k member gone

/-- The agreement survives whatever can happen to a ledger. -/
theorem change (ok : Consistent past l) (step : Ledger.Change l events m) :
    Consistent (past ++ events) m := by
  induction step generalizing past with
  | stay => simpa using ok
  | start | commit | rollback | startFailed | commitFailed | rollbackFailed | abandon
  | createFailed =>
    exact ok.silent _ (fun _ => rfl) rfl rfl rfl
  | create statement => exact ok.create _ _ statement
  | bind found early => exact ok.bind found _
  | use found passage effect => exact ok.use found passage effect
  | release found => exact ok.release found
  | andThen _ _ first second =>
    rw [← List.append_assoc]
    exact second (first ok)

end Consistent

end ObjectMapping
