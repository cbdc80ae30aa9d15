import ObjectMapping.Transaction.History

/-! The part of a transaction that its rules are about: the flag, the next number
and the open statements. Whatever a transaction is asked to do, this part moves in
a few ways only, and each of them is listed here with what it lets happen. All
invariants of transactions are proved once, about these moves. -/
namespace ObjectMapping

/-- One call on a statement takes it from a state to a state, by how it ends. -/
inductive Passage : StatementState → Use → CallOutcome → StatementState → Prop where
  | refused : Passage .created .prepare .failed .created
  | prepared : Passage .created .prepare .succeeded .prepared
  | broken : Passage .prepared .execute .failed .prepared
  | executed : Passage .prepared .execute .succeeded .executed
  | fetched : Passage .executed .fetch .succeeded .executed
  | interrupted : Passage .executed .fetch .failed .executed
  | exhausted : Passage .executed .fetch .exhausted .done
  | asked (ran : StatementState.executed.rank ≤ s.rank) : Passage s .lastInsertId o s

theorem Passage.rank_le (passage : Passage s u o t) : s.rank ≤ t.rank := by
  cases passage <;> simp [StatementState.rank]

/-- Calls on one statement, one after the other, take it from a state to a state. -/
inductive Walk : StatementState → List (Use × CallOutcome) → StatementState → Prop where
  | stay : Walk s [] s
  | step (passage : Passage s u o m) (rest : Walk m uses t) : Walk s ((u, o) :: uses) t

namespace Walk

theorem one (passage : Passage s u o t) : Walk s [(u, o)] t := .step passage .stay

theorem append (first : Walk s uses m) (second : Walk m more t) : Walk s (uses ++ more) t := by
  induction first with
  | stay => exact second
  | step passage _ ih => exact .step passage (ih second)

theorem rank_le (walk : Walk s uses t) : s.rank ≤ t.rank := by
  induction walk with
  | stay => exact Nat.le_refl _
  | step passage _ ih => exact Nat.le_trans passage.rank_le ih

/-- A use that states from a rank on do not let pass is not met on the way from there. -/
private theorem not_mem (walk : Walk s uses t) (late : rank ≤ s.rank)
    (early : ∀ {s o t}, Passage s u o t → s.rank < rank) : (u, o) ∉ uses := by
  induction walk with
  | stay => exact List.not_mem_nil
  | step passage _ ih =>
    refine List.not_mem_cons_of_ne_of_not_mem ?_ (ih (Nat.le_trans late passage.rank_le))
    rintro ⟨⟩
    exact Nat.not_lt_of_le late (early passage)

/-- What has been prepared is not prepared again. -/
theorem prepare_not_mem (walk : Walk s uses t) (late : StatementState.prepared.rank ≤ s.rank) :
    (.prepare, o) ∉ uses :=
  walk.not_mem late fun passage => by cases passage <;> decide

/-- What has been executed is not executed again. -/
theorem execute_not_mem (walk : Walk s uses t) (late : StatementState.executed.rank ≤ s.rank) :
    (.execute, o) ∉ uses :=
  walk.not_mem late fun passage => by cases passage <;> decide

end Walk

/-- The call that uses an open statement. -/
def Use.call (h : Handle) (s : OpenStatement ι) : Use → Call
  | prepare => .prepare h s.sql
  | execute => .execute h s.sql s.params
  | fetch => .fetch h s.sql
  | lastInsertId => .lastInsertId h s.sql
  | release => .release h s.sql

/-- The flag, the next number and the open statements of a transaction. -/
structure Ledger (ι : Type) where
  active : Bool
  nextId : Nat
  statements : List (Handle × OpenStatement ι)

namespace Ledger

variable {ι : Type}

/-- The open statement of a handle. -/
def find (l : Ledger ι) (h : Handle) : Option (OpenStatement ι) := l.statements.lookup h

/-- The ledger with the open statement of a handle changed. -/
def update (l : Ledger ι) (h : Handle) (f : OpenStatement ι → OpenStatement ι) : Ledger ι :=
  { l with statements := l.statements.map fun (k, s) => if k = h then (k, f s) else (k, s) }

/-- The ledger with a new statement under the next number. -/
def enter (l : Ledger ι) (kind : StatementKind) (sql : String) (statement : ι) : Ledger ι :=
  { l with
    nextId := l.nextId + 1
    statements := l.statements ++ [(⟨l.nextId, kind⟩, ⟨sql, .created, [], statement⟩)] }

/-- The ledger without the statement of a handle. -/
def remove (l : Ledger ι) (h : Handle) : Ledger ι :=
  { l with statements := l.statements.filter (·.1 ≠ h) }

/-- How a ledger can move, and what happens meanwhile. -/
inductive Change : Ledger ι → List Event → Ledger ι → Prop where
  | stay : Change l [] l
  | start (idle : l.active = false) :
      Change l [.called ⟨.start, .succeeded⟩] { l with active := true }
  | commit (busy : l.active = true) :
      Change l [.called ⟨.commit, .succeeded⟩] { l with active := false }
  | rollback (busy : l.active = true) :
      Change l [.called ⟨.rollback, .succeeded⟩] { l with active := false }
  | startFailed (idle : l.active = false) : Change l [.called ⟨.start, .failed⟩] l
  | commitFailed (busy : l.active = true) : Change l [.called ⟨.commit, .failed⟩] l
  | rollbackFailed (busy : l.active = true) : Change l [.called ⟨.rollback, .failed⟩] l
  /-- A unit of work that is undone in the end leaves the flag as it is. -/
  | abandon (busy : l.active = true) : Change l [.called ⟨.rollback, .succeeded⟩] l
  | createFailed : Change l [.called ⟨.create ⟨l.nextId, kind⟩ sql, .failed⟩] l
  | create (statement : ι) :
      Change l [.called ⟨.create ⟨l.nextId, kind⟩ sql, .succeeded⟩] (l.enter kind sql statement)
  | bind (found : l.find h = some s) (early : s.state.rank ≤ StatementState.prepared.rank) :
      Change l [.bound h params] (l.update h fun s => { s with params := params })
  | use (found : l.find h = some s) (passage : Passage s.state u o t)
      (effect : f s = { s with state := t, statement := statement }) :
      Change l [.called ⟨u.call h s, o⟩] (l.update h f)
  | release (found : l.find h = some s) :
      Change l [.called ⟨.release h s.sql, .succeeded⟩] (l.remove h)
  | andThen (first : Change l before m) (second : Change m after n) :
      Change l (before ++ after) n

/-- The statements of the ledger move forward only, and no handle comes back. -/
structure Onward (l m : Ledger ι) : Prop where
  number : l.nextId ≤ m.nextId
  forward : ∀ h t, m.find h = some t → h.id < l.nextId →
    ∃ s, l.find h = some s ∧ s.state.rank ≤ t.state.rank

theorem find_update (l : Ledger ι) (h k : Handle) (f : OpenStatement ι → OpenStatement ι) :
    (l.update h f).find k = (l.find k).map fun s => if k = h then f s else s := by
  obtain ⟨_, _, statements⟩ := l
  simp only [find, update]
  induction statements with
  | nil => rfl
  | cons entry rest ih =>
    obtain ⟨j, s⟩ := entry
    by_cases here : k = j
    · subst here
      by_cases same : k = h <;> simp [same]
    · have apart : (k == j) = false := by simpa using here
      have step : ∀ (s : OpenStatement ι), ((j, s) :: rest).lookup k = rest.lookup k := by
        intro s
        simp [List.lookup_cons, apart]
      rw [List.map_cons, step]
      split <;> simpa [List.lookup_cons, apart] using ih

theorem find_enter (l : Ledger ι) (kind : StatementKind) (sql : String) (statement : ι)
    (k : Handle) :
    (l.enter kind sql statement).find k =
      (l.find k).or (if k = ⟨l.nextId, kind⟩ then some ⟨sql, .created, [], statement⟩ else none) := by
  simp only [find, enter, List.lookup_append]
  by_cases new : k = ⟨l.nextId, kind⟩
  · subst new
    simp
  · have apart : (k == ⟨l.nextId, kind⟩) = false := by simpa using new
    simp [List.lookup_cons, apart, new]

theorem find_remove (l : Ledger ι) (h k : Handle) :
    (l.remove h).find k = if k = h then none else l.find k := by
  obtain ⟨_, _, statements⟩ := l
  simp only [find, remove]
  induction statements with
  | nil => simp
  | cons entry rest ih =>
    obtain ⟨j, s⟩ := entry
    by_cases away : j = h
    · subst away
      by_cases here : k = j
      · simpa [here] using ih
      · have apart : (k == j) = false := by simpa using here
        simpa [here, apart, List.lookup_cons] using ih
    · by_cases here : k = j
      · subst here
        simp [away]
      · have apart : (k == j) = false := by simpa using here
        simpa [away, apart, List.lookup_cons] using ih

theorem update_update (l : Ledger ι) (h : Handle) (f g : OpenStatement ι → OpenStatement ι) :
    (l.update h f).update h g = l.update h fun s => g (f s) := by
  simp only [update, List.map_map, Ledger.mk.injEq, true_and]
  apply List.map_congr_left
  rintro ⟨k, s⟩ _
  by_cases same : k = h <;> simp [same]

/-- Nothing but the statement of the handle differs, which calls have taken on its way. -/
def Follows (h : Handle) (l : Ledger ι) (uses : List (Use × CallOutcome)) (m : Ledger ι) : Prop :=
  ∃ f : OpenStatement ι → OpenStatement ι, m = l.update h f ∧
    ∀ s, l.find h = some s → (f s).params = s.params ∧ Walk s.state uses (f s).state

theorem update_same (l : Ledger ι) (h : Handle) : (l.update h fun s => s) = l := by
  simp [update]

theorem Follows.refl (h : Handle) (l : Ledger ι) : Follows h l [] l :=
  ⟨fun s => s, (update_same l h).symm, fun _ _ => ⟨rfl, .stay⟩⟩

theorem Follows.trans {l m n : Ledger ι} (first : Follows h l uses m) (second : Follows h m more n) :
    Follows h l (uses ++ more) n := by
  obtain ⟨f, rfl, walk⟩ := first
  obtain ⟨g, rfl, further⟩ := second
  refine ⟨fun s => g (f s), update_update l h f g, ?_⟩
  intro s found
  obtain ⟨params, walk⟩ := walk s found
  obtain ⟨same, further⟩ := further (f s) (by simp [find_update, found])
  exact ⟨same.trans params, walk.append further⟩

theorem handles_update (l : Ledger ι) (h : Handle) (f : OpenStatement ι → OpenStatement ι) :
    (l.update h f).statements.map (·.1) = l.statements.map (·.1) := by
  simp only [update, List.map_map]
  apply List.map_congr_left
  rintro ⟨k, s⟩ _
  simp only [Function.comp_apply]
  split <;> rfl

theorem Onward.same {l m : Ledger ι} (number : m.nextId = l.nextId)
    (kept : m.statements = l.statements) : Onward l m := by
  refine ⟨Nat.le_of_eq number.symm, ?_⟩
  intro h t found _
  rw [find, kept] at found
  exact ⟨t, found, Nat.le_refl _⟩

theorem Onward.trans {l m n : Ledger ι} (first : Onward l m) (second : Onward m n) :
    Onward l n := by
  refine ⟨Nat.le_trans first.number second.number, ?_⟩
  intro h u found early
  obtain ⟨t, there, later⟩ := second.forward h u found (Nat.lt_of_lt_of_le early first.number)
  obtain ⟨s, here, sooner⟩ := first.forward h t there early
  exact ⟨s, here, Nat.le_trans sooner later⟩

private theorem Onward.update {l : Ledger ι} (found : l.find h = some s)
    (later : s.state.rank ≤ (f s).state.rank) : Onward l (l.update h f) := by
  refine ⟨Nat.le_refl _, ?_⟩
  intro k t there _
  rw [find_update, Option.map_eq_some_iff] at there
  obtain ⟨r, here, same⟩ := there
  refine ⟨r, here, ?_⟩
  by_cases this : k = h
  · subst this
    obtain rfl : s = r := Option.some.inj (found.symm.trans here)
    simpa [← same] using later
  · simp [← same, this]

end Ledger

end ObjectMapping
