import ObjectMapping.Proofs.Except
import ObjectMapping.Sqlite.Engine
import ObjectMapping.Transaction.Cursor

/-! What holds of connections to every engine. A query that has been executed yields the rows that
the engine answered with, in order, whatever becomes of the database in the meantime; a parameter
that cannot be bound is refused before the engine runs anything. -/
namespace ObjectMapping.Sqlite

/-- Parameters are bound if all of them are cells, and the engine refuses none of their
positions. -/
theorem Prepared.bind_eq_ok_iff {p : Prepared} {start : Nat} {params : List Value}
    {cells : List Cell} : p.bind start params = .ok cells ↔
      params.mapM Cell.ofValue = .ok cells ∧ ∀ i < params.length, p.refuses (start + i) = none := by
  induction params generalizing start cells with
  | nil => simp [Prepared.bind, pure, Except.pure]
  | cons v rest ih =>
    have shifted : ∀ i, start + 1 + i = start + (i + 1) := fun i => by omega
    rw [Prepared.bind, bind_eq_ok, mapM_cons_eq_ok]
    constructor
    · rintro ⟨c, first, ok⟩
      split at ok
      · cases ok
      rename_i accepted
      obtain ⟨others, later, ok⟩ := bind_eq_ok.mp ok
      obtain ⟨read, positions⟩ := ih.mp later
      refine ⟨⟨c, others, first, read, (Except.ok.inj ok).symm⟩, fun i inside => ?_⟩
      cases i with
      | zero => exact accepted
      | succ i => exact shifted i ▸ positions i (Nat.lt_of_succ_lt_succ inside)
    · rintro ⟨⟨c, others, first, read, rfl⟩, positions⟩
      have accepted : p.refuses start = none := positions 0 (Nat.zero_lt_succ _)
      have later := ih.mpr ⟨read, fun i inside => shifted i ▸ positions (i + 1)
        (Nat.succ_lt_succ inside)⟩
      refine ⟨c, first, ?_⟩
      rw [accepted]
      exact bind_eq_ok.mpr ⟨others, later, rfl⟩

namespace Engine

variable {δ : Type} {e : Engine δ} {db after : δ} {s : Statement} {p : Prepared}
  {params : List Value} {cells : List Cell} {rows : List (List Cell)} {answer : Answer}

theorem prepared_eq_ok {sql : String} (known : e.prepare sql db = .ok p) :
    e.prepared sql db = .ok p := by
  rw [prepared, known]
  rfl

theorem perform_prepareStatement (known : e.prepare s.sql db = .ok p) :
    e.prepareStatement.perform (db, s) = (.ok (), db, { s with columns := p.columns }) := by
  simp only [prepareStatement, Action.perform_bind, Action.perform_get, Action.perform_ofExcept,
    prepared_eq_ok known]
  rfl

section

variable (known : e.prepare s.sql db = .ok p)

include known

/-- A parameter that cannot be bound, whether it is no cell or the engine refuses it, is the end of
an execution, and neither the database nor the statement has changed. -/
theorem perform_execute_refused {refusal : Error} (refused : p.bind 1 params = .error refusal) :
    (e.execute params).perform (db, s) = (.error refusal, db, s) := by
  simp only [execute, Action.perform_bind, Action.perform_get, Action.perform_ofExcept,
    prepared_eq_ok known, refused]

/-- An execution of a query leaves the rows that the engine answered with to be fetched. -/
theorem perform_execute_query (yielding : p.columns ≠ []) (bound : p.bind 1 params = .ok cells)
    (answered : e.query s.sql cells db = (answer, after)) :
    (e.execute params).perform (db, s) =
      (answer.outcome, after, { s with pending := answer.rows }) := by
  have yields : p.columns.isEmpty = false := List.isEmpty_eq_false_iff.mpr yielding
  simp only [execute, Action.perform_bind, Action.perform_get, Action.perform_ofExcept,
    prepared_eq_ok known, bound, yields, Bool.false_eq_true, if_false, Action.perform_ofFunction,
    answered]

/-- A text that yields no rows leaves those to be fetched that the statement had before. -/
theorem perform_execute_run {outcome : Except String Nat} (silent : p.columns = [])
    (bound : p.bind 1 params = .ok cells) (ran : e.run s.sql cells db = (outcome, after)) :
    (e.execute params).perform (db, s) =
      (outcome.mapError (.ofBackend .execute), after, s) := by
  simp only [execute, Action.perform_bind, Action.perform_get, Action.perform_ofExcept,
    prepared_eq_ok known, bound, silent, List.isEmpty_nil, if_true, Action.perform_ofFunction, ran]

end

/-- A statement yields the rows that were copied for it, whatever database it is asked over. -/
theorem yields_pending (e : Engine δ) (db : δ) (s : Statement) :
    e.connector.Yields (db, s) (s.pending.map (Cell.row s.columns)) := by
  obtain ⟨sql, columns, pending⟩ := s
  induction pending with
  | nil => exact .exhausted rfl
  | cons cells rest ih => exact .row rfl ih

/-- The rows before a cursor whose statement is a query that has not been prepared yet are those
that the engine answers with, over the columns that it names. -/
theorem pending_of_query {tx : Transaction δ Statement} {h : Handle}
    (holds : tx.Holds h .created params (db, s)) (known : e.prepare s.sql db = .ok p)
    (yielding : p.columns ≠ []) (bound : p.bind 1 params = .ok cells)
    (answered : e.query s.sql cells db = (⟨rows, none⟩, after)) :
    tx.Pending e.connector h (rows.map (Cell.row p.columns)) := by
  let described : Statement := { s with columns := p.columns }
  have executed := perform_execute_query (s := described) known yielding bound answered
  have ready : e.connector.Readies params .created (db, s)
      (after, { described with pending := rows }) :=
    .created (perform_prepareStatement known) executed
  exact .waiting holds ready (yields_pending e after _)

end Engine

end ObjectMapping.Sqlite
