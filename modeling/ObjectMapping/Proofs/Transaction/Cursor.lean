import ObjectMapping.Proofs.Descriptor
import ObjectMapping.Proofs.Json.Matching
import ObjectMapping.Proofs.Transaction.GeneratedKey
import ObjectMapping.Proofs.Transaction.Tidy
import ObjectMapping.Transaction.Cursor

/-! A cursor delivers every row once. A call for the next row takes one of the rows that the
statement has before it and binds it, whether that succeeds or not, so as many calls leave the
others; and collecting them is one call after another. -/
namespace ObjectMapping

variable {σ ι : Type}

namespace Row

variable {row : Row} {d : Descriptor} {r : Record} {rows : List Row} {index : Nat}
  {columns : List String} {t after : BindTarget} {e : Error}

/-- What each column keeps that could be bound, a row keeps, whatever becomes of it. -/
theorem bindColumns_keeps {R : Record → Record → Prop} (refl : ∀ r, R r r)
    (trans : ∀ r s t, R r s → R s t → R r t)
    (each : ∀ name ∈ columns, ∀ f index r changed, d.fieldFolded? name = some f →
      row.bindColumn index f r = .ok changed → R r changed) :
    R t.record ((row.bindColumns d index columns).perform t).2.record := by
  induction columns generalizing index t with
  | nil => exact refl _
  | cons name columns ih =>
    have rest : ∀ u : BindTarget,
        R u.record ((row.bindColumns d (index + 1) columns).perform u).2.record :=
      fun u => ih fun name member => each name (List.mem_cons_of_mem _ member)
    rw [bindColumns]
    cases found : d.fieldFolded? name with
    | none => exact rest ⟨t.record, t.notices ++ [.unmatchedColumn name d.name]⟩
    | some f =>
      simp only [Action.perform_bind, Action.update, Action.perform_ofFunction]
      cases outcome : row.bindColumn index f t.record with
      | error => exact refl _
      | ok changed =>
        have first := each name List.mem_cons_self f index _ _ found outcome
        exact trans _ _ _ first (rest ⟨changed, t.notices⟩)

/-- A failure stops at its column, with the columns before it bound. -/
theorem bindColumns_error
    (failed : (row.bindColumns d index columns).perform t = (.error e, after)) :
    ∃ before name rest f, columns = before ++ name :: rest ∧
      (row.bindColumns d index before).perform t = (.ok (), after) ∧
      d.fieldFolded? name = some f ∧
        row.bindColumn (index + before.length) f after.record = .error e := by
  induction columns generalizing index t with
  | nil => cases failed
  | cons name columns ih =>
    rw [bindColumns] at failed
    cases found : d.fieldFolded? name with
    | none =>
      simp only [found, Action.perform_bind, Action.perform_modify] at failed
      obtain ⟨before, other, rest, f, rfl, passed, match_, fails⟩ := ih failed
      refine ⟨name :: before, other, rest, f, rfl, ?_, match_, ?_⟩
      · simpa only [bindColumns, found, Action.perform_bind, Action.perform_modify] using passed
      · rwa [List.length_cons, Nat.add_comm before.length, ← Nat.add_assoc]
    | some f =>
      simp only [found, Action.perform_bind, Action.update, Action.perform_ofFunction] at failed
      cases outcome : row.bindColumn index f t.record with
      | error cause =>
        simp only [outcome, Except.map] at failed
        obtain ⟨same, rfl⟩ := Prod.mk.inj failed
        obtain rfl := Except.error.inj same
        exact ⟨[], name, columns, f, rfl, rfl, found, outcome⟩
      | ok changed =>
        simp only [outcome, Except.map] at failed
        obtain ⟨before, other, rest, g, rfl, passed, match_, fails⟩ := ih failed
        refine ⟨name :: before, other, rest, g, rfl, ?_, match_, ?_⟩
        · simpa only [bindColumns, found, Action.perform_bind, Action.update,
            Action.perform_ofFunction, outcome, Except.map] using passed
        · rwa [List.length_cons, Nat.add_comm before.length, ← Nat.add_assoc]

theorem stopsAt (failed : row.outcome d r = .error e) : row.StopsAt d r e (row.onto d r) := by
  have ended : (row.bindColumns d 0 row.columns).perform ⟨r, []⟩ =
      (.error e, ((row.bind d).perform ⟨r, []⟩).2) := Prod.ext failed rfl
  obtain ⟨before, name, after, f, split, passed, found, fails⟩ := bindColumns_error ended
  rw [Nat.zero_add] at fails
  exact ⟨before, name, after, f, _, split, passed, found, fails⟩

theorem bindColumn_type (ok : row.bindColumn index f r = .ok changed) : changed.type = r.type := by
  obtain ⟨v, -, set⟩ := bind_eq_ok.mp ok
  obtain ⟨-, x, -, placed⟩ := Field.set_eq_ok set
  exact Record.set_type placed

theorem type_onto (d : Descriptor) (r : Record) (row : Row) : (row.onto d r).type = r.type :=
  bindColumns_keeps (R := fun r s => s.type = r.type) (fun _ => rfl)
    (fun _ _ _ first second => second.trans first) fun _ _ _ _ _ _ _ ok => bindColumn_type ok

/-- An embedded record is not bound. -/
theorem bindColumn_record {c : Catalogue} {g : Field} {inner : TypeName} (linked : g.Linked c)
    (record : g.shape = .record inner) : row.bindColumn index g r ≠ .ok changed := by
  intro ok
  have type : g.type = .object := by
    rcases linked.typed with same | ⟨-, number⟩
    · exact same.trans (congrArg Shape.type record)
    · rw [record] at number
      cases number
  have single : g.isNullable = false := by
    rw [Field.isNullable, record]
    rfl
  obtain ⟨v, read, -⟩ := bind_eq_ok.mp ok
  obtain ⟨null, -, read⟩ := bind_eq_ok.mp read
  rw [single, type] at read
  cases null <;> cases read

section

variable {c : Catalogue} {f g : Field}

/-- Binding a column changes no column field but those on its slot. -/
theorem get_bindColumn (sound : d.Sound c) (member : f ∈ d.columns) (other : g ∈ d.fields)
    (apart : g.path ≠ f.path) (ok : row.bindColumn index g r = .ok changed) :
    f.get changed = f.get r := by
  have outside : ¬g.path <+: f.path := by
    intro inside
    have listed := (List.mem_filter.mp member).1
    obtain ⟨inner, record⟩ := sound.record_of_prefix other listed apart inside
    exact bindColumn_record (sound.linked g other) record ok
  obtain ⟨v, -, set⟩ := bind_eq_ok.mp ok
  obtain ⟨-, x, -, placed⟩ := Field.set_eq_ok set
  have kept := Record.get_of_set_apart placed outside (sound.not_inside member other apart.symm)
  rw [Field.get, Field.get, Record.set_type placed, kept]

/-- A column field keeps its value, unless the row carries a column for its slot. -/
theorem get_onto (sound : d.Sound c) (member : f ∈ d.columns) (absent : ¬row.Carries d f.path)
    (r : Record) : f.get (row.onto d r) = f.get r := by
  refine bindColumns_keeps (R := fun r s => f.get s = f.get r) (fun _ => rfl)
    (fun _ _ _ first second => second.trans first) fun name carried g index r changed found ok => ?_
  refine get_bindColumn sound member (List.mem_of_find?_eq_some found) (fun same => ?_) ok
  exact absent ⟨name, carried, g, found, same⟩

end

end Row

namespace Transaction

variable {c : Connector σ ι} {tx : Transaction σ ι} {h : Handle} {params : List Value}
  {state : StatementState} {p q : σ × ι}

theorem lookup_change (tx : Transaction σ ι) (h : Handle) (f : OpenStatement ι → OpenStatement ι) :
    (tx.change h f).statements.lookup h = (tx.statements.lookup h).map f := by
  have found := tx.ledger.find_update h h f
  simp only [if_true] at found
  exact found

theorem Holds.change (holds : tx.Holds h state params p) (reached : StatementState) :
    (tx.change h fun s => { s with state := reached }).Holds h reached params p := by
  obtain ⟨connection, sql, there⟩ := holds
  exact ⟨connection, sql, by rw [lookup_change, there, Option.map_some]⟩

theorem Holds.found (holds : tx.Holds h state params p) :
    ∃ sql, (lookup h).perform tx = (.ok ⟨sql, state, params, p.2⟩, tx) := by
  obtain ⟨-, sql, there⟩ := holds
  exact ⟨sql, perform_lookup_some there⟩

/-- The connection acts on the statement that a step has looked up. -/
theorem Holds.onStatement (holds : tx.Holds h state params p) {act : Action (σ × ι) α}
    (ran : act.perform p = (.ok a, q)) :
    ∃ s : OpenStatement ι, (lookup h).perform tx = (.ok s, tx) ∧ s.state = state ∧
      s.params = params ∧ ∀ call outcome, ∃ next,
        (Transaction.onStatement h s call outcome act).perform tx = (.ok a, next) ∧
          next.Holds h state params q := by
  obtain ⟨sql, found⟩ := holds.found
  have held : (tx.connection, p.2) = p := Prod.ext holds.connection rfl
  refine ⟨_, found, rfl, rfl, fun call outcome => ?_⟩
  obtain ⟨text, there⟩ := holds.statement
  have kept := lookup_change { tx with connection := q.1 } h fun s => { s with statement := q.2 }
  simp only [Transaction.onStatement, Action.perform_ofFunction, held, ran]
  exact ⟨_, rfl, rfl, text, kept.trans (congrArg (Option.map _) there)⟩

theorem Holds.prepare (holds : tx.Holds h .created params p)
    (prepared : c.prepare.perform p = (.ok (), q)) :
    ∃ next, (Transaction.prepare c h).perform tx = (.ok (), next) ∧
      next.Holds h .prepared params q := by
  obtain ⟨s, found, created, -, acts⟩ := holds.onStatement prepared
  obtain ⟨next, act, held⟩ := acts (.prepare h s.sql) fun _ => .succeeded
  refine ⟨_, ?_, held.change .prepared⟩
  simp only [Transaction.prepare, Action.perform_bind, found, created, ne_eq, not_true_eq_false,
    if_false, act]
  rfl

theorem Holds.execute (holds : tx.Holds h .prepared params p)
    (executed : (c.execute params).perform p = (.ok affected, q)) :
    ∃ next, (Transaction.execute c h).perform tx = (.ok affected, next) ∧
      next.Holds h .executed params q := by
  obtain ⟨s, found, prepared, rfl, acts⟩ := holds.onStatement executed
  obtain ⟨next, act, held⟩ := acts (.execute h s.sql s.params) fun _ => .succeeded
  refine ⟨_, ?_, held.change .executed⟩
  simp only [Transaction.execute, Action.perform_bind, found, prepared, ne_eq, not_true_eq_false,
    if_false, act]
  rfl

theorem Holds.ensureExecuted (holds : tx.Holds h state params p)
    (ready : c.Readies params state p q) :
    ∃ next, (Transaction.ensureExecuted c h state).perform tx = (.ok (), next) ∧
      next.Holds h .executed params q := by
  cases ready with
  | created prepared executed =>
    obtain ⟨middle, first, held⟩ := holds.prepare prepared
    obtain ⟨next, second, held⟩ := held.execute executed
    refine ⟨next, ?_, held⟩
    simp only [Transaction.ensureExecuted, Action.perform_bind, first, second]
    rfl
  | prepared executed =>
    obtain ⟨next, run, held⟩ := holds.execute executed
    refine ⟨next, ?_, held⟩
    simp only [Transaction.ensureExecuted, Action.perform_bind, run]
    rfl
  | executed => exact ⟨tx, rfl, holds⟩

theorem Holds.nextRow (holds : tx.Holds h .executed params p)
    (fetched : c.fetch.perform p = (.ok row, q)) :
    ∃ next, (Transaction.nextRow c h).perform tx = (.ok row, next) ∧
      next.Holds h (if row.isNone then .done else .executed) params q := by
  obtain ⟨s, found, -, -, acts⟩ := holds.onStatement fetched
  obtain ⟨next, act, held⟩ :=
    acts (.fetch h s.sql) fun row => if row.isSome then .succeeded else .exhausted
  cases row with
  | none =>
    refine ⟨_, ?_, held.change .done⟩
    simp only [Transaction.nextRow, Action.perform_bind, found, act]
    rfl
  | some row =>
    refine ⟨next, ?_, held⟩
    simp only [Transaction.nextRow, Action.perform_bind, found, act]
    rfl

/-- What there is to tell of a row leaves the statement as it is. -/
theorem Holds.notices (holds : tx.Holds h state params p) (notices : List Notice) :
    ({ tx with notices := notices } : Transaction σ ι).Holds h state params p :=
  ⟨holds.connection, holds.statement⟩

variable {d : Descriptor} {r : Record} {row : Row} {rows : List Row}

/-- What a call comes to, for a statement that is ready to be asked for a row. -/
theorem fetchNext_ready (holds : tx.Holds h state params p) (ready : c.Readies params state p q)
    (fetched : c.fetch.perform q = (.ok found, t)) (fits : r.type = d.type) :
    ∃ next, next.Holds h (if found.isNone then .done else .executed) params t ∧
      (fetchNext c h d).perform (tx, r) =
        match found with
        | none => (.ok false, next, r)
        | some row => ((row.outcome d r).map fun _ => true, next, row.onto d r) := by
  obtain ⟨sql, look⟩ := holds.found
  obtain ⟨asked, ensured, held⟩ := holds.ensureExecuted ready
  obtain ⟨taken, row, held⟩ := held.nextRow fetched
  have unfinished : state ≠ .done := by
    cases ready <;> nofun
  have describes : d.describes r = true := beq_iff_eq.mpr fits
  cases found with
  | none =>
    refine ⟨taken, held, ?_⟩
    simp only [fetchNext, Action.perform_bind, Action.perform_get, describes, Bool.not_true,
      Bool.false_eq_true, if_false, Action.perform_onFirst, look, unfinished, ensured, row]
    rfl
  | some found =>
    refine ⟨{ taken with notices := taken.notices ++ ((found.bind d).perform ⟨r, []⟩).2.notices },
      held.notices _, ?_⟩
    simp only [fetchNext, Action.perform_bind, Action.perform_get, describes, Bool.not_true,
      Bool.false_eq_true, if_false, Action.perform_onFirst, look, unfinished, ensured, row, bindRow,
      Action.perform_ofFunction, Row.outcome, Row.onto]
    cases (found.bind d).perform ⟨r, []⟩ with
    | mk result target => cases result <;> rfl

/-- A call without a row before it reports that there is none and changes nothing. -/
theorem fetchNext_exhausted (pending : Pending c tx h []) (fits : r.type = d.type) :
    ∃ next, (fetchNext c h d).perform (tx, r) = (.ok false, next, r) ∧ Pending c next h [] := by
  cases pending with
  | waiting holds ready yields =>
    cases yields with
    | exhausted none =>
      obtain ⟨next, held, call⟩ := fetchNext_ready holds ready none fits
      exact ⟨next, call, .done held⟩
  | done holds =>
    obtain ⟨sql, look⟩ := holds.found
    have describes : d.describes r = true := beq_iff_eq.mpr fits
    refine ⟨tx, ?_, .done holds⟩
    simp only [fetchNext, Action.perform_bind, Action.perform_get, describes, Bool.not_true,
      Bool.false_eq_true, if_false, Action.perform_onFirst, look, if_true]
    rfl

/-- A call takes the first of the rows before it, whether it can be bound or not. -/
theorem fetchNext_row (pending : Pending c tx h (row :: rows)) (fits : r.type = d.type) :
    ∃ next, (fetchNext c h d).perform (tx, r) =
      ((row.outcome d r).map fun _ => true, next, row.onto d r) ∧ Pending c next h rows := by
  cases pending with
  | waiting holds ready yields =>
    cases yields with
    | row some others =>
      obtain ⟨next, held, call⟩ := fetchNext_ready holds ready some fits
      exact ⟨next, call, .waiting held .executed others⟩

end Transaction

namespace Row

variable {d : Descriptor} {r : Record} {rows : List Row}

theorem type_boundOnto (d : Descriptor) (r : Record) (rows : List Row) :
    (boundOnto d r rows).type = r.type := by
  induction rows generalizing r with
  | nil => rfl
  | cons row rows ih => exact (ih (row.onto d r)).trans (row.type_onto d r)

theorem boundOnto_append (d : Descriptor) (r : Record) (rows others : List Row) :
    boundOnto d r (rows ++ others) = boundOnto d (boundOnto d r rows) others := List.foldl_append

end Row

namespace Cursor

open Row (boundOnto)

variable {c : Connector σ ι} {tx : Transaction σ ι} {k : Cursor} {r : Record} {rows : List Row}
  {limit m : Nat} {result : Except Error (List Record)} {last : Record}

/-- As many calls leave the rows after as many, with those before them bound. -/
theorem advanced_pending (pending : tx.Pending c k.handle rows) (fits : r.type = k.descriptor.type)
    (m : Nat) : ∃ next, k.advanced c m (tx, r) = (next, boundOnto k.descriptor r (rows.take m)) ∧
      next.Pending c k.handle (rows.drop m) := by
  induction m with
  | zero => exact ⟨tx, rfl, pending⟩
  | succ m ih =>
    obtain ⟨next, reached, left⟩ := ih
    have still := (Row.type_boundOnto k.descriptor r (rows.take m)).trans fits
    rw [advanced, reached, fetchNext]
    cases more : rows.drop m with
    | nil =>
      obtain ⟨last, call, none⟩ := Transaction.fetchNext_exhausted (more ▸ left) still
      have short := List.drop_eq_nil_iff.mp more
      refine ⟨last, ?_, by rwa [List.drop_eq_nil_of_le (Nat.le_succ_of_le short)]⟩
      rw [call, List.take_of_length_le short, List.take_of_length_le (Nat.le_succ_of_le short)]
    | cons row rest =>
      obtain ⟨last, call, others⟩ := Transaction.fetchNext_row (more ▸ left) still
      have here : rows[m]? = some row := by
        rw [← List.head?_drop, more]
        rfl
      refine ⟨last, ?_, by rwa [← List.drop_drop, more]⟩
      rw [call, List.take_add_one, here, Row.boundOnto_append]
      rfl

section

variable {d : Descriptor} {row : Row} {e : Error}

theorem Delivers.nil (d : Descriptor) (r : Record) : Delivers d r [] 0 (.ok []) r :=
  ⟨fun _ => ⟨rfl, rfl⟩, nofun⟩

/-- A row that cannot be bound is the last one. -/
theorem Delivers.stop (failed : row.outcome d r = .error e) :
    Delivers d r (row :: rows) 0 (.error e) (row.onto d r) where
  every each := by
    have ok : row.outcome d r = .ok () := each 0 row (Nat.le_refl 0) rfl
    cases failed.symm.trans ok
  failure j other cause _ here earlier fails := by
    cases j with
    | zero =>
      obtain rfl := Option.some.inj here
      obtain rfl := Except.error.inj (failed.symm.trans fails)
      exact ⟨rfl, rfl, Row.stopsAt failed⟩
    | succ j =>
      have ok : row.outcome d r = .ok () := earlier 0 row (Nat.le_refl 0) (Nat.succ_pos j) rfl
      cases failed.symm.trans ok

/-- A row that can be bound comes before what is delivered from the record with the row. -/
theorem Delivers.cons (bound : row.outcome d r = .ok ())
    (delivers : Delivers d (row.onto d r) rows 0 result last) :
    Delivers d r (row :: rows) 0 (result.map (row.onto d r :: ·)) last where
  every each := by
    obtain ⟨rfl, rfl⟩ := delivers.every fun i other _ here =>
      each (i + 1) other (Nat.zero_le _) here
    refine ⟨congrArg Except.ok ?_, rfl⟩
    rw [Nat.sub_zero, Nat.sub_zero, List.length_cons, List.range_succ_eq_map, List.map_cons,
      List.map_map]
    refine congrArg₂ List.cons rfl (List.map_congr_left fun i _ => ?_)
    simp only [Function.comp_apply, Nat.zero_add]
    rfl
  failure j other cause _ here earlier fails := by
    cases j with
    | zero =>
      obtain rfl := Option.some.inj here
      cases fails.symm.trans bound
    | succ j =>
      obtain ⟨rfl, rest⟩ := delivers.failure j other cause (Nat.zero_le j) here
        (fun i before _ less there =>
          earlier (i + 1) before (Nat.zero_le _) (Nat.succ_lt_succ less) there) fails
      exact ⟨rfl, rest⟩

/-- Delivery of what is left is delivery of the rows but the first ones. -/
theorem Delivers.of_drop
    (delivers : Delivers d (boundOnto d r (rows.take m)) (rows.drop m) 0 result last) :
    Delivers d r rows m result last := by
  have bound : ∀ i, boundOnto d (boundOnto d r (rows.take m)) ((rows.drop m).take i) =
      boundOnto d r (rows.take (m + i)) := by
    intro i
    rw [List.take_add, Row.boundOnto_append]
  obtain ⟨every, failure⟩ := delivers
  simp only [bound, List.getElem?_drop, List.length_drop, Nat.sub_zero, Nat.zero_le, true_implies]
    at every failure
  constructor
  · intro each
    obtain ⟨ok, same⟩ := every fun i row here => each (m + i) row (Nat.le_add_right m i) here
    refine ⟨by simpa [Nat.add_assoc] using ok, ?_⟩
    rw [same, ← Row.boundOnto_append, List.take_append_drop]
  · intro j row e late here earlier fails
    obtain ⟨n, rfl⟩ := Nat.exists_eq_add_of_le late
    exact failure n row e here (fun i before less there =>
      earlier (m + i) before (Nat.le_add_right m i) (Nat.add_lt_add_left less m) there) fails

end

/-- Collecting is one call after another, until there is no row left or one cannot be bound. -/
theorem collect_delivers (pending : tx.Pending c k.handle rows) (fits : r.type = k.descriptor.type)
    (enough : rows.length < limit) :
    ∃ result next last, (k.collect c limit).perform (tx, r) = (result, next, last) ∧
      Delivers k.descriptor r rows 0 result last := by
  induction rows generalizing tx r limit with
  | nil =>
    obtain ⟨limit, rfl⟩ := Nat.exists_eq_succ_of_ne_zero (Nat.ne_of_gt enough)
    obtain ⟨next, call, -⟩ := Transaction.fetchNext_exhausted pending fits
    refine ⟨.ok [], next, r, ?_, .nil k.descriptor r⟩
    simp only [collect, fetchNext, Action.perform_bind, call]
    rfl
  | cons row rows ih =>
    obtain ⟨limit, rfl⟩ := Nat.exists_eq_succ_of_ne_zero (Nat.ne_of_gt (Nat.zero_lt_of_lt enough))
    obtain ⟨next, call, left⟩ := Transaction.fetchNext_row pending fits
    cases bound : row.outcome k.descriptor r with
    | error e =>
      rw [bound] at call
      refine ⟨.error e, next, row.onto k.descriptor r, ?_, .stop bound⟩
      simp only [collect, fetchNext, Action.perform_bind, call]
      rfl
    | ok =>
      rw [bound] at call
      obtain ⟨result, after, last, collected, delivers⟩ :=
        ih left ((row.type_onto k.descriptor r).trans fits) (Nat.lt_of_succ_lt_succ enough)
      refine ⟨result.map (row.onto k.descriptor r :: ·), after, last, ?_, delivers.cons bound⟩
      simp only [collect, fetchNext, Action.perform_bind, call, Except.map, if_true,
        Action.perform_get, collected]
      cases result <;> rfl

/-- However it ends, the statement is closed. -/
theorem fetchAll_closed (k : Cursor) (c : Connector σ ι) (limit : Nat)
    (p : Transaction σ ι × Record) :
    ((k.fetchAll c limit).perform p).2.1.statements.lookup k.handle = none := by
  have closed := Transaction.close_ledger c k.handle ((k.collect c limit).perform p).2.1
  have removed :=
    Ledger.find_remove ((k.collect c limit).perform p).2.1.ledger k.handle k.handle
  rw [← closed, if_pos rfl] at removed
  exact removed

/-- What a call comes to after as many others. -/
theorem fetchNext_advanced (pending : tx.Pending c k.handle rows)
    (fits : r.type = k.descriptor.type) (m : Nat) :
    ((k.fetchNext c).perform (k.advanced c m (tx, r))).1 =
      match rows[m]? with
      | some row =>
        (row.outcome k.descriptor (boundOnto k.descriptor r (rows.take m))).map fun _ => true
      | none => .ok false := by
  obtain ⟨next, reached, left⟩ := advanced_pending pending fits m
  have still := (Row.type_boundOnto k.descriptor r (rows.take m)).trans fits
  rw [reached, fetchNext, ← List.head?_drop]
  cases more : rows.drop m with
  | nil =>
    obtain ⟨last, call, -⟩ := Transaction.fetchNext_exhausted (more ▸ left) still
    rw [call]
    rfl
  | cons row rest =>
    obtain ⟨last, call, -⟩ := Transaction.fetchNext_row (more ▸ left) still
    rw [call]
    rfl

/-- Collecting goes on where the calls have come to. -/
theorem fetchAll_advanced (pending : tx.Pending c k.handle rows)
    (fits : r.type = k.descriptor.type) (enough : rows.length - m < limit) :
    Delivers k.descriptor r rows m ((k.fetchAll c limit).perform (k.advanced c m (tx, r))).1
      ((k.fetchAll c limit).perform (k.advanced c m (tx, r))).2.2 := by
  obtain ⟨next, reached, left⟩ := advanced_pending pending fits m
  have still := (Row.type_boundOnto k.descriptor r (rows.take m)).trans fits
  obtain ⟨result, after, last, collected, delivers⟩ :=
    collect_delivers left still (by rwa [List.length_drop])
  rw [fetchAll, Action.perform_andFinally, reached, collected]
  exact delivers.of_drop

/-- A cursor delivers every row once. Each call takes the next row and binds it onto the record,
which held the rows before it, and collecting goes on where the calls have come to. In the end the
statement is closed. A column keeps its value, unless a row carries a column for its slot. -/
theorem fetchAll_delivers {catalogue : Catalogue} (built : k.descriptor.Built catalogue)
    (pending : tx.Pending c k.handle rows) (fits : r.type = k.descriptor.type)
    (enough : rows.length - m < limit) :
    (∀ j, ((k.fetchNext c).perform (k.advanced c j (tx, r))).1 =
        match rows[j]? with
        | some row =>
          (row.outcome k.descriptor (boundOnto k.descriptor r (rows.take j))).map fun _ => true
        | none => .ok false) ∧
      (let ended := (k.fetchAll c limit).perform (k.advanced c m (tx, r))
      Delivers k.descriptor r rows m ended.1 ended.2.2 ∧
        ended.2.1.statements.lookup k.handle = none) ∧
      ∀ (row : Row) (f : Field), f ∈ k.descriptor.columns → ¬row.Carries k.descriptor f.path →
        ∀ held, f.get (row.onto k.descriptor held) = f.get held :=
  ⟨fetchNext_advanced pending fits,
    ⟨fetchAll_advanced pending fits enough, fetchAll_closed k c limit _⟩,
    fun _ _ member absent held => Row.get_onto built.sound member absent held⟩

namespace Seats

open Insert.Seats (connector hall number seat catalogue)

/-- The rows of a query for one column. -/
def cells (numbers : List UInt64) : List (List Scripted.Cell) :=
  numbers.map fun number => [.value (.uint64 number)]

def answers (column : String) (numbers : List UInt64) : List Row :=
  (cells numbers).map (Scripted.Cell.row [column])

def script (column : String) (numbers : List UInt64) : Scripted.Script :=
  ⟨[column], cells numbers, 0, 0, []⟩

/-- A transaction with a query that has not run yet. -/
def opened (column : String) (numbers : List UInt64) :
    Transaction Scripted.Script Scripted.Statement :=
  ((Transaction.create connector .select "SELECT").perform
    (Transaction.new (script column numbers))).2

/-- The cursor of the query. -/
def cursor : Cursor := ⟨⟨1, .select⟩, Insert.Seats.descriptor false⟩

theorem pending_opened (column : String) (numbers : List UInt64) :
    (opened column numbers).Pending connector cursor.handle (answers column numbers) := by
  have ready : connector.Readies [] .created (script column numbers, ⟨[column], []⟩)
      (script column numbers, ⟨[column], cells numbers⟩) :=
    .created (q := (script column numbers, ⟨[column], []⟩)) rfl rfl
  have yields : ∀ left, connector.Yields (script column numbers, ⟨[column], left⟩)
      (left.map (Scripted.Cell.row [column])) := by
    intro left
    induction left with
    | nil => exact .exhausted rfl
    | cons row left ih => exact .row rfl ih
  exact .waiting ⟨rfl, _, rfl⟩ ready (yields (cells numbers))

/-- Another field for the hall. -/
def room : Field := Field.ofSlot catalogue "Seat" hall "room"

/-- The cursor of a query for seats of which the hall goes by two names. -/
def aliased : Cursor :=
  ⟨⟨1, .select⟩, ⟨"Seat", "Seat", "Seat", none, [Insert.Seats.hallField false, room], 0, seat 0 0⟩⟩

theorem built_aliased : aliased.descriptor.Built catalogue := by
  have known : catalogue.type? Insert.Seats.recordType.name = some Insert.Seats.recordType := rfl
  have hasHall : Insert.Seats.recordType.slot? hall.name = some hall := rfl
  have first : (Insert.Seats.hallField false).Declared catalogue :=
    .primaryKey (.slot known hasHall 0 "hall") false
  have formed := ((Descriptor.Draft.Formed.draft known "Seat").field first).field
    (.slot known hasHall 0 "room")
  exact .build formed rfl

end Seats

open Insert.Seats Seats in
/-- Where a call has taken the first of two rows, the other one is collected. -/
theorem fetchAll_delivers_seats :
    cursor.descriptor.Built catalogue ∧
      (opened "number" [5, 6]).Pending connector cursor.handle (answers "number" [5, 6]) ∧
      (let ended := (cursor.fetchAll connector 2).perform
        (cursor.advanced connector 1 (opened "number" [5, 6], seat 3 0))
      ended.1 = .ok [seat 3 6] ∧ ended.2.2 = seat 3 6 ∧
        ended.2.1.statements.lookup cursor.handle = none) := by
  have enough : (answers "number" [5, 6]).length - 1 < 2 := Nat.one_lt_two
  obtain ⟨-, ⟨delivers, closed⟩, -⟩ := fetchAll_delivers (k := cursor) (r := seat 3 0)
    (built_descriptor false) (pending_opened "number" [5, 6]) rfl enough
  obtain ⟨collected, last⟩ := delivers.every fun i row late here => by
    match i, late with
    | 1, _ =>
      obtain rfl := Option.some.inj here
      rfl
    | _ + 2, _ => cases here
  exact ⟨built_descriptor false, pending_opened _ _, collected, last, closed⟩

open Insert.Seats Seats in
/-- A row that carries the hall changes what is read by its other name, for which there is no
column. -/
theorem fetchAll_changes_alias :
    aliased.descriptor.Built catalogue ∧ (seat 5 0).Instance catalogue ∧
      (opened "hall" [7]).Pending connector aliased.handle (answers "hall" [7]) ∧
      room ∈ aliased.descriptor.columns ∧
      (∀ row ∈ answers "hall" [7], ∀ name ∈ row.columns,
        (aliased.descriptor.fieldFolded? name).map Field.name ≠ some room.name) ∧
      ∃ r, ((aliased.fetchAll connector 2).perform (opened "hall" [7], seat 5 0)).1 = .ok [r] ∧
        room.get (seat 5 0) = .ok (.uint64 5) ∧ room.get r = .ok (.uint64 7) := by
  refine ⟨built_aliased, instance_seat 5 0, pending_opened _ _, ?_, ?_, seat 7 0, rfl, rfl, rfl⟩
  · exact List.mem_cons_of_mem _ List.mem_cons_self
  · exact List.forall_mem_singleton.mpr (List.forall_mem_singleton.mpr (by decide))

end Cursor

end ObjectMapping
