import ObjectMapping.Proofs.Sql.Balance
import ObjectMapping.Proofs.Sql.Parameters
import ObjectMapping.Proofs.Statement.Changes
import ObjectMapping.Proofs.Transaction.GeneratedKey
import Mathlib.Data.List.Nodup

/-! What restricts a statement to the row of a key: the `WHERE` clause joins its filter, which
cannot leave its parentheses, and the equation of one field of the key. -/
namespace ObjectMapping

open Sql (Lexes Token closes enclosed equation partsFrom parts placed placeholders)

namespace Sql

/-- The condition of a keyed statement, with its filter before the equation of the key. -/
def guarded (filter : Option (List Token)) (guard : List Token) : List Token :=
  match filter with
  | some inside => .sign "(" :: (inside ++ .sign ")" :: .word "AND" :: guard)
  | none => guard

variable {filter : Option (List Token)} {dialect : Dialect} {table column : String} {bound : Nat}

theorem partsFrom_equation (word : String) :
    partsFrom word 0 (equation dialect table column bound) =
      [equation dialect table column bound] := by
  simp [equation, partsFrom, Token.deepen]

theorem closes_equation : closes 0 (equation dialect table column bound) := by
  simp [equation, closes]

theorem closes_guarded (balanced : ∀ inside ∈ filter, closes 0 inside) (guard : closes 0 ts) :
    closes 0 (guarded filter ts) := by
  cases filter with
  | none => exact guard
  | some inside =>
    have skipped := closes_closed 1 inside (.sign ")" :: .word "AND" :: ts) (balanced inside rfl)
    simpa [guarded, closes, skipped] using guard

/-- No alternative leads around the equation. -/
theorem parts_or_guarded (balanced : ∀ inside ∈ filter, closes 0 inside) :
    parts "OR" (guarded filter (equation dialect table column bound)) =
      [guarded filter (equation dialect table column bound)] := by
  cases filter with
  | none => exact partsFrom_equation "OR"
  | some inside =>
    rw [guarded, parts, partsFrom_enclosed "OR" inside _ (balanced inside rfl), partsFrom]
    simp [Token.deepen, partsFrom_equation]

theorem parts_and_guarded (balanced : ∀ inside ∈ filter, closes 0 inside) :
    parts "AND" (guarded filter (equation dialect table column bound)) =
      (filter.map enclosed).toList ++ [equation dialect table column bound] := by
  cases filter with
  | none => exact partsFrom_equation "AND"
  | some inside =>
    rw [guarded, parts, partsFrom_enclosed "AND" inside _ (balanced inside rfl), partsFrom]
    simp [partsFrom_equation, enclosed]

theorem placeholders_enclosed (ts : List Token) : placeholders (enclosed ts) = placeholders ts := by
  have inside := placeholders_separated (t := .sign ")") rfl ts []
  rw [placeholders_nil, List.append_nil] at inside
  exact inside

/-- The condition holds if the filter does and the equation, before which nothing is bound. -/
theorem selects_guarded {holds : Nat → List Token → Prop}
    (balanced : ∀ inside ∈ filter, closes 0 inside)
    (plain : ∀ inside ∈ filter, placeholders inside = []) :
    Selects holds bound (guarded filter (equation dialect table column bound)) ↔
      (∀ inside ∈ filter, holds bound (enclosed inside)) ∧
        holds bound (equation dialect table column bound) := by
  rw [Selects, parts_or_guarded balanced]
  simp only [placed, List.mem_singleton, exists_eq_left, parts_and_guarded balanced]
  cases filter with
  | none => simp [placed]
  | some inside =>
    simp [placed, placeholders_enclosed, plain inside rfl]

/-- The weakest meaning of the conditions in which the equations are what they are. -/
def tolerant (dialect : Dialect) (table : String) (params : List Value) (row : String → Value)
    (bound : Nat) (ts : List Token) : Prop :=
  ∀ column v, ts = equation dialect table column bound → params[bound]? = some v → row column = v

theorem equates_tolerant (dialect : Dialect) (table : String) (params : List Value)
    (row : String → Value) :
    Equates dialect table params row (tolerant dialect table params row) :=
  fun _ column v held found => held column v rfl found

/-- In that meaning the equation is all there is to the condition. -/
theorem selects_tolerant {row : String → Value} (balanced : ∀ inside ∈ filter, closes 0 inside)
    (plain : ∀ inside ∈ filter, placeholders inside = []) (value : params[bound]? = some v)
    (agrees : row column = v) :
    Selects (tolerant dialect table params row) bound
      (guarded filter (equation dialect table column bound)) := by
  refine (selects_guarded balanced plain).mpr ⟨?_, ?_⟩
  · rintro inside - other w same
    cases (List.cons.inj same).1
  · intro other w same found
    obtain rfl : column = other := by simpa [equation] using same
    obtain rfl := Option.some.inj (value.symm.trans found)
    exact agrees

end Sql

theorem intercalate_and (text k : String) :
    " AND ".intercalate ["(" ++ text ++ ")", k] = "(" ++ text ++ ") AND " ++ k := by
  have closed : ") AND " = ")" ++ " AND " := by decide +kernel
  simp only [closed, String.intercalate_cons_cons, String.intercalate_singleton,
    String.append_assoc]

/-- The parts of the clause of a keyed statement. -/
theorem whereClause_keyed (ok : whereClause dialect target filter true bound = .ok clause) :
    ∃ condition key v, filter.mapM dialect.compile = .ok condition ∧
      target.descriptor.primaryKey? = some key ∧ key.get target.record = .ok v ∧
      clause.params = bound ++ [v] ∧
      clause.sql = " WHERE " ++ " AND ".intercalate
        ((condition.map fun text => "(" ++ text ++ ")").toList ++
          [keyCondition dialect target.descriptor key (bound.length + 1)]) := by
  obtain ⟨condition, compiled, ok⟩ := bind_eq_ok.mp ok
  obtain ⟨key, found, ok⟩ := bind_eq_ok.mp ok
  obtain ⟨v, value, ok⟩ := bind_eq_ok.mp ok
  obtain rfl := Except.ok.inj ok
  have flagged : target.descriptor.primaryKey? = some key := by
    unfold keyField at found
    split at found
    · exact Except.ok.inj found ▸ by assumption
    · cases found
  refine ⟨condition, key, v, compiled, flagged, value, rfl, ?_⟩
  cases condition with
  | none => simp
  | some text =>
    have opened : " WHERE (" = " WHERE " ++ "(" := by decide +kernel
    rw [Option.map_some, Option.toList_some, List.singleton_append, intercalate_and, opened]
    simp only [String.append_assoc]

/-- What a filter is read as. -/
theorem compiled_filter {filter : Option Expr} (constructed : ∀ e ∈ filter, e.Constructed)
    (compiled : filter.mapM dialect.compile = .ok condition) :
    ∃ inside : Option (List Token),
      Option.Rel (fun text ts => Lexes dialect text.toList ts) condition inside ∧
      (∀ ts ∈ inside, closes 0 ts) ∧ ∀ ts ∈ inside, placeholders ts = [] := by
  cases filter with
  | none =>
    obtain rfl := Except.ok.inj compiled
    exact ⟨none, .none, by simp, by simp⟩
  | some e =>
    obtain ⟨text, rendered, same⟩ := bind_eq_ok.mp compiled
    obtain rfl := Except.ok.inj same
    have read := e.spells_layout (constructed e rfl).formed rendered
    refine ⟨some _, .some read, ?_, ?_⟩
    · rintro ts ⟨⟩
      exact Sql.Term.closed _
    · rintro ts ⟨⟩
      exact e.placeholders_layout _

theorem lexes_keyCondition (dialect : Dialect) (d : Descriptor) (key : Field) (bound : Nat) :
    Lexes dialect (keyCondition dialect d key (bound + 1)).toList
      (equation dialect d.table key.name bound) :=
  (dialect.lexes_qualified d.table key.name).equation (dialect.lexes_placeholder (bound + 1))

theorem lexes_guarded (read : Option.Rel (fun text ts => Lexes dialect text.toList ts) condition inside)
    (guard : Lexes dialect k.toList ts) :
    Lexes dialect (" AND ".intercalate
      ((condition.map fun text => "(" ++ text ++ ")").toList ++ [k])).toList
      (Sql.guarded inside ts) := by
  cases read with
  | none => simpa [Sql.guarded] using guard
  | some read =>
    have word : Lexes dialect "AND".toList [.word "AND"] := .wordText (by decide)
    have whole := read.paren (word.spaced guard).blank
    have first : "(".toList = ['('] := rfl
    have last : ")".toList = [')'] := rfl
    have middle : " AND ".toList = ' ' :: ("AND".toList ++ [' ']) := by decide +kernel
    simpa [Sql.guarded, first, last, middle] using whole

/-- A statement with a `WHERE` clause is read as what stands before it and its condition. -/
theorem BoundStatement.Reads.restricted {s : BoundStatement}
    (whole : s.sql = start ++ (" WHERE " ++ text)) (readStart : Lexes dialect start.toList before)
    (readText : Lexes dialect text.toList condition) : s.Reads dialect before condition := by
  refine ⟨start, text, whole, readStart, readText, ?_⟩
  rw [whole]
  exact readStart.restrict readText

variable {filters : List Expr} {filter : Option Expr}

/-- A chain of filters is a filter. -/
theorem addFilter_some (filter : Option Expr) (filtered : filters ≠ []) :
    ∃ e, filters.foldl addFilter filter = some e := by
  obtain ⟨first, last, rfl⟩ := List.eq_nil_or_concat filters |>.resolve_left filtered
  rw [List.concat_eq_append, List.foldl_append]
  exact ⟨_, rfl⟩

namespace Descriptor

variable {d : Descriptor} {key : Field}

theorem primaryKey_mem (flagged : d.primaryKey? = some key) : key ∈ d.keys :=
  List.mem_filter.mpr ⟨List.mem_of_find?_eq_some flagged, List.find?_some flagged⟩

theorem singleKey_iff (flagged : d.primaryKey? = some key) :
    d.SingleKey ↔ ∀ f ∈ d.keys, f = key := by
  simp only [SingleKey, flagged, Option.some.injEq, eq_comm]

/-- If whatever other columns hold is what the record holds in the other fields of the key, there
are none. -/
theorem singleKey_of_free {c : Catalogue} (built : d.Built c) (flagged : d.primaryKey? = some key)
    (free : ∀ w, ∀ f ∈ d.keys, f.get r = .ok (if f.name = key.name then v else w)) :
    d.SingleKey := by
  refine (singleKey_iff flagged).mpr fun f member => ?_
  by_cases same : f.name = key.name
  · have listed : ∀ g ∈ d.keys, g ∈ d.fields := fun g member => (List.mem_filter.mp member).1
    exact List.inj_on_of_nodup_map built.sound.distinct (listed f member)
      (listed key (primaryKey_mem flagged)) same
  · have null := free .null f member
    have one := free (.bool true) f member
    rw [if_neg same] at null one
    cases null.symm.trans one

end Descriptor

/-- What a condition is written with is in the text that it is joined to. -/
theorem mem_intercalate {texts : List String} (member : text ∈ texts) (written : c ∈ text.toList) :
    c ∈ (" AND ".intercalate texts).toList := by
  induction texts with
  | nil => cases member
  | cons first texts ih =>
    cases texts with
    | nil =>
      obtain rfl := List.mem_singleton.mp member
      simpa using written
    | cons second texts =>
      rw [String.intercalate_cons_cons, String.toList_append]
      rcases List.mem_cons.mp member with rfl | later
      · exact List.mem_append_left _ (by simp [written])
      · exact List.mem_append_right _ (ih later)

namespace Keyed

/-- A keyed statement ends with its `WHERE` clause, whose placeholders come after those of the
assignments. -/
theorem clause (keyed : Keyed dialect target sets filter s) :
    ∃ start bound clause, whereClause dialect target filter true bound = .ok clause ∧
      s = ⟨start ++ clause.sql, clause.params⟩ ∧
      ((∀ a ∈ sets, ∀ e, a.value = .expr e → e.Constructed) → ∃ before : List Token,
        Lexes dialect start.toList before ∧ (placeholders before).length = bound.length) := by
  have counted : ∀ {text fields vs}, Binds dialect target.record 0 text fields vs →
      ∃ before, Lexes dialect text.toList before ∧ (placeholders before).length = vs.length := by
    rintro text fields vs ⟨before, read, fills⟩
    exact ⟨before, read, by simp [fills.placeholders]⟩
  cases keyed with
  | update ok =>
    unfold Update.bind at ok
    split at ok
    · cases ok
    obtain ⟨⟨texts, bound⟩, assigned, ok⟩ := bind_eq_ok.mp ok
    obtain ⟨clause, restricted, ok⟩ := bind_eq_ok.mp ok
    obtain rfl := Except.ok.inj ok
    refine ⟨_, bound, clause, restricted, rfl, fun constructed => ?_⟩
    obtain ⟨vs, rfl, binds⟩ := Update.setTexts_binds constructed assigned
    exact counted (binds.assigned target.descriptor.table)
  | delete ok =>
    obtain ⟨clause, restricted, ok⟩ := bind_eq_ok.mp ok
    obtain rfl := Except.ok.inj ok
    exact ⟨_, [], clause, restricted, rfl, fun _ => counted (.deleted dialect _ _)⟩

/-- A filter, or a chain of them, cannot leave the parentheses that it stands in, and the equation
of the key is joined with it outside of all parentheses. -/
theorem filter_guarded (filtered : filters ≠ []) (constructed : ∀ e ∈ filters, e.Constructed)
    (keyed : Keyed dialect target sets (filters.foldl addFilter none) s) :
    ∃ e text key start clause bound inside condition,
      filters.foldl addFilter none = some e ∧ dialect.compile e = .ok text ∧
      target.descriptor.primaryKey? = some key ∧
      s.sql = start ++ (" WHERE " ++ clause) ∧ s.params.length = bound + 1 ∧
      clause = "(" ++ text ++ ") AND " ++ keyCondition dialect target.descriptor key (bound + 1) ∧
      Sql.tokens dialect text = some inside ∧ Sql.tokens dialect clause = some condition ∧
      Sql.Guards inside (equation dialect target.descriptor.table key.name bound) condition := by
  obtain ⟨e, chained⟩ := addFilter_some none filtered
  have formed : ∀ e ∈ filters.foldl addFilter none, e.Constructed :=
    constructed_addFilter constructed (by simp)
  obtain ⟨start, bound, clause, restricted, rfl, -⟩ := keyed.clause
  obtain ⟨condition, key, v, compiled, flagged, -, params, sql⟩ := whereClause_keyed restricted
  obtain ⟨inside, read, balanced, -⟩ := compiled_filter formed compiled
  rw [chained] at compiled
  obtain ⟨text, rendered, same⟩ := bind_eq_ok.mp compiled
  obtain rfl := Except.ok.inj same
  obtain ⟨inside, rfl⟩ : ∃ ts, inside = some ts := by
    cases read
    exact ⟨_, rfl⟩
  have guard := lexes_keyCondition dialect target.descriptor key bound.length
  have whole := lexes_guarded read guard
  have guards : Sql.Guards inside (equation dialect target.descriptor.table key.name bound.length)
      (Sql.guarded inside (equation dialect target.descriptor.table key.name bound.length)) :=
    ⟨balanced inside rfl, Sql.closes_guarded balanced Sql.closes_equation,
      Sql.parts_or_guarded balanced, Sql.parts_and_guarded balanced⟩
  refine ⟨e, text, key, start, _, bound.length, inside, _, chained, rendered, flagged, ?_, ?_,
    intercalate_and text _, ?_, whole, guards⟩
  · rw [sql]
    rfl
  · rw [params, List.length_append, List.length_singleton]
  · cases read
    assumption

open Insert.Seats in
/-- A condition with an alternative, in which a text pretends to end what it stands in. -/
def escape : Expr :=
  .combine .or (.relational .gt (.column ⟨descriptor false, hallField false⟩) (.constant (.uint64 1)))
    (.relational .ne (.constant (.string "') OR ('")) .null)

theorem escape_constructed : escape.Constructed :=
  .combine .or (.relational .gt (.column _) (.constant _)) (.relational .ne (.constant _) .null)

open Insert.Seats in
theorem filter_guarded_hostile :
    ∃ s start clause inside condition,
      Keyed .sqlite ⟨seat 5 7, descriptor false⟩ [] (some escape) s ∧
      s.sql = "DELETE FROM \"Seat\" WHERE ((\"Seat\".\"hall\" > 1) OR (''') OR (''' IS NOT NULL)) AND " ++
        "\"Seat\".\"number\" = ?1" ∧
      s.sql = start ++ (" WHERE " ++ clause) ∧ Sql.tokens .sqlite clause = some condition ∧
      Sql.Guards inside (equation .sqlite "Seat" "number" 0) condition := by
  have ok : (Delete.made ⟨seat 5 7, descriptor false⟩ [.filter escape, .byKey]).bind .sqlite =
      .ok ⟨_, [.uint64 7]⟩ := rfl
  have keyed : Keyed .sqlite ⟨seat 5 7, descriptor false⟩ [] ([escape].foldl addFilter none)
      ⟨_, [.uint64 7]⟩ := Delete.keyed_of_calls (List.mem_cons_of_mem _ List.mem_cons_self) ok
  obtain ⟨e, text, key, start, clause, bound, inside, condition, -, -, flagged, whole, count, -, -,
    read, guards⟩ := filter_guarded (List.cons_ne_nil _ _)
      (List.forall_mem_singleton.mpr escape_constructed) keyed
  obtain rfl : numberField = key := Option.some.inj flagged
  obtain rfl : 0 = bound := Nat.succ.inj count
  exact ⟨_, start, clause, inside, condition, keyed, by decide +kernel, whole, read, guards⟩

/-- The statement is restricted to the rows of the record's key, with an equation of every field of
the key, if the key is a single field; and in no other case it keeps to these rows. -/
theorem keeps_to_key {c : Catalogue} {d : Descriptor} {r : Record} (built : d.Built c)
    (keyed : Keyed dialect ⟨r, d⟩ sets filter s) :
    (d.SingleKey → ∀ f ∈ d.keys, ∃ v, f.get r = .ok v ∧ s.Equates dialect d f v) ∧
      ((∀ a ∈ sets, ∀ e, a.value = .expr e → e.Constructed) → (∀ e ∈ filter, e.Constructed) →
        ∃ before condition, s.Reads dialect before condition ∧
          (d.SingleKey ↔ ∀ row holds, Sql.Equates dialect d.table s.params row holds →
            Sql.Selects holds (placeholders before).length condition →
              ∀ f ∈ d.keys, f.get r = .ok (row f.name))) := by
  obtain ⟨start, bound, clause, restricted, rfl, counted⟩ := keyed.clause
  obtain ⟨condition, key, v, compiled, flagged, value, params, sql⟩ := whereClause_keyed restricted
  have last : clause.params[bound.length]? = some v := by simp [params]
  refine ⟨fun single f member => ?_, fun assigned constructed => ?_⟩
  · obtain rfl := (Descriptor.singleKey_iff flagged).mp single f member
    refine ⟨v, value, start, _, bound.length, congrArg (start ++ ·) sql, ?_, last⟩
    exact List.mem_append_right _ (List.mem_singleton_self _)
  obtain ⟨before, readStart, count⟩ := counted assigned
  obtain ⟨inside, readFilter, balanced, plain⟩ := compiled_filter constructed compiled
  have guard := lexes_keyCondition dialect d key bound.length
  have readCondition := lexes_guarded readFilter guard
  refine ⟨before, _, .restricted (congrArg (start ++ ·) sql) readStart readCondition, ?_⟩
  rw [count]
  constructor
  · intro single row holds equates selected f member
    obtain rfl := (Descriptor.singleKey_iff flagged).mp single f member
    obtain ⟨-, held⟩ := (Sql.selects_guarded balanced plain).mp selected
    rw [value, equates _ _ v held last]
  · intro keeps
    refine Descriptor.singleKey_of_free (r := r) (v := v) built flagged fun w => ?_
    -- A row that has the key in the column that is compared, and something else in the others.
    let row (column : String) : Value := if column = key.name then v else w
    exact keeps row _ (Sql.equates_tolerant dialect d.table _ row)
      (Sql.selects_tolerant balanced plain last (if_pos rfl))

open Insert.Seats in
/-- The hall of a seat as it is, for one of the seats in that hall. -/
def moved : Update :=
  ⟨⟨seat 5 7, descriptor false⟩, [⟨⟨descriptor false, hallField false⟩, .current⟩], some escape, true⟩

open Insert.Seats in
/-- The calls that make it. -/
def calls : List Update.Step :=
  [.assignCurrent ⟨⟨descriptor false, hallField false⟩, .plain .uint64⟩,
    .restrict (.filter escape), .restrict .byKey]

open Insert.Seats in
theorem keeps_to_key_seat :
    (descriptor false).Built catalogue ∧ (descriptor false).SingleKey ∧
      ∃ s, Keyed .mysql moved.target moved.sets moved.filter s ∧
        s.params = [.uint64 5, .uint64 7] ∧
        (∃ v, numberField.get (seat 5 7) = .ok v ∧
          s.Equates .mysql (descriptor false) numberField v) ∧
        ∃ before condition, s.Reads .mysql before condition ∧
          ∀ row holds, Sql.Equates .mysql "Seat" s.params row holds →
            Sql.Selects holds (placeholders before).length condition →
              numberField.get (seat 5 7) = .ok (row "number") := by
  have ok : moved.bind .mysql = .ok ⟨_, [.uint64 5, .uint64 7]⟩ := rfl
  have built := built_descriptor false
  have single : (descriptor false).SingleKey := by
    intro f member
    obtain rfl : f = numberField := List.mem_singleton.mp member
    rfl
  have member : numberField ∈ (descriptor false).keys := List.mem_singleton_self _
  have current : ∀ a ∈ moved.sets, ∀ e, a.value = .expr e → e.Constructed := by
    rintro a member e value
    obtain rfl := List.mem_singleton.mp member
    cases value
  have filter : ∀ e ∈ moved.filter, e.Constructed := by
    rintro e ⟨⟩
    exact escape_constructed
  have called : Update.made moved.target calls = .ok moved := rfl
  have keyed : Keyed .mysql moved.target moved.sets moved.filter ⟨_, [.uint64 5, .uint64 7]⟩ :=
    Update.keyed_of_calls built (List.mem_cons_of_mem _ (List.mem_cons_of_mem _ List.mem_cons_self))
      called ok
  obtain ⟨equates, reads⟩ := keeps_to_key built keyed
  obtain ⟨before, condition, read, keeps⟩ := reads current filter
  exact ⟨built, single, _, keyed, rfl, equates single numberField member, before, condition, read,
    fun row holds meaning selected => keeps.mp single row holds meaning selected numberField member⟩

open Insert.Seats in
/-- Of the two fields of a key only the first one restricts the statement: the seats of the same
number in other halls are spared, but not the other seats of the hall. -/
theorem keyed_forgets_field :
    (descriptor true).Built catalogue ∧ (seat 5 7).Instance catalogue ∧
      ∃ s, Keyed .sqlite ⟨seat 5 7, descriptor true⟩ [] none s ∧
        s.sql = "DELETE FROM \"Seat\" WHERE \"Seat\".\"hall\" = ?1" ∧ s.params = [.uint64 5] ∧
        (¬∀ f ∈ (descriptor true).keys, ∃ v, f.get (seat 5 7) = .ok v ∧
          s.Equates .sqlite (descriptor true) f v) ∧
        ∃ before condition, s.Reads .sqlite before condition ∧
          ¬∀ row holds, Sql.Equates .sqlite "Seat" s.params row holds →
            Sql.Selects holds (placeholders before).length condition →
              ∀ f ∈ (descriptor true).keys, f.get (seat 5 7) = .ok (row f.name) := by
  have member : numberField ∈ (descriptor true).keys := List.mem_cons_of_mem _ List.mem_cons_self
  have number : numberField.get (seat 5 7) = .ok (.uint64 7) := rfl
  have ok : Delete.bind ⟨⟨seat 5 7, descriptor true⟩, none, true⟩ .sqlite =
      .ok ⟨_, [.uint64 5]⟩ := rfl
  refine ⟨built_descriptor true, instance_seat 5 7, _, .delete ok, by decide +kernel, rfl, ?_, ?_⟩
  · intro each
    obtain ⟨v, -, start, conditions, bound, whole, among, -⟩ := each numberField member
    -- The name of the forgotten column has a letter that the whole statement lacks.
    have written : 'b' ∈ (keyCondition .sqlite (descriptor true) numberField (bound + 1)).toList := by
      have name : 'b' ∈ (Dialect.sqlite.qualified (descriptor true).table numberField.name).toList := by
        decide +kernel
      rw [keyCondition, String.toList_append, String.toList_append]
      exact List.mem_append_left _ (List.mem_append_left _ name)
    have later := mem_intercalate among written
    have absent : 'b' ∉ (start ++ (" WHERE " ++ " AND ".intercalate conditions)).toList := by
      rw [← whole]
      decide +kernel
    rw [String.toList_append, String.toList_append] at absent
    exact absent (List.mem_append_right _ (List.mem_append_right _ later))
  · refine ⟨[.word "DELETE", .word "FROM", .quoted '"' "Seat"], equation .sqlite "Seat" "hall" 0,
      ⟨"DELETE FROM \"Seat\"", "\"Seat\".\"hall\" = ?1", by decide +kernel, by decide +kernel,
        by decide +kernel, by decide +kernel⟩, fun keeps => ?_⟩
    let row (column : String) : Value := if column = "hall" then .uint64 5 else .uint64 9
    have selected : Sql.Selects (Sql.tolerant .sqlite "Seat" [.uint64 5] row) 0
        (Sql.guarded none (equation .sqlite "Seat" "hall" 0)) :=
      Sql.selects_tolerant (by simp) (by simp) rfl rfl
    cases number.symm.trans (keeps row _ (Sql.equates_tolerant _ _ _ row) selected numberField member)

end Keyed

end ObjectMapping
