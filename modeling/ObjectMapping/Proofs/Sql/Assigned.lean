import ObjectMapping.Proofs.Field.Column
import ObjectMapping.Proofs.Sql.Keyed

/-! Which columns an update assigns. No term has a comma outside parentheses, so the commas that
a reader finds are those between the assignments. The names on their left are those of the
assigned columns, whatever descriptors they come from. -/
namespace ObjectMapping

open Sql (Lexes Token splitFrom updated?)

namespace Sql

/-- A comma-separated list goes on after the tokens with the item that it was in before them. -/
def Whole (ts : List Token) : Prop :=
  ∀ depth rest, splitFrom (.sign ",") depth (ts ++ rest) =
    (splitFrom (.sign ",") depth rest).modifyHead (ts ++ ·)

namespace Whole

theorem nil : Whole [] := fun _ _ => (congrFun List.modifyHead_id _).symm

theorem append (first : Whole ts) (second : Whole us) : Whole (ts ++ us) := by
  intro depth rest
  rw [List.append_assoc, first, second, List.modifyHead_modifyHead]
  exact congrArg (List.modifyHead · _) (funext fun _ => (List.append_assoc ..).symm)

theorem cons (plain : t ∉ [.sign "(", .sign ")", .sign ","]) (more : Whole ts) :
    Whole (t :: ts) := by
  simp only [List.mem_cons, List.not_mem_nil, or_false, not_or] at plain
  obtain ⟨opens, ends, separates⟩ := plain
  intro depth rest
  rw [List.cons_append, splitFrom, if_neg fun found => separates found.1, Token.deepen,
    if_neg opens, if_neg ends, more, List.modifyHead_modifyHead]
  rfl

theorem enclosed (closed : closes 0 ts) : Whole (.sign "(" :: (ts ++ [.sign ")"])) := by
  intro depth rest
  rw [List.cons_append, List.append_assoc]
  exact splitFrom_enclosed _ depth ts rest closed fun found => absurd found.1 (by decide)

theorem equation (dialect : Dialect) (table column : String) (bound : Nat) :
    Whole (equation dialect table column bound) :=
  .cons (by simp) (.cons (by simp) (.cons (by simp) (.cons (by simp) (.cons (by simp) .nil))))

end Whole

namespace Term

private theorem whole_atom (a : Atom) : Whole a.tokens := by
  cases a <;> simp only [Atom.tokens] <;> repeat first | exact .nil | refine .cons (by simp) ?_

private theorem whole_operator (op : Operator) : Whole op.tokens := by
  cases op <;> simp only [Operator.tokens, Operator.token] <;>
    repeat first | exact .nil | refine .cons (by simp) ?_

mutual

/-- The commas of a term are in parentheses. -/
theorem whole_fringe (t : Term) : Whole t.fringe := by
  cases t with
  | atom a => exact whole_atom a
  | paren inner => exact .enclosed inner.closed
  | not operand => exact .cons (by simp) (whole_fringe operand)
  | neg operand => exact .cons (by simp) (whole_fringe operand)
  | binary op left right =>
    exact (whole_fringe left).append ((whole_operator op).append (whole_fringe right))
  | cast operand type =>
    have closed : closes 0 (operand.fringe ++ .word "AS" :: type.tokens) := by
      simp [closes_fringe, closes, type.closed]
    have inside := Whole.cons (t := .word "CAST") (by simp) (.enclosed closed)
    simpa [fringe] using inside
  | call name args =>
    have closed : closes 0 (fringeList args) := by simpa [closes] using closes_fringeList 0 args []
    exact .cons (by simp) (.enclosed closed)
  | conditional branches otherwise =>
    exact .cons (by simp) ((whole_fringeBranches branches).append
      ((whole_fringeElse otherwise).append (.cons (by simp) .nil)))

theorem whole_fringeBranches (branches : List (Term × Term)) : Whole (fringeBranches branches) := by
  match branches with
  | [] => exact .nil
  | (condition, result) :: branches =>
    exact .cons (by simp) ((whole_fringe condition).append
      (.cons (by simp) ((whole_fringe result).append (whole_fringeBranches branches))))

theorem whole_fringeElse (otherwise : Option Term) : Whole (fringeElse otherwise) := by
  match otherwise with
  | none => exact .nil
  | some t => exact .cons (by simp) (whole_fringe t)

end

end Term

/-- The tokens are an item that assigns a column of the name. -/
def Assigns (quote : Char) (name : String) (item : List Token) : Prop :=
  ∃ right, item = .quoted quote name :: .sign "=" :: right ∧ Whole right

theorem Assigns.whole (assigns : Assigns quote name item) : Whole item := by
  obtain ⟨right, rfl, inside⟩ := assigns
  exact .cons (by simp) (.cons (by simp) inside)

/-- The names are read off the assignments between the commas. -/
theorem assigned_names (nonempty : names ≠ []) (last : Whole rest)
    (items : List.Forall₂ (Assigns quote) names tss) :
    (splitFrom (.sign ",") 0 (List.intercalate [.sign ","] tss ++ rest)).mapM assignedName? =
      some names := by
  induction items with
  | nil => exact absurd rfl nonempty
  | @cons name item names tss first others ih =>
    have whole := first.whole
    obtain ⟨right, rfl, -⟩ := first
    cases others with
    | nil =>
      have split := whole 0 (rest ++ [])
      rw [last] at split
      rw [List.intercalate_singleton]
      simpa [splitFrom, assignedName?] using congrArg (List.mapM assignedName?) split
    | cons second others =>
      rw [List.intercalate_cons_cons, List.append_assoc, List.append_assoc, whole]
      have read := ih (List.cons_ne_nil _ _)
      simp [splitFrom, assignedName?, read]

end Sql

/-- A clause of conditions does not add to the assignments before it. -/
theorem whole_whereClause {filter : Option Expr} (constructed : ∀ e ∈ filter, e.Constructed)
    (start : Lexes d text.toList ts) (ok : whereClause d target filter byKey bound = .ok clause) :
    ∃ us, Lexes d (text ++ clause.sql).toList (ts ++ us) ∧ Sql.Whole us := by
  cases byKey with
  | true =>
    obtain ⟨condition, key, v, compiled, -, -, -, sql⟩ := whereClause_keyed ok
    obtain ⟨inside, read, balanced, -⟩ := compiled_filter constructed compiled
    have guard := lexes_keyCondition d target.descriptor key bound.length
    have equation := Sql.Whole.equation d target.descriptor.table key.name bound.length
    refine ⟨_, sql ▸ start.restrict (lexes_guarded read guard), .cons (by simp) ?_⟩
    cases inside with
    | none => exact equation
    | some inside =>
      have enclosed := Sql.Whole.enclosed (balanced inside rfl)
      simpa [Sql.guarded] using enclosed.append (.cons (t := .word "AND") (by simp) equation)
  | false =>
    obtain ⟨condition, compiled, ok⟩ := bind_eq_ok.mp ok
    obtain rfl := Except.ok.inj ok
    cases filter with
    | none =>
      obtain rfl := Except.ok.inj compiled
      exact ⟨[], by simpa using start, .nil⟩
    | some e =>
      obtain ⟨c, rendered, same⟩ := bind_eq_ok.mp compiled
      obtain rfl := Except.ok.inj same
      have read := e.spells_layout (constructed e rfl).formed rendered
      exact ⟨_, start.restrict read, .cons (by simp) (Sql.Term.whole_fringe _)⟩

namespace Update

/-- An assignment is written with the name of its column on the left. -/
theorem setText_written (ok : setText d record bound a = .ok (text, after)) :
    ∃ right, text = d.quoteIdentifier a.column.name ++ " = " ++ right ∧
      ((∀ e, a.value = .expr e → e.Constructed) →
        ∃ ts, Lexes d right.toList ts ∧ Sql.Whole ts) := by
  obtain ⟨c, value⟩ := a
  cases value with
  | expr e =>
    obtain ⟨right, rendered, ok⟩ := bind_eq_ok.mp ok
    obtain ⟨left, same, ok⟩ := bind_eq_ok.mp ok
    obtain rfl := Except.ok.inj same
    obtain ⟨rfl, rfl⟩ := Prod.mk.inj (Except.ok.inj ok)
    refine ⟨right, rfl, fun constructed => ?_⟩
    have read := e.spells_layout (constructed e rfl).formed rendered
    exact ⟨_, read, Sql.Term.whole_fringe _⟩
  | current =>
    obtain ⟨v, value, ok⟩ := bind_eq_ok.mp ok
    obtain ⟨left, same, ok⟩ := bind_eq_ok.mp ok
    obtain rfl := Except.ok.inj same
    obtain ⟨rfl, rfl⟩ := Prod.mk.inj (Except.ok.inj ok)
    exact ⟨_, rfl, fun _ => ⟨_, d.lexes_placeholder (bound.length + 1), .cons (by simp) .nil⟩⟩

theorem setTexts_written {sets : List Assignment}
    (ok : setTexts d record bound sets = .ok (texts, after)) :
    List.Forall₂ (fun a text => ∃ right, text = d.quoteIdentifier a.column.name ++ " = " ++ right)
      sets texts := by
  induction sets generalizing bound texts with
  | nil =>
    obtain ⟨rfl, rfl⟩ := Prod.mk.inj (Except.ok.inj ok)
    exact .nil
  | cons a sets ih =>
    obtain ⟨⟨text, middle⟩, first, ok⟩ := bind_eq_ok.mp ok
    obtain ⟨⟨more, after⟩, rest, ok⟩ := bind_eq_ok.mp ok
    obtain ⟨rfl, rfl⟩ := Prod.mk.inj (Except.ok.inj ok)
    obtain ⟨right, written, -⟩ := setText_written first
    exact .cons ⟨right, written⟩ (ih rest)

/-- Assignments of the columns are read from the texts, one from each. -/
theorem lexes_setTexts {sets : List Assignment}
    (constructed : ∀ a ∈ sets, ∀ e, a.value = .expr e → e.Constructed)
    (ok : setTexts d record bound sets = .ok (texts, after)) :
    ∃ tss, List.Forall₂ (fun text ts => Lexes d text.toList ts) texts tss ∧
      List.Forall₂ (Sql.Assigns d.nameQuote) (sets.map (·.column.name)) tss := by
  induction sets generalizing bound texts with
  | nil =>
    obtain ⟨rfl, rfl⟩ := Prod.mk.inj (Except.ok.inj ok)
    exact ⟨[], .nil, .nil⟩
  | cons a sets ih =>
    obtain ⟨⟨text, middle⟩, first, ok⟩ := bind_eq_ok.mp ok
    obtain ⟨⟨more, after⟩, rest, ok⟩ := bind_eq_ok.mp ok
    obtain ⟨rfl, rfl⟩ := Prod.mk.inj (Except.ok.inj ok)
    obtain ⟨right, rfl, read⟩ := setText_written first
    obtain ⟨ts, lexed, whole⟩ := read (constructed a List.mem_cons_self)
    obtain ⟨tss, lexes, items⟩ :=
      ih (fun b member => constructed b (List.mem_cons_of_mem a member)) rest
    have equation := (d.lexes_quoteIdentifier a.column.name).equation lexed
    exact ⟨_, .cons equation lexes, .cons ⟨ts, rfl, whole⟩ items⟩

/-- The parts of the text of an update. -/
theorem bind_written {u : Update} (ok : u.bind d = .ok s) :
    ∃ texts bound clause, u.sets ≠ [] ∧ setTexts d u.target.record [] u.sets = .ok (texts, bound) ∧
      whereClause d u.target u.filter u.byKey bound = .ok clause ∧
      s.sql = "UPDATE " ++ d.quoteIdentifier u.target.descriptor.table ++ " SET " ++
        ", ".intercalate texts ++ clause.sql := by
  unfold bind at ok
  split at ok
  · cases ok
  rename_i nonempty
  obtain ⟨⟨texts, bound⟩, assigned, ok⟩ := bind_eq_ok.mp ok
  obtain ⟨clause, restricted, ok⟩ := bind_eq_ok.mp ok
  obtain rfl := Except.ok.inj ok
  have some : u.sets ≠ [] := fun empty => nonempty (by rw [empty]; rfl)
  exact ⟨texts, bound, clause, some, assigned, restricted, rfl⟩

/-- An update is read as one of the target's table and of the assigned columns. -/
theorem updated_bind {u : Update} (constructed : u.Constructed) (ok : u.bind d = .ok s) :
    ∃ ts, Sql.tokens d s.sql = some ts ∧
      updated? ts = some (u.target.descriptor.table, u.sets.map (·.column.name)) := by
  obtain ⟨texts, bound, clause, nonempty, assigned, restricted, sql⟩ := bind_written ok
  obtain ⟨tss, lexes, items⟩ := lexes_setTexts constructed.sets assigned
  have start := (Lexes.list lexes).assigned u.target.descriptor.table
  obtain ⟨rest, read, whole⟩ := whole_whereClause constructed.filter start restricted
  have names := Sql.assigned_names (mt List.map_eq_nil_iff.mp nonempty) whole items
  refine ⟨_, sql ▸ read, ?_⟩
  rw [List.cons_append, List.cons_append, List.cons_append, updated?, names]
  rfl

theorem targets_bind {u : Update} (constructed : u.Constructed) (ok : u.bind d = .ok s) :
    s.Targets d u.target.descriptor ↔ u.Targeted := by
  obtain ⟨ts, read, found⟩ := updated_bind constructed ok
  constructor
  · rintro ⟨us, names, again, same, each⟩ a member
    obtain rfl := Option.some.inj (read.symm.trans again)
    obtain ⟨-, rfl⟩ := Prod.mk.inj (Option.some.inj (found.symm.trans same))
    exact each a.column.name (List.mem_map_of_mem member)
  · intro targeted
    refine ⟨ts, _, read, found, List.forall_mem_map.mpr targeted⟩

/-- The columns of an update are written on the left of its assignments, after the table of the
target. Each is a column of the record's type; all of them are columns of that table if they are
over the target's own descriptor, and in general if and only if columns of the same names are. -/
theorem targets_iff {u : Update} (typed : u.Typed) (ok : u.bind d = .ok s) :
    (∃ texts clause, s.sql = "UPDATE " ++ d.quoteIdentifier u.target.descriptor.table ++ " SET " ++
        ", ".intercalate texts ++ clause ∧
      List.Forall₂ (fun a text => ∃ right, text = d.quoteIdentifier a.column.name ++ " = " ++ right)
        u.sets texts) ∧
    (∀ a ∈ u.sets, a.column.descriptor.type = u.target.record.type ∧
      a.column.descriptor.HasColumn a.column.name) ∧
    ((∀ a ∈ u.sets, a.column.descriptor = u.target.descriptor) → u.Targeted) ∧
    (u.Constructed → (s.Targets d u.target.descriptor ↔ u.Targeted)) := by
  have described : ∀ a ∈ u.sets, a.column.descriptor.type = u.target.record.type ∧
      a.column.descriptor.HasColumn a.column.name := by
    intro a member
    obtain ⟨other, wanted, name, column, made, same⟩ := typed a member
    obtain ⟨type, rfl, listed⟩ := TypedColumn.make_ok made
    rw [same]
    exact ⟨type, _, listed, rfl⟩
  obtain ⟨texts, bound, clause, -, assigned, -, sql⟩ := bind_written ok
  refine ⟨⟨texts, clause.sql, sql, setTexts_written assigned⟩, described, fun own a member => ?_,
    fun constructed => targets_bind constructed ok⟩
  exact own a member ▸ (described a member).2

open Insert.Seats

/-- The number of a seat under another name. -/
def rowField : Field := Field.ofSlot catalogue "Seat" number "row"

/-- A second descriptor of seats, for a table in which they are kept under other names. -/
def archive : Descriptor :=
  ⟨"Archive", "archive", "Seat", none, [hallField false, rowField], 0, seat 0 0⟩

theorem built_archive : archive.Built catalogue := by
  have known : catalogue.type? recordType.name = some recordType := rfl
  have hasHall : recordType.slot? hall.name = some hall := rfl
  have hasNumber : recordType.slot? number.name = some number := rfl
  have first : (hallField false).Declared catalogue :=
    .primaryKey (.slot known hasHall 0 "hall") false
  have second : rowField.Declared catalogue := .slot known hasNumber 8 "row"
  have formed := (((Descriptor.Draft.Formed.draft known "Archive").table (some "archive")).field
    first).field second
  exact .build formed rfl

/-- An unsigned number, as columns of seats hold it. -/
def wide : ColumnShape := ⟨"u64", .plain .uint64⟩

/-- A seat goes to another hall; the columns are over two descriptors, but have the same names. -/
def relocated : Update :=
  ⟨⟨seat 5 7, descriptor false⟩,
    [⟨⟨archive, hallField false⟩, .expr (.constant (.scalar (.uint64 9)))⟩,
      ⟨⟨descriptor false, numberField⟩, .current⟩], none, true⟩

/-- The column of the hall, over the second descriptor. -/
def hallColumn : TypedColumn := ⟨⟨archive, hallField false⟩, wide.shape⟩

/-- The column of the number, over the first one. -/
def numberColumn : TypedColumn := ⟨⟨descriptor false, numberField⟩, wide.shape⟩

/-- The calls that make it. -/
def relocating : List Step :=
  [.assign hallColumn (.scalar (.uint64 9)), .assignCurrent numberColumn, .restrict .byKey]

theorem targets_iff_relocated :
    relocated.Typed ∧ ∃ s, relocated.bind .sqlite = .ok s ∧
      s.sql = "UPDATE \"Seat\" SET \"hall\" = 9, \"number\" = ?1 WHERE \"Seat\".\"number\" = ?2" ∧
      s.Targets .sqlite (descriptor false) := by
  have called : made relocated.target relocating = .ok relocated := rfl
  have built := built_descriptor false
  have typed : relocated.Typed := by
    have first : ∃ d wanted name, TypedColumn.make d "Seat" wanted name = .ok hallColumn :=
      ⟨archive, wide, "hall", rfl⟩
    have second : ∃ d wanted name, TypedColumn.make d "Seat" wanted name = .ok numberColumn :=
      ⟨descriptor false, wide, "number", rfl⟩
    exact typed_of_calls built rfl (by simpa [relocating, Step.column?] using ⟨first, second⟩) called
  have constructed : relocated.Constructed := by
    have nine : (Expr.constant (Datum.scalar (.uint64 9)).toValue).Constructed := .constant _
    exact constructed_of_calls built
      (by simpa [relocating, Step.expr?, Restriction.filter?] using nine) called
  have targeted : relocated.Targeted := by
    have first : (descriptor false).HasColumn hallColumn.ref.name :=
      ⟨hallField false, List.mem_cons_self, rfl⟩
    have second : (descriptor false).HasColumn numberColumn.ref.name :=
      ⟨numberField, List.mem_cons_of_mem _ List.mem_cons_self, rfl⟩
    exact targeted_of_calls built (by simpa [relocating, Step.column?] using ⟨first, second⟩) called
  have ok : relocated.bind .sqlite = .ok ⟨_, [.uint64 7, .uint64 7]⟩ := rfl
  obtain ⟨-, -, -, read⟩ := targets_iff typed ok
  exact ⟨typed, _, ok, by decide +kernel, (read constructed).mpr targeted⟩

/-- The same seat with a column that only the archive has. -/
def misplaced : Update :=
  ⟨⟨seat 5 7, descriptor false⟩, [⟨⟨archive, rowField⟩, .current⟩], none, false⟩

/-- Both descriptors describe seats, and so the column of one is assigned in the table of the
other, which has no such column. -/
theorem assigns_foreign_column :
    (descriptor false).Built catalogue ∧ archive.Built catalogue ∧
      (seat 5 7).Instance catalogue ∧
      Storable.make (descriptor false) (seat 5 7) = .ok misplaced.target ∧ misplaced.Typed ∧
      ∃ s, misplaced.bind .postgres = .ok s ∧ s.sql = "UPDATE \"Seat\" SET \"row\" = $1" ∧
        s.params = [.uint64 7] ∧ ¬s.Targets .postgres (descriptor false) := by
  have typed : misplaced.Typed := by
    intro a member
    obtain rfl := List.mem_singleton.mp member
    exact ⟨archive, wide, "row", ⟨⟨archive, rowField⟩, .plain .uint64⟩, rfl, rfl⟩
  have constructed : misplaced.Constructed := by
    refine ⟨fun a member e value => ?_, by rintro e ⟨⟩⟩
    obtain rfl := List.mem_singleton.mp member
    cases value
  have ok : misplaced.bind .postgres = .ok ⟨_, [.uint64 7]⟩ := rfl
  refine ⟨built_descriptor false, built_archive, instance_seat 5 7, rfl, typed, _, ok,
    by decide +kernel, rfl, fun targets => ?_⟩
  obtain ⟨f, listed, name⟩ :=
    (targets_bind constructed ok).mp targets _ List.mem_cons_self
  rcases List.mem_pair.mp listed with rfl | rfl <;> exact absurd name (by decide)

end Update

end ObjectMapping
