import Mathlib
import ObjectMapping.Proofs.Json.Matching
import ObjectMapping.Proofs.Json.Places
import ObjectMapping.Proofs.Text.Utf8
import ObjectMapping.Proofs.DateTime
import ObjectMapping.Transaction.Scripted

/-! Binding a row into a record. A column of a record's own row puts back into its slot what
the record holds there, and spoils no column that was bound before it; this needs every column
to find the field that it was listed for. -/
namespace ObjectMapping.Row

variable {c : Catalogue} {row : Row} {f : Field} {x : Datum} {index : Nat}

private theorem value_of_column {s : Shape} (column : s.type.isColumn) (holds : x.Holds c s) :
    x.toValue = .null ∨ ∃ a, x.toValue = .scalar a := by
  induction s generalizing x with
  | plain | enum =>
    cases holds
    exact .inr ⟨_, rfl⟩
  | record | variant | list => cases column
  | nullable inner ih =>
    cases holds with
    | unset => exact .inl rfl
    | @present _ content inside => exact (ih column inside : content.toValue = .null ∨ _)

/-- A column without a value is an optional one that is not set. -/
private theorem unset_of_null {s : Shape} (column : s.type.isColumn) (flat : s.nullableDepth ≤ 1)
    (holds : x.Holds c s) (nothing : x.toValue.isNull) : x = .unset ∧ 0 < s.nullableDepth := by
  cases holds with
  | plain | enum | record | occupied | list => cases nothing
  | vacant => cases column
  | unset => exact ⟨rfl, Nat.succ_pos _⟩
  | @present inner _ inside =>
    have plain : inner.nullableDepth = 0 := Nat.le_zero.mp (Nat.le_of_succ_le_succ flat)
    rcases Shape.absent inside nothing with nullable | variant
    · exact absurd plain (Nat.ne_of_gt nullable)
    · rw [Shape.type, variant] at column
      cases column

/-- A column field shows nothing or a scalar of its type; written into the slot, that is the
content again. -/
private theorem content_shown (linked : f.Linked c) (flat : f.shape.nullableDepth ≤ 1)
    (column : f.isColumn) (holds : x.Holds c f.shape) :
    (f.present x.toValue = .null ∧ f.isNullable ∨
        ∃ s, f.present x.toValue = .scalar s ∧ s.type = f.type) ∧
      f.shape.ofValue (f.present x.toValue) = .ok x := by
  have stored := linked.column column
  cases nothing : x.toValue.isNull with
  | false =>
    obtain ⟨shown, presented, typed, fit⟩ :=
      (Json.Context.Describes.ofField linked).shown holds stored nothing
    rw [← Json.Context.present_ofField, presented]
    exact ⟨.inr ⟨shown, rfl, typed⟩, fit⟩
  | true =>
    obtain ⟨rfl, nullable⟩ := unset_of_null stored flat holds nothing
    refine ⟨.inl ⟨rfl, decide_eq_true nullable⟩, ?_⟩
    cases shape : f.shape with
    | nullable inner => rfl
    | _ =>
      rw [shape] at nullable
      cases nullable

theorem readText_ok {s : String} (yields : row.Yields index (.string s)) :
    row.readText index = .ok (.string s) := by
  obtain ⟨_, length, bytes⟩ := yields
  refine bind_eq_ok.mpr ⟨_, length, bind_eq_ok.mpr ⟨_, bytes, ?_⟩⟩
  rw [Utf8.read_bytes]
  rfl

/-- A row that yields a scalar is read as the scalar by a field of its type. -/
private theorem readAs_ok {s : Scalar} (yields : row.Yields index (.scalar s)) :
    row.readAs index s.type = .ok (.scalar s) := by
  cases s with
  | string => exact readText_ok yields
  | dateTime t =>
    exact bind_eq_ok.mpr ⟨_, yields.2, bind_eq_ok.mpr ⟨_, t.ofReported_toReported, rfl⟩⟩
  | _ => exact yields.2 _ rfl

theorem readField_ok {v : Value} (yields : row.Yields index v)
    (asked : v = .null ∧ f.isNullable ∨ ∃ s, v = .scalar s ∧ s.type = f.type) :
    row.readField index f = .ok v := by
  rcases asked with ⟨rfl, nullable⟩ | ⟨s, rfl, type⟩
  · have null : row.isNull index = .ok true := yields
    exact bind_eq_ok.mpr ⟨true, null, if_pos nullable⟩
  · have something : row.isNull index = .ok false := by
      cases s <;> exact yields.1
    refine bind_eq_ok.mpr ⟨false, something, inField_eq_ok.mpr ?_⟩
    rw [← type]
    exact readAs_ok yields

section

variable {d : Descriptor} {r t : Record} (reg : Registry)

/-- A column of the record's row puts the record's content into its field and spoils no other. -/
private theorem bindColumn_ok (sound : d.Sound c) (member : f ∈ d.columns) (typed : r.Instance c)
    (same : r.type = d.type) (inside : t.Instance c) (type : t.type = d.type)
    (yields : ∀ v, f.get r = .ok v → row.Yields index v) :
    ∃ changed, row.bindColumn index f t = .ok changed ∧ changed.type = d.type ∧
      changed.Instance c ∧ r.MatchesAt reg changed f.path ∧
      ∀ q, r.MatchesAt reg t q → r.MatchesAt reg changed q := by
  obtain ⟨listed, column⟩ := List.mem_filter.mp member
  have linked := sound.linked f listed
  have owner : f.owner = d.type := sound.owned f listed
  have leads : c.Leads d.type f.path f.shape := owner ▸ linked.leads
  obtain ⟨x, here, holds⟩ := Record.get_of_leads typed (same ▸ leads)
  obtain ⟨shown, fit⟩ := content_shown linked (sound.flat f listed).1 column holds
  have read := readField_ok (yields _ (Field.get_eq (same.trans owner.symm) here)) shown
  obtain ⟨changed, set, kept, still⟩ := Record.set_of_leads inside (type ▸ leads) holds
  have stored := linked.column column
  have alike : x.toValue.Matches reg x.toValue := by
    rcases value_of_column stored holds with null | ⟨a, scalar⟩
    · exact null ▸ .null
    · exact scalar ▸ .scalar a
  refine ⟨changed, bind_eq_ok.mpr ⟨_, read, ?_⟩, still.trans type, kept, ?_, fun q before => ?_⟩
  · refine Field.set_eq (type.trans owner.symm) (fun nothing => ?_) fit set
    rcases shown with ⟨_, nullable⟩ | ⟨a, scalar, _⟩
    · exact .inl nullable
    · rw [scalar] at nothing
      cases nothing
  · exact ⟨x, x, here, Record.get_of_set set, alike⟩
  · refine before.set here set alike fun inner held record _ => ?_
    subst record
    rw [Shape.type_of_record holds] at stored
    cases stored

/-- Columns are bound one after another, each to the field that it was listed for. -/
private theorem bindColumns_ok {fields : List Field} (sound : d.Sound c) (found : d.ColumnsFound)
    (typed : r.Instance c) (same : r.type = d.type) (inside : t.Instance c) (type : t.type = d.type)
    (members : ∀ f ∈ fields, f ∈ d.columns) (notices : List Notice)
    (yields : ∀ p ∈ fields.zipIdx index, ∀ v, p.1.get r = .ok v → row.Yields p.2 v) :
    ∃ bound, (row.bindColumns d index (fields.map (·.name))).perform ⟨t, notices⟩ =
        (.ok (), ⟨bound, notices⟩) ∧ bound.type = d.type ∧
      (∀ f ∈ fields, r.MatchesAt reg bound f.path) ∧
      ∀ q, r.MatchesAt reg t q → r.MatchesAt reg bound q := by
  induction fields generalizing index t with
  | nil =>
    refine ⟨t, rfl, type, ?_, fun _ before => before⟩
    intro f member
    cases member
  | cons f rest ih =>
    rw [List.zipIdx_cons] at yields
    have member := members f List.mem_cons_self
    obtain ⟨changed, first, kind, kept, here, keeps⟩ :=
      bindColumn_ok reg sound member typed same inside type (yields _ List.mem_cons_self)
    obtain ⟨bound, others, kind, there, still⟩ := ih kept kind
      (fun g later => members g (List.mem_cons_of_mem _ later))
      (fun p later => yields p (List.mem_cons_of_mem _ later))
    refine ⟨bound, ?_, kind, fun g chosen => ?_, fun q before => still q (keeps q before)⟩
    · rw [List.map_cons, bindColumns, found f member]
      simp only [Action.perform_bind, Action.update, Action.perform_ofFunction, first]
      exact others
    · rcases List.mem_cons.mp chosen with rfl | later
      · exact still g.path here
      · exact there g later

end

private theorem eq_of_matches {v w : Value} {reg : Registry}
    (plain : v = .null ∨ ∃ a, v = .scalar a) (agree : v.Matches reg w) : w = v := by
  rcases plain with rfl | ⟨a, rfl⟩ <;> cases agree <;> rfl

/-- Column fields show the same where their places agree. -/
private theorem get_of_matchesAt {r t : Record} {reg : Registry} (linked : f.Linked c)
    (column : f.isColumn) (typed : r.Instance c) (owned : r.type = f.owner)
    (type : t.type = f.owner) (alike : r.MatchesAt reg t f.path) : ∃ v, f.get r = .ok v ∧ f.get t = .ok v := by
  obtain ⟨x, y, here, there, agree⟩ := alike
  obtain ⟨z, again, holds⟩ := Record.get_of_leads typed (owned ▸ linked.leads)
  obtain rfl := Option.some.inj (here.symm.trans again)
  have equal := eq_of_matches (value_of_column (linked.column column) holds) agree
  exact ⟨_, Field.get_eq owned here, equal ▸ Field.get_eq type there⟩

/-- A row that was taken from a record restores every column field of it. -/
theorem bind_restores {c : Catalogue} {d : Descriptor} {row : Row} {r target : Record}
    (notices : List Notice) (built : d.Built c) (typed : r.Instance c) (same : r.type = d.type)
    (inside : target.Instance c) (type : target.type = d.type) (shows : row.Shows d r)
    (found : d.ColumnsFound) :
    ∃ bound, (row.bind d).perform ⟨target, notices⟩ = (.ok (), ⟨bound, notices⟩) ∧
      ∀ f ∈ d.columns, ∃ v, f.get r = .ok v ∧ f.get bound = .ok v := by
  have sound := built.sound
  have yields : ∀ p ∈ d.columns.zipIdx 0, ∀ v, p.1.get r = .ok v → row.Yields p.2 v :=
    fun p member v read => shows.cells _ _ v (List.mem_zipIdx_iff_getElem?.mp member) read
  obtain ⟨bound, run, kind, each, _⟩ := bindColumns_ok ⟨[], []⟩ sound found typed same inside type
    (fun f member => member) notices yields
  rw [bind, shows.columns]
  refine ⟨bound, run, fun f member => ?_⟩
  obtain ⟨listed, column⟩ := List.mem_filter.mp member
  have owner := sound.owned f listed
  exact get_of_matchesAt (sound.linked f listed) column typed (same.trans owner.symm)
    (kind.trans owner.symm) (each f member)

private theorem yields_scripted {columns : List String} {cells : List Scripted.Cell} {v : Value}
    (here : cells[index]? = some (.value v)) (plain : v = .null ∨ ∃ a, v = .scalar a) :
    (Scripted.Cell.row columns cells).Yields index v := by
  have cell : Scripted.Cell.inColumn cells index = .ok (.value v) := by
    rw [Scripted.Cell.inColumn, here]
  have null := congrArg (Except.map Scripted.Cell.isNull) cell
  rcases plain with rfl | ⟨a, rfl⟩
  · exact null
  · cases a with
    | string =>
      have bytes := congrArg (Except.bind · Scripted.Cell.toText) cell
      exact ⟨null, congrArg (Except.map List.length) bytes, bytes⟩
    | dateTime => exact ⟨null, congrArg (Except.bind · Scripted.Cell.toTime) cell⟩
    | _ =>
      refine ⟨null, fun type same => ?_⟩
      obtain rfl := Option.some.inj same
      exact congrArg (Except.bind · (Scripted.Cell.toFixed _)) cell

/-- A row that is scripted from the values of a record shows the record. -/
theorem shows_scripted {d : Descriptor} {r : Record} {values : List Value}
    (reads : List.Forall₂ (fun f v => f.get r = .ok v) d.columns values)
    (plain : ∀ v ∈ values, v = .null ∨ ∃ a, v = .scalar a) :
    (Scripted.Cell.row (d.columns.map (·.name)) (values.map .value)).Shows d r := by
  refine ⟨rfl, fun index f v listed read => ?_⟩
  obtain ⟨bound, rfl⟩ := List.getElem?_eq_some_iff.mp listed
  have inside : index < values.length := reads.length_eq ▸ bound
  have same : d.columns[index].get r = .ok values[index] := reads.get bound inside
  obtain rfl := Except.ok.inj (read.symm.trans same)
  refine yields_scripted ?_ (plain _ (List.getElem_mem inside))
  rw [List.getElem?_map, List.getElem?_eq_getElem inside, Option.map_some]

namespace Keeper

def name : Slot := ⟨"name", .plain .string, 0, 24⟩

def base : Slot := ⟨"base", .record "Being", 0, 24⟩

def since : Slot := ⟨"since", .plain .dateTime, 24, 24⟩

def rank : Slot := ⟨"rank", .plain .uint32, 48, 4⟩

def wage : Slot := ⟨"wage", .nullable (.plain .int64), 56, 16⟩

def being (text : String) : Record := .mk "Being" [("name", .scalar (.string text))]

/-- A keeper is a being with a rank, which may be paid. -/
def keeper (text : String) (t : DateTime) (flags : UInt32) (paid : Datum) : Record :=
  .mk "Keeper" [("base", .record (being text)), ("since", .scalar (.dateTime t)),
    ("rank", .scalar (.uint32 flags)), ("wage", paid)]

def beingType : RecordType := ⟨"Being", [name], 24, being ""⟩

def keeperType : RecordType :=
  ⟨"Keeper", [base, since, rank, wage], 72, keeper "" .epoch 0 .unset⟩

def catalogue : Catalogue := [beingType, keeperType]

def ranks : Enumeration := ⟨"Rank", .simple, 0, [("Junior", 0), ("Head", 2)]⟩

def nameField : Field := Field.ofSlot catalogue "Being" name "name"

def ownFields : List Field :=
  [Field.ofSlot catalogue "Keeper" since "since",
    (Field.ofSlot catalogue "Keeper" rank "rank").withEnumeration ranks,
    Field.ofSlot catalogue "Keeper" wage "wage"]

def beingDescriptor : Descriptor :=
  ⟨"Being", "Being", "Being", none, [nameField], 0, being ""⟩

def descriptor : Descriptor :=
  ⟨"Keeper", "Keeper", "Keeper", some ⟨"Being", "Being"⟩,
    nameField.inherit "Keeper" base :: ownFields, 1, keeper "" .epoch 0 .unset⟩

private theorem instance_being (text : String) : (being text).Instance catalogue := by
  have found : catalogue.type? "Being" = some beingType := rfl
  refine .of_slots found fun slot member => ?_
  obtain rfl := List.mem_singleton.mp member
  exact ⟨_, rfl, .plain rfl⟩

private theorem instance_keeper (text : String) (t : DateTime) (flags : UInt32) {paid : Datum}
    (holds : paid.Holds catalogue wage.shape) : (keeper text t flags paid).Instance catalogue := by
  have found : catalogue.type? "Keeper" = some keeperType := rfl
  refine .of_slots found fun slot member => ?_
  simp only [keeperType, List.mem_cons, List.not_mem_nil, or_false] at member
  rcases member with rfl | rfl | rfl | rfl
  · exact ⟨_, rfl, .record rfl (instance_being text)⟩
  · exact ⟨_, rfl, .plain rfl⟩
  · exact ⟨_, rfl, .plain rfl⟩
  · exact ⟨_, rfl, holds⟩

private theorem built_being : beingDescriptor.Built catalogue := by
  have known : catalogue.type? beingType.name = some beingType := rfl
  have has : beingType.slot? name.name = some name := rfl
  exact .build (.field (.draft known "Being") (.slot known has 0 "name")) rfl

private theorem built_descriptor : descriptor.Built catalogue := by
  have known : catalogue.type? keeperType.name = some keeperType := rfl
  have hasBase : keeperType.slot? base.name = some base := rfl
  have embedded : Descriptor.Draft.Formed catalogue
      ⟨keeperType, "Keeper", none, descriptor.super, [nameField.inherit "Keeper" base], 1⟩ :=
    .extend (.draft known "Keeper") built_being hasBase rfl rfl
  have hasSince : keeperType.slot? since.name = some since := rfl
  have hasRank : keeperType.slot? rank.name = some rank := rfl
  have hasWage : keeperType.slot? wage.name = some wage := rfl
  have withSince := embedded.field (.slot known hasSince 24 "since")
  have withRank :=
    withSince.field ((Field.Declared.slot known hasRank 48 "rank").withEnumeration ranks)
  exact .build (withRank.field (.slot known hasWage 56 "wage")) rfl

private theorem columnsFound : descriptor.ColumnsFound := by
  intro f member
  have distinct : (descriptor.fields.map fun f => foldCase f.name).Nodup := by decide
  exact find_distinct (List.pairwise_map.mp distinct) (List.mem_filter.mp member).1

/-- A head keeper whose name is not all ASCII and who is not paid. -/
def zoe : Record := keeper "Zoë" .epoch 2 .unset

/-- A keeper of whom all that differs. -/
def junior : Record := keeper "" .epoch 0 (.present (.scalar (.int64 5)))

def values : List Value := [.string "Zoë", .dateTime .epoch, .enum 2, .null]

def answers : Row := Scripted.Cell.row ["name", "since", "rank", "wage"] (values.map .value)

private theorem answers_show : answers.Shows descriptor zoe := by
  have reads : List.Forall₂ (fun f v => f.get zoe = .ok v) descriptor.columns values :=
    .cons rfl (.cons rfl (.cons rfl (.cons rfl .nil)))
  have plain : ∀ v ∈ values, v = .null ∨ ∃ a, v = .scalar a := by simp [values]
  exact shows_scripted reads plain

end Keeper

open Keeper in
theorem bind_restores_keeper :
    answers.Shows descriptor zoe ∧ descriptor.ColumnsFound ∧
      ∃ bound, (answers.bind descriptor).perform ⟨junior, []⟩ = (.ok (), ⟨bound, []⟩) ∧
        ∀ f ∈ descriptor.columns, ∃ v, f.get zoe = .ok v ∧ f.get bound = .ok v :=
  ⟨answers_show, columnsFound,
    bind_restores [] built_descriptor (instance_keeper _ _ _ .unset) rfl
      (instance_keeper _ _ _ (.present (.plain rfl))) rfl answers_show columnsFound⟩

namespace Twins

def upper : Slot := ⟨"upper", .plain .uint64, 0, 8⟩

def lower : Slot := ⟨"lower", .plain .uint64, 8, 8⟩

def twins (first second : UInt64) : Record :=
  .mk "Twins" [("upper", .scalar (.uint64 first)), ("lower", .scalar (.uint64 second))]

def recordType : RecordType := ⟨"Twins", [upper, lower], 16, twins 0 0⟩

def catalogue : Catalogue := [recordType]

/-- The names of the two fields are the same letter in lower and in upper case. -/
def fields : List Field :=
  [Field.ofSlot catalogue "Twins" upper "n", Field.ofSlot catalogue "Twins" lower "N"]

def descriptor : Descriptor := ⟨"Twins", "Twins", "Twins", none, fields, 0, twins 0 0⟩

private theorem instance_twins (first second : UInt64) :
    (twins first second).Instance catalogue := by
  have found : catalogue.type? "Twins" = some recordType := rfl
  refine .of_slots found fun slot member => ?_
  simp only [recordType, List.mem_cons, List.not_mem_nil, or_false] at member
  rcases member with rfl | rfl
  · exact ⟨_, rfl, .plain rfl⟩
  · exact ⟨_, rfl, .plain rfl⟩

private theorem built_descriptor : descriptor.Built catalogue := by
  have known : catalogue.type? recordType.name = some recordType := rfl
  have hasUpper : recordType.slot? upper.name = some upper := rfl
  have hasLower : recordType.slot? lower.name = some lower := rfl
  have first := (Descriptor.Draft.Formed.draft known "Twins").field (.slot known hasUpper 0 "n")
  exact .build (first.field (.slot known hasLower 8 "N")) rfl

def answers : Row := Scripted.Cell.row ["n", "N"] [.value (.uint64 1), .value (.uint64 2)]

end Twins

open Twins in
/-- Of two columns whose names differ in case only, both are bound to the first field. -/
theorem bind_confuses_case :
    descriptor.Built catalogue ∧ (twins 1 2).Instance catalogue ∧ (twins 0 0).Instance catalogue ∧
      answers.Shows descriptor (twins 1 2) ∧
      (answers.bind descriptor).perform ⟨twins 0 0, []⟩ = (.ok (), ⟨twins 2 0, []⟩) ∧
      ¬∃ bound, (answers.bind descriptor).perform ⟨twins 0 0, []⟩ = (.ok (), ⟨bound, []⟩) ∧
        ∀ f ∈ descriptor.columns, ∃ v, f.get (twins 1 2) = .ok v ∧ f.get bound = .ok v := by
  have reads : List.Forall₂ (fun f v => f.get (twins 1 2) = .ok v) descriptor.columns
      [.uint64 1, .uint64 2] := .cons rfl (.cons rfl .nil)
  have shows : answers.Shows descriptor (twins 1 2) := shows_scripted reads (by simp)
  have run : (answers.bind descriptor).perform ⟨twins 0 0, []⟩ = (.ok (), ⟨twins 2 0, []⟩) := by cbv
  refine ⟨built_descriptor, instance_twins 1 2, instance_twins 0 0, shows, run, ?_⟩
  rintro ⟨bound, again, restores⟩
  obtain rfl : twins 2 0 = bound := congrArg (fun p => p.2.record) (run.symm.trans again)
  obtain ⟨v, here, there⟩ := restores _ List.mem_cons_self
  obtain rfl : Value.uint64 1 = v := Except.ok.inj here
  cases there

end ObjectMapping.Row
