import ObjectMapping.Proofs.Field.Lossless
import ObjectMapping.Statement.Column

/-! Columns that are made for a shape. Making one compares tags; the numbers of one enumeration need
not be those of another. -/
namespace ObjectMapping

theorem Expr.constant_injective (same : constant v = constant w) : v = w := by
  cases v <;> cases w <;> cases same <;> rfl

theorem ColumnRef.make_ok {d : Descriptor} {name : String} (ok : ColumnRef.make d name = .ok c) :
    c.descriptor = d ∧ c.field ∈ d.columns := by
  unfold ColumnRef.make at ok
  split at ok
  · cases ok
  rename_i f found
  split at ok
  case isFalse => cases ok
  rename_i column
  obtain rfl := Except.ok.inj ok
  exact ⟨rfl, List.mem_filter.mpr ⟨List.mem_of_find?_eq_some found, column⟩⟩

namespace TypedColumn

/-- A column that was accepted for a type is one of a descriptor of that type, and its field goes
with the shape that was asked for. -/
theorem make_eq_ok {d : Descriptor} (ok : make d type wanted name = .ok c) :
    d.type = type ∧ c.ref.descriptor = d ∧ c.ref.field ∈ d.columns ∧
      matchesShape c.ref.field wanted.shape := by
  unfold make at ok
  split at ok
  · cases ok
  rename_i described
  obtain ⟨ref, made, ok⟩ := bind_eq_ok.mp ok
  split at ok
  case isFalse => cases ok
  rename_i accepted
  obtain rfl := Except.ok.inj ok
  obtain ⟨same, member⟩ := ColumnRef.make_ok made
  exact ⟨Decidable.not_not.mp described, same, member, accepted⟩

theorem make_ok {d : Descriptor} (ok : make d type wanted name = .ok c) :
    d.type = type ∧ c.ref.descriptor = d ∧ c.ref.field ∈ d.columns := by
  obtain ⟨described, same, member, -⟩ := make_eq_ok ok
  exact ⟨described, same, member⟩

end TypedColumn

namespace Shape

/-- Columns over slots of the first shape are made for the second. -/
inductive Resembles : Shape → Shape → Prop where
  | plain (p : PlainShape) : Resembles (plain p) (plain p)
  | enum (own wanted : Enumeration) : Resembles (enum own) (enum wanted)
  /-- Numbers that are described as values of an enumeration. -/
  | numbers (wanted : Enumeration) : Resembles (plain .uint32) (enum wanted)
  /-- The values of an enumeration as numbers. -/
  | asNumbers (own : Enumeration) : Resembles (enum own) (plain .uint32)
  | nullable (inside : Resembles own wanted) : Resembles (nullable own) (nullable wanted)

theorem resembles_of_type {own wanted : Shape} (column : own.type.isColumn)
    (depth : own.nullableDepth = wanted.nullableDepth)
    (typed : own.type = wanted.type ∨ own.type = .uint32 ∧ wanted.type = .enum ∨
      own.type = .enum ∧ wanted.type = .uint32) : own.Resembles wanted := by
  induction own generalizing wanted with
  | plain p =>
    rcases typed with same | ⟨number, enum⟩ | ⟨enum, -⟩
    · exact eq_plain same.symm depth.symm ▸ .plain p
    · obtain ⟨e, rfl⟩ := exists_enum enum depth.symm
      obtain rfl := Shape.plain.inj (eq_plain (p := .uint32) number rfl)
      exact .numbers e
    · obtain ⟨e, other⟩ := exists_enum enum rfl
      cases other
  | enum own =>
    rcases typed with same | ⟨number, -⟩ | ⟨-, number⟩
    · obtain ⟨e, rfl⟩ := exists_enum same.symm depth.symm
      exact .enum own e
    · cases number
    · exact eq_plain (p := .uint32) number depth.symm ▸ .asNumbers own
  | record | variant | list => cases column
  | nullable inner ih =>
    cases wanted with
    | nullable wanted => exact .nullable (ih column (Nat.succ.inj depth) typed)
    | plain | enum | record | variant | list => cases depth

theorem number_unique {v : Value} (number : v = .enum n ∨ v = .uint32 n)
    (other : v = .enum k ∨ v = .uint32 k) : n = k := by
  rcases number with rfl | rfl <;> rcases other with same | same <;> cases same <;> rfl

theorem names_null (own : Shape) : own.Names .null := by
  rintro _ _ _ (number | number) <;> cases number

theorem admits_enum {e : Enumeration} (number : v = .enum n ∨ v = .uint32 n) :
    (enum e).Admits v ↔ (enum e).Names v := by
  constructor
  · intro admits other k own again
    obtain rfl := number_unique number again
    obtain rfl := Option.some.inj own
    rcases number with rfl | rfl
    · cases admits with
      | enum named => exact named
    · cases admits with
      | enumNumber named => exact named
  · intro names
    have named := names e n rfl number
    rcases number with rfl | rfl
    · exact .enum named
    · exact .enumNumber named

/-- What has the wanted shape is taken by the slot unless it is a number that the enumeration of the
slot does not name. -/
theorem Resembles.admits_iff {own wanted : Shape} (alike : own.Resembles wanted) {x : Datum}
    (holds : x.Holds c wanted) : own.Admits x.toValue ↔ own.Names x.toValue := by
  induction alike generalizing x with
  | plain p =>
    cases holds with
    | plain same => exact iff_of_true (.plain same) nofun
  | enum own wanted =>
    cases holds with
    | @enum n _ named => exact admits_enum (n := n) (.inl rfl)
  | numbers wanted =>
    cases holds with
    | @enum n => exact iff_of_true (.number n) nofun
  | asNumbers own =>
    cases holds with
    | @plain p s same =>
      cases s with
      | uint32 n => exact admits_enum (n := n) (.inr rfl)
      | _ => cases same
  | nullable alike ih =>
    cases holds with
    | unset => exact iff_of_true (.unset _) (names_null _)
    | @present _ d inside =>
      have within := ih inside
      rw [Datum.toValue]
      generalize d.toValue = v at within ⊢
      refine ⟨fun admits => ?_, fun names => .present (within.mpr names)⟩
      cases admits with
      | unset => exact names_null _
      | present fits => exact within.mp fits

/-- The numbers that stand for values of the wanted shape. -/
theorem number_of_holds {wanted : Shape} {x : Datum} (holds : x.Holds c wanted)
    (number : x.toValue = .enum n ∨ x.toValue = .uint32 n)
    (described : wanted.enumeration? = some e) : (e.nameOf? n).isSome := by
  induction wanted generalizing x with
  | enum own =>
    obtain rfl := Option.some.inj described
    cases holds with
    | @enum k _ named => exact number_unique (.inl rfl) number ▸ named
  | nullable inner ih =>
    cases holds with
    | unset => rcases number with number | number <;> cases number
    | @present _ d inside =>
      rw [Datum.toValue] at number
      exact ih inside number described
  | plain | record | variant | list => cases described

theorem Resembles.exists_number {own wanted : Shape} (alike : own.Resembles wanted) (c : Catalogue)
    (described : own.enumeration? = some e)
    (named : ∀ other, wanted.enumeration? = some other → (other.nameOf? n).isSome) :
    ∃ x : Datum, x.Holds c wanted ∧ (x.toValue = .enum n ∨ x.toValue = .uint32 n) := by
  induction alike with
  | plain | numbers => cases described
  | enum own wanted => exact ⟨.scalar (.enum n), .enum (named wanted rfl), .inl rfl⟩
  | asNumbers own => exact ⟨.scalar (.uint32 n), .plain rfl, .inr rfl⟩
  | nullable alike ih =>
    obtain ⟨x, holds, number⟩ := ih described named
    exact ⟨.present x, .present holds, number⟩

/-- Slots take whatever has the wanted shape if their enumeration names all its numbers. -/
theorem Resembles.covers_iff {own wanted : Shape} (alike : own.Resembles wanted) (c : Catalogue) :
    (∀ x : Datum, x.Holds c wanted → own.Names x.toValue) ↔ own.Covers wanted := by
  constructor
  · intro names e n described named
    obtain ⟨x, holds, number⟩ := alike.exists_number c described named
    exact names x holds e n described number
  · intro covers x holds e n described number
    exact covers e n described fun other wanted => number_of_holds holds number wanted

end Shape

namespace TypedColumn

/-- A field that a column is made for has a slot that goes with the shape. -/
theorem resembles_of_accepted {f : Field} (linked : f.Linked c) (column : f.isColumn)
    (accepted : matchesShape f wanted) : f.shape.Resembles wanted := by
  simp only [matchesShape, Bool.and_eq_true, Bool.or_eq_true, beq_iff_eq] at accepted
  obtain ⟨tags, depth⟩ := accepted
  refine Shape.resembles_of_type (linked.column column) depth ?_
  rcases linked.typed with slot | ⟨enum, numbers⟩ <;> rcases tags with same | ⟨⟨number, tag⟩, -⟩
  · exact .inl (slot.symm.trans same)
  · exact .inr (.inr ⟨slot.symm.trans tag, number⟩)
  · exact .inr (.inl ⟨numbers, same.symm.trans enum⟩)
  · exact .inl (numbers.trans number.symm)

theorem takes_iff {column : TypedColumn} {x : Datum} :
    column.Takes x r ↔ ∃ changed, column.ref.field.set r x.toValue = .ok changed := by
  constructor
  · rintro ⟨v, changed, assigned, ok⟩
    have same := Expr.constant_injective (AssignedValue.expr.inj (Assignment.mk.inj assigned).2)
    exact ⟨changed, same ▸ ok⟩
  · exact fun ⟨changed, ok⟩ => ⟨_, changed, rfl, ok⟩

/-- The field of a column that was accepted takes what is assigned to it, unless that is a number
which the enumeration in the slot of the field does not name. This never happens if and only if that
enumeration names all numbers that stand for values of the shape for which the column was made. -/
theorem takes_all_iff {d : Descriptor} (types : c.Sound) (built : d.Built c)
    (ok : make d type wanted name = .ok column) :
    (∀ (x : Datum) (r : Record), x.Holds c wanted.shape → r.Instance c → r.type = type →
      (column.Takes x r ↔ column.ref.field.shape.Names x.toValue)) ∧
      ((∀ (x : Datum) (r : Record), x.Holds c wanted.shape → r.Instance c → r.type = type →
        column.Takes x r) ↔ column.ref.field.shape.Covers wanted.shape) := by
  have sound := built.sound
  obtain ⟨rfl, -, member, accepted⟩ := make_eq_ok ok
  obtain ⟨listed, single⟩ := List.mem_filter.mp member
  have alike := resembles_of_accepted (sound.linked _ listed) single accepted
  have each : ∀ (x : Datum) (r : Record), x.Holds c wanted.shape → r.Instance c → r.type = d.type →
      (column.Takes x r ↔ column.ref.field.shape.Names x.toValue) := by
    intro x r holds typed same
    obtain ⟨owned, old, found, -⟩ := sound.content listed typed same
    exact takes_iff.trans ((Field.set_iff (sound.linked _ listed) owned found).trans
      (alike.admits_iff holds))
  refine ⟨each, Iff.trans ⟨fun taken x holds => ?_, fun names x r holds typed same => ?_⟩
    (alike.covers_iff c)⟩
  · -- What the slot takes does not depend on the record, so a new one will do.
    obtain ⟨fresh, typed⟩ := sound.initial types
    exact (each x d.initial holds typed fresh).mp (taken x d.initial holds typed fresh)
  · exact (each x r holds typed same).mpr (names x holds)

namespace Poster

def colours : Enumeration := ⟨"Colour", .simple, 1, [("Red", 1), ("Green", 2)]⟩

def roles : Enumeration := ⟨"Role", .simple, 0, [("Guest", 0), ("Owner", 1)]⟩

def colour : Slot := ⟨"colour", .enum colours, 0, 4⟩

def poster (n : UInt32) : Record := .mk "Poster" [("colour", .scalar (.enum n))]

def recordType : RecordType := ⟨"Poster", [colour], 4, poster 1⟩

def catalogue : Catalogue := [recordType]

def field : Field := Field.ofSlot catalogue "Poster" colour "colour"

def descriptor : Descriptor := ⟨"Poster", "Poster", "Poster", none, [field], 0, poster 1⟩

/-- The colour of a poster as a column for values of the shape. -/
def column (s : Shape) : TypedColumn := ⟨⟨descriptor, field⟩, s⟩

theorem instance_poster : (poster 1).Instance catalogue := by
  have found : catalogue.type? "Poster" = some recordType := rfl
  refine .of_slots found fun slot member => ?_
  obtain rfl := List.mem_singleton.mp member
  exact ⟨_, rfl, .enum rfl⟩

theorem catalogue_sound : catalogue.Sound := by
  intro name t found
  obtain rfl : t = recordType := List.mem_singleton.mp (List.mem_of_find?_eq_some found)
  have named : recordType.name = name := by simpa using List.find?_some found
  exact ⟨named, instance_poster⟩

theorem built_descriptor : descriptor.Built catalogue := by
  have known : catalogue.type? recordType.name = some recordType := rfl
  have has : recordType.slot? colour.name = some colour := rfl
  have declared : field.Declared catalogue := .slot known has 0 "colour"
  exact .build ((Descriptor.Draft.Formed.draft known "Poster").field declared) rfl

end Poster

open Poster in
/-- A column for colours takes every colour. -/
theorem takes_all_poster :
    make descriptor "Poster" ⟨"Colour", .enum colours⟩ "colour" = .ok (column (.enum colours)) ∧
      ∀ (x : Datum) (r : Record), x.Holds catalogue (.enum colours) → r.Instance catalogue →
        r.type = "Poster" → (column (.enum colours)).Takes x r := by
  have made :
    make descriptor "Poster" ⟨"Colour", .enum colours⟩ "colour" = .ok (column (.enum colours)) := rfl
  refine ⟨made, (takes_all_iff catalogue_sound built_descriptor made).2.mpr ?_⟩
  rintro e n ⟨⟩ named
  exact named colours rfl

open Poster in
/-- A column for roles or for numbers can be made over colours, which are neither. -/
theorem takes_all_confused :
    catalogue.Sound ∧ descriptor.Built catalogue ∧ (poster 1).Instance catalogue ∧
      make descriptor "Poster" ⟨"Role", .enum roles⟩ "colour" = .ok (column (.enum roles)) ∧
      (Datum.scalar (.enum 0)).Holds catalogue (.enum roles) ∧
      ¬(column (.enum roles)).Takes (.scalar (.enum 0)) (poster 1) ∧
      make descriptor "Poster" ⟨"u32", .plain .uint32⟩ "colour" = .ok (column (.plain .uint32)) ∧
      (Datum.scalar (.uint32 9)).Holds catalogue (.plain .uint32) ∧
      ¬(column (.plain .uint32)).Takes (.scalar (.uint32 9)) (poster 1) := by
  refine ⟨catalogue_sound, built_descriptor, instance_poster, rfl, .enum rfl, ?_, rfl, .plain rfl, ?_⟩
  all_goals
    rw [takes_iff]
    exact nofun

end TypedColumn

end ObjectMapping
