import ObjectMapping.Field.Default
import ObjectMapping.Proofs.Descriptor
import ObjectMapping.Proofs.Json.Matching
import ObjectMapping.Proofs.Json.Places

/-! The default of a field that a source does not mention. Writing it succeeds when the slot takes
it, which the checks of a descriptor guarantee for less than all of them. -/
namespace ObjectMapping

namespace Shape

theorem admits_of_accept {p : PlainShape} {a : Scalar} (accepted : p.accept a = some stored) :
    (plain p).Admits (.scalar a) := by
  unfold PlainShape.accept at accepted
  split at accepted
  · exact .number _
  · exact .plain (Option.ite_none_right_eq_some.mp accepted).1

theorem enumOfNumber_iff {e : Enumeration} {n : UInt32} :
    (∃ d, enumOfNumber e n = .ok d) ↔ (e.nameOf? n).isSome := by
  unfold enumOfNumber
  split <;> simp [*]

/-- Writing a value succeeds if the slot takes it, and in no other case. -/
theorem ofValue_iff {s : Shape} : (∃ d, s.ofValue v = .ok d) ↔ s.Admits v := by
  induction s generalizing v with
  | plain p =>
    constructor
    · rintro ⟨d, ok⟩
      cases v with
      | scalar a =>
        change singleOfValue (plain p) (.scalar a) = .ok d at ok
        rw [singleOfValue] at ok
        split at ok
        · rename_i accepted
          exact admits_of_accept accepted
        · cases ok
      | null | object | array => cases ok
    · intro admits
      cases admits with
      | plain same => exact ⟨_, ofValue_stored same⟩
      | number n => exact ⟨_, rfl⟩
  | enum e =>
    constructor
    · rintro ⟨d, ok⟩
      cases v with
      | scalar a =>
        cases a with
        | enum n => exact .enum (enumOfNumber_iff.mp ⟨d, ok⟩)
        | uint32 n => exact .enumNumber (enumOfNumber_iff.mp ⟨d, ok⟩)
        | _ => cases ok
      | null | object | array => cases ok
    · intro admits
      cases admits with
      | enum named => exact enumOfNumber_iff.mpr named
      | enumNumber named => exact enumOfNumber_iff.mpr named
  | record type =>
    constructor
    · rintro ⟨d, ok⟩
      cases v with
      | object r =>
        change singleOfValue (record type) (.object r) = .ok d at ok
        rw [singleOfValue] at ok
        split at ok
        · exact .record (by assumption)
        · cases ok
      | null | scalar | array => cases ok
    · intro admits
      cases admits with
      | record same => exact ⟨_, if_pos same⟩
  | variant =>
    constructor
    · rintro ⟨d, ok⟩
      cases v with
      | null => exact .vacant
      | object r => exact .occupied r
      | scalar | array => cases ok
    · intro admits
      cases admits with
      | vacant => exact ⟨_, rfl⟩
      | occupied r => exact ⟨_, rfl⟩
  | nullable inner ih =>
    cases nothing : v.isNull with
    | true =>
      obtain rfl := Value.eq_null_of_isNull nothing
      exact ⟨fun _ => .unset inner, fun _ => ⟨_, rfl⟩⟩
    | false =>
      rw [ofValue_nullable nothing]
      constructor
      · rintro ⟨d, ok⟩
        obtain ⟨content, inside, -⟩ := except_map_eq_ok.mp ok
        exact .present (ih.mp ⟨content, inside⟩)
      · intro admits
        cases admits with
        | unset => cases nothing
        | present inside =>
          obtain ⟨content, inside⟩ := ih.mpr inside
          exact ⟨_, except_map_eq_ok.mpr ⟨content, inside, rfl⟩⟩
  | list element ih =>
    constructor
    · rintro ⟨d, ok⟩
      cases v with
      | array items =>
        obtain ⟨ds, each, -⟩ := except_map_eq_ok.mp ok
        exact .list fun v member => ih.mp (exists_mapM_ok.mp ⟨ds, each⟩ v member)
      | null | scalar | object => cases ok
    · intro admits
      cases admits with
      | list each =>
        obtain ⟨ds, stored⟩ := exists_mapM_ok.mpr fun v member => ih.mpr (each v member)
        exact ⟨_, except_map_eq_ok.mpr ⟨ds, stored, rfl⟩⟩

theorem eq_plain {p : PlainShape} {s : Shape} (typed : s.type = p.type) (single : s.nullableDepth = 0) :
    s = plain p := by
  cases s with
  | plain q =>
    have same : q.type = p.type := typed
    cases q <;> cases p <;> first | rfl | cases same
  | nullable => cases single
  | enum | record | variant | list => cases p <;> cases typed

theorem exists_enum {s : Shape} (typed : s.type = .enum) (single : s.nullableDepth = 0) :
    ∃ e, s = enum e := by
  cases s with
  | plain p => cases p <;> cases typed
  | enum e => exact ⟨e, rfl⟩
  | nullable => cases single
  | record | variant | list => cases typed

theorem admits_null {s : Shape} (admits : s.Admits .null) :
    0 < s.nullableDepth ∨ s.type = .variant := by
  cases admits with
  | vacant => exact .inr rfl
  | unset | present => exact .inl (Nat.succ_pos _)

/-- A slot takes what it begins with, if it holds no enumeration of its own. -/
theorem admits_zero {c : Catalogue} (types : c.Sound) (s : Shape) (other : ∀ e, s ≠ .enum e) :
    s.Admits (s.zero c.initial).toValue := by
  cases s with
  | plain p =>
    have same : p.zero.type = p.type := by cases p <;> rfl
    exact .plain same
  | enum e => exact absurd rfl (other e)
  | record type =>
    refine .record ?_
    unfold Catalogue.initial
    split
    · rename_i t found
      exact (types type t found).1
    · rfl
  | variant => exact .vacant
  | nullable inner => exact .unset inner
  | list element =>
    have nothing : (Datum.list []).toValue = .array [] := rfl
    exact nothing ▸ .list nofun

end Shape

/-- Where there is content, new content can be put. -/
theorem Record.set_of_get {r : Record} (found : r.get? path = some old) (d : Datum) :
    ∃ changed, r.set? d path = some changed := by
  induction path generalizing r with
  | nil => cases found
  | cons name path ih =>
    cases path with
    | nil =>
      have here : r.slot? name = some old := found
      exact ⟨_, by rw [Record.set?, here]; rfl⟩
    | cons next path =>
      simp only [Record.get?] at found
      split at found
      · rename_i inner here
        obtain ⟨changed, set⟩ := ih found
        exact ⟨_, by rw [set_through here (List.cons_ne_nil _ _), set]; rfl⟩
      · cases found

namespace Field

variable {c : Catalogue} {f : Field} {r changed : Record} {v : Value}

/-- What a field keeps of its declaration: what its slot begins with, and that its tag says
enumeration only if it has one. -/
structure Regular (c : Catalogue) (f : Field) : Prop where
  zero : f.zero = (f.shape.zero c.initial).toValue
  described : f.type = .enum → ∃ e, f.enumeration = some e

theorem Declared.regular (declared : f.Declared c) : f.Regular c := by
  induction declared with
  | slot =>
    refine ⟨rfl, fun enum => ?_⟩
    have owned : ∀ s : Shape, s.type = .enum → ∃ e, s.enumeration? = some e := by
      intro s
      induction s with
      | plain p => cases p <;> nofun
      | enum e => exact fun _ => ⟨e, rfl⟩
      | nullable inner ih => exact ih
      | record | variant | list => nofun
    exact owned _ enum
  | withDefault _ _ ih => exact ⟨ih.zero, ih.described⟩
  | withEnumeration _ e ih =>
    unfold Field.withEnumeration
    split <;> exact ⟨ih.zero, fun _ => ⟨e, rfl⟩⟩
  | mandatoriness _ _ ih => exact ⟨ih.zero, ih.described⟩
  | primaryKey _ _ ih => exact ⟨ih.zero, ih.described⟩
  | autoIncrement _ _ ih => exact ⟨ih.zero, ih.described⟩

/-- Writing into a field of a record that has it succeeds if the slot takes the value. -/
theorem set_iff (linked : f.Linked c) (owned : r.type = f.owner) (found : r.get? f.path = some old) :
    (∃ changed, f.set r v = .ok changed) ↔ f.shape.Admits v := by
  rw [← Shape.ofValue_iff]
  constructor
  · rintro ⟨changed, ok⟩
    obtain ⟨-, d, fits, -⟩ := set_eq_ok ok
    exact ⟨d, fits⟩
  · rintro ⟨d, fits⟩
    obtain ⟨changed, set⟩ := Record.set_of_get found d
    refine ⟨changed, set_eq owned (fun null => ?_) fits set⟩
    obtain rfl := Value.eq_null_of_isNull null
    rcases Shape.admits_null (Shape.ofValue_iff.mp ⟨d, fits⟩) with nullable | variant
    · exact .inl (decide_eq_true nullable)
    · rcases linked.typed with same | ⟨-, number⟩
      · exact .inr (same.trans variant)
      · cases number.symm.trans variant

theorem defaultForAbsent_described (given : f.explicitDefault = none) (single : f.isNullable = false)
    (enum : f.type = .enum) (described : f.enumeration = some e) :
    f.defaultForAbsent = .enum e.default := by
  simp [defaultForAbsent, given, single, enum, described]

theorem defaultForAbsent_zero (given : f.explicitDefault = none)
    (other : ¬(f.isNullable = false ∧ f.type = .enum)) : f.defaultForAbsent = f.zero := by
  unfold defaultForAbsent
  rw [given]
  simp only
  split
  · refine if_neg fun enum => other ?_
    simpa using enum
  · rfl

/-- A slot that is described by an enumeration holds values of one or numbers. -/
theorem Linked.enum (linked : f.Linked c) (single : f.isNullable = false) (enum : f.type = .enum) :
    (∃ own, f.shape = .enum own) ∨ f.shape = .plain .uint32 := by
  have flat : f.shape.nullableDepth = 0 := Nat.eq_zero_of_not_pos (of_decide_eq_false single)
  rcases linked.typed with same | ⟨-, number⟩
  · exact .inl (Shape.exists_enum (same.symm.trans enum) flat)
  · exact .inr (Shape.eq_plain (p := .uint32) number flat)

/-- The slot takes what is written for an absent value if the default fits. -/
theorem admits_default (types : c.Sound) (linked : f.Linked c) (regular : f.Regular c) :
    f.shape.Admits f.defaultForAbsent ↔ f.DefaultFits := by
  unfold DefaultFits
  cases given : f.explicitDefault with
  | some v =>
    have declared : f.defaultForAbsent = v := by simp [defaultForAbsent, given]
    rw [declared]
  | none =>
    simp only
    by_cases enum : f.isNullable = false ∧ f.type = .enum
    · obtain ⟨e, described⟩ := regular.described enum.2
      rw [defaultForAbsent_described given enum.1 enum.2 described]
      rcases linked.enum enum.1 enum.2 with ⟨own, shape⟩ | shape
      · rw [shape]
        constructor
        · rintro ⟨named⟩ _ _ ⟨⟩ same
          obtain rfl := Option.some.inj (described.symm.trans same)
          assumption
        · exact fun named => .enum (named own e rfl described)
      · rw [shape]
        exact ⟨fun _ _ _ other => (nomatch other), fun _ => .number e.default⟩
    · rw [defaultForAbsent_zero given enum, regular.zero]
      have other : ∀ own, f.shape ≠ .enum own := by
        intro own shape
        have single : f.isNullable = false := by simp [isNullable, shape, Shape.nullableDepth]
        have tag : f.shape.type = .enum := by rw [shape]; rfl
        exact enum ⟨single, linked.typed.elim (fun same => same.trans tag) And.left⟩
      exact ⟨fun _ own _ shape => absurd shape (other own), fun _ => Shape.admits_zero types _ other⟩

/-- A number or the value of an enumeration that is written into a slot for one is read as the value
of an enumeration. -/
theorem present_of_ofValue {s : Shape} (enum : f.type = .enum)
    (typed : s.type = .enum ∨ s.type = .uint32) (number : v = .enum n ∨ v = .uint32 n)
    (ok : s.ofValue v = .ok d) : f.present d.toValue = .enum n := by
  have shown : f.present (.uint32 n) = .enum n := if_pos enum
  induction s generalizing d with
  | plain p =>
    obtain rfl : p = .uint32 := by
      cases p <;> first | rfl | rcases typed with tag | tag <;> cases tag
    have stored : d = .scalar (.uint32 n) := by
      rcases number with rfl | rfl <;> exact (Except.ok.inj ok).symm
    exact stored ▸ shown
  | enum e =>
    have written : Shape.enumOfNumber e n = .ok d := by
      rcases number with rfl | rfl <;> exact ok
    unfold Shape.enumOfNumber at written
    split at written
    · obtain rfl := Except.ok.inj written
      rfl
    · cases written
  | nullable inner ih =>
    have something : v.isNull = false := by rcases number with rfl | rfl <;> rfl
    rw [Shape.ofValue_nullable something] at ok
    obtain ⟨content, inside, rfl⟩ := except_map_eq_ok.mp ok
    have kept := ih typed inside
    exact kept
  | record | variant | list => rcases typed with tag | tag <;> cases tag

/-- What is read after a value has been written. -/
theorem get_of_set (ok : f.set r v = .ok changed) :
    ∃ d, f.shape.ofValue v = .ok d ∧ f.get changed = .ok (f.present d.toValue) := by
  obtain ⟨owned, d, fits, set⟩ := set_eq_ok ok
  exact ⟨d, fits, get_eq ((Record.set_type set).trans owned) (Record.get_of_set set)⟩

/-- The checks of a descriptor let a default pass that is nothing, a value of the enumeration or,
unchecked, a number. -/
theorem default_of_quiet {b : Descriptor.Draft} (quiet : b.complaint? f = none)
    (given : f.explicitDefault = some v) (enum : f.type = .enum) (described : f.enumeration = some e) :
    v = .null ∨ (∃ n, v = .enum n ∧ e.contains n) ∨ ∃ n, v = .uint32 n := by
  obtain ⟨suits, contains⟩ := Descriptor.Draft.complaint_default quiet given
  have tag : ∀ t, v.type? = some t → t = .enum ∨ t = .uint32 := by
    intro t typed
    rw [typed, Descriptor.Draft.suits, enum, Bool.or_eq_true, Bool.and_eq_true] at suits
    exact suits.imp eq_of_beq fun number => eq_of_beq number.1
  cases v with
  | null => exact .inl rfl
  | scalar a =>
    cases a with
    | enum n => exact .inr (.inl ⟨n, rfl, contains n e rfl described⟩)
    | uint32 n => exact .inr (.inr ⟨n, rfl⟩)
    | _ => rcases tag _ rfl with tag | tag <;> cases tag
  | object | array => rcases tag _ rfl with tag | tag <;> cases tag

/-- A default that the checks let pass is one of the enumeration, unless it is a number. -/
theorem readsContained_iff {b : Descriptor.Draft} (linked : f.Linked c) (regular : f.Regular c)
    (quiet : b.complaint? f = none) (enum : f.type = .enum) (given : f.explicitDefault = some v)
    (ok : f.set r v = .ok changed) :
    f.ReadsContained changed ↔ ∀ n, v = .uint32 n → ∃ e, f.enumeration = some e ∧ e.contains n := by
  obtain ⟨d, fits, read⟩ := get_of_set ok
  obtain ⟨e, described⟩ := regular.described enum
  have slot : f.shape.type = .enum ∨ f.shape.type = .uint32 :=
    linked.typed.imp (fun tag => tag.symm.trans enum) And.right
  rcases default_of_quiet quiet given enum described with rfl | ⟨n, rfl, contained⟩ | ⟨n, rfl⟩
  · have allowed := Shape.admits_null (Shape.ofValue_iff.mp ⟨d, fits⟩)
    obtain ⟨y, written, -, nothing⟩ := Shape.ofValue_null c allowed
    obtain rfl := Except.ok.inj (fits.symm.trans written)
    rw [present_eq_null.mpr nothing] at read
    exact ⟨fun _ => nofun, fun _ => .inl read⟩
  · rw [present_of_ofValue enum slot (.inl rfl) fits] at read
    exact ⟨fun _ => nofun, fun _ => .inr ⟨e, n, described, read, contained⟩⟩
  · rw [present_of_ofValue enum slot (.inr rfl) fits] at read
    constructor
    · rintro (nothing | ⟨e, k, described, other, contained⟩) _ ⟨⟩
      · cases read.symm.trans nothing
      · cases read.symm.trans other
        exact ⟨e, described, contained⟩
    · intro each
      obtain ⟨e, described, contained⟩ := each n rfl
      exact .inr ⟨e, n, described, read, contained⟩

/-- A field that is not required is resolved if its default fits its slot, and in no other case.
After that an enumeration field with a declared default reads as nothing or as a value of its
enumeration if the default, being declared as a number, is one, and in no other case. -/
theorem resolveAbsent_iff {d : Descriptor} (types : c.Sound) (built : d.Built c)
    (typed : r.Instance c) (same : r.type = d.type) (member : f ∈ d.fields)
    (wanted : f.mandatoriness ≠ .required) :
    ((∃ changed, f.resolveAbsent r = .ok changed) ↔
        (f.mandatoriness = .defaultable → f.DefaultFits)) ∧
      ∀ changed v, f.mandatoriness = .defaultable → f.type = .enum → f.explicitDefault = some v →
        f.resolveAbsent r = .ok changed →
          (f.ReadsContained changed ↔
            ∀ n, v = .uint32 n → ∃ e, f.enumeration = some e ∧ e.contains n) := by
  have sound := built.sound
  have linked := sound.linked f member
  have regular : f.Regular c := built.each (fun _ declared => declared.regular)
    (fun _ _ _ before => ⟨before.zero, before.described⟩) f member
  have owned : r.type = f.owner := same.trans (sound.owned f member).symm
  obtain ⟨old, found, -⟩ := Record.get_of_leads typed (owned ▸ linked.leads)
  constructor
  · cases rule : f.mandatoriness with
    | required => exact absurd rule wanted
    | optional => exact ⟨nofun, fun _ => ⟨r, by rw [resolveAbsent, rule]⟩⟩
    | defaultable =>
      simp only [resolveAbsent, rule, forall_const]
      exact (set_iff linked owned found).trans (admits_default types linked regular)
  · intro changed v rule enum given ok
    have declared : f.defaultForAbsent = v := by simp [defaultForAbsent, given]
    simp only [resolveAbsent, rule, declared] at ok
    obtain ⟨b, quiet⟩ := built.quiet member
    exact readsContained_iff linked regular quiet enum given ok

namespace Lamp

def code : Slot := ⟨"code", .plain .uint32, 0, 4⟩

def marks : Slot := ⟨"marks", .list (.plain .uint32), 8, 24⟩

def lamp (n : UInt32) : Record :=
  .mk "Lamp" [("code", .scalar (.uint32 n)), ("marks", .list [])]

def recordType : RecordType := ⟨"Lamp", [code, marks], 32, lamp 0⟩

def catalogue : Catalogue := [recordType]

def colours : Enumeration := ⟨"Colour", .simple, 1, [("Red", 1), ("Green", 2)]⟩

/-- The colour of a lamp, which is declared to be a number when it is absent. -/
def codeField (n : UInt32) : Field :=
  ((Field.ofSlot catalogue "Lamp" code "code").withEnumeration colours).withDefault (.uint32 n)

/-- The marks on a lamp. -/
def marksField (items : List Value) : Field :=
  (Field.ofSlot catalogue "Lamp" marks "marks").withDefault (.array items)

def descriptor (n : UInt32) (items : List Value) : Descriptor :=
  ⟨"Lamp", "Lamp", "Lamp", none, [codeField n, marksField items], 0, lamp 0⟩

theorem instance_lamp (n : UInt32) : (lamp n).Instance catalogue := by
  have found : catalogue.type? "Lamp" = some recordType := rfl
  refine .of_slots found fun slot member => ?_
  simp only [recordType, List.mem_cons, List.not_mem_nil, or_false] at member
  rcases member with rfl | rfl
  · exact ⟨_, rfl, .plain rfl⟩
  · exact ⟨_, rfl, .list nofun⟩

theorem catalogue_sound : catalogue.Sound := by
  intro name t found
  obtain rfl : t = recordType := List.mem_singleton.mp (List.mem_of_find?_eq_some found)
  have named : recordType.name = name := by simpa using List.find?_some found
  exact ⟨named, instance_lamp 0⟩

def draft (n : UInt32) (items : List Value) : Descriptor.Draft :=
  ((Descriptor.draft recordType "Lamp").field (codeField n)).field (marksField items)

theorem built_descriptor (ok : (draft n items).build = .ok (descriptor n items)) :
    (descriptor n items).Built catalogue := by
  have known : catalogue.type? recordType.name = some recordType := rfl
  have hasCode : recordType.slot? code.name = some code := rfl
  have hasMarks : recordType.slot? marks.name = some marks := rfl
  have first : (codeField n).Declared catalogue :=
    ((Declared.slot known hasCode 0 "code").withEnumeration colours).withDefault (.uint32 n)
  have second : (marksField items).Declared catalogue :=
    (Declared.slot known hasMarks 8 "marks").withDefault (.array items)
  exact .build (((Descriptor.Draft.Formed.draft known "Lamp").field first).field second) ok

end Lamp

open Lamp in
theorem resolveAbsent_lamp :
    (descriptor 2 [.uint32 7]).Built catalogue ∧
      (∃ changed, (codeField 2).resolveAbsent (lamp 0) = .ok changed ∧
        (codeField 2).ReadsContained changed) ∧
      ∃ changed, (marksField [.uint32 7]).resolveAbsent (lamp 0) = .ok changed := by
  have built : (descriptor 2 [.uint32 7]).Built catalogue := built_descriptor rfl
  have first := resolveAbsent_iff catalogue_sound built (instance_lamp 0) rfl List.mem_cons_self
    (f := codeField 2) nofun
  have second := resolveAbsent_iff catalogue_sound built (instance_lamp 0) rfl
    (List.mem_cons_of_mem _ List.mem_cons_self) (f := marksField [.uint32 7]) nofun
  obtain ⟨changed, ok⟩ := first.1.mpr fun _ => .plain rfl
  refine ⟨built, ⟨changed, ok, (first.2 changed _ rfl rfl rfl ok).mpr ?_⟩,
    second.1.mpr fun _ => .list ?_⟩
  · rintro n ⟨⟩
    exact ⟨colours, rfl, rfl⟩
  · intro v member
    obtain rfl := List.mem_singleton.mp member
    exact .plain rfl

open Lamp in
/-- A number that is no colour is set unchecked, and a list of texts is refused only when it is
written into the list of numbers. -/
theorem resolveAbsent_unchecked :
    catalogue.Sound ∧ (descriptor 9 [.string "x"]).Built catalogue ∧ (lamp 0).Instance catalogue ∧
      (∃ changed, (codeField 9).resolveAbsent (lamp 0) = .ok changed ∧
        (codeField 9).get changed = .ok (.enum 9) ∧ colours.contains 9 = false ∧
        ¬(codeField 9).ReadsContained changed) ∧
      ¬∃ changed, (marksField [.string "x"]).resolveAbsent (lamp 0) = .ok changed := by
  refine ⟨catalogue_sound, built_descriptor rfl, instance_lamp 0, ⟨_, rfl, rfl, rfl, ?_⟩, nofun⟩
  rintro (nothing | ⟨e, n, described, read, contained⟩)
  · cases nothing
  · cases described
    cases read
    cases contained

end Field

end ObjectMapping
