import Mathlib
import ObjectMapping.Proofs.Json.Recovery

/-! A record that is written with its nulls is read back, whatever the record that it is read
into held before. -/
namespace ObjectMapping.Json

/-- What writing with all nulls and reading rest upon. -/
private structure Premises (c : Catalogue) (reg : Registry) (options : JsonOptions) : Prop where
  types : c.Sound
  registry : reg.Sound c
  nulls : options.emitNulls
  key : ∀ d ∈ reg.objects, ∀ f ∈ d.fields, f.name ≠ options.typeKey

/-- With all nulls in its tree, every record of a registered type is recovered. -/
private theorem recovers {c : Catalogue} {reg : Registry} {options : JsonOptions}
    (premises : Premises c reg options) (o : Record) (typed : o.Instance c) (tagged : Bool) (j : Json)
    (carried : CarriesRecord reg o) (ok : ofRecord reg options tagged o = .ok j) :
    ∃ d members, reg.byType? o.type = some d ∧ j = .object members ∧
      (tagged → members.lookup options.typeKey = some (.string d.name)) ∧
      ∀ target : Record, target.type = o.type → target.Instance c →
        ∃ r, toRecord reg reg.resolver options members target = .ok r ∧ r.Instance c ∧
          (Value.object o).Matches reg (.object r) ∧ o.Nearer reg target r := by
  have setting : Setting c reg options := ⟨premises.types, premises.registry, premises.key⟩
  obtain ⟨d, members, found, same, tag, into⟩ := recovered setting o typed tagged j carried ok
  exact ⟨d, members, found, same, tag, fun target type inside =>
    into target type inside (.inl premises.nulls)⟩

/-- A record that is written with its nulls is read back, by what the registry makes of
the names of types, as a record that agrees with it at every depth. -/
theorem decodeInto_encode {c : Catalogue} {reg : Registry} {options : JsonOptions} {o : Record}
    {j : Json} (types : c.Sound) (built : ∀ d ∈ objects, d.Built c)
    (accepted : Registry.build objects enums = .ok reg) (nulls : options.emitNulls)
    (key : ∀ d ∈ reg.objects, ∀ f ∈ d.fields, f.name ≠ options.typeKey)
    (typed : o.Instance c) (carried : CarriesRecord reg o)
    (encoded : encode reg options o = .ok j) :
    ∃ r, (decodeInto reg reg.resolver options j).perform (c.initial o.type) = (.ok (), r) ∧
      (Value.object o).Agrees reg (.object r) := by
  have premises : Premises c reg options :=
    ⟨types, Registry.sound_of_build built accepted, nulls, key⟩
  obtain ⟨d, members, found, rfl, _, into⟩ := recovers premises o typed false j carried encoded
  obtain ⟨member, same⟩ := Registry.byType_mem found
  obtain ⟨typed, inside⟩ := premises.registry.initial types member
  have initial : c.initial o.type = d.initial := by
    rw [← same]
    exact premises.registry.initial_eq member
  obtain ⟨r, read, _, agree, _⟩ := into d.initial (typed.trans same) inside
  refine ⟨r, ?_, agree.agrees fun d member f here =>
    (premises.registry.described d member).owned f here⟩
  rw [initial]
  exact decodeInto_ok read

namespace Fish

def fins : Slot := ⟨"fins", .plain .uint32, 0, 4⟩

def prey : Slot := ⟨"prey", .variant, 8, 16⟩

/-- A fish has flags for its fins and perhaps another fish inside. -/
def fish (flags : UInt32) (eaten : Datum) : Record :=
  .mk "Fish" [("fins", .scalar (.uint32 flags)), ("prey", eaten)]

def recordType : RecordType := ⟨"Fish", [fins, prey], 24, fish 0 .vacant⟩

def catalogue : Catalogue := [recordType]

variable (e : Enumeration)

def finsField : Field := (Field.ofSlot catalogue "Fish" fins "fins").withEnumeration e

def preyField : Field := Field.ofSlot catalogue "Fish" prey "prey"

def draft : Descriptor.Draft :=
  ((Descriptor.draft recordType "Fish").field (finsField e)).field preyField

def descriptor : Descriptor :=
  ⟨"Fish", "Fish", "Fish", none, [finsField e, preyField], 0, fish 0 .vacant⟩

def registry : Registry := ⟨[descriptor e], [e]⟩

variable {e} {flags : UInt32} {eaten : Datum}

private theorem slot_cases {slot : Slot} {name : String} (has : recordType.slot? name = some slot) :
    slot.name = name ∧ (slot = fins ∨ slot = prey) := by
  refine ⟨by simpa using List.find?_some has, ?_⟩
  simpa [recordType] using List.mem_of_find?_eq_some has

private theorem field_cases {f : Field} (member : f ∈ (descriptor e).fields) :
    f = finsField e ∨ f = preyField := by
  simpa [descriptor] using member

theorem instance_fish (holds : eaten.Holds catalogue .variant) :
    (fish flags eaten).Instance catalogue := by
  have found : catalogue.type? "Fish" = some recordType := rfl
  refine .intro found (fun name => if name = "fins" then .scalar (.uint32 flags) else eaten) ?_ ?_
  · intro name slot has
    obtain ⟨rfl, rfl | rfl⟩ := slot_cases has <;> rfl
  · intro name slot has
    obtain ⟨rfl, rfl | rfl⟩ := slot_cases has
    · exact .plain rfl
    · exact holds

theorem sound_catalogue : catalogue.Sound := by
  intro name t found
  obtain rfl := List.mem_singleton.mp (List.mem_of_find?_eq_some found)
  have same : recordType.name = name := by simpa using List.find?_some found
  exact ⟨same, instance_fish .vacant⟩

theorem built_descriptor (ok : (draft e).build = .ok (descriptor e)) :
    ∀ d ∈ [descriptor e], d.Built catalogue := by
  intro d member
  obtain rfl := List.mem_singleton.mp member
  have known : catalogue.type? recordType.name = some recordType := rfl
  have first : Field.Declared catalogue
      (Field.ofSlot catalogue "Fish" { fins with offset := 0 } "fins") := .slot known rfl 0 "fins"
  have second : Field.Declared catalogue
      (Field.ofSlot catalogue "Fish" { prey with offset := 8 } "prey") := .slot known rfl 8 "prey"
  exact .build (.field (.field (.draft known "Fish") (first.withEnumeration e)) second) ok

theorem name_ne_typeKey : ∀ d ∈ (registry e).objects, ∀ f ∈ d.fields, f.name ≠ "@type" := by
  intro d member f here
  obtain rfl := List.mem_singleton.mp member
  rcases field_cases here with rfl | rfl
  · exact (show "fins" ≠ "@type" by decide)
  · exact (show "prey" ≠ "@type" by decide)

theorem carries_fish (legible : e.Legible) (union : e.IsUnion flags)
    (inside : CarriesValue (registry e) (.ofField preyField) (preyField.present eaten.toValue)) :
    CarriesRecord (registry e) (fish flags eaten) := by
  intro d found f member v read
  have known : (registry e).byType? "Fish" = some (descriptor e) := rfl
  obtain rfl := Option.some.inj (known.symm.trans found)
  rcases field_cases member with rfl | rfl
  · obtain rfl : Value.enum flags = v := Except.ok.inj read
    refine .scalar fun other described => ?_
    obtain rfl := Option.some.inj described
    exact ⟨legible, fun _ => union⟩
  · obtain rfl : preyField.present eaten.toValue = v := Except.ok.inj read
    exact inside

/-- Two flags that their names tell apart. -/
def legibleFins : Enumeration := ⟨"Fins", .bitset, 0, [("A", 1), ("B", 2)]⟩

/-- A fish with both flags that has eaten one with the first flag. -/
def pike : Record := fish 3 (.occupied (fish 1 .vacant))

def pikeTree : Json :=
  .object [("fins", .string "A|B"), ("prey",
    .object [("@type", .string "Fish"), ("fins", .string "A"), ("prey", .null)])]

/-- Two flags of which the first is named by the empty text. -/
def unnamedFins : Enumeration := ⟨"Fins", .bitset, 0, [("", 1), ("A", 2)]⟩

end Fish

open Fish in
theorem decodeInto_encode_pike :
    encode (registry legibleFins) .default pike = .ok pikeTree ∧
      ∃ r, (decodeInto (registry legibleFins) (registry legibleFins).resolver .default
        pikeTree).perform (catalogue.initial pike.type) = (.ok (), r) ∧
        (Value.object pike).Agrees (registry legibleFins) (.object r) := by
  have encoded : encode (registry legibleFins) .default pike = .ok pikeTree := by cbv
  have legible : legibleFins.Legible := ⟨by decide, by decide, by decide, by decide⟩
  have first : legibleFins.IsUnion 1 := ⟨[("A", 1)], by simp [legibleFins], rfl⟩
  have both : legibleFins.IsUnion 3 := ⟨legibleFins.values, List.Subset.refl _, rfl⟩
  have eaten : (fish 1 .vacant).Instance catalogue := instance_fish .vacant
  have carried : CarriesRecord (registry legibleFins) pike :=
    carries_fish legible both (.object (carries_fish legible first .null))
  have built := built_descriptor (rfl : (draft legibleFins).build = _)
  have accepted : Registry.build [descriptor legibleFins] [] = .ok (registry legibleFins) := rfl
  exact ⟨encoded, decodeInto_encode sound_catalogue built accepted rfl name_ne_typeKey
    (instance_fish (.occupied eaten)) carried encoded⟩

open Fish in
/-- A flag named by the empty text is lost: that text stands for the empty union. -/
theorem emptyName_lost :
    catalogue.Sound ∧ (∀ d ∈ [descriptor unnamedFins], d.Built catalogue) ∧
      Registry.build [descriptor unnamedFins] [] = .ok (registry unnamedFins) ∧
      (∀ d ∈ (registry unnamedFins).objects, ∀ f ∈ d.fields, f.name ≠ "@type") ∧
      (fish 1 .vacant).Instance catalogue ∧
      (unnamedFins.values.map (·.1)).Nodup ∧
      (∀ entry ∈ unnamedFins.values, '|' ∉ entry.1.toList ∧ trimBlanks entry.1 = entry.1) ∧
      unnamedFins.IsUnion 1 ∧
      ∃ j, encode (registry unnamedFins) .default (fish 1 .vacant) = .ok j ∧
        ¬∃ r, (decodeInto (registry unnamedFins) (registry unnamedFins).resolver .default
          j).perform (catalogue.initial "Fish") = (.ok (), r) ∧
          (Value.object (fish 1 .vacant)).Agrees (registry unnamedFins) (.object r) := by
  have encoded : encode (registry unnamedFins) .default (fish 1 .vacant) =
      .ok (.object [("fins", .string ""), ("prey", .null)]) := by cbv
  have decoded : (decodeInto (registry unnamedFins) (registry unnamedFins).resolver .default
      (.object [("fins", .string ""), ("prey", .null)])).perform (catalogue.initial "Fish") =
      (.ok (), fish 0 .vacant) := by cbv
  have union : unnamedFins.IsUnion 1 := ⟨[("", 1)], by simp [unnamedFins], rfl⟩
  refine ⟨sound_catalogue, built_descriptor rfl, rfl, name_ne_typeKey, instance_fish .vacant,
    by decide, by decide, union, _, encoded, ?_⟩
  rintro ⟨r, read, agree⟩
  rw [decoded] at read
  obtain rfl : fish 0 .vacant = r := congrArg Prod.snd read
  cases agree with
  | object _ found first second reads each =>
    have known : (registry unnamedFins).byType? "Fish" = some (descriptor unnamedFins) := rfl
    obtain rfl := Option.some.inj (known.symm.trans found)
    have member : finsField unnamedFins ∈ (descriptor unnamedFins).fields := List.mem_cons_self
    obtain ⟨here, there⟩ := reads _ member
    have same := each _ member
    rw [← show Value.enum 1 = first _ from Except.ok.inj here,
      ← show Value.enum 0 = second _ from Except.ok.inj there] at same
    cases same

end ObjectMapping.Json
