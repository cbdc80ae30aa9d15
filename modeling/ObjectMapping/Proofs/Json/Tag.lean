import ObjectMapping.Json.Polymorphic
import ObjectMapping.Proofs.Json.Resolver

/-! A polymorphic object names the type of its record unless a field of the record is written in
the place of that name. -/
namespace ObjectMapping.Json

variable {c : Catalogue} {reg : Registry} {options : JsonOptions} {o content : Record} {f : Field}
variable {e d : Descriptor} {members : List (String × Json)} {j : Json}

/-- The tag of a tree is what was put there first, or else the field that took its place. -/
private theorem lookup_tag (distinct : (e.fields.map (·.name)).Nodup)
    (ok : ofFields reg options content [(options.typeKey, .string e.name)] e.fields = .ok members) :
    members.lookup options.typeKey = some (.string e.name) ↔ KeepsTag reg options e content := by
  obtain ⟨each, others⟩ := ofFields_written distinct ok
  have first : [(options.typeKey, Json.string e.name)].lookup options.typeKey =
      some (.string e.name) := List.lookup_cons_self
  constructor
  · intro tag f member same
    cases each f member with
    | member read kept tree found =>
      rw [same, tag] at found
      exact .inr ⟨_, read, Option.some.inj found ▸ tree⟩
    | omitted read short still => exact .inl ⟨short, read⟩
  · intro keeps
    by_cases clash : ∃ f ∈ e.fields, f.name = options.typeKey
    · obtain ⟨f, member, same⟩ := clash
      cases each f member with
      | member read kept tree found =>
        rw [← same, found]
        rcases keeps f member same with ⟨short, null⟩ | ⟨v, again, name⟩
        · obtain rfl := Except.ok.inj (read.symm.trans null)
          rcases kept with nulls | something
          · rw [short] at nulls
            cases nulls
          · exact absurd rfl something
        · obtain rfl := Except.ok.inj (read.symm.trans again)
          exact congrArg some (Except.ok.inj (tree.symm.trans name))
      | omitted read short still => rw [← same, still, same, first]
    · rw [others options.typeKey fun f member same => clash ⟨f, member, same⟩, first]

/-- A name makes an instance of a registered type only if it is the name of that type. -/
private theorem namedTarget_iff (types : c.Sound) (sound : reg.Sound c)
    (registered : reg.byType? type = some e) :
    (∃ target, namedTarget reg.resolver options members = .ok target ∧ target.type = type) ↔
      members.lookup options.typeKey = some (.string e.name) := by
  obtain ⟨member, rfl⟩ := Registry.byType_mem registered
  obtain ⟨same, -⟩ := sound.initial types member
  have resolved : reg.resolver e.name = some e.initial := by
    rw [Registry.resolver, sound.byName member, Option.map_some]
  constructor
  · rintro ⟨target, created, type⟩
    obtain ⟨name, tag, made⟩ := namedTarget_eq_ok created
    obtain ⟨other, found, rfl⟩ := Option.map_eq_some_iff.mp made
    have named : other.name = name := by simpa using List.find?_some found
    have inside : other ∈ reg.objects := List.mem_of_find?_eq_some found
    have kind : other.type = e.type := (sound.initial types inside).1.symm.trans type
    have again := sound.byType inside
    rw [kind, registered] at again
    rw [tag, ← named, Option.some.inj again]
  · intro tag
    refine ⟨e.initial, ?_, same⟩
    rw [namedTarget, tag]
    simp only [resolved]

/-- The tree of a polymorphic object carries the registered name of the type of its content, and
reading it makes an instance of that type, exactly if no field of the content is written in the
place of the name. Whatever it is read as has that type then, and only then. The tree stands under
the name of the field in the tree of the whole record. -/
theorem tagged_iff (types : c.Sound) (built : ∀ d ∈ objects, d.Built c)
    (accepted : Registry.build objects enums = .ok reg) (variant : f.type = .variant)
    (holds : f.get o = .ok (.object content)) (registered : reg.byType? content.type = some e)
    (encoded : ofValue reg options (.ofField f) (.object content) = .ok j) :
    ∃ members, j = .object members ∧
      (members.lookup options.typeKey = some (.string e.name) ↔ KeepsTag reg options e content) ∧
      ((∃ target, namedTarget reg.resolver options members = .ok target ∧
        target.type = content.type) ↔ KeepsTag reg options e content) ∧
      (∀ held v, toValue reg reg.resolver options (.ofField f) held j = .ok v →
        ∃ r, v = .object r ∧ (r.type = content.type ↔ KeepsTag reg options e content)) ∧
      ∀ d, reg.byType? o.type = some d → f ∈ d.fields → ∀ tagged tree,
        ofRecord reg options tagged o = .ok tree →
          ∃ written, tree = .object written ∧ written.lookup f.name = some j := by
  have sound := Registry.sound_of_build built accepted
  have distinct : ∀ type d, reg.byType? type = some d → (d.fields.map (·.name)).Nodup :=
    fun type d found => (sound.described d (Registry.byType_mem found).1).distinct
  have place : decide ((Context.ofField f).type = .variant) = true := decide_eq_true variant
  rw [ofValue, place] at encoded
  obtain ⟨_, members, found, rfl, written⟩ := ofRecord_eq_ok encoded
  obtain rfl := Option.some.inj (registered.symm.trans found)
  have tag := lookup_tag (distinct _ e registered) written
  have made := (namedTarget_iff types sound registered).trans tag
  refine ⟨members, rfl, tag, made, fun held v read => ?_, ?_⟩
  · obtain ⟨target, r, named, inside, rfl⟩ := toValue_variant variant read
    have same := type_of_toRecord inside
    refine ⟨r, rfl, fun type => made.mp ⟨target, named, same.symm.trans type⟩, fun keeps => ?_⟩
    obtain ⟨other, again, type⟩ := made.mpr keeps
    obtain rfl := Except.ok.inj (named.symm.trans again)
    exact same.trans type
  intro d described member tagged tree whole
  obtain ⟨_, written, found, rfl, fields⟩ := ofRecord_eq_ok whole
  obtain rfl := Option.some.inj (described.symm.trans found)
  refine ⟨written, rfl, ?_⟩
  cases (ofFields_written (distinct _ d described) fields).1 f member with
  | member read kept tree there =>
    obtain rfl := Except.ok.inj (holds.symm.trans read)
    rw [ofValue, place, encoded] at tree
    rw [there, Except.ok.inj tree]
  | omitted read short still =>
    have none := Except.ok.inj (holds.symm.trans read)
    cases none

open Fish in
/-- The fish inside the pike is known for a fish when its tree is read. -/
theorem tagged_pike :
    ∃ members, ofValue (registry legibleFins) .default (.ofField preyField)
        (.object (fish 1 .vacant)) = .ok (.object members) ∧
      members.lookup "@type" = some (.string "Fish") ∧
      ∃ target, namedTarget (registry legibleFins).resolver .default members = .ok target ∧
        target.type = "Fish" := by
  have holds : preyField.get pike = .ok (.object (fish 1 .vacant)) := rfl
  have accepted : Registry.build [descriptor legibleFins] [] = .ok (registry legibleFins) := rfl
  have registered : (registry legibleFins).byType? (fish 1 .vacant).type =
      some (descriptor legibleFins) := rfl
  have encoded : ofValue (registry legibleFins) .default (.ofField preyField)
      (.object (fish 1 .vacant)) =
      .ok (.object [("@type", .string "Fish"), ("fins", .string "A"), ("prey", .null)]) := by cbv
  have keeps : KeepsTag (registry legibleFins) .default (descriptor legibleFins) (fish 1 .vacant) :=
    fun f member same => absurd same (name_ne_typeKey _ List.mem_cons_self f member)
  obtain ⟨members, tree, tag, made, -⟩ := tagged_iff sound_catalogue
    (built_descriptor (rfl : (draft legibleFins).build = _)) accepted rfl holds registered encoded
  exact ⟨members, encoded.trans (congrArg Except.ok tree), tag.mpr keeps, made.mpr keeps⟩

open Fish in
/-- If the name of the type goes under the name of a field, the field takes its place: the fish
inside the pike is written without being known for a fish, and its tree cannot be read. -/
theorem tag_overwritten :
    catalogue.Sound ∧ (∀ d ∈ [descriptor legibleFins], d.Built catalogue) ∧
      Registry.build [descriptor legibleFins] [] = .ok (registry legibleFins) ∧
      pike.Instance catalogue ∧ preyField ∈ (descriptor legibleFins).fields ∧
      preyField.type = .variant ∧ preyField.get pike = .ok (.object (fish 1 .vacant)) ∧
      (registry legibleFins).byType? "Fish" = some (descriptor legibleFins) ∧
      ∃ members, ofValue (registry legibleFins) ⟨"fins", true, false⟩ (.ofField preyField)
          (.object (fish 1 .vacant)) = .ok (.object members) ∧
        members.lookup "fins" = some (.string "A") ∧
        ¬∃ target, namedTarget (registry legibleFins).resolver ⟨"fins", true, false⟩ members =
          .ok target := by
  have encoded : ofValue (registry legibleFins) ⟨"fins", true, false⟩ (.ofField preyField)
      (.object (fish 1 .vacant)) = .ok (.object [("fins", .string "A"), ("prey", .null)]) := by cbv
  refine ⟨sound_catalogue, built_descriptor rfl, rfl,
    instance_fish (.occupied (instance_fish .vacant)), List.mem_cons_of_mem _ List.mem_cons_self,
    rfl, rfl, rfl, _, encoded, rfl, ?_⟩
  rintro ⟨target, made⟩
  have refused : namedTarget (registry legibleFins).resolver ⟨"fins", true, false⟩
      [("fins", .string "A"), ("prey", .null)] =
      .error (.ofData (.unknownType "A") "type 'A' cannot be resolved") := rfl
  rw [refused] at made
  cases made

end ObjectMapping.Json
