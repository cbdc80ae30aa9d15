import ObjectMapping.Proofs.Descriptor
import ObjectMapping.Proofs.Lookup
import ObjectMapping.Registry

/-! What is true of every registry: its descriptors are finished ones, of which no two
have the same type or the same name. -/
namespace ObjectMapping.Registry

/-- The registry describes declared types, each of them once and under its own name. -/
structure Sound (c : Catalogue) (reg : Registry) : Prop where
  described : ∀ d ∈ reg.objects, d.Sound c
  distinct : reg.objects.Pairwise fun a b => a.type ≠ b.type ∧ a.name ≠ b.name

variable {reg : Registry} {c : Catalogue} {d : Descriptor}

theorem checkDistinct_eq_ok {seen objects : List Descriptor} :
    checkDistinct seen objects = .ok () ↔
      (∀ d ∈ objects, ∀ s ∈ seen, s.type ≠ d.type ∧ s.name ≠ d.name) ∧
        objects.Pairwise fun a b => a.type ≠ b.type ∧ a.name ≠ b.name := by
  induction objects generalizing seen with
  | nil => simp [checkDistinct]
  | cons d rest ih =>
    rw [checkDistinct]
    constructor
    · intro ok
      split at ok
      · cases ok
      rename_i types
      split at ok
      · cases ok
      rename_i names
      obtain ⟨apart, pairwise⟩ := ih.mp ok
      have first : ∀ s ∈ seen, s.type ≠ d.type ∧ s.name ≠ d.name := by
        intro s member
        refine ⟨fun same => types ?_, fun same => names ?_⟩
        · exact List.any_eq_true.mpr ⟨s, member, by simpa using same⟩
        · exact List.any_eq_true.mpr ⟨s, member, by simpa using same⟩
      refine ⟨?_, List.pairwise_cons.mpr ⟨fun e later => ?_, pairwise⟩⟩
      · intro e member s known
        rcases List.mem_cons.mp member with rfl | later
        · exact first s known
        · exact apart e later s (List.mem_cons_of_mem _ known)
      · exact apart e later d List.mem_cons_self
    · rintro ⟨apart, pairwise⟩
      obtain ⟨first, pairwise⟩ := List.pairwise_cons.mp pairwise
      have types : ¬seen.any (·.type == d.type) := by
        intro known
        obtain ⟨s, member, same⟩ := List.any_eq_true.mp known
        exact (apart d List.mem_cons_self s member).1 (by simpa using same)
      have names : ¬seen.any (·.name == d.name) := by
        intro known
        obtain ⟨s, member, same⟩ := List.any_eq_true.mp known
        exact (apart d List.mem_cons_self s member).2 (by simpa using same)
      rw [if_neg types, if_neg names]
      refine ih.mpr ⟨fun e later s known => ?_, pairwise⟩
      rcases List.mem_cons.mp known with rfl | known
      · exact first e later
      · exact apart e (List.mem_cons_of_mem _ later) s known

/-- A registry holds the objects that it has been built of. -/
theorem objects_of_build {objects : List Descriptor} {enums : List Enumeration}
    (ok : build objects enums = .ok reg) : reg.objects = objects := by
  obtain ⟨_, -, ok⟩ := bind_eq_ok.mp ok
  obtain ⟨_, -, ok⟩ := bind_eq_ok.mp ok
  obtain ⟨_, -, ok⟩ := bind_eq_ok.mp ok
  exact Except.ok.inj ok ▸ rfl

/-- A registry of finished descriptors is sound. -/
theorem sound_of_build {objects : List Descriptor} {enums : List Enumeration}
    (built : ∀ d ∈ objects, d.Built c)
    (ok : build objects enums = .ok reg) : reg.Sound c := by
  obtain rfl := objects_of_build ok
  obtain ⟨_, checked, -⟩ := bind_eq_ok.mp ok
  exact ⟨fun d member => (built d member).sound, (checkDistinct_eq_ok.mp checked).2⟩

theorem byType_mem (found : reg.byType? type = some d) : d ∈ reg.objects ∧ d.type = type :=
  ⟨List.mem_of_find?_eq_some found, by simpa using List.find?_some found⟩

/-- A registered descriptor is found by its name. -/
theorem Sound.byName (sound : reg.Sound c) (member : d ∈ reg.objects) :
    reg.byName? d.name = some d :=
  find_distinct (sound.distinct.imp fun apart => apart.2) member

/-- A registered descriptor is found by its type. -/
theorem Sound.byType (sound : reg.Sound c) (member : d ∈ reg.objects) :
    reg.byType? d.type = some d :=
  find_distinct (sound.distinct.imp fun apart => apart.1) member

/-- A new record of a registered type is an instance of it. -/
theorem Sound.initial (sound : reg.Sound c) (types : c.Sound) (member : d ∈ reg.objects) :
    d.initial.type = d.type ∧ d.initial.Instance c :=
  (sound.described d member).initial types

theorem Sound.initial_eq (sound : reg.Sound c) (member : d ∈ reg.objects) :
    c.initial d.type = d.initial := by
  obtain ⟨t, found, same⟩ := (sound.described d member).declared
  rw [Catalogue.initial, found, same]

/-- What new records of a registered type begin as. -/
theorem Sound.initial_of_byType (sound : reg.Sound c) (types : c.Sound)
    (found : reg.byType? type = some d) :
    c.initial type = d.initial ∧ d.initial.type = type ∧ d.initial.Instance c := by
  obtain ⟨member, rfl⟩ := byType_mem found
  obtain ⟨typed, inside⟩ := sound.initial types member
  exact ⟨sound.initial_eq member, typed, inside⟩

/-- A record of a registered type has the descriptor of its type. -/
theorem descriptorFor_eq {r : Record} : reg.descriptorFor r = .ok d ↔ reg.byType? r.type = some d := by
  unfold descriptorFor
  split
  · rename_i e found
    simp [found]
  · rename_i missing
    simp [missing]

end ObjectMapping.Registry
