import ObjectMapping.Proofs.Registry.Admissible

/-! The order of registration does not matter. Whether a registry is built depends on which objects
and enumerations are registered, and so does every answer that it gives. -/
namespace ObjectMapping.Registry

/-- The registries answer every question alike. -/
structure Alike (reg other : Registry) : Prop where
  byName : ∀ name, reg.byName? name = other.byName? name
  byType : ∀ type, reg.byType? type = other.byType? type
  descriptorOf : ∀ type, reg.descriptorOf type = other.descriptorOf type
  descriptorFor : ∀ r, reg.descriptorFor r = other.descriptorFor r
  enumByName : ∀ name, reg.enumByName? name = other.enumByName? name
  resolver : ∀ name, reg.resolver name = other.resolver name

variable {objects objects' : List Descriptor} {enums enums' : List Enumeration}
  {reg reg' : Registry} {e : Enumeration}

theorem Collects.mono (collected : Collects objects enums e) (known : objects ⊆ objects')
    (added : enums ⊆ enums') : Collects objects' enums' e := by
  cases collected with
  | added member => exact .added (added member)
  | field object member described => exact .field (known object) member described
  | element object member lists enumerates =>
    exact .element (known object) member lists enumerates

theorem collects_perm (reordered : objects.Perm objects') (renumbered : enums.Perm enums') :
    Collects objects enums e ↔ Collects objects' enums' e :=
  ⟨fun collected => collected.mono reordered.subset renumbered.subset,
    fun collected => collected.mono reordered.symm.subset renumbered.symm.subset⟩

/-- What may be registered together may be so in every order. -/
theorem Admissible.perm (admissible : Admissible objects enums)
    (reordered : objects.Perm objects') (renumbered : enums.Perm enums') :
    Admissible objects' enums' where
  types := (reordered.pairwise_iff Ne.symm).mp admissible.types
  names := (reordered.pairwise_iff Ne.symm).mp admissible.names
  closed d member type refers := by
    obtain ⟨e, known, same⟩ := admissible.closed d (reordered.mem_iff.mpr member) type refers
    exact ⟨e, reordered.mem_iff.mp known, same⟩
  unambiguous a b first second :=
    admissible.unambiguous a b ((collects_perm reordered renumbered).mpr first)
      ((collects_perm reordered renumbered).mpr second)

/-- Of several objects with different keys at most one has a given key. -/
private theorem unique_key [BEq κ] [LawfulBEq κ] {key : Descriptor → κ}
    (distinct : objects.Pairwise fun a b => key a ≠ key b) (k : κ) :
    ∀ a ∈ objects, ∀ b ∈ objects, key a == k → key b == k → a = b := by
  intro a first b second fits same
  have found := find_distinct distinct first
  have again := find_distinct distinct second
  rw [eq_of_beq fits] at found
  rw [eq_of_beq same] at again
  exact Option.some.inj (found.symm.trans again)

/-- Registries of the same objects and enumerations answer alike. -/
theorem alike_of_build (reordered : objects.Perm objects') (renumbered : enums.Perm enums')
    (ok : build objects enums = .ok reg) (ok' : build objects' enums' = .ok reg') :
    Alike reg reg' := by
  obtain ⟨types, names, -, -⟩ := build_eq_ok.mp ⟨reg, ok⟩
  obtain ⟨agreeing, collected⟩ := enums_of_build ok
  obtain ⟨-, collected'⟩ := enums_of_build ok'
  obtain rfl := objects_of_build ok
  obtain rfl := objects_of_build ok'
  have known : ∀ d, d ∈ reg.objects ↔ d ∈ reg'.objects := fun d => reordered.mem_iff
  have byName : ∀ name, reg.byName? name = reg'.byName? name :=
    fun name => find_congr known (unique_key names name)
  have byType : ∀ type, reg.byType? type = reg'.byType? type :=
    fun type => find_congr known (unique_key types type)
  have used : ∀ e, e ∈ reg.enums ↔ e ∈ reg'.enums := fun e =>
    (collected e).trans ((collects_perm reordered renumbered).trans (collected' e).symm)
  have single : ∀ name, ∀ a ∈ reg.enums, ∀ b ∈ reg.enums,
      a.name == name → b.name == name → a = b :=
    fun name a first b second fits same =>
      agreeing a first b second ((eq_of_beq fits).trans (eq_of_beq same).symm)
  exact {
    byName := byName
    byType := byType
    descriptorOf := fun type => by rw [Registry.descriptorOf, Registry.descriptorOf, byType]
    descriptorFor := fun r => by rw [Registry.descriptorFor, Registry.descriptorFor, byType]
    enumByName := fun name => find_congr used (single name)
    resolver := fun name => by rw [Registry.resolver, Registry.resolver, byName] }

/-- Objects and enumerations that are registered in another order make up a registry in both orders
or in neither, and the two registries answer every question alike. -/
theorem build_perm (reordered : objects.Perm objects') (renumbered : enums.Perm enums') :
    ((∃ reg, build objects enums = .ok reg) ↔ ∃ reg', build objects' enums' = .ok reg') ∧
      ∀ reg reg', build objects enums = .ok reg → build objects' enums' = .ok reg' →
        Alike reg reg' := by
  refine ⟨build_eq_ok.trans (Iff.trans ⟨fun admissible => ?_, fun admissible => ?_⟩
    build_eq_ok.symm), fun reg reg' => alike_of_build reordered renumbered⟩
  · exact admissible.perm reordered renumbered
  · exact admissible.perm reordered.symm renumbered.symm

/-- Enumerations that no field uses. -/
def shades : Enumeration := ⟨"Shade", .simple, 0, [("Light", 0), ("Dark", 1)]⟩
def tones : Enumeration := ⟨"Tone", .simple, 0, [("Warm", 0)]⟩

open Field.Staff in
/-- Types may be registered before or after those that they inherit from. -/
theorem build_staff_reversed :
    ∃ reg reg', build [managerDescriptor, employeeDescriptor, entityDescriptor] [shades, tones] =
        .ok reg ∧
      build [entityDescriptor, employeeDescriptor, managerDescriptor] [tones, shades] = .ok reg' ∧
      reg.objects ≠ reg'.objects ∧ reg.enums ≠ reg'.enums ∧
      reg'.byName? "Manager" = some managerDescriptor ∧ reg'.enumByName? "Shade" = some shades := by
  have objects : [managerDescriptor, employeeDescriptor, entityDescriptor].Perm
      [entityDescriptor, employeeDescriptor, managerDescriptor] := (List.reverse_perm _).symm
  have enums : [shades, tones].Perm [tones, shades] := (List.reverse_perm _).symm
  obtain ⟨both, alike⟩ := build_perm objects enums
  obtain ⟨reg, ok⟩ : ∃ reg, build [managerDescriptor, employeeDescriptor, entityDescriptor]
      [shades, tones] = .ok reg := ⟨_, rfl⟩
  obtain ⟨reg', ok'⟩ := both.mp ⟨reg, ok⟩
  obtain ⟨byName, -, -, -, enumByName, -⟩ := alike reg reg' ok ok'
  refine ⟨reg, reg', ok, ok', ?_, ?_, ?_, ?_⟩
  · rw [objects_of_build ok, objects_of_build ok']
    simp [managerDescriptor, entityDescriptor]
  · obtain rfl : _ = reg := Except.ok.inj ok
    obtain rfl : _ = reg' := Except.ok.inj ok'
    decide
  · rw [← byName]
    obtain rfl : _ = reg := Except.ok.inj ok
    rfl
  · rw [← enumByName]
    obtain rfl : _ = reg := Except.ok.inj ok
    rfl

end ObjectMapping.Registry
