import ObjectMapping.Proofs.Field.Access
import ObjectMapping.Proofs.Registry
import ObjectMapping.Registry.Admissible

/-! A registry is built of what may be registered together, and of nothing else. It then knows every
object by its name and by its type, and every enumeration by its name. -/
namespace ObjectMapping

namespace Shape

variable {s element : Shape} {type : TypeName} {e : Enumeration}

theorem recordType_eq_some : s.recordType? = some type ↔ s.Embeds type := by
  constructor
  · intro found
    induction s with
    | record => exact Option.some.inj found ▸ .record
    | nullable inner ih => exact .nullable (ih found)
    | plain | enum | variant | list => cases found
  · intro embeds
    induction embeds with
    | record => rfl
    | nullable inside ih => exact ih

theorem enumeration_eq_some : s.enumeration? = some e ↔ s.Enumerates e := by
  constructor
  · intro found
    induction s with
    | enum => exact Option.some.inj found ▸ .enum
    | nullable inner ih => exact .nullable (ih found)
    | plain | record | variant | list => cases found
  · intro enumerates
    induction enumerates with
    | enum => rfl
    | nullable inside ih => exact ih

theorem element_eq_some : s.element? = some element ↔ s.Lists element := by
  constructor
  · intro found
    induction s with
    | list => exact Option.some.inj found ▸ .list
    | nullable inner ih => exact .nullable (ih found)
    | plain | enum | record | variant => cases found
  · intro lists
    induction lists with
    | list => rfl
    | nullable inside ih => exact ih

end Shape

namespace Registry

variable {objects : List Descriptor} {enums : List Enumeration} {reg : Registry} {d : Descriptor}
  {e : Enumeration} {type : TypeName}

/-- The types that a descriptor refers to are those that are looked for. -/
theorem mem_references : (∃ place, (place, type) ∈ references d) ↔ d.Refers type := by
  constructor
  · rintro ⟨place, referenced⟩
    rcases List.mem_append.mp referenced with inherited | ofField
    · obtain ⟨s, inherits, same⟩ := Option.map_eq_some_iff.mp (Option.mem_toList.mp inherited)
      obtain ⟨-, rfl⟩ := Prod.mk.inj same
      exact .super inherits
    · obtain ⟨f, member, listed⟩ := List.mem_flatMap.mp ofField
      obtain ⟨_, referred, same⟩ := List.mem_map.mp listed
      obtain ⟨-, rfl⟩ := Prod.mk.inj same
      rcases List.mem_append.mp referred with nested | element
      · exact .nested member (Shape.recordType_eq_some.mp (Option.mem_toList.mp nested))
      · obtain ⟨s, lists, embeds⟩ := Option.bind_eq_some_iff.mp (Option.mem_toList.mp element)
        exact .element member (Shape.element_eq_some.mp lists) (Shape.recordType_eq_some.mp embeds)
  · have ofField : ∀ f ∈ d.fields, ∀ type ∈ referredTypes f,
        ∃ place, (place, type) ∈ references d := by
      intro f member type referred
      refine ⟨f.name, List.mem_append_right _ ?_⟩
      exact List.mem_flatMap.mpr ⟨f, member, List.mem_map_of_mem referred⟩
    intro refers
    cases refers with
    | super inherits =>
      refine ⟨"super type", List.mem_append_left _ ?_⟩
      exact Option.mem_toList.mpr (Option.map_eq_some_iff.mpr ⟨_, inherits, rfl⟩)
    | nested member embeds =>
      refine ofField _ member _ (List.mem_append_left _ ?_)
      exact Option.mem_toList.mpr (Shape.recordType_eq_some.mpr embeds)
    | element member lists embeds =>
      refine ofField _ member _ (List.mem_append_right _ (Option.mem_toList.mpr ?_))
      exact Option.bind_eq_some_iff.mpr
        ⟨_, Shape.element_eq_some.mpr lists, Shape.recordType_eq_some.mpr embeds⟩

theorem mem_collected : e ∈ enums ++ objects.flatMap usedEnums ↔ Collects objects enums e := by
  constructor
  · intro member
    rcases List.mem_append.mp member with added | used
    · exact .added added
    · obtain ⟨d, object, used⟩ := List.mem_flatMap.mp used
      obtain ⟨f, member, used⟩ := List.mem_flatMap.mp used
      rcases List.mem_append.mp used with element | described
      · obtain ⟨s, lists, named⟩ := Option.bind_eq_some_iff.mp (Option.mem_toList.mp element)
        exact .element object member (Shape.element_eq_some.mp lists)
          (Shape.enumeration_eq_some.mp named)
      · exact .field object member (Option.mem_toList.mp described)
  · have ofField : ∀ d ∈ objects, ∀ f ∈ d.fields,
        e ∈ (f.shape.element?.bind Shape.enumeration?).toList ++ f.enumeration.toList →
        e ∈ enums ++ objects.flatMap usedEnums := by
      intro d object f member used
      refine List.mem_append_right _ (List.mem_flatMap.mpr ⟨d, object, ?_⟩)
      exact List.mem_flatMap.mpr ⟨f, member, used⟩
    intro collected
    cases collected with
    | added member => exact List.mem_append_left _ member
    | field object member described =>
      exact ofField _ object _ member (List.mem_append_right _ (Option.mem_toList.mpr described))
    | element object member lists enumerates =>
      refine ofField _ object _ member (List.mem_append_left _ (Option.mem_toList.mpr ?_))
      exact Option.bind_eq_some_iff.mpr
        ⟨_, Shape.element_eq_some.mpr lists, Shape.enumeration_eq_some.mpr enumerates⟩

/-- A check of a whole list is a check of every entry. -/
private theorem forM_eq_ok {check : α → Except Error Unit} {entries : List α} :
    forM entries check = .ok () ↔ ∀ a ∈ entries, check a = .ok () := by
  induction entries with
  | nil => simp [pure, Except.pure]
  | cons a rest ih =>
    rw [List.forM_cons, bind_eq_ok, List.forall_mem_cons, ← ih]
    exact ⟨fun ⟨_, first, later⟩ => ⟨first, later⟩, fun ⟨first, later⟩ => ⟨(), first, later⟩⟩

/-- Nothing is referred to that is not registered. -/
theorem checkClosed_eq_ok :
    checkClosed objects = .ok () ↔
      ∀ d ∈ objects, ∀ type, d.Refers type → ∃ e ∈ objects, e.type = type := by
  have known : ∀ type, objects.any (·.type == type) ↔ ∃ e ∈ objects, e.type = type := by
    simp [List.any_eq_true]
  have required : ∀ type, ∀ failed : Error,
      (if objects.any (·.type == type) then .ok () else .error failed : Except Error Unit) = .ok () ↔
        ∃ e ∈ objects, e.type = type := by
    intro type failed
    rw [← known]
    split <;> simp_all
  unfold checkClosed
  simp only [List.forM_eq_forM, forM_eq_ok, required]
  refine forall₂_congr fun d object => ⟨fun each type refers => ?_, fun each reference member => ?_⟩
  · obtain ⟨place, member⟩ := mem_references.mpr refers
    exact each (place, type) member
  · exact each _ (mem_references.mp ⟨_, member⟩)

/-- No two enumerations of one name differ. -/
def Agreeing (enums : List Enumeration) : Prop :=
  ∀ a ∈ enums, ∀ b ∈ enums, a.name = b.name → a = b

private theorem Agreeing.congr {other : List Enumeration} (agree : Agreeing enums)
    (within : ∀ e ∈ other, e ∈ enums) : Agreeing other :=
  fun a first b second => agree a (within a first) b (within b second)

/-- Where names are unambiguous, an enumeration is found by its name. -/
private theorem Agreeing.find (agree : Agreeing enums) (member : e ∈ enums) :
    enums.find? (·.name == e.name) = some e := by
  cases found : enums.find? (·.name == e.name) with
  | none => simpa using List.find?_eq_none.mp found e member
  | some known =>
    have same : known.name = e.name := by simpa using List.find?_some found
    exact congrArg some (agree known (List.mem_of_find?_eq_some found) e member same)

private theorem Agreeing.snoc (agree : Agreeing enums)
    (fresh : enums.find? (·.name == e.name) = none) : Agreeing (enums ++ [e]) := by
  have other : ∀ a ∈ enums, a.name ≠ e.name := by
    intro a member same
    simpa [same] using List.find?_eq_none.mp fresh a member
  intro a first b second same
  rcases List.mem_append.mp first with first | first <;>
    rcases List.mem_append.mp second with second | second
  · exact agree a first b second same
  · exact absurd (List.mem_singleton.mp second ▸ same) (other a first)
  · exact absurd (List.mem_singleton.mp first ▸ same.symm) (other b second)
  · rw [List.mem_singleton.mp first, List.mem_singleton.mp second]

/-- Merging succeeds as long as no two enumerations of one name differ. -/
private theorem merged_of_agreeing {merged : List Enumeration} (agree : Agreeing (merged ++ enums)) :
    ∃ all, enums.foldlM merge merged = .ok all := by
  -- What is merged and what is still to come agree at every step.
  induction enums generalizing merged with
  | nil => exact ⟨merged, rfl⟩
  | cons e rest ih =>
    rw [List.foldlM_cons, merge]
    split
    · have moved : Agreeing ((merged ++ [e]) ++ rest) := by
        rw [List.append_assoc]
        exact agree
      exact ih moved
    · rename_i known found
      have named : known.name = e.name := by simpa using List.find?_some found
      have before := List.mem_append_left (e :: rest) (List.mem_of_find?_eq_some found)
      have here : e ∈ merged ++ e :: rest := List.mem_append_right _ List.mem_cons_self
      rw [if_pos (agree known before e here named)]
      refine ih (agree.congr fun a member => ?_)
      exact List.mem_append.mpr ((List.mem_append.mp member).imp_right (List.mem_cons_of_mem _))

/-- What has been merged is what was to be merged, with one enumeration a name. -/
private theorem agreeing_of_merged {merged all : List Enumeration} (agree : Agreeing merged)
    (ok : enums.foldlM merge merged = .ok all) :
    Agreeing all ∧ ∀ e, e ∈ all ↔ e ∈ merged ++ enums := by
  induction enums generalizing merged with
  | nil =>
    obtain rfl := Except.ok.inj ok
    rw [List.append_nil]
    exact ⟨agree, fun e => Iff.rfl⟩
  | cons e rest ih =>
    rw [List.foldlM_cons] at ok
    obtain ⟨next, step, ok⟩ := bind_eq_ok.mp ok
    rw [merge] at step
    split at step
    · rename_i fresh
      obtain rfl := Except.ok.inj step
      obtain ⟨agreeing, holds⟩ := ih (agree.snoc fresh) ok
      refine ⟨agreeing, fun a => (holds a).trans ?_⟩
      rw [List.append_assoc]
      exact Iff.rfl
    · rename_i known found
      split at step
      · rename_i same
        obtain rfl := Except.ok.inj step
        obtain ⟨agreeing, holds⟩ := ih agree ok
        have present : e ∈ merged := same ▸ List.mem_of_find?_eq_some found
        refine ⟨agreeing, fun a => (holds a).trans ?_⟩
        rw [List.mem_append, List.mem_append, List.mem_cons]
        refine ⟨Or.imp_right .inr, ?_⟩
        rintro (before | rfl | later)
        · exact .inl before
        · exact .inl present
        · exact .inr later
      · cases step

/-- A registry is built of objects and enumerations exactly if they may be registered together. -/
theorem build_eq_ok :
    (∃ reg, build objects enums = .ok reg) ↔ Admissible objects enums := by
  have none : Agreeing [] := nofun
  constructor
  · rintro ⟨reg, ok⟩
    obtain ⟨_, distinct, ok⟩ := bind_eq_ok.mp ok
    obtain ⟨_, closed, ok⟩ := bind_eq_ok.mp ok
    obtain ⟨all, merged, -⟩ := bind_eq_ok.mp ok
    obtain ⟨-, apart⟩ := checkDistinct_eq_ok.mp distinct
    obtain ⟨agreeing, holds⟩ := agreeing_of_merged none merged
    have kept : ∀ e, Collects objects enums e → e ∈ all :=
      fun e collected => (holds e).mpr (mem_collected.mpr collected)
    refine ⟨apart.imp And.left, apart.imp And.right, checkClosed_eq_ok.mp closed, ?_⟩
    exact fun a b first second => agreeing a (kept a first) b (kept b second)
  · intro admissible
    have distinct : checkDistinct [] objects = .ok () :=
      checkDistinct_eq_ok.mpr ⟨nofun, admissible.types.and admissible.names⟩
    have closed : checkClosed objects = .ok () := checkClosed_eq_ok.mpr admissible.closed
    have agreeing : Agreeing ([] ++ (enums ++ objects.flatMap usedEnums)) :=
      fun a first b second => admissible.unambiguous a b (mem_collected.mp first)
        (mem_collected.mp second)
    obtain ⟨all, merged⟩ := merged_of_agreeing agreeing
    exact ⟨⟨objects, all⟩, bind_eq_ok.mpr ⟨(), distinct, bind_eq_ok.mpr ⟨(), closed,
      bind_eq_ok.mpr ⟨all, merged, rfl⟩⟩⟩⟩

/-- A registry holds the enumerations that have been collected, one a name. -/
theorem enums_of_build (ok : build objects enums = .ok reg) :
    Agreeing reg.enums ∧ ∀ e, e ∈ reg.enums ↔ Collects objects enums e := by
  have none : Agreeing [] := nofun
  obtain ⟨_, -, ok⟩ := bind_eq_ok.mp ok
  obtain ⟨_, -, ok⟩ := bind_eq_ok.mp ok
  obtain ⟨all, merged, ok⟩ := bind_eq_ok.mp ok
  obtain rfl := Except.ok.inj ok
  obtain ⟨agreeing, holds⟩ := agreeing_of_merged none merged
  exact ⟨agreeing, fun e => (holds e).trans mem_collected⟩

/-- Whatever a registered type refers to is registered as well. -/
theorem closed_of_build (ok : build objects enums = .ok reg) (member : d ∈ reg.objects)
    (refers : d.Refers type) : ∃ e, reg.byType? type = some e := by
  obtain rfl := objects_of_build ok
  obtain ⟨_, -, ok⟩ := bind_eq_ok.mp ok
  obtain ⟨_, closed, -⟩ := bind_eq_ok.mp ok
  obtain ⟨e, registered, same⟩ := checkClosed_eq_ok.mp closed d member type refers
  exact Option.isSome_iff_exists.mp (List.find?_isSome.mpr ⟨e, registered, by simpa using same⟩)

/-- A registry is built of finished descriptors and of enumerations exactly if they may be
registered together. It finds each object by its name, its type and its instances, makes new
instances of it by its name, and finds each enumeration by its name. -/
theorem build_iff {c : Catalogue} (types : c.Sound) (built : ∀ d ∈ objects, d.Built c)
    (enums : List Enumeration) :
    ((∃ reg, build objects enums = .ok reg) ↔ Admissible objects enums) ∧
      ∀ reg, build objects enums = .ok reg →
        (∀ d ∈ objects, reg.byName? d.name = some d ∧ reg.byType? d.type = some d ∧
          (∀ r : Record, r.type = d.type → reg.descriptorFor r = .ok d) ∧
          reg.resolver d.name = some (c.initial d.type) ∧ (c.initial d.type).type = d.type ∧
          (c.initial d.type).Instance c) ∧
        ∀ e, Collects objects enums e → reg.enumByName? e.name = some e := by
  refine ⟨build_eq_ok, fun reg ok => ?_⟩
  have sound := sound_of_build built ok
  obtain ⟨agreeing, holds⟩ := enums_of_build ok
  obtain rfl := objects_of_build ok
  refine ⟨fun d member => ?_, fun e collected => agreeing.find ((holds e).mpr collected)⟩
  have byName := sound.byName member
  have byType := sound.byType member
  have created : reg.resolver d.name = some d.initial := by rw [resolver, byName, Option.map_some]
  obtain ⟨type, typed⟩ := sound.initial types member
  rw [sound.initial_eq member]
  exact ⟨byName, byType, fun r same => descriptorFor_eq.mpr (same ▸ byType), created, type, typed⟩

open Field.Staff in
/-- Managers are registered together with the types that they inherit from, and not alone. -/
theorem build_staff :
    (∃ reg, build [managerDescriptor, employeeDescriptor, entityDescriptor] [] = .ok reg ∧
      reg.byName? "Entity" = some entityDescriptor ∧
      reg.descriptorFor (managerOf 7) = .ok managerDescriptor ∧
      reg.resolver "Manager" = some (managerOf 0)) ∧
    ¬∃ reg, build [managerDescriptor] [] = .ok reg := by
  have all : ∀ d ∈ [managerDescriptor, employeeDescriptor, entityDescriptor],
      d.Built catalogue := by
    simp [manager_built, employee_built, entity_built]
  have alone : ∀ d ∈ [managerDescriptor], d.Built catalogue := by simp [manager_built]
  obtain ⟨-, registered⟩ := build_iff catalogue_sound all []
  obtain ⟨admissible, -⟩ := build_iff catalogue_sound alone []
  constructor
  · obtain ⟨reg, ok⟩ : ∃ reg,
        build [managerDescriptor, employeeDescriptor, entityDescriptor] [] = .ok reg := ⟨_, rfl⟩
    obtain ⟨found, -⟩ := registered reg ok
    have manager := found managerDescriptor (by simp)
    have entity := found entityDescriptor (by simp)
    exact ⟨reg, ok, entity.1, manager.2.2.1 (managerOf 7) rfl, manager.2.2.2.1⟩
  · intro ok
    have closed := (admissible.mp ok).closed managerDescriptor List.mem_cons_self
    have inherits : managerDescriptor.super = some ⟨"Employee", "Employee"⟩ := rfl
    obtain ⟨d, member, type⟩ := closed "Employee" (.super inherits)
    obtain rfl := List.mem_singleton.mp member
    exact absurd type (by decide)

end Registry

end ObjectMapping
