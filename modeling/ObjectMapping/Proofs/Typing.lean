import ObjectMapping.Proofs.Except
import ObjectMapping.Proofs.Lookup
import ObjectMapping.Typing

/-! Reading and writing keep to the types: a path that leads to a slot of a shape finds
data of that shape, and data of that shape may be put there. -/
namespace ObjectMapping

theorem Value.eq_null_of_isNull {v : Value} (nothing : v.isNull) : v = .null := by
  cases v with
  | null => rfl
  | _ => cases nothing

namespace Record

private theorem lookup_replace_same (name : String) (d : Datum) (slots : List (String × Datum))
    (found : slots.lookup name = some old) :
    (setSlot.replace name d slots).lookup name = some d := by
  induction slots with
  | nil => cases found
  | cons slot slots ih =>
    obtain ⟨n, held⟩ := slot
    by_cases same : n = name
    · simp [setSlot.replace, same]
    · have other : name ≠ n := fun h => same h.symm
      rw [lookup_cons_ne other] at found
      simp only [setSlot.replace, beq_iff_eq, same, if_false]
      rw [lookup_cons_ne other, ih found]

private theorem lookup_replace_other (d : Datum) (slots : List (String × Datum))
    (other : m ≠ name) : (setSlot.replace name d slots).lookup m = slots.lookup m := by
  induction slots with
  | nil => rfl
  | cons slot slots ih =>
    obtain ⟨n, held⟩ := slot
    by_cases same : n = name
    · subst same
      simp only [setSlot.replace, beq_self_eq_true, if_true]
      rw [lookup_cons_ne other, lookup_cons_ne other]
    · simp only [setSlot.replace, beq_iff_eq, same, if_false, List.lookup_cons, ih]

theorem slot_setSlot_same {r : Record} {name : String} (found : r.slot? name = some old)
    (d : Datum) : (r.setSlot name d).slot? name = some d :=
  lookup_replace_same name d r.slots found

theorem slot_setSlot_other (r : Record) (d : Datum) (other : m ≠ name) :
    (r.setSlot name d).slot? m = r.slot? m :=
  lookup_replace_other d r.slots other

end Record

theorem Datum.holds_record {c : Catalogue} {d : Datum} :
    d.Holds c (.record type) ↔ ∃ r, d = .record r ∧ r.type = type ∧ r.Instance c := by
  constructor
  · intro holds
    cases holds with
    | record same inside => exact ⟨_, rfl, same, inside⟩
  · rintro ⟨r, rfl, same, inside⟩
    exact .record same inside

/-- The elements of a list are read one by one. -/
theorem Datum.mem_toValues {items : List Datum} :
    v ∈ Datum.toValues items ↔ ∃ d ∈ items, d.toValue = v := by
  induction items with
  | nil => simp [Datum.toValues]
  | cons d rest ih =>
    rw [Datum.toValues, List.mem_cons, ih]
    simp [eq_comm]

namespace Record

variable {c : Catalogue} {slot : Slot} {type : TypeName}

/-- A record whose slots hold data of their shapes is an instance of its type. -/
theorem Instance.of_slots {r : Record} (found : c.type? r.type = some t)
    (each : ∀ slot ∈ t.slots, ∃ d, r.slot? slot.name = some d ∧ d.Holds c slot.shape) :
    r.Instance c := by
  have stored : ∀ name slot, t.slot? name = some slot →
      ∃ d, r.slot? name = some d ∧ d.Holds c slot.shape := by
    intro name slot has
    have same : slot.name = name := by simpa using List.find?_some has
    exact same ▸ each slot (List.mem_of_find?_eq_some has)
  refine .intro found (fun name => (r.slot? name).getD .unset) ?_ ?_
  · intro name slot has
    obtain ⟨d, here, _⟩ := stored name slot has
    rw [here, Option.getD_some]
  · intro name slot has
    obtain ⟨d, here, holds⟩ := stored name slot has
    rwa [here, Option.getD_some]

theorem Instance.content {r : Record} (typed : r.Instance c) (found : c.type? r.type = some t)
    (has : t.slot? name = some slot) :
    ∃ d, r.slot? name = some d ∧ d.Holds c slot.shape := by
  cases typed with
  | intro same content stored holds =>
    obtain rfl := Option.some.inj (same.symm.trans found)
    exact ⟨content name, stored name slot has, holds name slot has⟩

theorem Instance.setSlot {r : Record} (typed : r.Instance c) (found : c.type? r.type = some t)
    (has : t.slot? name = some slot) (holds : d.Holds c slot.shape) :
    (r.setSlot name d).Instance c := by
  obtain ⟨old, here, _⟩ := typed.content found has
  cases typed with
  | intro same content stored kept =>
    obtain rfl := Option.some.inj (same.symm.trans found)
    refine .intro found (fun m => if m = name then d else content m) ?_ ?_
    · intro m other hasOther
      by_cases equal : m = name
      · subst equal
        simpa using slot_setSlot_same here d
      · rw [slot_setSlot_other r d equal, if_neg equal]
        exact stored m other hasOther
    · intro m other hasOther
      by_cases equal : m = name
      · subst equal
        obtain rfl := Option.some.inj (has.symm.trans hasOther)
        simpa using holds
      · rw [if_neg equal]
        exact kept m other hasOther

theorem get_through {r inner : Record} {name : String}
    (found : r.slot? name = some (.record inner)) (longer : path ≠ []) :
    r.get? (name :: path) = inner.get? path := by
  cases path with
  | nil => exact absurd rfl longer
  | cons next path =>
    simp only [get?, found]

theorem set_through {r inner : Record} {name : String}
    (found : r.slot? name = some (.record inner)) (longer : path ≠ []) (d : Datum) :
    r.set? d (name :: path) =
      (inner.set? d path).map fun changed => r.setSlot name (.record changed) := by
  cases path with
  | nil => exact absurd rfl longer
  | cons next path =>
    simp only [set?, found]

theorem leads_ne_nil (leads : c.Leads type path shape) : path ≠ [] := by
  cases leads <;> exact List.cons_ne_nil _ _

/-- A path of the type leads to data of its shape. -/
theorem get_of_leads {r : Record} (typed : r.Instance c) (leads : c.Leads r.type path shape) :
    ∃ d, r.get? path = some d ∧ d.Holds c shape := by
  generalize same : r.type = type at leads
  induction leads generalizing r with
  | slot found has => exact typed.content (same ▸ found) has
  | through found has embeds rest ih =>
    obtain ⟨d, here, holds⟩ := typed.content (same ▸ found) has
    obtain ⟨inner, rfl, type, inside⟩ := Datum.holds_record.mp (embeds ▸ holds)
    rw [get_through here (leads_ne_nil rest)]
    exact ih inside type

/-- Data of its shape may be put at the end of a path. -/
theorem set_of_leads {r : Record} (typed : r.Instance c) (leads : c.Leads r.type path shape)
    (holds : d.Holds c shape) :
    ∃ changed, r.set? d path = some changed ∧ changed.Instance c ∧ changed.type = r.type := by
  generalize same : r.type = type at leads
  induction leads generalizing r with
  | @slot _ _ name _ found has =>
    obtain ⟨old, here, _⟩ := typed.content (same ▸ found) has
    refine ⟨r.setSlot name d, ?_, typed.setSlot (same ▸ found) has holds, same⟩
    rw [set?, here, Option.map_some]
  | @through _ _ name _ _ path _ found has embeds rest ih =>
    obtain ⟨old, here, held⟩ := typed.content (same ▸ found) has
    obtain ⟨inner, rfl, type, inside⟩ := Datum.holds_record.mp (embeds ▸ held)
    obtain ⟨changed, set, kept, type⟩ := ih inside holds type
    have fits := embeds ▸ Datum.holds_record.mpr ⟨changed, rfl, type, kept⟩
    refine ⟨r.setSlot name (.record changed), ?_, typed.setSlot (same ▸ found) has fits, same⟩
    rw [set_through here (leads_ne_nil rest), set, Option.map_some]

end Record

namespace Field

variable {f : Field} {r changed : Record} {d : Datum} {v : Value}

theorem get_eq (owned : r.type = f.owner) (found : r.get? f.path = some d) :
    f.get r = .ok (f.present d.toValue) := by
  rw [Field.get, if_pos owned, found]

theorem get_eq_ok : f.get r = .ok v ↔
    r.type = f.owner ∧ ∃ d, r.get? f.path = some d ∧ f.present d.toValue = v := by
  constructor
  · intro read
    unfold Field.get at read
    split at read
    · rename_i owned
      split at read
      · rename_i d found
        exact ⟨owned, d, found, Except.ok.inj read⟩
      · cases read
    · cases read
  · rintro ⟨owned, d, found, rfl⟩
    exact get_eq owned found

theorem present_of_ne_enum (other : f.type ≠ .enum) (v : Value) : f.present v = v := by
  unfold present
  split
  · exact if_neg other
  · rfl

theorem present_eq_null : f.present v = .null ↔ v = .null := by
  unfold present
  split
  · refine ⟨fun same => ?_, fun same => by cases same⟩
    split at same <;> cases same
  · rfl

theorem set_eq (owned : r.type = f.owner) (absent : v.isNull → f.isNullable ∨ f.type = .variant)
    (fits : f.shape.ofValue v = .ok d) (set : r.set? d f.path = some changed) :
    f.set r v = .ok changed := by
  have allowed : ¬(v.isNull && !f.isNullable && f.type != .variant) := by
    intro refused
    simp only [Bool.and_eq_true, Bool.not_eq_true', bne_iff_ne] at refused
    obtain ⟨⟨null, plain⟩, other⟩ := refused
    rcases absent null with nullable | variant
    · rw [plain] at nullable
      cases nullable
    · exact other variant
  rw [Field.set, if_neg allowed, if_pos owned]
  exact bind_eq_ok.mpr ⟨d, inField_eq_ok.mpr fits, by rw [set]⟩

theorem set_eq_ok (ok : f.set r v = .ok changed) :
    r.type = f.owner ∧ ∃ d, f.shape.ofValue v = .ok d ∧ r.set? d f.path = some changed := by
  unfold Field.set at ok
  split at ok
  · cases ok
  split at ok
  · rename_i owned
    obtain ⟨d, fits, ok⟩ := bind_eq_ok.mp ok
    refine ⟨owned, d, inField_eq_ok.mp fits, ?_⟩
    split at ok
    · rename_i found
      rw [found, Except.ok.inj ok]
    · cases ok
  · cases ok

end Field

end ObjectMapping
