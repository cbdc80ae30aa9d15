import ObjectMapping.Field

/-! Reading descends: what a slot holds is smaller than its record, and a value is
not larger than the contents that it was read from. Walks over nested records end
because of this. -/
namespace ObjectMapping

/-- What a key leads to is smaller than the whole list. -/
theorem sizeOf_lookup_lt [SizeOf α] {key : String} {a : α} :
    {entries : List (String × α)} → entries.lookup key = some a → sizeOf a < sizeOf entries
  | [], found => by simp at found
  | (k, b) :: rest, found => by
    rw [List.lookup_cons] at found
    split at found
    · cases found
      simp
      omega
    · have smaller := sizeOf_lookup_lt found
      simp
      omega

mutual

theorem Datum.sizeOf_toValue_le : (d : Datum) → sizeOf d.toValue ≤ sizeOf d
  | .scalar _ => by simp [Datum.toValue]
  | .record _ => by simp [Datum.toValue]
  | .vacant => by simp [Datum.toValue]
  | .occupied _ => by simp [Datum.toValue]
  | .unset => by simp [Datum.toValue]
  | .present d => by
    have inner := Datum.sizeOf_toValue_le d
    simp [Datum.toValue]
    omega
  | .list items => by
    have inner := Datum.sizeOf_toValues_le items
    simp [Datum.toValue]
    omega

theorem Datum.sizeOf_toValues_le :
    (items : List Datum) → sizeOf (Datum.toValues items) ≤ sizeOf items
  | [] => by simp [Datum.toValues]
  | d :: rest => by
    have first := Datum.sizeOf_toValue_le d
    have others := Datum.sizeOf_toValues_le rest
    simp [Datum.toValues]
    omega

end

namespace Record

theorem sizeOf_slot_lt {r : Record} {name : String} {d : Datum} (found : r.slot? name = some d) :
    sizeOf d < sizeOf r := by
  cases r with
  | mk type slots =>
    have smaller : sizeOf d < sizeOf slots := sizeOf_lookup_lt found
    simp
    omega

theorem sizeOf_get_lt {r : Record} {path : List String} {d : Datum}
    (found : r.get? path = some d) : sizeOf d < sizeOf r := by
  induction path generalizing r with
  | nil => simp [get?] at found
  | cons slot rest ih =>
    cases rest with
    | nil => exact sizeOf_slot_lt found
    | cons next rest =>
      rw [get?] at found
      split at found
      · next inner here =>
        have smaller := sizeOf_slot_lt here
        have deeper := ih found
        simp at smaller
        omega
      · simp at found
      · simp

end Record

namespace Field

theorem sizeOf_present (f : Field) (v : Value) : sizeOf (f.present v) = sizeOf v := by
  unfold present
  split
  · split <;> simp
  · rfl

/-- The value of a field is smaller than the record. -/
theorem sizeOf_get_lt {f : Field} {r : Record} {v : Value} (read : f.get r = .ok v) :
    sizeOf v < sizeOf r := by
  unfold get at read
  split at read
  · split at read
    · next d found =>
      cases read
      rw [sizeOf_present]
      exact Nat.lt_of_le_of_lt (Datum.sizeOf_toValue_le d) (Record.sizeOf_get_lt found)
    · simp at read
  · simp at read

end Field

end ObjectMapping
