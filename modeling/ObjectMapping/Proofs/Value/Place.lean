import ObjectMapping.Proofs.Field.Access
import ObjectMapping.Proofs.Json.Matching
import ObjectMapping.Proofs.Json.Places
import ObjectMapping.Value.Place

/-! Which records lie where after a slot has been written. What is stored shows the records of the
value that was written, and outside the place of the slot the records stay of the types that they
had. -/
namespace ObjectMapping

open Value (Step)

namespace Value

variable {items : List Value} {r : Record} {name : String} {index : Nat} {d : Datum} {v : Value}

theorem typeAt_slot (found : r.slot? name = some d) (place : List Step) :
    (Value.object r).typeAt? (.slot name :: place) = d.toValue.typeAt? place := by
  simp only [typeAt?, at?, found, Option.bind_some]

theorem typeAt_item (found : items[index]? = some v) (place : List Step) :
    (Value.array items).typeAt? (.item index :: place) = v.typeAt? place := by
  simp only [typeAt?, at?, found, Option.bind_some]

/-- No record lies in a scalar. -/
theorem typeAt_scalar (s : Scalar) (place : List Step) : (Value.scalar s).typeAt? place = none := by
  cases place with
  | nil => rfl
  | cons step place => cases step <;> rfl

end Value

namespace Shape

variable {shape : Shape} {d : Datum} {v : Value}

/-- A scalar is stored as a scalar. -/
private theorem scalar_of_ofValue {s : Scalar} (ok : shape.ofValue (.scalar s) = .ok d) :
    ∃ stored, d.toValue = .scalar stored := by
  induction shape generalizing d with
  | plain p =>
    change singleOfValue (plain p) (.scalar s) = .ok d at ok
    rw [singleOfValue] at ok
    split at ok
    · obtain rfl := Except.ok.inj ok
      exact ⟨_, rfl⟩
    · cases ok
  | enum e =>
    have numbered : ∀ n, enumOfNumber e n = .ok d → ∃ stored, d.toValue = .scalar stored := by
      intro n ok
      unfold enumOfNumber at ok
      split at ok
      · obtain rfl := Except.ok.inj ok
        exact ⟨_, rfl⟩
      · cases ok
    cases s with
    | enum n => exact numbered n ok
    | uint32 n => exact numbered n ok
    | _ => cases ok
  | record | variant | list => cases ok
  | nullable inner ih =>
    rw [ofValue_nullable rfl] at ok
    obtain ⟨content, inside, rfl⟩ := except_map_eq_ok.mp ok
    have shown := ih inside
    exact shown

/-- Stored elements show the records of a place if the elements do. -/
private theorem typeAt_elements {element : Shape} {values : List Value} {ds : List Datum}
    {place : List Step}
    (each : ∀ v d, element.ofValue v = .ok d → d.toValue.typeAt? place = v.typeAt? place)
    (ok : values.mapM element.ofValue = .ok ds) (index : Nat) :
    (Value.array (Datum.toValues ds)).typeAt? (.item index :: place) =
      (Value.array values).typeAt? (.item index :: place) := by
  induction values generalizing ds index with
  | nil =>
    obtain rfl := Except.ok.inj ok
    rfl
  | cons v values ih =>
    obtain ⟨d, rest, here, later, rfl⟩ := mapM_cons_eq_ok.mp ok
    rw [Datum.toValues]
    cases index with
    | zero => exact each v d here
    | succ index => exact ih later index

/-- What is stored shows the records of the value, in the same places. -/
theorem typeAt_ofValue {shape : Shape} {v : Value} {d : Datum} (ok : shape.ofValue v = .ok d)
    (place : List Step) : d.toValue.typeAt? place = v.typeAt? place := by
  cases v with
  | null => rw [Value.eq_null_of_isNull (isNull_of_ofValue ok)]
  | scalar s =>
    obtain ⟨stored, shown⟩ := scalar_of_ofValue ok
    rw [shown, Value.typeAt_scalar, Value.typeAt_scalar]
  | object r => rw [toValue_of_object ok]
  | array values =>
    obtain ⟨element, ds, stored, shown⟩ := toValue_of_array ok
    rw [shown]
    match place with
    | [] => rfl
    | .slot name :: place => rfl
    | .item index :: place =>
      exact typeAt_elements (fun v d fits => typeAt_ofValue fits place) stored index
termination_by place

end Shape

namespace Record

variable {r changed : Record} {d : Datum} {path : List String}

/-- What lies in the slot at the end of a path lies in its place. -/
theorem typeAt_get (found : r.get? path = some d) (place : List Step) :
    (Value.object r).typeAt? (path.map .slot ++ place) = d.toValue.typeAt? place := by
  induction path generalizing r with
  | nil => cases found
  | cons name path ih =>
    cases path with
    | nil => exact Value.typeAt_slot found place
    | cons next path =>
      obtain ⟨inner, here, inside⟩ := get_longer found
      rw [List.map_cons, List.cons_append, Value.typeAt_slot here]
      exact ih inside

/-- Outside the slot at the end of the path the records stay of their types. -/
theorem typeAt_set (set : r.set? d path = some changed) {place : List Step}
    (outside : ¬path.map .slot <+: place) :
    (Value.object changed).typeAt? place = (Value.object r).typeAt? place := by
  induction place generalizing r changed path with
  | nil => exact congrArg some (set_type set)
  | cons step place ih =>
    cases step with
    | item index => rfl
    | slot other =>
      cases path with
      | nil => cases set
      | cons name path =>
        by_cases same : other = name
        · subst same
          cases path with
          | nil => exact absurd (List.cons_prefix_cons.mpr ⟨rfl, List.nil_prefix⟩) outside
          | cons next path =>
            obtain ⟨inner, new, here, inside, rfl⟩ := set_longer set
            rw [Value.typeAt_slot (slot_setSlot_same here (.record new)), Value.typeAt_slot here]
            exact ih inside fun above => outside (List.cons_prefix_cons.mpr ⟨rfl, above⟩)
        · obtain ⟨stored, rfl⟩ := set_first set
          have still := slot_setSlot_other r stored same
          simp only [Value.typeAt?, Value.at?, still]

end Record

end ObjectMapping
