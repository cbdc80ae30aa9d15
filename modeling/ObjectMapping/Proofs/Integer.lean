import ObjectMapping.Field
import ObjectMapping.Proofs.Except

/-! A whole number stays the same number on its way into a slot and back: as a value of another
integral type, as the content of a slot, and as what a field presents. -/
namespace ObjectMapping

theorem Value.toInt_of_scalarOfInt {n : Int} (held : scalarOfInt? target n = some s) :
    s.toInt? = some n := by
  unfold scalarOfInt? at held
  split at held
  case h_6 => cases held
  all_goals
    obtain ⟨⟨low, high⟩, same⟩ := Option.ite_none_right_eq_some.mp held
    obtain rfl := Option.some.inj same
  · exact congrArg some (Int32.toInt_ofInt_of_le low high)
  · have natural : n.toNat < UInt32.size := by
      rw [UInt32.size]
      omega
    exact congrArg some (by rw [UInt32.toNat_ofNat_of_lt' natural, Int.toNat_of_nonneg low])
  · exact congrArg some (Int64.toInt_ofInt_of_le low high)
  · have natural : n.toNat < UInt64.size := by
      rw [UInt64.size]
      omega
    exact congrArg some (by rw [UInt64.toNat_ofNat_of_lt' natural, Int.toNat_of_nonneg low])
  · have natural : n.toNat < UInt32.size := by
      rw [UInt32.size]
      omega
    exact congrArg some (by rw [UInt32.toNat_ofNat_of_lt' natural, Int.toNat_of_nonneg low])

theorem Scalar.toInt_of_equal {a b : Scalar} (same : a.equal b) : a.toInt? = b.toInt? := by
  unfold Scalar.equal at same
  split at same
  · rfl
  · rfl
  · rw [eq_of_beq same]

theorem Value.toInt_of_equal {v w : Value} (same : v.equal w) : v.toInt? = w.toInt? := by
  unfold Value.equal at same
  split at same
  · rfl
  · exact Scalar.toInt_of_equal same
  · rfl
  · rfl
  · cases same

theorem Value.toInt_zero (stands : (zero type).toInt? = some n) : n = 0 := by
  cases type <;> first | exact (Option.some.inj stands).symm | cases stands

/-- A value that became one of another type stands for the same number. -/
theorem Value.coerceInteger_ok {v w : Value} (ok : v.coerceInteger target = .ok w) :
    w.toInt? = v.toInt? ∧ v.toInt?.isSome ∧ target.isColumn := by
  unfold coerceInteger at ok
  split at ok
  · cases ok
  rename_i n stands
  split at ok
  · rename_i integral
    unfold ofInteger at ok
    split at ok
    · rename_i s held
      obtain rfl := Except.ok.inj ok
      refine ⟨(toInt_of_scalarOfInt held).trans stands.symm, by simp [stands], ?_⟩
      cases target <;> first | rfl | cases integral
    · cases ok
  · cases ok

theorem PlainShape.toInt_of_accept {p : PlainShape} (accepted : p.accept a = some b) :
    b.toInt? = a.toInt? := by
  unfold accept at accepted
  split at accepted
  · obtain rfl := Option.some.inj accepted
    rfl
  · obtain ⟨-, same⟩ := Option.ite_none_right_eq_some.mp accepted
    exact congrArg Scalar.toInt? (Option.some.inj same).symm

theorem Shape.toInt_of_enumOfNumber (ok : enumOfNumber e k = .ok d) :
    d.toValue.toInt? = some (k.toNat : Int) := by
  unfold enumOfNumber at ok
  split at ok
  · obtain rfl := Except.ok.inj ok
    rfl
  · cases ok

/-- The content of a slot stands for the number that was written. -/
theorem Shape.toInt_of_ofValue {s : Shape} {v : Value} (ok : s.ofValue v = .ok d)
    (stands : v.toInt? = some n) : d.toValue.toInt? = some n := by
  obtain ⟨a, rfl⟩ : ∃ a, v = .scalar a := by
    cases v with
    | scalar a => exact ⟨a, rfl⟩
    | _ => cases stands
  induction s generalizing d with
  | plain p =>
    simp only [ofValue, singleOfValue] at ok
    split at ok
    · rename_i stored accepted
      obtain rfl := Except.ok.inj ok
      exact (PlainShape.toInt_of_accept accepted).trans stands
    · cases ok
  | enum e =>
    cases a with
    | enum k | uint32 k => exact (toInt_of_enumOfNumber ok).trans stands
    | _ => cases ok
  | nullable inner ih =>
    obtain ⟨content, inside, rfl⟩ := except_map_eq_ok.mp ok
    have same := ih inside
    exact same
  | record | variant | list => cases ok

theorem Field.toInt_present (f : Field) (v : Value) : (f.present v).toInt? = v.toInt? := by
  unfold present
  split
  · split <;> rfl
  · rfl

end ObjectMapping
