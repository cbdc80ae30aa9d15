import ObjectMapping.Json.Agreement
import ObjectMapping.Json.Decode
import ObjectMapping.Json.Encode
import ObjectMapping.Proofs.DateTime
import ObjectMapping.Proofs.Enumeration
import ObjectMapping.Proofs.Floating

/-! Scalars come back from their trees as they were. -/
namespace ObjectMapping

theorem Scalar.isColumn_type (s : Scalar) : s.type.isColumn := by
  cases s <;> rfl

/-- The whole number that a scalar of an integral type stands for is that scalar again. -/
theorem Value.ofInteger_toInt {s : Scalar} {n : Int} (stands : s.toInt? = some n)
    (integral : s.type.isInteger ∨ s.type = .enum) :
    ofInteger s.type n = .ok (.scalar s) := by
  cases s with
  | int32 k =>
    obtain rfl := Option.some.inj stands
    have low := k.le_toInt
    have high := k.toInt_lt
    rw [ofInteger, Scalar.type, scalarOfInt?, if_pos ⟨by omega, by omega⟩, Int32.ofInt_toInt]
  | int64 k =>
    obtain rfl := Option.some.inj stands
    have low := k.le_toInt
    have high := k.toInt_lt
    rw [ofInteger, Scalar.type, scalarOfInt?, if_pos ⟨by omega, by omega⟩, Int64.ofInt_toInt]
  | uint32 k | enum k =>
    obtain rfl := Option.some.inj stands
    have high := k.toNat_lt
    rw [ofInteger, Scalar.type, scalarOfInt?, if_pos ⟨by omega, by omega⟩, Int.toNat_natCast,
      UInt32.ofNat_toNat]
  | uint64 k =>
    obtain rfl := Option.some.inj stands
    have high := k.toNat_lt
    rw [ofInteger, Scalar.type, scalarOfInt?, if_pos ⟨by omega, by omega⟩, Int.toNat_natCast,
      UInt64.ofNat_toNat]
  | _ => rcases integral with integer | enum <;> contradiction

namespace Json

variable {context : Context} {s : Scalar} {j : Json}

theorem ofDouble_ok {x : Double} (ok : ofDouble x = .ok j) : x.isFinite ∧ j = .double x := by
  unfold ofDouble at ok
  split at ok
  · rename_i finite
    exact ⟨finite, (Except.ok.inj ok).symm⟩
  · cases ok

/-- A scalar is written as a tree without parts. -/
theorem leaf_of_ofScalar (ok : ofScalar context s = .ok j) :
    (∃ b, j = .bool b) ∨ (∃ n, j = .integer n) ∨ (∃ x, j = .double x) ∨ ∃ text, j = .string text := by
  cases s with
  | bool b => exact .inl ⟨b, (Except.ok.inj ok).symm⟩
  | int32 | uint32 | int64 | uint64 => exact .inr (.inl ⟨_, (Except.ok.inj ok).symm⟩)
  | float | double => exact .inr (.inr (.inl ⟨_, (ofDouble_ok ok).2⟩))
  | string | dateTime => exact .inr (.inr (.inr ⟨_, (Except.ok.inj ok).symm⟩))
  | enum n =>
    rw [ofScalar] at ok
    split at ok
    · obtain ⟨text, -, rfl⟩ := except_map_eq_ok.mp ok
      exact .inr (.inr (.inr ⟨text, rfl⟩))
    · exact .inr (.inl ⟨_, (Except.ok.inj ok).symm⟩)

theorem isNull_ofScalar (ok : ofScalar context s = .ok j) : j.isNull = false := by
  rcases leaf_of_ofScalar ok with ⟨_, rfl⟩ | ⟨_, rfl⟩ | ⟨_, rfl⟩ | ⟨_, rfl⟩ <;> rfl

/-- A whole number in a place of an integral type is read as that number. -/
theorem toPlain_integer {type : FieldType} (fits : context.type = type)
    (integral : type.isInteger) (n : Int) :
    toPlain context (.integer n) = Value.ofInteger type n := by
  unfold toPlain
  rw [fits]
  cases type with
  | int32 | int64 | uint32 | uint64 => simp only [FieldType.isInteger, if_true, toInteger]
  | _ => cases integral

private theorem toPlain_enum (fits : context.type = .enum) (j : Json) :
    toPlain context j = toEnum context.enumeration j := by
  unfold toPlain
  rw [fits]

/-- The tree of a scalar is read as that scalar in a place of its type. -/
theorem toPlain_ofScalar (fits : s.type = context.type) (carried : Carries context s)
    (ok : ofScalar context s = .ok j) : toPlain context j = .ok (.scalar s) := by
  cases s with
  | bool | string =>
    obtain rfl := Except.ok.inj ok
    unfold toPlain
    rw [← fits]
    rfl
  | int32 | int64 | uint32 | uint64 =>
    obtain rfl := Except.ok.inj ok
    exact (toPlain_integer fits.symm rfl _).trans (Value.ofInteger_toInt rfl (.inl rfl))
  | float x =>
    obtain ⟨finite, rfl⟩ := ofDouble_ok ok
    have same := x.narrow_widen (x.isFinite_of_widen finite)
    unfold toPlain
    rw [← fits]
    exact congrArg (fun y => Except.ok (Value.float y)) same
  | double x =>
    obtain ⟨_, rfl⟩ := ofDouble_ok ok
    unfold toPlain
    rw [← fits]
    rfl
  | dateTime t =>
    obtain rfl := Except.ok.inj ok
    have read := t.parse_text carried.1 carried.2
    unfold toPlain
    rw [← fits]
    exact congrArg (Except.map Value.dateTime) read
  | enum n =>
    rw [ofScalar] at ok
    rw [toPlain_enum fits.symm]
    split at ok
    · rename_i e described
      obtain ⟨text, written, rfl⟩ := except_map_eq_ok.mp ok
      obtain ⟨legible, whole⟩ := carried e described
      have read := Enumeration.read_text legible whole written
      simp only [toEnum, described]
      exact congrArg (Except.map Value.enum) read
    · rename_i plain
      obtain rfl := Except.ok.inj ok
      simp only [toEnum, plain, toInteger]
      have stands : (Scalar.enum n).toInt? = some (n.toNat : Int) := rfl
      have read := Value.ofInteger_toInt stands (.inr rfl)
      rwa [Scalar.type] at read

end Json

end ObjectMapping
