import Mathlib.Algebra.Group.Int.Defs
import ObjectMapping.Field

/-! Which whole numbers the integral types hold, and what it is for a field to receive one. -/
namespace ObjectMapping

/-- The whole numbers that a type holds. Only the integral types and the enumerations hold any. -/
def FieldType.Spans : FieldType → Int → Prop
  | int32, n => -2 ^ 31 ≤ n ∧ n < 2 ^ 31
  | uint32, n | enum, n => 0 ≤ n ∧ n < 2 ^ 32
  | int64, n => -2 ^ 63 ≤ n ∧ n < 2 ^ 63
  | uint64, n => 0 ≤ n ∧ n < 2 ^ 64
  | _, _ => False

/-- A value is converted into a type if it stands for a whole number that the type holds, and in no
other case. The result is of that type and stands for the same number, and converted back into the
type that it had, an integer or enumeration value is what it was. -/
structure Value.ConvertsExactly (v : Value) (t : FieldType) : Prop where
  accepted : (∃ w, v.coerceInteger t = .ok w) ↔ ∃ n, v.toInt? = some n ∧ t.Spans n
  unchanged : ∀ w, v.coerceInteger t = .ok w → w.type? = some t ∧ w.toInt? = v.toInt?
  back : ∀ w own, v.coerceInteger t = .ok w → v.type? = some own →
    own.isInteger ∨ own = .enum → w.coerceInteger own = .ok v

/-- Writing a whole number into the field succeeds if the type of the field holds the number, and
in no other case. Afterwards the field reads as the value of its type that stands for it. -/
structure Field.Receives (f : Field) (n : Int) (written : Except Error Record) : Prop where
  accepted : (∃ r, written = .ok r) ↔ f.type.Spans n
  unchanged : ∀ r, written = .ok r →
    ∃ s : Scalar, f.get r = .ok (.scalar s) ∧ s.type = f.type ∧ s.toInt? = some n

end ObjectMapping
