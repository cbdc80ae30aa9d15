import Mathlib.Algebra.Group.Nat.Defs
import ObjectMapping.Decimal

/-! Whole numbers among the floating ones, and the texts that integers have. -/
namespace ObjectMapping

namespace Floating

/-- The magnitude of the finite number is a given whole number. -/
def HasMagnitude (x : Floating f) (n : Nat) : Prop :=
  x.significand * 2 ^ x.scale.toNat = n * 2 ^ (-x.scale).toNat

/-- The finite number has no fraction. -/
def IsWhole (x : Floating f) : Prop := ∃ n, x.HasMagnitude n

end Floating

/-- The text is one of an integer: digits and nothing else, after a sign or not. -/
def IsIntegerText (text : String) : Prop :=
  ∃ digits : List Char, digits ≠ [] ∧ (∀ c ∈ digits, c.isDigit) ∧
    (text.toList = digits ∨ text.toList = '-' :: digits)

end ObjectMapping
