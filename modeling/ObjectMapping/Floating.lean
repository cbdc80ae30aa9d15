/-! Binary floating numbers of a fixed format, given by their three bit fields.
A finite number is a whole significand times a power of two, so every operation
here is exact arithmetic on whole numbers followed by one rounding. -/
namespace ObjectMapping

/-- The widths of the stored significand and of the exponent. -/
structure FloatFormat where
  fractionBits : Nat
  exponentBits : Nat

namespace FloatFormat

/-- The 32-bit format. -/
def single : FloatFormat := ⟨23, 8⟩

/-- The 64-bit format. -/
def double : FloatFormat := ⟨52, 11⟩

/-- How many fraction fields there are. -/
def fractionCount (f : FloatFormat) : Nat := 1 <<< f.fractionBits

/-- How many exponent fields there are. -/
def exponentCount (f : FloatFormat) : Nat := 1 <<< f.exponentBits

theorem one_shiftLeft_pos (n : Nat) : 0 < 1 <<< n := by
  rw [Nat.shiftLeft_eq, Nat.one_mul]
  exact Nat.two_pow_pos n

theorem fractionCount_pos (f : FloatFormat) : 0 < f.fractionCount := one_shiftLeft_pos _

theorem exponentCount_pos (f : FloatFormat) : 0 < f.exponentCount := one_shiftLeft_pos _

/-- The exponent field of infinities and of values that are no number. -/
def topExponent (f : FloatFormat) : Nat := f.exponentCount - 1

/-- The power of two that one unit of a subnormal significand stands for. -/
def minScale (f : FloatFormat) : Int := 2 - (f.exponentCount / 2 : Nat) - f.fractionBits

end FloatFormat

/-- A floating number as its sign, exponent field and fraction field. Two are
equal as data exactly when their bits agree. -/
structure Floating (f : FloatFormat) where
  negative : Bool
  exponent : Fin f.exponentCount
  fraction : Fin f.fractionCount
  deriving DecidableEq

/-- A 32-bit floating number. -/
abbrev Single := Floating .single

/-- A 64-bit floating number. -/
abbrev Double := Floating .double

namespace Floating

variable {f : FloatFormat}

/-- The number whose magnitude bits, exponent above fraction, read as `magnitude`. -/
def ofMagnitude (negative : Bool) (magnitude : Nat) : Floating f where
  negative := negative
  exponent := ⟨magnitude / f.fractionCount % f.exponentCount, Nat.mod_lt _ f.exponentCount_pos⟩
  fraction := ⟨magnitude % f.fractionCount, Nat.mod_lt _ f.fractionCount_pos⟩

/-- Exponent and fraction read as one whole number. -/
def magnitude (x : Floating f) : Nat := x.exponent * f.fractionCount + x.fraction

/-- The number whose bits, sign on top, read as `bits`. -/
def ofBits (bits : Nat) : Floating f :=
  ofMagnitude (bits.testBit (f.exponentBits + f.fractionBits)) bits

/-- The bits of the number, sign on top, read as one whole number. -/
def toBits (x : Floating f) : Nat :=
  (if x.negative then f.exponentCount * f.fractionCount else 0) + x.magnitude

def zero (negative : Bool) : Floating f := ofMagnitude negative 0

def infinity (negative : Bool) : Floating f :=
  ofMagnitude negative (f.topExponent * f.fractionCount)

def nan : Floating f :=
  ofMagnitude false (f.topExponent * f.fractionCount + f.fractionCount / 2)

def isFinite (x : Floating f) : Bool := x.exponent.val != f.topExponent

def isNaN (x : Floating f) : Bool := !x.isFinite && x.fraction.val != 0

def isZero (x : Floating f) : Bool := x.exponent.val == 0 && x.fraction.val == 0

/-- The whole significand of a finite number, its leading bit made explicit. -/
def significand (x : Floating f) : Nat :=
  if x.exponent.val = 0 then x.fraction else f.fractionCount + x.fraction

/-- The power of two that one unit of the significand stands for. -/
def scale (x : Floating f) : Int := f.minScale + (x.exponent.val - 1 : Nat)

/-- Equality as numbers: zeros of either sign agree and no `nan` equals anything. -/
def equal (x y : Floating f) : Bool :=
  !x.isNaN && !y.isNaN && (x == y || x.isZero && y.isZero)

/-- The quotient of two whole numbers rounded to the nearest whole number, an
exact half going to the even neighbour. -/
def roundDiv (num den : Nat) : Nat :=
  let floor := num / den
  let twice := 2 * (num % den)
  if twice < den then floor
  else if den < twice then floor + 1
  else floor + floor % 2

/-- The whole part of the binary logarithm of the positive ratio `num / den`. -/
def ratioLog2 (num den : Nat) : Int :=
  let guess : Int := (num.log2 : Int) - den.log2
  if den <<< guess.toNat ≤ num <<< (-guess).toNat then guess else guess - 1

/-- The number nearest to the ratio `num / den`, an exact half going to the even
neighbour and a magnitude beyond the format becoming infinite. -/
def ofRatio (negative : Bool) (num den : Nat) : Floating f :=
  if num = 0 then zero negative
  else
    let scale := max (ratioLog2 num den - f.fractionBits) f.minScale
    let units := roundDiv (num <<< (-scale).toNat) (den <<< scale.toNat)
    let magnitude := (scale - f.minScale).toNat * f.fractionCount + units
    if magnitude < f.topExponent * f.fractionCount then ofMagnitude negative magnitude
    else infinity negative

/-- The number nearest to a whole number. -/
def ofInt (n : Int) : Floating f := ofRatio (n < 0) n.natAbs 1

/-- The number nearest to the product of two finite numbers. -/
def mul (x y : Floating f) : Floating f :=
  let scale := x.scale + y.scale
  ofRatio (x.negative != y.negative)
    ((x.significand * y.significand) <<< scale.toNat) (1 <<< (-scale).toNat)

/-- The number nearest to the quotient of a finite number by one that is not zero. -/
def div (x y : Floating f) : Floating f :=
  let scale := x.scale - y.scale
  ofRatio (x.negative != y.negative)
    (x.significand <<< scale.toNat) (y.significand <<< (-scale).toNat)

/-- The same number in another format, rounded where that format is coarser. -/
def convert (g : FloatFormat) (x : Floating f) : Floating g :=
  if x.isNaN then nan
  else if x.isFinite then
    ofRatio x.negative (x.significand <<< x.scale.toNat) (1 <<< (-x.scale).toNat)
  else infinity x.negative

/-- A 32-bit number as the 64-bit number of the same value. -/
def widen (x : Single) : Double := x.convert .double

/-- The 32-bit number nearest to a 64-bit number. -/
def narrow (x : Double) : Single := x.convert .single

end Floating

end ObjectMapping
