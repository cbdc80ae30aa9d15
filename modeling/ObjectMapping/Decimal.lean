import ObjectMapping.Floating

/-! Decimal texts of binary floating numbers. A finite number is written with the
fewest digits that read back as the same number; of two such texts the one nearer
to the number wins. How the digits are laid out belongs to the format that
writes them. -/
namespace ObjectMapping

/-- A positive decimal: a coefficient times a power of ten. -/
structure Decimal where
  coefficient : Nat
  exponent : Int
  deriving DecidableEq

/-- Which neighbour is taken when a number lies exactly between two shortest decimals. -/
inductive TieRule where
  | up
  | even
  deriving DecidableEq

namespace Decimal

/-- Ten to a power. -/
def powerOfTen (n : Nat) : Nat := Nat.pow 10 n

/-- The coefficient's digits. -/
def digits (d : Decimal) : List Char := Nat.toDigits 10 d.coefficient

/-- The power of ten of the leading digit. -/
def leadingExponent (d : Decimal) : Int := d.exponent + (d.digits.length - 1 : Nat)

/-- The power of ten of the leading digit of the positive ratio `num / den`, or one more. -/
def leadingGuess (num den : Nat) : Int :=
  if den ≤ num then (Nat.toDigits 10 (num / den)).length
  else 1 - ((Nat.toDigits 10 (den / num)).length : Int)

/-- A positive number with the numbers halfway to its neighbours, as numerators
over one denominator; the ends belong to the number when `closed`. -/
structure RoundingInterval where
  low : Nat
  middle : Nat
  high : Nat
  denominator : Nat
  closed : Bool

namespace RoundingInterval

/-- The reals that round to the magnitude of a finite nonzero number. Below a
power of two the neighbours lie half as far apart. -/
def ofFloating (x : Floating f) : RoundingInterval :=
  let shift := (x.scale - 2).toNat
  let below := if x.fraction.val = 0 ∧ 1 < x.exponent.val then 1 else 2
  { low := (4 * x.significand - below) <<< shift
    middle := (4 * x.significand) <<< shift
    high := (4 * x.significand + 2) <<< shift
    denominator := 1 <<< (2 - x.scale).toNat
    closed := x.significand % 2 == 0 }

/-- Whether the decimal lies in the interval. -/
def holds (i : RoundingInterval) (d : Decimal) : Bool :=
  let value := d.coefficient * powerOfTen d.exponent.toNat * i.denominator
  let down := powerOfTen (-d.exponent).toNat
  if i.closed then i.low * down ≤ value && value ≤ i.high * down
  else i.low * down < value && value < i.high * down

/-- The decimal of the grid of `exponent` that is nearest to the middle among
its two neighbours there, as far as they lie in the interval. -/
def onGrid? (i : RoundingInterval) (tie : TieRule) (exponent : Int) : Option Decimal :=
  let num := i.middle * powerOfTen (-exponent).toNat
  let den := i.denominator * powerOfTen exponent.toNat
  let lower : Decimal := ⟨num / den, exponent⟩
  let upper : Decimal := ⟨num / den + 1, exponent⟩
  let twice := 2 * (num % den)
  let preferUpper := den < twice ||
    twice == den && (tie == .up || lower.coefficient % 2 == 1)
  if i.holds upper && (preferUpper || !i.holds lower) then some upper
  else if i.holds lower then some lower
  else none

end RoundingInterval

/-- The shortest decimal that reads back as the given finite nonzero number. The
grids are tried from coarse to fine, and the search ends at the latest where the
grid is finer than the spacing of the numbers. -/
def shortest (tie : TieRule) (x : Floating f) : Decimal :=
  let i := RoundingInterval.ofFloating x
  let start := leadingGuess i.middle i.denominator
  let grids := (List.range (f.fractionBits + 3)).map fun (n : Nat) => start - n
  (grids.findSome? (i.onGrid? tie)).getD ⟨0, 0⟩

/-- Digits without exponent: a point only where a fraction follows, and zeros
filled in between the digits and the point. -/
def positional (d : Decimal) : String :=
  let digits := d.digits
  if 0 ≤ d.exponent then String.ofList (digits ++ List.replicate d.exponent.toNat '0')
  else
    let places := (-d.exponent).toNat
    let padded := List.replicate (places + 1 - digits.length) '0' ++ digits
    let whole := padded.take (padded.length - places)
    let fraction := padded.drop (padded.length - places)
    String.ofList (whole ++ '.' :: fraction)

/-- One digit before the point, the others after it, and a signed exponent. -/
def scientific (d : Decimal) : String :=
  let mantissa := match d.digits with
    | [] => []
    | [digit] => [digit]
    | digit :: rest => digit :: '.' :: rest
  let exponent := d.leadingExponent
  let sign := if exponent < 0 then "e-" else "e+"
  String.ofList mantissa ++ sign ++ toString exponent.natAbs

end Decimal

namespace Floating

/-- The sign that a text of the number begins with. -/
def signText (x : Floating f) : String := if x.negative then "-" else ""

/-- The number in digits without exponent, whole numbers without a point. -/
def plainText (x : Floating f) : String :=
  if x.isNaN then "NaN"
  else if !x.isFinite then x.signText ++ "inf"
  else if x.isZero then x.signText ++ "0"
  else x.signText ++ (Decimal.shortest .up x).positional

end Floating

end ObjectMapping
