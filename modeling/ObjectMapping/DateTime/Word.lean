import ObjectMapping.DateTime

/-! The conversions between date-times and seconds as they are calculated in signed words of 64
bits. A step that leaves the range of a word has no result, and nor has any step after it. -/
namespace ObjectMapping

/-- What a calculation in words has come to, unless a step has left the range. -/
structure Word where
  value? : Option Int
  deriving DecidableEq

namespace Word

/-- Whether a word holds the number. -/
def Holds (n : Int) : Prop := -0x8000000000000000 ≤ n ∧ n < 0x8000000000000000

instance (n : Int) : Decidable (Holds n) := inferInstanceAs (Decidable (_ ∧ _))

/-- A word with the number in it. -/
def exact (n : Int) : Word := ⟨some n⟩

/-- A word in which the number is to be put. -/
def ofInt (n : Int) : Word := if Holds n then exact n else ⟨none⟩

/-- A step of the calculation. -/
def step (f : Int → Int → Int) (a b : Word) : Word :=
  match a.value?, b.value? with
  | some x, some y => ofInt (f x y)
  | _, _ => ⟨none⟩

instance (n : Nat) : OfNat Word n := ⟨ofInt (OfNat.ofNat n)⟩

instance : Add Word := ⟨step (· + ·)⟩

instance : Sub Word := ⟨step (· - ·)⟩

instance : Mul Word := ⟨step (· * ·)⟩

/-- Division by a number other than zero, rounded towards zero. -/
instance : Div Word := ⟨fun a b => if b.value? = some 0 then ⟨none⟩ else step Int.tdiv a b⟩

/-- Division by a positive number, rounded down. -/
def divFloor (a b : Word) : Word := step (· / ·) a b

/-- Whether the word holds a smaller number. -/
def below (a : Word) (n : Int) : Bool := a.value?.any (· < n)

end Word

namespace DateTime

/-- The calculation of `dayNumber`. -/
def dayNumberInWords (year : Int) (month : Month) (day : Nat) : Word :=
  let year := Word.ofInt year
  let y := if month.number ≤ 2 then year - 1 else year
  let era := y.divFloor 400
  let yearOfEra := y - era * 400
  let number := Word.ofInt month.number
  let monthFromMarch := if 2 < month.number then number - 3 else number + 9
  let dayOfYear := (153 * monthFromMarch + 2) / 5 + Word.ofInt day - 1
  let dayOfEra := yearOfEra * 365 + yearOfEra / 4 - yearOfEra / 100 + dayOfYear
  era * 146097 + dayOfEra - 719468

/-- The calculation of `ofDayNumber`. -/
def ofDayNumberInWords (days : Word) : Word × Word × Word :=
  let z := days + 719468
  let era := z.divFloor 146097
  let dayOfEra := z - era * 146097
  let yearOfEra :=
    (dayOfEra - dayOfEra / 1460 + dayOfEra / 36524 - dayOfEra / 146096) / 365
  let dayOfYear := dayOfEra - (365 * yearOfEra + yearOfEra / 4 - yearOfEra / 100)
  let monthFromMarch := (5 * dayOfYear + 2) / 153
  let day := dayOfYear - (153 * monthFromMarch + 2) / 5 + 1
  let month := if monthFromMarch.below 10 then monthFromMarch + 3 else monthFromMarch - 9
  let year := yearOfEra + era * 400 + (if month.below 3 then 1 else 0)
  (year, month, day)

/-- The calculation of `toUnix`. -/
def toUnixInWords (t : DateTime) : Word :=
  dayNumberInWords t.year.toInt t.month t.day * 86400 + Word.ofInt t.hour * 3600 +
    Word.ofInt t.minute * 60 + Word.ofInt t.second

end DateTime

end ObjectMapping
