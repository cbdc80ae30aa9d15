/-! Hexadecimal text, with the letters of the digits beyond nine in lower case. -/
namespace ObjectMapping.Hex

/-- The digit of a number below sixteen. -/
def digit (n : Nat) : Char :=
  if n < 10 then Char.ofNat ('0'.toNat + n) else Char.ofNat ('a'.toNat + (n - 10))

/-- The value of a digit in either case. -/
def value? (c : Char) : Option Nat :=
  if c.isDigit then some (c.toNat - '0'.toNat)
  else if 'a' ≤ c ∧ c ≤ 'f' then some (c.toNat - 'a'.toNat + 10)
  else if 'A' ≤ c ∧ c ≤ 'F' then some (c.toNat - 'A'.toNat + 10)
  else none

/-- The number that a run of digits stands for. -/
def number? (digits : List Char) : Option Nat :=
  digits.foldlM (fun n c => (value? c).map (16 * n + ·)) 0

/-- The last digits of a number, as many as `width` says. -/
def digits : (width : Nat) → Nat → List Char
  | 0, _ => []
  | width + 1, n => digits width (n / 16) ++ [digit (n % 16)]

/-- A number in a fixed number of digits. -/
def ofNat (width n : Nat) : String := String.ofList (digits width n)

/-- The bytes as text, two digits for each. -/
def ofBytes (bytes : List UInt8) : String :=
  String.ofList (bytes.flatMap fun byte => digits 2 byte.toNat)

/-- The bytes whose digits stand in pairs one after the other. -/
def readBytes : List Char → List UInt8
  | a :: b :: rest => UInt8.ofNat ((number? [a, b]).getD 0) :: readBytes rest
  | _ => []

end ObjectMapping.Hex
