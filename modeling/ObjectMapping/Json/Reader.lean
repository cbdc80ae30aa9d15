import ObjectMapping.Json
import ObjectMapping.Decimal
import ObjectMapping.Text.Hex
import ObjectMapping.Error

/-! Reading trees from text. The grammar is that of RFC 8259 with at most 127
levels of arrays and objects. -/
namespace ObjectMapping.Json

/-- A reader of the front of a text yields what it has read and the rest. -/
abbrev Reader (α : Type) := List Char → Option (α × List Char)

namespace Reader

/-- The blanks between tokens. -/
def isSpace (c : Char) : Bool := c == ' ' || c == '\t' || c == '\n' || c == '\r'

/-- The text without the blanks at its front. -/
def skipSpaces (input : List Char) : List Char := input.dropWhile isSpace

/-- The character that an escape of one letter stands for. -/
def escaped? (c : Char) : Option Char :=
  match c with
  | '"' => some '"'
  | '\\' => some '\\'
  | '/' => some '/'
  | 'b' => some '\x08'
  | 'f' => some '\x0c'
  | 'n' => some '\n'
  | 'r' => some '\r'
  | 't' => some '\t'
  | _ => none

/-- A piece of a string: a character, or the number of an escape that may be half
of a character. -/
inductive Piece where
  | char (c : Char)
  | unit (n : Nat)

/-- The pieces up to the closing quote. -/
def pieces : Reader (List Piece)
  | [] => none
  | c :: rest =>
    if c = '"' then some ([], rest)
    else if c = '\\' then
      match rest with
      | 'u' :: h₁ :: h₂ :: h₃ :: h₄ :: rest => do
        let n ← Hex.number? [h₁, h₂, h₃, h₄]
        let (more, rest) ← pieces rest
        return (.unit n :: more, rest)
      | e :: rest => do
        let c ← escaped? e
        let (more, rest) ← pieces rest
        return (.char c :: more, rest)
      | [] => none
    else if c.toNat < 0x20 then none
    else do
      let (more, rest) ← pieces rest
      return (.char c :: more, rest)

/-- Whether the number is the first half of a character beyond 16 bits. -/
def isHighHalf (n : Nat) : Bool := 0xD800 ≤ n && n < 0xDC00

/-- Whether the number is the second half of a character beyond 16 bits. -/
def isLowHalf (n : Nat) : Bool := 0xDC00 ≤ n && n < 0xE000

/-- The characters of the pieces; halves of characters come in pairs only. -/
def joinPieces : List Piece → Option (List Char)
  | [] => some []
  | .char c :: rest => (joinPieces rest).map (c :: ·)
  | .unit n :: rest =>
    if isHighHalf n then
      match rest with
      | .unit m :: rest =>
        if isLowHalf m then
          (joinPieces rest).map (Char.ofNat (0x10000 + 0x400 * (n - 0xD800) + (m - 0xDC00)) :: ·)
        else none
      | _ => none
    else if isLowHalf n then none
    else (joinPieces rest).map (Char.ofNat n :: ·)

/-- A string after its opening quote. -/
def stringRest : Reader String := fun input => do
  let (found, rest) ← pieces input
  let chars ← joinPieces found
  return (String.ofList chars, rest)

/-- The digits at the front. -/
def digits (input : List Char) : List Char × List Char := input.span Char.isDigit

/-- The number that a decimal digit stands for. -/
def digitValue (c : Char) : Nat := c.toNat - '0'.toNat

/-- The number that a run of decimal digits stands for. -/
def decimalNumber (digits : List Char) : Nat :=
  digits.foldl (fun n c => 10 * n + digitValue c) 0

/-- The digits of a whole part, which has no superfluous zero in front. -/
def wholePart : Reader (List Char) := fun input =>
  match input with
  | '0' :: rest => some (['0'], rest)
  | _ =>
    match digits input with
    | ([], _) => none
    | found => some found

/-- The digits of a fraction, if there is one. -/
def fractionPart : Reader (Option (List Char)) := fun input =>
  match input with
  | '.' :: rest =>
    match digits rest with
    | ([], _) => none
    | (found, rest) => some (some found, rest)
  | _ => some (none, input)

/-- An exponent, if there is one. -/
def exponentPart : Reader (Option Int) := fun input =>
  match input with
  | e :: rest =>
    if e = 'e' ∨ e = 'E' then
      let (negative, rest) := match rest with
        | '-' :: rest => (true, rest)
        | '+' :: rest => (false, rest)
        | rest => (false, rest)
      match digits rest with
      | ([], _) => none
      | (found, rest) =>
        let n : Int := decimalNumber found
        some (some (if negative then -n else n), rest)
    else some (none, input)
  | [] => some (none, input)

/-- Append digits to a number as long as it fits into 64 bits. Yields the number and
the digits that are left over. -/
def appendDigits (n : Nat) : List Char → Nat × List Char
  | [] => (n, [])
  | c :: rest =>
    let longer := 10 * n + digitValue c
    if longer < 0x10000000000000000 then appendDigits longer rest else (n, c :: rest)

/-- The floating number nearest to a power of ten. -/
def tenTo (n : Nat) : Double := .ofInt (Decimal.powerOfTen n)

/-- A number divided by ten to a power. A power beyond the floating numbers is divided
by in portions, until nothing is left to divide. -/
def divideByTenTo (x : Double) (n : Nat) : Double :=
  if n ≤ 308 then x.div (tenTo n)
  else if x.isZero then x
  else divideByTenTo (x.div (tenTo 308)) (n - 308)
termination_by n

/-- A number multiplied by ten to a power, if the product is not too large. -/
def timesTenTo? (x : Double) (n : Nat) : Option Double :=
  if n ≤ 308 then
    let product := x.mul (tenTo n)
    if product.isFinite then some product else none
  else if x.isZero then some x
  else none

/-- The floating number that `significand * 10 ^ exponent` is read as, unless it is too
large. The significand and the power are rounded before they meet, so the number
may be a neighbour of the nearest one. -/
def toDouble? (negative : Bool) (significand : Nat) (exponent : Int) : Option Double := do
  let start : Double := .ofInt significand
  let x ←
    if 0 ≤ exponent then timesTenTo? start exponent.toNat
    else some (divideByTenTo start (-exponent).toNat)
  return { x with negative := negative }

/-- A number after its sign. One without fraction and exponent is whole, if it fits
into 64 bits and is not a negative zero. Of any other only as many digits count as
fit into 64 bits; the place of the point is that of all digits. -/
def unsignedNumber (negative : Bool) : Reader Json := fun input => do
  let (whole, rest) ← wholePart input
  let (fraction, rest) ← fractionPart rest
  let (exponent, rest) ← exponentPart rest
  let (n, left) := appendDigits 0 whole
  if left.isEmpty && fraction.isNone && exponent.isNone &&
      (!negative || 0 < n && n ≤ 0x8000000000000000) then
    return (.integer (if negative then -n else n), rest)
  let after := fraction.getD []
  let (n, ignored) := appendDigits n after
  let places : Int := (left.length : Int) - (after.length - ignored.length : Nat)
  let x ← toDouble? negative n (exponent.getD 0 + places)
  return (.double x, rest)

/-- A tree without parts. -/
def leaf : Reader Json := fun input =>
  match input with
  | 'n' :: 'u' :: 'l' :: 'l' :: rest => some (.null, rest)
  | 't' :: 'r' :: 'u' :: 'e' :: rest => some (.bool true, rest)
  | 'f' :: 'a' :: 'l' :: 's' :: 'e' :: rest => some (.bool false, rest)
  | '"' :: rest => do
    let (s, rest) ← stringRest rest
    return (.string s, rest)
  | '-' :: rest => unsignedNumber true rest
  | _ => unsignedNumber false input

/-- One or more items up to a closing character. Every item takes at least one
character, so the length of the text bounds their number. -/
def sequence (item : Reader α) (closing : Char) : (bound : Nat) → Reader (List α)
  | 0, _ => none
  | bound + 1, input => do
    let (x, rest) ← item (skipSpaces input)
    match skipSpaces rest with
    | c :: rest =>
      if c = closing then return ([x], rest)
      else if c = ',' then
        let (xs, rest) ← sequence item closing bound rest
        return (x :: xs, rest)
      else none
    | [] => none

/-- Items up to a closing character; there may be none. -/
def items (item : Reader α) (closing : Char) : Reader (List α) := fun input =>
  match skipSpaces input with
  | [] => none
  | c :: rest =>
    if c = closing then some ([], rest)
    else sequence item closing (c :: rest).length (c :: rest)

/-- A member of an object. -/
def member (value : Reader Json) : Reader (String × Json) := fun input =>
  match input with
  | '"' :: rest => do
    let (key, rest) ← stringRest rest
    match skipSpaces rest with
    | ':' :: rest => do
      let (v, rest) ← value (skipSpaces rest)
      return ((key, v), rest)
    | _ => none
  | _ => none

/-- A tree that begins at the front and has at most `depth` levels of arrays and objects. -/
def tree : (depth : Nat) → Reader Json
  | 0, input => leaf input
  | depth + 1, input =>
    match input with
    | '[' :: rest => do
      let (found, rest) ← items (tree depth) ']' rest
      return (.array found, rest)
    | '\x7b' :: rest => do
      let (found, rest) ← items (member (tree depth)) '\x7d' rest
      return (.object found, rest)
    | _ => leaf input

end Reader

/-- The deepest nesting of arrays and objects. -/
def maxDepth : Nat := 127

/-- The tree that a text stands for, with the members of objects as written. -/
def readWritten (text : String) : Option Json :=
  match Reader.tree maxDepth (Reader.skipSpaces text.toList) with
  | some (j, rest) => if (Reader.skipSpaces rest).isEmpty then some j else none
  | none => none

/-- The tree that a text stands for. -/
def read (text : String) : Except Error Json :=
  match readWritten text with
  | some j => .ok j.canonical
  | none => .error (.malformed "the text is not JSON")

end ObjectMapping.Json
