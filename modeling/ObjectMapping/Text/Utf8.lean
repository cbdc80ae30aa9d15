/-! Reading bytes as UTF-8, with the place and the extent of the first fault. -/
namespace ObjectMapping

/-- The first place at which bytes are no UTF-8. -/
inductive Utf8Error where
  /-- The bytes end inside a sequence that is valid so far. -/
  | incomplete (index : Nat)
  /-- `count` bytes begin a sequence that the next byte cannot continue. -/
  | invalid (index count : Nat)
  deriving DecidableEq

namespace Utf8Error

/-- The fault as text. -/
def message : Utf8Error → String
  | incomplete index => s!"incomplete utf-8 byte sequence from index {index}"
  | invalid index count => s!"invalid utf-8 sequence of {count} bytes from index {index}"

/-- The same fault in bytes that stand `n` places further on. -/
def shift (n : Nat) : Utf8Error → Utf8Error
  | incomplete index => incomplete (index + n)
  | invalid index count => invalid (index + n) count

end Utf8Error

namespace Utf8

/-- The ranges that the bytes after a given first byte must lie in. They exclude
overlong forms, surrogates and numbers beyond the last code point. -/
def continuations (first : Nat) : Option (List (Nat × Nat)) :=
  let tail := (0x80, 0xBF)
  if first < 0x80 then some []
  else if first < 0xC2 then none
  else if first < 0xE0 then some [tail]
  else if first == 0xE0 then some [(0xA0, 0xBF), tail]
  else if first == 0xED then some [(0x80, 0x9F), tail]
  else if first < 0xF0 then some [tail, tail]
  else if first == 0xF0 then some [(0x90, 0xBF), tail, tail]
  else if first < 0xF4 then some [tail, tail, tail]
  else if first == 0xF4 then some [(0x80, 0x8F), tail, tail]
  else none

/-- How many bytes fit the ranges, and whether the bytes ended before the ranges did. -/
def matched : List (Nat × Nat) → List UInt8 → Nat × Bool
  | [], _ => (0, false)
  | _ :: _, [] => (0, true)
  | (low, high) :: ranges, byte :: bytes =>
    if low ≤ byte.toNat ∧ byte.toNat ≤ high then
      let (count, ended) := matched ranges bytes
      (count + 1, ended)
    else (0, false)

/-- The code point of one complete sequence. -/
def codePoint (first : Nat) (rest : List UInt8) : Nat :=
  let head :=
    if first < 0x80 then first
    else if first < 0xE0 then first % 0x20
    else if first < 0xF0 then first % 0x10
    else first % 0x08
  rest.foldl (fun n byte => 64 * n + byte.toNat % 64) head

/-- The characters that the bytes stand for; `skip` bytes at the front belong to
a character already read. -/
def readFrom : (skip : Nat) → List UInt8 → Except Utf8Error (List Char)
  | _, [] => .ok []
  | skip + 1, _ :: bytes => (readFrom skip bytes).mapError (·.shift 1)
  | 0, first :: bytes =>
    match continuations first.toNat with
    | none => .error (.invalid 0 1)
    | some ranges =>
      let (count, ended) := matched ranges bytes
      if count = ranges.length then do
        let rest ← (readFrom count bytes).mapError (·.shift 1)
        return Char.ofNat (codePoint first.toNat (bytes.take count)) :: rest
      else if ended then .error (.incomplete 0)
      else .error (.invalid 0 (count + 1))

/-- The text that the bytes stand for. -/
def read (bytes : List UInt8) : Except Utf8Error String :=
  (readFrom 0 bytes).map String.ofList

/-- The bytes of a text. -/
def bytes (text : String) : List UInt8 := text.toUTF8.toList

end Utf8

end ObjectMapping
