import ObjectMapping.Json
import ObjectMapping.Decimal
import ObjectMapping.Text.Hex

/-! The text of a tree, in one line or indented by two blanks a level. -/
namespace ObjectMapping.Json

/-- The characters that a character of a string is written as. -/
def escape (c : Char) : List Char :=
  if c = '"' then ['\\', '"']
  else if c = '\\' then ['\\', '\\']
  else if c.toNat = 0x08 then ['\\', 'b']
  else if c.toNat = 0x09 then ['\\', 't']
  else if c.toNat = 0x0A then ['\\', 'n']
  else if c.toNat = 0x0C then ['\\', 'f']
  else if c.toNat = 0x0D then ['\\', 'r']
  else if c.toNat < 0x20 then
    ['\\', 'u', '0', '0', Hex.digit (c.toNat / 16), Hex.digit (c.toNat % 16)]
  else [c]

/-- A string in its quotes. -/
def quoted (s : String) : String := "\"" ++ String.ofList (s.toList.flatMap escape) ++ "\""

/-- The text of a finite number: positional for leading digits from `10 ^ -5` to
`10 ^ 15`, with a fraction even if it is zero, and with an exponent otherwise. -/
def doubleText (x : Double) : String :=
  if x.isZero then x.signText ++ "0.0"
  else
    let d := Decimal.shortest .even x
    if -5 ≤ d.leadingExponent ∧ d.leadingExponent ≤ 15 then
      x.signText ++ d.positional ++ (if 0 ≤ d.exponent then ".0" else "")
    else x.signText ++ d.scientific

/-- The text of a tree without parts. -/
def leafText : Json → String
  | null => "null"
  | bool b => if b then "true" else "false"
  | integer n => toString n
  | double x => doubleText x
  | string s => quoted s
  | array _ => "[]"
  | object _ => "\x7b\x7d"

mutual

/-- The tree in one line without blanks. -/
def compact : Json → String
  | array items => "[" ++ ",".intercalate (compactItems items) ++ "]"
  | object members => "\x7b" ++ ",".intercalate (compactMembers members) ++ "\x7d"
  | leaf => leafText leaf

def compactItems : List Json → List String
  | [] => []
  | j :: rest => compact j :: compactItems rest

def compactMembers : List (String × Json) → List String
  | [] => []
  | (k, v) :: rest => (quoted k ++ ":" ++ compact v) :: compactMembers rest

end

/-- A line break and the indentation of a level. -/
def newline (level : Nat) : String := "\n" ++ String.ofList (List.replicate (2 * level) ' ')

/-- Parts in brackets, each in a line of its own. -/
def block (level : Nat) (opening closing : String) (parts : List String) : String :=
  if parts.isEmpty then opening ++ closing
  else
    opening ++ newline (level + 1) ++ ("," ++ newline (level + 1)).intercalate parts ++
      newline level ++ closing

mutual

/-- The tree with every part in a line of its own; `level` counts the enclosing trees. -/
def indented (level : Nat) : Json → String
  | array items => block level "[" "]" (indentedItems level items)
  | object members => block level "\x7b" "\x7d" (indentedMembers level members)
  | leaf => leafText leaf

def indentedItems (level : Nat) : List Json → List String
  | [] => []
  | j :: rest => indented (level + 1) j :: indentedItems level rest

def indentedMembers (level : Nat) : List (String × Json) → List String
  | [] => []
  | (k, v) :: rest =>
    (quoted k ++ ": " ++ indented (level + 1) v) :: indentedMembers level rest

end

end ObjectMapping.Json
