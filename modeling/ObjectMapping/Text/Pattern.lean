/-! Text patterns: an optional anchor at either end around literal characters and
the wildcard `.`, which stands for any character but a line feed. -/
namespace ObjectMapping

/-- One element of a pattern. -/
inductive Pattern.Item where
  | char (c : Char)
  | any
  deriving DecidableEq

/-- A pattern that has been checked. -/
structure Pattern where
  items : List Pattern.Item
  fromStart : Bool
  toEnd : Bool

namespace Pattern

/-- Characters with a meaning that patterns of this form do not have. -/
def reserved : List Char :=
  ['(', ')', '[', ']', '\x7b', '\x7d', '*', '+', '?', '|', '\\', '^', '$']

/-- The pattern written as `text`, if it is well formed. -/
def parse (text : String) : Option Pattern :=
  let chars := text.toList
  let (fromStart, chars) := match chars with
    | '^' :: rest => (true, rest)
    | rest => (false, rest)
  let (toEnd, chars) := match chars.reverse with
    | '$' :: rest => (true, rest.reverse)
    | _ => (false, chars)
  if chars.any reserved.contains then none
  else some ⟨chars.map fun c => if c = '.' then .any else .char c, fromStart, toEnd⟩

/-- Whether one element accepts a character. -/
def Item.accepts : Item → Char → Bool
  | .char c, d => c == d
  | .any, d => d != '\n'

/-- Whether the elements accept the front of the text, or all of it. -/
def acceptsHere (toEnd : Bool) : List Item → List Char → Bool
  | [], rest => !toEnd || rest.isEmpty
  | _ :: _, [] => false
  | item :: items, c :: rest => item.accepts c && acceptsHere toEnd items rest

/-- Whether the elements accept the front of the text or of what is left after
some of its characters. -/
def acceptsSomewhere (toEnd : Bool) (items : List Item) : List Char → Bool
  | [] => acceptsHere toEnd items []
  | c :: rest => acceptsHere toEnd items (c :: rest) || acceptsSomewhere toEnd items rest

/-- Whether the pattern occurs in the text. -/
def accepts (p : Pattern) (text : String) : Bool :=
  if p.fromStart then acceptsHere p.toEnd p.items text.toList
  else acceptsSomewhere p.toEnd p.items text.toList

end Pattern

end ObjectMapping
