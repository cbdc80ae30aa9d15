import ObjectMapping.Dialect

/-! How a database reads SQL text: character by character, into words, numbers,
quoted texts, placeholders and signs. The rules of quoting are those of the dialect.
A comment, an unknown character or a quote that is never closed is no token. -/
namespace ObjectMapping.Sql

/-- A lexical element of SQL text. -/
inductive Token where
  | word (text : String)
  | number (text : String)
  /-- What stands between quotes, told by the opening one, with the escapes undone. -/
  | quoted (quote : Char) (text : String)
  | placeholder (text : String)
  | sign (text : String)
  deriving DecidableEq, Repr

/-- What stands between quotes in the token. -/
def Token.quotedText? : Token → Option (Char × String)
  | quoted quote text => some (quote, text)
  | _ => none

/-- What stands between quotes, in order, each with its opening quote. -/
def quotedTexts (ts : List Token) : List (Char × String) := ts.filterMap Token.quotedText?

/-- The text of a placeholder. -/
def Token.placeholderText? : Token → Option String
  | placeholder text => some text
  | _ => none

/-- The placeholders, in order. -/
def placeholders (ts : List Token) : List String := ts.filterMap Token.placeholderText?

/-- Whether the dialect takes the character for an opening quote. -/
def opensQuote : Dialect → Char → Bool
  | .postgres, c => c == '\'' || c == '"'
  | .sqlite, c => c == '\'' || c == '"' || c == '\x60' || c == '['
  | .mysql, c => c == '\'' || c == '"' || c == '\x60'
  | .mssql, c => c == '\'' || c == '"' || c == '['

/-- The quote that ends what the given one began. -/
def closingQuote : Char → Char
  | '[' => ']'
  | '"' => '"'
  | '\x60' => '\x60'
  | _ => '\''

/-- Whether a closing quote inside the quotes is written twice. -/
def doublesQuote (d : Dialect) (opening : Char) : Bool := d ≠ .sqlite || opening ≠ '['

/-- Whether a backslash between the quotes begins an escape. -/
def hasEscapes (d : Dialect) (opening : Char) : Bool :=
  d = .mysql && (opening == '\'' || opening == '"')

/-- What a backslash before the character stands for. -/
def unescaped : Char → List Char
  | '0' => ['\x00']
  | 'b' => ['\x08']
  | 'n' => ['\n']
  | 'r' => ['\r']
  | 't' => ['\t']
  | 'Z' => ['\x1a']
  | '%' => ['\\', '%']
  | '_' => ['\\', '_']
  | c => [c]

/-- Whether the character may begin a word. -/
def startsWord (c : Char) : Bool := c.isAlpha || c == '_'

/-- Whether the character may stand inside a word. -/
def inWord (c : Char) : Bool := startsWord c || c.isDigit

/-- Whether the dialect takes the character for the beginning of a placeholder. -/
def startsPlaceholder : Dialect → Char → Bool
  | .postgres, c => c == '$'
  | .sqlite, c | .mysql, c => c == '?'
  | .mssql, c => c == '@'

/-- Where the reading of a text stands. -/
inductive Scan where
  | between
  | word (text : List Char)
  | number (text : List Char)
  | placeholder (text : List Char)
  /-- After a sign that may be the first half of another one. -/
  | sign (c : Char)
  | quoted (opening : Char) (text : List Char)
  /-- After a backslash between quotes. -/
  | escape (opening : Char) (text : List Char)
  /-- After a closing quote that may be the first of two. -/
  | closed (opening : Char) (text : List Char)

namespace Scan

/-- The token that ends with the text, if the text may end here. -/
def settle : Scan → Option (List Token)
  | between => some []
  | word text => some [.word (String.ofList text)]
  | number text => some [.number (String.ofList text)]
  | placeholder text => some [.placeholder (String.ofList text)]
  | sign c => some [.sign (String.singleton c)]
  | quoted _ _ => none
  | escape _ _ => none
  | closed opening text => some [.quoted opening (String.ofList text)]

/-- The first character of a token, or a character between tokens. -/
def begin (d : Dialect) (c : Char) : Option (List Token × Scan) :=
  if c.isWhitespace then some ([], between)
  else if startsWord c then some ([], word [c])
  else if c.isDigit then some ([], number [c])
  else if opensQuote d c then some ([], quoted c [])
  else if startsPlaceholder d c then some ([], placeholder [c])
  else if ['-', '/', '<', '>'].contains c then some ([], sign c)
  else if ['(', ')', ',', '.', '+', '*', '%', '='].contains c then
    some ([.sign (String.singleton c)], between)
  else none

/-- The character begins something new. -/
def next (d : Dialect) (state : Scan) (c : Char) : Option (List Token × Scan) := do
  let ended ← state.settle
  let (tokens, state) ← begin d c
  return (ended ++ tokens, state)

/-- Read one character. -/
def step (d : Dialect) (state : Scan) (c : Char) : Option (List Token × Scan) :=
  match state with
  | between => begin d c
  | word text =>
    if inWord c then some ([], word (text ++ [c]))
    else if opensQuote d c then
      -- A word right before a quote changes how the quoted text is read.
      if d = .mssql ∧ text = ['N'] ∧ c = '\'' then some ([.word "N"], quoted c []) else none
    else state.next d c
  | number text =>
    if c.isDigit || c == '.' then some ([], number (text ++ [c]))
    else if startsWord c then none
    else state.next d c
  | placeholder text =>
    if inWord c then some ([], placeholder (text ++ [c])) else state.next d c
  | sign first =>
    match first, c with
    | '-', '-' => none
    | '/', '*' => none
    | '<', '=' => some ([.sign "<="], between)
    | '<', '>' => some ([.sign "<>"], between)
    | '>', '=' => some ([.sign ">="], between)
    | _, _ => state.next d c
  | quoted opening text =>
    if hasEscapes d opening && c == '\\' then some ([], escape opening text)
    else if c = closingQuote opening then some ([], closed opening text)
    else some ([], quoted opening (text ++ [c]))
  | escape opening text => some ([], quoted opening (text ++ unescaped c))
  | closed opening text =>
    if c = closingQuote opening && doublesQuote d opening then
      some ([], quoted opening (text ++ [c]))
    else state.next d c

end Scan

/-- The tokens of the rest of a text, from where the reading stands. -/
def tokensFrom (d : Dialect) : Scan → List Char → Option (List Token)
  | state, [] => state.settle
  | state, c :: rest => do
    let (tokens, state) ← state.step d c
    let more ← tokensFrom d state rest
    return tokens ++ more

/-- The tokens of a text, if it is made of nothing else. -/
def tokens (d : Dialect) (text : String) : Option (List Token) :=
  tokensFrom d .between text.toList

end ObjectMapping.Sql
