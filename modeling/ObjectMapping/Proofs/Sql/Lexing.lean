import ObjectMapping.Sql.Token
import Mathlib.Data.List.Forall2

/-! How the tokens of a text follow from those of its parts. A blank, a parenthesis or
a comma ends whatever is before it, so texts are put together at these without
changing what the parts are read as. -/
namespace ObjectMapping.Sql

/-- The characters that end every token before them. -/
def delimiters : List Char := [' ', '(', ')', ',']

/-- Whether the characters are those of one word. -/
def isWord : List Char → Bool
  | [] => false
  | c :: rest => startsWord c && rest.all inWord

/-- The characters are read as the tokens. -/
def Lexes (d : Dialect) (text : List Char) (ts : List Token) : Prop :=
  tokensFrom d .between text = some ts

private theorem tokensFrom_cons (d : Dialect) (state : Scan) (c : Char) (rest : List Char) :
    tokensFrom d state (c :: rest) =
      (state.step d c).bind fun p => (tokensFrom d p.2 rest).map (p.1 ++ ·) := by
  rw [tokensFrom]
  cases state.step d c with
  | none => rfl
  | some p => cases read : tokensFrom d p.2 rest <;> simp [read]

private theorem next_settled {state : Scan} (d : Dialect) (c : Char) (settled : state.settle = some ts) :
    state.next d c = (Scan.begin d c).map fun p => (ts ++ p.1, p.2) := by
  rw [Scan.next, settled]
  cases Scan.begin d c <;> rfl

/-- What begins something new reads on as between tokens, after what has ended. -/
private theorem tokensFrom_next {state : Scan} (step : state.step d c = state.next d c)
    (settled : state.settle = some ts) (rest : List Char) :
    tokensFrom d state (c :: rest) = (tokensFrom d .between (c :: rest)).map (ts ++ ·) := by
  rw [tokensFrom_cons, step, next_settled d c settled, tokensFrom_cons, Scan.step]
  cases Scan.begin d c with
  | none => rfl
  | some p => cases read : tokensFrom d p.2 rest <;> simp [read]

private theorem closingQuote_not_delimiter (opening : Char) : closingQuote opening ∉ delimiters := by
  unfold closingQuote
  split <;> decide

private theorem step_delimiter (d : Dialect) (state : Scan) (delimiter : c ∈ delimiters)
    (settled : state.settle = some ts) : state.step d c = state.next d c := by
  obtain ⟨word, quote, digit, start, dot, minus, star, equal, greater⟩ : inWord c = false ∧
      opensQuote d c = false ∧ c.isDigit = false ∧ startsWord c = false ∧
      c ≠ '.' ∧ c ≠ '-' ∧ c ≠ '*' ∧ c ≠ '=' ∧ c ≠ '>' := by
    simp only [delimiters, List.mem_cons, List.not_mem_nil, or_false] at delimiter
    rcases delimiter with rfl | rfl | rfl | rfl <;> cases d <;> decide
  cases state with
  | between =>
    rw [next_settled d c rfl, Scan.step]
    cases Scan.begin d c <;> rfl
  | word text => simp [Scan.step, word, quote]
  | number text => simp [Scan.step, digit, dot, start]
  | placeholder text => simp [Scan.step, word]
  | sign first =>
    simp only [Scan.step]
    split <;> simp_all
  | quoted opening text => simp [Scan.settle] at settled
  | escape opening text => simp [Scan.settle] at settled
  | closed opening text =>
    have apart : c ≠ closingQuote opening := by
      rintro rfl
      exact closingQuote_not_delimiter opening delimiter
    simp [Scan.step, apart]

private theorem tokensFrom_delimiter (d : Dialect) (state : Scan) (text rest : List Char)
    (delimiter : c ∈ delimiters) (lexed : tokensFrom d state text = some ts) :
    tokensFrom d state (text ++ c :: rest) =
      (tokensFrom d .between (c :: rest)).map (ts ++ ·) := by
  induction text generalizing state ts with
  | nil => exact tokensFrom_next (step_delimiter d state delimiter lexed) lexed rest
  | cons x text ih =>
    rw [tokensFrom_cons, Option.bind_eq_some_iff] at lexed
    obtain ⟨⟨first, next⟩, step, lexed⟩ := lexed
    obtain ⟨more, read, rfl⟩ := Option.map_eq_some_iff.mp lexed
    rw [List.cons_append, tokensFrom_cons, step, Option.bind_some, ih next read, Option.map_map]
    simp [Function.comp_def]

namespace Lexes

theorem nil (d : Dialect) : Lexes d [] [] := rfl

/-- A blank, a parenthesis or a comma ends what is before it. -/
theorem append (first : Lexes d text ts) (delimiter : c ∈ delimiters)
    (second : Lexes d (c :: rest) us) : Lexes d (text ++ c :: rest) (ts ++ us) := by
  rw [Lexes, tokensFrom_delimiter d .between text rest delimiter first, second]
  rfl

theorem blank (rest : Lexes d text ts) : Lexes d (' ' :: text) ts := by
  rw [Lexes, tokensFrom_cons, show Scan.between.step d ' ' = some ([], .between) from rfl,
    Option.bind_some, rest]
  rfl

/-- A sign that is no beginning of a longer one. -/
theorem sign (plain : c ∈ ['(', ')', ',', '.', '+', '*', '%', '=']) (rest : Lexes d text ts) :
    Lexes d (c :: text) (.sign (String.singleton c) :: ts) := by
  have begun : ∀ c ∈ ['(', ')', ',', '.', '+', '*', '%', '='],
      Scan.begin d c = some ([.sign (String.singleton c)], .between) := by
    intro c member
    simp only [List.mem_cons, List.not_mem_nil, or_false] at member
    rcases member with rfl | rfl | rfl | rfl | rfl | rfl | rfl | rfl <;> cases d <;> rfl
  rw [Lexes, tokensFrom_cons, Scan.step, begun c plain, Option.bind_some, rest]
  rfl

/-- Two texts with a blank between them. -/
theorem spaced (first : Lexes d text ts) (second : Lexes d rest us) :
    Lexes d (text ++ ' ' :: rest) (ts ++ us) :=
  first.append (by decide) second.blank

theorem paren (inside : Lexes d text ts) (after : Lexes d rest us) :
    Lexes d ('(' :: (text ++ ')' :: rest)) (.sign "(" :: (ts ++ .sign ")" :: us)) :=
  sign (by decide) (inside.append (by decide) (sign (by decide) after))

/-- A text in parentheses after a name. -/
theorem called (name : Lexes d text ts) (inside : Lexes d rest us) :
    Lexes d (text ++ '(' :: (rest ++ [')'])) (ts ++ .sign "(" :: (us ++ [.sign ")"])) :=
  name.append (by decide) (inside.paren (nil d))

/-- Two texts with a comma between them. -/
theorem comma (first : Lexes d text ts) (second : Lexes d rest us) :
    Lexes d (text ++ ',' :: ' ' :: rest) (ts ++ .sign "," :: us) :=
  first.append (by decide) (sign (by decide) second.blank)

/-- Texts in a row with commas between them. -/
theorem list (each : List.Forall₂ (fun text ts => Lexes d text.toList ts) texts tss) :
    Lexes d (", ".intercalate texts).toList (List.intercalate [.sign ","] tss) := by
  induction each with
  | nil => exact nil d
  | @cons text ts texts tss first rest ih =>
    cases rest with
    | nil => rwa [String.intercalate_singleton, List.intercalate_singleton]
    | cons second rest =>
      have read := first.comma ih
      have comma : ", ".toList = [',', ' '] := rfl
      rw [String.intercalate_cons_cons, String.toList_append, String.toList_append, comma,
        List.append_assoc, List.intercalate_cons_cons, List.append_assoc]
      exact read

private theorem step_minus (d : Dialect) : Scan.between.step d '-' = some ([], .sign '-') := by
  cases d <;> rfl

private theorem tokensFrom_minus {c : Char} (d : Dialect) (text : List Char) (other : c ≠ '-') :
    tokensFrom d (.sign '-') (c :: text) =
      (tokensFrom d .between (c :: text)).map ([.sign "-"] ++ ·) := by
  have step : (Scan.sign '-').step d c = (Scan.sign '-').next d c := by
    simp only [Scan.step]
    split <;> simp_all
  exact tokensFrom_next step rfl text

/-- A minus sign before anything but a sign of its own kind, which would begin a comment. -/
theorem minus (rest : Lexes d text ts) (apart : text.head? ≠ some '-') :
    Lexes d ('-' :: text) (.sign "-" :: ts) := by
  rw [Lexes, tokensFrom_cons, step_minus, Option.bind_some]
  cases text with
  | nil =>
    obtain rfl := Option.some.inj rest
    rfl
  | cons c text =>
    rw [tokensFrom_minus d text (by simpa using apart), rest]
    rfl

theorem head_minus (read : Lexes d ('-' :: text) ts) : ts.head? = some (.sign "-") := by
  rw [Lexes, tokensFrom_cons, step_minus, Option.bind_some] at read
  cases text with
  | nil =>
    obtain rfl := Option.some.inj read
    rfl
  | cons c text =>
    by_cases same : c = '-'
    · rw [same, tokensFrom_cons] at read
      cases read
    · rw [tokensFrom_minus d text same] at read
      cases rest : tokensFrom d .between (c :: text) <;> rw [rest] at read <;> cases read
      rfl

theorem head_plus (read : Lexes d ('+' :: text) ts) : ts.head? = some (.sign "+") := by
  have begun : Scan.between.step d '+' = some ([.sign "+"], .between) := by cases d <;> rfl
  rw [Lexes, tokensFrom_cons, begun, Option.bind_some] at read
  cases rest : tokensFrom d .between text <;> rw [rest] at read <;> cases read
  rfl

/-- Characters that are kept in a state give one token in the end. -/
private theorem kept (token : List Char → Token) (d : Dialect) (state : List Char → Scan)
    (text before : List Char)
    (keeps : ∀ c ∈ text, ∀ before, (state before).step d c = some ([], state (before ++ [c])))
    (settled : ∀ text, (state text).settle = some [token text]) :
    tokensFrom d (state before) text = some [token (before ++ text)] := by
  induction text generalizing before with
  | nil => simpa [tokensFrom] using settled before
  | cons c text ih =>
    have more := ih (before ++ [c]) fun c member => keeps c (List.mem_cons_of_mem _ member)
    rw [tokensFrom_cons, keeps c List.mem_cons_self, Option.bind_some, more]
    simp

private theorem not_whitespace {p : Char → Bool} {c : Char} (marked : p c = true)
    (plain : [' ', '\t', '\r', '\n'].any p = false) : c.isWhitespace = false := by
  rw [Bool.eq_false_iff]
  intro space
  have member : c ∈ [' ', '\t', '\r', '\n'] := by simpa [Char.isWhitespace, or_assoc] using space
  exact absurd marked (List.any_eq_false.mp plain c member)

theorem word (letters : isWord text) : Lexes d text [.word (String.ofList text)] := by
  cases text with
  | nil => cases letters
  | cons c text =>
    obtain ⟨first, rest⟩ : startsWord c ∧ ∀ c ∈ text, inWord c := by
      simpa [isWord] using letters
    have visible : c.isWhitespace = false := not_whitespace first rfl
    have begun : Scan.between.step d c = some ([], .word [c]) := by
      simp [Scan.step, Scan.begin, visible, first]
    have read := kept (fun text => .word (String.ofList text)) d .word text [c]
      (fun c member before => by simp [Scan.step, rest c member]) fun _ => rfl
    rw [Lexes, tokensFrom_cons, begun, Option.bind_some, read]
    rfl

theorem wordText {word : String} (letters : isWord word.toList) : Lexes d word.toList [.word word] := by
  have read := Lexes.word (d := d) letters
  rwa [String.ofList_toList] at read

private theorem digit_not_startsWord (digit : c.isDigit = true) : startsWord c = false := by
  rw [Bool.eq_false_iff]
  intro start
  have last : c.val ≤ '9'.val := of_decide_eq_true (Bool.and_eq_true_iff.mp digit).2
  rcases Bool.or_eq_true_iff.mp start with letter | line
  · rcases Bool.or_eq_true_iff.mp letter with upper | lower
    · exact absurd (UInt32.le_trans (of_decide_eq_true upper).1 last) (by decide)
    · have first := of_decide_eq_true (Bool.and_eq_true_iff.mp lower).1
      exact absurd (UInt32.le_trans first last) (by decide)
  · obtain rfl := beq_iff_eq.mp line
    exact absurd last (by decide)

theorem number (first : c.isDigit) (rest : ∀ c ∈ text, c.isDigit ∨ c = '.') :
    Lexes d (c :: text) [.number (String.ofList (c :: text))] := by
  have visible : c.isWhitespace = false := not_whitespace first rfl
  have begun : Scan.between.step d c = some ([], .number [c]) := by
    simp [Scan.step, Scan.begin, visible, first, digit_not_startsWord first]
  have read := kept (fun text => .number (String.ofList text)) d .number text [c]
    (fun c member before => by
      have digit : (c.isDigit || c == '.') = true := by simpa using rest c member
      simp [Scan.step, digit])
    fun _ => rfl
  rw [Lexes, tokensFrom_cons, begun, Option.bind_some, read]
  rfl

/-- A placeholder is a mark and what may stand inside a word. -/
theorem placeholder (mark : startsPlaceholder d c) (rest : ∀ c ∈ text, inWord c) :
    Lexes d (c :: text) [.placeholder (String.ofList (c :: text))] := by
  have begun : Scan.between.step d c = some ([], .placeholder [c]) := by
    cases d <;> obtain rfl := beq_iff_eq.mp mark <;> rfl
  have read := kept (fun text => .placeholder (String.ofList text)) d .placeholder text [c]
    (fun c member before => by simp [Scan.step, rest c member]) fun _ => rfl
  rw [Lexes, tokensFrom_cons, begun, Option.bind_some, read]
  rfl

end Lexes

/-- The character as it is written between quotes. -/
def escaped (d : Dialect) (opening c : Char) : List Char :=
  if c = closingQuote opening ∨ hasEscapes d opening ∧ c = '\\' then [c, c] else [c]

private theorem closingQuote_ne_backslash (opening : Char) : closingQuote opening ≠ '\\' := by
  unfold closingQuote
  split <;> decide

private theorem tokensFrom_escaped_one (d : Dialect) (opening c : Char) (before more : List Char)
    (doubles : doublesQuote d opening) :
    tokensFrom d (.quoted opening before) (escaped d opening c ++ more) =
      tokensFrom d (.quoted opening (before ++ [c])) more := by
  have prefixed : ∀ (state : Scan) (rest : List Char),
      (tokensFrom d state rest).map ([] ++ ·) = tokensFrom d state rest := by
    intro state rest
    simp
  by_cases closing : c = closingQuote opening
  · have other : c ≠ '\\' := closing ▸ closingQuote_ne_backslash opening
    have first : (Scan.quoted opening before).step d c = some ([], .closed opening before) := by
      simp [Scan.step, closing, closingQuote_ne_backslash]
    have second : (Scan.closed opening before).step d c =
        some ([], .quoted opening (before ++ [c])) := by
      simp [Scan.step, closing, doubles]
    rw [escaped, if_pos (.inl closing), List.cons_append, List.singleton_append, tokensFrom_cons,
      first, Option.bind_some, prefixed, tokensFrom_cons, second, Option.bind_some, prefixed]
  · by_cases special : hasEscapes d opening ∧ c = '\\'
    · obtain ⟨escapes, rfl⟩ := special
      have first : (Scan.quoted opening before).step d '\\' =
          some ([], .escape opening before) := by
        simp [Scan.step, escapes]
      rw [escaped, if_pos (.inr ⟨escapes, rfl⟩), List.cons_append, List.singleton_append,
        tokensFrom_cons, first, Option.bind_some, prefixed, tokensFrom_cons, Scan.step,
        Option.bind_some, prefixed]
      rfl
    · have plain : (hasEscapes d opening && c == '\\') = false := by
        simpa [Bool.and_eq_false_iff] using special
      have first : (Scan.quoted opening before).step d c =
          some ([], .quoted opening (before ++ [c])) := by
        simp [Scan.step, plain, closing]
      rw [escaped, if_neg (by simp [closing, special]), List.singleton_append, tokensFrom_cons,
        first, Option.bind_some, prefixed]

/-- Between quotes every character is read as itself, whatever it is. -/
theorem tokensFrom_escaped (d : Dialect) (opening : Char) (text before rest : List Char)
    (doubles : doublesQuote d opening) :
    tokensFrom d (.quoted opening before) (text.flatMap (escaped d opening) ++ rest) =
      tokensFrom d (.quoted opening (before ++ text)) rest := by
  induction text generalizing before with
  | nil => simp
  | cons c text ih =>
    rw [List.flatMap_cons, List.append_assoc, tokensFrom_escaped_one d opening c before _ doubles, ih]
    simp

/-- What stands in quotes. -/
def inQuotes (d : Dialect) (opening : Char) (text : List Char) : List Char :=
  opening :: (text.flatMap (escaped d opening) ++ [closingQuote opening])

theorem tokensFrom_inQuotes {state : Scan} (d : Dialect) (opening : Char) (text rest : List Char)
    (doubles : doublesQuote d opening) (begun : state.step d opening = some (ts, .quoted opening [])) :
    tokensFrom d state (inQuotes d opening text ++ rest) =
      (tokensFrom d (.closed opening text) rest).map (ts ++ ·) := by
  have closes : (Scan.quoted opening text).step d (closingQuote opening) =
      some ([], .closed opening text) := by
    simp [Scan.step, closingQuote_ne_backslash]
  rw [inQuotes, List.cons_append, tokensFrom_cons, begun, Option.bind_some, List.append_assoc,
    tokensFrom_escaped d opening text [] _ doubles, List.nil_append, List.singleton_append,
    tokensFrom_cons, closes, Option.bind_some]
  simp

namespace Lexes

private theorem begin_quote (opens : opensQuote d opening) :
    Scan.between.step d opening = some ([], .quoted opening []) := by
  cases d <;> simp only [opensQuote, Bool.or_eq_true, beq_iff_eq] at opens
  case postgres => rcases opens with rfl | rfl <;> rfl
  case sqlite => rcases opens with ((rfl | rfl) | rfl) | rfl <;> rfl
  case mysql => rcases opens with (rfl | rfl) | rfl <;> rfl
  case mssql => rcases opens with (rfl | rfl) | rfl <;> rfl

theorem quoted (opens : opensQuote d opening) (doubles : doublesQuote d opening)
    (text : List Char) :
    Lexes d (inQuotes d opening text) [.quoted opening (String.ofList text)] := by
  have read := tokensFrom_inQuotes d opening text [] doubles (begin_quote opens)
  rw [List.append_nil] at read
  rw [Lexes, read]
  rfl

/-- Two quoted names with a dot between them. -/
theorem qualified (opens : opensQuote d opening) (doubles : doublesQuote d opening)
    (table column : List Char) :
    Lexes d (inQuotes d opening table ++ '.' :: inQuotes d opening column)
      [.quoted opening (String.ofList table), .sign ".", .quoted opening (String.ofList column)] := by
  have dot : Lexes d ('.' :: inQuotes d opening column)
      [.sign ".", .quoted opening (String.ofList column)] :=
    sign (by decide) (quoted opens doubles column)
  have apart : '.' ≠ closingQuote opening := by
    unfold closingQuote
    split <;> decide
  have step : (Scan.closed opening table).step d '.' = (Scan.closed opening table).next d '.' := by
    simp [Scan.step, apart]
  rw [Lexes, tokensFrom_inQuotes d opening table _ doubles (begin_quote opens),
    tokensFrom_next step rfl, dot]
  rfl

/-- A text with the letter that tells its encoding. -/
theorem national (text : List Char) :
    Lexes .mssql ('N' :: inQuotes .mssql '\'' text)
      [.word "N", .quoted '\'' (String.ofList text)] := by
  have begun : Scan.between.step .mssql 'N' = some ([], .word ['N']) := rfl
  have opens : (Scan.word ['N']).step .mssql '\'' = some ([.word "N"], .quoted '\'' []) := rfl
  have read := tokensFrom_inQuotes .mssql '\'' text [] rfl opens
  rw [List.append_nil] at read
  rw [Lexes, tokensFrom_cons, begun, Option.bind_some, read]
  rfl

end Lexes

end ObjectMapping.Sql
