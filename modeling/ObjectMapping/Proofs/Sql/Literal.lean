import ObjectMapping.Expr.Term
import ObjectMapping.Proofs.DateTime
import ObjectMapping.Proofs.Sql.Lexing

/-! The texts of names, values and types are read as what they stand for, whatever
characters occur in them. -/
namespace ObjectMapping

open Sql (Lexes Term Token)

theorem toList_doubled (c : Char) (text : String) :
    (doubled c text).toList = text.toList.flatMap fun d => if d = c then [c, c] else [d] :=
  String.toList_ofList

namespace Dialect

theorem opensQuote_nameQuote (d : Dialect) : Sql.opensQuote d d.nameQuote := by
  cases d <;> rfl

theorem doublesQuote_nameQuote (d : Dialect) : Sql.doublesQuote d d.nameQuote := by
  cases d <;> rfl

theorem opensQuote_apostrophe (d : Dialect) : Sql.opensQuote d '\'' := by
  cases d <;> rfl

theorem doublesQuote_apostrophe (d : Dialect) : Sql.doublesQuote d '\'' := by
  cases d <;> rfl

theorem toList_quoteIdentifier (d : Dialect) (name : String) :
    (d.quoteIdentifier name).toList = Sql.inQuotes d d.nameQuote name.toList := by
  have escaped : ∀ c : Char, Sql.escaped d d.nameQuote c =
      if c = Sql.closingQuote d.nameQuote then
        [Sql.closingQuote d.nameQuote, Sql.closingQuote d.nameQuote] else [c] := by
    intro c
    have plain : Sql.hasEscapes d d.nameQuote = false := by cases d <;> rfl
    by_cases closing : c = Sql.closingQuote d.nameQuote
    · simp [Sql.escaped, closing]
    · simp [Sql.escaped, closing, plain]
  rw [Sql.inQuotes, funext escaped]
  cases d <;> simp [quoteIdentifier, nameQuote, Sql.closingQuote, toList_doubled]

theorem lexes_quoteIdentifier (d : Dialect) (name : String) :
    Lexes d (d.quoteIdentifier name).toList [.quoted d.nameQuote name] := by
  have read := Lexes.quoted d.opensQuote_nameQuote d.doublesQuote_nameQuote name.toList
  rwa [← toList_quoteIdentifier, String.ofList_toList] at read

theorem lexes_qualified (d : Dialect) (table column : String) :
    Lexes d (d.qualified table column).toList
      [.quoted d.nameQuote table, .sign ".", .quoted d.nameQuote column] := by
  have read := Lexes.qualified d.opensQuote_nameQuote d.doublesQuote_nameQuote table.toList
    column.toList
  rw [← toList_quoteIdentifier, ← toList_quoteIdentifier, String.ofList_toList,
    String.ofList_toList] at read
  simpa [qualified] using read

theorem lexes_placeholder (d : Dialect) (index : Nat) :
    Lexes d (d.placeholder index).toList [.placeholder (d.placeholder index)] := by
  have digits : ∀ c ∈ (toString index).toList, Sql.inWord c := by
    intro c member
    rw [Nat.toString_eq_repr, Nat.toList_repr] at member
    simp [Sql.inWord, Nat.isDigit_of_mem_toDigits (by decide) (by decide) member]
  have spelled : ∀ {c text}, (d.placeholder index).toList = c :: text →
      Sql.startsPlaceholder d c → (∀ c ∈ text, Sql.inWord c) →
      Lexes d (d.placeholder index).toList [.placeholder (d.placeholder index)] := by
    intro c text same mark rest
    have read := Lexes.placeholder mark rest
    rwa [← same, String.ofList_toList] at read
  cases d with
  | postgres => exact spelled (String.toList_append (s := "$")) rfl digits
  | sqlite => exact spelled (String.toList_append (s := "?")) rfl digits
  | mysql => exact spelled (show "?".toList = '?' :: [] from rfl) rfl (List.forall_mem_nil _)
  | mssql =>
    exact spelled (String.toList_append (s := "@p")) rfl (List.forall_mem_cons.mpr ⟨by decide, digits⟩)

private theorem toList_escapedText (d : Dialect) (text : String) :
    text.toList.flatMap (Sql.escaped d '\'') =
      if d = mysql then (doubled '\\' (doubled '\'' text)).toList else (doubled '\'' text).toList := by
  split
  · rename_i same
    subst same
    rw [toList_doubled, toList_doubled, List.flatMap_assoc]
    congr 1
    funext c
    by_cases quote : c = '\''
    · subst quote
      rfl
    · by_cases backslash : c = '\\'
      · subst backslash
        rfl
      · simp [Sql.escaped, Sql.closingQuote, quote, backslash]
  · rename_i other
    rw [toList_doubled]
    congr 1
    funext c
    by_cases quote : c = '\'' <;> simp [Sql.escaped, Sql.closingQuote, Sql.hasEscapes, quote, other]

theorem lexes_quoteString (d : Dialect) (text : String) :
    Lexes d (d.quoteString text).toList (d.textTerm text).fringe := by
  have escaped := toList_escapedText d text
  have quoted := Lexes.quoted d.opensQuote_apostrophe d.doublesQuote_apostrophe text.toList
  cases d with
  | mssql =>
    have read := Lexes.national text.toList
    rw [Sql.inQuotes, escaped, String.ofList_toList] at read
    simpa [quoteString, textTerm, Term.fringe, Sql.Atom.tokens, Sql.closingQuote] using read
  | postgres | sqlite | mysql =>
    rw [Sql.inQuotes, escaped, String.ofList_toList] at quoted
    simpa [quoteString, textTerm, Term.fringe, Sql.Atom.tokens, Sql.closingQuote] using quoted

end Dialect

/-- Decimal digits, a point among them or not. -/
structure IsDigits (text : List Char) : Prop where
  first : ∃ c rest, text = c :: rest ∧ c.isDigit
  each : ∀ c ∈ text, c.isDigit ∨ c = '.'

/-- Digits, after a sign or not. -/
def IsNumeral (text : String) : Prop :=
  IsDigits text.toList ∨ ∃ digits, text.toList = '-' :: digits ∧ IsDigits digits

private theorem IsDigits.lexes (digits : IsDigits text) :
    Lexes d text [.number (String.ofList text)] := by
  obtain ⟨⟨c, rest, rfl, first⟩, each⟩ := digits
  exact Lexes.number first fun c member => each c (List.mem_cons_of_mem _ member)

private theorem IsDigits.head (digits : IsDigits text) : text.head? ≠ some '-' := by
  obtain ⟨⟨c, rest, rfl, first⟩, _⟩ := digits
  rintro same
  obtain rfl : c = '-' := by simpa using same
  exact absurd first (by decide)

theorem IsNumeral.lexes {text : String} (numeral : IsNumeral text) (d : Dialect) :
    Lexes d text.toList (Term.ofNumber text).fringe := by
  unfold Term.ofNumber
  rcases numeral with digits | ⟨digits, signed, isDigits⟩
  · split
    · rename_i rest same
      exact absurd (by simp [same]) digits.head
    · have read := digits.lexes (d := d)
      rwa [String.ofList_toList] at read
  · rw [signed]
    exact Lexes.minus isDigits.lexes isDigits.head

private theorem isDigits_toDigits (n : Nat) : IsDigits (Nat.toDigits 10 n) where
  first := by
    obtain ⟨c, rest, same⟩ := List.exists_cons_of_ne_nil (Nat.toDigits_ne_nil (n := n) (b := 10))
    have member : c ∈ Nat.toDigits 10 n := by simp [same]
    exact ⟨c, rest, same, Nat.isDigit_of_mem_toDigits (by decide) (by decide) member⟩
  each c member := .inl (Nat.isDigit_of_mem_toDigits (by decide) (by decide) member)

theorem isNumeral_nat (n : Nat) : IsNumeral (toString n) := by
  refine .inl ?_
  rw [Nat.toString_eq_repr, Nat.toList_repr]
  exact isDigits_toDigits n

theorem isNumeral_int (n : Int) : IsNumeral (toString n) := by
  cases n with
  | ofNat n => exact isNumeral_nat n
  | negSucc n =>
    refine .inr ⟨Nat.toDigits 10 (n + 1), ?_, isDigits_toDigits (n + 1)⟩
    change ("-" ++ Nat.repr (n + 1)).toList = _
    rw [String.toList_append, Nat.toList_repr]
    rfl

private theorem IsDigits.append (digits : IsDigits text)
    (more : ∀ c ∈ rest, c.isDigit ∨ c = '.') : IsDigits (text ++ rest) where
  first := by
    obtain ⟨c, tail, rfl, first⟩ := digits.first
    exact ⟨c, tail ++ rest, rfl, first⟩
  each c member := by
    rcases List.mem_append.mp member with here | there
    · exact digits.each c here
    · exact more c there

private theorem IsDigits.ofDigits (some : text ≠ []) (each : ∀ c ∈ text, c.isDigit = true) :
    IsDigits text where
  first := by
    obtain ⟨c, rest, rfl⟩ := List.exists_cons_of_ne_nil some
    exact ⟨c, rest, rfl, each c List.mem_cons_self⟩
  each c member := .inl (each c member)

private theorem isDigits_positional (d : Decimal) : IsDigits d.positional.toList := by
  have zeros : ∀ n, ∀ c ∈ List.replicate n '0', c.isDigit = true := by
    intro n c member
    obtain rfl := List.eq_of_mem_replicate member
    rfl
  have digits : ∀ c ∈ d.digits, c.isDigit = true := fun c member =>
    Nat.isDigit_of_mem_toDigits (by decide) (by decide) member
  have some : d.digits ≠ [] := Nat.toDigits_ne_nil
  unfold Decimal.positional
  split
  · rw [String.toList_ofList]
    exact (IsDigits.ofDigits some digits).append fun c member => .inl (zeros _ c member)
  · rw [String.toList_ofList]
    generalize places : (-d.exponent).toNat = n
    let padded := List.replicate (n + 1 - d.digits.length) '0' ++ d.digits
    have each : ∀ c ∈ padded, c.isDigit = true := by
      intro c member
      rcases List.mem_append.mp member with here | there
      · exact zeros _ c here
      · exact digits c there
    have long : n < padded.length := by
      simp only [padded, List.length_append, List.length_replicate]
      omega
    have whole : IsDigits (padded.take (padded.length - n)) := by
      refine .ofDigits ?_ fun c member => each c (List.mem_of_mem_take member)
      rw [← List.length_pos_iff, List.length_take]
      omega
    refine whole.append fun c member => ?_
    rcases List.mem_cons.mp member with rfl | later
    · exact .inr rfl
    · exact .inl (each c (List.mem_of_mem_drop later))

/-- A finite number is written without an exponent. -/
theorem isNumeral_plainText (x : Double) (finite : x.isFinite) : IsNumeral x.plainText := by
  have signed : ∀ text : String, IsDigits text.toList → IsNumeral (x.signText ++ text) := by
    intro text digits
    unfold Floating.signText
    cases x.negative with
    | false => exact .inl (by simpa using digits)
    | true => exact .inr ⟨text.toList, by simp, digits⟩
  have number : x.isNaN = false := by simp [Floating.isNaN, finite]
  simp only [Floating.plainText, number, finite, Bool.not_true, Bool.false_eq_true, if_false]
  split
  · exact signed "0" (isDigits_toDigits 0)
  · exact signed _ (isDigits_positional _)

/-- The canonical text of a date-time has no quote and no backslash. -/
theorem DateTime.mem_text (t : DateTime) (member : c ∈ t.text.toList) : c ≠ '\'' ∧ c ≠ '\\' := by
  rcases t.digit_or_sign_of_mem_text member with digit | sign
  · constructor <;> rintro rfl <;> exact absurd digit (by decide)
  · constructor <;> rintro rfl <;> exact absurd sign (by decide)

namespace Dialect

theorem lexes_dateTimeText (d : Dialect) (t : DateTime) :
    Lexes d ("'" ++ t.text ++ "'").toList [.quoted '\'' t.text] := by
  have plain : t.text.toList.flatMap (Sql.escaped d '\'') = t.text.toList := by
    have each : ∀ c ∈ t.text.toList, Sql.escaped d '\'' c = [c] := by
      intro c member
      obtain ⟨quote, backslash⟩ := t.mem_text member
      simp [Sql.escaped, Sql.closingQuote, quote, backslash]
    rw [List.flatMap_def, List.map_congr_left each, ← List.flatMap_def, List.flatMap_singleton']
  have read := Lexes.quoted d.opensQuote_apostrophe d.doublesQuote_apostrophe t.text.toList
  rw [Sql.inQuotes, plain, String.ofList_toList] at read
  simpa [Sql.closingQuote] using read

private theorem lexes_timestamp (d : Dialect) (t : DateTime) :
    Lexes d ("TIMESTAMP " ++ ("'" ++ t.text ++ "'")).toList [.word "TIMESTAMP", .quoted '\'' t.text] := by
  have word : Lexes d "TIMESTAMP".toList [.word "TIMESTAMP"] := .wordText (by decide +kernel)
  have apart : "TIMESTAMP ".toList = "TIMESTAMP".toList ++ [' '] := by decide +kernel
  rw [String.toList_append, apart, List.append_assoc]
  exact word.spaced (d.lexes_dateTimeText t)

private theorem lexes_convert (t : DateTime) :
    Lexes mssql ("CONVERT(DATETIME2, " ++ ("'" ++ t.text ++ "'") ++ ", 120)").toList
      (mssql.dateTimeTerm t).fringe := by
  have call : Lexes mssql "CONVERT".toList [.word "CONVERT"] := .wordText (by decide +kernel)
  have type : Lexes mssql "DATETIME2".toList [.word "DATETIME2"] := .wordText (by decide +kernel)
  have style : Lexes mssql "120".toList [.number "120"] := rfl
  have read := call.called (type.comma ((mssql.lexes_dateTimeText t).comma style))
  have first : "CONVERT(DATETIME2, ".toList =
      "CONVERT".toList ++ '(' :: ("DATETIME2".toList ++ [',', ' ']) := by decide +kernel
  have last : ", 120)".toList = ',' :: ' ' :: ("120".toList ++ [')']) := by decide +kernel
  generalize "'" ++ t.text ++ "'" = text at read ⊢
  simp only [String.toList_append, first, last, List.append_assoc, List.cons_append,
    List.nil_append] at read ⊢
  exact read

theorem lexes_dateTimeLiteral (d : Dialect) (t : DateTime) :
    Lexes d (d.dateTimeLiteral t).toList (d.dateTimeTerm t).fringe := by
  cases d with
  | sqlite => exact sqlite.lexes_dateTimeText t
  | postgres => exact postgres.lexes_timestamp t
  | mysql => exact mysql.lexes_timestamp t
  | mssql => exact lexes_convert t

theorem lexes_boolLiteral (d : Dialect) (b : Bool) :
    Lexes d (d.boolLiteral b).toList (d.boolTerm b).fringe := by
  cases d <;> cases b <;> rfl

/-- Every literal is read as the value that it stands for. -/
theorem lexes_literal (d : Dialect) (v : Value) (ok : d.literal v = .ok text) :
    Lexes d text.toList (d.literalTerm v).fringe := by
  have number : ∀ n : Int, Lexes d (toString n).toList (Term.ofNumber (toString n)).fringe :=
    fun n => (isNumeral_int n).lexes d
  have natural : ∀ n : Nat, Lexes d (toString n).toList (Term.ofNumber (toString n)).fringe :=
    fun n => (isNumeral_nat n).lexes d
  have floating : ∀ x : Double, floatLiteral x = .ok text →
      Lexes d text.toList (Term.ofNumber x.plainText).fringe := by
    intro x ok
    unfold floatLiteral at ok
    split at ok
    · rename_i finite
      obtain rfl := Except.ok.inj ok
      exact (isNumeral_plainText x finite).lexes d
    · cases ok
  cases v with
  | null =>
    obtain rfl := Except.ok.inj ok
    cases d <;> rfl
  | scalar v =>
    cases v with
    | float x => exact floating _ ok
    | double x => exact floating _ ok
    | bool b => exact Except.ok.inj ok ▸ d.lexes_boolLiteral b
    | string t => exact Except.ok.inj ok ▸ d.lexes_quoteString t
    | dateTime t => exact Except.ok.inj ok ▸ d.lexes_dateTimeLiteral t
    | int32 n | int64 n => exact Except.ok.inj ok ▸ number _
    | uint32 n | uint64 n | enum n => exact Except.ok.inj ok ▸ natural _
  | object _ => cases ok
  | array _ => cases ok

/-- The name of every type of a conversion is read as one. -/
theorem lexes_castType (d : Dialect) (target : FieldType) (ok : d.castType target = .ok text) :
    Lexes d text.toList (d.castTerm target).tokens := by
  have reads : ∀ text, d.castType target = .ok text →
      ∃ ts, Sql.tokens d text = some ts ∧ Sql.closes 0 ts := by
    cases d <;> cases target <;> rintro text ⟨⟩ <;> exact ⟨_, rfl, rfl⟩
  obtain ⟨ts, read, closed⟩ := reads text ok
  rw [castTerm, ok]
  simp only [Sql.SqlType.ofText, read, closed, dif_pos]
  exact read

private theorem inWord_ascii (letter : Sql.inWord c) : c.toNat < 128 := by
  have small : ∀ bound : UInt32, bound < 128 → c.val ≤ bound → c.toNat < 128 := fun bound low le =>
    Nat.lt_of_le_of_lt (UInt32.le_iff_toNat_le.mp le) (UInt32.lt_iff_toNat_lt.mp low)
  rcases Bool.or_eq_true_iff.mp letter with start | digit
  · rcases Bool.or_eq_true_iff.mp start with letter | line
    · rcases Bool.or_eq_true_iff.mp letter with upper | lower
      · exact small _ (by decide) (of_decide_eq_true upper).2
      · exact small _ (by decide) (of_decide_eq_true (Bool.and_eq_true_iff.mp lower).2)
    · obtain rfl := beq_iff_eq.mp line
      decide
  · exact small _ (by decide) (of_decide_eq_true (Bool.and_eq_true_iff.mp digit).2)

/-- Upper case keeps the characters of words. -/
private theorem inWord_toUpper (letter : Sql.inWord c) :
    Sql.inWord c.toUpper ∧ (Sql.startsWord c → Sql.startsWord c.toUpper) := by
  have ascii : ∀ n < 128, Sql.inWord (Char.ofNat n) → Sql.inWord (Char.ofNat n).toUpper ∧
      (Sql.startsWord (Char.ofNat n) → Sql.startsWord (Char.ofNat n).toUpper) := by
    decide +kernel
  have upper := ascii c.toNat (inWord_ascii letter)
  rw [Char.ofNat_toNat] at upper
  exact upper letter

/-- The name of a function is one word. -/
theorem lexes_functionName (d : Dialect) (name : String) (identifier : isIdentifier name) :
    Lexes d (d.functionName name).toList [.word (d.functionName name)] := by
  apply Lexes.wordText
  simp only [functionName]
  split
  · decide
  · rw [String.toList_ofList]
    unfold isIdentifier at identifier
    cases same : name.toList with
    | nil => simp [same] at identifier
    | cons first rest =>
      obtain ⟨start, more⟩ : Sql.startsWord first ∧ ∀ c ∈ rest, Sql.inWord c := by
        simpa [same, isIdentifierStart, Sql.inWord, Sql.startsWord] using identifier
      have begins := (inWord_toUpper (by simp [Sql.inWord, start])).2 start
      simpa [Sql.isWord, begins] using fun c member => (inWord_toUpper (more c member)).1

end Dialect

end ObjectMapping
