import ObjectMapping.Statement.Parameters
import ObjectMapping.Proofs.Sql.Quotations
import Mathlib.Data.List.Range

/-! Placeholders and parameters line up. Every part of a statement binds the next
placeholders to the columns it names, in order; parts are put together at words and commas,
which are never between a column and its placeholder. -/
namespace ObjectMapping

open Sql (Lexes Token equated placeholders)

namespace Sql

/-- Whether the token may stand between two parts of a statement. -/
def Token.separates : Token → Bool
  | word _ => true
  | sign text => text ≠ "="
  | _ => false

theorem placeholders_nil : placeholders [] = [] := rfl

theorem placeholders_separated (separates : t.separates) (ts us : List Token) :
    placeholders (ts ++ t :: us) = placeholders ts ++ placeholders us := by
  have plain : t.placeholderText? = none := by cases t <;> first | rfl | cases separates
  rw [placeholders, List.filterMap_append, List.filterMap_cons_none plain]
  rfl

/-- No equation reaches over a separating token. -/
theorem equated_separated (separates : t.separates) (ts us : List Token) :
    equated (ts ++ t :: us) = equated ts ++ equated us := by
  fun_induction equated ts with
  | case1 quote name text rest ih => exact congrArg (name :: ·) ih
  | case2 first rest apart ih =>
    rw [List.cons_append, equated, ih]
    rintro quote name text more rfl same
    cases rest with
    | nil =>
      have sign : t = .sign "=" := (List.cons.inj same).1
      subst sign
      cases separates
    | cons second rest =>
      have sign : second = .sign "=" := (List.cons.inj same).1
      cases rest with
      | nil =>
        have mark : t = .placeholder text := (List.cons.inj (List.cons.inj same).2).1
        subst mark
        cases separates
      | cons third rest =>
        have mark : third = .placeholder text := (List.cons.inj (List.cons.inj same).2).1
        exact apart quote name text rest rfl (by rw [sign, mark])
  | case3 =>
    rw [List.nil_append, equated]
    · rfl
    rintro quote name text more rfl
    cases separates

/-- Without a placeholder there is nothing to equate. -/
theorem equated_of_placeholders_nil (none : placeholders ts = []) : equated ts = [] := by
  fun_induction equated ts with
  | case1 => cases none
  | case2 first rest _ ih =>
    refine ih (List.filterMap_eq_nil_iff.mpr fun t member => ?_)
    exact List.filterMap_eq_nil_iff.mp none t (List.mem_cons_of_mem _ member)
  | case3 => rfl

theorem Lexes.equation (left : Lexes d l.toList ts) (right : Lexes d r.toList us) :
    Lexes d (l ++ " = " ++ r).toList (ts ++ .sign "=" :: us) := by
  have middle : " = ".toList = [' ', '=', ' '] := rfl
  have read := left.spaced (sign (c := '=') (by decide) right.blank)
  rw [String.toList_append, String.toList_append, middle, List.append_assoc]
  exact read

/-- The beginning of an update before its assignments. -/
theorem Lexes.assigned (sets : Lexes d text.toList ts) (table : String) :
    Lexes d ("UPDATE " ++ d.quoteIdentifier table ++ " SET " ++ text).toList
      (.word "UPDATE" :: .quoted d.nameQuote table :: .word "SET" :: ts) := by
  have first : Lexes d "UPDATE".toList [.word "UPDATE"] := .wordText (by decide)
  have second : Lexes d "SET".toList [.word "SET"] := .wordText (by decide)
  have update : "UPDATE ".toList = "UPDATE".toList ++ [' '] := by decide +kernel
  have set : " SET ".toList = ' ' :: ("SET".toList ++ [' ']) := by decide +kernel
  have whole := first.spaced ((d.lexes_quoteIdentifier table).spaced (second.spaced sets))
  simp only [String.toList_append, update, set]
  simpa using whole

/-- A condition after the rest of a statement. -/
theorem Lexes.restrict (start : Lexes d text.toList ts) (condition : Lexes d c.toList us) :
    Lexes d (text ++ (" WHERE " ++ c)).toList (ts ++ .word "WHERE" :: us) := by
  have word : Lexes d "WHERE".toList [.word "WHERE"] := .wordText (by decide)
  have read := start.spaced (word.spaced condition)
  have middle : " WHERE ".toList = ' ' :: ("WHERE".toList ++ [' ']) := by decide +kernel
  simpa [middle] using read

end Sql

/-- The tokens name the columns of the fields for the placeholders after the first `bound`
ones, and the values are what the record holds in the fields. -/
structure Fills (d : Dialect) (record : Record) (bound : Nat) (ts : List Token)
    (fields : List Field) (vs : List Value) : Prop where
  placeholders : placeholders ts = (List.range' (bound + 1) vs.length).map d.placeholder
  equated : equated ts = fields.map Field.name
  values : fields.mapM (·.get record) = .ok vs

namespace Fills

theorem none (d : Dialect) (record : Record) (bound : Nat) (without : Sql.placeholders ts = []) :
    Fills d record bound ts [] [] :=
  ⟨without, Sql.equated_of_placeholders_nil without, rfl⟩

/-- The equation of a column with the next placeholder. -/
theorem one (d : Dialect) (bound : Nat) (quote : Char) (value : f.get record = .ok v) :
    Fills d record bound
      [.quoted quote f.name, .sign "=", .placeholder (d.placeholder (bound + 1))] [f] [v] where
  placeholders := rfl
  equated := rfl
  values := by simp [value]

theorem append (first : Fills d record bound ts fields vs) (separates : t.separates)
    (second : Fills d record (bound + vs.length) us more ws) :
    Fills d record bound (ts ++ t :: us) (fields ++ more) (vs ++ ws) where
  placeholders := by
    rw [Sql.placeholders_separated separates, first.placeholders, second.placeholders,
      Nat.add_right_comm, ← List.map_append, List.range'_append_1, List.length_append]
  equated := by
    rw [Sql.equated_separated separates, first.equated, second.equated, List.map_append]
  values := by
    rw [List.mapM_append, first.values, second.values]
    rfl

/-- Nothing is bound by what comes before the token. -/
theorem after (without : Sql.placeholders ts = []) (separates : t.separates)
    (rest : Fills d record bound us fields vs) : Fills d record bound (ts ++ t :: us) fields vs :=
  (none d record bound without).append separates rest

end Fills

/-- The text is made of tokens that bind the values of the fields to the placeholders after
the first `bound` ones. -/
def Binds (d : Dialect) (record : Record) (bound : Nat) (text : String) (fields : List Field)
    (vs : List Value) : Prop :=
  ∃ ts, Lexes d text.toList ts ∧ Fills d record bound ts fields vs

namespace Binds

theorem linesUp (binds : Binds d record 0 sql fields params) :
    (BoundStatement.mk sql params).LinesUp d record equated fields := by
  obtain ⟨ts, read, fills⟩ := binds
  exact ⟨⟨ts, read, fills.placeholders, fills.equated⟩, fills.values⟩

/-- An expression binds nothing. -/
theorem compile {e : Expr} (constructed : e.Constructed) (ok : d.compile e = .ok text)
    (record : Record) (bound : Nat) : Binds d record bound text [] [] :=
  ⟨_, e.spells_layout constructed.formed ok, .none d record bound (e.placeholders_layout _)⟩

/-- The equation of the key with the next placeholder. -/
theorem keyCondition (d : Dialect) (descriptor : Descriptor) (bound : Nat)
    (value : key.get record = .ok v) :
    Binds d record bound (keyCondition d descriptor key (bound + 1)) [key] [v] := by
  have read := (d.lexes_qualified descriptor.table key.name).equation
    (d.lexes_placeholder (bound + 1))
  have table : placeholders [.quoted d.nameQuote descriptor.table] = [] := rfl
  exact ⟨_, read, .after (t := .sign ".") table rfl (.one d bound d.nameQuote value)⟩

/-- A condition in parentheses before the equation of the key. -/
theorem and (condition : Binds d record bound c [] []) (key : Binds d record bound k fields vs) :
    Binds d record bound ("(" ++ c ++ ") AND " ++ k) fields vs := by
  obtain ⟨ts, readCondition, plain⟩ := condition
  obtain ⟨us, readKey, fills⟩ := key
  have word : Lexes d "AND".toList [.word "AND"] := .wordText (by decide)
  have read := readCondition.paren (word.spaced readKey).blank
  have first : "(".toList = ['('] := rfl
  have second : ") AND ".toList = ')' :: ' ' :: ("AND".toList ++ [' ']) := by decide +kernel
  refine ⟨.sign "(" :: (ts ++ .sign ")" :: .word "AND" :: us), ?_, ?_⟩
  · simpa [first, second] using read
  · have inside : placeholders (.sign "(" :: ts) = [] := plain.placeholders
    exact .after inside rfl (.after (t := .word "AND") Sql.placeholders_nil rfl fills)

/-- Two parts with a comma between them. -/
theorem comma (first : Binds d record bound a fields vs)
    (second : Binds d record (bound + vs.length) b more ws) :
    Binds d record bound (a ++ ", " ++ b) (fields ++ more) (vs ++ ws) := by
  obtain ⟨ts, readFirst, fills⟩ := first
  obtain ⟨us, readSecond, added⟩ := second
  have comma : ", ".toList = [',', ' '] := rfl
  refine ⟨_, ?_, fills.append (t := .sign ",") rfl added⟩
  simpa [comma] using readFirst.comma readSecond

theorem deleted (d : Dialect) (record : Record) (table : String) :
    Binds d record 0 ("DELETE FROM " ++ d.quoteIdentifier table) [] [] := by
  have first : Lexes d "DELETE".toList [.word "DELETE"] := .wordText (by decide)
  have second : Lexes d "FROM".toList [.word "FROM"] := .wordText (by decide)
  have words : "DELETE FROM ".toList = "DELETE".toList ++ ' ' :: ("FROM".toList ++ [' ']) := by
    decide +kernel
  have plain : placeholders [.word "DELETE", .word "FROM", .quoted d.nameQuote table] = [] := rfl
  refine ⟨_, ?_, .none d record 0 plain⟩
  rw [String.toList_append, words]
  simpa using first.spaced (second.spaced (d.lexes_quoteIdentifier table))

/-- The assignments of an update, after the name of its table. -/
theorem assigned (sets : Binds d record 0 text fields vs) (table : String) :
    Binds d record 0 ("UPDATE " ++ d.quoteIdentifier table ++ " SET " ++ text) fields vs := by
  obtain ⟨ts, read, fills⟩ := sets
  have plain : placeholders [.word "UPDATE", .quoted d.nameQuote table] = [] := rfl
  exact ⟨_, read.assigned table, .after (t := .word "SET") plain rfl fills⟩

/-- A condition after the rest of a statement. -/
theorem restrict (start : Binds d record 0 text fields bound)
    (condition : Binds d record bound.length c more ws) :
    Binds d record 0 (text ++ (" WHERE " ++ c)) (fields ++ more) (bound ++ ws) := by
  obtain ⟨ts, readStart, fills⟩ := start
  obtain ⟨us, readCondition, added⟩ := condition
  exact ⟨_, readStart.restrict readCondition, fills.append rfl (by rwa [Nat.zero_add])⟩

end Binds

theorem whereClause_binds {filter : Option Expr} (constructed : ∀ e ∈ filter, e.Constructed)
    (start : Binds d target.record 0 text fields bound)
    (ok : whereClause d target filter byKey bound = .ok clause) :
    Binds d target.record 0 (text ++ clause.sql) (fields ++ target.boundKey byKey)
      clause.params := by
  obtain ⟨condition, compiled, ok⟩ := bind_eq_ok.mp ok
  have plain : ∀ c ∈ condition, Binds d target.record bound.length c [] [] := by
    intro c member
    obtain rfl := Option.mem_def.mp member
    cases filter with
    | none => cases compiled
    | some e =>
      obtain ⟨text, rendered, same⟩ := bind_eq_ok.mp compiled
      obtain rfl := Option.some.inj (Except.ok.inj same)
      exact .compile (constructed e rfl) rendered target.record bound.length
  cases byKey with
  | true =>
    obtain ⟨key, found, ok⟩ := bind_eq_ok.mp ok
    obtain ⟨v, value, ok⟩ := bind_eq_ok.mp ok
    have keyed := Binds.keyCondition d target.descriptor bound.length value
    have same : target.boundKey true = [key] := by
      rw [keyField] at found
      split at found
      · rename_i flagged
        obtain rfl := Except.ok.inj found
        simp [Storable.boundKey, flagged]
      · cases found
    obtain rfl := Except.ok.inj ok
    rw [same]
    cases condition with
    | none => exact start.restrict keyed
    | some c =>
      have both := start.restrict ((plain c rfl).and keyed)
      have opened : " WHERE (" = " WHERE " ++ "(" := by decide +kernel
      simpa only [opened, String.append_assoc] using both
  | false =>
    obtain rfl := Except.ok.inj ok
    cases condition with
    | none => simpa [Storable.boundKey] using start
    | some c =>
      have more := start.restrict (plain c rfl)
      simpa [Storable.boundKey] using more

namespace Update

theorem setText_binds {a : Assignment} (constructed : ∀ e, a.value = .expr e → e.Constructed)
    (ok : setText d record bound a = .ok (text, after)) :
    ∃ vs, after = bound ++ vs ∧ Binds d record bound.length text a.boundField?.toList vs := by
  obtain ⟨c, value⟩ := a
  have column := d.lexes_quoteIdentifier c.name
  cases value with
  | expr e =>
    obtain ⟨right, rendered, ok⟩ := bind_eq_ok.mp ok
    obtain ⟨assigned, same, ok⟩ := bind_eq_ok.mp ok
    obtain rfl := Except.ok.inj same
    obtain ⟨rfl, rfl⟩ := Prod.mk.inj (Except.ok.inj ok)
    obtain ⟨ts, read, plain⟩ := Binds.compile (constructed e rfl) rendered record bound.length
    exact ⟨[], (List.append_nil bound).symm, _, column.equation read,
      .none d record bound.length plain.placeholders⟩
  | current =>
    obtain ⟨v, value, ok⟩ := bind_eq_ok.mp ok
    obtain ⟨assigned, same, ok⟩ := bind_eq_ok.mp ok
    obtain rfl := Except.ok.inj same
    obtain ⟨rfl, rfl⟩ := Prod.mk.inj (Except.ok.inj ok)
    exact ⟨[v], rfl, _, column.equation (d.lexes_placeholder (bound.length + 1)),
      .one d bound.length d.nameQuote value⟩

/-- The assignments one after the other bind their values one after the other. -/
theorem setTexts_binds {sets : List Assignment}
    (constructed : ∀ a ∈ sets, ∀ e, a.value = .expr e → e.Constructed)
    (ok : setTexts d record bound sets = .ok (texts, after)) :
    ∃ vs, after = bound ++ vs ∧ Binds d record bound.length (", ".intercalate texts)
      (sets.filterMap Assignment.boundField?) vs := by
  induction sets generalizing bound texts with
  | nil =>
    obtain ⟨rfl, rfl⟩ := Prod.mk.inj (Except.ok.inj ok)
    exact ⟨[], (List.append_nil bound).symm, [], Lexes.nil d, .none d record bound.length rfl⟩
  | cons a sets ih =>
    obtain ⟨⟨text, middle⟩, first, ok⟩ := bind_eq_ok.mp ok
    obtain ⟨⟨more, after⟩, rest, ok⟩ := bind_eq_ok.mp ok
    obtain ⟨rfl, rfl⟩ := Prod.mk.inj (Except.ok.inj ok)
    obtain ⟨vs, rfl, binds⟩ := setText_binds (constructed a List.mem_cons_self) first
    obtain ⟨ws, rfl, others⟩ :=
      ih (fun b member => constructed b (List.mem_cons_of_mem a member)) rest
    have fields : (a :: sets).filterMap Assignment.boundField? =
        a.boundField?.toList ++ sets.filterMap Assignment.boundField? := by
      cases bound : a.boundField? <;> simp [bound]
    rw [fields]
    refine ⟨vs ++ ws, List.append_assoc .., ?_⟩
    cases sets with
    | nil =>
      obtain ⟨rfl, same⟩ := Prod.mk.inj (Except.ok.inj rest)
      obtain rfl : ws = [] := by simpa using same
      simpa using binds
    | cons b sets =>
      obtain ⟨⟨second, _⟩, _, rest⟩ := bind_eq_ok.mp rest
      obtain ⟨⟨more, _⟩, _, rest⟩ := bind_eq_ok.mp rest
      obtain ⟨rfl, -⟩ := Prod.mk.inj (Except.ok.inj rest)
      rw [List.length_append] at others
      rw [String.intercalate_cons_cons]
      exact binds.comma others

/-- The placeholders of an update line up with the current values of its assignments and of
the key. -/
theorem bind_linesUp {u : Update} (constructed : u.Constructed) (ok : u.bind d = .ok s) :
    s.LinesUp d u.target.record equated u.boundFields := by
  unfold bind at ok
  split at ok
  · cases ok
  obtain ⟨⟨texts, bound⟩, assigned, ok⟩ := bind_eq_ok.mp ok
  obtain ⟨clause, restricted, ok⟩ := bind_eq_ok.mp ok
  obtain rfl := Except.ok.inj ok
  obtain ⟨vs, rfl, sets⟩ := setTexts_binds constructed.sets assigned
  have start := sets.assigned u.target.descriptor.table
  exact (whereClause_binds constructed.filter start restricted).linesUp

end Update

namespace Delete

/-- The placeholder of a deletion is that of the key. -/
theorem bind_linesUp {x : Delete} (constructed : x.Constructed) (ok : x.bind d = .ok s) :
    s.LinesUp d x.target.record equated x.boundFields := by
  obtain ⟨clause, restricted, ok⟩ := bind_eq_ok.mp ok
  obtain rfl := Except.ok.inj ok
  have start := Binds.deleted d x.target.record x.target.descriptor.table
  exact (whereClause_binds constructed start restricted).linesUp

end Delete

namespace Sql

/-- Tokens of one kind with commas between them. -/
def row (token : String → Token) (texts : List String) : List Token :=
  List.intercalate [.sign ","] (texts.map fun text => [token text])

theorem lexes_row (token : String → Token) (written : String → String)
    (each : ∀ text ∈ texts, Lexes d (written text).toList [token text]) :
    Lexes d (", ".intercalate (texts.map written)).toList (row token texts) := by
  refine Lexes.list (List.forall₂_map_left_iff.mpr (List.forall₂_map_right_iff.mpr ?_))
  exact List.forall₂_same.mpr each

theorem row_cons_cons (token : String → Token) (text second : String) (texts : List String) :
    row token (text :: second :: texts) =
      token text :: .sign "," :: row token (second :: texts) := by
  rw [row, List.map_cons, List.map_cons, List.intercalate_cons_cons]
  rfl

theorem mem_row (member : t ∈ row token texts) :
    t = .sign "," ∨ ∃ text ∈ texts, t = token text := by
  induction texts with
  | nil => cases member
  | cons text texts ih =>
    cases texts with
    | nil => exact .inr ⟨text, List.mem_cons_self, List.mem_singleton.mp member⟩
    | cons second texts =>
      rw [row_cons_cons] at member
      rcases List.mem_cons.mp member with rfl | member
      · exact .inr ⟨text, List.mem_cons_self, rfl⟩
      rcases List.mem_cons.mp member with rfl | member
      · exact .inl rfl
      rcases ih member with comma | ⟨later, among, same⟩
      · exact .inl comma
      · exact .inr ⟨later, List.mem_cons_of_mem text among, same⟩

/-- What is read off a row is read off each of its tokens. -/
theorem filterMap_row (read : Token → Option α) (blind : read (.sign ",") = none)
    (token : String → Token) (texts : List String) :
    (row token texts).filterMap read = texts.filterMap fun text => read (token text) := by
  induction texts with
  | nil => rfl
  | cons text texts ih =>
    cases texts with
    | nil => rfl
    | cons second texts =>
      rw [row_cons_cons, List.filterMap_cons, List.filterMap_cons_none blind, ih]
      rfl

/-- The tokens of an insertion. -/
def insertion (quote : Char) (table : String) (names places : List String) : List Token :=
  .word "INSERT" :: .word "INTO" :: .quoted quote table ::
    .sign "(" :: (row (.quoted quote) names ++ .sign ")" :: .word "VALUES" ::
      .sign "(" :: (row .placeholder places ++ [.sign ")"]))

theorem lexes_insertion (d : Dialect) (table : String) (names places : List String)
    (read : ∀ place ∈ places, Lexes d place.toList [.placeholder place]) :
    Lexes d ("INSERT INTO " ++ d.quoteIdentifier table ++ " (" ++
        ", ".intercalate (names.map d.quoteIdentifier) ++ ") VALUES (" ++
        ", ".intercalate places ++ ")").toList
      (insertion d.nameQuote table names places) := by
  have insert : Lexes d "INSERT".toList [.word "INSERT"] := .wordText (by decide)
  have into : Lexes d "INTO".toList [.word "INTO"] := .wordText (by decide)
  have values : Lexes d "VALUES".toList [.word "VALUES"] := .wordText (by decide)
  have listed : Lexes d (", ".intercalate (names.map d.quoteIdentifier)).toList
      (row (.quoted d.nameQuote) names) := lexes_row _ _ fun name _ => d.lexes_quoteIdentifier name
  have given : Lexes d (", ".intercalate places).toList (row .placeholder places) := by
    simpa using lexes_row .placeholder id read
  have inside := listed.paren (values.spaced (given.paren (.nil d))).blank
  have whole := insert.spaced (into.spaced ((d.lexes_quoteIdentifier table).spaced inside))
  have first : "INSERT INTO ".toList = "INSERT".toList ++ ' ' :: ("INTO".toList ++ [' ']) := by
    decide +kernel
  have second : " (".toList = [' ', '('] := rfl
  have third : ") VALUES (".toList = ')' :: ' ' :: ("VALUES".toList ++ [' ', '(']) := by
    decide +kernel
  have last : ")".toList = [')'] := rfl
  simp only [String.toList_append, first, second, third, last, List.append_assoc, List.cons_append,
    List.nil_append] at whole ⊢
  exact whole

theorem placeholders_insertion (quote : Char) (table : String) (names places : List String) :
    placeholders (insertion quote table names places) = places := by
  have between := filterMap_row Token.placeholderText? rfl (.quoted quote) names
  have given := filterMap_row Token.placeholderText? rfl .placeholder places
  simp [placeholders, insertion, List.filterMap_cons, between, given, Token.placeholderText?]

/-- An insertion without columns has no placeholders and lists no names. -/
theorem lexes_insertDefaults (d : Dialect) (table : String) :
    ∃ ts, Lexes d (d.insertDefaults (d.quoteIdentifier table)).toList ts ∧
      placeholders ts = [] ∧ listed ts = [] := by
  have insert : Lexes d "INSERT".toList [.word "INSERT"] := .wordText (by decide)
  have into : Lexes d "INTO".toList [.word "INTO"] := .wordText (by decide)
  have default : Lexes d "DEFAULT".toList [.word "DEFAULT"] := .wordText (by decide)
  have values : Lexes d "VALUES".toList [.word "VALUES"] := .wordText (by decide)
  obtain ⟨rest, chars, ts, same, spelled, read, without, unlisted⟩ : ∃ rest chars ts,
      d.insertDefaults (d.quoteIdentifier table) =
        "INSERT INTO " ++ d.quoteIdentifier table ++ rest ∧
      rest.toList = ' ' :: chars ∧ Lexes d chars ts ∧ placeholders ts = [] ∧ listed ts = [] := by
    cases d with
    | mysql =>
      have spelled : " () VALUES ()".toList =
          ' ' :: '(' :: ([] ++ ')' :: ' ' :: ("VALUES".toList ++ ' ' :: '(' :: ([] ++ [')']))) := by
        decide +kernel
      have nothing := Lexes.nil .mysql
      have read := nothing.paren (values.spaced (nothing.paren nothing)).blank
      exact ⟨_, _, _, rfl, spelled, read, rfl, rfl⟩
    | _ =>
      have spelled : " DEFAULT VALUES".toList =
          ' ' :: ("DEFAULT".toList ++ ' ' :: "VALUES".toList) := by
        decide +kernel
      exact ⟨_, _, _, rfl, spelled, default.spaced values, rfl, rfl⟩
  have first : "INSERT INTO ".toList = "INSERT".toList ++ ' ' :: ("INTO".toList ++ [' ']) := by
    decide +kernel
  have whole := insert.spaced (into.spaced ((d.lexes_quoteIdentifier table).spaced read))
  refine ⟨.word "INSERT" :: .word "INTO" :: .quoted d.nameQuote table :: ts, ?_, without, unlisted⟩
  simp only [same, String.toList_append, first, spelled]
  simpa using whole

/-- The parentheses of the names are the first ones, and no name closes them. -/
theorem listed_insertion (quote : Char) (table : String) (names places : List String) :
    listed (insertion quote table names places) = names := by
  have opened : ∀ t ∈ Token.sign "(" :: row (.quoted quote) names,
      (decide (t ≠ .sign ")")) = true := by
    intro t member
    rcases List.mem_cons.mp member with rfl | member
    · decide
    rcases mem_row member with rfl | ⟨name, _, rfl⟩
    · decide
    · simp
  have start : (insertion quote table names places).dropWhile (· ≠ .sign "(") =
      (.sign "(" :: row (.quoted quote) names) ++ .sign ")" :: .word "VALUES" ::
        .sign "(" :: (row .placeholder places ++ [.sign ")"]) := rfl
  have named := filterMap_row Token.quotedText? rfl (.quoted quote) names
  rw [listed, start, List.takeWhile_append_of_pos opened]
  simp [quotedTexts, List.filterMap_cons, Token.quotedText?, named, Function.comp_def]

end Sql

namespace Insert

/-- The values that are sent are those of the bound fields. -/
theorem sent_currentValues {i : Insert} (ok : i.currentValues = .ok values) :
    (sent values).map (·.1) = i.boundFields.map Field.name ∧
      i.boundFields.mapM (·.get i.target.record) = .ok ((sent values).map (·.2)) := by
  rw [currentValues] at ok
  rw [boundFields]
  generalize i.target.descriptor.columns = fields at ok ⊢
  induction fields generalizing values with
  | nil =>
    obtain rfl := Except.ok.inj ok
    exact ⟨rfl, rfl⟩
  | cons f fields ih =>
    obtain ⟨pair, rest, paired, others, rfl⟩ := mapM_cons_eq_ok.mp ok
    obtain ⟨v, value, same⟩ := bind_eq_ok.mp paired
    obtain rfl := Except.ok.inj same
    obtain ⟨names, params⟩ := ih others
    by_cases skipped : leftToBackend f v || leftOut f v
    · have unsent : i.sends f = false := by simp [sends, value, skipped]
      rw [List.filter_cons_of_neg (by simp [unsent]), sent,
        List.filterMap_cons_none (by simp [skipped])]
      exact ⟨names, params⟩
    · have goes : i.sends f = true := by simpa [sends, value] using skipped
      rw [List.filter_cons_of_pos goes, sent, List.filterMap_cons_some (by simp [skipped]; rfl)]
      refine ⟨congrArg (f.name :: ·) names, ?_⟩
      exact mapM_cons_eq_ok.mpr ⟨v, _, value, params, rfl⟩

theorem bind_linesUp {i : Insert} (ok : i.bind d = .ok s) :
    s.LinesUp d i.target.record Sql.listed i.boundFields := by
  obtain ⟨values, current, ok⟩ := bind_eq_ok.mp ok
  obtain ⟨names, params⟩ := sent_currentValues current
  generalize sent values = columns at ok names params
  cases columns with
  | nil =>
    obtain rfl := Except.ok.inj ok
    obtain ⟨ts, read, without, unlisted⟩ := Sql.lexes_insertDefaults d i.target.descriptor.table
    exact ⟨⟨ts, read, without, unlisted.trans names⟩, params⟩
  | cons column columns =>
    obtain rfl := Except.ok.inj ok
    generalize column :: columns = columns at names params
    have counted : (List.range columns.length).map (fun k => d.placeholder (k + 1)) =
        (List.range' 1 columns.length).map d.placeholder := by
      rw [List.range'_eq_map_range, List.map_map]
      exact List.map_congr_left fun k _ => congrArg d.placeholder (Nat.add_comm k 1)
    have given : ∀ place ∈ (List.range' 1 columns.length).map d.placeholder,
        Lexes d place.toList [.placeholder place] := by
      rintro place member
      obtain ⟨index, -, rfl⟩ := List.mem_map.mp member
      exact d.lexes_placeholder index
    have read := Sql.lexes_insertion d i.target.descriptor.table (columns.map (·.1)) _ given
    rw [List.map_map, ← counted] at read
    refine ⟨⟨_, read, ?_, ?_⟩, params⟩
    · rw [Sql.placeholders_insertion, List.length_map, counted]
    · rw [Sql.listed_insertion, names]

end Insert

/-- The placeholders of every statement are those of its parameters, in order, and each stands
for the column of the field whose value its parameter is. -/
theorem placeholders_lined_up (d : Dialect) :
    (∀ (i : Insert) (s : BoundStatement), i.bind d = .ok s →
      s.LinesUp d i.target.record Sql.listed i.boundFields) ∧
    (∀ (u : Update) (s : BoundStatement), u.Constructed → u.bind d = .ok s →
      s.LinesUp d u.target.record equated u.boundFields) ∧
    (∀ (x : Delete) (s : BoundStatement), x.Constructed → x.bind d = .ok s →
      s.LinesUp d x.target.record equated x.boundFields) :=
  ⟨fun _ _ ok => Insert.bind_linesUp ok, fun _ _ constructed ok => Update.bind_linesUp constructed ok,
    fun _ _ constructed ok => Delete.bind_linesUp constructed ok⟩

namespace Purse

def idField : Field :=
  { Field.ofSlot [] "Purse" ⟨"id", .plain .int32, 0, 0⟩ "id" with primaryKey := true }

def ownerField : Field := Field.ofSlot [] "Purse" ⟨"owner", .plain .string, 0, 0⟩ "owner"

def coinsField : Field := Field.ofSlot [] "Purse" ⟨"coins", .plain .int32, 0, 0⟩ "coins"

def record : Record :=
  .mk "Purse" [("id", .scalar (.int32 7)), ("owner", .scalar (.string "Ada")),
    ("coins", .scalar (.int32 3))]

def descriptor : Descriptor :=
  ⟨"Purse", "purse", "Purse", none, [idField, ownerField, coinsField], 0, record⟩

/-- One more coin and the owner of the record, where the text of the owner is no placeholder. -/
def refill : Update :=
  let owner : ColumnRef := ⟨descriptor, ownerField⟩
  let coins : ColumnRef := ⟨descriptor, coinsField⟩
  ((((Update.start ⟨record, descriptor⟩).set
    ⟨coins, .expr (.binary .add (.column coins) (.constant (.scalar (.int32 1))))⟩).set
    ⟨owner, .current⟩).restrict
    (.relational .ne (.column owner) (.constant (.scalar (.string "= ?"))))).byPrimaryKey

theorem refill_constructed : refill.Constructed where
  sets := by
    intro a member e value
    rcases List.mem_pair.mp member with rfl | rfl
    · cases value
      exact .binary .add (.column _) (.constant _)
    · cases value
  filter := by
    intro e member
    cases member
    exact .relational .ne (.column _) (.constant _)

end Purse

open Purse in
theorem placeholders_lined_up_refill :
    ∃ s, refill.bind .mysql = .ok s ∧
      s.sql = "UPDATE \x60purse\x60 SET \x60coins\x60 = (\x60purse\x60.\x60coins\x60 + 1), " ++
        "\x60owner\x60 = ? WHERE (\x60purse\x60.\x60owner\x60 <> '= ?') AND " ++
        "\x60purse\x60.\x60id\x60 = ?" ∧
      s.params = [.string "Ada", .int32 7] ∧
      s.LinesUp .mysql record equated [ownerField, idField] := by
  have ok : refill.bind .mysql = .ok ⟨_, [.string "Ada", .int32 7]⟩ := rfl
  exact ⟨_, ok, by decide +kernel, rfl, (placeholders_lined_up .mysql).2.1 refill _ refill_constructed ok⟩

end ObjectMapping
