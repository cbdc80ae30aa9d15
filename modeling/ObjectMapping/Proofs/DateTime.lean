import Mathlib.Algebra.Group.Nat.Defs
import ObjectMapping.DateTime

/-! The canonical text of a date-time stands for it, as long as its year has no more than
four digits and no sign. No other text is read as a date-time. -/
namespace ObjectMapping

theorem padded_length (width : Nat) (small : n < 10 ^ width) (wide : 0 < width) :
    (padded width n).toList.length = width := by
  have short := (Nat.length_toDigits_le_iff (by decide : 1 < 10) wide).mpr small
  simp only [padded, String.toList_ofList, List.length_append, List.length_replicate]
  omega

/-- Only digits are written. -/
theorem isDigit_of_mem_padded (width n : Nat) (member : c ∈ (padded width n).toList) : c.isDigit := by
  rw [padded, String.toList_ofList] at member
  rcases List.mem_append.mp member with zero | digit
  · obtain rfl := List.eq_of_mem_replicate zero
    rfl
  · exact Nat.isDigit_of_mem_toDigits (by decide) (by decide) digit

theorem readDigits_padded (width n : Nat) :
    DateTime.readDigits (padded width n).toList = some n := by
  have digits : (padded width n).toList.all Char.isDigit :=
    List.all_eq_true.mpr fun c member => isDigit_of_mem_padded width n member
  have number : Nat.ofDigitChars 10 (padded width n).toList 0 = n := by
    rw [padded, String.toList_ofList, Nat.ofDigitChars_append, Nat.ofDigitChars_replicate_zero,
      Nat.mul_zero, Nat.ofDigitChars_ten_toDigits]
  rw [DateTime.readDigits, if_pos digits, ← Nat.ofDigitChars_eq_foldl, number]

theorem digit_lt {c : Char} (digit : c.isDigit) : c.toNat - '0'.toNat < 10 := by
  have bounds := Char.isDigit_iff_toNat.mp digit
  have codes : '0'.toNat = 48 ∧ '9'.toNat = 57 := ⟨rfl, rfl⟩
  omega

private theorem digit_injective {c d : Char} (digit : c.isDigit) (digit' : d.isDigit)
    (same : c.toNat - '0'.toNat = d.toNat - '0'.toNat) : c = d := by
  have bounds := Char.isDigit_iff_toNat.mp digit
  have bounds' := Char.isDigit_iff_toNat.mp digit'
  exact Char.toNat_inj.mp (by omega)

/-- Digits add less than one unit of the place before them. -/
private theorem digits_lt (a : Nat) {cs : List Char} (digits : cs.all Char.isDigit) :
    cs.foldl (fun n c => 10 * n + (c.toNat - '0'.toNat)) a < (a + 1) * 10 ^ cs.length := by
  induction cs generalizing a with
  | nil => simp
  | cons c cs ih =>
    obtain ⟨digit, digits⟩ := Bool.and_eq_true_iff.mp digits
    have small := digit_lt digit
    calc
      _ < (10 * a + (c.toNat - '0'.toNat) + 1) * 10 ^ cs.length := ih _ digits
      _ ≤ ((a + 1) * 10) * 10 ^ cs.length := Nat.mul_le_mul_right _ (by omega)
      _ = (a + 1) * 10 ^ (c :: cs).length := by
        rw [List.length_cons, Nat.pow_succ, Nat.mul_comm (10 ^ cs.length) 10, Nat.mul_assoc]

/-- Of as many digits as these no others have their value. -/
private theorem digits_injective {a b : Nat} {cs ds : List Char} (digits : cs.all Char.isDigit)
    (digits' : ds.all Char.isDigit) (length : cs.length = ds.length)
    (same : cs.foldl (fun n c => 10 * n + (c.toNat - '0'.toNat)) a =
      ds.foldl (fun n c => 10 * n + (c.toNat - '0'.toNat)) b) : a = b ∧ cs = ds := by
  induction cs generalizing a b ds with
  | nil =>
    obtain rfl := List.length_eq_zero_iff.mp length.symm
    exact ⟨same, rfl⟩
  | cons c cs ih =>
    obtain ⟨d, ds, rfl⟩ := List.exists_cons_of_length_eq_add_one length.symm
    obtain ⟨digit, digits⟩ := Bool.and_eq_true_iff.mp digits
    obtain ⟨digit', digits'⟩ := Bool.and_eq_true_iff.mp digits'
    obtain ⟨front, rfl⟩ := ih digits digits' (Nat.succ.inj length) same
    simp only at front
    have small := digit_lt digit
    have small' := digit_lt digit'
    obtain rfl := digit_injective digit digit' (by omega)
    exact ⟨by omega, rfl⟩

theorem readDigits_eq_some {cs : List Char} : DateTime.readDigits cs = some n ↔
    cs.all Char.isDigit ∧ cs.foldl (fun n c => 10 * n + (c.toNat - '0'.toNat)) 0 = n := by
  rw [DateTime.readDigits, Option.ite_none_right_eq_some, Option.some.injEq]

/-- What is read as a number is how the number is written with as many digits. -/
private theorem padded_of_readDigits {cs : List Char} (read : DateTime.readDigits cs = some n)
    (nonempty : 0 < cs.length) : n < 10 ^ cs.length ∧ padded cs.length n = String.ofList cs := by
  obtain ⟨digits, value⟩ := readDigits_eq_some.mp read
  have small : n < 10 ^ cs.length := by
    have bound := digits_lt 0 digits
    omega
  obtain ⟨digits', value'⟩ := readDigits_eq_some.mp (readDigits_padded cs.length n)
  have same := digits_injective digits' digits (padded_length cs.length small nonempty)
    (value'.trans value.symm)
  refine ⟨small, ?_⟩
  rw [← String.ofList_toList (s := padded cs.length n), same.2]

/-- A number below one hundred is written with two digits. -/
private theorem padded_two (small : n < 100) :
    ∃ a b, (padded 2 n).toList = [a, b] ∧ DateTime.readDigits [a, b] = some n := by
  have length := padded_length 2 small (by decide)
  obtain ⟨a, b, same⟩ : ∃ a b, (padded 2 n).toList = [a, b] := by
    match (padded 2 n).toList, length with
    | [a, b], _ => exact ⟨a, b, rfl⟩
  exact ⟨a, b, same, same ▸ readDigits_padded 2 n⟩

/-- A year is written with four digits. -/
private theorem yearText_four {year : Int} (positive : 0 ≤ year) (small : year ≤ 9999) :
    ∃ a b c d, (yearText year).toList = [a, b, c, d] ∧
      DateTime.readDigits [a, b, c, d] = some year.toNat := by
  have written : yearText year = padded 4 year.toNat := if_neg (Int.not_lt.mpr positive)
  have length : (padded 4 year.toNat).toList.length = 4 := padded_length 4 (by omega) (by decide)
  obtain ⟨a, b, c, d, same⟩ : ∃ a b c d, (padded 4 year.toNat).toList = [a, b, c, d] := by
    match (padded 4 year.toNat).toList, length with
    | [a, b, c, d], _ => exact ⟨a, b, c, d, rfl⟩
  exact ⟨a, b, c, d, written ▸ same, same ▸ readDigits_padded 4 year.toNat⟩

theorem Month.ofNumber_number (m : Month) : Month.ofNumber? m.number = some m := by
  cases m <;> rfl

theorem Month.number_of_ofNumber {n : Nat} {m : Month} (found : ofNumber? n = some m) :
    m.number = n := by
  match n, found with
  | n + 1, found =>
    obtain ⟨bound, rfl⟩ := List.getElem?_eq_some_iff.mp found
    have each : ∀ i : Fin 12, (all[i]).number = i + 1 := by decide
    exact each ⟨n, bound⟩

namespace DateTime

/-- The canonical text consists of digits and the signs between them. -/
theorem digit_or_sign_of_mem_text (t : DateTime) (member : c ∈ t.text.toList) :
    c.isDigit ∨ c ∈ ['-', ' ', ':'] := by
  have year : c ∈ (yearText t.year.toInt).toList → c.isDigit ∨ c ∈ ['-', ' ', ':'] := by
    intro member
    unfold yearText at member
    split at member
    · rw [String.toList_append] at member
      rcases List.mem_append.mp member with sign | digit
      · obtain rfl : c = '-' := by simpa using sign
        exact .inr (by decide)
      · exact .inl (isDigit_of_mem_padded _ _ digit)
    · exact .inl (isDigit_of_mem_padded _ _ member)
  have signs : ∀ sign ∈ ["-", " ", ":"], sign.toList.all ['-', ' ', ':'].contains := by decide
  simp only [text, String.toList_append, List.mem_append] at member
  rcases member with (((((((((y | s) | p) | s) | p) | s) | p) | s) | p) | s) | p
  · exact year y
  all_goals first
    | exact .inl (isDigit_of_mem_padded _ _ p)
    | exact .inr (List.contains_iff_mem.mp (List.all_eq_true.mp (signs _ (by decide)) c s))

theorem make_self (t : DateTime) : make t.year t.month t.day t.hour t.minute t.second = .ok t := by
  rw [make, dif_pos ⟨t.day_pos, t.day_le⟩, dif_pos ⟨t.hour_lt, t.minute_lt, t.second_lt⟩]

/-- A date-time is taken back as it was reported. -/
theorem ofReported_toReported (t : DateTime) : ofReported t.toReported = .ok t := by
  simp only [ofReported, toReported, Month.ofNumber_number]
  exact t.make_self

theorem daysInMonth_le (year : Int) (month : Month) : daysInMonth year month ≤ 31 := by
  cases month <;> simp only [daysInMonth] <;> first | decide | (split <;> decide)

/-- The parts of a date-time are read back from its canonical text. -/
theorem readParts_text (t : DateTime) (positive : 0 ≤ t.year.toInt) (small : t.year.toInt ≤ 9999) :
    readParts t.text =
      some [t.year.toInt.toNat, t.month.number, t.day, t.hour, t.minute, t.second] := by
  obtain ⟨y₁, y₂, y₃, y₄, year, readYear⟩ := yearText_four positive small
  have months : t.month.number < 100 := by cases t.month <;> decide
  have days := Nat.le_trans t.day_le (daysInMonth_le _ _)
  have hours := t.hour_lt
  have minutes := t.minute_lt
  have seconds := t.second_lt
  obtain ⟨m₁, m₂, month, readMonth⟩ := padded_two months
  obtain ⟨d₁, d₂, day, readDay⟩ := padded_two (n := t.day) (by omega)
  obtain ⟨h₁, h₂, hour, readHour⟩ := padded_two (n := t.hour) (by omega)
  obtain ⟨n₁, n₂, minute, readMinute⟩ := padded_two (n := t.minute) (by omega)
  obtain ⟨s₁, s₂, second, readSecond⟩ := padded_two (n := t.second) (by omega)
  have written : t.text.toList = [y₁, y₂, y₃, y₄, '-', m₁, m₂, '-', d₁, d₂, ' ', h₁, h₂, ':',
      n₁, n₂, ':', s₁, s₂] := by
    simp only [text, String.toList_append, year, month, day, hour, minute, second]
    rfl
  rw [readParts, written]
  simp [readYear, readMonth, readDay, readHour, readMinute, readSecond]

theorem ofNat_year (t : DateTime) (positive : 0 ≤ t.year.toInt) :
    Int32.ofNat t.year.toInt.toNat = t.year := by
  rw [← Int32.ofInt_eq_ofNat, Int.toNat_of_nonneg positive, Int32.ofInt_toInt]

/-- A date-time is read back from its canonical text. -/
theorem parse_text (t : DateTime) (positive : 0 ≤ t.year.toInt) (small : t.year.toInt ≤ 9999) :
    parse t.text = .ok t := by
  rw [parse, t.readParts_text positive small]
  simp only [Month.ofNumber_number, t.ofNat_year positive]
  exact t.make_self

private theorem le_padded_length (width n : Nat) :
    width ≤ (padded width n).toList.length ∧
      (Nat.toDigits 10 n).length ≤ (padded width n).toList.length := by
  simp only [padded, String.toList_ofList, List.length_append, List.length_replicate]
  omega

private theorem text_year (t : DateTime) :
    ∃ rest, t.text.toList = (yearText t.year.toInt).toList ++ rest ∧ 15 ≤ rest.length := by
  refine ⟨_, by simp only [text, String.toList_append, List.append_assoc]; rfl, ?_⟩
  have month := (le_padded_length 2 t.month.number).1
  have day := (le_padded_length 2 t.day).1
  have hour := (le_padded_length 2 t.hour).1
  have minute := (le_padded_length 2 t.minute).1
  have second := (le_padded_length 2 t.second).1
  have signs : "-".toList.length = 1 ∧ " ".toList.length = 1 ∧ ":".toList.length = 1 := by decide
  simp only [List.length_append, signs]
  omega

/-- The text of a date-time with any other year is longer, or has a sign where a digit should
be. -/
theorem year_of_readParts (t : DateTime) (read : readParts t.text = some parts) :
    0 ≤ t.year.toInt ∧ t.year.toInt ≤ 9999 := by
  obtain ⟨rest, whole, long⟩ := t.text_year
  unfold readParts at read
  split at read
  case h_2 => cases read
  rename_i y₁ y₂ y₃ y₄ s₁ m₁ m₂ s₂ d₁ d₂ s₃ h₁ h₂ s₄ n₁ n₂ s₅ c₁ c₂ written
  rw [written] at whole
  constructor
  · refine Int.not_lt.mp fun negative => ?_
    rw [yearText, if_pos negative, String.toList_append] at whole
    obtain rfl : y₁ = '-' := (List.cons.inj whole).1
    have sign : readDigits ['-', y₂, y₃, y₄] = none := by simp [readDigits]
    simp [sign] at read
  · refine Int.not_lt.mp fun large => ?_
    rw [yearText, if_neg (by omega)] at whole
    have short := congrArg List.length whole
    have digits := (le_padded_length 4 t.year.toInt.toNat).2
    have small : (Nat.toDigits 10 t.year.toInt.toNat).length ≤ 4 := by
      simp only [List.length_append, List.length_cons, List.length_nil] at short
      omega
    have bound := (Nat.length_toDigits_le_iff (by decide : 1 < 10) (by decide)).mp small
    omega

/-- The parts that are read from a text are written as they stand in it. -/
theorem text_of_readParts {text : String} (read : readParts text = some parts) :
    ∃ year month day hour minute second,
      parts = [year, month, day, hour, minute, second] ∧ year < 10000 ∧
      text = padded 4 year ++ "-" ++ padded 2 month ++ "-" ++ padded 2 day ++ " " ++
        padded 2 hour ++ ":" ++ padded 2 minute ++ ":" ++ padded 2 second := by
  unfold readParts at read
  split at read
  case h_2 => cases read
  rename_i y₁ y₂ y₃ y₄ s₁ m₁ m₂ s₂ d₁ d₂ s₃ h₁ h₂ s₄ n₁ n₂ s₅ c₁ c₂ written
  split at read
  case isFalse => cases read
  rename_i marks
  simp only [List.cons.injEq, and_true] at marks
  obtain ⟨rfl, rfl, rfl, rfl, rfl⟩ := marks
  simp only [List.mapM_cons, List.mapM_nil, Option.bind_eq_bind, Option.bind_eq_some_iff,
    Option.pure_def, Option.some.injEq] at read
  obtain ⟨year, readYear, _, ⟨month, readMonth, _, ⟨day, readDay, _, ⟨hour, readHour, _,
    ⟨minute, readMinute, _, ⟨second, readSecond, _, rfl, rfl⟩, rfl⟩, rfl⟩, rfl⟩, rfl⟩, rfl⟩ := read
  obtain ⟨small, years⟩ := padded_of_readDigits readYear (Nat.succ_pos _)
  have months := (padded_of_readDigits readMonth (Nat.succ_pos _)).2
  have days := (padded_of_readDigits readDay (Nat.succ_pos _)).2
  have hours := (padded_of_readDigits readHour (Nat.succ_pos _)).2
  have minutes := (padded_of_readDigits readMinute (Nat.succ_pos _)).2
  have seconds := (padded_of_readDigits readSecond (Nat.succ_pos _)).2
  simp only [List.length_cons, List.length_nil] at years months days hours minutes seconds
  refine ⟨year, month, day, hour, minute, second, rfl, by simpa using small, ?_⟩
  refine String.toList_inj.mp ?_
  rw [written, years, months, days, hours, minutes, seconds]
  simp only [String.toList_append, String.toList_ofList]
  rfl

theorem make_cases (year : Int32) (month : Month) (day hour minute second : Nat) :
    (∃ t : DateTime, make year month day hour minute second = .ok t ∧ t.year = year ∧
      t.month = month ∧ t.day = day ∧ t.hour = hour ∧ t.minute = minute ∧ t.second = second) ∨
      ∃ message, make year month day hour minute second = .error (.malformed message) := by
  unfold make
  split
  · split
    · exact .inl ⟨_, rfl, rfl, rfl, rfl, rfl, rfl, rfl⟩
    · exact .inr ⟨_, rfl⟩
  · exact .inr ⟨_, rfl⟩

/-- Seconds have a date-time or are malformed. -/
theorem ofUnix_outcome (seconds : Int) :
    (∃ t, ofUnix seconds = .ok t) ∨ ∃ message, ofUnix seconds = .error (.malformed message) := by
  unfold ofUnix
  generalize ofDayNumber (seconds / 86400) = date
  obtain ⟨year, month, day⟩ := date
  simp only
  split
  · rename_i named _
    split
    · rcases make_cases (Int32.ofInt year) named day _ _ _ with ⟨t, made, -⟩ | malformed
      · exact .inl ⟨t, made⟩
      · exact .inr malformed
    · exact .inr ⟨_, rfl⟩
  · exact .inr ⟨_, rfl⟩

/-- A text is either the canonical text of what is read from it, or malformed. -/
theorem parse_cases (text : String) :
    (∃ t, parse text = .ok t ∧ 0 ≤ t.year.toInt ∧ t.year.toInt ≤ 9999 ∧ text = t.text) ∨
      ∃ message, parse text = .error (.malformed message) := by
  unfold parse
  split
  · rename_i year month day hour minute second read
    obtain ⟨_, _, _, _, _, _, same, small, written⟩ := text_of_readParts read
    simp only [List.cons.injEq, and_true] at same
    obtain ⟨rfl, rfl, rfl, rfl, rfl, rfl⟩ := same
    split
    · rename_i named number
      rcases make_cases (Int32.ofNat year) named day hour minute second with
        ⟨t, made, years, rfl, rfl, rfl, rfl, rfl⟩ | malformed
      · have value : t.year.toInt = year := by
          rw [years]
          exact Int32.toInt_ofNat_of_lt (by omega)
        refine .inl ⟨t, made, by omega, by omega, ?_⟩
        rw [written, DateTime.text, yearText, if_neg (by omega), value, Int.toNat_natCast,
          Month.number_of_ofNumber number]
      · exact .inr malformed
    · exact .inr ⟨_, rfl⟩
  · exact .inr ⟨_, rfl⟩

/-- Exactly the canonical texts of the date-times whose year has four digits are read, and as
those date-times; any other text is malformed. -/
theorem parse_canonical (text : String) :
    (∀ t : DateTime, parse text = .ok t ↔
      0 ≤ t.year.toInt ∧ t.year.toInt ≤ 9999 ∧ text = t.text) ∧
    ((¬∃ t : DateTime, 0 ≤ t.year.toInt ∧ t.year.toInt ≤ 9999 ∧ text = t.text) ↔
      ∃ e, parse text = .error e ∧ e.dataKind? = some .formatError) := by
  have read : ∀ t : DateTime, 0 ≤ t.year.toInt ∧ t.year.toInt ≤ 9999 ∧ text = t.text →
      parse text = .ok t := by
    rintro t ⟨positive, small, rfl⟩
    exact t.parse_text positive small
  rcases parse_cases text with ⟨t, same, canonical⟩ | ⟨message, failed⟩
  · refine ⟨fun u => ⟨fun also => ?_, read u⟩, iff_of_false (fun other => other ⟨t, canonical⟩) ?_⟩
    · exact Except.ok.inj (same.symm.trans also) ▸ canonical
    · rintro ⟨e, failed, -⟩
      cases same.symm.trans failed
  · have unread : ∀ t, parse text ≠ .ok t := fun t same => by cases failed.symm.trans same
    refine ⟨fun t => ⟨fun same => absurd same (unread t), read t⟩, iff_of_true ?_ ?_⟩
    · rintro ⟨t, canonical⟩
      exact unread t (read t canonical)
    · exact ⟨_, failed, rfl⟩

end DateTime

end ObjectMapping
