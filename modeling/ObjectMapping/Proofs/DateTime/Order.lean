import ObjectMapping.Proofs.DateTime
import ObjectMapping.Proofs.DateTime.Calendar
import ObjectMapping.Proofs.Text.Utf8

/-! The order of date-times is the order of time, and of their canonical texts. Numbers written
with one number of digits are in the order of the digits, and the parts of a date-time stand in
its text in the order in which they are compared. -/
namespace ObjectMapping

/-- Of two texts of one length those parts decide that differ first. -/
private theorem append_lt_append_iff {a b c d : List Char} (length : a.length = b.length) :
    a ++ c < b ++ d ↔ a < b ∨ a = b ∧ c < d := by
  induction a generalizing b with
  | nil =>
    obtain rfl := List.length_eq_zero_iff.mp length.symm
    simp
  | cons x a ih =>
    obtain ⟨y, b, rfl⟩ := List.exists_cons_of_length_eq_add_one length.symm
    rw [List.cons_append, List.cons_append, List.cons_lt_cons_iff, ih (Nat.succ.inj length),
      List.cons_lt_cons_iff, List.cons.injEq]
    simp only [and_or_left, or_assoc, and_assoc]

/-- Digits that follow upon a number are compared only if the numbers agree. -/
private theorem digits_lt_iff {a b : Nat} {cs ds : List Char} (digits : cs.all Char.isDigit)
    (digits' : ds.all Char.isDigit) (length : cs.length = ds.length) :
    cs.foldl (fun n c => 10 * n + (c.toNat - '0'.toNat)) a <
        ds.foldl (fun n c => 10 * n + (c.toNat - '0'.toNat)) b ↔ a < b ∨ a = b ∧ cs < ds := by
  induction cs generalizing a b ds with
  | nil =>
    obtain rfl := List.length_eq_zero_iff.mp length.symm
    simp
  | cons c cs ih =>
    obtain ⟨d, ds, rfl⟩ := List.exists_cons_of_length_eq_add_one length.symm
    obtain ⟨digit, digits⟩ := Bool.and_eq_true_iff.mp digits
    obtain ⟨digit', digits'⟩ := Bool.and_eq_true_iff.mp digits'
    have bounds := Char.isDigit_iff_toNat.mp digit
    have bounds' := Char.isDigit_iff_toNat.mp digit'
    have codes : '0'.toNat = 48 ∧ '9'.toNat = 57 := ⟨rfl, rfl⟩
    have before : c < d ↔ c.toNat < d.toNat := Iff.rfl
    rw [List.foldl_cons, List.foldl_cons, ih digits digits' (Nat.succ.inj length),
      List.cons_lt_cons_iff, before, ← Char.toNat_inj]
    by_cases rest : cs < ds
    · simp only [rest, and_true]
      omega
    · simp only [rest, and_false, or_false]
      omega

/-- Numbers are in the order of the texts that they are written with in one width. -/
theorem padded_lt_iff {width : Nat} (wide : 0 < width) (small : n < 10 ^ width)
    (small' : m < 10 ^ width) :
    (padded width n).toList < (padded width m).toList ↔ n < m := by
  obtain ⟨digits, value⟩ := readDigits_eq_some.mp (readDigits_padded width n)
  obtain ⟨digits', value'⟩ := readDigits_eq_some.mp (readDigits_padded width m)
  have length := (padded_length width small wide).trans (padded_length width small' wide).symm
  have ordered := digits_lt_iff (a := 0) (b := 0) digits digits' length
  rw [value, value'] at ordered
  simpa using ordered.symm

theorem padded_inj {width : Nat} :
    (padded width n).toList = (padded width m).toList ↔ n = m := by
  constructor
  · intro same
    have read := readDigits_padded width n
    rw [same, readDigits_padded width m] at read
    exact (Option.some.inj read).symm
  · rintro rfl
    rfl

/-- A number in front is compared first. -/
theorem padded_append_lt_iff {width : Nat} (wide : 0 < width) (small : n < 10 ^ width)
    (small' : m < 10 ^ width) {s t : List Char} :
    (padded width n).toList ++ s < (padded width m).toList ++ t ↔ n < m ∨ n = m ∧ s < t := by
  have length := (padded_length width small wide).trans (padded_length width small' wide).symm
  rw [append_lt_append_iff length, padded_lt_iff wide small small', padded_inj]

namespace DateTime

theorem compare_swap (a b : DateTime) : (compare a b).swap = compare b a := by
  simp only [compare, Ordering.swap_then, Int.compare_swap, Nat.compare_swap]

/-- The order of date-times is the order of their seconds. -/
theorem compare_eq_lt_iff_toUnix (a b : DateTime) : compare a b = .lt ↔ a.toUnix < b.toUnix := by
  have clock := a.clock_lt
  have clock' := b.clock_lt
  rw [compare_eq_lt_iff, toUnix_eq, toUnix_eq]
  omega

/-- The parts as they stand in the text one after the other. -/
private theorem toList_text (t : DateTime) (positive : 0 ≤ t.year.toInt) :
    t.text.toList = (padded 4 t.year.toInt.toNat).toList ++ ('-' ::
      ((padded 2 t.month.number).toList ++ ('-' :: ((padded 2 t.day).toList ++ (' ' ::
        ((padded 2 t.hour).toList ++ (':' :: ((padded 2 t.minute).toList ++ (':' ::
          (padded 2 t.second).toList))))))))) := by
  have signs : "-".toList = ['-'] ∧ " ".toList = [' '] ∧ ":".toList = [':'] := ⟨rfl, rfl, rfl⟩
  rw [text, yearText, if_neg (Int.not_lt.mpr positive)]
  simp only [String.toList_append, signs, List.append_assoc, List.cons_append, List.nil_append]

theorem ascii_text (t : DateTime) : ∀ c ∈ t.text.toList, c.toNat < 0x80 := by
  intro c member
  rcases t.digit_or_sign_of_mem_text member with digit | sign
  · exact Nat.lt_of_le_of_lt (Char.isDigit_iff_toNat.mp digit).2 (by decide)
  · simp only [List.mem_cons, List.not_mem_nil, or_false] at sign
    rcases sign with rfl | rfl | rfl <;> decide

/-- Each part has the digits that it needs. -/
private theorem parts_lt (t : DateTime) (small : t.year.toInt ≤ 9999) :
    t.year.toInt.toNat < 10 ^ 4 ∧ t.month.number < 10 ^ 2 ∧ t.day < 10 ^ 2 ∧ t.hour < 10 ^ 2 ∧
      t.minute < 10 ^ 2 ∧ t.second < 10 ^ 2 := by
  have month := t.month.index_lt
  have day := Nat.le_trans t.day_le (daysInMonth_le _ _)
  have hour := t.hour_lt
  have minute := t.minute_lt
  have second := t.second_lt
  rw [Month.number]
  omega

/-- The order of date-times is the order of the characters in their canonical texts. -/
theorem compare_eq_lt_iff_text (a b : DateTime) (years : 0 ≤ a.year.toInt ∧ a.year.toInt ≤ 9999)
    (years' : 0 ≤ b.year.toInt ∧ b.year.toInt ≤ 9999) :
    compare a b = .lt ↔ a.text.toList < b.text.toList := by
  obtain ⟨year, month, day, hour, minute, second⟩ := a.parts_lt years.2
  obtain ⟨year', month', day', hour', minute', second'⟩ := b.parts_lt years'.2
  rw [a.toList_text years.1, b.toList_text years'.1,
    padded_append_lt_iff (by decide) year year', List.cons_lt_cons_self,
    padded_append_lt_iff (by decide) month month', List.cons_lt_cons_self,
    padded_append_lt_iff (by decide) day day', List.cons_lt_cons_self,
    padded_append_lt_iff (by decide) hour hour', List.cons_lt_cons_self,
    padded_append_lt_iff (by decide) minute minute', List.cons_lt_cons_self,
    padded_lt_iff (by decide) second second']
  simp only [compare, Ordering.then_eq_lt, Int.compare_eq_lt, Int.compare_eq_eq, Nat.compare_eq_lt,
    Nat.compare_eq_eq, Month.number]
  omega

/-- The order of date-times is the order of the bytes of their canonical texts. -/
theorem compare_eq_lt_iff_bytes (a b : DateTime) (years : 0 ≤ a.year.toInt ∧ a.year.toInt ≤ 9999)
    (years' : 0 ≤ b.year.toInt ∧ b.year.toInt ≤ 9999) :
    compare a b = .lt ↔ Utf8.bytes a.text < Utf8.bytes b.text := by
  rw [compare_eq_lt_iff_text a b years years', Utf8.bytes_lt_iff a.ascii_text b.ascii_text]

/-- Sorted date-times have sorted texts. -/
theorem map_text_mergeSort {times : List DateTime}
    (years : ∀ t ∈ times, 0 ≤ t.year.toInt ∧ t.year.toInt ≤ 9999) :
    (times.mergeSort fun a b => (compare a b).isLE).map text =
      (times.map text).mergeSort fun s t => Utf8.bytes s ≤ Utf8.bytes t := by
  refine List.map_mergeSort fun a here b there => ?_
  have later := compare_eq_lt_iff_bytes b a (years b there) (years a here)
  rw [← compare_swap, Ordering.swap_eq_lt] at later
  rw [Bool.eq_iff_iff, decide_eq_true_iff, ← List.not_lt, ← later]
  cases compare a b <;> decide

end DateTime

end ObjectMapping
