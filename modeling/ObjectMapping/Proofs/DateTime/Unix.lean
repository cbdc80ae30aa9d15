import ObjectMapping.DateTime.Word
import ObjectMapping.Proofs.DateTime
import ObjectMapping.Proofs.DateTime.Calendar

/-! Date-times and seconds are converted into each other without loss. A step of the calculation
is checked with the numbers that it is about in their ranges, from which no step leads out of a
word; and of the checks on the parts of a date only the one on the year can fail. -/
namespace ObjectMapping

namespace Word

theorem ofInt_exact (low : -0x8000000000000000 ≤ n) (high : n < 0x8000000000000000) :
    ofInt n = exact n :=
  if_pos ⟨low, high⟩

theorem literal_exact (n : Nat) (low : -0x8000000000000000 ≤ (OfNat.ofNat n : Int))
    (high : (OfNat.ofNat n : Int) < 0x8000000000000000) :
    (OfNat.ofNat n : Word) = exact (OfNat.ofNat n) :=
  ofInt_exact low high

theorem add_exact (low : -0x8000000000000000 ≤ x + y) (high : x + y < 0x8000000000000000) :
    exact x + exact y = exact (x + y) :=
  ofInt_exact low high

theorem sub_exact (low : -0x8000000000000000 ≤ x - y) (high : x - y < 0x8000000000000000) :
    exact x - exact y = exact (x - y) :=
  ofInt_exact low high

theorem mul_exact (low : -0x8000000000000000 ≤ x * y) (high : x * y < 0x8000000000000000) :
    exact x * exact y = exact (x * y) :=
  ofInt_exact low high

theorem div_exact (nonneg : 0 ≤ x) (positive : 0 < y) (high : x / y < 0x8000000000000000) :
    exact x / exact y = exact (x / y) := by
  have nonzero : (exact y).value? ≠ some 0 := fun zero => by cases zero; cases positive
  have low : 0 ≤ x / y := Int.ediv_nonneg nonneg (Int.le_of_lt positive)
  refine (if_neg nonzero).trans ?_
  rw [← Int.tdiv_eq_ediv_of_nonneg nonneg] at low high ⊢
  exact ofInt_exact (Int.le_trans (by decide) low) high

theorem divFloor_exact (low : -0x8000000000000000 ≤ x / y) (high : x / y < 0x8000000000000000) :
    (exact x).divFloor (exact y) = exact (x / y) :=
  ofInt_exact low high

theorem below_exact : (exact x).below n = decide (x < n) := rfl

end Word

namespace DateTime
open Word

/-- The month counted from March, and the year that begins with it. -/
private theorem march_bounds {year : Int} (low : -0x80000000 ≤ year) (high : year < 0x80000000)
    (month : Month) :
    (0 ≤ ((month.number + 9 : Nat) % 12 : Int) ∧ ((month.number + 9 : Nat) % 12 : Int) < 12) ∧
      -0x80000001 ≤ (if month.number ≤ 2 then year - 1 else year) ∧
      (if month.number ≤ 2 then year - 1 else year) < 0x80000000 := by
  refine ⟨by omega, ?_⟩
  split <;> omega

theorem dayNumberInWords_eq {year : Int} {day : Nat} (low : -0x80000000 ≤ year)
    (high : year < 0x80000000) (month : Month) (small : day ≤ 31) :
    dayNumberInWords year month day = exact (dayNumber year month day) := by
  have months : (if 2 < month.number then ofInt month.number - 3 else ofInt month.number + 9) =
      exact ((month.number + 9 : Nat) % 12) := by
    cases month <;> decide
  have years : (if month.number ≤ 2 then ofInt year - 1 else ofInt year) =
      exact (if month.number ≤ 2 then year - 1 else year) := by
    split <;>
      simp (disch := omega) only [ofInt_exact, literal_exact, sub_exact]
  obtain ⟨march, bounds⟩ := march_bounds low high month
  rw [dayNumberInWords, dayNumber]
  simp only [months, years]
  generalize (if month.number ≤ 2 then year - 1 else year) = y at bounds ⊢
  generalize ((month.number + 9 : Nat) % 12 : Int) = m at march ⊢
  have rest : y - y / 400 * 400 = y % 400 := by omega
  simp (disch := omega) only [ofInt_exact, literal_exact, sub_exact, add_exact, mul_exact,
    divFloor_exact, div_exact, rest]

private theorem yearOfEra_exact {e : Int} (low : 0 ≤ e) (high : e < 146097) :
    (exact e - exact e / 1460 + exact e / 36524 - exact e / 146096) / 365 =
      exact ((e - e / 1460 + e / 36524 - e / 146096) / 365) := by
  simp (disch := omega) only [literal_exact, sub_exact, add_exact, div_exact]

private theorem yearStart_exact {y : Int} (low : 0 ≤ y) (high : y < 400) :
    365 * exact y + exact y / 4 - exact y / 100 = exact (365 * y + y / 4 - y / 100) := by
  simp (disch := omega) only [literal_exact, sub_exact, add_exact, mul_exact,
    div_exact]

private theorem month_exact {d : Int} (low : 0 ≤ d) (high : d < 366) :
    (5 * exact d + 2) / 153 = exact ((5 * d + 2) / 153) := by
  simp (disch := omega) only [literal_exact, add_exact, mul_exact, div_exact]

private theorem day_exact {d m : Int} (low : 0 ≤ d) (high : d < 366) (march : 0 ≤ m)
    (before : m < 12) :
    exact d - (153 * exact m + 2) / 5 + 1 = exact (d - (153 * m + 2) / 5 + 1) := by
  simp (disch := omega) only [literal_exact, sub_exact, add_exact, mul_exact,
    div_exact]

private theorem number_exact {m : Int} (low : 0 ≤ m) (high : m < 12) :
    (if (exact m).below 10 then exact m + 3 else exact m - 9) =
      exact (if m < 10 then m + 3 else m - 9) := by
  simp only [below_exact, decide_eq_true_eq]
  split <;> simp (disch := omega) only [literal_exact, add_exact, sub_exact]

private theorem year_exact {y era k : Int} (year : 0 ≤ y ∧ y < 400)
    (bounds : -0x800000000000 ≤ era ∧ era < 0x800000000000) :
    exact y + exact era * 400 + (if (exact k).below 3 then 1 else 0) =
      exact (y + era * 400 + if k ≤ 2 then 1 else 0) := by
  simp only [below_exact, decide_eq_true_eq, show k < 3 ↔ k ≤ 2 by omega]
  split <;> simp (disch := omega) only [literal_exact, add_exact, mul_exact]

theorem ofDayNumberInWords_eq {days : Int} (low : -0x800000000000 ≤ days)
    (high : days < 0x800000000000) :
    ofDayNumberInWords (exact days) = (exact (ofDayNumber days).1,
      exact (ofDayNumber days).2.1, exact (ofDayNumber days).2.2) := by
  rw [ofDayNumberInWords, ofDayNumber]
  have shifted : exact days + 719468 = exact (days + 719468) := by
    simp (disch := omega) only [literal_exact, add_exact]
  have bounds : -0x800000000000 ≤ days + 719468 ∧ days + 719468 < 0x8000000f0000 := by omega
  simp only [shifted]
  generalize days + 719468 = z at bounds ⊢
  have eras : (exact z).divFloor 146097 = exact (z / 146097) := by
    simp (disch := omega) only [literal_exact, divFloor_exact]
  have rest : exact z - exact (z / 146097) * 146097 = exact (z % 146097) := by
    have rest : z - z / 146097 * 146097 = z % 146097 := by omega
    simp (disch := omega) only [literal_exact, sub_exact, mul_exact, rest]
  have era : -0x800000000000 ≤ z / 146097 ∧ z / 146097 < 0x800000000000 := by omega
  have first : 0 ≤ z % 146097 ∧ z % 146097 < 146097 := by omega
  simp only [eras, rest]
  generalize z / 146097 = k at era ⊢
  generalize z % 146097 = e at first ⊢
  obtain ⟨y, formula, year, start, inYear, -⟩ := yearOfEra_day first.1 first.2
  have since : exact e - exact (marchStart y) = exact (e - marchStart y) :=
    sub_exact (by omega) (by omega)
  simp only [yearOfEra_exact first.1 first.2, formula, yearStart_exact year.1 year.2, start, since]
  generalize e - marchStart y = d at inYear ⊢
  simp only [month_exact inYear.1 inYear.2]
  generalize months : (5 * d + 2) / 153 = m
  have march : 0 ≤ m ∧ m < 12 := by omega
  simp only [day_exact inYear.1 inYear.2 march.1 march.2, number_exact march.1 march.2,
    year_exact year era]
  have number :
      ((if m < 10 then m + 3 else m - 9).toNat : Int) = if m < 10 then m + 3 else m - 9 := by
    split <;> omega
  have day : ((d - (153 * m + 2) / 5 + 1).toNat : Int) = d - (153 * m + 2) / 5 + 1 := by omega
  rw [number, day]

theorem dayNumber_small {year : Int} {day : Nat} (low : -0x80000000 ≤ year)
    (high : year < 0x80000000) (month : Month) (small : day ≤ 31) :
    -0x10000000000 ≤ dayNumber year month day ∧ dayNumber year month day < 0x10000000000 := by
  obtain ⟨march, bounds⟩ := march_bounds low high month
  rw [dayNumber]
  generalize (if month.number ≤ 2 then year - 1 else year) = y at bounds ⊢
  generalize ((month.number + 9 : Nat) % 12 : Int) = m at march ⊢
  omega

theorem toUnixInWords_eq (t : DateTime) : toUnixInWords t = exact t.toUnix := by
  have low := t.year.le_toInt
  have high := t.year.toInt_lt
  have day := Nat.le_trans t.day_le (daysInMonth_le _ _)
  have hour := t.hour_lt
  have minute := t.minute_lt
  have second := t.second_lt
  have small := dayNumber_small low high t.month day
  rw [toUnixInWords, toUnix, dayNumberInWords_eq low high t.month day]
  generalize dayNumber t.year.toInt t.month t.day = days at small ⊢
  simp (disch := omega) only [ofInt_exact, literal_exact, add_exact, mul_exact]

/-- A date-time is its date and its seconds since midnight. -/
theorem eq_of_clock {a b : DateTime} (date : a.toDate = b.toDate) (clock : a.clock = b.clock) :
    a = b := by
  obtain ⟨year, month, day, hour, minute, second, _, _, _, _, _⟩ := a
  obtain ⟨year', month', day', hour', minute', second', _, _, _, _, _⟩ := b
  obtain ⟨years, rfl, rfl⟩ := Date.mk.inj date
  obtain rfl := Int32.toInt_inj.mp years
  simp only [DateTime.clock] at clock
  obtain ⟨rfl, rfl, rfl⟩ : hour = hour' ∧ minute = minute' ∧ second = second' := by omega
  rfl

/-- A clock within a day has three parts that pass their checks. -/
theorem clock_parts {c : Nat} (within : c < 86400) :
    c / 3600 < 24 ∧ c % 3600 / 60 < 60 ∧ c % 60 < 60 := by
  omega

/-- The date that an instant lies on is the date that is calculated, and the time of day is right;
only the year may be out of range. -/
theorem ofUnix_cases {seconds : Int} {d : Date} (falls : d.Falls (seconds / 86400)) :
    (∃ t, ofUnix seconds = .ok t ∧ t.toDate = d ∧ t.clock = seconds % 86400) ∨
      (∃ e, ofUnix seconds = .error e) ∧ ¬∃ year : Int32, year.toInt = d.year := by
  have formula := Date.ofDayNumber_dayNumber d
  rw [Date.falls_iff.mp falls] at formula
  have parts := clock_parts (c := (seconds % 86400).toNat) (by omega)
  rw [ofUnix, formula]
  simp only [Month.ofNumber_number]
  by_cases range : -0x80000000 ≤ d.year ∧ d.year < 0x80000000
  · rw [if_pos range]
    have year : (Int32.ofInt d.year).toInt = d.year := Int32.toInt_ofInt_of_le range.1 range.2
    have valid : 0 < d.day ∧ d.day ≤ daysInMonth (Int32.ofInt d.year).toInt d.month :=
      ⟨d.day_pos, year.symm ▸ d.day_le⟩
    rw [make, dif_pos valid, dif_pos parts]
    refine .inl ⟨_, rfl, ?_, ?_⟩
    · simp only [toDate, year]
    · simp only [DateTime.clock]
      omega
  · rw [if_neg range]
    refine .inr ⟨⟨_, rfl⟩, ?_⟩
    rintro ⟨year, same⟩
    exact range (same ▸ ⟨year.le_toInt, year.toInt_lt⟩)

/-- Seconds give back the date-time that they were calculated from. -/
theorem ofUnix_toUnix (t : DateTime) : ofUnix t.toUnix = .ok t := by
  have clock := t.clock_lt
  have day : t.toUnix / 86400 = t.toDate.dayNumber := by
    rw [toUnix_eq]
    omega
  have rest : t.toUnix % 86400 = t.clock := by
    rw [toUnix_eq]
    omega
  have falls : t.toDate.Falls (t.toUnix / 86400) := Date.falls_iff.mpr day.symm
  rcases ofUnix_cases falls with ⟨found, same, date, time⟩ | ⟨-, outside⟩
  · have time : found.clock = t.clock := Int.ofNat_inj.mp (time.trans rest)
    rw [same, eq_of_clock date time]
  · exact absurd ⟨t.year, rfl⟩ outside

/-- A date-time gives back the seconds that it was calculated from. -/
theorem toUnix_of_ofUnix {seconds : Int} (found : ofUnix seconds = .ok t) :
    t.toUnix = seconds := by
  obtain ⟨d, day, -⟩ := Date.exists_ofDayNumber (seconds / 86400)
  rcases ofUnix_cases (Date.falls_iff.mpr day) with ⟨u, same, date, time⟩ | ⟨⟨e, failed⟩, -⟩
  · obtain rfl : t = u := Except.ok.inj (found.symm.trans same)
    rw [toUnix_eq, date, day, time]
    omega
  · cases found.symm.trans failed

theorem ofUnix_error_iff {seconds : Int} {d : Date} (falls : d.Falls (seconds / 86400)) :
    (∃ e, ofUnix seconds = .error e) ↔ ¬∃ year : Int32, year.toInt = d.year := by
  rcases ofUnix_cases falls with ⟨t, same, date, -⟩ | ⟨failed, outside⟩
  · refine iff_of_false (fun ⟨e, failed⟩ => ?_) (fun outside => outside ⟨t.year, ?_⟩)
    · cases same.symm.trans failed
    · exact congrArg Date.year date
  · exact iff_of_true failed outside

/-- The checks that the parts of a date and a clock pass once the year fits. -/
theorem parts_valid (d : Date) {c : Nat} (within : c < 86400) :
    ∃ month, Month.ofNumber? d.month.number = some month ∧
      (0 < d.day ∧ d.day ≤ daysInMonth d.year month) ∧
      c / 3600 < 24 ∧ c % 3600 / 60 < 60 ∧ c % 60 < 60 :=
  ⟨d.month, Month.ofNumber_number _, ⟨d.day_pos, d.day_le⟩, clock_parts within⟩

theorem toUnix_holds (t : DateTime) : ∃ seconds : Int64, seconds.toInt = t.toUnix := by
  have small := dayNumber_small t.year.le_toInt t.year.toInt_lt t.month
    (Nat.le_trans t.day_le (daysInMonth_le _ _))
  have clock := t.clock_lt
  have parts := t.toUnix_eq
  simp only [Date.dayNumber, toDate] at parts
  exact ⟨Int64.ofInt t.toUnix, Int64.toInt_ofInt_of_le (by omega) (by omega)⟩

/-- Every date-time is given back from its seconds, and all seconds of 64 bits are given back from
their date-time. They have none exactly when the year of the date that the calendar comes to does
not fit. No step on the way leaves a word of 64 bits, and no check on the month, the day or the
clock fails. -/
theorem unix_bijection :
    (∀ t : DateTime, toUnixInWords t = exact t.toUnix ∧
      (∃ seconds : Int64, seconds.toInt = t.toUnix) ∧ ofUnix t.toUnix = .ok t) ∧
    ∀ seconds : Int64,
      (∀ t, ofUnix seconds.toInt = .ok t → t.toUnix = seconds.toInt) ∧
      ∃ d : Date, (∀ e : Date, e.Falls (seconds.toInt / 86400) ↔ e = d) ∧
        ((∃ e, ofUnix seconds.toInt = .error e) ↔ ¬∃ year : Int32, year.toInt = d.year) ∧
        ofDayNumberInWords (ofInt (seconds.toInt / 86400)) =
          (exact d.year, exact d.month.number, exact d.day) ∧
        (let (year, number, day) := ofDayNumber (seconds.toInt / 86400)
         let clock := (seconds.toInt % 86400).toNat
         ∃ month, Month.ofNumber? number = some month ∧
          (0 < day ∧ day ≤ daysInMonth year month) ∧
          clock / 3600 < 24 ∧ clock % 3600 / 60 < 60 ∧ clock % 60 < 60) := by
  refine ⟨fun t => ⟨toUnixInWords_eq t, toUnix_holds t, ofUnix_toUnix t⟩,
    fun seconds => ⟨fun t => toUnix_of_ofUnix, ?_⟩⟩
  have low := seconds.le_toInt
  have high := seconds.toInt_lt
  obtain ⟨d, day, formula⟩ := Date.exists_ofDayNumber (seconds.toInt / 86400)
  have falls : d.Falls (seconds.toInt / 86400) := Date.falls_iff.mpr day
  refine ⟨d, fun e => ⟨fun also => ?_, fun same => same ▸ falls⟩, ofUnix_error_iff falls, ?_, ?_⟩
  · exact Date.dayNumber_injective ((Date.falls_iff.mp also).trans day.symm)
  · rw [ofInt_exact (by omega) (by omega), ofDayNumberInWords_eq (by omega) (by omega), formula]
  · rw [formula]
    exact parts_valid d (by omega)

end DateTime

end ObjectMapping
