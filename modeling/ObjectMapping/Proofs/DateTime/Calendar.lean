import Mathlib.Data.Int.Init
import ObjectMapping.DateTime.Calendar

/-! The day numbers count the calendar. The months of all years stand in one row, in which each
begins where the one before it ends, so a day lies in exactly one month; the closed formulas in
both directions are formulas for this row. -/
namespace ObjectMapping

/-- The days from 1 March of the year 0 to 1 March of a year. -/
def marchStart (year : Int) : Int := 365 * year + year / 4 - year / 100 + year / 400

/-- The day number with which the month begins that comes `n` months after January of the
year 0. -/
def monthStart (n : Int) : Int :=
  marchStart ((n - 2) / 12) + (153 * ((n - 2) % 12) + 2) / 5 - 719468

theorem marchStart_succ (year : Int) :
    marchStart (year + 1) = marchStart year + (if isLeapYear (year + 1) then 366 else 365) := by
  simp only [marchStart, isLeapYear, Bool.or_eq_true, Bool.and_eq_true, beq_iff_eq, bne_iff_ne]
  split <;> omega

/-- An era of 400 years has 146097 days. -/
theorem marchStart_era (year era : Int) :
    marchStart (year + era * 400) = marchStart year + era * 146097 := by
  unfold marchStart
  omega

theorem monthStart_march {m : Int} (year : Int) (low : 0 ≤ m) (high : m < 12) :
    monthStart (12 * year + m + 2) = marchStart year + (153 * m + 2) / 5 - 719468 := by
  have y : (12 * year + m + 2 - 2) / 12 = year := by omega
  have r : (12 * year + m + 2 - 2) % 12 = m := by omega
  rw [monthStart, y, r]

/-- A month counted in years that begin in March. -/
theorem months_march (year : Int) (month : Month) : 12 * year + month.index =
    12 * (if month.number ≤ 2 then year - 1 else year) + ((month.number + 9) % 12 : Nat) + 2 := by
  cases month <;> simp [Month.number, Month.index] <;> omega

theorem dayNumber_eq (year : Int) (month : Month) (day : Nat) :
    DateTime.dayNumber year month day = monthStart (12 * year + month.index) + (day - 1) := by
  rw [DateTime.dayNumber, months_march]
  generalize (if month.number ≤ 2 then year - 1 else year) = y
  generalize same : (month.number + 9) % 12 = m
  have split : y % 400 + y / 400 * 400 = y := by omega
  have start := marchStart_era (y % 400) (y / 400)
  rw [split] at start
  rw [monthStart_march y (Int.natCast_nonneg m) (by omega), start, marchStart]
  omega

/-- A month is as long as the table says. -/
theorem monthStart_succ (year : Int) (month : Month) :
    monthStart (12 * year + month.index + 1) =
      monthStart (12 * year + month.index) + daysInMonth year month := by
  by_cases leap : month = .february
  · subst leap
    have february : 12 * year + (Month.february.index : Int) = 12 * (year - 1) + 11 + 2 := by
      simp only [Month.index]
      omega
    have march : 12 * (year - 1) + 11 + 2 + 1 = 12 * year + 0 + 2 := by omega
    have passed := marchStart_succ (year - 1)
    rw [Int.sub_add_cancel] at passed
    rw [february, march, monthStart_march year (by decide) (by decide),
      monthStart_march (year - 1) (by decide) (by decide), passed]
    simp only [daysInMonth]
    split <;> omega
  · have length : (daysInMonth year month : Int) =
        (153 * (((month.number + 9) % 12 : Nat) + 1) + 2) / 5 -
          (153 * ((month.number + 9) % 12 : Nat) + 2) / 5 := by
      cases month <;> first | rfl | contradiction
    have bound : (month.number + 9) % 12 < 11 := by
      cases month <;> first | decide | contradiction
    rw [months_march, length]
    generalize (if month.number ≤ 2 then year - 1 else year) = y
    generalize (month.number + 9) % 12 = m at bound
    have after : 12 * y + (m : Int) + 2 + 1 = 12 * y + (m + 1) + 2 := by omega
    rw [after, monthStart_march y (by omega) (by omega), monthStart_march y (by omega) (by omega)]
    omega

theorem Month.ofIndex_index (m : Month) : ofIndex? m.index = some m := by
  cases m <;> rfl

theorem Month.index_lt (m : Month) : m.index < 12 := by
  cases m <;> decide

theorem Month.exists_index (small : i < 12) : ∃ m : Month, m.index = i := by
  have each : ∀ i : Fin 12, (all[i]).index = i := by decide
  exact ⟨all[i], each ⟨i, small⟩⟩

/-- Every month in the row is a month of a year. -/
theorem month_of_row (n : Int) : ∃ (year : Int) (month : Month), n = 12 * year + month.index := by
  obtain ⟨month, index⟩ := Month.exists_index (i := (n % 12).toNat) (by omega)
  exact ⟨n / 12, month, by omega⟩

/-- No month begins before an earlier one. -/
theorem monthStart_mono {n m : Int} (later : n ≤ m) : monthStart n ≤ monthStart m := by
  induction m, later using Int.leInduction with
  | base => exact Int.le_refl _
  | succ m _ ih =>
    obtain ⟨year, month, rfl⟩ := month_of_row m
    rw [monthStart_succ]
    omega

/-- A day lies in one month only. -/
theorem month_unique {n m days : Int} (from_n : monthStart n ≤ days)
    (before_n : days < monthStart (n + 1)) (from_m : monthStart m ≤ days)
    (before_m : days < monthStart (m + 1)) : n = m := by
  rcases Int.lt_trichotomy n m with before | same | after
  · have apart := monthStart_mono (Int.add_one_le_of_lt before)
    omega
  · exact same
  · have apart := monthStart_mono (Int.add_one_le_of_lt after)
    omega

/-- A day of the first era lies in the year that the closed formula yields. -/
theorem yearOfEra_bounds {e : Int} (low : 0 ≤ e) (high : e < 146097) :
    ∃ y, (e - e / 1460 + e / 36524 - e / 146096) / 365 = y ∧ (0 ≤ y ∧ y < 400) ∧
      marchStart y ≤ e ∧ e < marchStart (y + 1) := by
  by_cases last : e = 146096
  · exact ⟨399, by subst last; decide⟩
  -- The last day aside, the day counts centuries, periods of four years, and years in these.
  obtain ⟨c, q, d, same, century, period, day, short⟩ : ∃ c q d, e = 36524 * c + 1461 * q + d ∧
      (0 ≤ c ∧ c < 4) ∧ (0 ≤ q ∧ q < 25) ∧ (0 ≤ d ∧ d < 1461) ∧ 1461 * q + d < 36524 :=
    ⟨e / 36524, e % 36524 / 1461, e % 36524 % 1461, by omega⟩
  obtain ⟨j, year, begun, left⟩ :
      ∃ j, (0 ≤ j ∧ j < 4) ∧ 365 * j ≤ d ∧ (d < 365 * (j + 1) ∨ j = 3) := by
    by_cases leap : d = 1460
    · exact ⟨3, by omega⟩
    · exact ⟨d / 365, by omega⟩
  have hundreds : e / 36524 = c := by omega
  have whole : e / 146096 = 0 := by omega
  have start : marchStart (100 * c + 4 * q + j) = 36524 * c + 1461 * q + 365 * j := by
    have quarters : (100 * c + 4 * q + j) / 4 = 25 * c + q := by omega
    have centuries : (100 * c + 4 * q + j) / 100 = c := by omega
    rw [marchStart, quarters, centuries]
    omega
  refine ⟨100 * c + 4 * q + j, ?_, by omega, by omega, ?_⟩
  · rw [hundreds, whole]
    omega
  · rw [marchStart_succ, start]
    split
    · omega
    · rename_i common
      simp only [isLeapYear, Bool.or_eq_true, Bool.and_eq_true, beq_iff_eq, bne_iff_ne] at common
      omega

/-- What the closed formula says of the day in its year. -/
theorem yearOfEra_day {e : Int} (low : 0 ≤ e) (high : e < 146097) :
    ∃ y, (e - e / 1460 + e / 36524 - e / 146096) / 365 = y ∧ (0 ≤ y ∧ y < 400) ∧
      365 * y + y / 4 - y / 100 = marchStart y ∧
      (0 ≤ e - marchStart y ∧ e - marchStart y < 366) ∧ e < marchStart (y + 1) := by
  obtain ⟨y, formula, year, begun, left⟩ := yearOfEra_bounds low high
  have length := marchStart_succ y
  refine ⟨y, formula, year, ?_, ⟨by omega, ?_⟩, left⟩
  · unfold marchStart
    omega
  · split at length <;> omega

/-- The closed formula for the date of a day finds the month in which the day lies. -/
theorem ofDayNumber_eq (days : Int) :
    ∃ n, monthStart n ≤ days ∧ days < monthStart (n + 1) ∧ DateTime.ofDayNumber days =
      (n / 12, (n % 12).toNat + 1, (days - monthStart n).toNat + 1) := by
  rw [DateTime.ofDayNumber]
  generalize shifted : days + 719468 = z
  generalize eras : z / 146097 = era
  generalize rest : z % 146097 = e
  obtain ⟨y, formula, -, start, inYear, left⟩ := yearOfEra_day (e := e) (by omega) (by omega)
  simp only [formula, start]
  generalize since : e - marchStart y = d at inYear ⊢
  generalize march : (5 * d + 2) / 153 = m
  have within : 0 ≤ m ∧ m < 12 := by omega
  have first : monthStart (12 * (y + era * 400) + m + 2) =
      marchStart y + era * 146097 + (153 * m + 2) / 5 - 719468 := by
    rw [monthStart_march _ within.1 within.2, marchStart_era]
  refine ⟨12 * (y + era * 400) + m + 2, ?_, ?_, ?_⟩
  · omega
  · by_cases february : m = 11
    · have after : 12 * (y + era * 400) + m + 2 + 1 = 12 * (y + 1 + era * 400) + 0 + 2 := by omega
      rw [after, monthStart_march _ (by decide) (by decide), marchStart_era]
      omega
    · have after : 12 * (y + era * 400) + m + 2 + 1 = 12 * (y + era * 400) + (m + 1) + 2 := by omega
      rw [after, monthStart_march _ (by omega) (by omega), marchStart_era]
      omega
  · rw [first]
    refine Prod.ext ?_ (Prod.ext ?_ ?_)
    · simp only
      split <;> split <;> omega
    · simp only
      split <;> omega
    · simp only
      omega

theorem Month.index_injective {m m' : Month} (same : m.index = m'.index) : m = m' := by
  have found := m.ofIndex_index
  rw [same, m'.ofIndex_index] at found
  exact (Option.some.inj found).symm

theorem Month.index_next (later : next? m = some m') : m'.index = m.index + 1 := by
  cases m <;> cases later <;> rfl

theorem Month.index_last (last : next? m = none) : m.index = 11 := by
  cases m <;> first | rfl | cases last

namespace Date

/-- The place of the date's month in the row of all months. -/
def monthCount (d : Date) : Int := 12 * d.year + d.month.index

theorem dayNumber_month (d : Date) : d.dayNumber = monthStart d.monthCount + (d.day - 1) :=
  dayNumber_eq d.year d.month d.day

theorem dayNumber_bounds (d : Date) :
    monthStart d.monthCount ≤ d.dayNumber ∧ d.dayNumber < monthStart (d.monthCount + 1) := by
  have positive := d.day_pos
  have within := d.day_le
  have length := monthStart_succ d.year d.month
  rw [← monthCount] at length
  rw [dayNumber_month]
  omega

/-- The next date has the next day number. -/
theorem dayNumber_next (d : Date) : d.next.dayNumber = d.dayNumber + 1 := by
  have within := d.day_le
  have length := monthStart_succ d.year d.month
  rw [← monthCount] at length
  rw [next]
  split
  · rw [dayNumber_month, dayNumber_month]
    simp only [monthCount]
    omega
  -- On the last day of a month, the next month in the row begins.
  have begun : ∀ e : Date, e.day = 1 → e.monthCount = d.monthCount + 1 →
      e.dayNumber = d.dayNumber + 1 := by
    intro e one following
    rw [dayNumber_month, dayNumber_month, following, length]
    omega
  split
  · rename_i month later
    refine begun _ rfl ?_
    simp only [monthCount, first, Month.index_next later]
    omega
  · rename_i last
    refine begun _ rfl ?_
    have december := Month.index_last last
    have january : Month.january.index = 0 := rfl
    simp only [monthCount, first]
    omega

theorem dayNumber_injective {a b : Date} (same : a.dayNumber = b.dayNumber) : a = b := by
  obtain ⟨low, high⟩ := a.dayNumber_bounds
  obtain ⟨low', high'⟩ := b.dayNumber_bounds
  have month : a.monthCount = b.monthCount :=
    month_unique low high (same ▸ low') (same ▸ high')
  have day : a.day = b.day := by
    rw [dayNumber_month, dayNumber_month, month] at same
    omega
  have bound := a.month.index_lt
  have bound' := b.month.index_lt
  unfold monthCount at month
  have year : a.year = b.year := by omega
  have name : a.month = b.month := Month.index_injective (by omega)
  cases a
  cases b
  cases year
  cases name
  cases day
  rfl

/-- Dates follow one another as their years do, in one year as their months, and in one month as
their days. -/
theorem dayNumber_lt_iff (a b : Date) :
    a.dayNumber < b.dayNumber ↔ a.year < b.year ∨ a.year = b.year ∧
      (a.month.index < b.month.index ∨ a.month.index = b.month.index ∧ a.day < b.day) := by
  have bound := a.month.index_lt
  have bound' := b.month.index_lt
  obtain ⟨low, high⟩ := a.dayNumber_bounds
  obtain ⟨low', high'⟩ := b.dayNumber_bounds
  rcases Int.lt_trichotomy a.monthCount b.monthCount with before | same | after
  · have apart := monthStart_mono (Int.add_one_le_of_lt before)
    unfold monthCount at before
    omega
  · have day := a.dayNumber_month
    have day' := b.dayNumber_month
    rw [same] at day
    unfold monthCount at same
    omega
  · have apart := monthStart_mono (Int.add_one_le_of_lt after)
    unfold monthCount at after
    omega

/-- Every day has a date, and the closed formula finds it. -/
theorem exists_ofDayNumber (days : Int) : ∃ d : Date, d.dayNumber = days ∧
    DateTime.ofDayNumber days = (d.year, d.month.number, d.day) := by
  obtain ⟨n, low, high, formula⟩ := ofDayNumber_eq days
  obtain ⟨year, month, rfl⟩ := month_of_row n
  have length := monthStart_succ year month
  have bound := month.index_lt
  let day := (days - monthStart (12 * year + month.index)).toNat + 1
  refine ⟨⟨year, month, day, Nat.succ_pos _, by omega⟩, ?_, ?_⟩
  · rw [dayNumber_month, monthCount]
    simp only [day]
    omega
  · have years : (12 * year + (month.index : Int)) / 12 = year := by omega
    have months : ((12 * year + (month.index : Int)) % 12).toNat = month.index := by omega
    rw [formula, years, months, Month.number]

theorem ofDayNumber_dayNumber (d : Date) :
    DateTime.ofDayNumber d.dayNumber = (d.year, d.month.number, d.day) := by
  obtain ⟨found, same, formula⟩ := exists_ofDayNumber d.dayNumber
  obtain rfl := dayNumber_injective same
  exact formula

/-- Counting from 1 January 1970 in both directions comes to the day number. -/
theorem falls_iff {d : Date} : d.Falls n ↔ d.dayNumber = n := by
  constructor
  · intro falls
    induction falls with
    | epoch => decide
    | next _ ih => rw [dayNumber_next, ih]
    | previous _ ih =>
      rw [dayNumber_next] at ih
      omega
  · rintro rfl
    -- Every day is come to, and what comes to the day of the date is the date.
    suffices reached : ∀ days : Int, ∃ d : Date, d.dayNumber = days ∧ d.Falls days by
      obtain ⟨found, same, falls⟩ := reached d.dayNumber
      exact dayNumber_injective same ▸ falls
    intro days
    induction days using Int.induction_on with
    | zero => exact ⟨first 1970 .january, by decide, .epoch⟩
    | succ i ih =>
      obtain ⟨d, same, falls⟩ := ih
      exact ⟨d.next, by rw [dayNumber_next, same], falls.next⟩
    | pred i ih =>
      obtain ⟨d, same, falls⟩ := ih
      obtain ⟨before, number, -⟩ := exists_ofDayNumber (-(i : Int) - 1)
      have follows : before.next = d :=
        dayNumber_injective (by rw [dayNumber_next, number, same, Int.sub_add_cancel])
      refine ⟨before, number, .previous ?_⟩
      rwa [Int.sub_add_cancel, follows]

end Date

namespace DateTime

theorem toUnix_eq (t : DateTime) : t.toUnix = t.toDate.dayNumber * 86400 + t.clock := by
  rw [toUnix, Date.dayNumber, clock]
  simp only [toDate]
  omega

theorem clock_lt (t : DateTime) : t.clock < 86400 := by
  have hour := t.hour_lt
  have minute := t.minute_lt
  have second := t.second_lt
  rw [clock]
  omega

theorem clock_lt_iff (a b : DateTime) : a.clock < b.clock ↔ a.hour < b.hour ∨ a.hour = b.hour ∧
    (a.minute < b.minute ∨ a.minute = b.minute ∧ a.second < b.second) := by
  have minute := a.minute_lt
  have minute' := b.minute_lt
  have second := a.second_lt
  have second' := b.second_lt
  rw [clock, clock]
  omega

theorem compare_eq_lt_iff (a b : DateTime) : compare a b = .lt ↔
    a.toDate.dayNumber < b.toDate.dayNumber ∨
      a.toDate.dayNumber = b.toDate.dayNumber ∧ a.clock < b.clock := by
  have before := Date.dayNumber_lt_iff a.toDate b.toDate
  have after := Date.dayNumber_lt_iff b.toDate a.toDate
  simp only [toDate] at before after
  simp only [compare, Ordering.then_eq_lt, Int.compare_eq_lt, Int.compare_eq_eq, Nat.compare_eq_lt,
    Nat.compare_eq_eq, clock_lt_iff]
  simp only [toDate]
  omega

/-- The seconds from the epoch are those of the days that the calendar counts, and of the clock;
the calendar goes from one day to the next, and so date-times are in the order of their seconds. -/
theorem toUnix_counts :
    (∀ d : Date, dayNumber d.next.year d.next.month d.next.day =
      dayNumber d.year d.month d.day + 1) ∧
    epoch.toUnix = 0 ∧
    (∀ t : DateTime, t.toDate.Falls (t.toUnix / 86400) ∧ t.toUnix % 86400 = t.clock) ∧
    ∀ a b : DateTime, compare a b = .lt ↔ a.toUnix < b.toUnix := by
  refine ⟨Date.dayNumber_next, by decide, fun t => ?_, fun a b => ?_⟩
  · have clock := t.clock_lt
    rw [Date.falls_iff, toUnix_eq]
    omega
  · have clock := a.clock_lt
    have clock' := b.clock_lt
    rw [compare_eq_lt_iff, toUnix_eq, toUnix_eq]
    omega

end DateTime

end ObjectMapping
