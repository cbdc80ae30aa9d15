import ObjectMapping.Error

/-! Dates of the proleptic Gregorian calendar with a time of day in whole seconds.
A date-time is valid by construction; the calendar is counted by day numbers
relative to 1 January 1970. -/
namespace ObjectMapping

/-- A month of the year. -/
inductive Month where
  | january
  | february
  | march
  | april
  | may
  | june
  | july
  | august
  | september
  | october
  | november
  | december
  deriving DecidableEq

namespace Month

/-- The months in calendar order. -/
def all : List Month :=
  [january, february, march, april, may, june, july, august, september, october, november,
    december]

/-- The position of the month in the year, from zero. -/
def index : Month → Nat
  | january => 0
  | february => 1
  | march => 2
  | april => 3
  | may => 4
  | june => 5
  | july => 6
  | august => 7
  | september => 8
  | october => 9
  | november => 10
  | december => 11

/-- The number of the month as written in dates, from one. -/
def number (m : Month) : Nat := m.index + 1

/-- The month at a position counted from zero. -/
def ofIndex? (index : Nat) : Option Month := all[index]?

/-- The month with a number counted from one. -/
def ofNumber? : Nat → Option Month
  | 0 => none
  | n + 1 => ofIndex? n

/-- The name of the month in messages. -/
def name : Month → String
  | january => "January"
  | february => "February"
  | march => "March"
  | april => "April"
  | may => "May"
  | june => "June"
  | july => "July"
  | august => "August"
  | september => "September"
  | october => "October"
  | november => "November"
  | december => "December"

end Month

/-- Whether the year has a 29 February. -/
def isLeapYear (year : Int) : Bool :=
  year % 4 == 0 && year % 100 != 0 || year % 400 == 0

/-- The number of days in a month of a year. -/
def daysInMonth (year : Int) : Month → Nat
  | .february => if isLeapYear year then 29 else 28
  | .april | .june | .september | .november => 30
  | _ => 31

/-- A valid date with a time of day. -/
structure DateTime where
  year : Int32
  month : Month
  day : Nat
  hour : Nat
  minute : Nat
  second : Nat
  day_pos : 0 < day
  day_le : day ≤ daysInMonth year.toInt month
  hour_lt : hour < 24
  minute_lt : minute < 60
  second_lt : second < 60
  deriving DecidableEq

/-- A date-time as a backend reports it: the month counts from one and no part
has been checked. -/
structure ReportedTime where
  year : Int32
  month : Nat
  day : Nat
  hour : Nat
  minute : Nat
  second : Nat
  deriving DecidableEq

/-- A whole number with zeros in front of it up to a width. -/
def padded (width n : Nat) : String :=
  let digits := Nat.toDigits 10 n
  String.ofList (List.replicate (width - digits.length) '0' ++ digits)

/-- A year in at least four characters, the sign of a negative one included. -/
def yearText (year : Int) : String :=
  if year < 0 then "-" ++ padded 3 year.natAbs else padded 4 year.toNat

namespace DateTime

/-- Midnight of 1 January 1970. -/
def epoch : DateTime where
  year := 1970
  month := .january
  day := 1
  hour := 0
  minute := 0
  second := 0
  day_pos := by decide
  day_le := by decide
  hour_lt := by decide
  minute_lt := by decide
  second_lt := by decide

instance : Inhabited DateTime := ⟨epoch⟩

/-- The date-time with the given parts; the day is checked before the time. -/
def make (year : Int32) (month : Month) (day hour minute second : Nat) :
    Except Error DateTime :=
  if hd : 0 < day ∧ day ≤ daysInMonth year.toInt month then
    if ht : hour < 24 ∧ minute < 60 ∧ second < 60 then
      .ok { year, month, day, hour, minute, second
            day_pos := hd.1
            day_le := hd.2
            hour_lt := ht.1
            minute_lt := ht.2.1
            second_lt := ht.2.2 }
    else
      let clock := s!"{padded 2 hour}:{padded 2 minute}:{padded 2 second}"
      .error (.malformed s!"time {clock} out of range")
  else
    .error (.malformed s!"day {day} out of range for {month.name} {year.toInt}")

/-- Midnight of the given day. -/
def date (year : Int32) (month : Month) (day : Nat) : Except Error DateTime :=
  make year month day 0 0 0

/-- Date-times are ordered by their parts, the year first. -/
def compare (a b : DateTime) : Ordering :=
  (Ord.compare a.year.toInt b.year.toInt).then <|
  (Ord.compare a.month.index b.month.index).then <|
  (Ord.compare a.day b.day).then <|
  (Ord.compare a.hour b.hour).then <|
  (Ord.compare a.minute b.minute).then <|
  Ord.compare a.second b.second

/-- The canonical text `YYYY-MM-DD HH:MM:SS`. -/
def text (t : DateTime) : String :=
  yearText t.year.toInt ++ "-" ++ padded 2 t.month.number ++ "-" ++ padded 2 t.day ++ " " ++
    padded 2 t.hour ++ ":" ++ padded 2 t.minute ++ ":" ++ padded 2 t.second

/-- The date-time as a backend reports it. -/
def toReported (t : DateTime) : ReportedTime where
  year := t.year
  month := t.month.number
  day := t.day
  hour := t.hour
  minute := t.minute
  second := t.second

/-- The date-time that a backend reported; the month is checked first. -/
def ofReported (t : ReportedTime) : Except Error DateTime :=
  match Month.ofNumber? t.month with
  | some month => make t.year month t.day t.hour t.minute t.second
  | none => .error (.malformed s!"backend month {t.month} out of range")

/-- The number that a run of decimal digits stands for. -/
def readDigits (digits : List Char) : Option Nat :=
  if digits.all Char.isDigit then
    some (digits.foldl (fun n c => 10 * n + (c.toNat - '0'.toNat)) 0)
  else none

/-- The six numbers of a text of the canonical form, as written and unchecked. -/
def readParts (text : String) : Option (List Nat) :=
  match text.toList with
  | [y₁, y₂, y₃, y₄, s₁, m₁, m₂, s₂, d₁, d₂, s₃, h₁, h₂, s₄, n₁, n₂, s₅, c₁, c₂] =>
    if [s₁, s₂, s₃, s₄, s₅] = ['-', '-', ' ', ':', ':'] then
      [[y₁, y₂, y₃, y₄], [m₁, m₂], [d₁, d₂], [h₁, h₂], [n₁, n₂], [c₁, c₂]].mapM readDigits
    else none
  | _ => none

/-- The date-time that a canonical text stands for. -/
def parse (text : String) : Except Error DateTime :=
  match readParts text with
  | some [year, month, day, hour, minute, second] =>
    match Month.ofNumber? month with
    | some month => make (Int32.ofNat year) month day hour minute second
    | none => .error (.malformed s!"month {month} out of range")
  | _ =>
    .error (.malformed s!"'{text}' is not a date-time of the form YYYY-MM-DD HH:MM:SS")

/-- The number of days from 1 January 1970 to a date. The year is taken to begin
in March, so that the leap day is its last. -/
def dayNumber (year : Int) (month : Month) (day : Nat) : Int :=
  let y := if month.number ≤ 2 then year - 1 else year
  let era := y / 400
  let yearOfEra := y % 400
  let monthFromMarch : Int := (month.number + 9 : Nat) % 12
  let dayOfYear := (153 * monthFromMarch + 2) / 5 + day - 1
  let dayOfEra := yearOfEra * 365 + yearOfEra / 4 - yearOfEra / 100 + dayOfYear
  era * 146097 + dayOfEra - 719468

/-- Year, month number and day of the date that lies `days` after 1 January 1970. -/
def ofDayNumber (days : Int) : Int × Nat × Nat :=
  let z := days + 719468
  let era := z / 146097
  let dayOfEra := z % 146097
  let yearOfEra :=
    (dayOfEra - dayOfEra / 1460 + dayOfEra / 36524 - dayOfEra / 146096) / 365
  let dayOfYear := dayOfEra - (365 * yearOfEra + yearOfEra / 4 - yearOfEra / 100)
  let monthFromMarch := (5 * dayOfYear + 2) / 153
  let day := dayOfYear - (153 * monthFromMarch + 2) / 5 + 1
  let month := if monthFromMarch < 10 then monthFromMarch + 3 else monthFromMarch - 9
  let year := yearOfEra + era * 400 + (if month ≤ 2 then 1 else 0)
  (year, month.toNat, day.toNat)

/-- The seconds from the epoch to the date-time. -/
def toUnix (t : DateTime) : Int :=
  dayNumber t.year.toInt t.month t.day * 86400 + t.hour * 3600 + t.minute * 60 + t.second

/-- The date-time that lies the given number of seconds after the epoch; its year
must fit the type. -/
def ofUnix (seconds : Int) : Except Error DateTime :=
  let (year, month, day) := ofDayNumber (seconds / 86400)
  let clock := (seconds % 86400).toNat
  match Month.ofNumber? month with
  | some month =>
    if -0x80000000 ≤ year ∧ year < 0x80000000 then
      make (Int32.ofInt year) month day (clock / 3600) (clock % 3600 / 60) (clock % 60)
    else .error (.malformed s!"timestamp {seconds} out of range")
  | none => .error (.malformed s!"timestamp {seconds} out of range")

end DateTime

end ObjectMapping
