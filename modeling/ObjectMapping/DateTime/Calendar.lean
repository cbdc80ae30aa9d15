import ObjectMapping.DateTime

/-! The proleptic Gregorian calendar as it is counted: from a date to the next one by the lengths
of the months. A day number is the number of such steps from 1 January 1970. -/
namespace ObjectMapping

/-- The month after it in the same year. -/
def Month.next? (m : Month) : Option Month := ofIndex? (m.index + 1)

/-- A valid date of any year. -/
structure Date where
  year : Int
  month : Month
  day : Nat
  day_pos : 0 < day
  day_le : day ≤ daysInMonth year month

theorem daysInMonth_pos (year : Int) (month : Month) : 0 < daysInMonth year month := by
  cases month <;> simp only [daysInMonth] <;> first | decide | (split <;> decide)

namespace Date

/-- The first day of a month. -/
def first (year : Int) (month : Month) : Date :=
  ⟨year, month, 1, Nat.one_pos, daysInMonth_pos year month⟩

/-- The next day of the month, else the first of the next month, else 1 January of the next year. -/
def next (d : Date) : Date :=
  if before : d.day < daysInMonth d.year d.month then
    ⟨d.year, d.month, d.day + 1, Nat.succ_pos d.day, before⟩
  else
    match d.month.next? with
    | some month => first d.year month
    | none => first (d.year + 1) .january

/-- The date falls on the day that is this many steps of the calendar after 1 January 1970. -/
inductive Falls : Date → Int → Prop where
  | epoch : Falls (first 1970 .january) 0
  | next (day : Falls d n) : Falls d.next (n + 1)
  | previous (day : Falls d.next (n + 1)) : Falls d n

/-- The number that the date is converted to. -/
def dayNumber (d : Date) : Int := DateTime.dayNumber d.year d.month d.day

end Date

namespace DateTime

/-- The date without the time of day. -/
def toDate (t : DateTime) : Date := ⟨t.year.toInt, t.month, t.day, t.day_pos, t.day_le⟩

/-- The seconds since midnight. -/
def clock (t : DateTime) : Nat := t.hour * 3600 + t.minute * 60 + t.second

end DateTime

end ObjectMapping
