import TableAccess.Date.Basic

/-!
# Counting days

The day after a day, and the day a number of days later, unless it is out of range.
-/

namespace TableAccess.Date

/-- The day after. -/
def next? (d : Date) : Option Date :=
  if d.day < Calendar.daysInMonth d.year d.month then of? d.year d.month (d.day + 1)
  else if d.month < 12 then of? d.year (d.month + 1) 1
  else of? (d.year + 1) 1 1

/-- The day a number of days later. -/
def after? (d : Date) : Nat → Option Date
  | 0 => some d
  | n + 1 => d.next?.bind fun e => after? e n

end TableAccess.Date
