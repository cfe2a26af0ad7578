import TableAccess.Date.Basic

/-!
# Times of day

A time is counted in microseconds since midnight.  Its text has a fraction of three digits when
whole milliseconds remain after the seconds, of six when microseconds do, and none otherwise.
-/

namespace TableAccess.Clock

open TableAccess.Number (paddedText)

def microsecondsPerDay : Nat := 86400000000

/-- Hours, minutes and seconds, and the fraction that remains. -/
def text (us : Nat) : List Char :=
  let seconds := us / 1000000
  let rest := us % 1000000
  let fraction :=
    if rest = 0 then []
    else if rest % 1000 = 0 then '.' :: paddedText 3 (rest / 1000)
    else '.' :: paddedText 6 rest
  paddedText 2 (seconds / 3600) ++ ':' :: (paddedText 2 (seconds / 60 % 60) ++
    ':' :: (paddedText 2 (seconds % 60) ++ fraction))

/-- A date, a blank and a time of that day. -/
def momentText (d : Date) (us : Nat) : List Char := d.text ++ ' ' :: text us

end TableAccess.Clock
