import Deskhand.Text.Basic

/-!
# Dates and times of day

A moment to the minute, and how it is written in words.
-/

namespace Deskhand

/-- A moment. -/
structure Clock where
  year : Nat
  month : Nat
  day : Nat
  hour : Nat
  minute : Nat

namespace Clock

/-- The names of the days, from the first day of the first year on, which is a Monday. -/
def dayNames : List String :=
  ["Monday", "Tuesday", "Wednesday", "Thursday", "Friday", "Saturday", "Sunday"]

/-- The names of the months. -/
def monthNames : List String :=
  ["January", "February", "March", "April", "May", "June", "July", "August", "September", "October",
    "November", "December"]

/-- Whether a year has a leap day. -/
def isLeap (year : Nat) : Bool := year % 4 == 0 && (year % 100 != 0 || year % 400 == 0)

/-- The days before each month in a year without a leap day. -/
def daysBefore : List Nat := [0, 31, 59, 90, 120, 151, 181, 212, 243, 273, 304, 334]

/-- The number of days since the first day of the first year. -/
def dayNumber (c : Clock) : Nat :=
  let y := c.year - 1
  365 * y + y / 4 - y / 100 + y / 400 + daysBefore.getD (c.month - 1) 0
    + (if isLeap c.year && c.month > 2 then 1 else 0) + (c.day - 1)

/-- The date in words. -/
def date (c : Clock) : Text :=
  (dayNames.getD (c.dayNumber % 7) "").toList ++ ", ".toList
    ++ (monthNames.getD (c.month - 1) "").toList ++ " ".toList ++ Text.ofNatPadded 2 c.day
    ++ ", ".toList ++ Text.ofNat c.year

/-- A time of day, given in minutes since midnight. -/
def timeText (minutes : Nat) : Text :=
  let hour := minutes / 60
  let shown := if hour % 12 == 0 then 12 else hour % 12
  Text.ofNatPadded 2 shown ++ ":".toList ++ Text.ofNatPadded 2 (minutes % 60)
    ++ (if hour < 12 then " AM" else " PM" : String).toList

/-- The minutes since midnight. -/
def minutes (c : Clock) : Nat := c.hour * 60 + c.minute

/-- The time of day. -/
def time (c : Clock) : Text := timeText c.minutes

/-- The time of day a number of minutes earlier, less than a day, unless that lies before the first
year. -/
def timeBefore? (c : Clock) (earlier : Nat) : Option Text :=
  if earlier ≤ c.minutes then some (timeText (c.minutes - earlier))
  else if c.dayNumber == 0 then none
  else some (timeText (c.minutes + 1440 - earlier))

end Clock

end Deskhand
