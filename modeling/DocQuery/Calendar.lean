import DocQuery.Discovery.Shape

/-!
# Points in time

Times are seconds since the beginning of 1970, in the Gregorian calendar and without leap seconds.

* `DocQuery.daysBefore`, `DocQuery.secondsOf` – from a date and a time of day to seconds;
* `DocQuery.readTime?` – reads a time with its offset, written as in `2024-01-02T03:04:05+02:00`;
* `DocQuery.clockText` – the time of day, without an offset.
-/

namespace DocQuery

/-- The number of days in the years before a year, counted from the year 0. -/
def daysBeforeYear (year : Nat) : Nat :=
  365 * year + (year + 3) / 4 - (year + 99) / 100 + (year + 399) / 400

/-- The number of days before the first day of a month, in its year. -/
def daysBeforeMonth (year month : Nat) : Nat :=
  (List.range (month - 1)).foldl (fun days m => days + daysIn year (m + 1)) 0

/-- The number of days from the beginning of 1970. -/
def daysBefore (year month day : Nat) : Int :=
  (daysBeforeYear year + daysBeforeMonth year month + day : Int) - 1 - daysBeforeYear 1970

/-- The number of seconds from the beginning of 1970. -/
def secondsOf (year month day hour minute second : Nat) : Int :=
  ((daysBefore year month day * 24 + hour) * 60 + minute) * 60 + second

/-- Splits off a number of `n` digits that is at most `bound`. -/
def splitNumber? (n bound : Nat) (cs : List Char) : Option (Nat × List Char) := do
  let digits := cs.take n
  let value ← numberOf? digits
  if digits.length = n ∧ value ≤ bound then some (value, cs.drop n) else none

/-- Splits off one of some characters. -/
def splitOneOf? (expected : List Char) : List Char → Option (List Char)
  | c :: rest => if expected.contains c then some rest else none
  | [] => none

/-- Drops a fraction of a second, which has at least one digit. -/
def dropFraction? : List Char → Option (List Char)
  | '.' :: cs =>
    if (cs.takeWhile Char.isDigit).isEmpty then none else some (cs.dropWhile Char.isDigit)
  | cs => some cs

/-- Reads an offset in seconds, which fills the text. -/
def readOffset? : List Char → Option Int
  | ['Z'] | ['z'] => some 0
  | sign :: cs => do
    let (hours, cs) ← splitNumber? 2 23 cs
    let cs ← splitOneOf? [':'] cs
    let (minutes, cs) ← splitNumber? 2 59 cs
    let offset : Int := (hours * 60 + minutes) * 60
    if !cs.isEmpty then none
    else if sign = '+' then some offset
    else if sign = '-' then some (-offset)
    else none
  | [] => none

/-- Reads a time with its offset. Fractions of a second are dropped, and a leap second counts as the
second before it. -/
def readTime? (cs : List Char) : Option Int := do
  let (year, cs) ← splitNumber? 4 9999 cs
  let cs ← splitOneOf? ['-'] cs
  let (month, cs) ← splitNumber? 2 12 cs
  let cs ← splitOneOf? ['-'] cs
  let (day, cs) ← splitNumber? 2 (daysIn year month) cs
  let cs ← splitOneOf? ['T', 't', ' '] cs
  let (hour, cs) ← splitNumber? 2 23 cs
  let cs ← splitOneOf? [':'] cs
  let (minute, cs) ← splitNumber? 2 59 cs
  let cs ← splitOneOf? [':'] cs
  let (second, cs) ← splitNumber? 2 60 cs
  let offset ← readOffset? (← dropFraction? cs)
  if day = 0 then none else some (secondsOf year month day hour minute (min second 59) - offset)

/-- A number with two digits. -/
def twoDigits (n : Nat) : String := (if n < 10 then "0" else "") ++ toString n

/-- The time of day as hours, minutes and seconds. -/
def clockText (time : Int) : String :=
  let second := (time % 86400).toNat
  twoDigits (second / 3600) ++ ":" ++ twoDigits (second / 60 % 60) ++ ":" ++ twoDigits (second % 60)

end DocQuery
