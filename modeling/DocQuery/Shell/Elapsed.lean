import DocQuery.Numeric.Binary

/-!
# Elapsed time

* `DocQuery.TimeUnit` – the units in which elapsed time is shown, `TimeUnit.fitting` – the largest
  one of which at least one has passed;
* `DocQuery.elapsedText` – **the time in that unit with two decimal places**. A half goes to the even
  neighbour, so that rounding can show a thousand of a unit.
-/

namespace DocQuery

/-- A unit of elapsed time. -/
inductive TimeUnit where
  | nanosecond
  | microsecond
  | millisecond
  | second
  deriving DecidableEq, Repr

namespace TimeUnit

/-- The number of nanoseconds in a unit. -/
def nanoseconds : TimeUnit → Nat
  | .nanosecond => 1
  | .microsecond => 10 ^ 3
  | .millisecond => 10 ^ 6
  | .second => 10 ^ 9

def symbol : TimeUnit → String
  | .nanosecond => "ns"
  | .microsecond => "µs"
  | .millisecond => "ms"
  | .second => "s"

/-- The unit for a number of nanoseconds. -/
def fitting (n : Nat) : TimeUnit :=
  if second.nanoseconds ≤ n then .second
  else if millisecond.nanoseconds ≤ n then .millisecond
  else if microsecond.nanoseconds ≤ n then .microsecond
  else .nanosecond

end TimeUnit

/-- A number of nanoseconds as text. -/
def elapsedText (n : Nat) : String :=
  let unit := TimeUnit.fitting n
  let hundredths := roundDiv (100 * n) unit.nanoseconds
  let fraction := hundredths % 100
  toString (hundredths / 100) ++ (if fraction < 10 then ".0" else ".") ++ toString fraction ++
    unit.symbol

end DocQuery
