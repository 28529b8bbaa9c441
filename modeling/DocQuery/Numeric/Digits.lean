import DocQuery.Numeric.Power

/-!
# Reading whole numbers

* `DocQuery.digitsValue` – the value of a run of decimal digits;
* `DocQuery.readNat?`, `DocQuery.readInt64?` – whole numbers that fill a text and fit a range.
-/

namespace DocQuery

/-- The value of a run of decimal digits. -/
def digitsValue (cs : List Char) : Nat :=
  cs.foldl (fun n c => 10 * n + (c.toNat - '0'.toNat)) 0

/-- Splits off a sign. The first component tells whether it was a minus. -/
def splitSign : List Char → Bool × List Char
  | '-' :: cs => (true, cs)
  | '+' :: cs => (false, cs)
  | cs => (false, cs)

/-- Reads an unsigned run of at least one digit that fills the whole text. -/
def readDigits? (cs : List Char) : Option Nat :=
  if cs.isEmpty || !cs.all Char.isDigit then none else some (digitsValue cs)

/-- Reads a natural number below `bound`: digits after an optional plus sign. -/
def readNat? (bound : Nat) (cs : List Char) : Option Nat :=
  let digits := match cs with
    | '+' :: rest => rest
    | _ => cs
  (readDigits? digits).bind fun n => if n < bound then some n else none

/-- Reads an integer of 64 bits: digits after an optional sign. -/
def readInt64? (cs : List Char) : Option Int64 :=
  let (negative, digits) := splitSign cs
  (readDigits? digits).bind fun n =>
    let i : Int := if negative then -(n : Int) else n
    if -(2 ^ 63) ≤ i ∧ i < 2 ^ 63 then some (Int64.ofInt i) else none

end DocQuery
