import DocQuery.Numeric.Binary

/-!
# The fewest decimal digits that read back

A positive finite number stands for every real that rounds to it. The decimal written for it is the
one with the fewest digits among those reals, and of two with equally few digits the nearer one.

* `DocQuery.RoundingInterval` – the reals that round to `m * 2 ^ e`, in quarters of `2 ^ e`;
* `DocQuery.Decimal` – digits and a power of ten;
* `RoundingInterval.onGrid?` – the choice on the grid of multiples of one power of ten: of the two
  neighbours of the number on that grid, the nearer one that lies in the interval;
* `DocQuery.shortest` – the choice on the coarsest grid that has one.

Two neighbours can be equally near. Which of them is written is a decision of the output format, and
is passed as a `Tie`.
-/

namespace DocQuery

/-- A non-negative decimal number `digits * 10 ^ exponent`. -/
structure Decimal where
  digits : Nat
  exponent : Int
  deriving DecidableEq, Repr

/-- Which of two equally near candidates is written. -/
inductive Tie where
  | up
  | even
  deriving DecidableEq, Repr

/-- The reals that round to a positive number, in units of `2 ^ unit`, which is a quarter of the
distance to the next number: from `low` to `high` around `value`, ends included when `closed`. -/
structure RoundingInterval where
  value : Nat
  low : Nat
  high : Nat
  unit : Int
  closed : Bool
  deriving Repr

namespace RoundingInterval

/-- The interval of `m * 2 ^ e`. Below a power of two the numbers lie twice as close, so that the
interval reaches only half as far down. -/
def ofBinary (f : Format) (m : Nat) (e : Int) : RoundingInterval where
  value := 4 * m
  low := if m = 2 ^ (f.precision - 1) ∧ f.minExp < e then 4 * m - 1 else 4 * m - 2
  high := 4 * m + 2
  unit := e - 2
  closed := m % 2 = 0

/-- Factors `(l, r)` such that `c * 10 ^ k` and `x * 2 ^ unit` compare as `c * l` and `x * r`. -/
def factors (i : RoundingInterval) (k : Int) : Nat × Nat :=
  (10 ^ k.toNat * 2 ^ (-i.unit).toNat, 2 ^ i.unit.toNat * 10 ^ (-k).toNat)

/-- `c * 10 ^ k` rounds to the number. -/
def holds (i : RoundingInterval) (k : Int) (c : Nat) : Bool :=
  let (l, r) := i.factors k
  if i.closed then i.low * r ≤ c * l && c * l ≤ i.high * r
  else i.low * r < c * l && c * l < i.high * r

/-- The multiple of `10 ^ k` to write, if one of the two neighbours of the number on that grid
rounds to it. -/
def onGrid? (i : RoundingInterval) (tie : Tie) (k : Int) : Option Nat :=
  let (l, r) := i.factors k
  let c := i.value * r / l
  let rest := i.value * r % l
  match i.holds k c, i.holds k (c + 1) with
  | true, true =>
    if 2 * rest < l then some c
    else if l < 2 * rest then some (c + 1)
    else match tie with
      | .up => some (c + 1)
      | .even => some (if c % 2 = 0 then c else c + 1)
  | true, false => some c
  | false, true => some (c + 1)
  | false, false => none

/-- `10 ^ p` is at most the number. -/
def reaches (i : RoundingInterval) (p : Int) : Bool :=
  let (l, r) := i.factors p
  l ≤ i.value * r

/-- The exponent of the power of ten at or below the number, found from its binary length and set
right by at most one step. -/
def magnitude (i : RoundingInterval) : Int :=
  let p := ((i.value.log2 + i.unit) * 30103).fdiv 100000
  if i.reaches (p + 1) then p + 1
  else if i.reaches p then p
  else p - 1

end RoundingInterval

/-- Drops final zeros, at most `fuel` of them. -/
def Decimal.strip : Nat → Decimal → Decimal
  | 0, d => d
  | fuel + 1, d =>
    if d.digits ≠ 0 ∧ d.digits % 10 = 0 then strip fuel ⟨d.digits / 10, d.exponent + 1⟩ else d

/-- **The fewest digits that read back** as `m * 2 ^ e`, which is positive, without final zeros.
Seventeen digits always suffice in the formats of this library. -/
def shortest (f : Format) (tie : Tie) (m : Nat) (e : Int) : Decimal :=
  let i := RoundingInterval.ofBinary f m e
  let p := i.magnitude
  let found := (List.range 17).findSome? fun (n : Nat) =>
    (i.onGrid? tie (p - n)).map fun c => Decimal.strip 2 ⟨c, p - n⟩
  found.getD ⟨i.value * (i.factors (p - 17)).2 / (i.factors (p - 17)).1, p - 17⟩

end DocQuery
