import DocQuery.Numeric.Power

/-!
# Binary floating-point numbers, exactly

A floating-point number is kept as sign, significand and exponent, so that every operation on it is
a statement about integers. Nothing here calls a machine's floating-point unit.

* `DocQuery.Format` – precision and exponent range; `Format.double` and `Format.single`;
* `DocQuery.Binary` – the numbers of a format, each finite one in its only canonical form;
* `Binary.ofRatio` – **rounding to nearest, ties to even**, of which reading decimals, converting
  integers, multiplying, dividing and changing the format are instances;
* `Binary.units` – a finite number as a whole count of the least positive number of its format,
  which carries the order;
* `Binary.compare?` – the numeric order, undefined at not-a-number, and `Binary.totalCompare` – the
  total order that tells `-0` from `0` and puts not-a-number last.
-/

namespace DocQuery

/-- Precision and exponent range of a binary format: finite numbers are `m * 2 ^ e` with
`m < 2 ^ precision` and `minExp ≤ e ≤ maxExp`. -/
structure Format where
  precision : Nat
  minExp : Int
  maxExp : Int
  deriving DecidableEq, Repr

namespace Format

/-- The 64-bit format. -/
def double : Format := ⟨53, -1074, 971⟩

/-- The 32-bit format. -/
def single : Format := ⟨24, -149, 104⟩

/-- `m * 2 ^ e` is the canonical form of its value: the exponent is the least possible one, or the
significand uses the whole precision. -/
def Canonical (f : Format) (m : Nat) (e : Int) : Prop :=
  m < 2 ^ f.precision ∧ f.minExp ≤ e ∧ e ≤ f.maxExp ∧ (e = f.minExp ∨ 2 ^ (f.precision - 1) ≤ m)

instance (f : Format) (m : Nat) (e : Int) : Decidable (f.Canonical m e) :=
  inferInstanceAs (Decidable (_ ∧ _ ∧ _ ∧ (_ ∨ _)))

end Format

/-- A number of the format `f`. Zero has two forms, told apart by their sign. -/
inductive Binary (f : Format) where
  | nan
  | infinity (negative : Bool)
  | finite (negative : Bool) (significand : Nat) (exponent : Int)
      (canonical : f.Canonical significand exponent)
  deriving DecidableEq

/-- A double-precision number. -/
abbrev Double := Binary Format.double

/-- A single-precision number. -/
abbrev Single := Binary Format.single

/-! ### Rounding -/

/-- The natural number nearest to `n / d`, the even one of two equally near. -/
def roundDiv (n d : Nat) : Nat :=
  let q := n / d
  let r := n % d
  if 2 * r < d then q
  else if d < 2 * r then q + 1
  else if q % 2 = 0 then q else q + 1

/-- `n / d / 2 ^ e` as a quotient of natural numbers. -/
def scaleRatio (n d : Nat) (e : Int) : Nat × Nat :=
  if 0 ≤ e then (n, d * 2 ^ e.toNat) else (n * 2 ^ (-e).toNat, d)

namespace Binary

variable {f : Format}

/-- Zero with a sign. -/
def zero (negative : Bool) : Binary f :=
  if h : f.Canonical 0 f.minExp then .finite negative 0 f.minExp h else .nan

/-- The number `m * 2 ^ e`, for a significand that may have reached `2 ^ precision` by rounding;
infinite above the largest exponent. -/
def pack (negative : Bool) (m : Nat) (e : Int) : Binary f :=
  if h : f.Canonical m e then .finite negative m e h
  else if h : f.Canonical (m / 2) (e + 1) then .finite negative (m / 2) (e + 1) h
  else .infinity negative

/-- The exponent at which `n / d` has `precision` binary digits, or the least exponent of the
format when that is larger. -/
def exponentOf (f : Format) (n d : Nat) : Int :=
  let e := max ((n.log2 : Int) - d.log2 - f.precision) f.minExp
  let (a, b) := scaleRatio n d e
  if 2 ^ f.precision ≤ a / b then e + 1 else e

/-- **Rounding to nearest**: the number of the format nearest to `n / d`, the one with the even
significand of two equally near. -/
def ofRatio (negative : Bool) (n d : Nat) : Binary f :=
  if n = 0 then zero negative
  else
    let e := exponentOf f n d
    let (a, b) := scaleRatio n d e
    pack negative (roundDiv a b) e

/-- The number nearest to an integer. -/
def ofInt (i : Int) : Binary f :=
  ofRatio (decide (i < 0)) i.natAbs 1

/-- The number nearest to `digits * 10 ^ exponent`, where `digits` has at most `size` decimal
digits. Exponents far outside the range of the format are decided without computing the power. -/
def ofDecimal (negative : Bool) (digits : Nat) (size : Nat) (exponent : Int) : Binary f :=
  if digits = 0 then zero negative
  else if 400 < exponent then .infinity negative
  else if exponent + size < -400 then zero negative
  else if 0 ≤ exponent then ofRatio negative (digits * 10 ^ exponent.toNat) 1
  else ofRatio negative digits (10 ^ (-exponent).toNat)

/-! ### Views -/

/-- The exact magnitude `m * 2 ^ e` of a finite number as a quotient. -/
def ratio (m : Nat) (e : Int) : Nat × Nat :=
  if 0 ≤ e then (m * 2 ^ e.toNat, 1) else (m, 2 ^ (-e).toNat)

/-- A number as a signed count of the least positive number of its format. An infinity counts as
the first value beyond the largest finite one. -/
def units : Binary f → Int
  | .nan => 0
  | .infinity negative =>
    let n : Int := 2 ^ (f.precision + (f.maxExp - f.minExp).toNat)
    if negative then -n else n
  | .finite negative m e _ =>
    let n : Int := m * 2 ^ (e - f.minExp).toNat
    if negative then -n else n

def isNaN : Binary f → Bool
  | .nan => true
  | _ => false

def isFinite : Binary f → Bool
  | .finite .. => true
  | _ => false

/-- The sign is set; it is not for not-a-number. -/
def isNegative : Binary f → Bool
  | .nan => false
  | .infinity negative => negative
  | .finite negative _ _ _ => negative

/-! ### Order -/

/-- The numeric order, in which the two zeros are equal and not-a-number has no place. -/
def compare? (a b : Binary f) : Option Ordering :=
  if a.isNaN || b.isNaN then none else some (compare a.units b.units)

/-- Numeric equality: the zeros are equal, and not-a-number differs from itself. -/
def numEq (a b : Binary f) : Bool :=
  a.compare? b == some .eq

/-- `a ≤ b` in the numeric order. -/
def numLe (a b : Binary f) : Bool :=
  match a.compare? b with
  | some o => o.isLE
  | none => false

/-- Position in the total order: by value, `-0` before `0`, not-a-number last. -/
def totalKey (a : Binary f) : Int :=
  match a with
  | .nan => 2 * (Binary.infinity (f := f) false).units + 1
  | a => 2 * a.units - (if a.isNegative then 1 else 0)

/-- The total order on all numbers of a format. -/
def totalCompare (a b : Binary f) : Ordering :=
  compare a.totalKey b.totalKey

/-- The lesser of two numbers; a number is preferred to not-a-number. -/
def min (a b : Binary f) : Binary f :=
  if a.isNaN then b else if b.numLe a && !(a.numLe b) then b else a

/-- The greater of two numbers; a number is preferred to not-a-number. -/
def max (a b : Binary f) : Binary f :=
  if a.isNaN then b else if a.numLe b && !(b.numLe a) then b else a

/-! ### Arithmetic -/

/-- Product, rounded to nearest. -/
def mul : Binary f → Binary f → Binary f
  | .finite s m e _, .finite s' m' e' _ =>
    let (n, d) := ratio (m * m') (e + e')
    ofRatio (s != s') n d
  | .nan, _ | _, .nan => .nan
  | .infinity s, b => if b.units = 0 then .nan else .infinity (s != b.isNegative)
  | a, .infinity s => if a.units = 0 then .nan else .infinity (a.isNegative != s)

/-- Quotient, rounded to nearest. -/
def div : Binary f → Binary f → Binary f
  | .finite s m e _, .finite s' m' e' _ =>
    if m' = 0 then (if m = 0 then .nan else .infinity (s != s'))
    else
      let (n, d) := ratio m (e - e')
      ofRatio (s != s') n (d * m')
  | .nan, _ | _, .nan => .nan
  | .infinity _, .infinity _ => .nan
  | .infinity s, b => .infinity (s != b.isNegative)
  | a, .infinity s => zero (a.isNegative != s)

/-- The number with the other sign. -/
def neg : Binary f → Binary f
  | .nan => .nan
  | .infinity s => .infinity (!s)
  | .finite s m e h => .finite (!s) m e h

/-- The magnitude of `m * 2 ^ e` rounded down to a whole number. -/
def wholePart (m : Nat) (e : Int) : Nat :=
  if 0 ≤ e then m * 2 ^ e.toNat else m / 2 ^ (-e).toNat

/-- `m * 2 ^ e` is a whole number. -/
def isWhole (m : Nat) (e : Int) : Bool :=
  0 ≤ e || m % 2 ^ (-e).toNat = 0

/-- The number has no fractional part. Infinities and not-a-number do not qualify. -/
def isIntegral : Binary f → Bool
  | .finite _ m e _ => isWhole m e
  | _ => false

/-- The integer obtained by dropping the fraction; none for what is not finite. -/
def truncate? : Binary f → Option Int
  | .finite negative m e _ =>
    some (if negative then -(wholePart m e : Int) else wholePart m e)
  | _ => none

/-- The largest whole number that is not greater. A zero keeps its sign. -/
def floor : Binary f → Binary f
  | .finite negative m e _ =>
    let n := wholePart m e
    let n := if negative && !isWhole m e then n + 1 else n
    ofRatio negative n 1
  | a => a

/-- The nearest number of another format. -/
def convert (g : Format) : Binary f → Binary g
  | .nan => .nan
  | .infinity s => .infinity s
  | .finite s m e _ =>
    let (n, d) := ratio m e
    ofRatio s n d

end Binary

end DocQuery
