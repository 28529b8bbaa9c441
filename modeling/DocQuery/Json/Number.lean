import DocQuery.Json.Basic

/-!
# Numbers in JSON text

A number without point and exponent is an integer when it fits 64 bits, signed or unsigned, and `-0`
is the negative zero. All other numbers are floating-point numbers.

Those are read in one pass: as many leading digits as fit 64 bits make the significand, and the
significand, rounded to a double, is multiplied or divided by a power of ten, rounded as well. For
short decimals this is the nearest number; long ones can miss it by a last digit. A number too large
for a double is refused.

* `Json.Literal` – sign, digits and exponent of a number as written;
* `Json.Literal.value?` – its value.
-/

namespace DocQuery.Json

/-- A number as it is written. -/
structure Literal where
  negative : Bool
  whole : List Char
  fraction : Option (List Char)
  exponent : Option Int

namespace Literal

/-- The part from the exponent sign on, which has to fill the text. -/
def readExponent? : List Char → Option (Option Int)
  | [] => some none
  | 'e' :: cs => (DocQuery.readExponent? ('e' :: cs)).map some
  | 'E' :: cs => (DocQuery.readExponent? ('E' :: cs)).map some
  | _ => none

/-- Splits a number into its parts: an optional minus, digits without a superfluous zero in front,
an optional point with digits after it, an optional exponent. -/
def split? (cs : List Char) : Option Literal :=
  let (negative, cs) := match cs with
    | '-' :: rest => (true, rest)
    | cs => (false, cs)
  let whole := cs.takeWhile Char.isDigit
  let rest := cs.dropWhile Char.isDigit
  if whole.isEmpty || (whole.length > 1 && whole.head? == some '0') then none
  else match rest with
    | '.' :: rest =>
      let fraction := rest.takeWhile Char.isDigit
      if fraction.isEmpty then none
      else (readExponent? (rest.dropWhile Char.isDigit)).map fun x =>
        ⟨negative, whole, some fraction, x⟩
    | rest => (readExponent? rest).map fun x => ⟨negative, whole, none, x⟩

/-- Appends digits to a significand while it stays below `2 ^ 64`; also returns the digits left
over. -/
def absorb : Nat → List Char → Nat × List Char
  | s, [] => (s, [])
  | s, c :: cs =>
    let t := 10 * s + (c.toNat - '0'.toNat)
    if t < 2 ^ 64 then absorb t cs else (s, c :: cs)

/-- `10 ^ n` as a double. -/
def powerOfTen (n : Nat) : Double := Binary.ofRatio false (10 ^ n) 1

/-- The significand scaled by a power of ten, in one operation or, below `10 ^ -308`, in two. None
when the result is too large. -/
def scale? (negative : Bool) (significand : Nat) (exponent : Int) : Option Double :=
  let x : Double := Binary.ofRatio negative significand 1
  if significand = 0 then some x
  else if 308 < exponent then none
  else if 0 ≤ exponent then
    let y := x.mul (powerOfTen exponent.toNat)
    if y.isFinite then some y else none
  else
    let n := (-exponent).toNat
    if n ≤ 308 then some (x.div (powerOfTen n))
    else if n ≤ 616 then some ((x.div (powerOfTen 308)).div (powerOfTen (n - 308)))
    else some (Binary.zero negative)

/-- The floating-point number that a literal stands for. -/
def float? (l : Literal) : Option Double :=
  let (s, left) := absorb 0 l.whole
  let digits := l.fraction.getD []
  let (s, unread) := absorb s digits
  let exponent : Int := left.length - (digits.length - unread.length : Nat)
  scale? l.negative s (exponent + l.exponent.getD 0)

/-- The value of a literal. -/
def value? (l : Literal) : Option Json :=
  let n := digitsValue l.whole
  if l.fraction.isNone && l.exponent.isNone && n < 2 ^ 64 then
    if !l.negative then some (.int n)
    else if n = 0 then some (.float (Binary.zero true))
    else if n ≤ 2 ^ 63 then some (.int (-(n : Int)))
    else some (.float (Binary.ofRatio true n 1))
  else l.float?.map .float

end Literal

/-- Reads a number that fills the text. -/
def readNumber? (cs : List Char) : Option Json :=
  (Literal.split? cs).bind Literal.value?

end DocQuery.Json
