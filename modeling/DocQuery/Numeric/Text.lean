import DocQuery.Numeric.Digits
import DocQuery.Numeric.Shortest

/-!
# Writing and reading numbers

Floating-point numbers are written in two styles, which differ in where positional notation ends,
whether a point is always shown, and which of two equally near digit strings is taken.

* `FloatStyle.json` – for JSON text: always with a point or an exponent, so that a reader can tell a
  floating-point number from an integer;
* `FloatStyle.display` – for people: never an exponent, no superfluous `.0`;
* `Binary.text` – the text in a style;
* `readDecimal?` – the decimal grammar of typed input, read with a single correct rounding.
-/

namespace DocQuery

/-- The layout of a floating-point number. -/
structure FloatStyle where
  /-- Exponents of the leading digit that are written positionally. -/
  positional : Int → Bool
  /-- A whole number ends in `.0`. -/
  point : Bool
  /-- The choice between equally near digit strings. -/
  tie : Tie

/-- JSON text writes positionally between 10⁻⁵ and 10¹⁵, single-precision numbers between 10⁻⁶ and
10¹², and takes the even one of two equally near digit strings. -/
def FloatStyle.json (f : Format) : FloatStyle where
  positional p := if f = .single then -6 ≤ p && p ≤ 12 else -5 ≤ p && p ≤ 15
  point := true
  tie := .even

/-- Text for people is always positional and takes the upper one of two equally near digit
strings. -/
def FloatStyle.display : FloatStyle where
  positional _ := true
  point := false
  tie := .up

/-- `n` zeros. -/
def zeros (n : Nat) : String := String.ofList (List.replicate n '0')

/-- A decimal in the given style. -/
def Decimal.layout (style : FloatStyle) (d : Decimal) : String :=
  let digits := toString d.digits
  let count := digits.length
  let p : Int := d.exponent + count - 1
  if style.positional p then
    if 0 ≤ d.exponent then digits ++ zeros d.exponent.toNat ++ (if style.point then ".0" else "")
    else if 0 ≤ p then
      let (whole, fraction) := (digits.toList.take (p.toNat + 1), digits.toList.drop (p.toNat + 1))
      String.ofList (whole ++ '.' :: fraction)
    else "0." ++ zeros (-p - 1).toNat ++ digits
  else
    let mantissa := match digits.toList with
      | first :: second :: rest => String.ofList (first :: '.' :: second :: rest)
      | short => String.ofList short
    mantissa ++ "e" ++ (if 0 ≤ p then "+" else "-") ++ toString p.natAbs

/-- A number in the given style. -/
def Binary.text {f : Format} (style : FloatStyle) : Binary f → String
  | .nan => "NaN"
  | .infinity negative => if negative then "-inf" else "inf"
  | .finite negative m e _ =>
    let body :=
      if m = 0 then (if style.point then "0.0" else "0")
      else (shortest f style.tie m e).layout style
    if negative then "-" ++ body else body

/-- Reads an optional exponent part, which has to fill the text. -/
def readExponent? : List Char → Option Int
  | [] => some 0
  | c :: cs =>
    if c = 'e' ∨ c = 'E' then
      let (negative, digits) := splitSign cs
      (readDigits? digits).map fun n => if negative then -(n : Int) else n
    else none

/-- Reads a finite decimal number: a sign, digits with an optional point among, before or after
them, and an optional exponent. The nearest number is taken, which is infinite when the decimal is
too large. Texts of other forms, the words for infinities and not-a-number among them, are
refused. -/
def readDecimal? (cs : List Char) : Option Double :=
  let (negative, cs) := splitSign cs
  let whole := cs.takeWhile Char.isDigit
  let cs := cs.dropWhile Char.isDigit
  let (fraction, cs) := match cs with
    | '.' :: rest => (rest.takeWhile Char.isDigit, rest.dropWhile Char.isDigit)
    | _ => ([], cs)
  let digits := whole ++ fraction
  if digits.isEmpty then none
  else (readExponent? cs).map fun x =>
    Binary.ofDecimal negative (digitsValue digits) digits.length (x - fraction.length)

end DocQuery
