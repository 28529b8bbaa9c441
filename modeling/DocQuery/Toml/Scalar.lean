import DocQuery.Calendar
import DocQuery.Json.Reader

/-!
# Scalars of TOML

A scalar other than a string is a run of characters without blanks or punctuation, and one of four
kinds.

* `Toml.integer?` – integers of 64 bits, decimal with a sign or in base 16, 8 or 2;
* `Toml.float?` – floating-point numbers, among them `inf` and `nan`;
* `Toml.isMoment` – dates, times of day, and both together;
* `Toml.scalar?` – the value of a run. **A date or a time is kept as its text**, the only member of an
  object.

Underscores may stand between two digits (`Toml.ungroup?`) and mean nothing.
-/

namespace DocQuery.Toml

/-- The digits of a run in which an underscore may stand between two digits. -/
def ungroup? (isDigit : Char → Bool) : List Char → Option (List Char)
  | [] => none
  | [c] => if isDigit c then some [c] else none
  | c :: '_' :: rest => if isDigit c then (ungroup? isDigit rest).map (c :: ·) else none
  | c :: d :: rest => if isDigit c then (ungroup? isDigit (d :: rest)).map (c :: ·) else none

/-- The digits of a whole decimal number, which does not begin with a superfluous zero. -/
def wholeDigits? (cs : List Char) : Option (List Char) :=
  (ungroup? Char.isDigit cs).bind fun ds =>
    match ds with
    | '0' :: _ :: _ => none
    | ds => some ds

/-- The natural number with the given digits. -/
def natInBase? (base : Nat) (cs : List Char) : Option Nat :=
  (ungroup? (fun c => (Json.hexValue? c).any (· < base)) cs).map fun ds =>
    ds.foldl (fun n c => base * n + (Json.hexValue? c).getD 0) 0

/-- An integer of any size. -/
def anyInteger? : List Char → Option Int
  | '0' :: 'x' :: ds => (natInBase? 16 ds).map (↑·)
  | '0' :: 'o' :: ds => (natInBase? 8 ds).map (↑·)
  | '0' :: 'b' :: ds => (natInBase? 2 ds).map (↑·)
  | cs =>
    let (negative, ds) := splitSign cs
    (wholeDigits? ds).map fun ds =>
      if negative then -(digitsValue ds : Int) else digitsValue ds

/-- An integer of 64 bits. -/
def integer? (cs : List Char) : Option Int :=
  (anyInteger? cs).bind fun i => if -(2 ^ 63) ≤ i ∧ i < 2 ^ 63 then some i else none

/-- A digit or an underscore. -/
def isGrouped (c : Char) : Bool := c.isDigit || c = '_'

/-- An exponent that fills the text, or nothing. -/
def isPower : List Char → Bool
  | [] => true
  | c :: cs => (c = 'e' || c = 'E') && (ungroup? Char.isDigit (splitSign cs).2).isSome

/-- The form of a number with a fraction or an exponent, after its sign. -/
def isFractional (cs : List Char) : Bool :=
  (wholeDigits? (cs.takeWhile isGrouped)).isSome &&
    match cs.dropWhile isGrouped with
    | [] => false
    | '.' :: cs =>
      (ungroup? Char.isDigit (cs.takeWhile isGrouped)).isSome && isPower (cs.dropWhile isGrouped)
    | cs => isPower cs

/-- A floating-point number. A number above all finite ones has to be written `inf`. -/
def float? (cs : List Char) : Option Double :=
  let (negative, magnitude) := splitSign cs
  if magnitude = "inf".toList then some (.infinity negative)
  else if magnitude = "nan".toList then some .nan
  else if isFractional magnitude then
    match readDecimal? (cs.filter (· != '_')) with
    | some (.infinity false) => none
    | x => x
  else none

/-! ### Dates and times -/

/-- Splits off a date that exists. -/
def splitDate? (cs : List Char) : Option (List Char) := do
  let (year, cs) ← splitNumber? 4 9999 cs
  let cs ← splitOneOf? ['-'] cs
  let (month, cs) ← splitNumber? 2 12 cs
  let cs ← splitOneOf? ['-'] cs
  let (day, cs) ← splitNumber? 2 (daysIn year month) cs
  if day = 0 then none else some cs

/-- Splits off a time of day. A second may be a leap second and have a fraction. -/
def splitTime? (cs : List Char) : Option (List Char) := do
  let (_, cs) ← splitNumber? 2 23 cs
  let cs ← splitOneOf? [':'] cs
  let (_, cs) ← splitNumber? 2 59 cs
  let cs ← splitOneOf? [':'] cs
  let (_, cs) ← splitNumber? 2 60 cs
  dropFraction? cs

/-- A date, a time of day, or a date with a time of day and perhaps an offset. -/
def isMoment (cs : List Char) : Bool :=
  match splitDate? cs with
  | none => splitTime? cs == some []
  | some [] => true
  | some rest =>
    match (splitOneOf? ['T', 't', ' '] rest).bind splitTime? with
    | none => false
    | some [] => true
    | some offset => (readOffset? offset).isSome

/-- The value of a run of characters. -/
def scalar? (cs : List Char) : Option Json :=
  if cs = "true".toList then some (.bool true)
  else if cs = "false".toList then some (.bool false)
  else if isMoment cs then some (.object [("moment", .string (String.ofList cs))])
  else ((integer? cs).map Json.int).or ((float? cs).map Json.float)

end DocQuery.Toml
