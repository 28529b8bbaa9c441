import DocQuery.Text.Basic
import DocQuery.Text.Case

/-!
# Shapes of strings

Some strings are recognised by their form: dates, e-mail addresses, web addresses and UUIDs.

* `DocQuery.isDate` – a calendar date that exists, perhaps with a time of day and a zone. Only the
  day is checked for being real; of the time only the form counts;
* `DocQuery.StringPattern` – the shapes that are reported for an attribute, with the share of its
  strings that must have the shape;
* `StringPattern.accepts` – the shapes themselves.
-/

namespace DocQuery

/-! ### Dates -/

/-- The Gregorian calendar, extended to all years, has a 29th of February in the year. -/
def isLeapYear (year : Nat) : Bool :=
  year % 4 = 0 && (year % 100 != 0 || year % 400 = 0)

/-- The number of days of a month, none if there is no such month. -/
def daysIn (year month : Nat) : Nat :=
  if month = 2 then (if isLeapYear year then 29 else 28)
  else if month = 4 ∨ month = 6 ∨ month = 9 ∨ month = 11 then 30
  else if 1 ≤ month ∧ month ≤ 12 then 31
  else 0

/-- The value of a digit of ASCII. -/
def digitValue? (c : Char) : Option Nat :=
  if c.isDigit then some (c.toNat - '0'.toNat) else none

/-- The number written by digits of ASCII. -/
def numberOf? (cs : List Char) : Option Nat :=
  cs.foldl (fun n? c => do return 10 * (← n?) + (← digitValue? c)) (some 0)

/-- Splits off a date that exists, written `YYYY-MM-DD`. -/
def splitDay? : List Char → Option (List Char)
  | y₁ :: y₂ :: y₃ :: y₄ :: '-' :: m₁ :: m₂ :: '-' :: d₁ :: d₂ :: rest => do
    let year ← numberOf? [y₁, y₂, y₃, y₄]
    let month ← numberOf? [m₁, m₂]
    let day ← numberOf? [d₁, d₂]
    if 1 ≤ day ∧ day ≤ daysIn year month then some rest else none
  | _ => none

/-- Splits off two decimal digits of any script. -/
def splitTwo? : List Char → Option (List Char)
  | a :: b :: rest => if isDecimalDigit a && isDecimalDigit b then some rest else none
  | _ => none

/-- A zone that fills the text: none, `Z`, or an offset of hours and minutes. -/
def isZone : List Char → Bool
  | [] => true
  | ['Z'] => true
  | c :: rest =>
    (c = '+' || c = '-') &&
      match splitTwo? rest with
      | some (':' :: minutes) => splitTwo? minutes == some []
      | some minutes => splitTwo? minutes == some []
      | none => false

/-- A fraction of a second and a zone, which fill the text. -/
def isFraction : List Char → Bool
  | '.' :: cs => !(cs.takeWhile isDecimalDigit).isEmpty && isZone (cs.dropWhile isDecimalDigit)
  | cs => isZone cs

/-- Hours and minutes, perhaps seconds and a zone, which fill the text. -/
def isClock (cs : List Char) : Bool :=
  match splitTwo? cs with
  | some (':' :: minutes) =>
    match splitTwo? minutes with
    | some (':' :: seconds) => (splitTwo? seconds).any isFraction
    | some rest => isZone rest
    | none => false
  | _ => false

/-- **A date**, perhaps followed by `T` or a blank and a time of day. -/
def isDate (cs : List Char) : Bool :=
  match splitDay? cs with
  | some [] => true
  | some (c :: rest) => (c = 'T' || c = ' ') && isClock rest
  | none => false

/-! ### Addresses -/

/-- A character other than white space and `@`. -/
def isAddressChar (c : Char) : Bool := !isSpace c && c != '@'

/-- An e-mail address: a name, `@`, and a domain with a point inside. -/
def isEmail (cs : List Char) : Bool :=
  let name := cs.takeWhile isAddressChar
  match cs.dropWhile isAddressChar with
  | '@' :: domain =>
    !name.isEmpty && domain.all isAddressChar && ((domain.drop 1).dropLast).contains '.'
  | _ => false

/-- Splits off a character, whatever its case. -/
def splitLetter? (letter : Char) : List Char → Option (List Char)
  | c :: rest => if foldChar c = letter then some rest else none
  | [] => none

/-- Splits off a word, whatever its case. -/
def splitWord? (word : List Char) (cs : List Char) : Option (List Char) :=
  word.foldl (fun cs? letter => cs?.bind (splitLetter? letter)) (some cs)

/-- The rest of a web address: a host that does not begin with a delimiter, and no white space. -/
def isHost : List Char → Bool
  | [] => false
  | c :: rest => !isSpace c && !"/$.?#".toList.contains c && rest.all fun c => !isSpace c

/-- A web address of the schemes `http` and `https`, in any case. -/
def isUrl (cs : List Char) : Bool :=
  match splitWord? "http".toList cs with
  | none => false
  | some cs =>
    match (splitLetter? 's' cs).getD cs with
    | ':' :: '/' :: '/' :: rest => isHost rest
    | _ => false

/-! ### UUIDs -/

/-- A hexadecimal digit. -/
def isHexDigit (c : Char) : Bool :=
  c.isDigit || ('a' ≤ c && c ≤ 'f') || ('A' ≤ c && c ≤ 'F')

/-- Five groups of hexadecimal digits with hyphens between. -/
def isHyphenated (cs : List Char) : Bool :=
  let groups := splitAtChar '-' cs
  groups.map List.length == [8, 4, 4, 4, 12] && groups.all fun g => g.all isHexDigit

/-- A UUID: thirty-two hexadecimal digits, or five groups of them, which may stand in braces or
after `urn:uuid:`. -/
def isUuid (cs : List Char) : Bool :=
  (cs.length = 32 && cs.all isHexDigit) || isHyphenated cs ||
    (match cs with
    | '\x7b' :: rest => rest.getLast? == some '\x7d' && isHyphenated rest.dropLast
    | _ => false) ||
    (lowerAscii (cs.take 9) == "urn:uuid:".toList && isHyphenated (cs.drop 9))

/-! ### Patterns -/

/-- A shape that is reported for an attribute. -/
inductive StringPattern where
  | email
  | url
  | uuid
  deriving DecidableEq, Repr

namespace StringPattern

/-- All patterns. -/
def all : List StringPattern := [.email, .url, .uuid]

def name : StringPattern → String
  | .email => "email"
  | .url => "url"
  | .uuid => "uuid"

/-- The string has the shape. -/
def accepts : StringPattern → String → Bool
  | .email, s => isEmail s.toList
  | .url, s => isUrl s.toList
  | .uuid, s => isUuid s.toList

/-- The tenths of an attribute's strings that must have the shape for it to be reported. -/
def tenths : StringPattern → Nat
  | .email => 7
  | .url => 5
  | .uuid => 7

end StringPattern

end DocQuery
