import DocQuery.Toml.Scalar

/-!
# Tokens of TOML

* `Toml.Token` – the tokens. Blanks and ends of lines are tokens too, for there are places where they
  may not stand; comments are none;
* `Toml.Scan` – what the scanner is inside of, between two characters;
* `Toml.tokens?` – the tokens of a text.

**A run of other characters is one token**, whatever it means: `1.5` is a number as a value, but two
names as a key. The one blank that such a run can contain stands between a date and a time of day.
-/

namespace DocQuery.Toml

/-- A token. -/
inductive Token where
  | blank
  | lineEnd
  | equals
  | comma
  | openBracket
  | closeBracket
  | openBrace
  | closeBrace
  /-- A run of other characters, unquoted. -/
  | run (text : List Char)
  /-- A string; only a short one can be a key. -/
  | quoted (text : String) (short : Bool)
  deriving DecidableEq, Repr

/-- How a string is quoted. -/
structure Quotes where
  /-- The character that opens and closes the string. -/
  mark : Char
  /-- The string is opened and closed by one mark, not by three, and does not span lines. -/
  short : Bool

/-- In strings with apostrophes a backslash is no escape. -/
def Quotes.escapes (q : Quotes) : Bool := q.mark = '"'

/-- What the scanner is inside of. Characters collected so far are kept in reverse. -/
inductive Scan where
  | between
  | run (seen : List Char)
  /-- After a run that looks like a date, and one blank. -/
  | date (seen : List Char)
  | comment
  /-- After one or two marks that open a string. -/
  | opening (mark : Char) (second : Bool)
  /-- At the beginning of a long string, where the end of a line does not count. -/
  | first (mark : Char)
  /-- In a string; a long one has `pending` marks at the end of what was read. -/
  | string (quotes : Quotes) (seen : List Char) (pending : Nat)
  | escape (quotes : Quotes) (seen : List Char)
  /-- In an escape of a character by its number, `left` digits before its end. -/
  | code (quotes : Quotes) (seen : List Char) (left n : Nat)
  /-- After a backslash at the end of a line, which joins the line to the next text; the flag tells
  whether the line ended. -/
  | join (quotes : Quotes) (seen : List Char) (ended : Bool)

/-- The tokens of one character. -/
def punctuation? (c : Char) : Option Token :=
  match c with
  | ' ' => some .blank
  | '\t' => some .blank
  | '\n' => some .lineEnd
  | '=' => some .equals
  | ',' => some .comma
  | '[' => some .openBracket
  | ']' => some .closeBracket
  | '\x7b' => some .openBrace
  | '\x7d' => some .closeBrace
  | _ => none

/-- A character that may stand in strings and comments. -/
def isPrintable (c : Char) : Bool := c = '\t' || (32 ≤ c.toNat && c.toNat != 127)

/-- The form of a date, which need not exist. -/
def isDateShaped : List Char → Bool
  | [y₁, y₂, y₃, y₄, '-', m₁, m₂, '-', d₁, d₂] => [y₁, y₂, y₃, y₄, m₁, m₂, d₁, d₂].all Char.isDigit
  | _ => false

/-- The character of a one-letter escape. -/
def escaped? (c : Char) : Option Char :=
  match c with
  | 'b' => some '\x08'
  | 't' => some '\t'
  | 'n' => some '\n'
  | 'f' => some '\x0c'
  | 'r' => some '\r'
  | '"' => some '"'
  | '\\' => some '\\'
  | _ => none

/-- The character with a number, unless it is a half of a surrogate pair or beyond all characters. -/
def character? (n : Nat) : Option Char :=
  if n < 0xD800 ∨ (0xDFFF < n ∧ n < 0x110000) then some (Char.ofNat n) else none

namespace Scan

/-- The token of a complete string. -/
def stringToken (quotes : Quotes) (seen : List Char) : Token :=
  .quoted (String.ofList seen.reverse) quotes.short

/-- Outside of strings, comments and runs. -/
def start (c : Char) : Scan × List Token :=
  match punctuation? c with
  | some t => (.between, [t])
  | none =>
    if c = '#' then (.comment, [])
    else if c = '"' ∨ c = '\'' then (.opening c false, [])
    else (.run [c], [])

/-- A character after the tokens that it ends. -/
def startAfter (before : List Token) (c : Char) : Scan × List Token :=
  let (s, ts) := start c
  (s, before ++ ts)

/-- A character of a string that is no mark. -/
def inside? (quotes : Quotes) (seen : List Char) (c : Char) : Option Scan :=
  if c = '\\' ∧ quotes.escapes then some (.escape quotes seen)
  else if isPrintable c || (c = '\n' && !quotes.short) then some (.string quotes (c :: seen) 0)
  else none

/-- A character in a string. A long string ends with the last of three to five marks, the last three
of which close it. -/
def inString? (quotes : Quotes) (seen : List Char) (pending : Nat) (c : Char) :
    Option (Scan × List Token) :=
  if quotes.short then
    if c = quotes.mark then some (.between, [stringToken quotes seen])
    else (inside? quotes seen c).map fun s => (s, [])
  else if c = quotes.mark then
    if pending < 5 then some (.string quotes seen (pending + 1), []) else none
  else
    let marks := List.replicate (if pending < 3 then pending else pending - 3) quotes.mark
    if pending < 3 then (inside? quotes (marks ++ seen) c).map fun s => (s, [])
    else some (startAfter [stringToken quotes (marks ++ seen)] c)

/-- The scanner after one character, and the tokens that it completes. -/
def step? : Scan → Char → Option (Scan × List Token)
  | .between, c => some (start c)
  | .run seen, c =>
    if c = ' ' ∧ isDateShaped seen.reverse then some (.date seen, [])
    else if (punctuation? c).isSome ∨ c = '#' ∨ c = '"' ∨ c = '\'' then
      some (startAfter [.run seen.reverse] c)
    else some (.run (c :: seen), [])
  | .date seen, c =>
    if c.isDigit then some (.run (c :: ' ' :: seen), [])
    else some (startAfter [.run seen.reverse, .blank] c)
  | .comment, c =>
    if c = '\n' then some (.between, [.lineEnd])
    else if isPrintable c then some (.comment, [])
    else none
  | .opening mark false, c =>
    if c = mark then some (.opening mark true, [])
    else (inside? ⟨mark, true⟩ [] c).map fun s => (s, [])
  | .opening mark true, c =>
    if c = mark then some (.first mark, [])
    else some (startAfter [stringToken ⟨mark, true⟩ []] c)
  | .first mark, c =>
    if c = '\n' then some (.string ⟨mark, false⟩ [] 0, []) else inString? ⟨mark, false⟩ [] 0 c
  | .string quotes seen pending, c => inString? quotes seen pending c
  | .escape quotes seen, c =>
    if c = 'u' then some (.code quotes seen 4 0, [])
    else if c = 'U' then some (.code quotes seen 8 0, [])
    else if !quotes.short && (c = ' ' || c = '\t' || c = '\n') then
      some (.join quotes seen (c = '\n'), [])
    else (escaped? c).map fun d => (.string quotes (d :: seen) 0, [])
  | .code quotes seen left n, c =>
    (Json.hexValue? c).bind fun d =>
      if left = 1 then
        (character? (16 * n + d)).map fun e => (.string quotes (e :: seen) 0, [])
      else some (.code quotes seen (left - 1) (16 * n + d), [])
  | .join quotes seen ended, c =>
    if c = ' ' ∨ c = '\t' then some (.join quotes seen ended, [])
    else if c = '\n' then some (.join quotes seen true, [])
    else if ended then inString? quotes seen 0 c
    else none

/-- The tokens that the end of the text completes. -/
def finish? : Scan → Option (List Token)
  | .between | .comment => some []
  | .run seen | .date seen => some [.run seen.reverse]
  | .opening mark true => some [stringToken ⟨mark, true⟩ []]
  | .string quotes seen pending =>
    if quotes.short || pending < 3 then none
    else some [stringToken quotes (List.replicate (pending - 3) quotes.mark ++ seen)]
  | _ => none

/-- The tokens of the rest of a text. -/
def tokens? : Scan → List Char → Option (List Token)
  | s, [] => finish? s
  | s, c :: cs => (step? s c).bind fun (s', ts) => (tokens? s' cs).map (ts ++ ·)

end Scan

/-- The text with a line feed alone at the end of each line. -/
def joinLineEnds : List Char → List Char
  | '\r' :: '\n' :: rest => '\n' :: joinLineEnds rest
  | c :: rest => c :: joinLineEnds rest
  | [] => []

/-- The text without a byte order mark. -/
def dropOrderMark : List Char → List Char
  | '\ufeff' :: rest => rest
  | cs => cs

/-- The tokens of a text. -/
def tokens? (text : String) : Option (List Token) :=
  Scan.tokens? .between (joinLineEnds (dropOrderMark text.toList))

end DocQuery.Toml
