import DocQuery.Json.Number

/-!
# Reading JSON text

Text is read in two passes, each a machine that consumes its input item by item.

* `Json.Scan` – the state of the first pass, from characters to tokens. A run of characters outside
  quotes that are neither blank nor punctuation is one token and is judged when it ends;
* `Json.Build` – the state of the second pass, from tokens to a tree: the containers that are open
  and what may follow;
* `Json.read?` – both passes. At most 127 containers may be open at a time.

All ill-formed texts are refused alike.
-/

namespace DocQuery.Json

/-! ### Tokens -/

/-- A token: punctuation, or a scalar. -/
inductive Token where
  | openArray
  | closeArray
  | openObject
  | closeObject
  | comma
  | colon
  | scalar (j : Json)

/-- What the scanner is inside of. Characters collected so far are kept in reverse. -/
inductive Scan where
  | between
  | word (seen : List Char)
  | quoted (seen : List Char)
  | escape (seen : List Char)
  /-- In an escape by code unit: `high` is the first half of a surrogate pair, if one was read;
  `count` digits with the value `n` have been seen. -/
  | unit (seen : List Char) (high : Option Nat) (count n : Nat)
  /-- After the first half of a surrogate pair; the flag tells whether the backslash of the second
  half was read. -/
  | secondHalf (seen : List Char) (high : Nat) (backslash : Bool)

/-- The blanks of JSON. -/
def isBlank (c : Char) : Bool := c = ' ' || c = '\n' || c = '\t' || c = '\r'

/-- Tokens of one character. -/
def punctuation? (c : Char) : Option Token :=
  match c with
  | '[' => some .openArray
  | ']' => some .closeArray
  | '\x7b' => some .openObject
  | '\x7d' => some .closeObject
  | ',' => some .comma
  | ':' => some .colon
  | _ => none

/-- The value of a run of unquoted characters. -/
def wordValue? (cs : List Char) : Option Json :=
  if cs = "null".toList then some .null
  else if cs = "true".toList then some (.bool true)
  else if cs = "false".toList then some (.bool false)
  else readNumber? cs

/-- The value of a hexadecimal digit. -/
def hexValue? (c : Char) : Option Nat :=
  if '0' ≤ c ∧ c ≤ '9' then some (c.toNat - '0'.toNat)
  else if 'a' ≤ c ∧ c ≤ 'f' then some (c.toNat - 'a'.toNat + 10)
  else if 'A' ≤ c ∧ c ≤ 'F' then some (c.toNat - 'A'.toNat + 10)
  else none

/-- The character of a one-letter escape. -/
def escaped? (c : Char) : Option Char :=
  match c with
  | '"' => some '"'
  | '\\' => some '\\'
  | '/' => some '/'
  | 'b' => some '\x08'
  | 'f' => some '\x0c'
  | 'n' => some '\n'
  | 'r' => some '\r'
  | 't' => some '\t'
  | _ => none

/-- After four hexadecimal digits with value `n`. A first half of a surrogate pair asks for the
second; a second half alone is refused. -/
def endUnit? (seen : List Char) (high : Option Nat) (n : Nat) : Option Scan :=
  match high with
  | none =>
    if 0xD800 ≤ n ∧ n ≤ 0xDBFF then some (.secondHalf seen n false)
    else if 0xDC00 ≤ n ∧ n ≤ 0xDFFF then none
    else some (.quoted (Char.ofNat n :: seen))
  | some h =>
    if 0xDC00 ≤ n ∧ n ≤ 0xDFFF then
      some (.quoted (Char.ofNat (0x10000 + (h - 0xD800) * 0x400 + (n - 0xDC00)) :: seen))
    else none

namespace Scan

/-- Outside quotes and words. -/
def start? (c : Char) : Option (Scan × List Token) :=
  if isBlank c then some (.between, [])
  else if c = '"' then some (.quoted [], [])
  else match punctuation? c with
    | some t => some (.between, [t])
    | none => some (.word [c], [])

/-- The scanner after one character, and the tokens that it completes. -/
def step? : Scan → Char → Option (Scan × List Token)
  | .between, c => start? c
  | .word seen, c =>
    if isBlank c || c = '"' || (punctuation? c).isSome then
      (wordValue? seen.reverse).bind fun j =>
        (start? c).map fun (s, ts) => (s, .scalar j :: ts)
    else some (.word (c :: seen), [])
  | .quoted seen, c =>
    if c = '"' then some (.between, [.scalar (.string (String.ofList seen.reverse))])
    else if c = '\\' then some (.escape seen, [])
    else if c.toNat < 32 then none
    else some (.quoted (c :: seen), [])
  | .escape seen, c =>
    if c = 'u' then some (.unit seen none 0 0, [])
    else (escaped? c).map fun d => (.quoted (d :: seen), [])
  | .unit seen high count n, c =>
    (hexValue? c).bind fun d =>
      if count = 3 then (endUnit? seen high (16 * n + d)).map fun s => (s, [])
      else some (.unit seen high (count + 1) (16 * n + d), [])
  | .secondHalf seen high false, c =>
    if c = '\\' then some (.secondHalf seen high true, []) else none
  | .secondHalf seen high true, c =>
    if c = 'u' then some (.unit seen (some high) 0 0, []) else none

/-- The tokens of a text that the scanner enters in the given state. -/
def tokens? : Scan → List Char → Option (List Token)
  | .between, [] => some []
  | .word seen, [] => (wordValue? seen.reverse).map fun j => [.scalar j]
  | _, [] => none
  | s, c :: cs =>
    (step? s c).bind fun (s', ts) => (tokens? s' cs).map (ts ++ ·)

end Scan

/-! ### Trees -/

/-- A container that is open, with what it holds so far in reverse, and, in an object, the name of
the member that is being read. -/
inductive Frame where
  | array (items : List Json)
  | object (members : List (String × Json)) (name : String)

/-- What may follow. -/
inductive Expect where
  /-- A value. -/
  | value
  /-- The first item of an array, or its end. -/
  | firstItem
  /-- The name of a member. -/
  | name
  /-- The name of the first member of an object, or its end. -/
  | firstName
  /-- The colon after a name. -/
  | colon
  /-- A comma or the end of the innermost container. -/
  | separator
  /-- Nothing: the tree is complete. -/
  | nothing (tree : Json)

/-- The open containers, innermost first, and what may follow. -/
structure Build where
  stack : List Frame
  expect : Expect

namespace Build

/-- Most containers that may be open at a time. -/
def maxDepth : Nat := 127

/-- Puts a completed value into the innermost container. -/
def complete (j : Json) : List Frame → Build
  | [] => ⟨[], .nothing j⟩
  | .array items :: rest => ⟨.array (j :: items) :: rest, .separator⟩
  | .object members name :: rest => ⟨.object ((name, j) :: members) name :: rest, .separator⟩

/-- Opens a container. -/
def push? (frame : Frame) (expect : Expect) (stack : List Frame) : Option Build :=
  if stack.length < maxDepth then some ⟨frame :: stack, expect⟩ else none

/-- A token where a value may stand. -/
def value? (stack : List Frame) : Token → Option Build
  | .scalar j => some (complete j stack)
  | .openArray => push? (.array []) .firstItem stack
  | .openObject => push? (.object [] "") .firstName stack
  | _ => none

/-- The builder after one token. -/
def step? (b : Build) (t : Token) : Option Build :=
  match b.expect, t, b.stack with
  | .value, t, stack => value? stack t
  | .firstItem, .closeArray, .array items :: rest => some (complete (.array items.reverse) rest)
  | .firstItem, t, stack => value? stack t
  | .name, .scalar (.string s), .object members _ :: rest =>
    some ⟨.object members s :: rest, .colon⟩
  | .firstName, .scalar (.string s), .object members _ :: rest =>
    some ⟨.object members s :: rest, .colon⟩
  | .firstName, .closeObject, .object members _ :: rest =>
    some (complete (.object members.reverse) rest)
  | .colon, .colon, stack => some ⟨stack, .value⟩
  | .separator, .comma, .array items :: rest => some ⟨.array items :: rest, .value⟩
  | .separator, .comma, .object members name :: rest => some ⟨.object members name :: rest, .name⟩
  | .separator, .closeArray, .array items :: rest => some (complete (.array items.reverse) rest)
  | .separator, .closeObject, .object members _ :: rest =>
    some (complete (.object members.reverse) rest)
  | _, _, _ => none

/-- The tree that a list of tokens completes. -/
def run? : Build → List Token → Option Json
  | b, [] => match b.expect with
    | .nothing tree => some tree
    | _ => none
  | b, t :: ts => (step? b t).bind fun b' => run? b' ts

end Build

/-- Reads a text as one tree, as it is written. -/
def read? (text : String) : Option Json :=
  (Scan.tokens? .between text.toList).bind (Build.run? ⟨[], .value⟩)

end DocQuery.Json
