import DocQuery.Pattern.CharSet

/-!
# Reading sets of characters

Escapes and bracket expressions of regular expressions.

* `DocQuery.Flags` – the switches under which a pattern is read;
* `DocQuery.Escape`, `readEscape?` – what may follow a backslash;
* `DocQuery.readBracket?` – **a bracket expression**: characters, ranges, named classes, nested
  brackets, and the operators `&&`, `--` and `~~`, which bind alike and to the left.

A reader consumes a list of characters and returns what is left of it. Together with a set it
returns the depth to which it is nested, which is limited. An ill-formed pattern is refused without
a reason.
-/

namespace DocQuery

/-- The switches of a pattern. -/
structure Flags where
  ignoreCase : Bool
  multiLine : Bool
  dotAll : Bool
  swapGreed : Bool
  unicode : Bool
  carriageReturn : Bool
  /-- Blanks and comments are passed over. -/
  verbose : Bool
  deriving DecidableEq, Repr

/-- The switches at the start of a pattern. -/
def Flags.default : Flags := ⟨false, false, false, false, true, false, false⟩

namespace Pattern

/-- Drops the rest of a line and the line feed. -/
def skipLine (cs : List Char) : List Char := (cs.dropWhile fun c => c != '\n').drop 1

/-- Drops blanks and comments, in at most `fuel` steps. -/
def skipBlanksFrom : Nat → List Char → List Char
  | 0, cs => cs
  | fuel + 1, cs =>
    match cs.dropWhile isSpace with
    | '#' :: rest => skipBlanksFrom fuel (skipLine rest)
    | cs => cs

/-- Drops blanks and comments where they are passed over. -/
def skip (fs : Flags) (cs : List Char) : List Char :=
  if fs.verbose then skipBlanksFrom cs.length cs else cs

/-! ### Escapes -/

/-- What an escape stands for. -/
inductive Escape where
  /-- A character; the flag tells whether it was written as a byte of two hexadecimal digits. -/
  | char (c : Char) (byte : Bool)
  | set (k : CharClass) (negated : Bool) (perl : Bool)
  | textStart
  | textEnd
  | wordBoundary
  | notWordBoundary
  | wordStart
  | wordEnd
  | wordStartHalf
  | wordEndHalf

/-- Characters with a meaning of their own in patterns. -/
def isMeta (c : Char) : Bool := "\\.+*?()|[]\x7b\x7d^$#&-~".toList.contains c

/-- Characters that a backslash leaves as they are. -/
def isEscapable (c : Char) : Bool :=
  isMeta c || (c.toNat < 128 && !c.isAlphanum && c != '<' && c != '>')

/-- The value of a hexadecimal digit. -/
def hexValue? (c : Char) : Option Nat :=
  if c.isDigit then some (c.toNat - '0'.toNat)
  else if 'a' ≤ c ∧ c ≤ 'f' then some (c.toNat - 'a'.toNat + 10)
  else if 'A' ≤ c ∧ c ≤ 'F' then some (c.toNat - 'A'.toNat + 10)
  else none

/-- The character of a list of hexadecimal digits. -/
def hexChar? (digits : List Char) : Option Char := do
  let ds ← digits.mapM hexValue?
  let n := ds.foldl (fun n d => 16 * n + d) 0
  if n.isValidChar then some (Char.ofNat n) else none

/-- Reads exactly `n` hexadecimal digits. -/
def readHexDigits? (fs : Flags) : Nat → List Char → List Char → Option (List Char × List Char)
  | 0, seen, cs => some (seen.reverse, cs)
  | n + 1, seen, cs =>
    match skip fs cs with
    | c :: rest => if (hexValue? c).isSome then readHexDigits? fs n (c :: seen) rest else none
    | [] => none

/-- Reads a character in hexadecimal, in braces or with a fixed number of digits. -/
def readHex? (fs : Flags) (size : Nat) (cs : List Char) : Option (Escape × List Char) :=
  match skip fs cs with
  | '\x7b' :: rest =>
    let body := rest.takeWhile fun c => c != '\x7d'
    match rest.dropWhile fun c => c != '\x7d' with
    | _ :: rest =>
      let digits := if fs.verbose then body.filter fun c => !isSpace c else body
      if digits.isEmpty then none else (hexChar? digits).map fun c => (.char c false, rest)
    | [] => none
  | cs => do
    let (digits, rest) ← readHexDigits? fs size [] cs
    let c ← hexChar? digits
    return (.char c (size = 2), rest)

/-- A name without case, blanks, hyphens and underscores. -/
def looseName (cs : List Char) : List Char :=
  (lowerAscii cs).filter fun c => !(isSpace c || c = '-' || c = '_')

/-- Names of groups of categories. -/
def categoryGroups : List (String × String) :=
  [("Letter", "L"), ("Mark", "M"), ("Combining_Mark", "M"), ("Number", "N"), ("Punctuation", "P"),
    ("Punct", "P"), ("Symbol", "S"), ("Separator", "Z"), ("Other", "C"), ("L", "L"), ("M", "M"),
    ("N", "N"), ("P", "P"), ("S", "S"), ("Z", "Z"), ("C", "C"), ("Cntrl", "Cc"), ("Digit", "Nd")]

/-- The category class of a loose name. -/
def categoryClass? (name : List Char) : Option CharClass :=
  let entries := categoryGroups ++ Category.all.flatMap fun k =>
    [(k.abbreviation, k.abbreviation), (k.longName, k.abbreviation)]
  (entries.find? fun e => looseName e.1.toList = name).map fun e => .category e.2

/-- The script class of a loose name. -/
def scriptClass? (name : List Char) : Option CharClass :=
  (scriptRanges.find? fun e => looseName e.1.toList = name).map fun e => .script e.1

/-- Classes that are neither categories nor scripts. -/
def plainClasses : List (String × CharClass) :=
  [("any", .any), ("ascii", .ascii), ("assigned", .assigned), ("alphabetic", .alphabetic),
    ("alpha", .alphabetic), ("lowercase", .lowercase), ("lower", .lowercase),
    ("uppercase", .uppercase), ("upper", .uppercase), ("whitespace", .space), ("wspace", .space),
    ("space", .space), ("cased", .cased), ("caseignorable", .caseIgnorable),
    ("ci", .caseIgnorable)]

/-- The class of a property name, which may begin with `is`. -/
def propertyClass? (cs : List Char) : Option CharClass :=
  let name := looseName cs
  let name := match name with
    | 'i' :: 's' :: rest => if rest.isEmpty then name else rest
    | _ => name
  ((plainClasses.find? fun e => e.1.toList = name).map Prod.snd).or
    ((categoryClass? name).or (scriptClass? name))

/-- The class of a property and its value. -/
def valueClass? (property value : List Char) : Option CharClass :=
  let property := looseName property
  let value := looseName value
  if property = "gc".toList || property = "generalcategory".toList then categoryClass? value
  else if property = "sc".toList || property = "script".toList then scriptClass? value
  else none

/-- Reads the name of a class after `\p` or `\P`. -/
def readProperty? (fs : Flags) (negated : Bool) (cs : List Char) : Option (Escape × List Char) :=
  match skip fs cs with
  | '\x7b' :: rest =>
    let body := rest.takeWhile fun c => c != '\x7d'
    match rest.dropWhile fun c => c != '\x7d' with
    | [] => none
    | _ :: rest =>
      let key := body.takeWhile fun c => c != '=' && c != ':'
      match body.drop key.length with
      | [] => (propertyClass? body).map fun k => (.set k negated false, rest)
      | sep :: value =>
        if sep = '=' && key.getLast? == some '!' then
          (valueClass? key.dropLast value).map fun k => (.set k (!negated) false, rest)
        else (valueClass? key value).map fun k => (.set k negated false, rest)
  | c :: rest => (propertyClass? [c]).map fun k => (.set k negated false, rest)
  | [] => none

/-- Characters in the name of a word boundary. -/
def isBoundaryChar (c : Char) : Bool := c.isAlpha || c = '-'

/-- Reads what may follow `\b`: the name of a special word boundary in braces. Braces that hold no
name are left to be read as a repetition. -/
def readBoundary? (fs : Flags) (cs : List Char) : Option (Escape × List Char) :=
  match cs with
  | '\x7b' :: rest =>
    match skip fs rest with
    | [] => none
    | c :: rest =>
      if !isBoundaryChar c then some (.wordBoundary, cs)
      else
        let body := (c :: rest).takeWhile fun c => c != '\x7d'
        let name := if fs.verbose then body.filter fun c => !isSpace c else body
        match (c :: rest).drop body.length with
        | [] => none
        | _ :: after =>
          if name = "start".toList then some (.wordStart, after)
          else if name = "end".toList then some (.wordEnd, after)
          else if name = "start-half".toList then some (.wordStartHalf, after)
          else if name = "end-half".toList then some (.wordEndHalf, after)
          else none
  | _ => some (.wordBoundary, cs)

/-- Reads what follows a backslash. -/
def readEscape? (fs : Flags) : List Char → Option (Escape × List Char)
  | [] => none
  | c :: rest =>
    if c.isDigit then none
    else if c = 'x' then readHex? fs 2 rest
    else if c = 'u' then readHex? fs 4 rest
    else if c = 'U' then readHex? fs 8 rest
    else if c = 'p' then readProperty? fs false rest
    else if c = 'P' then readProperty? fs true rest
    else if c = 'd' then some (.set .digit false true, rest)
    else if c = 'D' then some (.set .digit true true, rest)
    else if c = 's' then some (.set .space false true, rest)
    else if c = 'S' then some (.set .space true true, rest)
    else if c = 'w' then some (.set .word false true, rest)
    else if c = 'W' then some (.set .word true true, rest)
    else if isEscapable c then some (.char c false, rest)
    else match c with
      | 'a' => some (.char '\x07' false, rest)
      | 'f' => some (.char '\x0c' false, rest)
      | 't' => some (.char '\t' false, rest)
      | 'n' => some (.char '\n' false, rest)
      | 'r' => some (.char '\r' false, rest)
      | 'v' => some (.char '\x0b' false, rest)
      | 'A' => some (.textStart, rest)
      | 'z' => some (.textEnd, rest)
      | 'b' => readBoundary? fs rest
      | 'B' => some (.notWordBoundary, rest)
      | '<' => some (.wordStart, rest)
      | '>' => some (.wordEnd, rest)
      | _ => none

/-! ### Sets -/

/-- Ranges of the classes that are written as `[:name:]`. -/
def asciiClass? (name : List Char) : Option CharSet :=
  let ranges (rs : List (Char × Char)) : CharSet :=
    CharSet.unions (rs.map fun r => .range r.1 r.2)
  match String.ofList name with
  | "alnum" => some (ranges [('0', '9'), ('A', 'Z'), ('a', 'z')])
  | "alpha" => some (ranges [('A', 'Z'), ('a', 'z')])
  | "ascii" => some (ranges [('\x00', '\x7f')])
  | "blank" => some (ranges [('\t', '\t'), (' ', ' ')])
  | "cntrl" => some (ranges [('\x00', '\x1f'), ('\x7f', '\x7f')])
  | "digit" => some (ranges [('0', '9')])
  | "graph" => some (ranges [('!', '~')])
  | "lower" => some (ranges [('a', 'z')])
  | "print" => some (ranges [(' ', '~')])
  | "punct" => some (ranges [('!', '/'), (':', '@'), ('[', '\x60'), ('\x7b', '~')])
  | "space" => some (ranges [('\t', '\r'), (' ', ' ')])
  | "upper" => some (ranges [('A', 'Z')])
  | "word" => some (ranges [('0', '9'), ('A', 'Z'), ('_', '_'), ('a', 'z')])
  | "xdigit" => some (ranges [('0', '9'), ('A', 'F'), ('a', 'f')])
  | _ => none

/-- The ASCII part of a class that can be named by one letter. -/
def asciiPart (k : CharClass) : CharSet :=
  match k with
  | .digit => (asciiClass? "digit".toList).getD .empty
  | .space => .union (.range '\t' '\r') (.single ' ')
  | _ => (asciiClass? "word".toList).getD .empty

/-- The set holds no byte above ASCII. -/
def isAscii (s : CharSet) : Bool :=
  (List.range 128).all fun n => !s.contains (Char.ofNat (128 + n))

/-- Closes a set under case and complements it, as asked for. Without Unicode the result may not
reach beyond ASCII. -/
def finish? (fs : Flags) (negated : Bool) (s : CharSet) : Option CharSet :=
  let s := (s.foldIf fs.ignoreCase).complIf negated
  if fs.unicode then some s
  else if isAscii s then some (.inter s (.named .ascii)) else none

/-- The set of a class escape. -/
def classSet? (fs : Flags) (k : CharClass) (negated perl : Bool) : Option CharSet :=
  if fs.unicode then
    let s := CharSet.named k
    some ((if perl then s else s.foldIf fs.ignoreCase).complIf negated)
  else if perl && !negated then some (asciiPart k)
  else none

/-- The character that stands for an end of a range, if Unicode allows it there. -/
def endpoint? (fs : Flags) (c : Char) (byte : Bool) : Option Char :=
  if fs.unicode || c.toNat < 128 || byte then some c else none

/-- An operator between sets. -/
inductive SetOp where
  | inter
  | diff
  | xor

def SetOp.apply : SetOp → CharSet → CharSet → CharSet
  | .inter, a, b => .inter a b
  | .diff, a, b => .diff a b
  | .xor, a, b => .xor a b

/-- A part of a bracket expression with the depth to which it is nested. -/
structure Part where
  set : CharSet
  depth : Nat

/-- The union of parts, given in reverse. -/
def unionPart (parts : List Part) : Part :=
  match parts with
  | [] => ⟨.empty, 0⟩
  | [p] => p
  | ps => ⟨CharSet.unions (ps.reverse.map Part.set), ps.foldl (fun n p => max n p.depth) 0 + 1⟩

/-- Applies a pending operator to its right-hand side. -/
def applyPending (fs : Flags) (pending : Option (SetOp × Part)) (rhs : Part) : Part :=
  match pending with
  | none => rhs
  | some (op, lhs) =>
    ⟨op.apply (lhs.set.foldIf fs.ignoreCase) (rhs.set.foldIf fs.ignoreCase),
      max lhs.depth rhs.depth + 1⟩

/-- Reads a class that is written as `[:name:]`, from after the bracket. -/
def readAsciiClass? (fs : Flags) : List Char → Option (CharSet × List Char)
  | ':' :: cs =>
    let (negated, cs) := match cs with
      | '^' :: rest => (true, rest)
      | cs => (false, cs)
    let name := cs.takeWhile fun c => c != ':'
    match cs.dropWhile fun c => c != ':' with
    | ':' :: ']' :: rest =>
      (asciiClass? name).bind fun s => (finish? fs negated s).map fun s => (s, rest)
    | _ => none
  | _ => none

/-- A single element of a bracket expression. -/
inductive Element where
  | char (c : Char)
  | set (s : CharSet)

/-- Reads a character or an escape. -/
def readElement? (fs : Flags) : List Char → Option (Element × List Char)
  | [] => none
  | '\\' :: cs => do
    let (e, rest) ← readEscape? fs cs
    match e with
    | .char c byte => (endpoint? fs c byte).map fun c => (.char c, rest)
    | .set k negated perl => (classSet? fs k negated perl).map fun s => (.set s, rest)
    | _ => none
  | c :: cs => (endpoint? fs c false).map fun c => (.char c, cs)

/-- Reads an element, or a range if a hyphen follows that is not the last character and not the
operator `--`. -/
def readRange? (fs : Flags) (cs : List Char) : Option (CharSet × List Char) := do
  let (lo, rest) ← readElement? fs cs
  let rest := skip fs rest
  let single : CharSet := match lo with
    | .char c => .single c
    | .set s => s
  match rest with
  | [] => none
  | '-' :: after =>
    match skip fs after with
    | [] => none
    | next :: _ =>
      if next = ']' || next = '-' then some (single, rest)
      else do
        let (hi, rest) ← readElement? fs (skip fs after)
        match lo, hi with
        | .char lo, .char hi => if lo ≤ hi then some (.range lo hi, rest) else none
        | _, _ => none
  | rest => some (single, rest)

/-- The start of a bracket expression, from after the bracket: a sign of complement, hyphens, and,
if none of those, a closing bracket that stands for itself. Returns the complement, the characters
in reverse, and the rest. -/
def readOpening (fs : Flags) (cs : List Char) : Bool × List Part × List Char :=
  let (negated, cs) := match skip fs cs with
    | '^' :: rest => (true, skip fs rest)
    | cs => (false, cs)
  let hyphens := cs.takeWhile fun c => c = '-'
  let cs := skip fs (cs.dropWhile fun c => c = '-')
  let parts : List Part := hyphens.map fun c => ⟨.single c, 0⟩
  match parts, cs with
  | [], ']' :: rest => (negated, [⟨.single ']', 0⟩], skip fs rest)
  | parts, cs => (negated, parts, cs)

mutual

/-- Reads a bracket expression from after its bracket, in at most `fuel` steps. -/
def readBracketFrom? (fs : Flags) : Nat → List Char → Option (Part × List Char)
  | 0, _ => none
  | fuel + 1, cs => do
    let (negated, parts, cs) := readOpening fs cs
    let (part, rest) ← readParts? fs fuel parts none cs
    let s ← finish? fs negated part.set
    return (⟨s, part.depth + 1⟩, rest)

/-- Reads the parts of a bracket expression up to and with its closing bracket. -/
def readParts? (fs : Flags) :
    Nat → List Part → Option (SetOp × Part) → List Char → Option (Part × List Char)
  | 0, _, _, _ => none
  | fuel + 1, parts, pending, cs =>
    let operator (op : SetOp) (rest : List Char) : Option (Part × List Char) :=
      readParts? fs fuel [] (some (op, applyPending fs pending (unionPart parts))) rest
    match skip fs cs with
    | [] => none
    | ']' :: rest => some (applyPending fs pending (unionPart parts), rest)
    | '[' :: rest =>
      match readAsciiClass? fs rest with
      | some (s, rest) => readParts? fs fuel (⟨s, 0⟩ :: parts) pending rest
      | none => do
        let (part, rest) ← readBracketFrom? fs fuel rest
        readParts? fs fuel (part :: parts) pending rest
    | '&' :: '&' :: rest => operator .inter rest
    | '-' :: '-' :: rest => operator .diff rest
    | '~' :: '~' :: rest => operator .xor rest
    | cs => do
      let (s, rest) ← readRange? fs cs
      readParts? fs fuel (⟨s, 0⟩ :: parts) pending rest

end

/-- **Reads a bracket expression** from after its bracket. -/
def readBracket? (fs : Flags) (cs : List Char) : Option (Part × List Char) :=
  readBracketFrom? fs (cs.length + 1) cs

end Pattern

end DocQuery
