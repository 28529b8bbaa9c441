import DocQuery.Numeric.Digits
import DocQuery.Pattern.CharSetReader
import DocQuery.Pattern.Regex

/-!
# Reading regular expressions

A pattern is read from left to right with a stack of open groups. Switches such as `(?i)` hold to
the end of their group.

* `Pattern.Reader` – the state of the reading: the open groups, the switches, the names of groups;
* `Pattern.step?` – reads one item;
* `Regex.read?` – **reads a pattern**. It is refused when it is ill-formed, nested more than 250
  levels deep, or too large when repetitions are written out.
-/

namespace DocQuery.Pattern

/-- An item of a sequence: an expression with the depth to which it is nested, or a change of
switches. -/
inductive Item where
  | expr (r : Regex) (depth : Nat)
  | switches

/-- A group that is being read: the switches outside of it, its finished branches and the items of
the current one, both in reverse. -/
structure Level where
  outer : Flags
  branches : List (Regex × Nat)
  items : List Item

/-- The state of a reading. The innermost group is `level`; the whole pattern counts as one. -/
structure Reader where
  level : Level
  stack : List Level
  flags : Flags
  names : List (List Char)

namespace Reader

/-- The start of a reading. -/
def start : Reader := ⟨⟨.default, [], []⟩, [], .default, []⟩

/-- Appends an item. -/
def push (r : Reader) (item : Item) : Reader :=
  { r with level := { r.level with items := item :: r.level.items } }

/-- Appends an expression that is not nested. -/
def leaf (r : Reader) (e : Regex) : Reader := r.push (.expr e 0)

end Reader

/-- The expressions of items, without changes of switches. -/
def Item.expr? : Item → Option (Regex × Nat)
  | .expr r depth => some (r, depth)
  | .switches => none

/-- A sequence of items, given in reverse. -/
def sequence (items : List Item) : Regex × Nat :=
  let es := items.filterMap Item.expr?
  let depth := es.foldl (fun n e => max n e.2) 0
  let r := match es.map Prod.fst with
    | [] => .empty
    | last :: rest => rest.foldl (fun r e => .seq e r) last
  (r, if items.length ≤ 1 then depth else depth + 1)

/-- The expression of a group that ends. -/
def Level.close (l : Level) : Regex × Nat :=
  let last := sequence l.items
  match l.branches with
  | [] => last
  | bs =>
    (bs.foldl (fun r b => .alt b.1 r) last.1,
      bs.foldl (fun n b => max n b.2) last.2 + 1)

/-! ### Groups -/

/-- Sets one switch. -/
def setFlag? (c : Char) (on : Bool) (fs : Flags) : Option Flags :=
  match c with
  | 'i' => some { fs with ignoreCase := on }
  | 'm' => some { fs with multiLine := on }
  | 's' => some { fs with dotAll := on }
  | 'U' => some { fs with swapGreed := on }
  | 'u' => some { fs with unicode := on }
  | 'R' => some { fs with carriageReturn := on }
  | 'x' => some { fs with verbose := on }
  | _ => none

/-- Reads switches up to a colon or a closing parenthesis. `seen` are the characters read so far;
none may repeat. Returns the switches, whether any were named, whether a colon ended them, and the
rest. -/
def readFlags? (on : Bool) (seen : List Char) (fs : Flags) :
    List Char → Option (Flags × Bool × Bool × List Char)
  | [] => none
  | c :: rest =>
    if c = ':' || c = ')' then
      if seen.head? == some '-' then none else some (fs, !seen.isEmpty, c = ':', rest)
    else if seen.contains c then none
    else if c = '-' then readFlags? false ('-' :: seen) fs rest
    else (setFlag? c on fs).bind fun fs => readFlags? on (c :: seen) fs rest

/-- Characters in the name of a group. -/
def isNameChar (first : Bool) (c : Char) : Bool :=
  c = '_' || (if first then isAlphabetic c
    else isAlphanumeric c || c = '.' || c = '[' || c = ']')

/-- Reads the name of a group and the closing angle bracket. -/
def readName? (names : List (List Char)) (cs : List Char) : Option (List Char × List Char) :=
  let name := cs.takeWhile fun c => c != '>'
  match name, cs.drop name.length with
  | first :: more, _ :: rest =>
    if isNameChar true first && more.all (isNameChar false) && !names.contains name then
      some (name, rest)
    else none
  | _, _ => none

/-- Opens a group. The switches inside of it are given. -/
def Reader.openGroup (r : Reader) (inner : Flags) : Reader :=
  { r with level := ⟨r.flags, [], []⟩, stack := r.level :: r.stack, flags := inner }

/-- Reads what follows an opening parenthesis. Groups that look around are refused. -/
def readGroup? (r : Reader) (cs : List Char) : Option (Reader × List Char) :=
  match skip r.flags cs with
  | '?' :: 'P' :: '<' :: rest =>
    (readName? r.names rest).map fun (name, rest) =>
      ({ r.openGroup r.flags with names := name :: r.names }, rest)
  | '?' :: '<' :: rest =>
    match rest with
    | '=' :: _ | '!' :: _ => none
    | rest =>
      (readName? r.names rest).map fun (name, rest) =>
        ({ r.openGroup r.flags with names := name :: r.names }, rest)
  | '?' :: rest =>
    match readFlags? true [] r.flags rest with
    | some (fs, named, colon, rest) =>
      if colon then some (r.openGroup fs, rest)
      else if named then some ({ r.push .switches with flags := fs }, rest)
      else none
    | none => none
  | rest => some (r.openGroup r.flags, rest)

/-- Ends the innermost group. -/
def Reader.closeGroup? (r : Reader) : Option Reader :=
  match r.stack with
  | [] => none
  | outer :: stack =>
    let (e, depth) := r.level.close
    some (Reader.push ⟨outer, stack, r.level.outer, r.names⟩ (.expr e (depth + 1)))

/-- Ends the current branch of the innermost group. -/
def Reader.branch (r : Reader) : Reader :=
  { r with level := ⟨r.level.outer, sequence r.level.items :: r.level.branches, []⟩ }

/-! ### Repetition -/

/-- Repeats the last item, which has to be an expression. -/
def Reader.repeatLast? (r : Reader) (min : Nat) (max : Option Nat) : Option Reader :=
  match r.level.items with
  | .expr e depth :: items =>
    some { r with level := { r.level with items := .expr (e.times min max) (depth + 1) :: items } }
  | _ => none

/-- Drops the mark of a lazy repetition. -/
def dropLazy (cs : List Char) : List Char :=
  match cs with
  | '?' :: rest => rest
  | cs => cs

/-- Reads a number of 32 bits between blanks; the flag tells whether there were digits. -/
def readCount? (cs : List Char) : Option (Option Nat × List Char) :=
  let cs := trimStart cs
  let digits := cs.takeWhile Char.isDigit
  let rest := trimStart (cs.drop digits.length)
  if digits.isEmpty then some (none, rest)
  else
    let n := digitsValue digits
    if n < 2 ^ 32 then some (some n, rest) else none

/-- Reads bounds in braces, from after the opening brace. -/
def readBounds? (fs : Flags) (cs : List Char) : Option (Nat × Option Nat × List Char) := do
  let (min, rest) ← readCount? (skip fs cs)
  let (min, max, rest) ← match rest with
    | ',' :: rest =>
      match skip fs rest with
      | '\x7d' :: rest => min.map fun n => (n, none, '\x7d' :: rest)
      | rest => do
        let n ← min
        let (max, rest) ← readCount? rest
        let m ← max
        some (n, some m, rest)
    | rest => min.map fun n => (n, some n, rest)
  match rest with
  | '\x7d' :: rest =>
    if max.all fun m => min ≤ m then some (min, max, rest) else none
  | _ => none

/-! ### The whole pattern -/

/-- The set of a character that stands for itself. -/
def charRegex? (fs : Flags) (c : Char) (byte : Bool) : Option Regex :=
  if fs.unicode then some (.set ((CharSet.single c).foldIf fs.ignoreCase))
  else if c.toNat < 128 then
    some (.set (if fs.ignoreCase then .inter (CharSet.single c).fold (.named .ascii)
      else .single c))
  else if byte || fs.ignoreCase then none
  else some (.set (.single c))

/-- The expression of an escape. -/
def escapeRegex? (fs : Flags) : Escape → Option Regex
  | .char c byte => charRegex? fs c byte
  | .set k negated perl => (classSet? fs k negated perl).map .set
  | .textStart => some (.anchor .textStart)
  | .textEnd => some (.anchor .textEnd)
  | .wordBoundary => some (.anchor (.wordBoundary (!fs.unicode)))
  | .notWordBoundary => some (.anchor (.notWordBoundary (!fs.unicode)))
  | .wordStart => some (.anchor (.wordStart (!fs.unicode)))
  | .wordEnd => some (.anchor (.wordEnd (!fs.unicode)))
  | .wordStartHalf => some (.anchor (.wordStartHalf (!fs.unicode)))
  | .wordEndHalf => some (.anchor (.wordEndHalf (!fs.unicode)))

/-- The characters that a dot stands for. -/
def dotSet (fs : Flags) : CharSet :=
  if fs.dotAll then .all
  else if fs.carriageReturn then .compl (.union (.single '\n') (.single '\r'))
  else .compl (.single '\n')

/-- The condition of a caret. -/
def caret (fs : Flags) : Anchor :=
  if !fs.multiLine then .textStart else if fs.carriageReturn then .lineStartCR else .lineStart

/-- The condition of a dollar sign. -/
def dollar (fs : Flags) : Anchor :=
  if !fs.multiLine then .textEnd else if fs.carriageReturn then .lineEndCR else .lineEnd

/-- Reads one item. -/
def step? (r : Reader) (c : Char) (rest : List Char) : Option (Reader × List Char) :=
  let fs := r.flags
  match c with
  | '(' => readGroup? r rest
  | ')' => r.closeGroup?.map fun r => (r, rest)
  | '|' => some (r.branch, rest)
  | '[' => (readBracket? fs rest).map fun (part, rest) =>
    (r.push (.expr (.set part.set) part.depth), rest)
  | '?' => (r.repeatLast? 0 (some 1)).map fun r => (r, dropLazy rest)
  | '*' => (r.repeatLast? 0 none).map fun r => (r, dropLazy rest)
  | '+' => (r.repeatLast? 1 none).map fun r => (r, dropLazy rest)
  | '\x7b' => do
    let (min, max, rest) ← readBounds? fs rest
    let r ← r.repeatLast? min max
    return (r, dropLazy (skip fs rest))
  | '\\' => do
    let (e, rest) ← readEscape? fs rest
    let e ← escapeRegex? fs e
    return (r.leaf e, rest)
  | '.' => if fs.unicode then some (r.leaf (.set (dotSet fs)), rest) else none
  | '^' => some (r.leaf (.anchor (caret fs)), rest)
  | '$' => some (r.leaf (.anchor (dollar fs)), rest)
  | c => (charRegex? fs c false).map fun e => (r.leaf e, rest)

/-- Reads all items, at most `fuel` of them. -/
def run? : Nat → Reader → List Char → Option Reader
  | 0, _, _ => none
  | fuel + 1, r, cs =>
    match skip r.flags cs with
    | [] => some r
    | c :: rest => (step? r c rest).bind fun (r, rest) => run? fuel r rest

/-- The deepest nesting that is accepted. -/
def maxDepth : Nat := 250

end DocQuery.Pattern

namespace DocQuery.Regex

/-- **Reads a pattern.** -/
def read? (pattern : List Char) : Option Regex := do
  let r ← Pattern.run? (pattern.length + 1) .start pattern
  if !r.stack.isEmpty then none
  else
    let (e, depth) := r.level.close
    if depth ≤ Pattern.maxDepth && e.weight ≤ maxWeight then some e else none

end DocQuery.Regex
