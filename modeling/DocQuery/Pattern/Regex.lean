import DocQuery.Pattern.CharSet

/-!
# Regular expressions

* `DocQuery.Regex` – the expressions, over sets of characters and conditions on a position;
* `Regex.advance` – **the matcher**: from a set of positions in a text to the positions that a match
  from one of them can end at. Repetition is iterated until nothing new is reached, so that every
  match takes polynomial time;
* `Regex.isMatch` – whether an expression matches anywhere in a text;
* `Regex.weight` – an estimate of the room an expression takes, which is limited.
-/

namespace DocQuery

/-- A condition on a position. -/
inductive Anchor where
  | textStart
  | textEnd
  /-- After a line feed, or at the start. -/
  | lineStart
  | lineEnd
  /-- The same where a carriage return may end a line. -/
  | lineStartCR
  | lineEndCR
  | wordBoundary (ascii : Bool)
  | notWordBoundary (ascii : Bool)
  | wordStart (ascii : Bool)
  | wordEnd (ascii : Bool)
  /-- No word character in front. -/
  | wordStartHalf (ascii : Bool)
  /-- No word character behind. -/
  | wordEndHalf (ascii : Bool)
  deriving DecidableEq, Repr

namespace Anchor

/-- Characters of words, in all scripts or in ASCII. -/
def isWord (ascii : Bool) (c : Char) : Bool :=
  if ascii then c.isAlphanum || c = '_' else isWordChar c

/-- The condition holds between the character in front and the character behind. -/
def holds : Anchor → Option Char → Option Char → Bool
  | .textStart, before, _ => before.isNone
  | .textEnd, _, after => after.isNone
  | .lineStart, before, _ => before.isNone || before == some '\n'
  | .lineEnd, _, after => after.isNone || after == some '\n'
  | .lineStartCR, before, after =>
    before.isNone || before == some '\n' || (before == some '\r' && after != some '\n')
  | .lineEndCR, before, after =>
    after.isNone || after == some '\r' || (after == some '\n' && before != some '\r')
  | .wordBoundary ascii, before, after => before.any (isWord ascii) != after.any (isWord ascii)
  | .notWordBoundary ascii, before, after => before.any (isWord ascii) == after.any (isWord ascii)
  | .wordStart ascii, before, after => !before.any (isWord ascii) && after.any (isWord ascii)
  | .wordEnd ascii, before, after => before.any (isWord ascii) && !after.any (isWord ascii)
  | .wordStartHalf ascii, before, _ => !before.any (isWord ascii)
  | .wordEndHalf ascii, _, after => !after.any (isWord ascii)

end Anchor

/-- A regular expression. -/
inductive Regex where
  | empty
  | set (s : CharSet)
  | anchor (a : Anchor)
  | seq (a b : Regex)
  | alt (a b : Regex)
  /-- At least `min` and at most `max` times. -/
  | rep (a : Regex) (min : Nat) (max : Option Nat)

namespace Regex

/-- The expression matches nothing but empty texts. -/
def isWidthless : Regex → Bool
  | .empty => true
  | .set _ => false
  | .anchor _ => true
  | .seq a b | .alt a b => a.isWidthless && b.isWidthless
  | .rep a _ _ => a.isWidthless

/-- A repetition; of an expression without width once is as good as more often. -/
def times (a : Regex) (min : Nat) (max : Option Nat) : Regex :=
  if a.isWidthless then .rep a (Nat.min min 1) (some (Nat.min (max.getD 1) 1)) else .rep a min max

/-- Applies a function `n` times, or until nothing is left. -/
def iterate (step : List Nat → List Nat) : Nat → List Nat → List Nat
  | 0, ps => ps
  | n + 1, ps => if ps.isEmpty then [] else iterate step n (step ps)

/-- All that is reached from `frontier` in at most `n` steps, together with `seen`. -/
def closure (step : List Nat → List Nat) : Nat → List Nat → List Nat → List Nat
  | 0, seen, _ => seen
  | n + 1, seen, frontier =>
    let new := (step frontier).filter fun p => !seen.contains p
    if new.isEmpty then seen else closure step n (seen ++ new) new

/-- The character in front of a position. -/
def before (text : Array Char) (p : Nat) : Option Char := if p = 0 then none else text[p - 1]?

/-- **The matcher**: where a match that begins at one of the positions can end. -/
def advance (text : Array Char) : Regex → List Nat → List Nat
  | .empty, ps => ps
  | .set s, ps => ps.filterMap fun p => if (text[p]?).any s.contains then some (p + 1) else none
  | .anchor a, ps => ps.filter fun p => a.holds (before text p) text[p]?
  | .seq a b, ps => advance text b (advance text a ps)
  | .alt a b, ps => (advance text a ps ++ advance text b ps).eraseDups
  | .rep a min max, ps =>
    let step := fun qs => (advance text a qs).eraseDups
    let ps := iterate step min ps
    let rounds := match max with
      | some n => Nat.min (n - min) (text.size + 1)
      | none => text.size + 1
    closure step rounds ps ps

/-- The expression matches somewhere in the text. -/
def isMatch (r : Regex) (text : List Char) : Bool :=
  !(advance text.toArray r (List.range (text.length + 1))).isEmpty

/-- An estimate of the states that an expression takes when every repetition is written out. -/
def weight : Regex → Nat
  | .empty => 1
  | .set s => s.weight
  | .anchor _ => 1
  | .seq a b => a.weight + b.weight
  | .alt a b => a.weight + b.weight + 1
  | .rep a min max =>
    match max with
    | some n => Nat.max 1 (n * a.weight + (n - min))
    | none => Nat.max 1 min * a.weight + 1

/-- The most states that an expression may take: ten mebibytes at 32 bytes each. -/
def maxWeight : Nat := 10 * 2 ^ 20 / 32

end Regex

end DocQuery
