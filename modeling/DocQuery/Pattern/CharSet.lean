import DocQuery.Text.Case
import DocQuery.Text.Script
import DocQuery.Text.Basic

/-!
# Sets of characters

The bracket expressions and named classes of patterns, as terms of which only the membership is
asked.

* `DocQuery.CharSet` – the sets;
* `CharSet.contains` – membership;
* `CharSet.fold` – closure under case: everything that folds like a member;
* `CharSet.weight` – how much room a set takes in a compiled pattern.
-/

namespace DocQuery

/-- A class of characters with a name. -/
inductive CharClass where
  | any
  | ascii
  | assigned
  /-- Categories whose abbreviation begins with the given one. -/
  | category (abbreviation : String)
  | script (name : String)
  | alphabetic
  | lowercase
  | uppercase
  | cased
  | caseIgnorable
  | digit
  | space
  | word
  deriving DecidableEq, Repr

namespace CharClass

def contains : CharClass → Char → Bool
  | .any, _ => true
  | .ascii, c => c.toNat < 128
  | .assigned, c => DocQuery.category c ≠ .unassigned
  | .category a, c => a.toList.isPrefixOf (DocQuery.category c).abbreviation.toList
  | .script name, c => isOfScript name c
  | .alphabetic, c => isAlphabetic c
  | .lowercase, c => isLowercase c
  | .uppercase, c => isUppercase c
  | .cased, c => isCased c
  | .caseIgnorable, c => isCaseIgnorable c
  | .digit, c => isDecimalDigit c
  | .space, c => isSpace c
  | .word, c => isWordChar c

end CharClass

/-- A set of characters. -/
inductive CharSet where
  | empty
  | range (lo hi : Char)
  | named (k : CharClass)
  | union (a b : CharSet)
  | inter (a b : CharSet)
  | diff (a b : CharSet)
  | xor (a b : CharSet)
  | compl (a : CharSet)
  /-- Everything that folds like a member. -/
  | fold (a : CharSet)

namespace CharSet

/-- The set of one character. -/
def single (c : Char) : CharSet := range c c

/-- The set of all characters. -/
def all : CharSet := compl empty

/-- The union of a list. -/
def unions (sets : List CharSet) : CharSet := sets.foldl union empty

/-- Membership. -/
def contains : CharSet → Char → Bool
  | .empty, _ => false
  | .range lo hi, c => lo ≤ c && c ≤ hi
  | .named k, c => k.contains c
  | .union a b, c => a.contains c || b.contains c
  | .inter a b, c => a.contains c && b.contains c
  | .diff a b, c => a.contains c && !b.contains c
  | .xor a b, c => a.contains c != b.contains c
  | .compl a, c => !a.contains c
  | .fold a, c => (caseVariants c).any a.contains

/-- Closure under case if asked for. -/
def foldIf (ignoreCase : Bool) (a : CharSet) : CharSet := if ignoreCase then a.fold else a

/-- The complement if asked for. -/
def complIf (negated : Bool) (a : CharSet) : CharSet := if negated then a.compl else a

/-- An estimate of the states that a set takes in a compiled pattern. -/
def weight : CharSet → Nat
  | .empty => 1
  | .range _ hi => if hi.toNat < 128 then 1 else 4
  | .named .digit => 100
  | .named .space => 12
  | .named .any => 8
  | .named .ascii => 1
  | .named _ => 600
  | .union a b | .inter a b | .diff a b | .xor a b => max a.weight b.weight
  | .compl a => a.weight + 8
  | .fold a => a.weight + 1

end CharSet

end DocQuery
