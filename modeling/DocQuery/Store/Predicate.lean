import DocQuery.Document.Basic
import DocQuery.Filter.Wire
import DocQuery.Pattern.Glob
import DocQuery.Pattern.RegexReader

/-!
# Filters as predicates on documents

* `DocQuery.Matcher` – the pattern of a condition, read and ready to match;
* `DocQuery.Predicate` – a filter whose patterns are read; `Predicate.ofFilter` fails at the first
  pattern that is ill-formed (`DocQuery.PatternFlaw`);
* `Predicate.test` – **whether a document matches**.

An attribute that is absent counts as null. Null is in no order and matches no pattern.
-/

namespace DocQuery

/-- A pattern that could not be read. -/
inductive PatternFlaw where
  | glob (text : String)
  | regex
  deriving DecidableEq, Repr

def PatternFlaw.failure : PatternFlaw → Failure
  | .glob text => .invalidOperation s!"invalid glob '{text}'"
  | .regex => .invalidOperation "invalid regex"

/-- A pattern, ready to match. -/
inductive Matcher where
  | glob (g : Glob)
  | regex (r : Regex)

def Matcher.test : Matcher → String → Bool
  | .glob g, s => g.accepts s.toList
  | .regex r, s => r.isMatch s.toList

/-- A filter whose patterns are read. -/
inductive Predicate where
  | all (ps : List Predicate)
  | any (ps : List Predicate)
  | not (p : Predicate)
  | leaf (name : String) (op : FilterOp) (value : Value) (pattern : Option Matcher)

namespace Predicate

/-- Reads the glob in a value. -/
def glob? (ignoreCase : Bool) (value : Value) : Except PatternFlaw Matcher :=
  match Glob.read? ignoreCase value.display.toList with
  | some g => .ok (.glob g)
  | none => .error (.glob value.display)

/-- The pattern of a condition, if its operator takes one. -/
def pattern? (op : FilterOp) (value : Value) : Except PatternFlaw (Option Matcher) :=
  match op with
  | .glob | .notGlob => (glob? false value).map some
  | .iglob | .notIGlob => (glob? true value).map some
  | .regex =>
    match Regex.read? value.display.toList with
    | some r => .ok (some (.regex r))
    | none => .error .regex
  | _ => .ok none

mutual

/-- Reads the patterns of a filter. -/
def ofFilter : Filter → Except PatternFlaw Predicate
  | .and xs => (ofFilters xs).map .all
  | .or xs => (ofFilters xs).map .any
  | .not x => (ofFilter x).map .not
  | .condition name op value => (pattern? op value).map (.leaf name op value)

/-- `ofFilter` on every filter of a list. -/
def ofFilters : List Filter → Except PatternFlaw (List Predicate)
  | [] => .ok []
  | x :: xs => do
    let p ← ofFilter x
    let ps ← ofFilters xs
    return p :: ps

end

/-! ### Conditions -/

/-- The comparison of a value that is not null with a bound satisfies a test. -/
def ordered (actual expected : Value) (test : Ordering → Bool) : Bool :=
  !actual.isNull && (actual.compare? expected).any test

mutual

/-- The text of a value matches, or that of an item of an array. -/
def textMatches (m : Matcher) : Value → Bool
  | .null => false
  | .array items => anyMatches m items
  | v => m.test v.display

/-- `textMatches` on some item. -/
def anyMatches (m : Matcher) : List Value → Bool
  | [] => false
  | v :: rest => textMatches m v || anyMatches m rest

end

/-- The words of a text, in lower case. -/
def tokens (text : String) : List (List Char) :=
  (pieces (fun c => !isAlphanumeric c) text.toList).map lowerText

/-- Whether the value of an attribute satisfies a condition. -/
def holds (actual : Value) (op : FilterOp) (expected : Value) (pattern : Option Matcher) : Bool :=
  match op with
  | .eq => actual.looseEq expected
  | .notEq => !actual.looseEq expected
  | .isIn => expected.asList.any fun v => actual.looseEq v
  | .notIn => !expected.asList.any fun v => actual.looseEq v
  | .lt => ordered actual expected Ordering.isLT
  | .lte => ordered actual expected Ordering.isLE
  | .gt => ordered actual expected Ordering.isGT
  | .gte => ordered actual expected Ordering.isGE
  | .glob | .iglob | .regex => pattern.any fun m => textMatches m actual
  | .notGlob | .notIGlob => !pattern.any fun m => textMatches m actual
  | .contains => actual.asList.any fun v => v.looseEq expected
  | .containsAny => actual.asList.any fun v => expected.asList.any fun w => v.looseEq w
  | .containsAllTokens =>
    let haystack := tokens actual.display
    (tokens expected.display).all fun t => haystack.contains t

mutual

/-- **A document matches.** -/
def test : Predicate → Document → Bool
  | .all ps, d => testAll ps d
  | .any ps, d => testAny ps d
  | .not p, d => !test p d
  | .leaf name op value pattern, d => holds (d.getOrNull name) op value pattern

/-- Every predicate of a list holds. -/
def testAll : List Predicate → Document → Bool
  | [], _ => true
  | p :: ps, d => test p d && testAll ps d

/-- Some predicate of a list holds. -/
def testAny : List Predicate → Document → Bool
  | [], _ => false
  | p :: ps, d => test p d || testAny ps d

end

end Predicate

end DocQuery
