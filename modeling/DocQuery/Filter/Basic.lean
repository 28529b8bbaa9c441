import DocQuery.Value.Order

/-!
# Filters

A filter selects documents by conditions on their attributes, combined with *and*, *or* and *not*.

* `DocQuery.FilterOp` – the sixteen comparison operators and their names;
* `DocQuery.Filter` – the filters;
* `Filter.all`, `Filter.andWith`, `Filter.withCursor` – conjunctions, built without superfluous
  nesting;
* `DocQuery.Direction` – ascending or descending.
-/

namespace DocQuery

/-- A comparison operator of a condition. -/
inductive FilterOp where
  | eq
  | notEq
  | isIn
  | notIn
  | lt
  | lte
  | gt
  | gte
  | glob
  | notGlob
  | iglob
  | notIGlob
  | contains
  | containsAny
  | containsAllTokens
  | regex
  deriving DecidableEq, Repr

namespace FilterOp

/-- The name of an operator in filters. -/
def name : FilterOp → String
  | .eq => "Eq"
  | .notEq => "NotEq"
  | .isIn => "In"
  | .notIn => "NotIn"
  | .lt => "Lt"
  | .lte => "Lte"
  | .gt => "Gt"
  | .gte => "Gte"
  | .glob => "Glob"
  | .notGlob => "NotGlob"
  | .iglob => "IGlob"
  | .notIGlob => "NotIGlob"
  | .contains => "Contains"
  | .containsAny => "ContainsAny"
  | .containsAllTokens => "ContainsAllTokens"
  | .regex => "Regex"

/-- All operators. -/
def all : List FilterOp :=
  [.eq, .notEq, .isIn, .notIn, .lt, .lte, .gt, .gte, .glob, .notGlob, .iglob, .notIGlob, .contains,
    .containsAny, .containsAllTokens, .regex]

/-- The operator of a name. -/
def ofName? (s : String) : Option FilterOp := all.find? fun op => op.name == s

end FilterOp

/-- A sort direction. -/
inductive Direction where
  | asc
  | desc
  deriving DecidableEq, Repr

namespace Direction

def name : Direction → String
  | .asc => "asc"
  | .desc => "desc"

def ofName? (s : String) : Option Direction :=
  if s = "asc" then some .asc else if s = "desc" then some .desc else none

/-- An ascending comparison, seen in the direction. -/
def orient : Direction → Ordering → Ordering
  | .asc, o => o
  | .desc, o => o.swap

/-- The operator that holds of what stands after a bound. -/
def after : Direction → FilterOp
  | .asc => .gt
  | .desc => .lt

end Direction

/-- A filter. -/
inductive Filter where
  | and (filters : List Filter)
  | or (filters : List Filter)
  | not (filter : Filter)
  | condition (name : String) (op : FilterOp) (value : Value)

namespace Filter

instance : Inhabited Filter := ⟨.and []⟩

/-- The conjunction of a list: nothing for no filter, a lone filter as it is. -/
def all : List Filter → Option Filter
  | [] => none
  | [x] => some x
  | xs => some (.and xs)

/-- Adds a conjunct, inside a conjunction that is already there. -/
def andWith : Filter → Filter → Filter
  | .and xs, y => .and (xs ++ [y])
  | x, y => .and [x, y]

/-- Keeps what comes after a cursor in the order of ids: greater ids when ascending, lesser ids when
descending. -/
def withCursor (filter : Option Filter) (cursor : Value) (direction : Direction) : Filter :=
  let bound := condition "id" direction.after cursor
  match filter with
  | some x => x.andWith bound
  | none => bound

mutual

/-- The attributes of the conditions, from left to right. -/
def mentioned : Filter → List String
  | .and xs => mentionedAll xs
  | .or xs => mentionedAll xs
  | .not x => mentioned x
  | .condition name _ _ => [name]

/-- `mentioned` on every filter of a list. -/
def mentionedAll : List Filter → List String
  | [] => []
  | x :: xs => mentioned x ++ mentionedAll xs

end

/-- The attributes of the conditions, each at its first place. -/
def attributes (x : Filter) : List String := x.mentioned.eraseDups

end Filter

end DocQuery
