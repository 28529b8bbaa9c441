import DocQuery.FieldType
import DocQuery.Filter.Wire
import DocQuery.Json.Decode

/-!
# Active filters

The filters that a person sets: an attribute, an operator chosen from a list, and a value. Together
with the search text they compile to one `Filter`.

* `DocQuery.Operator` – the thirteen operators, with names, symbols and labels;
* `DocQuery.ActiveFilter` – the filters; `ActiveFilter.make` wraps the value of a list operator;
* `ActiveFilter.compile` – one active filter as a `Filter`; `DocQuery.compile` – all of them and
  the search text, which is a pattern on ids;
* `DocQuery.describe` – a summary for people.
-/

namespace DocQuery

/-- An operator chosen for a filter. -/
inductive Operator where
  | equals
  | notEquals
  | contains
  | greater
  | greaterOrEqual
  | less
  | lessOrEqual
  | isIn
  | notIn
  | matches
  | notMatches
  | imatches
  | notImatches
  deriving DecidableEq, Repr

namespace Operator

/-- All operators. -/
def all : List Operator :=
  [.equals, .notEquals, .contains, .greater, .greaterOrEqual, .less, .lessOrEqual, .isIn, .notIn,
    .matches, .notMatches, .imatches, .notImatches]

/-- The name of an operator in data. -/
def name : Operator → String
  | .equals => "equals"
  | .notEquals => "not_equals"
  | .contains => "contains"
  | .greater => "greater"
  | .greaterOrEqual => "greater_or_equal"
  | .less => "less"
  | .lessOrEqual => "less_or_equal"
  | .isIn => "in"
  | .notIn => "not_in"
  | .matches => "matches"
  | .notMatches => "not_matches"
  | .imatches => "imatches"
  | .notImatches => "not_imatches"

/-- Other spellings under which an operator is typed. -/
def aliases : Operator → List String
  | .equals => ["eq", "=", "=="]
  | .notEquals => ["neq", "!=", "<>"]
  | .contains => ["~"]
  | .greater => ["gt", ">"]
  | .greaterOrEqual => ["gte", ">="]
  | .less => ["lt", "<"]
  | .lessOrEqual => ["lte", "<="]
  | .isIn => []
  | .notIn => []
  | .matches => ["glob"]
  | .notMatches => []
  | .imatches => ["iglob"]
  | .notImatches => []

/-- The label of an operator in descriptions. -/
def label : Operator → String
  | .equals => "="
  | .notEquals => "!="
  | .contains => "contains"
  | .greater => ">"
  | .greaterOrEqual => ">="
  | .less => "<"
  | .lessOrEqual => "<="
  | .isIn => "in"
  | .notIn => "not in"
  | .matches => "matches"
  | .notMatches => "not matches"
  | .imatches => "imatches"
  | .notImatches => "not imatches"

/-- Operators whose value is a list. -/
def takesList : Operator → Bool
  | .isIn | .notIn => true
  | _ => false

/-- Operators whose value is a pattern and stays text. -/
def takesPattern : Operator → Bool
  | .matches | .notMatches | .imatches | .notImatches => true
  | _ => false

/-- The operator of a name in data. -/
def ofName? (s : String) : Option Operator := all.find? fun op => op.name == s

/-- The operator that was typed, in any case and between blanks. -/
def read? (s : String) : Option Operator :=
  let typed := String.ofList (lowerAscii (trim s.toList))
  all.find? fun op => op.name == typed || op.aliases.contains typed

end Operator

/-- A filter that a person has set. -/
structure ActiveFilter where
  id : Nat
  name : String
  operator : Operator
  value : Value
  /-- The value as it was typed. -/
  shown : String

namespace ActiveFilter

/-- A filter in which the value of a list operator is a list. -/
def make (id : Nat) (name : String) (operator : Operator) (value : Value) (shown : String) :
    ActiveFilter :=
  let value := match value with
    | .array items => .array items
    | v => if operator.takesList then .array [v] else v
  ⟨id, name, operator, value, shown⟩

/-- Decodes a filter as it was stored. Its value is taken as it is. -/
def ofJson? (j : Json) : Option ActiveFilter :=
  match Json.fields? ["id", "attribute", "operator", "value", "display"] j with
  | some [some id, some name, some op, some value, some shown] => do
    let id ← Json.word? id
    let name ← Json.string? name
    let operator ← Json.choice? Operator.ofName? op
    let shown ← Json.string? shown
    return ⟨id, name, operator, Value.ofJson value, shown⟩
  | _ => none

/-- The text for a filter. -/
def describe (f : ActiveFilter) : String :=
  f.name ++ " " ++ f.operator.label ++ " " ++ f.shown

/-- Structural equality, with values compared by `Value.same`. -/
def same (a b : ActiveFilter) : Bool :=
  a.id == b.id && a.name == b.name && a.operator == b.operator && a.value == b.value &&
    a.shown == b.shown

/-- Structural equality of everything but ids and what was typed. -/
def sameQuery (a b : ActiveFilter) : Bool :=
  a.name == b.name && a.operator == b.operator && a.value == b.value

/-- The first item of a list, null if there is none; any other value as it is. -/
def firstValue : Value → Value
  | .array items => items.head?.getD .null
  | v => v

/-- A value as a list. -/
def listValue : Value → Value
  | .array items => .array items
  | v => .array [v]

/-- The pattern that matches every text with the value in it. -/
def around (v : Value) : Value := .string ("*" ++ v.display ++ "*")

/-- The pattern in a value. -/
def patternValue (v : Value) : Value := .string (firstValue v).display

/-- **The meaning of an active filter.** On an attribute that holds arrays, equality asks whether
the array contains the value. -/
def compile (type : Option FieldType) (f : ActiveFilter) : Filter :=
  let isArray := (type.map FieldType.isArray).getD false
  let leaf := Filter.condition f.name
  match f.operator with
  | .equals => if isArray then leaf .containsAny (firstValue f.value) else leaf .eq f.value
  | .notEquals =>
    if isArray then .not (leaf .containsAny (firstValue f.value)) else leaf .notEq f.value
  | .contains =>
    if isArray then leaf .containsAny f.value
    else match f.value with
      | .array (v :: w :: rest) => .or ((v :: w :: rest).map fun v => leaf .glob (around v))
      | v => leaf .glob (around (firstValue v))
  | .greater => leaf .gt f.value
  | .greaterOrEqual => leaf .gte f.value
  | .less => leaf .lt f.value
  | .lessOrEqual => leaf .lte f.value
  | .isIn => leaf .isIn (listValue f.value)
  | .notIn => leaf .notIn (listValue f.value)
  | .matches => leaf .glob (patternValue f.value)
  | .notMatches => leaf .notGlob (patternValue f.value)
  | .imatches => leaf .iglob (patternValue f.value)
  | .notImatches => leaf .notIGlob (patternValue f.value)

end ActiveFilter

/-- The condition of a search text: ids that contain it. Blank text asks for nothing. -/
def searchFilter (text : String) : List Filter :=
  let term := trimString text
  if term.isEmpty then [] else [.condition "id" .glob (.string ("*" ++ term ++ "*"))]

/-- The filter of a search text and the active filters; none if everything is to be shown. -/
def compile (filters : List ActiveFilter) (search : String) (types : Record FieldType) :
    Option Filter :=
  Filter.all (searchFilter search ++ filters.map fun f => f.compile (types.get? f.name))

/-- A summary of a search text and active filters. -/
def describe (filters : List ActiveFilter) (search : String) : String :=
  let term := trimString search
  let parts := (if term.isEmpty then [] else ["search \"" ++ term ++ "\""]) ++
    filters.map ActiveFilter.describe
  if parts.isEmpty then "all documents" else joinWith " AND " parts

end DocQuery
