import DocQuery.Sorting
import DocQuery.Value.Basic

/-!
# Comparing values

Values are compared in four ways.

* `Value.same` – structural equality, with floating-point numbers compared numerically;
* `Value.looseEq` – the equality of filters: numbers of both types by value, arrays item by item;
* `Value.compare?` – the order of filters, defined between numbers, between strings, between
  booleans and between nulls;
* `Value.totalCompare` – the order of sorting, defined everywhere: by type, then within the type.
-/

namespace DocQuery.Value

/-! ### Equality -/

mutual

/-- Structural equality. The two zeros are equal, and not-a-number differs from itself. -/
def same : Value → Value → Bool
  | .null, .null => true
  | .bool a, .bool b => a == b
  | .int a, .int b => a == b
  | .float a, .float b => a.numEq b
  | .string a, .string b => a == b
  | .array a, .array b => sameItems a b
  | .object a, .object b => sameMembers a b
  | _, _ => false

/-- `same` item by item. -/
def sameItems : List Value → List Value → Bool
  | [], [] => true
  | a :: as, b :: bs => same a b && sameItems as bs
  | _, _ => false

/-- `same` member by member. -/
def sameMembers : List (String × Value) → List (String × Value) → Bool
  | [], [] => true
  | (n, a) :: as, (m, b) :: bs => n == m && same a b && sameMembers as bs
  | _, _ => false

end

instance : BEq Value := ⟨same⟩

/-! ### The order of filters -/

/-- The order of filters. Numbers of both types compare by value, an integer beside a
floating-point number being rounded first. Values of unrelated types do not compare. -/
def compare? : Value → Value → Option Ordering
  | .int a, .int b => some (compare a.toInt b.toInt)
  | .string a, .string b => some (compare a b)
  | .bool a, .bool b => some (compare a.toNat b.toNat)
  | .null, .null => some .eq
  | a, b =>
    match a.asDouble?, b.asDouble? with
    | some x, some y => x.compare? y
    | _, _ => none

mutual

/-- The equality of filters: numbers of both types by value, arrays item by item, all else
structurally. -/
def looseEq : Value → Value → Bool
  | .array a, .array b => looseEqItems a b
  | a, b =>
    if a.kind.isNumeric && b.kind.isNumeric then a.compare? b == some .eq else same a b

/-- `looseEq` item by item. -/
def looseEqItems : List Value → List Value → Bool
  | [], [] => true
  | a :: as, b :: bs => looseEq a b && looseEqItems as bs
  | _, _ => false

end

/-! ### The order of sorting -/

mutual

/-- The order of sorting: null, booleans, numbers, strings, arrays, objects. Arrays compare item by
item and then by length, objects by their text. -/
def totalCompare : Value → Value → Ordering
  | .int a, .int b => compare a.toInt b.toInt
  | .array a, .array b => totalCompareItems a b
  | .object a, .object b => compare (key (.object a)) (key (.object b))
  | a, b =>
    if a.kind.rank = b.kind.rank then
      match a.asDouble?, b.asDouble? with
      | some x, some y => x.totalCompare y
      | _, _ => (a.compare? b).getD .eq
    else compare a.kind.rank b.kind.rank

/-- The first difference decides, and if there is none the length. -/
def totalCompareItems : List Value → List Value → Ordering
  | [], [] => .eq
  | [], _ :: _ => .lt
  | _ :: _, [] => .gt
  | a :: as, b :: bs => (totalCompare a b).then (totalCompareItems as bs)

end

/-- `a` may stand before `b` in sorted lists. -/
def totalLe (a b : Value) : Bool := (totalCompare a b).isLE

/-- Sorts by `totalCompare`, keeping equal values in place. Beyond `2 ^ 53` the comparison may not be
transitive, and then what is returned depends on how values are sorted (`stableSort`). -/
def sort (vs : List Value) : List Value := stableSort totalLe vs

end DocQuery.Value
