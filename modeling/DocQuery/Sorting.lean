/-!
# Sorting

Lists are sorted by a test that says which member may stand before which. Members that may stand
either way keep their order.

* `DocQuery.place`, `DocQuery.insertionSort` – members are inserted one after the other, from the
  right;
* `DocQuery.stableSort` – short lists are sorted by insertion, longer ones are merged.

Where the test is total and transitive, both ways lead to the same list. Elsewhere the list that is
returned depends on the way.
-/

namespace DocQuery

variable {α : Type}

/-- Puts a member into a list whose greatest member comes first: past those that may not stand
before it. -/
def place (le : α → α → Bool) (a : α) : List α → List α
  | [] => [a]
  | b :: rest => if le b a then a :: b :: rest else b :: place le a rest

/-- Sorts by insertion. -/
def insertionSort (le : α → α → Bool) (l : List α) : List α :=
  (l.foldl (fun sorted a => place le a sorted) []).reverse

/-- The length of the longest lists that are sorted by insertion. -/
def insertionLimit : Nat := 20

/-- **Sorts a list**, keeping members that may stand either way in their order. -/
def stableSort (le : α → α → Bool) (l : List α) : List α :=
  if l.length ≤ insertionLimit then insertionSort le l else l.mergeSort le

end DocQuery
