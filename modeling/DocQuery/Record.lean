/-!
# Records

A record maps names to values and lists them in the order of their names. It is a list of pairs
sorted by name, so that recursive types can hold records of themselves; every operation below keeps
the order.

* `Record.insert`, `Record.erase`, `Record.get?` – the operations of a finite map;
* `Record.ofList` – the record of a list of pairs, of a repeated name the last one;
* `Record.Sorted` – the invariant.
-/

namespace DocQuery

/-- Pairs of a name and a value, sorted by name. Names are compared by code points. -/
abbrev Record (α : Type) := List (String × α)

namespace Record

variable {α β : Type}

/-- Names increase strictly. -/
def Sorted (r : Record α) : Prop := r.Pairwise fun a b => a.1 < b.1

/-- The value of a name. -/
def get? (name : String) : Record α → Option α
  | [] => none
  | (n, a) :: rest => if name = n then some a else get? name rest

def contains (name : String) (r : Record α) : Bool := (r.get? name).isSome

/-- Adds a name or replaces its value. -/
def insert (name : String) (a : α) : Record α → Record α
  | [] => [(name, a)]
  | (n, b) :: rest =>
    if name < n then (name, a) :: (n, b) :: rest
    else if name = n then (name, a) :: rest
    else (n, b) :: insert name a rest

/-- Removes a name. -/
def erase (name : String) (r : Record α) : Record α := r.filter fun e => e.1 != name

/-- The record of a list of pairs; of a repeated name the last one. -/
def ofList (pairs : List (String × α)) : Record α :=
  pairs.foldl (fun r e => insert e.1 e.2 r) []

/-- Applies a function to every value. -/
def mapValues (f : α → β) (r : Record α) : Record β := r.map fun e => (e.1, f e.2)

end Record

end DocQuery
