import DocQuery.Filter.Active

/-!
# Past queries

The queries that were run against a namespace are remembered, so that they can be brought back.

* `DocQuery.HistoryEntry` – a query, when it ran and a summary of it;
* `DocQuery.History` – for each connection and namespace the newest entries;
* `History.record` – **remembers a query**; running the newest one again only refreshes it;
* `History.entries` – the entries of a namespace, newest first.
-/

namespace DocQuery

/-- A query that was run. -/
structure HistoryEntry where
  search : String
  filters : List ActiveFilter
  /-- Seconds since the beginning of 1970. -/
  time : Int
  /-- A summary of the query. -/
  description : String

/-- The two entries are the same query, whenever they ran. -/
def HistoryEntry.sameQuery (a b : HistoryEntry) : Bool :=
  a.search == b.search && a.filters.length == b.filters.length &&
    (List.zipWith ActiveFilter.sameQuery a.filters b.filters).all id

/-- A connection and a namespace. -/
structure Place where
  connection : String
  ns : String
  deriving DecidableEq, Repr

/-- The newest entries of every place. -/
structure History where
  places : List (Place × List HistoryEntry)
  /-- The most entries that are kept for a place, at least one. -/
  limit : Nat

namespace History

def empty (limit : Nat) : History := ⟨[], max limit 1⟩

/-- The entries of a place, newest first. -/
def entries (h : History) (place : Place) : List HistoryEntry :=
  ((h.places.find? fun e => e.1 = place).map Prod.snd).getD []

/-- Forgets a place. -/
def clear (h : History) (place : Place) : History :=
  { h with places := h.places.filter fun e => e.1 ≠ place }

/-- A list of entries with a new one, which takes the place of the newest if that is the same
query. -/
def push (limit : Nat) (entry : HistoryEntry) : List HistoryEntry → List HistoryEntry
  | [] => [entry]
  | latest :: rest =>
    if latest.sameQuery entry then entry :: rest else (entry :: latest :: rest).take limit

/-- Remembers a query. -/
def record (h : History) (place : Place) (entry : HistoryEntry) : History :=
  { h.clear place with places :=
      (place, push h.limit entry (h.entries place)) :: (h.clear place).places }

end History

end DocQuery
