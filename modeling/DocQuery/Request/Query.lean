import DocQuery.Document.Columns
import DocQuery.Filter.Wire

/-!
# Query requests and responses

What is sent to a namespace to read from it, and what comes back.

* `DocQuery.QueryRequest` – a filter, an order, a limit, the attributes to return, aggregates, and
  the consistency asked for; `QueryRequest.rows` and `QueryRequest.count` build the two requests of
  a page load;
* `DocQuery.QueryResponse` – rows or aggregations; `QueryResponse.count` reads a total;
* `toJson` and `ofJson?` of both.
-/

namespace DocQuery

/-- The attribute that orders an answer, and its direction. -/
structure RankBy where
  name : String
  direction : Direction
  deriving DecidableEq, Repr

namespace RankBy

def byId : RankBy := ⟨"id", .asc⟩

def toJson (r : RankBy) : Json := .array [.string r.name, .string r.direction.name]

def ofJson? : Json → Option RankBy
  | .array [.string name, d] => (Json.choice? Direction.ofName? d).map fun d => ⟨name, d⟩
  | _ => none

end RankBy

namespace Projection

/-- All or no attributes are written as a boolean, some as a list of names. -/
def toJson : Projection → Json
  | .all => .bool true
  | .none => .bool false
  | .only names => .array (names.map .string)

def ofJson? : Json → Option Projection
  | .bool b => some (if b then .all else .none)
  | .array items => (items.mapM Json.string?).map .only
  | _ => Option.none

end Projection

/-- An aggregate function. Counting is the only one. -/
inductive Aggregate where
  | count
  deriving DecidableEq, Repr

namespace Aggregate

def toJson : Aggregate → Json
  | .count => .array [.string "Count"]

/-- A list of strings of which the first names the function. -/
def ofJson? (j : Json) : Option Aggregate :=
  match Json.list? Json.string? j with
  | some ("Count" :: _) => some .count
  | _ => none

end Aggregate

/-- How recent an answer has to be. -/
inductive Consistency where
  | strong
  | eventual
  deriving DecidableEq, Repr

namespace Consistency

def name : Consistency → String
  | .strong => "strong"
  | .eventual => "eventual"

def ofName? (s : String) : Option Consistency :=
  if s = "strong" then some .strong else if s = "eventual" then some .eventual else none

def toJson (c : Consistency) : Json := .object [("level", .string c.name)]

def ofJson? (j : Json) : Option Consistency :=
  match Json.fields? ["level"] j with
  | some [some level] => Json.choice? ofName? level
  | _ => none

end Consistency

/-- A query. -/
structure QueryRequest where
  filter : Option Filter
  rankBy : Option RankBy
  topK : Option Nat
  projection : Projection
  aggregates : Option (Record Aggregate)
  consistency : Option Consistency

namespace QueryRequest

/-- The name under which a total is asked for and answered. -/
def countName : String := "count"

/-- Asks for the first rows of a ranked answer, with all attributes. -/
def rows (filter : Option Filter) (rankBy : RankBy) (topK : Nat) : QueryRequest :=
  ⟨filter, some rankBy, some topK, .all, none, none⟩

/-- Asks for the number of matching rows only. -/
def count (filter : Option Filter) : QueryRequest :=
  ⟨filter, none, none, .none, some [(countName, .count)], none⟩

/-- Asks for a consistency, if one is given. -/
def withConsistency (level : Option Consistency) (r : QueryRequest) : QueryRequest :=
  match level with
  | some c => { r with consistency := some c }
  | none => r

/-- Fields that are absent are left out. -/
def toJson (r : QueryRequest) : Json :=
  .object
    ((r.filter.map fun x => ("filters", x.toJson)).toList ++
      (r.rankBy.map fun x => ("rank_by", x.toJson)).toList ++
      (r.topK.map fun k => ("top_k", .int k)).toList ++
      [("include_attributes", r.projection.toJson)] ++
      (r.aggregates.map fun a => ("aggregate_by", .object (a.mapValues Aggregate.toJson))).toList ++
      (r.consistency.map fun c => ("consistency", c.toJson)).toList)

def ofJson? (j : Json) : Option QueryRequest :=
  match Json.fields?
      ["filters", "rank_by", "top_k", "include_attributes", "aggregate_by", "consistency"] j with
  | some [filter, rankBy, topK, projection, aggregates, consistency] => do
    let filter ← Json.optional? Filter.ofJson? filter
    let rankBy ← Json.optional? RankBy.ofJson? rankBy
    let topK ← Json.optional? Json.word? topK
    let projection ← Json.orDefault? .all Projection.ofJson? projection
    let aggregates ← Json.optional? (Json.record? Aggregate.ofJson?) aggregates
    let consistency ← Json.optional? Consistency.ofJson? consistency
    return ⟨filter, rankBy, topK, projection, aggregates, consistency⟩
  | _ => none

end QueryRequest

/-- Times that a backend reports, by name. -/
structure Performance where
  serverTotal : Option Double
  queryExecution : Option Double
  extra : Record Value

namespace Performance

def toJson (p : Performance) : Json :=
  .object
    ((p.serverTotal.map fun x => ("server_total_ms", .float x)).toList ++
      (p.queryExecution.map fun x => ("query_execution_ms", .float x)).toList ++
      Document.members p.extra)

def ofJson? (j : Json) : Option Performance :=
  match Json.split? ["server_total_ms", "query_execution_ms"] j with
  | some ([total, execution], rest) => do
    let total ← Json.optional? (Json.number? .double) total
    let execution ← Json.optional? (Json.number? .double) execution
    return ⟨total, execution, Record.ofList (rest.map fun m => (m.1, Value.ofJson m.2))⟩
  | _ => none

end Performance

/-- The answer to a query. -/
structure QueryResponse where
  rows : List Document
  aggregations : Option (Record Value)
  performance : Option Performance

namespace QueryResponse

/-- Why an answer carries no total. -/
inductive CountFlaw where
  | absent
  | notACount (found : Value)

def CountFlaw.failure : CountFlaw → Failure
  | .absent => .backend "response carries no count aggregation"
  | .notACount found => .type "non-negative count" found.text

/-- The total of an answer: a natural number of 64 bits. A floating-point number loses its fraction,
and one that is too large counts as the largest. -/
def count (r : QueryResponse) : Except CountFlaw Nat :=
  match r.aggregations.bind fun a => a.get? QueryRequest.countName with
  | none => .error .absent
  | some (.int i) => if 0 ≤ i.toInt then .ok i.toInt.toNat else .error (.notACount (.int i))
  | some (.float x) =>
    if (Binary.zero false : Double).numLe x then
      .ok (match x.truncate? with
        | some n => Nat.min n.toNat (2 ^ 64 - 1)
        | none => 2 ^ 64 - 1)
    else .error (.notACount (.float x))
  | some v => .error (.notACount v)

def toJson (r : QueryResponse) : Json :=
  .object
    (("rows", .array (r.rows.map Document.toJson)) ::
      ((r.aggregations.map fun a => ("aggregations", .object (Document.members a))).toList ++
        (r.performance.map fun p => ("performance", p.toJson)).toList))

def ofJson? (j : Json) : Option QueryResponse :=
  match Json.fields? ["rows", "aggregations", "performance"] j with
  | some [rows, aggregations, performance] => do
    let rows ← Json.orDefault? [] (Json.list? Document.ofJson?) rows
    let aggregations ←
      Json.optional? (Json.record? fun j => some (Value.ofJson j)) aggregations
    let performance ← Json.optional? Performance.ofJson? performance
    return ⟨rows, aggregations, performance⟩
  | _ => none

end QueryResponse

end DocQuery
