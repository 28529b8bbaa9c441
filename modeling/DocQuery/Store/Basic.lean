import DocQuery.Request.Write
import DocQuery.Store.Predicate

/-!
# Namespaces of documents

A store holds documents by namespace and answers requests by looking at every document.

* `DocQuery.Rows` – the documents of a namespace in the order of their first insertion, each under
  the key of its id;
* `DocQuery.Store` – the namespaces;
* `Rows.select`, `Rows.rank` – matching and ranked documents; `Store.query` – the answer to a query;
* `Store.write` – the effect of a write and the number of documents it touched. The parts of a write
  are applied one after the other, and what was applied before a part fails stays;
* `DocQuery.StoreFault` – why a request was refused.
-/

namespace DocQuery

/-- Documents by key, in the order of their first insertion. -/
abbrev Rows := List (String × Document)

namespace Rows

/-- The document under a key. -/
def get? (key : String) : Rows → Option Document
  | [] => none
  | (k, d) :: rest => if k = key then some d else get? key rest

/-- Changes the document under a key. -/
def modify (key : String) (f : Document → Document) : Rows → Rows
  | [] => []
  | (k, d) :: rest => if k = key then (k, f d) :: rest else (k, d) :: modify key f rest

/-- Inserts a document at the end, or replaces the one with the same id at its place. -/
def insert (rows : Rows) (d : Document) : Rows :=
  let key := d.id.key
  if (rows.get? key).isSome then rows.modify key fun _ => d else rows ++ [(key, d)]

/-- Inserts documents one after the other. -/
def insertAll (rows : Rows) (docs : List Document) : Rows := docs.foldl insert rows

/-- Removes the document under a key. -/
def erase (rows : Rows) (key : String) : Rows := rows.filter fun e => e.1 != key

/-- The documents. -/
def documents (rows : Rows) : List Document := rows.map Prod.snd

/-- The documents that match, all of them without a predicate. -/
def select (rows : Rows) (p : Option Predicate) : List Document :=
  rows.documents.filter fun d => p.all fun p => p.test d

end Rows

/-- The order of ranked documents: by an attribute, then by id, all seen in the direction. -/
def RankBy.compare (r : RankBy) (a b : Document) : Ordering :=
  r.direction.orient
    (((a.getOrNull r.name).totalCompare (b.getOrNull r.name)).then (a.id.totalCompare b.id))

/-- One document may stand in front of another. -/
def RankBy.le (r : RankBy) (a b : Document) : Bool := (r.compare a b).isLE

/-- Sorts documents, keeping those that compare equal in place. As with `Value.sort`, they may stand
in no order. -/
def RankBy.sort (r : RankBy) (docs : List Document) : List Document := stableSort r.le docs

/-- The documents of all namespaces. -/
structure Store where
  namespaces : Record Rows

/-- Why a store refuses a request. -/
inductive StoreFault where
  | noNamespace (name : String)
  | emptyWrite
  | columns (flaw : Columns.Flaw)
  | pattern (flaw : PatternFlaw)

def StoreFault.failure : StoreFault → Failure
  | .noNamespace name => .notFound s!"namespace '{name}'"
  | .emptyWrite => .invalidOperation "write request carries no operation"
  | .columns flaw => flaw.failure
  | .pattern flaw => flaw.failure

namespace Store

def empty : Store := ⟨[]⟩

/-- The rows of a namespace, none if it does not exist. -/
def rows (s : Store) (ns : String) : Rows := (s.namespaces.get? ns).getD []

/-- Replaces the rows of a namespace, which exists from then on. -/
def withRows (s : Store) (ns : String) (rows : Rows) : Store := ⟨s.namespaces.insert ns rows⟩

/-- The number of documents in a namespace. -/
def size (s : Store) (ns : String) : Nat := (s.rows ns).length

/-- The names of the namespaces, sorted. -/
def names (s : Store) : List String := s.namespaces.map Prod.fst

/-- The document with an id. -/
def get? (s : Store) (ns : String) (id : Value) : Option Document := (s.rows ns).get? id.key

/-- Inserts or replaces documents. -/
def insert (s : Store) (ns : String) (docs : List Document) : Store :=
  s.withRows ns ((s.rows ns).insertAll docs)

/-! ### Queries -/

/-- The number of rows returned when a query sets no limit. -/
def defaultTopK : Nat := 10

/-- Times are measured where a call is made; a store reports none of its own. -/
def performance : Performance := ⟨some (Binary.zero false), some (Binary.zero false), []⟩

/-- The patterns of an optional filter, read. -/
def predicate? (filter : Option Filter) : Except PatternFlaw (Option Predicate) :=
  match filter with
  | none => .ok none
  | some x => (Predicate.ofFilter x).map some

/-- The answer from the matching documents: counts if aggregates are asked for, else the first
ranked rows. -/
def answer (request : QueryRequest) (docs : List Document) : QueryResponse :=
  match request.aggregates with
  | some aggregates =>
    ⟨[], some (aggregates.mapValues fun _ => Value.ofInt docs.length), some performance⟩
  | none =>
    let ranked := (request.rankBy.getD .byId).sort docs
    let rows := (ranked.take (request.topK.getD defaultTopK)).map fun d =>
      d.project request.projection
    ⟨rows, none, some performance⟩

/-- **The answer to a query.** -/
def query (s : Store) (ns : String) (request : QueryRequest) : Except StoreFault QueryResponse :=
  match s.namespaces.get? ns with
  | none => .error (.noNamespace ns)
  | some rows =>
    match predicate? request.filter with
    | .error flaw => .error (.pattern flaw)
    | .ok p => .ok (answer request (rows.select p))

/-! ### Writes -/

/-- Rows with a count of the documents touched so far, and the fault that stopped the write. -/
structure WriteState where
  rows : Rows
  affected : Nat
  fault : Option StoreFault

namespace WriteState

/-- Continues with a part of the write unless an earlier part failed. -/
def andThen {α : Type} (w : WriteState) (part : Option α)
    (apply : Rows → α → Except StoreFault (Rows × Nat)) : WriteState :=
  match w.fault, part with
  | none, some a =>
    match apply w.rows a with
    | .ok (rows, n) => ⟨rows, w.affected + n, none⟩
    | .error fault => { w with fault := some fault }
  | _, _ => w

end WriteState

/-- Inserts or replaces the documents of a table; null cells leave their attribute absent. -/
def upsertPart (rows : Rows) (table : Columns) : Except StoreFault (Rows × Nat) :=
  match table.toDocuments true with
  | .ok docs => .ok (rows.insertAll docs, docs.length)
  | .error flaw => .error (.columns flaw)

/-- Sets the attributes of a patch on the document with the same id. -/
def applyPatch (acc : Rows × Nat) (patch : Document) : Rows × Nat :=
  if (acc.1.get? patch.id.key).isSome then
    (acc.1.modify patch.id.key fun d => patch.bag.foldl (fun d e => d.set e.1 e.2) d, acc.2 + 1)
  else acc

/-- Patches the documents that exist; null cells leave their attribute alone. -/
def patchPart (rows : Rows) (table : Columns) : Except StoreFault (Rows × Nat) :=
  match table.toDocuments true with
  | .ok docs => .ok (docs.foldl applyPatch (rows, 0))
  | .error flaw => .error (.columns flaw)

/-- Deletes one id, if it is there. -/
def deleteId (acc : Rows × Nat) (id : Value) : Rows × Nat :=
  if (acc.1.get? id.key).isSome then (acc.1.erase id.key, acc.2 + 1) else acc

/-- Deletes the ids that exist. -/
def deletePart (rows : Rows) (ids : List Value) : Except StoreFault (Rows × Nat) :=
  .ok (ids.foldl deleteId (rows, 0))

/-- Deletes what matches a filter. -/
def deleteByFilterPart (rows : Rows) (filter : Filter) : Except StoreFault (Rows × Nat) :=
  match Predicate.ofFilter filter with
  | .ok p =>
    let kept := rows.filter fun e => !p.test e.2
    .ok (kept, rows.length - kept.length)
  | .error flaw => .error (.pattern flaw)

/-- All parts of a write in turn. -/
def applyParts (rows : Rows) (request : WriteRequest) : WriteState :=
  (((WriteState.andThen ⟨rows, 0, none⟩ request.upsert upsertPart).andThen
    request.patch patchPart).andThen
      request.deletes deletePart).andThen
        request.deleteByFilter deleteByFilterPart

/-- **The effect of a write** and the number of documents it touched. A write that asks for nothing
is refused; any other one makes its namespace exist. -/
def write (s : Store) (ns : String) (request : WriteRequest) : Store × Except StoreFault Nat :=
  if request.isEmpty then (s, .error .emptyWrite)
  else
    let w := applyParts (s.rows ns) request
    (s.withRows ns w.rows,
      match w.fault with
      | some fault => .error fault
      | none => .ok w.affected)

end Store

end DocQuery
