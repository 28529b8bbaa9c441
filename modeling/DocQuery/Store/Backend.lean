import DocQuery.Store.Basic

/-!
# A backend over a store

A backend answers calls after a delay and may be told to fail the next one. A call has two ends: it
is received, which counts it, and later it is answered, from the store as it is then.

* `DocQuery.Backend` – a store with counters, queued failures and a latency;
* `Backend.receiveQuery`, `Backend.receiveWrite` – the first end of a call;
* `Backend.answerQuery`, `Backend.answerWrite` – the second end.
-/

namespace DocQuery

/-- A store behind a simulated network. -/
structure Backend where
  store : Store
  queries : Nat
  writes : Nat
  /-- Failures for the next calls that are answered, in order. -/
  failures : List Failure
  /-- Milliseconds that pass before a call is answered; none if it is answered at once. -/
  latency : Option Nat
  lastQuery : Option QueryRequest

namespace Backend

def empty : Backend := ⟨.empty, 0, 0, [], none, none⟩

/-- Queues a failure. -/
def fail (b : Backend) (f : Failure) : Backend := { b with failures := b.failures ++ [f] }

/-- Takes the next queued failure. -/
def takeFailure (b : Backend) : Option Failure × Backend :=
  match b.failures with
  | [] => (none, b)
  | f :: rest => (some f, { b with failures := rest })

def receiveQuery (b : Backend) (request : QueryRequest) : Backend :=
  { b with queries := b.queries + 1, lastQuery := some request }

def receiveWrite (b : Backend) : Backend := { b with writes := b.writes + 1 }

/-- Answers a query: with a queued failure, or from the store. -/
def answerQuery (b : Backend) (ns : String) (request : QueryRequest) :
    Except Failure QueryResponse × Backend :=
  match b.takeFailure with
  | (some f, b) => (.error f, b)
  | (none, b) =>
    match b.store.query ns request with
    | .ok r => (.ok r, b)
    | .error fault => (.error fault.failure, b)

/-- Answers a write: with a queued failure, or by changing the store. -/
def answerWrite (b : Backend) (ns : String) (request : WriteRequest) :
    Except Failure Nat × Backend :=
  match b.takeFailure with
  | (some f, b) => (.error f, b)
  | (none, b) =>
    match b.store.write ns request with
    | (store, .ok n) => (.ok n, { b with store })
    | (store, .error fault) => (.error fault.failure, { b with store })

/-- Inserts or replaces documents, past the network. -/
def insert (b : Backend) (ns : String) (docs : List Document) : Backend :=
  { b with store := b.store.insert ns docs }

end Backend

/-- Reads a text as a list of documents. -/
def readDocuments? (text : String) : Option (List Document) :=
  (Json.read? text).bind (Json.list? Document.ofJson?)

end DocQuery
