import DocQuery.Cache.Results
import DocQuery.Config
import DocQuery.Engine.State
import DocQuery.History

/-!
# Engines

An engine answers a person's questions about a namespace. It keeps the state, the caches and the
past queries; what it needs from the backend it asks for in calls, which the modules on loads,
discovery and writes describe.

* `DocQuery.Engine` – the engines;
* `Engine.addFilter`, `Engine.updateFilter` and so on – changes of what is asked for, which need no
  call;
* `Engine.cachedPage`, `Engine.cachedSchema` – look-ups in the caches;
* `DocQuery.EngineFault` – what cannot be done.
-/

namespace DocQuery

/-- Why an engine refuses something. -/
inductive EngineFault where
  | noFilter (id : Nat)
  | lastPage
  | firstPage
  | outOfRange (page pages : Nat)
  | nothingToUpsert
  | nothingToPatch
  | nothingToDelete
  deriving DecidableEq, Repr

def EngineFault.failure : EngineFault → Failure
  | .noFilter id => .notFound s!"filter {id}"
  | .lastPage => .invalidOperation "already on the last page"
  | .firstPage => .invalidOperation "already on the first page"
  | .outOfRange page pages => .invalidOperation s!"page {page} is out of range (1..={pages})"
  | .nothingToUpsert => .invalidOperation "nothing to upsert"
  | .nothingToPatch => .invalidOperation "nothing to patch"
  | .nothingToDelete => .invalidOperation "no ids to delete"

/-- An engine. -/
structure Engine where
  config : EngineConfig
  state : EngineState
  cache : ResultCache
  history : History
  /-- Nanoseconds since the beginning of 1970. Every use of a cache takes one. -/
  clock : Nat

namespace Engine

/-- An engine with nothing loaded. Without a limit of its own the history has the configured
one. -/
def start (config : EngineConfig) (connection ns : String) (historyLimit : Option Nat) : Engine where
  config
  state := .start connection ns config.pageSize
  cache := .empty config.cacheMaxEntries (config.cacheTtlSecs * 10 ^ 9)
  history := .empty (historyLimit.getD config.historyLimit)
  clock := 0

/-- Applies an action to the state. -/
def dispatch (e : Engine) (a : Action) : Engine := { e with state := e.state.reduce a }

/-- Lets a moment pass. -/
def tick (e : Engine) : Engine := { e with clock := e.clock + 1 }

/-- The place whose documents are shown. -/
def place (e : Engine) : Place := ⟨e.state.connection, e.state.ns⟩

/-! ### What is asked for -/

/-- A filter for typed input. Patterns stay text; any other value is converted to the type of its
attribute, as far as it is known. -/
def buildFilter (s : EngineState) (id : Nat) (name : String) (op : Operator) (raw : String) :
    ActiveFilter :=
  let value :=
    if op.takesPattern then .string raw
    else FieldType.coerce ((s.attribute? name).bind Attribute.fieldType?) raw
  .make id name op value raw

/-- Adds a filter and returns its id. -/
def addFilter (e : Engine) (name : String) (op : Operator) (raw : String) : Nat × Engine :=
  let id := e.state.nextFilterId
  (id, e.dispatch (.addFilter (buildFilter e.state id name op raw)))

/-- Replaces the operator and the value of a filter. -/
def updateFilter (e : Engine) (id : Nat) (op : Operator) (raw : String) :
    Except EngineFault Engine :=
  match e.state.query.filters.find? fun f => f.id = id with
  | some f => .ok (e.dispatch (.updateFilter (buildFilter e.state id f.name op raw)))
  | none => .error (.noFilter id)

/-- Removes a filter and tells whether it was there. -/
def removeFilter (e : Engine) (id : Nat) : Bool × Engine :=
  (e.state.query.filters.any fun f => f.id = id, e.dispatch (.removeFilter id))

def clearFilters (e : Engine) : Engine := e.dispatch .clearFilters

def setSearch (e : Engine) (text : String) : Engine := e.dispatch (.setSearch text)

def setSort (e : Engine) (sort : RankBy) : Engine := e.dispatch (.setSort sort)

def setPageSize (e : Engine) (size : Nat) : Engine := e.dispatch (.setPageSize size)

/-- Goes to another namespace of the same connection. -/
def setNamespace (e : Engine) (ns : String) : Engine :=
  e.dispatch (.setNamespace e.state.connection ns)

/-- Brings back a past query. -/
def restore (e : Engine) (entry : HistoryEntry) : Engine :=
  e.dispatch (.restoreQuery entry.search entry.filters)

/-- The past queries of the present namespace, newest first. -/
def pastQueries (e : Engine) : List HistoryEntry := e.history.entries e.place

def clearError (e : Engine) : Engine := e.dispatch .clearError

/-! ### Caches -/

/-- Drops all cached pages and schemas. -/
def clearCache (e : Engine) : Engine := { e with cache := e.cache.clear }

/-- The JSON text of filters, by which cached pages are told apart. Ids and typed text do not
matter. -/
def filtersKey (filters : List ActiveFilter) : String :=
  (Json.array (filters.map fun f =>
    .object [("attribute", .string f.name), ("operator", .string f.operator.name),
      ("value", f.value.toJson)])).render

/-- The key of a page. -/
def queryKey (s : EngineState) (page : Nat) : QueryKey where
  connection := s.connection
  ns := s.ns
  search := trimString s.query.search
  filters := filtersKey s.query.filters
  sort := s.query.sort.name
  direction := s.query.sort.direction
  page
  pageSize := s.query.pages.size

/-- The key of the schema of the present namespace. -/
def schemaKey (config : EngineConfig) (s : EngineState) : SchemaKey :=
  ⟨s.connection, s.ns, config.discovery.fingerprint⟩

/-- Looks up a page. -/
def cachedPage (e : Engine) (key : QueryKey) : Option CachedPage × Engine :=
  let e := e.tick
  let (page, queries) := e.cache.queries.get e.clock key
  (page, { e with cache := { e.cache with queries } })

/-- Stores a page. -/
def cachePage (e : Engine) (key : QueryKey) (page : CachedPage) : Engine :=
  let e := e.tick
  { e with cache := { e.cache with queries := e.cache.queries.insert e.clock key page } }

/-- Looks up a schema. -/
def cachedSchema (e : Engine) (key : SchemaKey) : Option (List Attribute) × Engine :=
  let e := e.tick
  let (attributes, schemas) := e.cache.schemas.get e.clock key
  (attributes, { e with cache := { e.cache with schemas } })

/-- Stores a schema. -/
def cacheSchema (e : Engine) (key : SchemaKey) (attributes : List Attribute) : Engine :=
  let e := e.tick
  { e with cache := { e.cache with schemas := e.cache.schemas.insert e.clock key attributes } }

/-- A query with the configured consistency. -/
def consistent (config : EngineConfig) (request : QueryRequest) : QueryRequest :=
  request.withConsistency config.consistency

end Engine

end DocQuery
