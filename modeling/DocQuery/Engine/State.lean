import DocQuery.Discovery.Profile
import DocQuery.Filter.Active
import DocQuery.Paging

/-!
# The state of an engine

What an engine knows is one value, and every change of it is an action.

* `DocQuery.QueryState` – what is asked for: search text, filters, order and page;
* `DocQuery.EngineState` – the query, the rows and the schema that are known, and what is under way;
* `DocQuery.Action`, `EngineState.reduce` – **the changes**. Every change of what is asked for goes
  back to the first page and begins a new generation, by which late answers are told from those that
  are still wanted.
-/

namespace DocQuery

/-- What is asked for. -/
structure QueryState where
  search : String
  filters : List ActiveFilter
  sort : RankBy
  pages : Pagination

namespace QueryState

def start (pageSize : Nat) : QueryState := ⟨"", [], .byId, .start pageSize⟩

/-- Documents are selected, by a filter or by text that is not blank. -/
def isQueryMode (q : QueryState) : Bool := !q.filters.isEmpty || !(trimString q.search).isEmpty

/-- Rows are ranked by id, so that boundaries apply. -/
def isKeyset (q : QueryState) : Bool := q.sort.name == "id"

/-- Another query with the same filters, text, order and page size, whatever the page. -/
def sameInputs (a b : QueryState) : Bool :=
  a.search == b.search && a.filters.length == b.filters.length &&
    (List.zipWith ActiveFilter.same a.filters b.filters).all id &&
    a.sort == b.sort && a.pages.size == b.pages.size

end QueryState

/-- What an engine knows. -/
structure EngineState where
  connection : String
  ns : String
  query : QueryState
  documents : List Document
  total : Option Nat
  attributes : List Attribute
  /-- The message of the last failure, until a load succeeds. -/
  error : Option String
  isDiscovering : Bool
  /-- Grows with every change of what is asked for and every load. -/
  generation : Nat
  /-- The number of loads under way. -/
  inFlight : Nat
  /-- Loads are under way. -/
  isLoading : Bool
  /-- The mark agrees with the count. Actions set the two apart from each other, and each that does
  has to show it. -/
  isLoading_eq : isLoading = decide (0 < inFlight)
  /-- The id of the next filter that is added. -/
  nextFilterId : Nat

/-- A change of the state. -/
inductive Action where
  /-- Adds a filter, which gets an id of its own. -/
  | addFilter (f : ActiveFilter)
  /-- Replaces the filter with the same id. -/
  | updateFilter (f : ActiveFilter)
  | removeFilter (id : Nat)
  | clearFilters
  | setSearch (text : String)
  /-- Replaces text and filters at once. The filters get new ids. -/
  | restoreQuery (search : String) (filters : List ActiveFilter)
  | setSort (sort : RankBy)
  | setPageSize (size : Nat)
  | setNamespace (connection ns : String)
  | loadStarted
  | loadSucceeded (documents : List Document) (total : Nat) (pages : Pagination) (append : Bool)
  | loadFailed (message : String)
  /-- A load has ended, in whatever way. -/
  | loadSettled
  | discoveryStarted
  /-- A discovery has ended; without attributes the old ones stay. -/
  | discoveryFinished (attributes : Option (List Attribute))
  | clearError

namespace EngineState

def start (connection ns : String) (pageSize : Nat) : EngineState :=
  ⟨connection, ns, .start pageSize, [], none, [], none, false, 0, 0, false, rfl, 1⟩

/-- The number of pages, if the total is known. -/
def pageCount? (s : EngineState) : Option Nat := s.total.map fun n => pageCount n s.query.pages.size

/-- The types of the attributes. -/
def types (s : EngineState) : Record FieldType := typesOf s.attributes

/-- The attribute of a name. -/
def attribute? (s : EngineState) (name : String) : Option Attribute :=
  s.attributes.find? fun a => a.name == name

/-- The place whose documents are shown. -/
def isAt (s : EngineState) (connection ns : String) : Bool :=
  s.connection == connection && s.ns == ns

/-- The same place and the same query, whatever the page. -/
def sameInputs (a b : EngineState) : Bool :=
  a.isAt b.connection b.ns && a.query.sameInputs b.query

/-- Asks for something else: the first page, in a new generation. -/
def ask (s : EngineState) (query : QueryState) : EngineState :=
  { s with query := { query with pages := query.pages.reset }, generation := s.generation + 1 }

/-- Filters with consecutive ids. -/
def renumber (id : Nat) : List ActiveFilter → List ActiveFilter
  | [] => []
  | f :: rest => { f with id := id } :: renumber (id + 1) rest

/-- Replaces the first filter with the id of a given one. -/
def replaceFilter (f : ActiveFilter) : List ActiveFilter → List ActiveFilter
  | [] => []
  | g :: rest => if g.id = f.id then f :: rest else g :: replaceFilter f rest

/-- **The state after an action.** -/
def reduce (s : EngineState) : Action → EngineState
  | .addFilter f =>
    { s with nextFilterId := s.nextFilterId + 1 }.ask
      { s.query with filters := s.query.filters ++ [{ f with id := s.nextFilterId }] }
  | .updateFilter f =>
    if s.query.filters.any fun g => g.id = f.id then
      s.ask { s.query with filters := replaceFilter f s.query.filters }
    else s
  | .removeFilter id =>
    let kept := s.query.filters.filter fun g => g.id ≠ id
    if kept.length ≠ s.query.filters.length then s.ask { s.query with filters := kept } else s
  | .clearFilters =>
    if s.query.filters.isEmpty then s else s.ask { s.query with filters := [] }
  | .setSearch text => if s.query.search = text then s else s.ask { s.query with search := text }
  | .restoreQuery search filters =>
    { s with nextFilterId := s.nextFilterId + filters.length }.ask
      { s.query with search, filters := renumber s.nextFilterId filters }
  | .setSort sort => if s.query.sort = sort then s else s.ask { s.query with sort }
  | .setPageSize size =>
    let size := max size 1
    if s.query.pages.size = size then s
    else s.ask { s.query with pages := { s.query.pages with size } }
  | .setNamespace connection ns =>
    { s with connection, ns, documents := [], attributes := [], total := none }.ask
      { s.query with filters := [], search := "" }
  | .loadStarted =>
    { s with
      inFlight := s.inFlight + 1
      isLoading := true
      isLoading_eq := (decide_eq_true s.inFlight.succ_pos).symm
      generation := s.generation + 1 }
  | .loadSucceeded documents total pages append =>
    { s with
      documents := if append then s.documents ++ documents else documents
      total := some total
      query := { s.query with pages }
      error := none }
  | .loadFailed message => { s with error := some message }
  | .loadSettled =>
    { s with
      inFlight := s.inFlight - 1
      isLoading := 0 < s.inFlight - 1
      isLoading_eq := rfl }
  | .discoveryStarted => { s with isDiscovering := true }
  | .discoveryFinished attributes =>
    { s with isDiscovering := false, attributes := attributes.getD s.attributes }
  | .clearError => { s with error := none }

end EngineState

end DocQuery
