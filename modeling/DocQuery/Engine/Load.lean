import DocQuery.Engine.Basic

/-!
# Loading a page

A load fetches a page in two calls, one for the total and one for the rows. Between the calls other
things may happen: the state may change, and other loads may begin and end. **An answer is applied
only in the generation in which its load began.**

* `DocQuery.LoadOptions`, `DocQuery.LoadOutcome` – what is wanted, and how it ended;
* `DocQuery.Load` – a load that waits for an answer, and `Load.request` – the query it waits for;
* `Engine.beginLoad` – begins a load; it may end at once, from the cache or with a failure;
* `Engine.resumeLoad` – goes on with an answer;
* `Engine.nextPage`, `Engine.previousPage`, `Engine.goToPage`, `Engine.more` – the options of the
  loads that turn pages, or why there is no such page.

When a load turns out to be late because something else is asked for by now, it begins once more,
with the present query.
-/

namespace DocQuery

/-- How a load ended. -/
inductive LoadOutcome where
  | loaded
  /-- The page came from the cache. -/
  | cached
  /-- Another load was under way. -/
  | skipped
  /-- The answer came too late. -/
  | stale
  /-- The failure is in the state. -/
  | failed
  deriving DecidableEq, Repr

def LoadOutcome.name : LoadOutcome → String
  | .loaded => "loaded"
  | .cached => "cached"
  | .skipped => "skipped"
  | .stale => "stale"
  | .failed => "failed"

/-- What is to be loaded, and how. -/
structure LoadOptions where
  /-- Past the cache, and even if another load is under way. -/
  force : Bool
  /-- The page behind the current one, whose rows are appended. -/
  append : Bool
  /-- A page size to set first. -/
  limit : Option Nat
  /-- A page other than the current one. -/
  page : Option Nat
  deriving DecidableEq, Repr

namespace LoadOptions

/-- The current page. -/
def default : LoadOptions := ⟨false, false, none, none⟩

/-- The current page, from the backend. -/
def forced : LoadOptions := { default with force := true }

/-- Another page. -/
def toPage (page : Nat) : LoadOptions := { default with page := some page }

end LoadOptions

/-- A load that has begun. -/
structure LoadStart where
  options : LoadOptions
  /-- The state in which the load began. -/
  snapshot : EngineState
  /-- The load begins once more if it comes too late. -/
  mayRepeat : Bool

/-- What a load is waiting for. -/
inductive LoadStage where
  | counting
  | fetching (total : Nat)
  deriving DecidableEq, Repr

/-- A load that waits for an answer. -/
structure Load where
  start : LoadStart
  plan : PagePlan
  stage : LoadStage

/-- A page that was obtained. -/
structure FetchedPage where
  documents : List Document
  total : Nat
  pages : Pagination
  fromCache : Bool

/-- Where a load stands. -/
inductive LoadProgress where
  | waiting (load : Load)
  | finished (outcome : LoadOutcome)

namespace LoadStart

/-- The page that is wanted. -/
def page (s : LoadStart) : Nat :=
  match s.options.page with
  | some page => page
  | none =>
    if s.options.append then s.snapshot.query.pages.page + 1 else s.snapshot.query.pages.page

/-- How the page is to be fetched. -/
def plan (s : LoadStart) (config : EngineConfig) : Except PlanFlaw PagePlan :=
  s.snapshot.query.pages.plan s.page s.snapshot.query.isKeyset s.snapshot.pageCount?
    config.maxOverfetch

/-- The key under which the page is cached. -/
def key (s : LoadStart) : QueryKey := Engine.queryKey s.snapshot s.page

/-- The filter of the query. -/
def filter (s : LoadStart) : Option Filter :=
  compile s.snapshot.query.filters s.snapshot.query.search s.snapshot.types

end LoadStart

namespace Load

/-- The filter of the rows, which begin after the boundary of the plan. -/
def rowsFilter (l : Load) : Option Filter :=
  match l.plan.cursor? with
  | some v => some (Filter.withCursor l.start.filter v l.start.snapshot.query.sort.direction)
  | none => l.start.filter

/-- The query whose answer is awaited. -/
def request (l : Load) (config : EngineConfig) : QueryRequest :=
  Engine.consistent config <| match l.stage with
    | .counting => .count l.start.filter
    | .fetching _ =>
      .rows l.rowsFilter l.start.snapshot.query.sort
        (l.plan.topK l.start.snapshot.query.pages.size)

end Load

namespace Engine

/-! ### The end of a load -/

/-- Remembers the query that was run. -/
def recordHistory (e : Engine) : Engine :=
  let q := e.state.query
  let entry : HistoryEntry :=
    ⟨q.search, q.filters, (e.clock / 10 ^ 9 : Nat), describe q.filters q.search⟩
  { e with history := e.history.record e.place entry }

/-- Infers the schema from the rows that are shown, if it is not cached. A cached schema is used
when no attributes are known. -/
def discoverFromPage (e : Engine) : Engine :=
  let key := schemaKey e.config e.state
  match e.cachedSchema key with
  | (some attributes, e) =>
    if e.state.attributes.isEmpty then e.dispatch (.discoveryFinished (some attributes)) else e
  | (none, e) =>
    if e.state.documents.isEmpty then e
    else
      let attributes := discover e.state.documents e.config.discovery
      (e.cacheSchema key attributes).dispatch (.discoveryFinished (some attributes))

/-- Applies a page. Queries are remembered when their first page is shown. -/
def applyPage (e : Engine) (options : LoadOptions) (p : FetchedPage) : Engine :=
  let e := e.dispatch (.loadSucceeded p.documents p.total p.pages options.append)
  let e := if p.pages.page = 1 ∧ !options.append ∧ e.state.query.isQueryMode then e.recordHistory
    else e
  e.discoverFromPage

/-- Ends a load: applies its result if it is still in time. -/
def endLoad (e : Engine) (s : LoadStart) (result : Except Failure FetchedPage) :
    Engine × LoadOutcome :=
  let (e, outcome) :=
    if e.state.generation ≠ s.snapshot.generation then (e, .stale)
    else match result with
      | .ok p => (e.applyPage s.options p, if p.fromCache then .cached else .loaded)
      | .error f => (e.dispatch (.loadFailed f.message), .failed)
  (e.dispatch .loadSettled, outcome)

/-! ### The beginning of a load -/

/-- Begins a load without looking back: the state in which it begins is the present one. -/
def enterLoad (e : Engine) (options : LoadOptions) (mayRepeat : Bool) : Engine × LoadStart :=
  let e := match options.limit with
    | some size => e.setPageSize size
    | none => e
  let e := e.dispatch .loadStarted
  (e, ⟨options, e.state, mayRepeat⟩)

/-- Looks for the page in the cache, unless the load is forced. -/
def lookUp (e : Engine) (s : LoadStart) (plan : PagePlan) : Option FetchedPage × Engine :=
  if s.options.force then (none, e)
  else match e.cachedPage s.key with
    | (some page, e) =>
      (some ⟨page.documents, page.total, s.snapshot.query.pages.restore plan page.next, true⟩, e)
    | (none, e) => (none, e)

/-- Begins a load, which may repeat itself or not. -/
def beginAttempt (e : Engine) (options : LoadOptions) (mayRepeat : Bool) :
    Engine × LoadProgress :=
  if e.state.isLoading && !options.force then (e, .finished .skipped)
  else
    let (e, s) := e.enterLoad options mayRepeat
    match s.plan e.config with
    | .error flaw =>
      let (e, outcome) := e.endLoad s (.error flaw.failure)
      (e, .finished outcome)
    | .ok plan =>
      match e.lookUp s plan with
      | (some page, e) =>
        let (e, outcome) := e.endLoad s (.ok page)
        (e, .finished outcome)
      | (none, e) => (e, .waiting ⟨s, plan, .counting⟩)

/-- **Begins a load.** -/
def beginLoad (e : Engine) (options : LoadOptions) : Engine × LoadProgress :=
  e.beginAttempt options true

/-! ### The course of a load -/

/-- Ends a load, and begins it once more if something else is asked for by now. -/
def concludeLoad (e : Engine) (s : LoadStart) (result : Except Failure FetchedPage) :
    Engine × LoadProgress :=
  let repeats := s.mayRepeat && !(e.state.sameInputs s.snapshot)
  match e.endLoad s result with
  | (e, .stale) =>
    if repeats then e.beginAttempt { LoadOptions.default with force := s.options.force } false
    else (e, .finished .stale)
  | (e, outcome) => (e, .finished outcome)

/-- The page of the rows that were fetched, which is cached. -/
def commitRows (e : Engine) (l : Load) (total : Nat) (rows : List Document) :
    Engine × FetchedPage :=
  let (pages, documents) := l.start.snapshot.query.pages.commit l.plan rows
  (e.cachePage l.start.key ⟨documents, total, pages.next⟩, ⟨documents, total, pages, false⟩)

/-- **Goes on with a load** when its call is answered. -/
def resumeLoad (e : Engine) (l : Load) (answer : Except Failure QueryResponse) :
    Engine × LoadProgress :=
  match answer with
  | .error f => e.concludeLoad l.start (.error f)
  | .ok response =>
    match l.stage with
    | .counting =>
      match response.count with
      | .error flaw => e.concludeLoad l.start (.error flaw.failure)
      | .ok total => (e, .waiting { l with stage := .fetching total })
    | .fetching total =>
      let (e, page) := e.commitRows l total response.rows
      e.concludeLoad l.start (.ok page)

/-! ### Turning pages -/

/-- The load of the page behind the current one. -/
def nextPage (e : Engine) : Except EngineFault LoadOptions :=
  let pages := e.state.query.pages
  if pages.hasNext e.state.pageCount? then .ok (.toPage (pages.page + 1)) else .error .lastPage

/-- The load of the page in front of the current one. -/
def previousPage (e : Engine) : Except EngineFault LoadOptions :=
  let pages := e.state.query.pages
  if pages.hasPrevious then .ok (.toPage (pages.page - 1)) else .error .firstPage

/-- The load of any page. -/
def goToPage (e : Engine) (page : Nat) : Except EngineFault LoadOptions :=
  if page = 0 ∨ e.state.pageCount?.any (fun last => last < page) then
    .error (.outOfRange page (e.state.pageCount?.getD 1))
  else .ok (.toPage page)

/-- The load that appends the page behind the current one; none if there is no such page. -/
def more (e : Engine) : Option LoadOptions :=
  if e.state.query.pages.hasNext e.state.pageCount? then
    some { LoadOptions.default with append := true }
  else none

end Engine

end DocQuery
