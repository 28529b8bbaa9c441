import DocQuery.Proofs.Engine.Session
import DocQuery.Proofs.Paging.Slices

/-!
# Cached pages and fetched ones

A load that finds its page in the cache leaves a state as a load past the cache would, if the page
would be fetched as it is cached. The key of a cached page tells apart the place, the text, the
filters, the order, the page and its size. It does not tell apart the attributes that were known
when the filters were compiled.

* `LoadStart.fetch_eq_ok_iff` – the calls of a load that finds a page;
* `Client.Agrees` – a load leaves what the same load, forced, would leave;
* `Client.agrees_iff` – a load with a cached page does so exactly if **its own fetch would return
  the page that was fetched before**;
* `LoadStart.fetch_standsAt` – for a reader that knows nothing false, a fetch ranked by id returns a
  slice; `Client.follows_performAll` – so it is in every run with one filter;
* `Client.cached_agrees` – what follows for every run.
-/

namespace DocQuery

/-! ### The calls of a fetch -/

namespace LoadStart

variable {store : Store} {config : EngineConfig} {s t : LoadStart} {p q : FetchedPage}

/-- **The calls of a load that finds a page.** -/
theorem fetch_eq_ok_iff : s.fetch store config = .ok p ↔ ∃ plan counted total r,
    s.plan config = .ok plan ∧
      store.reply s.snapshot.ns (.count s.filter) = .ok counted ∧ counted.count = .ok total ∧
      store.reply s.snapshot.ns (.rows (Load.rowsFilter ⟨s, plan, .fetching total⟩)
        s.snapshot.query.sort (plan.topK s.snapshot.query.pages.size)) = .ok r ∧
      p = ⟨(s.snapshot.query.pages.commit plan r.rows).2, total,
        (s.snapshot.query.pages.commit plan r.rows).1, false⟩ := by
  have hcount (plan : PagePlan) : store.reply s.snapshot.ns
      (Load.request ⟨s, plan, .counting⟩ config) =
        store.reply s.snapshot.ns (.count s.filter) := store.reply_consistent _ config _
  have hrows (plan : PagePlan) (total : Nat) : store.reply s.snapshot.ns
      (Load.request ⟨s, plan, .fetching total⟩ config) =
        store.reply s.snapshot.ns (.rows (Load.rowsFilter ⟨s, plan, .fetching total⟩)
          s.snapshot.query.sort (plan.topK s.snapshot.query.pages.size)) :=
    store.reply_consistent _ config _
  unfold fetch
  cases s.plan config with
  | error flaw => simp
  | ok plan =>
    dsimp only
    rw [hcount]
    cases store.reply s.snapshot.ns (.count s.filter) with
    | error f => simp
    | ok counted =>
      dsimp only
      cases hcounted : counted.count with
      | error flaw => simp [hcounted]
      | ok total =>
        dsimp only
        rw [hrows]
        cases hr : store.reply s.snapshot.ns (.rows (Load.rowsFilter ⟨s, plan, .fetching total⟩)
            s.snapshot.query.sort (plan.topK s.snapshot.query.pages.size)) with
        | error f => simp [hcounted, hr]
        | ok r => simp [hcounted, hr, eq_comm]

theorem pages_page_of_fetch (h : s.fetch store config = .ok p) : p.pages.page = s.page := by
  obtain ⟨plan, counted, total, r, hplan, -, -, -, rfl⟩ := fetch_eq_ok_iff.mp h
  exact (Pagination.commit_page _ _).trans (Pagination.plan_page hplan)

theorem pages_size_of_fetch (h : s.fetch store config = .ok p) :
    p.pages.size = s.snapshot.query.pages.size := by
  obtain ⟨plan, counted, total, r, -, -, -, -, rfl⟩ := fetch_eq_ok_iff.mp h
  exact Pagination.commit_size _ _

theorem fromCache_of_fetch (h : s.fetch store config = .ok p) : p.fromCache = false := by
  obtain ⟨plan, counted, total, r, -, -, -, -, rfl⟩ := fetch_eq_ok_iff.mp h
  rfl

/-- Loads with the same key for their pages agree on all that the key tells apart. -/
theorem eq_of_key_eq (h : s.key = t.key) :
    s.page = t.page ∧ s.snapshot.connection = t.snapshot.connection ∧
      s.snapshot.ns = t.snapshot.ns ∧ s.snapshot.query.sort = t.snapshot.query.sort ∧
      s.snapshot.query.pages.size = t.snapshot.query.pages.size ∧
      trimString s.snapshot.query.search = trimString t.snapshot.query.search ∧
      Engine.filtersKey s.snapshot.query.filters = Engine.filtersKey t.snapshot.query.filters := by
  have hpage : s.page = t.page := congrArg QueryKey.page h
  have hkey : Engine.queryKey s.snapshot s.page = Engine.queryKey t.snapshot s.page := by
    refine Eq.trans (b := s.key) rfl (h.trans ?_)
    rw [key, hpage]
  obtain ⟨hconnection, hns, hsort, hsize⟩ := Engine.eq_of_queryKey_eq hkey
  exact ⟨hpage, hconnection, hns, hsort, hsize, congrArg QueryKey.search h,
    congrArg QueryKey.filters h⟩

end LoadStart

/-! ### A load with a cached page, and without -/

/-- The same load, past the cache. -/
def LoadOptions.past (options : LoadOptions) : LoadOptions := { options with force := true }

/-- What a load is there for: the documents, the total, the page and the boundary behind it. -/
def EngineState.shown (s : EngineState) :
    List Document × Option Nat × Nat × Option Value :=
  (s.documents, s.total, s.query.pages.page, s.query.pages.next)

namespace Client

/-- A load leaves what the same load would leave past the cache, and that one is not refused. -/
def Agrees (c : Client) (options : LoadOptions) : Prop :=
  (c.load options.past).2 = .loaded ∧
    (c.load options).1.engine.state.shown = (c.load options.past).1.engine.state.shown

variable {c : Client} {options : LoadOptions}

theorem startOf_past (c : Client) (options : LoadOptions) :
    c.startOf options.past = { c.startOf options with options := options.past } := rfl

theorem fetch_past (c : Client) (options : LoadOptions) (store : Store) (config : EngineConfig) :
    (c.startOf options.past).fetch store config = (c.startOf options).fetch store config := rfl

/-- A page that a load shows is the one that is wanted, with the size that is set. -/
theorem Ends.pages_at {e e' : Engine} {s : LoadStart} {p : FetchedPage} {b : Backend}
    (h : Ends c e s e' (.ok p) b) :
    p.pages.page = s.page ∧ p.pages.size = s.snapshot.query.pages.size := by
  cases h with
  | hit plan page e' hforce hplan hcached =>
    exact ⟨(Pagination.restore_page _ _).trans (Pagination.plan_page hplan),
      Pagination.restore_size _ _⟩
  | fetched plan e' result b hplan hlook hfinds =>
    have hfound := hfinds.found p rfl
    exact ⟨LoadStart.pages_page_of_fetch hfound, LoadStart.pages_size_of_fetch hfound⟩

/-- It was planned. -/
theorem Ends.exists_plan {e e' : Engine} {s : LoadStart} {p : FetchedPage} {b : Backend}
    (h : Ends c e s e' (.ok p) b) : ∃ plan, s.plan e.config = .ok plan := by
  cases h with
  | hit plan page e' hforce hplan hcached => exact ⟨plan, hplan⟩
  | fetched plan e' result b hplan hlook hfinds => exact ⟨plan, hplan⟩

/-- How a load ends that is said to come from the cache. -/
theorem exists_of_cached (h : (c.load options).2 = .cached) : ∃ plan page,
    (c.startOf options).plan c.engine.config = .ok plan ∧
      (∀ P, c.engine.cache.queries.Holds P → P (c.startOf options).key page) ∧
      (c.startOf options).Left (.ok ⟨page.documents, page.total,
        (c.startOf options).snapshot.query.pages.restore plan page.next, true⟩)
          (c.load options).1.engine.state := by
  obtain ⟨e, s, henter⟩ : ∃ e s, c.engine.enterLoad options true = (e, s) := ⟨_, _, rfl⟩
  obtain ⟨-, -, hconfig, hcache⟩ := Engine.enterLoad_eq henter
  have hstart : c.startOf options = s := by rw [startOf, henter]
  rw [hstart]
  rcases load_left henter with ⟨-, hskipped, -⟩ | ⟨e', result, b, hends, -, houtcome, hleft⟩
  · rw [h] at hskipped
    cases hskipped
  rw [h] at houtcome
  cases hends with
  | unplanned => cases houtcome
  | hit plan page e' hforce hplan hcached =>
    refine ⟨plan, page, hconfig ▸ hplan, fun P hP => ?_, hleft⟩
    exact TtlCache.Holds.of_get (hcache ▸ hP) (congrArg Prod.fst hcached)
  | fetched plan e' result b hplan hlook hfinds =>
    cases result with
    | error f => cases houtcome
    | ok p =>
      dsimp only at houtcome
      rw [LoadStart.fromCache_of_fetch (hfinds.found p rfl)] at houtcome
      cases houtcome

/-- **A load past the cache** ends with what it finds, if no failure is queued. -/
theorem load_past (hfailures : c.backend.failures = []) {plan : PagePlan}
    (hplan : (c.startOf options).plan c.engine.config = .ok plan) :
    (c.startOf options).Left ((c.startOf options).fetch c.backend.store c.engine.config)
        (c.load options.past).1.engine.state ∧
      ((c.load options.past).2 = .loaded ↔
        ∃ p, (c.startOf options).fetch c.backend.store c.engine.config = .ok p) := by
  obtain ⟨e, s, henter⟩ : ∃ e s, c.engine.enterLoad options.past true = (e, s) := ⟨_, _, rfl⟩
  obtain ⟨hoptions, -, hconfig, -⟩ := Engine.enterLoad_eq henter
  have hstart : c.startOf options.past = s := by rw [startOf, henter]
  have hfetch := c.fetch_past options c.backend.store c.engine.config
  have hplan' : s.plan c.engine.config = .ok plan := by
    rw [← hstart, startOf_past]
    exact hplan
  rw [hstart] at hfetch
  rcases load_left henter with ⟨-, -, -, hforce⟩ | ⟨e', result, b, hends, -, houtcome, hleft⟩
  · cases hforce
  cases hends with
  | unplanned flaw hflaw =>
    rw [hconfig, hplan'] at hflaw
    cases hflaw
  | hit plan page e' hforce =>
    rw [hoptions] at hforce
    cases hforce
  | fetched plan e' result b _ _ hfinds =>
    obtain ⟨rfl, -⟩ := hfinds.sound hfailures
    rw [hconfig] at hleft houtcome
    rw [hfetch] at hleft houtcome
    rw [houtcome]
    constructor
    · have hsame : ∀ result t, s.Left result t → (c.startOf options).Left result t := by
        rw [← hstart, startOf_past]
        exact fun result t h => h
      exact hsame _ _ hleft
    · cases hresult : (c.startOf options).fetch c.backend.store c.engine.config with
      | error f => simp
      | ok p => simp [LoadStart.fromCache_of_fetch hresult]

/-- **A load with a cached page leaves what it would leave past the cache exactly if its own fetch
returns the page that is cached.** -/
theorem agrees_iff (hcached : (c.load options).2 = .cached) (hfailures : c.backend.failures = []) :
    ∃ (plan : PagePlan) (page : CachedPage), (c.startOf options).plan c.engine.config = .ok plan ∧
      (∀ P, c.engine.cache.queries.Holds P → P (c.startOf options).key page) ∧
      (c.load options).1.engine.state.shown =
        (if options.append then (c.startOf options).snapshot.documents ++ page.documents
          else page.documents, some page.total, (c.startOf options).page, page.next) ∧
      (c.Agrees options ↔
        ∃ q, (c.startOf options).fetch c.backend.store c.engine.config = .ok q ∧
          page = ⟨q.documents, q.total, q.pages.next⟩) := by
  obtain ⟨plan, page, hplan, hpage, hleft⟩ := exists_of_cached hcached
  obtain ⟨hpast, houtcome⟩ := load_past hfailures hplan
  have happend : (c.startOf options).options.append = options.append := rfl
  have hshown : (c.load options).1.engine.state.shown =
      (if options.append then (c.startOf options).snapshot.documents ++ page.documents
        else page.documents, some page.total, (c.startOf options).page, page.next) := by
    obtain ⟨-, hpages, htotal, hdocuments⟩ := hleft
    have hturned : ((c.startOf options).snapshot.query.pages.restore plan page.next).page =
        (c.startOf options).page :=
      (Pagination.restore_page _ _).trans (Pagination.plan_page hplan)
    rw [EngineState.shown, hpages, htotal, hdocuments, hturned, happend]
    rfl
  refine ⟨plan, page, hplan, hpage, hshown, ?_⟩
  unfold Agrees
  rw [houtcome, hshown]
  cases hfetch : (c.startOf options).fetch c.backend.store c.engine.config with
  | error f => simp
  | ok q =>
    rw [hfetch] at hpast
    obtain ⟨-, hpages, htotal, hdocuments⟩ := hpast
    rw [EngineState.shown, hpages, htotal, hdocuments, LoadStart.pages_page_of_fetch hfetch,
      happend]
    obtain ⟨documents, total, next⟩ := page
    split <;> simp

end Client

/-! ### Pages ranked by id -/

theorem Store.reply_eq_ok_iff {store : Store} {ns : String} {request : QueryRequest}
    {r : QueryResponse} : store.reply ns request = .ok r ↔ store.query ns request = .ok r := by
  unfold reply
  cases store.query ns request <;> simp

namespace LoadStart

/-- The load asks for rows of the source, ranked by id. -/
structure Asks (q : PageSource) (s : LoadStart) : Prop where
  ns : s.snapshot.ns = q.ns
  filter : s.filter = q.filter
  sort : s.snapshot.query.sort = ⟨"id", q.direction⟩

section Slices

variable {q : PageSource} {k : Nat} {full : QueryResponse} {config : EngineConfig} {s : LoadStart}
  {plan : PagePlan} {p : FetchedPage}
variable (hids : SameTypeIds (q.store.rows q.ns).documents)
variable (hnodup : ((q.store.rows q.ns).documents.map Document.id).Nodup)

/-- Its rows are the rows of its plan. -/
theorem Asks.rows_eq (h : s.Asks q) (plan : PagePlan) (total : Nat) :
    QueryRequest.rows (Load.rowsFilter ⟨s, plan, .fetching total⟩) s.snapshot.query.sort
        (plan.topK s.snapshot.query.pages.size) =
      q.request s.snapshot.query.pages.size plan := by
  have hfilter : Load.rowsFilter ⟨s, plan, .fetching total⟩ = q.rowsFilter plan := by
    unfold Load.rowsFilter PageSource.rowsFilter
    dsimp only
    cases plan.cursor? with
    | none => exact h.filter
    | some v =>
      dsimp only
      rw [h.filter, h.sort]
  rw [hfilter, h.sort, PageSource.request]

theorem Asks.plan_eq (h : s.Asks q) (hplan : s.plan config = .ok plan) :
    s.snapshot.query.pages.plan s.page true s.snapshot.pageCount? config.maxOverfetch =
      .ok plan := by
  have hkeyset : s.snapshot.query.isKeyset = true := by
    rw [QueryState.isKeyset, h.sort]
    rfl
  rwa [LoadStart.plan, hkeyset] at hplan

include hids hnodup

/-- **A fetch ranked by id returns a slice**, for a reader that knows nothing false. -/
theorem fetch_standsAt (h : q.Ranks k full) (hasks : s.Asks q)
    (hf : s.snapshot.query.pages.Follows full.rows) (hlimit : config.maxOverfetch < maxWord)
    (hfetch : s.fetch q.store config = .ok p) :
    p.documents = pageOf full.rows s.snapshot.query.pages.size s.page ∧
      p.pages.StandsAt full.rows s.snapshot.query.pages.size s.page := by
  obtain ⟨plan, counted, total, r, hplan, -, -, hrows, rfl⟩ := fetch_eq_ok_iff.mp hfetch
  rw [hasks.rows_eq, hasks.ns] at hrows
  exact PageSource.fetch_standsAt hids hnodup h hf hlimit (hasks.plan_eq hplan)
    (Store.reply_eq_ok_iff.mp hrows)

/-- A page that can be planned and counted is fetched. -/
theorem exists_fetch (h : q.Ranks k full) (hasks : s.Asks q)
    (hf : s.snapshot.query.pages.Follows full.rows) (hplan : s.plan config = .ok plan)
    {counted : QueryResponse} {total : Nat}
    (hcounted : q.store.reply q.ns (.count q.filter) = .ok counted)
    (htotal : counted.count = .ok total) :
    ∃ p, s.fetch q.store config = .ok p ∧ p.total = total := by
  have hrows := Store.reply_eq_ok_iff.mpr
    (PageSource.answer_of_plan hids hnodup h hf (hasks.plan_eq hplan))
  rw [← hasks.rows_eq plan total, ← hasks.ns] at hrows
  rw [← hasks.ns, ← hasks.filter] at hcounted
  exact ⟨_, fetch_eq_ok_iff.mpr ⟨plan, counted, total, _, hplan, hcounted, htotal, hrows, rfl⟩,
    rfl⟩

end Slices

end LoadStart

namespace EngineState

/-- What the key of a page tells apart, but for order and paging. -/
def topic (s : EngineState) : String × String × String × String :=
  (s.connection, s.ns, trimString s.query.search, Engine.filtersKey s.query.filters)

theorem topic_of_inputs {s t : EngineState} (h : s.inputs = t.inputs) : s.topic = t.topic := by
  obtain ⟨hconnection, hns, hsearch, hfilters, -⟩ := inputs_eq_iff.mp h
  rw [topic, topic, hconnection, hns, hsearch, hfilters]

theorem filter_of_inputs {s t : EngineState} (h : s.inputs = t.inputs)
    (htypes : s.types = t.types) : s.filter = t.filter := by
  obtain ⟨-, -, hsearch, hfilters, -⟩ := inputs_eq_iff.mp h
  rw [filter, filter, hsearch, hfilters, htypes]

/-- When this is asked for, ranked by id in a direction, nothing false is known of the pages. -/
def Knows (ranked : List Document) (topic : String × String × String × String)
    (direction : Direction) (s : EngineState) : Prop :=
  1 ≤ s.query.pages.size ∧
    (s.topic = topic → s.query.sort = ⟨"id", direction⟩ → s.query.pages.Follows ranked)

/-- Pages that begin anew are not known. -/
theorem Knows.of_restarts {ranked : List Document} {topic : String × String × String × String}
    {direction : Direction} {s t : EngineState} (h : s.Knows ranked topic direction)
    (hrestarts : s.Restarts t) : t.Knows ranked topic direction := by
  obtain ⟨hsize, hpages⟩ := hrestarts h.1
  refine ⟨hsize, fun htopic hsort => ?_⟩
  rcases hpages with ⟨hinputs, hpages⟩ | ⟨p, hpages⟩
  · rw [hpages]
    obtain ⟨-, -, -, -, hsort'⟩ := inputs_eq_iff.mp hinputs
    exact h.2 ((topic_of_inputs hinputs).symm.trans htopic) (hsort'.symm.trans hsort)
  · rw [hpages] at hsize ⊢
    exact {
      size_pos := hsize
      page_pos := Nat.le_refl 1
      next := fun v hv => by cases hv
      previous := fun i v hv => by cases hv }

end EngineState

namespace Client

/-- In every state of a run with this topic the filters are compiled to this filter. -/
def OneFilter (c : Client) (acts : List Act) (topic : String × String × String × String)
    (filter : Option Filter) : Prop :=
  ∀ earlier, earlier <+: acts → (c.performAll earlier).engine.state.topic = topic →
    (c.performAll earlier).engine.state.filter = filter

/-- A load begins with the filter and the topic of the state that it finds. -/
theorem startOf_eq (c : Client) (options : LoadOptions) :
    (c.startOf options).snapshot.inputs = c.engine.state.inputs ∧
      (c.startOf options).filter = c.engine.state.filter ∧
      c.engine.state.Restarts (c.startOf options).snapshot := by
  have henter : c.engine.enterLoad options true =
      ((c.engine.enterLoad options true).1, c.startOf options) := rfl
  obtain ⟨hinputs, htypes, hrestarts⟩ := Engine.enterLoad_restarts henter
  exact ⟨hinputs, EngineState.filter_of_inputs hinputs htypes, hrestarts⟩

section Runs

variable {c : Client} {q : PageSource} {k : Nat} {full : QueryResponse} {acts : List Act}
  {connection search filters : String}
variable (hids : SameTypeIds (q.store.rows q.ns).documents)
variable (hnodup : ((q.store.rows q.ns).documents.map Document.id).Nodup)
variable (hranks : q.Ranks k full) (hstore : q.store = c.backend.store)
variable (hlimit : c.engine.config.maxOverfetch < maxWord)

/-- A load of a run with this topic asks for the rows of the source. -/
theorem OneFilter.asks (h : c.OneFilter acts (connection, q.ns, search, filters) q.filter)
    {earlier : List Act} (hearlier : earlier <+: acts) {options : LoadOptions}
    (htopic : ((c.performAll earlier).startOf options).snapshot.topic =
      (connection, q.ns, search, filters))
    (hsort : ((c.performAll earlier).startOf options).snapshot.query.sort = ⟨"id", q.direction⟩) :
    ((c.performAll earlier).startOf options).Asks q := by
  obtain ⟨hinputs, hfilter, -⟩ := (c.performAll earlier).startOf_eq options
  refine ⟨congrArg (fun t => t.2.1) htopic, hfilter.trans (h earlier hearlier ?_), hsort⟩
  exact (EngineState.topic_of_inputs hinputs).symm.trans htopic

include hids hnodup hranks hstore hlimit

/-- What a load finds that begins where nothing false is known. -/
theorem OneFilter.fetched (h : c.OneFilter acts (connection, q.ns, search, filters) q.filter)
    {earlier : List Act} (hearlier : earlier <+: acts) {options : LoadOptions}
    (hknows : (c.performAll earlier).engine.state.Knows full.rows
      (connection, q.ns, search, filters) q.direction)
    (htopic : ((c.performAll earlier).startOf options).snapshot.topic =
      (connection, q.ns, search, filters))
    (hsort : ((c.performAll earlier).startOf options).snapshot.query.sort = ⟨"id", q.direction⟩)
    {p : FetchedPage} (hfetch : ((c.performAll earlier).startOf options).fetch c.backend.store
      c.engine.config = .ok p) :
    p.documents = pageOf full.rows
        ((c.performAll earlier).startOf options).snapshot.query.pages.size
        ((c.performAll earlier).startOf options).page ∧
      p.pages.StandsAt full.rows
        ((c.performAll earlier).startOf options).snapshot.query.pages.size
        ((c.performAll earlier).startOf options).page := by
  obtain ⟨-, -, hrestarts⟩ := (c.performAll earlier).startOf_eq options
  rw [← hstore] at hfetch
  exact LoadStart.fetch_standsAt hids hnodup hranks (h.asks hearlier htopic hsort)
    ((hknows.of_restarts hrestarts).2 htopic hsort) hlimit hfetch

/-- A page that was found before, in a run in which nothing false is known, is a slice too. -/
theorem OneFilter.sourced (h : c.OneFilter acts (connection, q.ns, search, filters) q.filter)
    (hknows : ∀ earlier, earlier <+: acts → (c.performAll earlier).engine.state.Knows full.rows
      (connection, q.ns, search, filters) q.direction)
    {s : LoadStart} (htopic : s.snapshot.topic = (connection, q.ns, search, filters))
    (hsort : s.snapshot.query.sort = ⟨"id", q.direction⟩) {page : CachedPage}
    (hsourced : c.Sourced acts s.key page) :
    page.documents = pageOf full.rows s.snapshot.query.pages.size s.page ∧
      page.next = boundaryBehind full.rows s.snapshot.query.pages.size s.page := by
  obtain ⟨earlier, hearlier, options, p, hkey, hfetch, rfl⟩ := hsourced
  obtain ⟨hpage, hconnection, hns, hsort', hsize, hsearch, hfilters⟩ := LoadStart.eq_of_key_eq hkey
  have htopic' : ((c.performAll earlier).startOf options).snapshot.topic =
      (connection, q.ns, search, filters) := by
    rw [← htopic, EngineState.topic, EngineState.topic, hconnection, hns, hsearch, hfilters]
  obtain ⟨hdocuments, hat⟩ := h.fetched hids hnodup hranks hstore hlimit hearlier
    (hknows earlier hearlier) htopic' (hsort'.trans hsort) hfetch
  rw [hsize, hpage] at hdocuments hat
  exact ⟨hdocuments, hat.next⟩

/-- A load leaves a state in which nothing false is known. -/
theorem OneFilter.load (h : c.OneFilter acts (connection, q.ns, search, filters) q.filter)
    (hkept : c.Kept acts)
    (hknows : ∀ earlier, earlier <+: acts → (c.performAll earlier).engine.state.Knows full.rows
      (connection, q.ns, search, filters) q.direction) (options : LoadOptions) :
    ((c.performAll acts).load options).1.engine.state.Knows full.rows
      (connection, q.ns, search, filters) q.direction := by
  obtain ⟨e, s, henter⟩ :
      ∃ e s, (c.performAll acts).engine.enterLoad options true = (e, s) := ⟨_, _, rfl⟩
  have hstart : (c.performAll acts).startOf options = s := by rw [startOf, henter]
  obtain ⟨-, -, hconfig, hcache⟩ := Engine.enterLoad_eq henter
  obtain ⟨hinputs, -, hrestarts⟩ := (c.performAll acts).startOf_eq options
  rw [hstart] at hinputs hrestarts
  have hbegun := (hknows acts List.prefix_rfl).of_restarts hrestarts
  rcases load_left henter with ⟨hsame, -⟩ | ⟨e', result, b, hends, -, -, hleft⟩
  · rw [hsame]
    exact hknows acts List.prefix_rfl
  cases result with
  | error f => exact hbegun.of_restarts (EngineState.restarts_of_question hleft)
  | ok p =>
    obtain ⟨hinputs', hpages, -, -⟩ := hleft
    obtain ⟨-, -, -, -, hsort'⟩ := EngineState.inputs_eq_iff.mp hinputs'
    -- whether the page was cached or fetched, the reader stands at it if this is the topic
    have hat : p.pages.size = s.snapshot.query.pages.size ∧
        (s.snapshot.topic = (connection, q.ns, search, filters) →
          s.snapshot.query.sort = ⟨"id", q.direction⟩ →
            1 ≤ s.page ∧
              p.pages.StandsAt full.rows s.snapshot.query.pages.size s.page) := by
      cases hends with
      | hit plan page e' hforce hplan hcached =>
        refine ⟨Pagination.restore_size _ _, fun htopic hsort => ?_⟩
        have hasks : s.Asks q := by
          rw [← hstart] at htopic hsort ⊢
          exact h.asks List.prefix_rfl htopic hsort
        have hsourced : c.Sourced acts s.key page :=
          TtlCache.Holds.of_get (hcache ▸ hkept.sourced) (congrArg Prod.fst hcached)
        obtain ⟨-, hnext⟩ :=
          h.sourced hids hnodup hranks hstore hlimit hknows htopic hsort hsourced
        exact ⟨(Pagination.plan_eq_ok (hasks.plan_eq hplan)).1,
          Pagination.restore_standsAt (hbegun.2 htopic hsort) (hasks.plan_eq hplan) hnext⟩
      | fetched plan e' result b hplan hlook hfinds =>
        have hfound := hfinds.found p rfl
        refine ⟨LoadStart.pages_size_of_fetch hfound, fun htopic hsort => ?_⟩
        rw [hkept.store, hconfig, hkept.config, ← hstart] at hfound
        rw [← hstart] at htopic hsort hplan ⊢
        exact ⟨(Pagination.plan_eq_ok hplan).1, (h.fetched hids hnodup hranks hstore hlimit
          List.prefix_rfl (hknows acts List.prefix_rfl) htopic hsort hfound).2⟩
    obtain ⟨hsize, hat⟩ := hat
    unfold EngineState.Knows
    rw [hpages, hsize]
    refine ⟨hbegun.1, fun htopic hsort => ?_⟩
    obtain ⟨hpage, hat⟩ := hat ((EngineState.topic_of_inputs hinputs').symm.trans htopic)
      (hsort'.symm.trans hsort)
    exact hat.follows hbegun.1 hpage

/-- **In a run with one filter nothing false is known** of the pages that it ranks by id. -/
theorem OneFilter.knows (h : c.OneFilter acts (connection, q.ns, search, filters) q.filter)
    (hnew : c.engine.cache.queries.entries = [])
    (hfirst : c.engine.state.Knows full.rows (connection, q.ns, search, filters) q.direction) :
    ∀ earlier, earlier <+: acts → (c.performAll earlier).engine.state.Knows full.rows
      (connection, q.ns, search, filters) q.direction := by
  induction acts using List.reverseRecOn with
  | nil =>
    intro earlier hearlier
    rw [List.prefix_nil.mp hearlier]
    exact hfirst
  | append_singleton acts a ih =>
    have hbefore : c.OneFilter acts (connection, q.ns, search, filters) q.filter :=
      fun earlier hearlier => h earlier (hearlier.trans (List.prefix_append acts [a]))
    have ih := ih hbefore
    intro earlier hearlier
    rcases List.prefix_concat_iff.mp hearlier with rfl | hearlier
    · rw [performAll_concat]
      cases a with
      | change ch => exact (ih acts List.prefix_rfl).of_restarts (Engine.restarts_change _ ch)
      | fail f => exact ih acts List.prefix_rfl
      | call k =>
        rw [perform]
        rcases (c.performAll acts).invoke_cases k with ⟨options, hload⟩ | ⟨hquestion, -⟩
        · rw [hload]
          exact hbefore.load hids hnodup hranks hstore hlimit (kept_performAll hnew acts) ih
            options
        · exact (ih acts List.prefix_rfl).of_restarts (EngineState.restarts_of_question hquestion)
    · exact ih earlier hearlier

/-- **A page that was found before is the page that would be fetched now**, in a run with one
filter. -/
theorem OneFilter.fetch_of_sourced
    (h : c.OneFilter acts (connection, q.ns, search, filters) q.filter)
    (hnew : c.engine.cache.queries.entries = [])
    (hfirst : c.engine.state.Knows full.rows (connection, q.ns, search, filters) q.direction)
    {options : LoadOptions}
    (htopic : ((c.performAll acts).startOf options).snapshot.topic =
      (connection, q.ns, search, filters))
    (hsort : ((c.performAll acts).startOf options).snapshot.query.sort = ⟨"id", q.direction⟩)
    {plan : PagePlan}
    (hplan : ((c.performAll acts).startOf options).plan c.engine.config = .ok plan)
    {page : CachedPage}
    (hsourced : c.Sourced acts ((c.performAll acts).startOf options).key page)
    {counted : QueryResponse} (hcounted : q.store.reply q.ns (.count q.filter) = .ok counted)
    (htotal : counted.count = .ok page.total) :
    ∃ p, ((c.performAll acts).startOf options).fetch c.backend.store c.engine.config = .ok p ∧
      page = ⟨p.documents, p.total, p.pages.next⟩ := by
  have hknows := h.knows hids hnodup hranks hstore hlimit hnew hfirst
  obtain ⟨-, -, hrestarts⟩ := (c.performAll acts).startOf_eq options
  have hbegun := ((hknows acts List.prefix_rfl).of_restarts hrestarts).2 htopic hsort
  obtain ⟨hdocuments, hnext⟩ :=
    h.sourced hids hnodup hranks hstore hlimit hknows htopic hsort hsourced
  obtain ⟨p, hfetch, hp⟩ := LoadStart.exists_fetch hids hnodup hranks
    (h.asks List.prefix_rfl htopic hsort) hbegun hplan hcounted htotal
  rw [hstore] at hfetch
  obtain ⟨hdocuments', hat⟩ := h.fetched hids hnodup hranks hstore hlimit List.prefix_rfl
    (hknows acts List.prefix_rfl) htopic hsort hfetch
  refine ⟨p, hfetch, ?_⟩
  rw [hdocuments', hat.next, hp, ← hdocuments, ← hnext]

end Runs

end Client

/-! ### What a later load would fetch -/

namespace Pagination

variable {p p' : Pagination} {page limit : Nat} {pages pages' : Option Nat}
  {plan plan' : PagePlan}

/-- Where rows are not ranked by id, a page is cut from all rows. -/
theorem plan_unranked (h : p.plan page false pages limit = .ok plan) :
    p.overfetch page false limit = .ok plan ∧ plan.cursor? = none := by
  have hfetch := (plan_eq_ok h).2
  rw [Pagination.plan.fetch, if_neg Bool.false_ne_true] at hfetch
  refine ⟨hfetch, ?_⟩
  obtain ⟨-, rfl⟩ := overfetch_eq_ok hfetch
  rfl

/-- So its plan is made of its number and its size. -/
theorem plan_unranked_congr (hsize : p.size = p'.size)
    (h : p.plan page false pages limit = .ok plan)
    (h' : p'.plan page false pages' limit = .ok plan') : plan = plan' := by
  have hsame : p.overfetch page false limit = p'.overfetch page false limit := by
    rw [overfetch, overfetch, hsize]
  rw [(plan_unranked h).1, (plan_unranked h').1] at hsame
  exact Except.ok.inj hsame

end Pagination

/-- What can be counted can be ranked. -/
theorem PageSource.exists_ranks {store : Store} {ns : String} {filter : Option Filter}
    {counted : QueryResponse} (h : store.reply ns (.count filter) = .ok counted)
    (direction : Direction) :
    ∃ full, PageSource.Ranks ⟨store, ns, filter, direction⟩ (store.size ns) full := by
  have hquery := Store.reply_eq_ok_iff.mp h
  unfold Store.query at hquery
  cases hrows : store.namespaces.get? ns with
  | none =>
    rw [hrows] at hquery
    cases hquery
  | some rows =>
    rw [hrows] at hquery
    dsimp only at hquery
    cases hp : Store.predicate? filter with
    | error flaw =>
      have hfilter : (QueryRequest.count filter).filter = filter := rfl
      rw [hfilter, hp] at hquery
      cases hquery
    | ok p =>
      exact ⟨_, Store.query_rows_iff.mpr ⟨rows, p, hrows, hp, rfl⟩, Nat.le_refl _⟩

namespace LoadStart

variable {store : Store} {config : EngineConfig} {s t : LoadStart} {plan : PagePlan}
  {p : FetchedPage}

/-- **Pages that are not ranked by id are cut alike** by all loads with the same key and filter. -/
theorem fetch_unranked (hkey : t.key = s.key) (hfilter : t.filter = s.filter)
    (hsort : s.snapshot.query.sort.name ≠ "id") (hplan : s.plan config = .ok plan)
    (hfetch : t.fetch store config = .ok p) : ∃ q, s.fetch store config = .ok q ∧
      (⟨p.documents, p.total, p.pages.next⟩ : CachedPage) =
        ⟨q.documents, q.total, q.pages.next⟩ := by
  obtain ⟨hpage, -, hns, hsame, hsize, -⟩ := eq_of_key_eq hkey
  obtain ⟨plan', counted, total, r, hplan', hcounted, htotal, hrows, rfl⟩ :=
    fetch_eq_ok_iff.mp hfetch
  have hunranked : s.snapshot.query.isKeyset = false := beq_false_of_ne hsort
  have hunranked' : t.snapshot.query.isKeyset = false := by
    rw [QueryState.isKeyset, hsame]
    exact hunranked
  -- the plans are the same, and without boundaries
  have hcut := hplan
  have hcut' := hplan'
  rw [LoadStart.plan, hunranked] at hcut
  rw [LoadStart.plan, hunranked', hpage] at hcut'
  obtain rfl := Pagination.plan_unranked_congr hsize hcut' hcut
  have hcursor := (Pagination.plan_unranked hcut).2
  have hrowsFilter (l : LoadStart) : Load.rowsFilter ⟨l, plan', .fetching total⟩ = l.filter := by
    unfold Load.rowsFilter
    dsimp only
    rw [hcursor]
  rw [hrowsFilter, hns, hsame, hsize, hfilter, ← hrowsFilter s] at hrows
  rw [hns, hfilter] at hcounted
  refine ⟨_, fetch_eq_ok_iff.mpr ⟨plan', counted, total, r, hplan, hcounted, htotal, hrows, rfl⟩,
    ?_⟩
  rw [Pagination.commit_next, Pagination.commit_next, hsize]
  rfl

end LoadStart

namespace Client

/-- A load of a run that found a page under a key had the topic of the key, and the filter of the
present state if there is one filter. -/
theorem OneFilter.source_eq {c : Client} {acts earlier : List Act} {options options' : LoadOptions}
    (h : c.OneFilter acts (c.performAll acts).engine.state.topic
      (c.performAll acts).engine.state.filter) (hearlier : earlier <+: acts)
    (hkey : ((c.performAll earlier).startOf options').key =
      ((c.performAll acts).startOf options).key) :
    ((c.performAll earlier).startOf options').filter =
      ((c.performAll acts).startOf options).filter := by
  obtain ⟨-, hconnection, hns, -, -, hsearch, hfilters⟩ := LoadStart.eq_of_key_eq hkey
  obtain ⟨hinputs, hfilter, -⟩ := (c.performAll acts).startOf_eq options
  obtain ⟨hinputs', hfilter', -⟩ := (c.performAll earlier).startOf_eq options'
  rw [hfilter, hfilter']
  refine h earlier hearlier ?_
  rw [← EngineState.topic_of_inputs hinputs, ← EngineState.topic_of_inputs hinputs',
    EngineState.topic, EngineState.topic, hconnection, hns, hsearch, hfilters]

/-- Where no page is known and none is cached, one filter is enough. -/
theorem OneFilter.agrees {c : Client} {acts : List Act} {options : LoadOptions}
    (hnew : c.engine.cache.queries.entries = [])
    (hfirst : ∀ ranked topic direction, c.engine.state.Knows ranked topic direction)
    (hlimit : c.engine.config.maxOverfetch < maxWord)
    (hsort : (c.performAll acts).engine.state.query.sort.name ≠ "id" ∨
      SameTypeIds (c.backend.store.rows (c.performAll acts).engine.state.ns).documents ∧
        ((c.backend.store.rows (c.performAll acts).engine.state.ns).documents.map
          Document.id).Nodup)
    (h : c.OneFilter acts (c.performAll acts).engine.state.topic
      (c.performAll acts).engine.state.filter)
    {plan : PagePlan}
    (hplan : ((c.performAll acts).startOf options).plan c.engine.config = .ok plan)
    {page : CachedPage}
    (hsourced : c.Sourced acts ((c.performAll acts).startOf options).key page) :
    ∃ p, ((c.performAll acts).startOf options).fetch c.backend.store c.engine.config = .ok p ∧
      page = ⟨p.documents, p.total, p.pages.next⟩ := by
  obtain ⟨hinputs, hfilter, -⟩ := (c.performAll acts).startOf_eq options
  obtain ⟨-, hns, -, -, hsame⟩ := EngineState.inputs_eq_iff.mp hinputs
  have htopic := EngineState.topic_of_inputs hinputs
  obtain ⟨earlier, hearlier, options', p, hkey, hfetch, hpage⟩ := hsourced
  have hone := h.source_eq hearlier hkey
  by_cases hid : (c.performAll acts).engine.state.query.sort.name = "id"
  · obtain ⟨hids, hnodup⟩ := hsort.resolve_left fun hne => hne hid
    -- the total was counted with the present filter, so the rows can be ranked
    obtain ⟨plan', counted, total, r, -, hcounted, htotal, -, hp⟩ :=
      LoadStart.fetch_eq_ok_iff.mp hfetch
    rw [hone, hfilter, (LoadStart.eq_of_key_eq hkey).2.2.1, hns] at hcounted
    obtain ⟨search, filters, hparts⟩ : ∃ search filters,
        (c.performAll acts).engine.state.topic =
          ((c.performAll acts).engine.state.connection, (c.performAll acts).engine.state.ns,
            search, filters) := ⟨_, _, rfl⟩
    have hranked : ((c.performAll acts).startOf options).snapshot.query.sort =
        ⟨"id", (c.performAll acts).engine.state.query.sort.direction⟩ := by
      rw [hsame, ← hid]
    have htotal' : counted.count = .ok page.total := by
      rw [hpage, hp]
      exact htotal
    have hsourced : c.Sourced acts ((c.performAll acts).startOf options).key page :=
      ⟨earlier, hearlier, options', p, hkey, hfetch, hpage⟩
    rw [hparts] at h htopic
    clear hone hfilter
    generalize (c.performAll acts).engine.state.filter = filter at h hcounted
    obtain ⟨full, hranks⟩ := PageSource.exists_ranks hcounted
      (c.performAll acts).engine.state.query.sort.direction
    exact h.fetch_of_sourced hids hnodup hranks rfl hlimit hnew (hfirst _ _ _) htopic hranked hplan
      hsourced hcounted htotal'
  · rw [hpage]
    refine LoadStart.fetch_unranked hkey hone ?_ hplan hfetch
    rwa [hsame]

/-- **The cached path agrees with the uncached one where filters stay what they are.** A load that
ends with a cached page shows a page that some load of the run would have found, with the filter of
its time; it leaves what it would leave past the cache exactly if its own fetch returns that page.
So it is if in all states of the run with this topic the filters are compiled alike and, where rows
are ranked by id, the ids are different and of one type. -/
theorem cached_agrees {config : EngineConfig} {connection ns : String} {historyLimit : Option Nat}
    {b : Backend} {acts : List Act} {c : Client}
    (hrun : (opened config connection ns historyLimit b).performAll acts = c)
    {options : LoadOptions} (hcached : (c.load options).2 = .cached)
    (hfailures : c.backend.failures = []) :
    (∃ page,
      (opened config connection ns historyLimit b).Sourced acts (c.startOf options).key page ∧
      (c.load options).1.engine.state.shown =
        (if options.append then (c.startOf options).snapshot.documents ++ page.documents
          else page.documents, some page.total, (c.startOf options).page, page.next) ∧
      (c.Agrees options ↔ ∃ q, (c.startOf options).fetch b.store config = .ok q ∧
        page = ⟨q.documents, q.total, q.pages.next⟩)) ∧
    (config.maxOverfetch < maxWord →
      (c.engine.state.query.sort.name ≠ "id" ∨
        SameTypeIds (b.store.rows c.engine.state.ns).documents ∧
          ((b.store.rows c.engine.state.ns).documents.map Document.id).Nodup) →
      (opened config connection ns historyLimit b).OneFilter acts c.engine.state.topic
        c.engine.state.filter →
      c.Agrees options) := by
  have hkept : (opened config connection ns historyLimit b).Kept acts := kept_performAll rfl acts
  subst hrun
  obtain ⟨plan, page, hplan, hpage, hshown, hagrees⟩ := agrees_iff hcached hfailures
  rw [hkept.store, hkept.config] at hagrees
  rw [hkept.config] at hplan
  have hsourced := hpage _ hkept.sourced
  refine ⟨⟨page, hsourced, hshown, hagrees⟩, fun hlimit hsort hone => hagrees.mpr ?_⟩
  exact hone.agrees rfl (fun _ _ _ => ⟨Nat.le_max_right _ 1, fun _ _ => Pagination.follows_start⟩)
    hlimit hsort hplan hsourced

/-- Two tagged documents are loaded twice. -/
theorem cached_agrees_tags :
    ((tagsClient.performAll [.call (.load .default)]).load .default).2 = .cached ∧
      (tagsClient.performAll [.call (.load .default)]).Agrees .default := by
  have hrun : (((tagsClient.performAll [.call (.load .default)]).load .default).2,
      (tagsClient.performAll [.call (.load .default)]).backend.failures,
      (tagsClient.performAll [.call (.load .default)]).engine.state.ns,
      (tagsClient.performAll [.call (.load .default)]).engine.state.filter) =
        (.cached, [], "docs", none) := by
    cbv
  obtain ⟨hcached, hrun⟩ := Prod.ext_iff.mp hrun
  obtain ⟨hfailures, hrun⟩ := Prod.ext_iff.mp hrun
  obtain ⟨hns, hfilter⟩ := Prod.ext_iff.mp hrun
  dsimp only at hcached hfailures hns hfilter
  have hids : (tagsBackend.store.rows "docs").documents.map Document.id = [.int 1, .int 2] := by
    cbv
  obtain ⟨-, hagrees⟩ := cached_agrees (c := tagsClient.performAll [.call (.load .default)])
    (b := tagsBackend) rfl hcached hfailures
  refine ⟨hcached, hagrees (by decide) (Or.inr ?_) ?_⟩
  · rw [hns]
    refine ⟨Or.inl fun d hd => ?_, ?_⟩
    · have hd : d.id ∈ [Value.int 1, Value.int 2] := hids ▸ List.mem_map_of_mem hd
      rcases List.mem_pair.mp hd with hd | hd <;> exact ⟨_, hd⟩
    · rw [hids]
      simp
  · -- without filters and text there is nothing to compile
    intro earlier hearlier _
    rw [hfilter]
    rcases List.prefix_cons_iff.mp hearlier with rfl | ⟨rest, rfl, hrest⟩
    · rfl
    · rw [List.prefix_nil.mp hrest]
      exact hfilter

/-- **A cached page can outlive its filter.** Two documents with tags are asked for without one tag.
The first load compares tags with a text and finds both; its rows show that tags are arrays. The
cached page still has both, and past the cache there is one. -/
theorem cached_disagrees :
    ((tagsClient.performAll [.change untagged, .call (.load .default)]).load .default).2 =
        .cached ∧
      (tagsClient.performAll [.change untagged, .call (.load .default)]).backend.failures = [] ∧
      ¬ (tagsClient.performAll [.change untagged, .call (.load .default)]).Agrees .default := by
  have hrun : (((tagsClient.performAll [.change untagged, .call (.load .default)]).load .default).2,
      (tagsClient.performAll [.change untagged, .call (.load .default)]).backend.failures,
      ((tagsClient.performAll [.change untagged, .call (.load .default)]).load
        .default).1.engine.state.total,
      ((tagsClient.performAll [.change untagged, .call (.load .default)]).load
        LoadOptions.default.past).1.engine.state.total) = (.cached, [], some 2, some 1) := by
    cbv
  obtain ⟨hcached, hrun⟩ := Prod.ext_iff.mp hrun
  obtain ⟨hfailures, hrun⟩ := Prod.ext_iff.mp hrun
  obtain ⟨hfound, hpast⟩ := Prod.ext_iff.mp hrun
  refine ⟨hcached, hfailures, fun h => ?_⟩
  have hsame : some 2 = some 1 :=
    hfound.symm.trans ((congrArg (fun shown => shown.2.1) h.2).trans hpast)
  cases hsame

end Client

end DocQuery
