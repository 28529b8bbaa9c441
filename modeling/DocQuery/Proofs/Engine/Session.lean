import DocQuery.Proofs.Engine.Client
import Mathlib.Data.List.Induction

/-!
# One person at work

A person changes what is asked for, loads, turns pages and discovers the schema, each time waiting
for the end, while the documents stay as they are.

* `DocQuery.Call`, `DocQuery.Act` – what a person does; `Client.invoke`, `Client.perform` – the
  effect, `Client.performAll` – that of a run;
* `EngineState.inputs` – what is asked for, but for the paging; calls keep it
  (`Client.inputs_invoke`);
* `Engine.planOf` – the plan for a page, as things stand;
* `LoadStart.Left` – the state that a load leaves (`Client.load_left`);
* `Client.Kept` – **every cached page was found by a load of the run**, with the filter of its time
  (`Client.kept_performAll`).
-/

namespace DocQuery

/-! ### What is asked for -/

namespace EngineState

/-- What is asked for, but for the paging. -/
def inputs (s : EngineState) : String × String × String × List ActiveFilter × RankBy :=
  (s.connection, s.ns, s.query.search, s.query.filters, s.query.sort)

theorem inputs_eq_iff {s t : EngineState} : s.inputs = t.inputs ↔
    s.connection = t.connection ∧ s.ns = t.ns ∧ s.query.search = t.query.search ∧
      s.query.filters = t.query.filters ∧ s.query.sort = t.query.sort := by
  simp [inputs]

theorem inputs_of_question {s t : EngineState} (h : s.question = t.question) :
    s.inputs = t.inputs := by
  obtain ⟨hconnection, hns, hquery⟩ : s.connection = t.connection ∧ s.ns = t.ns ∧
      s.query = t.query := by
    simpa [question] using h
  rw [inputs, inputs, hconnection, hns, hquery]

/-- The paging begins anew, or it is as before. -/
def Restarts (s t : EngineState) : Prop :=
  1 ≤ s.query.pages.size →
    1 ≤ t.query.pages.size ∧
      (t.inputs = s.inputs ∧ t.query.pages = s.query.pages ∨
        ∃ p : Pagination, t.query.pages = p.reset)

theorem restarts_of_question {s t : EngineState} (h : t.question = s.question) : s.Restarts t := by
  have hquery : t.query = s.query := congrArg (fun q => q.2.2) h
  intro hsize
  rw [hquery]
  exact ⟨hsize, Or.inl ⟨inputs_of_question h, rfl⟩⟩

/-- Whoever asks for something else starts at the first page. -/
theorem restarts_reduce {s : EngineState} {a : Action} (h : a.isInput = true) :
    s.Restarts (s.reduce a) := by
  intro hsize
  have hpages : (s.reduce a).inputs = s.inputs ∧ (s.reduce a).query.pages = s.query.pages ∨
      ∃ p : Pagination, (s.reduce a).query.pages = p.reset := by
    rcases reduce_of_isInput (s := s) h with heq | ⟨t, query, heq, -⟩
    · rw [heq]
      exact Or.inl ⟨rfl, rfl⟩
    · rw [heq]
      exact Or.inr ⟨query.pages, rfl⟩
  refine ⟨?_, hpages⟩
  cases a with
  | setPageSize size =>
    rw [reduce]
    dsimp only
    split
    · exact hsize
    · exact Nat.le_max_right size 1
  | updateFilter f =>
    rw [reduce]
    split <;> exact hsize
  | removeFilter id =>
    rw [reduce]
    dsimp only
    split <;> exact hsize
  | clearFilters =>
    rw [reduce]
    split <;> exact hsize
  | setSearch text =>
    rw [reduce]
    split <;> exact hsize
  | setSort sort =>
    rw [reduce]
    split <;> exact hsize
  | addFilter f => exact hsize
  | restoreQuery search filters => exact hsize
  | setNamespace connection ns => exact hsize
  | _ => cases h

end EngineState

namespace Engine

theorem restarts_change (e : Engine) (c : Change) : e.state.Restarts (e.change c).state := by
  rcases e.change_cases c with h | ⟨a, ha, h⟩
  · rw [h]
    exact EngineState.restarts_of_question rfl
  · rw [h]
    exact EngineState.restarts_reduce ha

section Enter

variable {e e' : Engine} {s : LoadStart} {options : LoadOptions}
  (henter : e.enterLoad options true = (e', s))

include henter

/-- A load begins in the state that it finds, with the page size it sets. -/
theorem enterLoad_eq : s.options = options ∧ s.snapshot = e'.state ∧ e'.config = e.config ∧
    e'.cache = e.cache := by
  obtain ⟨rfl, rfl⟩ := Prod.ext_iff.mp henter
  refine ⟨rfl, rfl, ?_, ?_⟩ <;>
  · unfold enterLoad
    cases options.limit <;> rfl

theorem enterLoad_restarts : s.snapshot.inputs = e.state.inputs ∧
    s.snapshot.types = e.state.types ∧ e.state.Restarts s.snapshot := by
  obtain ⟨rfl, rfl⟩ := Prod.ext_iff.mp henter
  unfold enterLoad
  cases options.limit with
  | none => exact ⟨rfl, rfl, EngineState.restarts_of_question rfl⟩
  | some size =>
    have hstate : ∀ t : EngineState, t.inputs = e.state.inputs ∧ t.types = e.state.types ∧
        e.state.Restarts t →
          (t.reduce .loadStarted).inputs = e.state.inputs ∧
            (t.reduce .loadStarted).types = e.state.types ∧
            e.state.Restarts (t.reduce .loadStarted) := fun t h => h
    refine hstate (e.state.reduce (.setPageSize size)) ⟨?_, ?_, EngineState.restarts_reduce rfl⟩
    · unfold EngineState.reduce
      dsimp only
      split <;> rfl
    · unfold EngineState.reduce
      dsimp only
      split <;> rfl

end Enter

/-- The plan for a page, as things stand. -/
def planOf (e : Engine) (page : Nat) : Except PlanFlaw PagePlan :=
  e.state.query.pages.plan page e.state.query.isKeyset e.state.pageCount? e.config.maxOverfetch

end Engine

/-! ### What a load leaves -/

/-- The state that a load leaves with its result. -/
def LoadStart.Left (s : LoadStart) : Except Failure FetchedPage → EngineState → Prop
  | .ok p, t =>
    t.inputs = s.snapshot.inputs ∧ t.query.pages = p.pages ∧ t.total = some p.total ∧
      t.documents =
        if s.options.append then s.snapshot.documents ++ p.documents else p.documents
  | .error _, t => t.question = s.snapshot.question

theorem Engine.endLoad_left {e : Engine} {s : LoadStart} (h : e.state = s.snapshot)
    (result : Except Failure FetchedPage) : s.Left result (e.endLoad s result).1.state := by
  have htimely : e.state.generation = s.snapshot.generation := congrArg EngineState.generation h
  rw [endLoad_of_timely htimely]
  cases result with
  | error f =>
    have hquestion : e.state.question = s.snapshot.question := congrArg EngineState.question h
    exact hquestion
  | ok p =>
    obtain ⟨attributes, isDiscovering, hstate⟩ := e.applyPage_state s.options p
    rw [h] at hstate
    have hsettled : ((e.applyPage s.options p).dispatch .loadSettled).state =
        (e.applyPage s.options p).state.reduce .loadSettled := rfl
    dsimp only
    rw [hsettled, hstate]
    exact ⟨rfl, rfl, rfl, rfl⟩

namespace Client

variable {c : Client} {options : LoadOptions} {e e' : Engine} {s : LoadStart}
  {result : Except Failure FetchedPage} {b : Backend}

/-- **The state that a load leaves** if it is not skipped. -/
theorem load_left (henter : c.engine.enterLoad options true = (e, s)) :
    ((c.load options).1 = c ∧ (c.load options).2 = .skipped ∧
        c.engine.state.isLoading = true ∧ options.force = false) ∨
      ∃ e' result b, Ends c e s e' result b ∧
        (c.load options).1 = ⟨(e'.endLoad s result).1, b⟩ ∧
        (c.load options).2 = (match result with
          | .ok p => if p.fromCache then .cached else .loaded
          | .error _ => .failed) ∧
        s.Left result (c.load options).1.engine.state := by
  obtain ⟨hoptions, hsnapshot, -, -⟩ := Engine.enterLoad_eq henter
  rcases c.load_cases options henter with ⟨hload, -, hloading, hforce⟩ |
    ⟨e', result, b, hends, hload, hstate, -⟩
  · rw [hload]
    exact Or.inl ⟨rfl, rfl, hloading, hforce⟩
  · rw [hload]
    have hsame : e'.state = s.snapshot := hstate.trans hsnapshot.symm
    refine Or.inr ⟨e', result, b, hends, rfl, ?_, Engine.endLoad_left hsame result⟩
    rw [Engine.endLoad_of_timely (congrArg EngineState.generation hsame)]
    cases result <;> rfl

/-- A client that is idle is idle after a load. -/
theorem load_idle (hidle : c.engine.state.inFlight = 0) (options : LoadOptions) :
    (c.load options).1.engine.state.inFlight = 0 := by
  obtain ⟨e, s, henter⟩ : ∃ e s, c.engine.enterLoad options true = (e, s) := ⟨_, _, rfl⟩
  rcases c.load_cases options henter with ⟨hload, -⟩ | ⟨e', result, b, -, hload, hstate, -⟩
  · rw [hload]
    exact hidle
  · have hentered := c.engine.enterLoad_inFlight options true
    rw [henter, hidle] at hentered
    rw [hload]
    dsimp only
    rw [Engine.endLoad_generation.2, hstate, hentered]

theorem Ends.store_eq (h : Ends c e s e' result b) : b.store = c.backend.store := by
  cases h with
  | unplanned => rfl
  | hit => rfl
  | fetched plan e' result b hplan hlook hfinds => exact hfinds.store

/-- A load changes no document. -/
theorem store_load (c : Client) (options : LoadOptions) :
    (c.load options).1.backend.store = c.backend.store := by
  obtain ⟨e, s, henter⟩ : ∃ e s, c.engine.enterLoad options true = (e, s) := ⟨_, _, rfl⟩
  rcases load_left henter with ⟨hsame, -⟩ | ⟨e', result, b, hends, hload, -⟩
  · rw [hsame]
  · rw [hload]
    exact hends.store_eq

/-- **Whatever is cached was found**: what holds of the pages in the cache, and of what a load finds
under its key, holds of the pages in the cache after the load. -/
theorem Ends.holds {P : QueryKey → CachedPage → Prop} (h : Ends c e s e' result b)
    (hcache : e.cache.queries.Holds P)
    (hfound : ∀ p, s.fetch c.backend.store e.config = .ok p →
      P s.key ⟨p.documents, p.total, p.pages.next⟩) :
    e'.cache.queries.Holds P ∧ e'.config = e.config := by
  have hget (e' : Engine) (h : (e.cachedPage s.key).2 = e') :
      e'.cache.queries.Holds P ∧ e'.config = e.config := by
    rw [← h]
    exact ⟨hcache.get _ _, rfl⟩
  cases h with
  | unplanned => exact ⟨hcache, rfl⟩
  | hit plan page e' hforce hplan hcached => exact hget _ (congrArg Prod.snd hcached)
  | fetched plan e₁ result b hplan hlook hfinds =>
    have hlooked : e₁.cache.queries.Holds P ∧ e₁.config = e.config := by
      have h : e₁ = (e.lookUp s plan).2 := (congrArg Prod.snd hlook).symm
      cases hforce : s.options.force with
      | true =>
        rw [Engine.lookUp, if_pos hforce] at h
        rw [h]
        exact ⟨hcache, rfl⟩
      | false =>
        rw [Engine.lookUp_eq hforce] at h
        rw [h]
        exact hget _ rfl
    cases result with
    | error f => exact hlooked
    | ok p => exact ⟨hlooked.1.insert _ (hfound p (hfinds.found p rfl)), hlooked.2⟩

end Client

/-! ### Acts -/

/-- A call that changes nothing of what is asked for. -/
inductive Call where
  | load (options : LoadOptions)
  | next
  | previous
  | goTo (page : Nat)
  | more
  | discover (force : Bool)
  | clearError
  | clearCache

/-- What happens next to a client. -/
inductive Act where
  | change (c : Change)
  | call (k : Call)
  /-- A call to the backend is going to fail. -/
  | fail (f : Failure)

/-- The load of a call. A page that there is not is not loaded. -/
def Call.options? (e : Engine) : Call → Option LoadOptions
  | .load options => some options
  | .next => e.nextPage.toOption
  | .previous => e.previousPage.toOption
  | .goTo page => (e.goToPage page).toOption
  | .more => e.more
  | _ => none

namespace Client

/-- The client after a call. -/
def invoke (c : Client) (k : Call) : Client :=
  match k.options? c.engine with
  | some options => (c.load options).1
  | none =>
    match k with
    | .discover force => (c.discover force).1
    | .clearError => c.modify Engine.clearError
    | .clearCache => c.modify Engine.clearCache
    | _ => c

theorem invoke_load {c : Client} {k : Call} {options : LoadOptions}
    (h : k.options? c.engine = some options) : c.invoke k = (c.load options).1 := by
  unfold invoke
  rw [h]

/-- The client after an act. -/
def perform (c : Client) : Act → Client
  | .change ch => c.modify fun e => e.change ch
  | .call k => c.invoke k
  | .fail f => { c with backend := c.backend.fail f }

/-- The client after a run. -/
def performAll (c : Client) (acts : List Act) : Client := acts.foldl perform c

@[simp] theorem performAll_nil (c : Client) : c.performAll [] = c := rfl

@[simp] theorem performAll_concat (c : Client) (acts : List Act) (a : Act) :
    c.performAll (acts ++ [a]) = (c.performAll acts).perform a := by
  rw [performAll, performAll, List.foldl_append]
  rfl

/-- **What a call does**: it loads, or it leaves what is asked for, and of the cached pages all or
none. -/
theorem invoke_cases (c : Client) (k : Call) :
    (∃ options, c.invoke k = (c.load options).1) ∨
      (c.invoke k).engine.state.question = c.engine.state.question ∧
        (c.invoke k).engine.config = c.engine.config ∧
        ((c.invoke k).engine.cache.queries = c.engine.cache.queries ∨
          (c.invoke k).engine.cache.queries = c.engine.cache.queries.clear) ∧
        (c.invoke k).backend.store = c.backend.store := by
  unfold invoke
  cases k.options? c.engine with
  | some options => exact Or.inl ⟨options, rfl⟩
  | none =>
    refine Or.inr ?_
    cases k with
    | discover force =>
      obtain ⟨⟨⟨attributes, isDiscovering, hstate⟩, hconfig, hqueries⟩, hstore, -⟩ :=
        c.discover_cases force
      refine ⟨?_, hconfig, Or.inl hqueries, hstore⟩
      rw [hstate]
      rfl
    | clearError => exact ⟨rfl, rfl, Or.inl rfl, rfl⟩
    | clearCache => exact ⟨rfl, rfl, Or.inr rfl, rfl⟩
    | _ => exact ⟨rfl, rfl, Or.inl rfl, rfl⟩

/-- **A call that does not load** leaves all but the attributes and the error. -/
theorem invoke_of_none {c : Client} {k : Call} (h : k.options? c.engine = none) :
    ∃ attributes isDiscovering error, (c.invoke k).engine.state =
      { c.engine.state with attributes, isDiscovering, error } := by
  unfold invoke
  rw [h]
  cases k with
  | discover force =>
    obtain ⟨⟨⟨attributes, isDiscovering, hstate⟩, -⟩, -, -⟩ := c.discover_cases force
    exact ⟨attributes, isDiscovering, c.engine.state.error, hstate⟩
  | clearError => exact ⟨_, _, none, rfl⟩
  | _ => exact ⟨_, _, _, rfl⟩

/-- A call leaves what is asked for, but for the paging. -/
theorem inputs_invoke (c : Client) (k : Call) :
    (c.invoke k).engine.state.inputs = c.engine.state.inputs := by
  rcases c.invoke_cases k with ⟨options, h⟩ | ⟨h, -⟩
  · rw [h]
    obtain ⟨e, s, henter⟩ : ∃ e s, c.engine.enterLoad options true = (e, s) := ⟨_, _, rfl⟩
    obtain ⟨hinputs, -, -⟩ := Engine.enterLoad_restarts henter
    rcases load_left henter with ⟨hsame, -⟩ | ⟨e', result, b, -, -, -, hleft⟩
    · rw [hsame]
    · cases result with
      | error f => exact (EngineState.inputs_of_question hleft).trans hinputs
      | ok p => exact hleft.1.trans hinputs
  · exact EngineState.inputs_of_question h

/-! ### Runs -/

/-- A new client. -/
def opened (config : EngineConfig) (connection ns : String) (historyLimit : Option Nat)
    (b : Backend) : Client :=
  ⟨.start config connection ns historyLimit, b⟩

/-- The beginning of a load. -/
def startOf (c : Client) (options : LoadOptions) : LoadStart :=
  (c.engine.enterLoad options true).2

/-- A load at some time of a run would have found the page under the key. -/
def Sourced (c : Client) (acts : List Act) (key : QueryKey) (page : CachedPage) : Prop :=
  ∃ earlier, earlier <+: acts ∧ ∃ options p,
    ((c.performAll earlier).startOf options).key = key ∧
      ((c.performAll earlier).startOf options).fetch c.backend.store c.engine.config = .ok p ∧
      page = ⟨p.documents, p.total, p.pages.next⟩

theorem Sourced.concat {c : Client} {acts : List Act} {key : QueryKey} {page : CachedPage}
    (h : c.Sourced acts key page) (a : Act) : c.Sourced (acts ++ [a]) key page := by
  obtain ⟨earlier, hearlier, h⟩ := h
  exact ⟨earlier, hearlier.trans (List.prefix_append acts [a]), h⟩

/-- What holds in every run: the settings and the documents are those of the beginning, and **every
cached page was found by a load**. -/
structure Kept (c : Client) (acts : List Act) : Prop where
  config : (c.performAll acts).engine.config = c.engine.config
  store : (c.performAll acts).backend.store = c.backend.store
  sourced : (c.performAll acts).engine.cache.queries.Holds (c.Sourced acts)

theorem Kept.load {c : Client} {acts : List Act} (h : c.Kept acts) (options : LoadOptions) :
    ((c.performAll acts).load options).1.engine.config = c.engine.config ∧
      ((c.performAll acts).load options).1.backend.store = c.backend.store ∧
      ((c.performAll acts).load options).1.engine.cache.queries.Holds (c.Sourced acts) := by
  obtain ⟨e, s, henter⟩ :
      ∃ e s, (c.performAll acts).engine.enterLoad options true = (e, s) := ⟨_, _, rfl⟩
  obtain ⟨-, -, hconfig, hcache⟩ := Engine.enterLoad_eq henter
  rcases load_left henter with ⟨hsame, -⟩ | ⟨e', result, b, hends, hload, -, -⟩
  · rw [hsame]
    exact ⟨h.config, h.store, h.sourced⟩
  · have hentered : e.cache.queries.Holds (c.Sourced acts) := hcache ▸ h.sourced
    obtain ⟨hholds, hconfig'⟩ := hends.holds hentered fun p hp => by
      refine ⟨acts, List.prefix_rfl, options, p, ?_, ?_, rfl⟩
      · rw [startOf, henter]
      · rw [startOf, henter]
        rwa [h.store, hconfig, h.config] at hp
    obtain ⟨hconfig'', hqueries⟩ :
        e'.SameStores (e'.endLoad s result).1 := Engine.endLoad_sameStores
    rw [hload]
    refine ⟨?_, hends.store_eq.trans h.store, ?_⟩
    · exact hconfig''.trans (hconfig'.trans (hconfig.trans h.config))
    · change (e'.endLoad s result).1.cache.queries.Holds _
      rw [hqueries]
      exact hholds

/-- **The invariant of runs.** -/
theorem kept_performAll {c : Client} (hnew : c.engine.cache.queries.entries = [])
    (acts : List Act) : c.Kept acts := by
  induction acts using List.reverseRecOn with
  | nil =>
    refine ⟨rfl, rfl, fun e he => ?_⟩
    rw [performAll_nil, hnew] at he
    cases he
  | append_singleton acts a ih =>
    have hnext (hconfig : ((c.performAll acts).perform a).engine.config = c.engine.config)
        (hstore : ((c.performAll acts).perform a).backend.store = c.backend.store)
        (hsourced : ((c.performAll acts).perform a).engine.cache.queries.Holds (c.Sourced acts)) :
        c.Kept (acts ++ [a]) := by
      refine ⟨?_, ?_, ?_⟩ <;> rw [performAll_concat]
      · exact hconfig
      · exact hstore
      · exact hsourced.imp fun _ _ h => h.concat a
    cases a with
    | change ch =>
      obtain ⟨hconfig, hqueries⟩ := (c.performAll acts).engine.change_sameStores ch
      refine hnext (hconfig.trans ih.config) ih.store ?_
      change ((c.performAll acts).engine.change ch).cache.queries.Holds _
      rw [hqueries]
      exact ih.sourced
    | fail f => exact hnext ih.config ih.store ih.sourced
    | call k =>
      rw [perform] at hnext
      rcases (c.performAll acts).invoke_cases k with ⟨options, hload⟩ |
        ⟨-, hconfig, hqueries, hstore⟩
      · obtain ⟨hconfig, hstore, hsourced⟩ := ih.load options
        rw [hload] at hnext
        exact hnext hconfig hstore hsourced
      · refine hnext (hconfig.trans ih.config) (hstore.trans ih.store) ?_
        rcases hqueries with hqueries | hqueries
        · rw [hqueries]
          exact ih.sourced
        · rw [hqueries]
          intro e he
          cases he

/-- A backend whose namespace holds two documents with tags. -/
def tagsBackend : Backend :=
  { Backend.empty with
    store := Store.empty.insert "docs"
      [⟨.int 1, none, none, none, [("tags", .array [.string "a"])]⟩,
        ⟨.int 2, none, none, none, [("tags", .array [.string "b"])]⟩] }

/-- A new client of it. -/
def tagsClient : Client := opened .default "local" "docs" none tagsBackend

/-- Those without a certain tag are asked for. -/
def untagged : Change := .addFilter "tags" .notEquals "a"

end Client

end DocQuery
