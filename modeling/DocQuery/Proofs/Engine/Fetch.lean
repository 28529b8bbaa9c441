import DocQuery.Proofs.Cache.Ttl
import DocQuery.Proofs.Engine.Generation
import DocQuery.Proofs.Paging.Boundaries
import DocQuery.Store.Backend

/-!
# What a fetch of the current page returns

A load is a fetch that takes its time. The fetch itself is a function of the store and the question:
a plan, a count and the rows of the plan.

* `Store.reply` – the answer of a store whose calls do not fail by themselves, and what a backend
  without failures answers (`Backend.answerQuery_eq`);
* `Engine.fetch` – **the documents and the total of the current page**, for a filter;
* `Engine.fetch_congr` – on the first page they depend on the key of the page and the filter alone;
* `EngineState.Shows` – a state shows what a fetch returned;
* `Load.Sound` – a load that waits stands where the fetch would, and
  `Load.Sound.resumeLoad_cases` – **what its answers make of it**.

The filter stands apart from the question because it depends on the attributes that are known when
it is compiled, and these are learned from the rows that are shown.
-/

namespace DocQuery

/-! ### Answers that do not fail by themselves -/

/-- The answer of a store. -/
def Store.reply (store : Store) (ns : String) (request : QueryRequest) :
    Except Failure QueryResponse :=
  match store.query ns request with
  | .ok r => .ok r
  | .error fault => .error fault.failure

/-- A backend that is not told to fail answers from its store, which stays as it is. -/
theorem Backend.answerQuery_eq (b : Backend) (h : b.failures = []) (ns : String)
    (request : QueryRequest) : b.answerQuery ns request = (b.store.reply ns request, b) := by
  rw [answerQuery, takeFailure, h, Store.reply]
  dsimp only
  cases b.store.query ns request with
  | error fault => rfl
  | ok r => rfl

namespace EngineState

/-- The filter of what is asked for, with the attributes that are known. -/
def filter (s : EngineState) : Option Filter := compile s.query.filters s.query.search s.types

/-- The state shows what a fetch returned: documents with their total, or why there are none. -/
def Shows (s : EngineState) : Except Failure (List Document × Nat) → Prop
  | .ok (documents, total) => s.documents = documents ∧ s.total = some total
  | .error f => s.error = some f.message

theorem Shows.total_eq {s : EngineState} {r : Except Failure (List Document × Nat)} (h : s.Shows r)
    {n : Nat} (hr : r.toOption.map Prod.snd = some n) : s.total = some n := by
  cases r with
  | error f => cases hr
  | ok found =>
    obtain ⟨-, htotal⟩ := h
    exact htotal.trans hr

end EngineState

namespace Engine

/-- **The documents and the total of the current page**, as the filter selects them. -/
def fetch (store : Store) (config : EngineConfig) (s : EngineState) (filter : Option Filter) :
    Except Failure (List Document × Nat) :=
  match s.query.pages.plan s.query.pages.page s.query.isKeyset s.pageCount?
      config.maxOverfetch with
  | .error flaw => .error flaw.failure
  | .ok plan =>
    match store.reply s.ns (consistent config (.count filter)) with
    | .error f => .error f
    | .ok counted =>
      match counted.count with
      | .error flaw => .error flaw.failure
      | .ok total =>
        let bounded := match plan.cursor? with
          | some v => some (Filter.withCursor filter v s.query.sort.direction)
          | none => filter
        match store.reply s.ns
            (consistent config (.rows bounded s.query.sort (plan.topK s.query.pages.size))) with
        | .error f => .error f
        | .ok r => .ok ((s.query.pages.commit plan r.rows).2, total)

variable {store : Store} {config : EngineConfig} {s t : EngineState}

/-- States with the same key for a page ask for the same place, order and page size. -/
theorem eq_of_queryKey_eq {page : Nat} (h : queryKey s page = queryKey t page) :
    s.connection = t.connection ∧ s.ns = t.ns ∧ s.query.sort = t.query.sort ∧
      s.query.pages.size = t.query.pages.size := by
  have hsort : s.query.sort.name = t.query.sort.name := congrArg QueryKey.sort h
  have hdirection : s.query.sort.direction = t.query.sort.direction :=
    congrArg QueryKey.direction h
  have heq : RankBy.mk s.query.sort.name s.query.sort.direction =
      RankBy.mk t.query.sort.name t.query.sort.direction := by
    rw [hsort, hdirection]
  exact ⟨congrArg QueryKey.connection h, congrArg QueryKey.ns h, heq, congrArg QueryKey.pageSize h⟩

/-- **The first page depends on its key and the filter alone.** -/
theorem fetch_congr (hs : s.query.pages.page = 1) (ht : t.query.pages.page = 1)
    (h : queryKey s 1 = queryKey t 1) (filter : Option Filter) :
    fetch store config s filter = fetch store config t filter := by
  obtain ⟨-, hns, hsort, hsize⟩ := eq_of_queryKey_eq h
  have hkeyset : s.query.isKeyset = t.query.isKeyset := by
    rw [QueryState.isKeyset, QueryState.isKeyset, hsort]
  have hplan : s.query.pages.plan 1 s.query.isKeyset s.pageCount? config.maxOverfetch =
      t.query.pages.plan 1 s.query.isKeyset t.pageCount? config.maxOverfetch :=
    Pagination.plan_one_congr hsize _ _
  rw [fetch, fetch, hs, ht, hplan, hkeyset, hns, hsort, hsize]
  rfl

/-- What a load found is what a fetch returns, on the page and with the page size of its
question. -/
def Delivers (store : Store) (config : EngineConfig) (s : EngineState) (filter : Option Filter) :
    Except Failure FetchedPage → Prop
  | .ok p =>
    fetch store config s filter = .ok (p.documents, p.total) ∧
      p.pages.page = s.query.pages.page ∧ p.pages.size = s.query.pages.size
  | .error f => fetch store config s filter = .error f

/-- A load with the default options is a load of the current page. -/
theorem page_of_default {l : LoadStart} (h : l.options = .default) :
    l.page = l.snapshot.query.pages.page := by
  rw [LoadStart.page, h]
  rfl

/-- A page that cannot be planned cannot be fetched, whatever the filter is. -/
theorem fetch_of_plan_error {l : LoadStart} {flaw : PlanFlaw} (hoptions : l.options = .default)
    (h : l.plan config = .error flaw) (filter : Option Filter) :
    fetch store config l.snapshot filter = .error flaw.failure := by
  rw [LoadStart.plan, page_of_default hoptions] at h
  rw [fetch, h]

theorem queryKey_of_question (h : s.question = t.question) (page : Nat) :
    queryKey s page = queryKey t page := by
  have hconnection : s.connection = t.connection := congrArg Prod.fst h
  have hns : s.ns = t.ns := congrArg (fun q => q.2.1) h
  have hquery : s.query = t.query := congrArg (fun q => q.2.2) h
  rw [queryKey, queryKey, hconnection, hns, hquery]

section EndLoad

variable {e : Engine} {l : LoadStart} {result : Except Failure FetchedPage} {filter : Option Filter}

/-- **A load that ends in time shows what a fetch of the current page returns.** -/
theorem shows_endLoad (hoptions : l.options = .default)
    (hfirst : l.snapshot.query.pages.page = 1)
    (hgen : e.state.generation = l.snapshot.generation)
    (hquestion : e.state.question = l.snapshot.question)
    (h : Delivers store config l.snapshot filter result) :
    (e.endLoad l result).1.state.query.pages.page = 1 ∧
      queryKey (e.endLoad l result).1.state 1 = queryKey l.snapshot 1 ∧
      (e.endLoad l result).1.state.Shows
        (fetch store config (e.endLoad l result).1.state filter) := by
  have hquery : e.state.query = l.snapshot.query := congrArg (fun q => q.2.2) hquestion
  -- on the first page a fetch depends on the key alone, which the end of the load leaves as it is
  have hsame {u : EngineState} (hpage : u.query.pages.page = 1)
      (hkey : queryKey u 1 = queryKey l.snapshot 1)
      (hshows : u.Shows (fetch store config l.snapshot filter)) :
      u.query.pages.page = 1 ∧ queryKey u 1 = queryKey l.snapshot 1 ∧
        u.Shows (fetch store config u filter) := by
    refine ⟨hpage, hkey, ?_⟩
    rwa [fetch_congr hpage hfirst hkey]
  rw [endLoad_of_timely hgen]
  cases result with
  | error f =>
    have hfetch : fetch store config l.snapshot filter = .error f := h
    refine hsame ?_ (queryKey_of_question hquestion 1) ?_
    · exact (congrArg (fun q => q.pages.page) hquery).trans hfirst
    · rw [hfetch]
      rfl
  | ok p =>
    obtain ⟨hfetch, hpage, hsize⟩ := h
    obtain ⟨attributes, isDiscovering, hstate⟩ := e.applyPage_state l.options p
    have hquery' : (e.applyPage l.options p).state.query =
        { e.state.query with pages := p.pages } := congrArg EngineState.query hstate
    refine hsame ?_ ?_ ?_
    · change (e.applyPage l.options p).state.query.pages.page = 1
      rw [hquery', hpage, hfirst]
    · have hconnection : (e.applyPage l.options p).state.connection = l.snapshot.connection :=
        (congrArg EngineState.connection hstate).trans (congrArg Prod.fst hquestion)
      have hns : (e.applyPage l.options p).state.ns = l.snapshot.ns :=
        (congrArg EngineState.ns hstate).trans (congrArg (fun q => q.2.1) hquestion)
      change queryKey (e.applyPage l.options p).state 1 = queryKey l.snapshot 1
      rw [queryKey, queryKey, hconnection, hns, hquery', hquery]
      dsimp only
      rw [hsize]
    · have hdocuments : (e.applyPage l.options p).state.documents = p.documents := by
        rw [hstate, hoptions]
        rfl
      rw [hfetch]
      exact ⟨hdocuments, congrArg EngineState.total hstate⟩

end EndLoad

end Engine

open Engine

/-- **A load stands where the fetch of the current page would**: with its plan, and after the first
answer with its total. -/
structure Load.Sound (store : Store) (config : EngineConfig) (l : Load) : Prop where
  options : l.start.options = .default
  plan : l.start.plan config = .ok l.plan
  counted : ∀ total, l.stage = .fetching total →
    ∃ r, store.reply l.start.snapshot.ns (consistent config (.count l.start.filter)) = .ok r ∧
      r.count = .ok total

namespace Load.Sound

variable {store : Store} {config : EngineConfig} {l : Load} {total : Nat}

theorem fetch_eq (hl : l.Sound store config) :
    fetch store config l.start.snapshot l.start.filter =
      match store.reply l.start.snapshot.ns (consistent config (.count l.start.filter)) with
      | .error f => .error f
      | .ok counted =>
        match counted.count with
        | .error flaw => .error flaw.failure
        | .ok total =>
          match store.reply l.start.snapshot.ns
              (Load.request { l with stage := .fetching total } config) with
          | .error f => .error f
          | .ok r => .ok ((l.start.snapshot.query.pages.commit l.plan r.rows).2, total) := by
  have hplan := hl.plan
  rw [LoadStart.plan, page_of_default hl.options] at hplan
  rw [fetch, hplan]
  rfl

/-- **What an answer makes of a load**: it waits for its rows, or it ends with what the fetch
returns. -/
theorem resumeLoad_cases (hl : l.Sound store config) (e : Engine) :
    (∃ total, e.resumeLoad l (store.reply l.start.snapshot.ns (l.request config)) =
        (e, .waiting { l with stage := .fetching total }) ∧
      Load.Sound store config { l with stage := .fetching total }) ∨
    (∃ f, Delivers store config l.start.snapshot l.start.filter (.error f) ∧
      e.resumeLoad l (store.reply l.start.snapshot.ns (l.request config)) =
        e.concludeLoad l.start (.error f)) ∨
    ∃ p next, Delivers store config l.start.snapshot l.start.filter (.ok p) ∧
      e.resumeLoad l (store.reply l.start.snapshot.ns (l.request config)) =
        (e.cachePage l.start.key ⟨p.documents, p.total, next⟩).concludeLoad l.start (.ok p) := by
  have hfetch := hl.fetch_eq
  cases hstage : l.stage with
  | counting =>
    have hrequest : l.request config = consistent config (.count l.start.filter) := by
      rw [Load.request, hstage]
    rw [hrequest, resumeLoad.eq_def, hstage]
    cases hreply : store.reply l.start.snapshot.ns (consistent config (.count l.start.filter)) with
    | error f =>
      rw [hreply] at hfetch
      exact Or.inr (Or.inl ⟨f, hfetch, rfl⟩)
    | ok counted =>
      rw [hreply] at hfetch
      dsimp only at hfetch ⊢
      cases hcount : counted.count with
      | error flaw =>
        rw [hcount] at hfetch
        exact Or.inr (Or.inl ⟨flaw.failure, hfetch, rfl⟩)
      | ok total =>
        -- the load waits for its rows, and the total that it keeps is the one that was answered
        refine Or.inl ⟨total, rfl, hl.options, hl.plan, ?_⟩
        rintro n ⟨⟩
        exact ⟨counted, hreply, hcount⟩
  | fetching total =>
    obtain ⟨counted, hreply, hcount⟩ := hl.counted total hstage
    have hself : ({ l with stage := .fetching total } : Load) = l := by rw [← hstage]
    rw [hreply] at hfetch
    dsimp only at hfetch
    rw [hcount] at hfetch
    dsimp only at hfetch
    rw [hself] at hfetch
    rw [resumeLoad.eq_def, hstage]
    cases hrows : store.reply l.start.snapshot.ns (l.request config) with
    | error f =>
      rw [hrows] at hfetch
      exact Or.inr (Or.inl ⟨f, hfetch, rfl⟩)
    | ok r =>
      rw [hrows] at hfetch
      refine Or.inr (Or.inr ⟨_, _, ⟨hfetch, ?_, ?_⟩, rfl⟩)
      · rw [← page_of_default hl.options, ← Pagination.plan_page hl.plan]
        exact Pagination.commit_page _ _
      · exact Pagination.commit_size _ _

end Load.Sound

end DocQuery
