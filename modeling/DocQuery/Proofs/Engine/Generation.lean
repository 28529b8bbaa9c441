import DocQuery.Engine.Discovery
import DocQuery.Engine.Load
import DocQuery.Engine.Write

/-!
# Generations

A state carries a generation, and an answer is applied only in the generation in which it was asked
for. That this is enough rests on one fact about states: **within a generation the question stays
the same.** Every change of the question begins a new generation, and so does every load.

* `EngineState.question` – what is asked for: the place and the query;
* `EngineState.Orderly` – from one state to another, the question stays within a generation;
* `EngineState.orderly_reduce` – every action but a successful load is orderly. A successful load is
  the exception: it turns to its page within its generation;
* `DocQuery.Change`, `Engine.change` – the changes that a person makes;
* `EngineState.Calm` – orderly, and no load begins or ends: so are changes and discoveries
  (`Engine.calm_change`, `Engine.calm_beginDiscovery`, `Engine.calm_resumeDiscovery`);
* `Engine.applyPage_state`, `Engine.endLoad_of_timely`, `Engine.endLoad_of_late` – the two ends of a
  load.
-/

namespace DocQuery

namespace EngineState

/-- What is asked for: the place and the query. -/
def question (s : EngineState) : String × String × QueryState := (s.connection, s.ns, s.query)

/-- The question stays within a generation. -/
def Orderly (s t : EngineState) : Prop :=
  s.generation < t.generation ∨ t.generation = s.generation ∧ t.question = s.question

theorem Orderly.refl (s : EngineState) : Orderly s s := Or.inr ⟨rfl, rfl⟩

theorem Orderly.trans {s t u : EngineState} (hst : Orderly s t) (htu : Orderly t u) :
    Orderly s u := by
  rcases hst with hst | ⟨hst, hq⟩
  · rcases htu with htu | ⟨htu, -⟩
    · exact Or.inl (Nat.lt_trans hst htu)
    · exact Or.inl (htu ▸ hst)
  · rcases htu with htu | ⟨htu, hq'⟩
    · exact Or.inl (hst ▸ htu)
    · exact Or.inr ⟨htu.trans hst, hq'.trans hq⟩

theorem Orderly.generation_le {s t : EngineState} (h : Orderly s t) :
    s.generation ≤ t.generation := by
  rcases h with h | ⟨h, -⟩
  · exact Nat.le_of_lt h
  · exact Nat.le_of_eq h.symm

/-- No load begins or ends on the way, and the question stays within a generation. -/
structure Calm (s t : EngineState) : Prop where
  orderly : Orderly s t
  inFlight : t.inFlight = s.inFlight

theorem Calm.refl (s : EngineState) : Calm s s := ⟨.refl s, rfl⟩

/-- What keeps the generation, the question and the number of loads is calm. -/
theorem calm_of_eq {s t : EngineState} (hgen : t.generation = s.generation)
    (hquestion : t.question = s.question) (hloads : t.inFlight = s.inFlight) : Calm s t :=
  ⟨Or.inr ⟨hgen, hquestion⟩, hloads⟩

end EngineState

/-! ### What a person changes -/

/-- The actions by which a person asks for something. -/
def Action.isInput : Action → Bool
  | .addFilter _ | .updateFilter _ | .removeFilter _ | .clearFilters | .setSearch _
  | .restoreQuery _ _ | .setSort _ | .setPageSize _ | .setNamespace _ _ => true
  | _ => false

namespace EngineState

variable {s : EngineState} {a : Action}

/-- **What an input does**: nothing, or it asks for something else. -/
theorem reduce_of_isInput (h : a.isInput = true) :
    s.reduce a = s ∨ ∃ (t : EngineState) (query : QueryState), s.reduce a = t.ask query ∧
      t.generation = s.generation ∧ t.inFlight = s.inFlight := by
  cases a with
  | addFilter f => exact Or.inr ⟨_, _, rfl, rfl, rfl⟩
  | updateFilter f =>
    rw [reduce]
    split
    · exact Or.inr ⟨_, _, rfl, rfl, rfl⟩
    · exact Or.inl rfl
  | removeFilter id =>
    rw [reduce]
    dsimp only
    split
    · exact Or.inr ⟨_, _, rfl, rfl, rfl⟩
    · exact Or.inl rfl
  | clearFilters =>
    rw [reduce]
    split
    · exact Or.inl rfl
    · exact Or.inr ⟨_, _, rfl, rfl, rfl⟩
  | setSearch text =>
    rw [reduce]
    split
    · exact Or.inl rfl
    · exact Or.inr ⟨_, _, rfl, rfl, rfl⟩
  | restoreQuery search filters => exact Or.inr ⟨_, _, rfl, rfl, rfl⟩
  | setSort sort =>
    rw [reduce]
    split
    · exact Or.inl rfl
    · exact Or.inr ⟨_, _, rfl, rfl, rfl⟩
  | setPageSize size =>
    rw [reduce]
    dsimp only
    split
    · exact Or.inl rfl
    · exact Or.inr ⟨_, _, rfl, rfl, rfl⟩
  | setNamespace connection ns => exact Or.inr ⟨_, _, rfl, rfl, rfl⟩
  | _ => cases h

/-- **What an input leaves of what is shown**: the place with its documents, its total and its
attributes, or none of these. -/
theorem shown_of_isInput (h : a.isInput = true) :
    ((s.reduce a).ns = s.ns ∧ (s.reduce a).documents = s.documents ∧
        (s.reduce a).total = s.total ∧ (s.reduce a).attributes = s.attributes) ∨
      (s.reduce a).documents = [] ∧ (s.reduce a).total = none ∧ (s.reduce a).attributes = [] := by
  cases a with
  | setNamespace connection ns => exact Or.inr ⟨rfl, rfl, rfl⟩
  | addFilter f => exact Or.inl ⟨rfl, rfl, rfl, rfl⟩
  | restoreQuery search filters => exact Or.inl ⟨rfl, rfl, rfl, rfl⟩
  | updateFilter f =>
    rw [reduce]
    split <;> exact Or.inl ⟨rfl, rfl, rfl, rfl⟩
  | removeFilter id =>
    rw [reduce]
    dsimp only
    split <;> exact Or.inl ⟨rfl, rfl, rfl, rfl⟩
  | clearFilters =>
    rw [reduce]
    split <;> exact Or.inl ⟨rfl, rfl, rfl, rfl⟩
  | setSearch text =>
    rw [reduce]
    split <;> exact Or.inl ⟨rfl, rfl, rfl, rfl⟩
  | setSort sort =>
    rw [reduce]
    split <;> exact Or.inl ⟨rfl, rfl, rfl, rfl⟩
  | setPageSize size =>
    rw [reduce]
    dsimp only
    split <;> exact Or.inl ⟨rfl, rfl, rfl, rfl⟩
  | _ => cases h

theorem orderly_of_isInput (h : a.isInput = true) : Orderly s (s.reduce a) := by
  rcases reduce_of_isInput (s := s) h with heq | ⟨t, query, heq, hgen, -⟩
  · rw [heq]
    exact .refl s
  · rw [heq]
    exact Or.inl (hgen ▸ Nat.lt_succ_self _)

/-- Whoever asks for something else starts at the first page. -/
theorem page_of_isInput (h : a.isInput = true) (hpage : s.query.pages.page = 1) :
    (s.reduce a).query.pages.page = 1 := by
  rcases reduce_of_isInput (s := s) h with heq | ⟨t, query, heq, -, -⟩
  · rwa [heq]
  · rw [heq]
    rfl

theorem inFlight_of_isInput (h : a.isInput = true) : (s.reduce a).inFlight = s.inFlight := by
  rcases reduce_of_isInput (s := s) h with heq | ⟨t, query, heq, -, hloads⟩
  · rw [heq]
  · rw [heq]
    exact hloads

/-- **Within a generation the question stays the same**, unless a load succeeds. -/
theorem orderly_reduce
    (h : ∀ documents total pages append, a ≠ .loadSucceeded documents total pages append) :
    Orderly s (s.reduce a) := by
  cases hinput : a.isInput with
  | true => exact orderly_of_isInput hinput
  | false =>
    cases a with
    | loadStarted => exact Or.inl (Nat.lt_succ_self _)
    | loadSucceeded documents total pages append => exact absurd rfl (h _ _ _ _)
    | loadFailed message => exact Or.inr ⟨rfl, rfl⟩
    | loadSettled => exact Or.inr ⟨rfl, rfl⟩
    | discoveryStarted => exact Or.inr ⟨rfl, rfl⟩
    | discoveryFinished attributes => exact Or.inr ⟨rfl, rfl⟩
    | clearError => exact Or.inr ⟨rfl, rfl⟩
    | _ => cases hinput

end EngineState

/-- A change of what is asked for. -/
inductive Change where
  | addFilter (name : String) (op : Operator) (raw : String)
  | updateFilter (id : Nat) (op : Operator) (raw : String)
  | removeFilter (id : Nat)
  | clearFilters
  | setSearch (text : String)
  | setSort (sort : RankBy)
  | setPageSize (size : Nat)
  | setNamespace (ns : String)
  /-- Brings back a past query. -/
  | restore (entry : HistoryEntry)

namespace Engine

/-- The engine after a change. A filter that is not there is not replaced. -/
def change (e : Engine) : Change → Engine
  | .addFilter name op raw => (e.addFilter name op raw).2
  | .updateFilter id op raw =>
    match e.updateFilter id op raw with
    | .ok e => e
    | .error _ => e
  | .removeFilter id => (e.removeFilter id).2
  | .clearFilters => e.clearFilters
  | .setSearch text => e.setSearch text
  | .setSort sort => e.setSort sort
  | .setPageSize size => e.setPageSize size
  | .setNamespace ns => e.setNamespace ns
  | .restore entry => e.restore entry

/-- A change is an action, or nothing. -/
theorem change_cases (e : Engine) (c : Change) :
    e.change c = e ∨ ∃ a : Action, a.isInput = true ∧ e.change c = e.dispatch a := by
  cases c with
  | updateFilter id op raw =>
    rw [change, updateFilter]
    cases e.state.query.filters.find? fun f => f.id = id with
    | none => exact Or.inl rfl
    | some f => exact Or.inr ⟨_, rfl, rfl⟩
  | addFilter name op raw => exact Or.inr ⟨_, rfl, rfl⟩
  | removeFilter id => exact Or.inr ⟨_, rfl, rfl⟩
  | clearFilters => exact Or.inr ⟨_, rfl, rfl⟩
  | setSearch text => exact Or.inr ⟨_, rfl, rfl⟩
  | setSort sort => exact Or.inr ⟨_, rfl, rfl⟩
  | setPageSize size => exact Or.inr ⟨_, rfl, rfl⟩
  | setNamespace ns => exact Or.inr ⟨_, rfl, rfl⟩
  | restore entry => exact Or.inr ⟨_, rfl, rfl⟩

open EngineState

theorem calm_change (e : Engine) (c : Change) : Calm e.state (e.change c).state := by
  rcases e.change_cases c with h | ⟨a, ha, h⟩
  · rw [h]
    exact .refl _
  · rw [h]
    exact ⟨orderly_of_isInput ha, inFlight_of_isInput ha⟩

/-! ### What an engine does by itself -/

section Steps

variable {e : Engine} {s : LoadStart} {result : Except Failure FetchedPage}

/-- A load that is not forced looks up its page. -/
theorem lookUp_eq (h : s.options.force = false) (plan : PagePlan) :
    e.lookUp s plan = ((e.cachedPage s.key).1.map fun page =>
        ⟨page.documents, page.total, s.snapshot.query.pages.restore plan page.next, true⟩,
      (e.cachedPage s.key).2) := by
  rw [lookUp, if_neg (by rw [h]; exact Bool.false_ne_true)]
  rcases e.cachedPage s.key with ⟨_ | page, e⟩
  · rfl
  · rfl

/-- The load of the current page that begins now. -/
def startLoad (e : Engine) (mayRepeat : Bool) : LoadStart :=
  ⟨.default, (e.dispatch .loadStarted).state, mayRepeat⟩

/-- **How a load of the current page begins**, when none is under way: it ends at once, because it
cannot be planned or its page is cached, or it waits. -/
theorem beginAttempt_cases (h : e.state.inFlight = 0) (mayRepeat : Bool) :
    (∃ flaw, (e.startLoad mayRepeat).plan e.config = .error flaw ∧
      e.beginAttempt .default mayRepeat =
        (((e.dispatch .loadStarted).endLoad (e.startLoad mayRepeat) (.error flaw.failure)).1,
          .finished
            ((e.dispatch .loadStarted).endLoad (e.startLoad mayRepeat) (.error flaw.failure)).2)) ∨
    ∃ plan e', (e.startLoad mayRepeat).plan e.config = .ok plan ∧
      ((e.dispatch .loadStarted).cachedPage (e.startLoad mayRepeat).key).2 = e' ∧
      (e.beginAttempt .default mayRepeat =
          (e', .waiting ⟨e.startLoad mayRepeat, plan, .counting⟩) ∨
        ∃ page p, ((e.dispatch .loadStarted).cachedPage (e.startLoad mayRepeat).key).1 = some page ∧
          p = ⟨page.documents, page.total,
            (e.startLoad mayRepeat).snapshot.query.pages.restore plan page.next, true⟩ ∧
          e.beginAttempt .default mayRepeat =
            ((e'.endLoad (e.startLoad mayRepeat) (.ok p)).1,
              .finished (e'.endLoad (e.startLoad mayRepeat) (.ok p)).2)) := by
  have hidle : (e.state.isLoading && !LoadOptions.default.force) = false := by
    rw [EngineState.isLoading_eq, h]
    rfl
  have henter : e.enterLoad .default mayRepeat =
      (e.dispatch .loadStarted, e.startLoad mayRepeat) := rfl
  have hforce : (e.startLoad mayRepeat).options.force = false := rfl
  have hconfig : (e.dispatch .loadStarted).config = e.config := rfl
  rw [beginAttempt, if_neg (by rw [hidle]; exact Bool.false_ne_true), henter]
  dsimp only
  rw [hconfig]
  cases (e.startLoad mayRepeat).plan e.config with
  | error flaw => exact Or.inl ⟨flaw, rfl, rfl⟩
  | ok plan =>
    refine Or.inr ⟨plan, _, rfl, rfl, ?_⟩
    dsimp only
    rw [lookUp_eq hforce]
    cases ((e.dispatch .loadStarted).cachedPage (e.startLoad mayRepeat).key).1 with
    | none => exact Or.inl rfl
    | some page => exact Or.inr ⟨page, _, rfl, rfl, rfl⟩

@[simp] theorem resumeWrite_state (w : PendingWrite) (answer : Except Failure Nat) :
    (e.resumeWrite w answer).state = e.state := by
  cases answer <;> rfl

/-- A load begins in a generation of its own. -/
theorem generation_lt_enterLoad (e : Engine) (options : LoadOptions) (mayRepeat : Bool) :
    e.state.generation < (e.enterLoad options mayRepeat).1.state.generation := by
  rw [enterLoad]
  cases options.limit with
  | none => exact Nat.lt_succ_self _
  | some size =>
    -- the page size is changed first, which may begin a generation too
    exact Nat.lt_succ_of_le (orderly_of_isInput (a := .setPageSize size) rfl).generation_le

theorem enterLoad_snapshot (e : Engine) (options : LoadOptions) (mayRepeat : Bool) :
    (e.enterLoad options mayRepeat).2.snapshot = (e.enterLoad options mayRepeat).1.state := rfl

theorem enterLoad_inFlight (e : Engine) (options : LoadOptions) (mayRepeat : Bool) :
    (e.enterLoad options mayRepeat).1.state.inFlight = e.state.inFlight + 1 := by
  rw [enterLoad]
  cases options.limit with
  | none => rfl
  | some size =>
    exact congrArg (· + 1) (inFlight_of_isInput (s := e.state) (a := .setPageSize size) rfl)

theorem calm_endDiscovery (e : Engine) (attributes : Option (List Attribute)) :
    Calm e.state (e.endDiscovery attributes).1.state :=
  calm_of_eq rfl rfl rfl

theorem calm_beginDiscovery (e : Engine) (force : Bool) :
    Calm e.state (e.beginDiscovery force).1.state := by
  rw [beginDiscovery]
  cases force with
  | true => exact calm_of_eq rfl rfl rfl
  | false =>
    have hstate : (e.cachedSchema (schemaKey e.config e.state)).2.state = e.state := rfl
    rw [if_neg Bool.false_ne_true]
    generalize e.cachedSchema (schemaKey e.config e.state) = found at hstate ⊢
    have hgen : found.2.state.generation = e.state.generation := congrArg _ hstate
    have hquestion : found.2.state.question = e.state.question := congrArg _ hstate
    have hloads : found.2.state.inFlight = e.state.inFlight := congrArg _ hstate
    obtain ⟨_ | attributes, e'⟩ := found
    · exact calm_of_eq hgen hquestion hloads
    · exact calm_of_eq hgen hquestion hloads

theorem calm_resumeDiscovery (e : Engine) (d : Discovery)
    (answer : Except Failure QueryResponse) :
    Calm e.state (e.resumeDiscovery d answer).1.state := by
  rw [resumeDiscovery.eq_def]
  split
  · exact e.calm_endDiscovery none
  · cases answer with
    | error f => exact e.calm_endDiscovery none
    | ok response => exact calm_of_eq rfl rfl rfl

/-! ### The end of a load -/

/-- The rows that are shown teach attributes, and nothing else. -/
theorem discoverFromPage_state (e : Engine) : ∃ attributes isDiscovering,
    e.discoverFromPage.state = { e.state with attributes, isDiscovering } := by
  have hstate : (e.cachedSchema (schemaKey e.config e.state)).2.state = e.state := rfl
  rw [discoverFromPage]
  generalize e.cachedSchema (schemaKey e.config e.state) = found at hstate ⊢
  obtain ⟨_ | attributes, e'⟩ := found
  · replace hstate : e'.state = e.state := hstate
    dsimp only
    split
    · exact ⟨_, _, hstate⟩
    · refine ⟨discover e'.state.documents e'.config.discovery, false, ?_⟩
      rw [← hstate]
      rfl
  · replace hstate : e'.state = e.state := hstate
    dsimp only
    split
    · refine ⟨attributes, false, ?_⟩
      rw [← hstate]
      rfl
    · exact ⟨_, _, hstate⟩

/-- **The state after a page is applied**, but for what its rows teach. -/
theorem applyPage_state (e : Engine) (options : LoadOptions) (p : FetchedPage) :
    ∃ attributes isDiscovering, (e.applyPage options p).state =
      { e.state.reduce (.loadSucceeded p.documents p.total p.pages options.append) with
        attributes, isDiscovering } := by
  rw [applyPage]
  dsimp only
  split
  · exact discoverFromPage_state _
  · exact discoverFromPage_state _

theorem endLoad_of_late (h : e.state.generation ≠ s.snapshot.generation) :
    e.endLoad s result = (e.dispatch .loadSettled, .stale) := by
  unfold endLoad
  rw [if_pos h]

theorem endLoad_of_timely (h : e.state.generation = s.snapshot.generation) :
    e.endLoad s result = match result with
      | .ok p =>
        ((e.applyPage s.options p).dispatch .loadSettled, if p.fromCache then .cached else .loaded)
      | .error f => ((e.dispatch (.loadFailed f.message)).dispatch .loadSettled, .failed) := by
  unfold endLoad
  rw [if_neg fun hne => hne h]
  cases result <;> rfl

/-- A load is late exactly if its generation is over. -/
theorem endLoad_eq_stale_iff :
    (e.endLoad s result).2 = .stale ↔ e.state.generation ≠ s.snapshot.generation := by
  refine ⟨fun h hgen => ?_, fun h => by rw [endLoad_of_late h]⟩
  rw [endLoad_of_timely hgen] at h
  cases result with
  | error f => cases h
  | ok p =>
    dsimp only at h
    split at h
    · cases h
    · cases h

/-- The end of a load begins no generation and settles the load. -/
theorem endLoad_generation :
    (e.endLoad s result).1.state.generation = e.state.generation ∧
      (e.endLoad s result).1.state.inFlight = e.state.inFlight - 1 := by
  by_cases h : e.state.generation = s.snapshot.generation
  · rw [endLoad_of_timely h]
    cases result with
    | error f => exact ⟨rfl, rfl⟩
    | ok p =>
      obtain ⟨attributes, isDiscovering, hstate⟩ := e.applyPage_state s.options p
      have hgen := congrArg EngineState.generation hstate
      have hloads := congrArg (EngineState.inFlight · - 1) hstate
      exact ⟨hgen, hloads⟩
  · rw [endLoad_of_late h]
    exact ⟨rfl, rfl⟩

/-- A load that ends in time does not begin once more. -/
theorem concludeLoad_of_timely (h : e.state.generation = s.snapshot.generation) :
    e.concludeLoad s result = ((e.endLoad s result).1, .finished (e.endLoad s result).2) := by
  have hstale : (e.endLoad s result).2 ≠ .stale := fun hstale => endLoad_eq_stale_iff.mp hstale h
  rw [concludeLoad]
  dsimp only
  generalize e.endLoad s result = ended at hstale ⊢
  obtain ⟨e', outcome⟩ := ended
  cases outcome with
  | stale => exact absurd rfl hstale
  | _ => rfl

theorem concludeLoad_of_late (h : e.state.generation ≠ s.snapshot.generation) :
    e.concludeLoad s result =
      if s.mayRepeat && !(e.state.sameInputs s.snapshot) then
        (e.dispatch .loadSettled).beginAttempt
          { LoadOptions.default with force := s.options.force } false
      else (e.dispatch .loadSettled, .finished .stale) := by
  rw [concludeLoad, endLoad_of_late h]

/-! ### What is left alone -/

/-- Settings and cached pages stay. -/
def SameStores (e e' : Engine) : Prop :=
  e'.config = e.config ∧ e'.cache.queries = e.cache.queries

theorem change_sameStores (e : Engine) (c : Change) : e.SameStores (e.change c) := by
  rcases e.change_cases c with h | ⟨a, -, h⟩
  · rw [h]
    exact ⟨rfl, rfl⟩
  · rw [h]
    exact ⟨rfl, rfl⟩

theorem discoverFromPage_sameStores (e : Engine) : e.SameStores e.discoverFromPage := by
  have hconfig : (e.cachedSchema (schemaKey e.config e.state)).2.config = e.config := rfl
  have hqueries : (e.cachedSchema (schemaKey e.config e.state)).2.cache.queries =
      e.cache.queries := rfl
  rw [discoverFromPage]
  generalize e.cachedSchema (schemaKey e.config e.state) = found at hconfig hqueries ⊢
  obtain ⟨_ | attributes, e'⟩ := found
  · dsimp only
    split
    · exact ⟨hconfig, hqueries⟩
    · exact ⟨hconfig, hqueries⟩
  · dsimp only
    split
    · exact ⟨hconfig, hqueries⟩
    · exact ⟨hconfig, hqueries⟩

theorem endLoad_sameStores : e.SameStores (e.endLoad s result).1 := by
  by_cases h : e.state.generation = s.snapshot.generation
  · rw [endLoad_of_timely h]
    cases result with
    | error f => exact ⟨rfl, rfl⟩
    | ok p =>
      dsimp only
      rw [applyPage]
      split
      · exact discoverFromPage_sameStores _
      · exact discoverFromPage_sameStores _
  · rw [endLoad_of_late h]
    exact ⟨rfl, rfl⟩

end Steps

end Engine

end DocQuery
