import DocQuery.Engine.Client
import DocQuery.Proofs.Engine.Fetch

/-!
# Loads and discoveries that run to their ends

A client that waits for every call sees its loads and discoveries one at a time.

* `Engine.Learns` – from one engine to another, only attributes were learned; so it is with
  discoveries, which leave what they report in the state (`Client.discover_cases`);
* `Backend.Answers` – an answer that comes from a backend (`Backend.answers_of_ask`);
* `LoadStart.fetch` – what a load finds that asks a store; `LoadStart.Finds` – how it ends with a
  backend, whose calls may fail by themselves;
* `Client.load_cases` – **how a load goes**: it is skipped, it ends with a cached page, or it ends
  with what it finds, which is cached;
* `Client.sends` – the queries that a load sends, which the backend receives
  (`Client.load_backend`).
-/

namespace DocQuery

/-! ### Learning attributes -/

namespace Engine

/-- Nothing but the attributes is different. -/
structure Learns (e e' : Engine) : Prop where
  state : ∃ attributes isDiscovering, e'.state = { e.state with attributes, isDiscovering }
  config : e'.config = e.config
  queries : e'.cache.queries = e.cache.queries

namespace Learns

variable {e e' e'' : Engine}

theorem trans (h : e.Learns e') (h' : e'.Learns e'') : e.Learns e'' := by
  obtain ⟨⟨attributes, isDiscovering, hstate⟩, hconfig, hqueries⟩ := h
  obtain ⟨⟨attributes', isDiscovering', hstate'⟩, hconfig', hqueries'⟩ := h'
  refine ⟨⟨attributes', isDiscovering', ?_⟩, hconfig'.trans hconfig, hqueries'.trans hqueries⟩
  rw [hstate', hstate]

theorem query_eq (h : e.Learns e') : e'.state.query = e.state.query := by
  obtain ⟨⟨attributes, isDiscovering, hstate⟩, -, -⟩ := h
  rw [hstate]

end Learns

theorem learns_endDiscovery (e : Engine) (found : Option (List Attribute)) :
    e.Learns (e.endDiscovery found).1 := ⟨⟨_, _, rfl⟩, rfl, rfl⟩

theorem learns_resumeDiscovery (e : Engine) (d : Discovery)
    (answer : Except Failure QueryResponse) : e.Learns (e.resumeDiscovery d answer).1 := by
  unfold resumeDiscovery
  split
  · exact learns_endDiscovery e none
  · cases answer with
    | error f => exact learns_endDiscovery e none
    | ok response => exact ⟨⟨_, _, rfl⟩, rfl, rfl⟩

/-- A discovery reports the attributes that it leaves in the state. -/
theorem resumeDiscovery_attributes (e : Engine) (d : Discovery)
    (answer : Except Failure QueryResponse) :
    (e.resumeDiscovery d answer).1.state.attributes = (e.resumeDiscovery d answer).2 := by
  unfold resumeDiscovery
  split
  · rfl
  · cases answer <;> rfl

/-- **How a discovery begins**: it ends at once, with a cached schema, or it waits. -/
theorem beginDiscovery_cases (e : Engine) (force : Bool) : ∃ e', e.Learns e' ∧
    ((∃ attributes, e.beginDiscovery force = (e', .finished attributes) ∧
        e'.state.attributes = attributes) ∨
      e.beginDiscovery force = (e', .waiting ⟨e.state⟩)) := by
  unfold beginDiscovery
  cases force with
  | true => exact ⟨e.dispatch .discoveryStarted, ⟨⟨_, _, rfl⟩, rfl, rfl⟩, Or.inr rfl⟩
  | false =>
    rw [if_neg Bool.false_ne_true]
    have hlearns : e.Learns (e.cachedSchema (schemaKey e.config e.state)).2 :=
      ⟨⟨_, _, rfl⟩, rfl, rfl⟩
    have hstate : (e.cachedSchema (schemaKey e.config e.state)).2.state = e.state := rfl
    generalize e.cachedSchema (schemaKey e.config e.state) = found at hlearns hstate ⊢
    obtain ⟨_ | attributes, e'⟩ := found
    · refine ⟨e'.dispatch .discoveryStarted, hlearns.trans ⟨⟨_, _, rfl⟩, rfl, rfl⟩, Or.inr ?_⟩
      rw [← hstate]
    · exact ⟨_, hlearns.trans (learns_endDiscovery e' (some attributes)),
        Or.inl ⟨_, rfl, rfl⟩⟩

end Engine

/-! ### Calls to a backend -/

/-- A store answers with whatever consistency is asked for. -/
theorem Store.reply_consistent (store : Store) (ns : String) (config : EngineConfig)
    (request : QueryRequest) :
    store.reply ns (Engine.consistent config request) = store.reply ns request := by
  unfold Engine.consistent QueryRequest.withConsistency
  cases config.consistency <;> rfl

namespace Backend

/-- Sends a query and waits for the answer. -/
def ask (b : Backend) (ns : String) (request : QueryRequest) :
    Except Failure QueryResponse × Backend :=
  (b.receiveQuery request).answerQuery ns request

variable {b b' : Backend} {ns : String} {request : QueryRequest}
  {answer : Except Failure QueryResponse}

/-- An answer of a backend: the store stays, an answer that is no failure is that of the store, and
without queued failures every answer is. -/
structure Answers (b : Backend) (ns : String) (request : QueryRequest)
    (answer : Except Failure QueryResponse) (b' : Backend) : Prop where
  store : b'.store = b.store
  reply : ∀ r, answer = .ok r → b.store.reply ns request = .ok r
  sound : b.failures = [] → answer = b.store.reply ns request ∧ b'.failures = []

theorem answers_of_ask (h : b.ask ns request = (answer, b')) : b.Answers ns request answer b' := by
  unfold ask at h
  cases hfailures : b.failures with
  | nil =>
    rw [answerQuery_eq (b.receiveQuery request) hfailures] at h
    cases h
    exact ⟨rfl, fun r hr => hr, fun _ => ⟨rfl, hfailures⟩⟩
  | cons f rest =>
    have hqueued : (b.receiveQuery request).failures = f :: rest := hfailures
    rw [answerQuery, takeFailure, hqueued] at h
    cases h
    exact ⟨rfl, fun r hr => (by cases hr), fun hnone => (by rw [hfailures] at hnone; cases hnone)⟩

end Backend

/-! ### Discoveries of a client -/

namespace Client

variable (c : Client)

/-- What a discovery does: it reports the attributes that it leaves in the state, and nothing else
is different. -/
theorem discover_cases (force : Bool) :
    c.engine.Learns (c.discover force).1.engine ∧
      (c.discover force).1.backend.store = c.backend.store ∧
      (c.discover force).1.engine.state.attributes = (c.discover force).2 := by
  unfold discover beginDiscovery
  obtain ⟨e', hlearns, ⟨attributes, hbegin, hattributes⟩ | hbegin⟩ :=
    c.engine.beginDiscovery_cases force
  · rw [hbegin]
    exact ⟨hlearns, rfl, hattributes⟩
  · rw [hbegin]
    exact ⟨hlearns.trans (Engine.learns_resumeDiscovery _ _ _),
      (Backend.answers_of_ask rfl).store, Engine.resumeDiscovery_attributes _ _ _⟩

end Client

/-! ### What a load finds -/

/-- What a load finds that asks a store: the page of its plan, with its total. -/
def LoadStart.fetch (store : Store) (config : EngineConfig) (s : LoadStart) :
    Except Failure FetchedPage :=
  match s.plan config with
  | .error flaw => .error flaw.failure
  | .ok plan =>
    match store.reply s.snapshot.ns (Load.request ⟨s, plan, .counting⟩ config) with
    | .error f => .error f
    | .ok counted =>
      match counted.count with
      | .error flaw => .error flaw.failure
      | .ok total =>
        match store.reply s.snapshot.ns (Load.request ⟨s, plan, .fetching total⟩ config) with
        | .error f => .error f
        | .ok r =>
          .ok ⟨(s.snapshot.query.pages.commit plan r.rows).2, total,
            (s.snapshot.query.pages.commit plan r.rows).1, false⟩

namespace LoadStart

/-- The page of a plan, as the answer to the query for its rows has it. -/
def turned (s : LoadStart) (plan : PagePlan) (total : Nat) :
    Except Failure QueryResponse → Except Failure FetchedPage
  | .error f => .error f
  | .ok r => .ok ⟨(s.snapshot.query.pages.commit plan r.rows).2, total,
      (s.snapshot.query.pages.commit plan r.rows).1, false⟩

/-- How a load ends that asks a backend: the store stays, a page is what the load finds in the store,
and without queued failures every result is. -/
structure Finds (s : LoadStart) (config : EngineConfig) (b : Backend)
    (result : Except Failure FetchedPage) (b' : Backend) : Prop where
  store : b'.store = b.store
  found : ∀ p, result = .ok p → s.fetch b.store config = .ok p
  sound : b.failures = [] → result = s.fetch b.store config ∧ b'.failures = []

section Finds

variable {s : LoadStart} {config : EngineConfig} {plan : PagePlan} {b b' b'' : Backend}
  {r : QueryResponse} (hplan : s.plan config = .ok plan)

include hplan

/-- The query for the total fails. -/
theorem finds_uncounted {f : Failure} (h : b.Answers s.snapshot.ns
    (Load.request ⟨s, plan, .counting⟩ config) (.error f) b') :
    s.Finds config b (.error f) b' := by
  refine ⟨h.store, fun p hp => (by cases hp), fun hnone => ?_⟩
  obtain ⟨hanswer, hrest⟩ := h.sound hnone
  rw [fetch, hplan]
  dsimp only
  rw [← hanswer]
  exact ⟨rfl, hrest⟩

/-- It is answered without a total. -/
theorem finds_malformed {flaw : QueryResponse.CountFlaw} (h : b.Answers s.snapshot.ns
    (Load.request ⟨s, plan, .counting⟩ config) (.ok r) b') (hr : r.count = .error flaw) :
    s.Finds config b (.error flaw.failure) b' := by
  refine ⟨h.store, fun p hp => (by cases hp), fun hnone => ⟨?_, (h.sound hnone).2⟩⟩
  rw [fetch, hplan]
  dsimp only
  rw [h.reply r rfl]
  dsimp only
  rw [hr]

/-- It is answered, and so is the query for the rows, be it with a failure. -/
theorem finds_turned {total : Nat} {answer : Except Failure QueryResponse}
    (h : b.Answers s.snapshot.ns (Load.request ⟨s, plan, .counting⟩ config) (.ok r) b')
    (hr : r.count = .ok total)
    (h' : b'.Answers s.snapshot.ns (Load.request ⟨s, plan, .fetching total⟩ config) answer b'') :
    s.Finds config b (s.turned plan total answer) b'' := by
  have hfetch : s.fetch b.store config = s.turned plan total (b'.store.reply s.snapshot.ns
      (Load.request ⟨s, plan, .fetching total⟩ config)) := by
    rw [fetch, hplan]
    dsimp only
    rw [h.reply r rfl]
    dsimp only
    rw [hr, h.store]
    rfl
  refine ⟨h'.store.trans h.store, fun p hp => ?_, fun hnone => ?_⟩
  · cases answer with
    | error f => cases hp
    | ok rows => rw [hfetch, h'.reply rows rfl, ← hp]
  · obtain ⟨hanswer, hrest⟩ := h'.sound (h.sound hnone).2
    rw [hfetch, ← hanswer]
    exact ⟨rfl, hrest⟩

end Finds

end LoadStart

/-- Keeps what a load found. -/
def Engine.keep (e : Engine) (s : LoadStart) (result : Except Failure FetchedPage) : Engine :=
  match result with
  | .ok p => e.cachePage s.key ⟨p.documents, p.total, p.pages.next⟩
  | .error _ => e

namespace Client

/-- The queries that a job sends for loads, each with the beginning of its load. -/
def sentFor : Nat → Client → Progress → List (LoadStart × QueryRequest)
  | n + 1, c, .waiting (.load l) =>
    let (c', p) := (c.send (.load l)).answer (.load l)
    (l.start, l.request c.engine.config) :: sentFor n c' p
  | n + 1, c, .waiting job =>
    let (c', p) := (c.send job).answer job
    sentFor n c' p
  | _, _, _ => []

variable {c : Client} {s : LoadStart} {plan : PagePlan} {total : Nat}

/-- How a load ends that was answered and is not late. -/
def ended (s : LoadStart) (result : Except Failure FetchedPage) (e : Engine) (b : Backend) :
    Client × Progress :=
  (⟨((e.keep s result).endLoad s result).1, b⟩,
    .finished (.load ((e.keep s result).endLoad s result).2))

theorem keep_state (e : Engine) (s : LoadStart) (result : Except Failure FetchedPage) :
    (e.keep s result).state = e.state := by
  cases result <;> rfl

/-- A load goes on with the answer to its query. -/
theorem answer_load {l : Load} {answer : Except Failure QueryResponse} {b : Backend}
    (hask : c.backend.ask l.start.snapshot.ns (l.request c.engine.config) = (answer, b)) :
    (c.send (.load l)).answer (.load l) =
      (⟨(c.engine.resumeLoad l answer).1, b⟩, (c.engine.resumeLoad l answer).2.progress) :=
  congrArg (fun r : Except Failure QueryResponse × Backend =>
    ((⟨(c.engine.resumeLoad l r.1).1, r.2⟩,
      (c.engine.resumeLoad l r.1).2.progress) : Client × Progress)) hask

/-- The answer to the query for the rows ends a load. -/
theorem step_fetching (htimely : c.engine.state.generation = s.snapshot.generation)
    {answer : Except Failure QueryResponse} {b : Backend}
    (hask : c.backend.ask s.snapshot.ns (Load.request ⟨s, plan, .fetching total⟩ c.engine.config) =
      (answer, b)) :
    (c.send (.load ⟨s, plan, .fetching total⟩)).answer (.load ⟨s, plan, .fetching total⟩) =
      ended s (s.turned plan total answer) c.engine b := by
  rw [answer_load hask]
  cases answer with
  | error f =>
    dsimp only [Engine.resumeLoad]
    rw [Engine.concludeLoad_of_timely htimely]
    rfl
  | ok r =>
    dsimp only [Engine.resumeLoad, Engine.commitRows]
    rw [Engine.concludeLoad_of_timely (by exact htimely)]
    rfl

/-- The answer to the query for the total ends a load, unless it is a total. -/
theorem step_counting (htimely : c.engine.state.generation = s.snapshot.generation)
    {answer : Except Failure QueryResponse} {b : Backend}
    (hask : c.backend.ask s.snapshot.ns (Load.request ⟨s, plan, .counting⟩ c.engine.config) =
      (answer, b)) :
    (c.send (.load ⟨s, plan, .counting⟩)).answer (.load ⟨s, plan, .counting⟩) =
      match answer with
      | .error f => ended s (.error f) c.engine b
      | .ok r => match r.count with
        | .error flaw => ended s (.error flaw.failure) c.engine b
        | .ok total => (⟨c.engine, b⟩, .waiting (.load ⟨s, plan, .fetching total⟩)) := by
  rw [answer_load hask]
  cases answer with
  | error f =>
    dsimp only [Engine.resumeLoad]
    rw [Engine.concludeLoad_of_timely htimely]
    rfl
  | ok r =>
    dsimp only [Engine.resumeLoad]
    cases r.count with
    | error flaw =>
      dsimp only
      rw [Engine.concludeLoad_of_timely htimely]
      rfl
    | ok total => rfl

/-- **The course of a load** that asks the backend, when nothing else happens meanwhile. It sends a
query for the total and, if that is answered, one for the rows. -/
theorem run_load (c : Client) (hplan : s.plan c.engine.config = .ok plan)
    (htimely : c.engine.state.generation = s.snapshot.generation) : ∃ result b,
    c.run (.waiting (.load ⟨s, plan, .counting⟩)) = ended s result c.engine b ∧
      s.Finds c.engine.config c.backend result b ∧
      (sentFor maxCalls c (.waiting (.load ⟨s, plan, .counting⟩)) =
          [(s, Load.request ⟨s, plan, .counting⟩ c.engine.config)] ∨
        ∃ total, sentFor maxCalls c (.waiting (.load ⟨s, plan, .counting⟩)) =
          [(s, Load.request ⟨s, plan, .counting⟩ c.engine.config),
            (s, Load.request ⟨s, plan, .fetching total⟩ c.engine.config)]) := by
  obtain ⟨answer, b, hask⟩ : ∃ answer b, c.backend.ask s.snapshot.ns
      (Load.request ⟨s, plan, .counting⟩ c.engine.config) = (answer, b) := ⟨_, _, rfl⟩
  have hcounted := Backend.answers_of_ask hask
  unfold run maxCalls
  rw [runFor, sentFor, step_counting htimely hask]
  cases answer with
  | error f => exact ⟨.error f, b, rfl, LoadStart.finds_uncounted hplan hcounted, Or.inl rfl⟩
  | ok r =>
    dsimp only
    cases hr : r.count with
    | error flaw =>
      exact ⟨.error flaw.failure, b, rfl, LoadStart.finds_malformed hplan hcounted hr, Or.inl rfl⟩
    | ok total =>
      -- the total is known, and the load asks for the rows
      have htimely' : (⟨c.engine, b⟩ : Client).engine.state.generation =
          s.snapshot.generation := htimely
      obtain ⟨answer', b', hask'⟩ : ∃ answer' b', b.ask s.snapshot.ns
          (Load.request ⟨s, plan, .fetching total⟩ c.engine.config) = (answer', b') :=
        ⟨_, _, rfl⟩
      dsimp only
      rw [runFor, sentFor, step_fetching htimely' hask']
      exact ⟨s.turned plan total answer', b', rfl,
        LoadStart.finds_turned hplan hcounted hr (Backend.answers_of_ask hask'),
        Or.inr ⟨total, rfl⟩⟩

/-! ### Loads -/

/-- How a load ends that begins in the engine `e`: the engine in which it ends, its result and the
backend after its calls. -/
inductive Ends (c : Client) (e : Engine) (s : LoadStart) :
    Engine → Except Failure FetchedPage → Backend → Prop
  /-- The page cannot be planned. -/
  | unplanned (flaw : PlanFlaw) (hplan : s.plan e.config = .error flaw) :
    Ends c e s e (.error flaw.failure) c.backend
  /-- The page is cached. -/
  | hit (plan : PagePlan) (page : CachedPage) (e' : Engine) (hforce : s.options.force = false)
    (hplan : s.plan e.config = .ok plan) (hcached : e.cachedPage s.key = (some page, e')) :
    Ends c e s e' (.ok ⟨page.documents, page.total,
      s.snapshot.query.pages.restore plan page.next, true⟩) c.backend
  /-- The page was asked for. -/
  | fetched (plan : PagePlan) (e' : Engine) (result : Except Failure FetchedPage) (b : Backend)
    (hplan : s.plan e.config = .ok plan) (hlook : e.lookUp s plan = (none, e'))
    (hfinds : s.Finds e.config c.backend result b) :
    Ends c e s (e'.keep s result) result b

/-- A look-up changes nothing but the cache. -/
theorem lookUp_frame (e : Engine) (s : LoadStart) (plan : PagePlan) :
    (e.lookUp s plan).2.state = e.state ∧ (e.lookUp s plan).2.config = e.config := by
  unfold Engine.lookUp
  cases s.options.force with
  | true => exact ⟨rfl, rfl⟩
  | false =>
    rw [if_neg Bool.false_ne_true]
    obtain ⟨page, e', hcached⟩ : ∃ page e', e.cachedPage s.key = (page, e') := ⟨_, _, rfl⟩
    have hframe : e'.state = e.state ∧ e'.config = e.config := by
      have h : e' = (e.cachedPage s.key).2 := (congrArg Prod.snd hcached).symm
      rw [h]
      exact ⟨rfl, rfl⟩
    rw [hcached]
    cases page <;> exact hframe

/-- A page that is looked up is a cached page that was restored. -/
theorem lookUp_some {e e' : Engine} {s : LoadStart} {plan : PagePlan} {p : FetchedPage}
    (h : e.lookUp s plan = (some p, e')) : ∃ page, s.options.force = false ∧
      e.cachedPage s.key = (some page, e') ∧ p = ⟨page.documents, page.total,
        s.snapshot.query.pages.restore plan page.next, true⟩ := by
  unfold Engine.lookUp at h
  cases hforce : s.options.force with
  | true =>
    rw [hforce] at h
    cases h
  | false =>
    rw [hforce, if_neg Bool.false_ne_true] at h
    obtain ⟨page, e₁, hcached⟩ : ∃ page e₁, e.cachedPage s.key = (page, e₁) := ⟨_, _, rfl⟩
    rw [hcached] at h
    cases page with
    | none => cases h
    | some page =>
      cases h
      exact ⟨page, rfl, hcached, rfl⟩

/-- The queries that a load sends, each with the beginning of the load. -/
def sends (c : Client) (options : LoadOptions) : List (LoadStart × QueryRequest) :=
  sentFor maxCalls (c.beginLoad options).1 (c.beginLoad options).2

/-- **How a load goes**: it is skipped, or it ends with a cached page, or it ends with what it
finds; then it sends a query for the total and possibly one for the rows. -/
theorem load_cases (c : Client) (options : LoadOptions) {e : Engine} {s : LoadStart}
    (henter : c.engine.enterLoad options true = (e, s)) :
    (c.load options = (c, .skipped) ∧ c.sends options = [] ∧ c.engine.state.isLoading = true ∧
        options.force = false) ∨
      ∃ e' result b, Ends c e s e' result b ∧
        c.load options = (⟨(e'.endLoad s result).1, b⟩, (e'.endLoad s result).2) ∧
        e'.state = e.state ∧
        (c.sends options = [] ∨ ∃ plan, s.plan e.config = .ok plan ∧
          (c.sends options = [(s, Load.request ⟨s, plan, .counting⟩ e.config)] ∨
            ∃ total, c.sends options = [(s, Load.request ⟨s, plan, .counting⟩ e.config),
              (s, Load.request ⟨s, plan, .fetching total⟩ e.config)])) := by
  have hoptions : s.options = options := by
    have h := congrArg (fun r => r.2.options) henter
    exact h.symm
  have htimely : e.state.generation = s.snapshot.generation := by
    have h : e.state = s.snapshot := by
      have h₁ := congrArg (fun r => r.1.state) henter
      have h₂ := congrArg (fun r => r.2.snapshot) henter
      exact h₁.symm.trans h₂
    rw [h]
  unfold sends load beginLoad Engine.beginLoad Engine.beginAttempt
  cases hskip : c.engine.state.isLoading && !options.force with
  | true =>
    rw [if_pos rfl]
    have h : c.engine.state.isLoading = true ∧ options.force = false := by simpa using hskip
    exact Or.inl ⟨rfl, rfl, h⟩
  | false =>
    rw [if_neg Bool.false_ne_true, henter]
    dsimp only
    refine Or.inr ?_
    cases hplan : s.plan e.config with
    | error flaw => exact ⟨e, _, _, .unplanned flaw hplan, rfl, rfl, Or.inl rfl⟩
    | ok plan =>
      obtain ⟨found, e', hlook⟩ : ∃ found e', e.lookUp s plan = (found, e') := ⟨_, _, rfl⟩
      have hframe := lookUp_frame e s plan
      rw [hlook] at hframe
      dsimp only at hframe ⊢
      obtain ⟨hstate, hconfig⟩ := hframe
      rw [hlook]
      cases found with
      | some p =>
        obtain ⟨page, hforce, hcached, rfl⟩ := lookUp_some hlook
        exact ⟨e', _, _, .hit plan page e' hforce hplan hcached, rfl, hstate, Or.inl rfl⟩
      | none =>
        obtain ⟨result, b, hrun, hfinds, hsends⟩ :=
          run_load (⟨e', c.backend⟩ : Client) (hconfig ▸ hplan)
            ((congrArg EngineState.generation hstate).trans htimely)
        dsimp only at hsends hfinds
        rw [hconfig] at hsends hfinds
        refine ⟨e'.keep s result, result, b, .fetched plan e' result b hplan hlook hfinds, ?_, ?_,
          Or.inr ⟨plan, rfl, hsends⟩⟩
        · dsimp only [LoadProgress.progress]
          rw [hrun]
          rfl
        · rw [keep_state, hstate]

/-- The last of some queries, of which there may be none. -/
def lastOf (before : Option QueryRequest) (sent : List (LoadStart × QueryRequest)) :
    Option QueryRequest :=
  sent.foldl (fun _ r => some r.2) before

theorem answerQuery_counters (b : Backend) (ns : String) (request : QueryRequest) :
    (b.answerQuery ns request).2.queries = b.queries ∧
      (b.answerQuery ns request).2.lastQuery = b.lastQuery := by
  unfold Backend.answerQuery Backend.takeFailure
  cases b.failures with
  | nil =>
    dsimp only
    cases b.store.query ns request <;> exact ⟨rfl, rfl⟩
  | cons f rest => exact ⟨rfl, rfl⟩

theorem runFor_backend (n : Nat) (c : Client) (p : LoadProgress) :
    (runFor n c p.progress).1.backend.queries =
        c.backend.queries + (sentFor n c p.progress).length ∧
      (runFor n c p.progress).1.backend.lastQuery =
        lastOf c.backend.lastQuery (sentFor n c p.progress) := by
  induction n generalizing c p with
  | zero => cases p <;> exact ⟨rfl, rfl⟩
  | succ n ih =>
    cases p with
    | finished outcome => exact ⟨rfl, rfl⟩
    | waiting l =>
      obtain ⟨hqueries, hlast⟩ := answerQuery_counters
        (c.backend.receiveQuery (l.request c.engine.config)) l.start.snapshot.ns
        (l.request c.engine.config)
      obtain ⟨r, b, hask⟩ : ∃ r b,
          (c.backend.receiveQuery (l.request c.engine.config)).answerQuery l.start.snapshot.ns
            (l.request c.engine.config) = (r, b) := ⟨_, _, rfl⟩
      rw [hask] at hqueries hlast
      obtain ⟨ihqueries, ihlast⟩ := ih ⟨(c.engine.resumeLoad l r).1, b⟩ (c.engine.resumeLoad l r).2
      rw [LoadProgress.progress, runFor, sentFor, answer_load hask]
      refine ⟨ihqueries.trans ?_, ihlast.trans ?_⟩
      · have hreceived : (c.backend.receiveQuery (l.request c.engine.config)).queries =
            c.backend.queries + 1 := rfl
        dsimp only at hqueries ⊢
        rw [hqueries, hreceived, List.length_cons]
        omega
      · dsimp only at hlast ⊢
        rw [hlast]
        rfl

/-- **The backend receives the queries that a load sends.** -/
theorem load_backend (c : Client) (options : LoadOptions) :
    (c.load options).1.backend.queries = c.backend.queries + (c.sends options).length ∧
      (c.load options).1.backend.lastQuery = lastOf c.backend.lastQuery (c.sends options) := by
  have hrun := runFor_backend maxCalls (c.beginLoad options).1 (c.engine.beginLoad options).2
  have hload : (c.load options).1 =
      (runFor maxCalls (c.beginLoad options).1 (c.engine.beginLoad options).2.progress).1 := by
    change _ = ((c.beginLoad options).1.run (c.beginLoad options).2).1
    unfold load
    generalize c.beginLoad options = begun
    dsimp only
    generalize begun.1.run begun.2 = ended
    obtain ⟨c', p⟩ := ended
    split
    · rename_i h
      exact (congrArg Prod.fst h).symm
    · rename_i h
      exact (congrArg Prod.fst h).symm
  rw [hload]
  exact hrun

end Client

end DocQuery
