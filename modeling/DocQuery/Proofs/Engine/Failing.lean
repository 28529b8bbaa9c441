import DocQuery.Proofs.Cache.Ttl
import DocQuery.Proofs.Engine.Client

/-!
# What a failed load leaves behind

A load can fail before it asks for anything, because its page cannot be planned, and it can fail at
every call: the total is not counted, or the answer has no total, or the rows are not fetched.
By then the engine has begun a generation, looked into its cache and counted a load under way.
**Whatever fails, nothing but the message is left of it.**

* `Engine.follow`, `Engine.loadFrom` – a load that asks a service, which is any function of what it
  was asked before, and waits for its answers; `Client.load_eq` – the loads of a client are of this
  kind;
* `LoadStart.failure?` – the failure that a load meets which asks for its page;
* `Engine.fail` – an engine that has noted a failure and settled a load; `Engine.Intact` – what is
  the same but for the state;
* `Engine.beginLoad_cases`, `Engine.follow_counting`, `Engine.follow_fetching` – where a load can
  fail;
* `Engine.loadFrom_failed` – **a load that fails has met a failure**, notes its message and leaves
  everything else as it was, but for cached pages that are too old.

The service is arbitrary, so its answers may be malformed or failures at any call.
-/

namespace DocQuery

variable {σ : Type} (ask : σ → String → QueryRequest → Except Failure QueryResponse × σ)

/-! ### Loads that ask a service -/

/-- How a load has ended; one that still waits counts as late. -/
def LoadProgress.outcome : LoadProgress → LoadOutcome
  | .finished outcome => outcome
  | .waiting _ => .stale

namespace Engine

/-- Goes on with a load, asking at most `n` times. -/
def follow : Nat → Engine → LoadProgress → σ → Engine × LoadProgress × σ
  | n + 1, e, .waiting l, w =>
    let (answer, w) := ask w l.start.snapshot.ns (l.request e.config)
    let (e, p) := e.resumeLoad l answer
    follow n e p w
  | _, e, p, w => (e, p, w)

/-- Loads a page while nothing else happens. -/
def loadFrom (e : Engine) (options : LoadOptions) (w : σ) : Engine × LoadProgress × σ :=
  let (e, p) := e.beginLoad options
  follow ask Client.maxCalls e p w

@[simp] theorem follow_finished (n : Nat) (e : Engine) (outcome : LoadOutcome) (w : σ) :
    follow ask n e (.finished outcome) w = (e, .finished outcome, w) := by
  cases n <;> rfl

end Engine

namespace Client

theorem runFor_eq_follow (n : Nat) (c : Client) (p : LoadProgress) :
    runFor n c p.progress =
      (⟨(Engine.follow Backend.ask n c.engine p c.backend).1,
          (Engine.follow Backend.ask n c.engine p c.backend).2.2⟩,
        (Engine.follow Backend.ask n c.engine p c.backend).2.1.progress) := by
  induction n generalizing c p with
  | zero => cases p <;> rfl
  | succ n ih =>
    cases p with
    | finished outcome => rfl
    | waiting l =>
      obtain ⟨answer, b, hask⟩ : ∃ answer b,
          c.backend.ask l.start.snapshot.ns (l.request c.engine.config) = (answer, b) :=
        ⟨_, _, rfl⟩
      rw [LoadProgress.progress, runFor, answer_load hask, Engine.follow, hask]
      exact ih ⟨(c.engine.resumeLoad l answer).1, b⟩ (c.engine.resumeLoad l answer).2

/-- **A client's load is a load that asks its backend.** -/
theorem load_eq (c : Client) (options : LoadOptions) {e : Engine} {p : LoadProgress} {b : Backend}
    (h : c.engine.loadFrom Backend.ask options c.backend = (e, p, b)) :
    c.load options = (⟨e, b⟩, p.outcome) := by
  have hrun : (c.beginLoad options).1.run (c.beginLoad options).2 = (⟨e, b⟩, p.progress) := by
    have hfollow : Engine.follow Backend.ask maxCalls (c.engine.beginLoad options).1
        (c.engine.beginLoad options).2 c.backend = (e, p, b) := h
    have hrun := runFor_eq_follow maxCalls (c.beginLoad options).1 (c.engine.beginLoad options).2
    dsimp only [beginLoad] at hrun
    rw [hfollow] at hrun
    exact hrun
  rw [load]
  dsimp only
  rw [hrun]
  cases p <;> rfl

end Client

/-! ### Failures -/

/-- The failure that a load meets which asks for its page: the page cannot be planned, the total is
not counted, the answer has no total, or the rows are not fetched. -/
def LoadStart.failure? (config : EngineConfig) (s : LoadStart) (w : σ) : Option Failure :=
  match s.plan config with
  | .error flaw => some flaw.failure
  | .ok plan =>
    let counted := ask w s.snapshot.ns (Load.request ⟨s, plan, .counting⟩ config)
    match counted.1 with
    | .error f => some f
    | .ok r =>
      match r.count with
      | .error flaw => some flaw.failure
      | .ok total =>
        match (ask counted.2 s.snapshot.ns (Load.request ⟨s, plan, .fetching total⟩ config)).1 with
        | .error f => some f
        | .ok _ => none

namespace Engine

/-- Notes a failure and settles the load. -/
def fail (e : Engine) (f : Failure) : Engine :=
  (e.dispatch (.loadFailed f.message)).dispatch .loadSettled

section Ends

variable {ask} {e : Engine} {s : LoadStart}

/-- A load that was in time fails exactly if its result is a failure. -/
theorem endLoad_failed (htimely : e.state.generation = s.snapshot.generation)
    {result : Except Failure FetchedPage} (h : (e.endLoad s result).2 = .failed) :
    ∃ f, result = .error f ∧ (e.endLoad s result).1 = e.fail f := by
  rw [endLoad_of_timely htimely] at h ⊢
  rcases result with f | p
  · exact ⟨f, rfl, rfl⟩
  · dsimp only at h
    split at h
    · cases h
    · cases h

theorem follow_concluded (htimely : e.state.generation = s.snapshot.generation)
    {result : Except Failure FetchedPage} {n : Nat} {w w' : σ} {e' : Engine}
    (h : follow ask n (e.concludeLoad s result).1 (e.concludeLoad s result).2 w =
      (e', .finished .failed, w')) : ∃ f, result = .error f ∧ e' = e.fail f := by
  rw [concludeLoad_of_timely htimely] at h
  dsimp only at h
  rw [follow_finished] at h
  injection h with hengine hrest
  injection hrest with houtcome _
  injection houtcome with hfailed
  obtain ⟨f, hresult, hfail⟩ := endLoad_failed htimely hfailed
  exact ⟨f, hresult, hengine ▸ hfail⟩

/-- A load that waits for its rows fails only if they are not fetched. -/
theorem follow_fetching (htimely : e.state.generation = s.snapshot.generation) {n : Nat}
    {plan : PagePlan} {total : Nat} {w w' : σ} {e' : Engine}
    (h : follow ask (n + 1) e (.waiting ⟨s, plan, .fetching total⟩) w =
      (e', .finished .failed, w')) :
    ∃ f, (ask w s.snapshot.ns (Load.request ⟨s, plan, .fetching total⟩ e.config)).1 = .error f ∧
      e' = e.fail f := by
  rw [follow] at h
  obtain ⟨answer, w₁, hask⟩ : ∃ answer w₁, ask w s.snapshot.ns
      (Load.request ⟨s, plan, .fetching total⟩ e.config) = (answer, w₁) := ⟨_, _, rfl⟩
  rw [hask] at h ⊢
  rcases answer with f | r
  · obtain ⟨_, ⟨⟩, hfail⟩ := follow_concluded htimely h
    exact ⟨f, rfl, hfail⟩
  · -- the rows are there, so the load does not fail
    have hcached : (e.commitRows ⟨s, plan, .fetching total⟩ total r.rows).1.state.generation =
        s.snapshot.generation := htimely
    obtain ⟨_, ⟨⟩, -⟩ := follow_concluded hcached h

/-- A load that asks for its page fails only if it meets a failure. -/
theorem follow_counting (htimely : e.state.generation = s.snapshot.generation) {n : Nat}
    {plan : PagePlan} (hplan : s.plan e.config = .ok plan) {w w' : σ} {e' : Engine}
    (h : follow ask (n + 2) e (.waiting ⟨s, plan, .counting⟩) w = (e', .finished .failed, w')) :
    ∃ f, s.failure? ask e.config w = some f ∧ e' = e.fail f := by
  rw [LoadStart.failure?, hplan]
  rw [follow] at h
  dsimp only
  obtain ⟨answer, w₁, hask⟩ : ∃ answer w₁, ask w s.snapshot.ns
      (Load.request ⟨s, plan, .counting⟩ e.config) = (answer, w₁) := ⟨_, _, rfl⟩
  rw [hask] at h ⊢
  rcases answer with f | r
  · obtain ⟨_, ⟨⟩, hfail⟩ := follow_concluded htimely h
    exact ⟨f, rfl, hfail⟩
  · dsimp only [resumeLoad] at h ⊢
    rcases hcount : r.count with flaw | total
    · rw [hcount] at h
      obtain ⟨_, ⟨⟩, hfail⟩ := follow_concluded htimely h
      exact ⟨_, rfl, hfail⟩
    · rw [hcount] at h
      obtain ⟨f, hf, hfail⟩ := follow_fetching htimely h
      dsimp only
      rw [hf]
      exact ⟨f, rfl, hfail⟩

end Ends

/-! ### What is left -/

/-- Settings, past queries and caches are as they were, but for cached pages that are too old. -/
structure Intact (e e' : Engine) : Prop where
  config : e'.config = e.config
  history : e'.history = e.history
  queries : e.cache.queries.Keeps (e.clock + 1) e'.cache.queries
  schemas : e'.cache.schemas = e.cache.schemas

/-- A look-up in vain leaves the engine as it was. -/
theorem intact_lookUp {e e' : Engine} {s : LoadStart} {plan : PagePlan}
    (h : e.lookUp s plan = (none, e')) : e.Intact e' := by
  cases hforce : s.options.force with
  | true =>
    rw [lookUp, if_pos hforce] at h
    cases h
    exact ⟨rfl, rfl, .refl _ _, rfl⟩
  | false =>
    rw [lookUp_eq hforce] at h
    injection h with hnone hengine
    subst hengine
    exact ⟨rfl, rfl, TtlCache.keeps_get (Option.map_eq_none_iff.mp hnone), rfl⟩

/-- The load that begins now, without a page size of its own. -/
def opening (e : Engine) (options : LoadOptions) : LoadStart :=
  ⟨options, (e.dispatch .loadStarted).state, true⟩

/-- **How a load begins**: it is skipped, or its page cannot be planned, or it ends with a cached
page, or it waits for the total. -/
theorem beginLoad_cases (e : Engine) {options : LoadOptions} (hlimit : options.limit = none) :
    e.beginLoad options = (e, .finished .skipped) ∨
    (∃ flaw, (e.opening options).plan e.config = .error flaw ∧
      e.beginLoad options = ((e.dispatch .loadStarted).fail flaw.failure, .finished .failed)) ∨
    ∃ plan e₁, (e.opening options).plan e.config = .ok plan ∧
      e₁.state = (e.dispatch .loadStarted).state ∧ e₁.config = e.config ∧
      ((∃ p, e.beginLoad options = ((e₁.endLoad (e.opening options) (.ok p)).1,
          .finished (e₁.endLoad (e.opening options) (.ok p)).2)) ∨
        (e.Intact e₁ ∧ e.beginLoad options =
          (e₁, .waiting ⟨e.opening options, plan, .counting⟩))) := by
  have henter : e.enterLoad options true = (e.dispatch .loadStarted, e.opening options) := by
    rw [enterLoad, hlimit]
    rfl
  have hconfig : (e.dispatch .loadStarted).config = e.config := rfl
  rw [beginLoad, beginAttempt, henter]
  dsimp only
  cases e.state.isLoading && !options.force with
  | true => exact Or.inl rfl
  | false =>
    rw [if_neg Bool.false_ne_true, hconfig]
    refine Or.inr ?_
    rcases (e.opening options).plan e.config with flaw | plan
    · refine Or.inl ⟨flaw, rfl, ?_⟩
      dsimp only
      rw [endLoad_of_timely rfl]
      rfl
    · refine Or.inr ?_
      obtain ⟨found, e₁, hlook⟩ : ∃ found e₁,
          (e.dispatch .loadStarted).lookUp (e.opening options) plan = (found, e₁) := ⟨_, _, rfl⟩
      have hframe := Client.lookUp_frame (e.dispatch .loadStarted) (e.opening options) plan
      dsimp only
      rw [hlook] at hframe ⊢
      refine ⟨plan, e₁, rfl, hframe.1, hframe.2, ?_⟩
      rcases found with _ | p
      · have hintact := intact_lookUp hlook
        exact Or.inr ⟨⟨hintact.config, hintact.history, hintact.queries, hintact.schemas⟩, rfl⟩
      · exact Or.inl ⟨p, rfl⟩

/-- A load that begins and ends leaves the mark of loading as it was. -/
theorem settled_of_started (s : EngineState) :
    (s.reduce .loadStarted).reduce .loadSettled = { s with generation := s.generation + 1 } := by
  obtain ⟨connection, ns, query, documents, total, attributes, error, isDiscovering, generation,
    inFlight, isLoading, rfl, nextFilterId⟩ := s
  rfl

/-- A failure is noted in the state in which the load began, whichever engine notes it. -/
theorem fail_state {e e₁ : Engine} (h : e₁.state = (e.dispatch .loadStarted).state) (f : Failure) :
    (e₁.fail f).state =
      { e.state with error := some f.message, generation := e.state.generation + 1 } := by
  change (e₁.state.reduce (.loadFailed f.message)).reduce .loadSettled = _
  rw [h]
  exact settled_of_started (e.state.reduce (.loadFailed f.message))

/-- **A failed load leaves everything but the error in place.** It has met a failure, whose message
it notes in a new generation; the state, the settings, the past queries and the caches are
otherwise as they were. -/
theorem loadFrom_failed (e : Engine) {options : LoadOptions} (hlimit : options.limit = none)
    {w w' : σ} {e' : Engine} (h : e.loadFrom ask options w = (e', .finished .failed, w')) :
    ∃ f, (e.opening options).failure? ask e.config w = some f ∧
      e'.state = { e.state with error := some f.message, generation := e.state.generation + 1 } ∧
      e.Intact e' := by
  rw [loadFrom] at h
  rcases e.beginLoad_cases hlimit with hbegin | ⟨flaw, hplan, hbegin⟩ |
    ⟨plan, e₁, hplan, hstate, hconfig, ⟨p, hbegin⟩ | ⟨hintact, hbegin⟩⟩
  · rw [hbegin] at h
    cases h
  · rw [hbegin] at h
    cases h
    refine ⟨flaw.failure, ?_, fail_state rfl _, ⟨rfl, rfl, .refl _ _, rfl⟩⟩
    rw [LoadStart.failure?, hplan]
  · -- a cached page is no failure
    rw [hbegin] at h
    dsimp only at h
    rw [follow_finished] at h
    injection h with _ hrest
    injection hrest with houtcome _
    injection houtcome with hfailed
    obtain ⟨_, ⟨⟩, -⟩ := endLoad_failed (congrArg EngineState.generation hstate) hfailed
  · -- the page is not cached, and the load asks for it
    rw [hbegin] at h
    obtain ⟨f, hf, rfl⟩ :=
      follow_counting (congrArg EngineState.generation hstate) (hconfig ▸ hplan) h
    refine ⟨f, hconfig ▸ hf, fail_state hstate f, ?_⟩
    exact ⟨hintact.config, hintact.history, hintact.queries, hintact.schemas⟩

/-- A service that gives the answers of a list. -/
def scripted : List (Except Failure QueryResponse) → String → QueryRequest →
    Except Failure QueryResponse × List (Except Failure QueryResponse)
  | [], _, _ => (.error (.network "no answer"), [])
  | answer :: rest, _, _ => (answer, rest)

/-- An answer that counts one document, and has it. -/
def oneCounted : QueryResponse :=
  ⟨[.ofId (.int 1)], some (.ofList [(QueryRequest.countName, .int 1)]), none⟩

/-- An engine that shows one document, whose page was cached for no time at all. -/
def shortLived : Engine :=
  ((Engine.start { EngineConfig.default with cacheTtlSecs := 0 } "local" "docs" none).loadFrom
    scripted .default [.ok oneCounted, .ok oneCounted]).1

/-- Its page is too old to be found, and its documents cannot be fetched again. -/
def gone : List (Except Failure QueryResponse) := [.ok oneCounted, .error (.network "gone")]

theorem loadFrom_failed_shortLived : ∃ e' w',
    shortLived.loadFrom scripted .default gone = (e', .finished .failed, w') ∧
      e'.state.error = some (Failure.network "gone").message ∧
      e'.state.total = some 1 ∧ e'.state.documents.length = 1 ∧
      (shortLived.cache.queries.find? (queryKey shortLived.state 1)).isSome = true ∧
      e'.cache.queries.entries.length = 0 ∧ shortLived.Intact e' := by
  have houtcome : (shortLived.loadFrom scripted .default gone).2.1.outcome = .failed := by
    decide +kernel
  have hfailure : (shortLived.opening .default).failure? scripted shortLived.config gone =
      some (.network "gone") := by decide +kernel
  have hbefore : shortLived.state.total = some 1 ∧ shortLived.state.documents.length = 1 := by
    decide +kernel
  have hdropped :
      (shortLived.loadFrom scripted .default gone).1.cache.queries.entries.length = 0 := by
    decide +kernel
  have hfound : (shortLived.cache.queries.find? (queryKey shortLived.state 1)).isSome = true := by
    decide +kernel
  obtain ⟨e', p, w', hload⟩ : ∃ e' p w', shortLived.loadFrom scripted .default gone =
      (e', p, w') := ⟨_, _, _, rfl⟩
  rw [hload] at houtcome hdropped
  dsimp only at houtcome hdropped
  obtain rfl : p = .finished .failed := by
    cases p with
    | waiting l => cases houtcome
    | finished outcome => exact congrArg LoadProgress.finished houtcome
  obtain ⟨f, hf, hstate, hintact⟩ := loadFrom_failed scripted shortLived rfl hload
  rw [hfailure] at hf
  cases hf
  refine ⟨e', w', hload, ?_, ?_, ?_, hfound, hdropped, hintact⟩
  · rw [hstate]
  · rw [hstate]
    exact hbefore.1
  · rw [hstate]
    exact hbefore.2

end Engine

end DocQuery
