import DocQuery.Proofs.Engine.Freshness

/-!
# Where the data of an engine comes from

An engine visits namespaces in turn, and back and forth. Answers from any of them may still be on
their way when another one is shown. Three guards keep them apart: a load is applied only in the
generation in which it began, a discovery only at the place where it began, and cached pages and
schemas are found under the namespace that was asked for them. **Together they cover every way that
an answer can take.**

* `DocQuery.Answered` – an answer, with the namespace that was asked for it;
* `Obtained`, `Counted`, `Discovered` – documents, totals and attributes that come from answers of a
  namespace; `PageFrom` – a page that does;
* `Engine.Traceable` – the invariant: whatever an engine shows or has cached comes from the
  namespace under which it stands;
* `Engine.traceable_beginAttempt`, `Engine.traceable_resumeLoad`,
  `Engine.traceable_resumeDiscovery` – the engine's steps keep it;
* `DocQuery.Ledger` – an engine with its jobs under way, and a record of the answers that they got;
  `Ledger.Move`, `Ledger.step` – what may happen between two waits;
* `Ledger.answer_client_load`, `Ledger.answer_client_discovery` – what a client does is such a move;
* `Ledger.run_traceable` – what follows for every run.

The answers are arbitrary: nothing is assumed of the backend that gives them.
-/

namespace DocQuery

/-! ### Answers -/

/-- An answer to a query. -/
structure Answered where
  /-- The namespace that was asked. -/
  ns : String
  response : QueryResponse

/-- The document stands in an answer of the namespace. -/
def Obtained (log : List Answered) (ns : String) (d : Document) : Prop :=
  ∃ a ∈ log, a.ns = ns ∧ d ∈ a.response.rows

/-- An answer of the namespace has this total. -/
def Counted (log : List Answered) (ns : String) (n : Nat) : Prop :=
  ∃ a ∈ log, a.ns = ns ∧ a.response.count = .ok n

/-- The attributes were inferred from documents of the namespace. -/
def Discovered (log : List Answered) (options : DiscoveryOptions) (ns : String)
    (attributes : List Attribute) : Prop :=
  ∃ docs, (∀ d ∈ docs, Obtained log ns d) ∧ attributes = discover docs options

/-- The page has documents and a total of the namespace, and its boundary is the id of one of its
documents. -/
structure PageFrom (log : List Answered) (ns : String) (page : CachedPage) : Prop where
  documents : ∀ d ∈ page.documents, Obtained log ns d
  total : Counted log ns page.total
  next : ∀ v, page.next = some v → ∃ d ∈ page.documents, d.id = v

section Record

variable {log log' : List Answered} {options : DiscoveryOptions} {ns : String}

theorem Obtained.mono {d : Document} (h : Obtained log ns d) (hsub : log ⊆ log') :
    Obtained log' ns d := by
  obtain ⟨a, ha, hd⟩ := h
  exact ⟨a, hsub ha, hd⟩

theorem Counted.mono {n : Nat} (h : Counted log ns n) (hsub : log ⊆ log') : Counted log' ns n := by
  obtain ⟨a, ha, hn⟩ := h
  exact ⟨a, hsub ha, hn⟩

theorem Discovered.mono {attributes : List Attribute} (h : Discovered log options ns attributes)
    (hsub : log ⊆ log') : Discovered log' options ns attributes := by
  obtain ⟨docs, hdocs, hattributes⟩ := h
  exact ⟨docs, fun d hd => (hdocs d hd).mono hsub, hattributes⟩

theorem PageFrom.mono {page : CachedPage} (h : PageFrom log ns page) (hsub : log ⊆ log') :
    PageFrom log' ns page :=
  ⟨fun d hd => (h.documents d hd).mono hsub, h.total.mono hsub, h.next⟩

/-- Where nothing is known, nothing has to be accounted for. -/
theorem discovered_nil : Discovered log options ns [] :=
  ⟨[], by simp, by simp [discover]⟩

/-- The rows of a page are rows of the answer. -/
theorem Pagination.mem_of_mem_commit {p : Pagination} {plan : PagePlan} {rows : List Document}
    {d : Document} (h : d ∈ (p.commit plan rows).2) : d ∈ rows := by
  have hrows : (p.commit plan rows).2 = rowsOf plan rows := rfl
  rw [hrows, rowsOf] at h
  split at h
  · exact h
  · exact List.mem_of_mem_drop h

/-- A page that was cut from an answer of the namespace comes from it. -/
theorem PageFrom.of_commit {total : Nat} {r : QueryResponse} (hr : ⟨ns, r⟩ ∈ log)
    (hcounted : Counted log ns total) (p : Pagination) (plan : PagePlan) :
    PageFrom log ns ⟨(p.commit plan r.rows).2, total, (p.commit plan r.rows).1.next⟩ where
  documents := by
    intro d hd
    have hrow : d ∈ r.rows := Pagination.mem_of_mem_commit (p := p) hd
    exact ⟨_, hr, rfl, hrow⟩
  total := hcounted
  next := by
    intro v hv
    have hnext : (p.commit plan r.rows).1.next =
        if (p.commit plan r.rows).2.length < p.size then none
        else (p.commit plan r.rows).2.getLast?.map Document.id := by
      rw [Pagination.commit]
      dsimp only
      rw [Pagination.learn_size]
    dsimp only at hv ⊢
    rw [hnext] at hv
    split at hv
    · cases hv
    · obtain ⟨d, hd, rfl⟩ := Option.map_eq_some_iff.mp hv
      exact ⟨d, List.mem_of_getLast? hd, rfl⟩

end Record

/-! ### Staying in a namespace -/

namespace EngineState

/-- The namespace stays within a generation. -/
def Stays (s t : EngineState) : Prop :=
  s.generation ≤ t.generation ∧ (t.generation = s.generation → t.ns = s.ns)

theorem Stays.refl (s : EngineState) : s.Stays s := ⟨Nat.le_refl _, fun _ => rfl⟩

theorem Stays.trans {s t u : EngineState} (hst : s.Stays t) (htu : t.Stays u) : s.Stays u := by
  refine ⟨Nat.le_trans hst.1 htu.1, fun hgen => ?_⟩
  -- no generation can have passed on the way
  have hle := htu.1
  have hmiddle : t.generation = s.generation := Nat.le_antisymm (hgen ▸ hle) hst.1
  rw [htu.2 (hgen.trans hmiddle.symm), hst.2 hmiddle]

theorem Orderly.stays {s t : EngineState} (h : Orderly s t) : s.Stays t := by
  refine ⟨h.generation_le, fun hgen => ?_⟩
  rcases h with hlt | ⟨-, hquestion⟩
  · omega
  · exact congrArg (fun q => q.2.1) hquestion

/-- **Every action stays in its namespace or begins a new generation**, also a successful load. -/
theorem stays_reduce (s : EngineState) (a : Action) : s.Stays (s.reduce a) := by
  by_cases h : ∃ documents total pages append, a = .loadSucceeded documents total pages append
  · obtain ⟨documents, total, pages, append, rfl⟩ := h
    exact ⟨Nat.le_refl _, fun _ => rfl⟩
  · refine (orderly_reduce fun documents total pages append ha => h ?_).stays
    exact ⟨documents, total, pages, append, ha⟩

end EngineState

/-! ### What an engine holds -/

/-- **Whatever an engine holds comes from the namespace under which it stands**: the documents, the
total and the attributes that it shows, and the pages and schemas in its caches. -/
structure Engine.Traceable (log : List Answered) (config : EngineConfig) (e : Engine) : Prop where
  config_eq : e.config = config
  documents : ∀ d ∈ e.state.documents, Obtained log e.state.ns d
  total : ∀ n, e.state.total = some n → Counted log e.state.ns n
  attributes : Discovered log config.discovery e.state.ns e.state.attributes
  pages : e.cache.queries.Holds fun key page => PageFrom log key.ns page
  schemas : e.cache.schemas.Holds fun key attributes =>
    Discovered log config.discovery key.ns attributes

namespace Engine

variable {log log' : List Answered} {config : EngineConfig} {e e' : Engine} {s : LoadStart}
  {l : Load}

theorem Traceable.mono (h : e.Traceable log config) (hsub : log ⊆ log') :
    e.Traceable log' config where
  config_eq := h.config_eq
  documents := fun d hd => (h.documents d hd).mono hsub
  total := fun n hn => (h.total n hn).mono hsub
  attributes := h.attributes.mono hsub
  pages := h.pages.imp fun _ _ hpage => hpage.mono hsub
  schemas := h.schemas.imp fun _ _ hschema => hschema.mono hsub

/-- An engine goes on: what it holds can be traced, and it has stayed in its namespace unless a
generation has passed. -/
def GoesOn (log : List Answered) (config : EngineConfig) (e e' : Engine) : Prop :=
  e'.Traceable log config ∧ e.state.Stays e'.state

theorem Traceable.goesOn (h : e.Traceable log config) : GoesOn log config e e := ⟨h, .refl _⟩

theorem GoesOn.trans {e'' : Engine} (h : GoesOn log config e e') (h' : GoesOn log config e' e'') :
    GoesOn log config e e'' :=
  ⟨h'.1, h.2.trans h'.2⟩

/-! ### Changes -/

/-- An action that leaves alone what is shown. -/
theorem Traceable.keeps (h : e.Traceable log config) {a : Action}
    (hns : (e.state.reduce a).ns = e.state.ns)
    (hdocuments : (e.state.reduce a).documents = e.state.documents)
    (htotal : (e.state.reduce a).total = e.state.total)
    (hattributes : (e.state.reduce a).attributes = e.state.attributes) :
    (e.dispatch a).Traceable log config where
  config_eq := h.config_eq
  documents := by
    change ∀ d ∈ (e.state.reduce a).documents, Obtained log (e.state.reduce a).ns d
    rw [hns, hdocuments]
    exact h.documents
  total := by
    change ∀ n, (e.state.reduce a).total = some n → Counted log (e.state.reduce a).ns n
    rw [hns, htotal]
    exact h.total
  attributes := by
    change Discovered log config.discovery (e.state.reduce a).ns (e.state.reduce a).attributes
    rw [hns, hattributes]
    exact h.attributes
  pages := h.pages
  schemas := h.schemas

/-- Another namespace is shown, of which nothing is known yet. -/
theorem Traceable.forgets (h : e.Traceable log config) {a : Action}
    (hdocuments : (e.state.reduce a).documents = []) (htotal : (e.state.reduce a).total = none)
    (hattributes : (e.state.reduce a).attributes = []) : (e.dispatch a).Traceable log config where
  config_eq := h.config_eq
  documents := by
    change ∀ d ∈ (e.state.reduce a).documents, Obtained log (e.state.reduce a).ns d
    simp [hdocuments]
  total := by
    change ∀ n, (e.state.reduce a).total = some n → Counted log (e.state.reduce a).ns n
    simp [htotal]
  attributes := by
    change Discovered log config.discovery (e.state.reduce a).ns (e.state.reduce a).attributes
    rw [hattributes]
    exact discovered_nil
  pages := h.pages
  schemas := h.schemas

theorem Traceable.input (h : e.Traceable log config) {a : Action} (ha : a.isInput = true) :
    (e.dispatch a).Traceable log config := by
  rcases EngineState.shown_of_isInput (s := e.state) ha with
    ⟨hns, hdocuments, htotal, hattributes⟩ | ⟨hdocuments, htotal, hattributes⟩
  · exact h.keeps hns hdocuments htotal hattributes
  · exact h.forgets hdocuments htotal hattributes

theorem goesOn_change (h : e.Traceable log config) (c : Change) :
    GoesOn log config e (e.change c) := by
  rcases e.change_cases c with heq | ⟨a, ha, heq⟩
  · rw [heq]
    exact h.goesOn
  · rw [heq]
    exact ⟨h.input ha, e.state.stays_reduce a⟩

/-! ### Caches -/

theorem Traceable.cachedSchema (h : e.Traceable log config) (key : SchemaKey) :
    (e.cachedSchema key).2.Traceable log config :=
  ⟨h.config_eq, h.documents, h.total, h.attributes, h.pages, h.schemas.get _ _⟩

theorem Traceable.cacheSchema (h : e.Traceable log config) {key : SchemaKey}
    {attributes : List Attribute}
    (hattributes : Discovered log config.discovery key.ns attributes) :
    (e.cacheSchema key attributes).Traceable log config :=
  ⟨h.config_eq, h.documents, h.total, h.attributes, h.pages, h.schemas.insert _ hattributes⟩

theorem Traceable.cachePage (h : e.Traceable log config) {key : QueryKey} {page : CachedPage}
    (hpage : PageFrom log key.ns page) : (e.cachePage key page).Traceable log config :=
  ⟨h.config_eq, h.documents, h.total, h.attributes, h.pages.insert _ hpage, h.schemas⟩

theorem Traceable.invalidate (h : e.Traceable log config) (p : Place) :
    (e.invalidate p).Traceable log config := by
  refine ⟨h.config_eq, h.documents, h.total, h.attributes, ?_, ?_⟩
  · exact TtlCache.Holds.invalidate (p := fun k => k.connection = p.connection ∧ k.ns = p.ns)
      h.pages fun _ _ _ hpage => hpage
  · exact TtlCache.Holds.invalidate (p := fun k => k.connection = p.connection ∧ k.ns = p.ns)
      h.schemas fun _ _ _ hschema => hschema

/-- A discovery ends with attributes of the namespace that is shown, or with none. -/
theorem Traceable.discoveryFinished (h : e.Traceable log config) {found : Option (List Attribute)}
    (hfound : ∀ attributes, found = some attributes →
      Discovered log config.discovery e.state.ns attributes) :
    (e.dispatch (.discoveryFinished found)).Traceable log config := by
  refine ⟨h.config_eq, h.documents, h.total, ?_, h.pages, h.schemas⟩
  cases found with
  | none => exact h.attributes
  | some attributes => exact hfound attributes rfl

/-! ### Loads -/

theorem Traceable.recordHistory (h : e.Traceable log config) :
    e.recordHistory.Traceable log config :=
  ⟨h.config_eq, h.documents, h.total, h.attributes, h.pages, h.schemas⟩

/-- The rows that are shown come from the namespace, and so does what they teach. -/
theorem Traceable.discoverFromPage (h : e.Traceable log config) :
    e.discoverFromPage.Traceable log config := by
  rw [Engine.discoverFromPage]
  dsimp only
  obtain ⟨found, e', hlook⟩ :
      ∃ found e', e.cachedSchema (schemaKey e.config e.state) = (found, e') := ⟨_, _, rfl⟩
  have heq : (e.cachedSchema (schemaKey e.config e.state)).2 = e' := congrArg Prod.snd hlook
  have hlooked : e'.Traceable log config := heq ▸ h.cachedSchema _
  have hstate : e'.state = e.state := heq ▸ rfl
  rw [hlook]
  rcases found with _ | attributes
  · dsimp only
    split
    · exact hlooked
    · -- the documents that are shown are the sample
      have hfound : Discovered log config.discovery e'.state.ns
          (discover e'.state.documents e'.config.discovery) := by
        rw [hlooked.config_eq]
        exact ⟨_, hlooked.documents, rfl⟩
      have hkey : (schemaKey e.config e.state).ns = e'.state.ns := by rw [hstate]; rfl
      refine (hlooked.cacheSchema (hkey ▸ hfound)).discoveryFinished ?_
      rintro attributes ⟨⟩
      exact hfound
  · dsimp only
    split
    · refine hlooked.discoveryFinished ?_
      rintro _ ⟨⟩
      have hfound : Discovered log config.discovery (schemaKey e.config e.state).ns attributes :=
        h.schemas.of_get (congrArg Prod.fst hlook)
      rw [hstate]
      exact hfound
    · exact hlooked

/-- What a load found comes from its namespace. -/
def Found (log : List Answered) (ns : String) (p : FetchedPage) : Prop :=
  (∀ d ∈ p.documents, Obtained log ns d) ∧ Counted log ns p.total

theorem Traceable.applyPage (h : e.Traceable log config) {options : LoadOptions} {p : FetchedPage}
    (hp : Found log e.state.ns p) : (e.applyPage options p).Traceable log config := by
  obtain ⟨hdocuments, htotal⟩ := hp
  have happlied :
      (e.dispatch (.loadSucceeded p.documents p.total p.pages options.append)).Traceable
        log config := by
    refine ⟨h.config_eq, ?_, ?_, h.attributes, h.pages, h.schemas⟩
    · change ∀ d ∈ (if options.append then e.state.documents ++ p.documents else p.documents),
        Obtained log e.state.ns d
      split
      · intro d hd
        rcases List.mem_append.mp hd with hd | hd
        · exact h.documents d hd
        · exact hdocuments d hd
      · exact hdocuments
    · rintro n ⟨⟩
      exact htotal
  rw [Engine.applyPage]
  split
  · exact happlied.recordHistory.discoverFromPage
  · exact happlied.discoverFromPage

/-- **A load that ends** is applied only if it has stayed in its namespace. -/
theorem goesOn_endLoad (h : e.Traceable log config) (hs : s.snapshot.Stays e.state)
    {result : Except Failure FetchedPage}
    (hresult : ∀ p, result = .ok p → Found log s.snapshot.ns p) :
    GoesOn log config e (e.endLoad s result).1 := by
  by_cases htimely : e.state.generation = s.snapshot.generation
  · rw [endLoad_of_timely htimely]
    rcases result with f | p
    · have hfailed : (e.dispatch (.loadFailed f.message)).Traceable log config :=
        h.keeps rfl rfl rfl rfl
      exact ⟨hfailed.keeps rfl rfl rfl rfl,
        (e.state.stays_reduce _).trans (EngineState.stays_reduce _ .loadSettled)⟩
    · have hfound := hresult p rfl
      rw [← hs.2 htimely] at hfound
      have happlied : (e.applyPage s.options p).Traceable log config := h.applyPage hfound
      refine ⟨happlied.keeps rfl rfl rfl rfl, ?_⟩
      obtain ⟨attributes, isDiscovering, hstate⟩ := e.applyPage_state s.options p
      have hstays : e.state.Stays (e.applyPage s.options p).state := by
        rw [hstate]
        exact e.state.stays_reduce (.loadSucceeded p.documents p.total p.pages s.options.append)
      exact hstays.trans (EngineState.stays_reduce _ .loadSettled)
  · rw [endLoad_of_late htimely]
    exact ⟨h.keeps rfl rfl rfl rfl, e.state.stays_reduce _⟩

/-- A load begins in the state that it finds, with the page size that it sets. -/
theorem goesOn_enterLoad (h : e.Traceable log config) (options : LoadOptions) (mayRepeat : Bool) :
    GoesOn log config e (e.enterLoad options mayRepeat).1 := by
  have hstarted {e' : Engine} (h' : GoesOn log config e e') :
      GoesOn log config e (e'.dispatch .loadStarted) :=
    h'.trans ⟨h'.1.keeps rfl rfl rfl rfl, e'.state.stays_reduce .loadStarted⟩
  rw [enterLoad]
  rcases options.limit with _ | size
  · exact hstarted h.goesOn
  · exact hstarted ⟨h.input (a := .setPageSize size) rfl, e.state.stays_reduce (.setPageSize size)⟩

/-- A page that is looked up was cached under the namespace of the load. -/
theorem goesOn_lookUp (h : e.Traceable log config) (s : LoadStart) (plan : PagePlan) :
    GoesOn log config e (e.lookUp s plan).2 ∧
      ∀ p, (e.lookUp s plan).1 = some p → Found log s.snapshot.ns p := by
  cases hforce : s.options.force with
  | true =>
    rw [lookUp, if_pos hforce]
    exact ⟨h.goesOn, by simp⟩
  | false =>
    rw [lookUp_eq hforce]
    refine ⟨⟨⟨h.config_eq, h.documents, h.total, h.attributes, h.pages.get _ _, h.schemas⟩,
      .refl _⟩, ?_⟩
    intro p hp
    obtain ⟨page, hpage, rfl⟩ := Option.map_eq_some_iff.mp hp
    have hfrom : PageFrom log s.key.ns page := h.pages.of_get hpage
    exact ⟨hfrom.documents, hfrom.total⟩

end Engine

/-! ### Jobs under way -/

/-- Since a load began, its namespace has stayed within each generation; and the total that it has
got comes from there. -/
structure Load.Timely (log : List Answered) (t : EngineState) (l : Load) : Prop where
  stays : l.start.snapshot.Stays t
  total : ∀ n, l.stage = .fetching n → Counted log l.start.snapshot.ns n

theorem Load.Timely.mono {log log' : List Answered} {t : EngineState} {l : Load}
    (h : l.Timely log t) (hsub : log ⊆ log') : l.Timely log' t :=
  ⟨h.stays, fun n hn => (h.total n hn).mono hsub⟩

/-- A load that goes on waiting is timely. -/
def LoadProgress.Timely (log : List Answered) (t : EngineState) : LoadProgress → Prop
  | .waiting l => l.Timely log t
  | .finished _ => True

namespace Engine

variable {log : List Answered} {config : EngineConfig} {e e' : Engine} {s : LoadStart} {l : Load}

/-- An engine goes on, and so does its load. -/
def GoesOnWith (log : List Answered) (config : EngineConfig) (e : Engine)
    (r : Engine × LoadProgress) : Prop :=
  GoesOn log config e r.1 ∧ r.2.Timely log r.1.state

/-- **A load begins**; if its page is cached, it ends at once. -/
theorem traceable_beginAttempt (h : e.Traceable log config) (options : LoadOptions)
    (mayRepeat : Bool) : GoesOnWith log config e (e.beginAttempt options mayRepeat) := by
  rw [beginAttempt]
  split
  · exact ⟨h.goesOn, trivial⟩
  have hentered := goesOn_enterLoad h options mayRepeat
  have hsnapshot := e.enterLoad_snapshot options mayRepeat
  obtain ⟨e₁, s, henter⟩ : ∃ e₁ s, e.enterLoad options mayRepeat = (e₁, s) := ⟨_, _, rfl⟩
  rw [henter] at hentered hsnapshot ⊢
  dsimp only at hentered hsnapshot ⊢
  have hstays : s.snapshot.Stays e₁.state := by
    rw [hsnapshot]
    exact .refl _
  rcases s.plan e₁.config with flaw | plan
  · have hnothing : ∀ p, (.error flaw.failure : Except Failure FetchedPage) = .ok p →
        Found log s.snapshot.ns p := fun p hp => by cases hp
    exact ⟨hentered.trans (goesOn_endLoad hentered.1 hstays hnothing), trivial⟩
  · dsimp only
    obtain ⟨hlooked, hfound⟩ := goesOn_lookUp hentered.1 s plan
    obtain ⟨found, e₂, hlook⟩ : ∃ found e₂, e₁.lookUp s plan = (found, e₂) := ⟨_, _, rfl⟩
    rw [hlook] at hlooked hfound ⊢
    rcases found with _ | p
    · exact ⟨hentered.trans hlooked, ⟨hstays.trans hlooked.2, by simp⟩⟩
    · have hended := goesOn_endLoad hlooked.1 (hstays.trans hlooked.2)
        (s := s) (fun q (hq : (.ok p : Except Failure FetchedPage) = .ok q) => by
          cases hq
          exact hfound p rfl)
      exact ⟨(hentered.trans hlooked).trans hended, trivial⟩

theorem traceable_concludeLoad (h : e.Traceable log config) (hs : s.snapshot.Stays e.state)
    {result : Except Failure FetchedPage}
    (hresult : ∀ p, result = .ok p → Found log s.snapshot.ns p) :
    GoesOnWith log config e (e.concludeLoad s result) := by
  have hended := goesOn_endLoad h hs hresult
  by_cases htimely : e.state.generation = s.snapshot.generation
  · rw [concludeLoad_of_timely htimely]
    exact ⟨hended, trivial⟩
  · rw [endLoad_of_late htimely] at hended
    rw [concludeLoad_of_late htimely]
    split
    · -- the load begins once more, with the present question
      have hagain := traceable_beginAttempt hended.1
        { LoadOptions.default with force := s.options.force } false
      exact ⟨hended.trans hagain.1, hagain.2⟩
    · exact ⟨hended, trivial⟩

/-- **A load goes on** with an answer of its namespace. -/
theorem traceable_resumeLoad (h : e.Traceable log config) (hl : l.Timely log e.state)
    {answer : Except Failure QueryResponse}
    (hanswer : ∀ r, answer = .ok r → ⟨l.start.snapshot.ns, r⟩ ∈ log) :
    GoesOnWith log config e (e.resumeLoad l answer) := by
  have hfailed (f : Failure) : GoesOnWith log config e (e.concludeLoad l.start (.error f)) :=
    traceable_concludeLoad h hl.stays (by simp)
  rw [resumeLoad.eq_def]
  rcases answer with f | r
  · exact hfailed f
  · have hr := hanswer r rfl
    cases hstage : l.stage with
    | counting =>
      dsimp only
      cases hcount : r.count with
      | error flaw => exact hfailed flaw.failure
      | ok n =>
        refine ⟨h.goesOn, ⟨hl.stays, ?_⟩⟩
        rintro _ ⟨⟩
        exact ⟨_, hr, rfl, hcount⟩
    | fetching n =>
      -- the page is cached under the namespace that was asked for it
      have hpage : PageFrom log l.start.key.ns
          ⟨(l.start.snapshot.query.pages.commit l.plan r.rows).2, n,
            (l.start.snapshot.query.pages.commit l.plan r.rows).1.next⟩ :=
        .of_commit hr (hl.total n hstage) _ _
      have hcached := h.cachePage hpage
      dsimp only [commitRows]
      have hfound : ∀ p, (.ok ⟨(l.start.snapshot.query.pages.commit l.plan r.rows).2, n,
          (l.start.snapshot.query.pages.commit l.plan r.rows).1, false⟩ :
            Except Failure FetchedPage) = .ok p → Found log l.start.snapshot.ns p := by
        rintro _ ⟨⟩
        exact ⟨hpage.documents, hpage.total⟩
      have hconcluded := traceable_concludeLoad hcached hl.stays hfound
      exact ⟨⟨hconcluded.1.1, hconcluded.1.2⟩, hconcluded.2⟩

/-! ### Discoveries and writes -/

theorem goesOn_beginDiscovery (h : e.Traceable log config) (force : Bool) :
    GoesOn log config e (e.beginDiscovery force).1 := by
  have hstarted {e' : Engine} (h' : e'.Traceable log config) (hstate : e'.state = e.state) :
      GoesOn log config e (e'.dispatch .discoveryStarted) := by
    refine ⟨h'.keeps rfl rfl rfl rfl, ?_⟩
    rw [← hstate]
    exact e'.state.stays_reduce .discoveryStarted
  rw [beginDiscovery]
  cases force with
  | true => exact hstarted h rfl
  | false =>
    rw [if_neg Bool.false_ne_true]
    have hlooked := h.cachedSchema (schemaKey e.config e.state)
    have hstate : (e.cachedSchema (schemaKey e.config e.state)).2.state = e.state := rfl
    have hfound : ∀ attributes, (e.cachedSchema (schemaKey e.config e.state)).1 = some attributes →
        Discovered log config.discovery e.state.ns attributes :=
      fun attributes hattributes => h.schemas.of_get hattributes
    generalize e.cachedSchema (schemaKey e.config e.state) = looked at hlooked hstate hfound ⊢
    obtain ⟨_ | attributes, e'⟩ := looked
    · exact hstarted hlooked hstate
    · dsimp only at hlooked hstate hfound ⊢
      refine ⟨hlooked.discoveryFinished ?_, ?_⟩
      · rintro _ ⟨⟩
        rw [hstate]
        exact hfound attributes rfl
      · rw [← hstate]
        exact e'.state.stays_reduce _

/-- **A discovery ends** with attributes only if the place where it began is shown. -/
theorem traceable_resumeDiscovery (h : e.Traceable log config) {d : Discovery}
    {answer : Except Failure QueryResponse}
    (hanswer : ∀ r, answer = .ok r → ⟨d.snapshot.ns, r⟩ ∈ log) :
    GoesOn log config e (e.resumeDiscovery d answer).1 := by
  have hnothing : GoesOn log config e (e.endDiscovery none).1 :=
    ⟨h.discoveryFinished (by simp), e.state.stays_reduce _⟩
  rw [resumeDiscovery.eq_def]
  split
  · exact hnothing
  case isFalse hhere =>
    rcases answer with f | r
    · exact hnothing
    · have hns : e.state.ns = d.snapshot.ns := by
        simp [EngineState.isAt] at hhere
        exact hhere.2
      have hfound : Discovered log config.discovery d.snapshot.ns
          (discover r.rows e.config.discovery) := by
        rw [h.config_eq]
        exact ⟨r.rows, fun doc hdoc => ⟨_, hanswer r rfl, rfl, hdoc⟩, rfl⟩
      have hcached : (e.cacheSchema (schemaKey e.config d.snapshot)
          (discover r.rows e.config.discovery)).Traceable log config := h.cacheSchema hfound
      refine ⟨hcached.discoveryFinished ?_, e.state.stays_reduce _⟩
      rintro _ ⟨⟩
      change Discovered log config.discovery e.state.ns _
      rw [hns]
      exact hfound

theorem goesOn_resumeWrite (h : e.Traceable log config) (w : PendingWrite)
    (answer : Except Failure Nat) : GoesOn log config e (e.resumeWrite w answer) := by
  rcases answer with f | n
  · exact h.goesOn
  · exact ⟨h.invalidate w.place, .refl _⟩

end Engine

/-! ### Any number of jobs in any order -/

/-- An engine with its jobs. -/
structure Ledger where
  engine : Engine
  /-- The jobs that wait for answers. -/
  jobs : List Job
  /-- The answers to queries, newest first. -/
  answered : List Answered

namespace Ledger

/-- Nothing has been asked. -/
def start (config : EngineConfig) (connection ns : String) (historyLimit : Option Nat) : Ledger :=
  ⟨.start config connection ns historyLimit, [], []⟩

/-- What may happen between two waits. -/
inductive Move where
  | change (c : Change)
  | clearError
  | clearCache
  | load (options : LoadOptions)
  | discover (force : Bool)
  | write (w : PendingWrite)
  /-- A load or a discovery gets the answer to its query. -/
  | answer (i : Nat) (answer : Except Failure QueryResponse)
  /-- A write returns. -/
  | return (i : Nat) (answer : Except Failure Nat)
  /-- A job is given up. -/
  | abandon (i : Nat)

variable (s : Ledger)

/-- A job has come to its next wait or to its end. -/
def proceed : Engine × Progress → Ledger
  | (engine, .waiting job) => { s with engine, jobs := s.jobs ++ [job] }
  | (engine, .finished _) => { s with engine }

/-- A job takes the answer of a namespace, which is recorded unless it is a failure. -/
def take (i : Nat) (ns : String) (answer : Except Failure QueryResponse) : Ledger :=
  { s with
    jobs := s.jobs.eraseIdx i
    answered := match answer with
      | .ok r => ⟨ns, r⟩ :: s.answered
      | .error _ => s.answered }

/-- The ledger after a move. -/
def step : Move → Ledger
  | .change c => { s with engine := s.engine.change c }
  | .clearError => { s with engine := s.engine.clearError }
  | .clearCache => { s with engine := s.engine.clearCache }
  | .load options =>
    let (engine, p) := s.engine.beginLoad options
    s.proceed (engine, p.progress)
  | .discover force =>
    let (engine, p) := s.engine.beginDiscovery force
    s.proceed (engine, p.progress)
  | .write w => { s with jobs := s.jobs ++ [.write w] }
  | .answer i answer =>
    match s.jobs[i]? with
    | some (.load l) =>
      let (engine, p) := s.engine.resumeLoad l answer
      (s.take i l.start.snapshot.ns answer).proceed (engine, p.progress)
    | some (.discovery d) =>
      { s.take i d.snapshot.ns answer with engine := (s.engine.resumeDiscovery d answer).1 }
    | _ => s
  | .return i answer =>
    match s.jobs[i]? with
    | some (.write w) =>
      { s with engine := s.engine.resumeWrite w answer, jobs := s.jobs.eraseIdx i }
    | _ => s
  | .abandon i =>
    match s.jobs[i]? with
    | some (.load _) =>
      { s with engine := s.engine.dispatch .loadSettled, jobs := s.jobs.eraseIdx i }
    | _ => { s with jobs := s.jobs.eraseIdx i }

/-- The ledger after a run. -/
def run (moves : List Move) : Ledger := moves.foldl step s

@[simp] theorem run_nil : s.run [] = s := rfl

@[simp] theorem run_cons (m : Move) (moves : List Move) :
    s.run (m :: moves) = (s.step m).run moves := rfl

@[simp] theorem proceed_engine (r : Engine × Progress) : (s.proceed r).engine = r.1 := by
  obtain ⟨engine, _ | _⟩ := r <;> rfl

@[simp] theorem proceed_answered (r : Engine × Progress) : (s.proceed r).answered = s.answered := by
  obtain ⟨engine, _ | _⟩ := r <;> rfl

/-- The client's own calls are moves: the answer to a load is recorded under the namespace that the
client asked. -/
theorem answer_client_load (c : Client) {i : Nat} {l : Load} (hc : c.engine = s.engine)
    (hl : s.jobs[i]? = some (.load l)) :
    ((c.send (.load l)).answer (.load l)).1.engine = (s.step (.answer i
      (c.backend.ask l.start.snapshot.ns (l.request c.engine.config)).1)).engine := by
  obtain ⟨answer, b, hask⟩ : ∃ answer b,
      c.backend.ask l.start.snapshot.ns (l.request c.engine.config) = (answer, b) := ⟨_, _, rfl⟩
  rw [Client.answer_load hask, hask, step, hl, hc]
  dsimp only
  rw [proceed_engine]

/-- And so is the answer to a discovery. -/
theorem answer_client_discovery (c : Client) {i : Nat} {d : Discovery} (hc : c.engine = s.engine)
    (hd : s.jobs[i]? = some (.discovery d)) :
    ((c.send (.discovery d)).answer (.discovery d)).1.engine = (s.step (.answer i
      (c.backend.ask d.snapshot.ns (d.request c.engine.config)).1)).engine := by
  rw [step, hd, ← hc]
  rfl

/-! ### The invariant -/

/-- **What holds in every run**, of the engine and of the loads under way. -/
structure Traceable (config : EngineConfig) (s : Ledger) : Prop where
  engine : s.engine.Traceable s.answered config
  loads : ∀ l, Job.load l ∈ s.jobs → l.Timely s.answered s.engine.state

variable {config : EngineConfig} {s : Ledger}

theorem traceable_start (config : EngineConfig) (connection ns : String)
    (historyLimit : Option Nat) : (start config connection ns historyLimit).Traceable config where
  engine := {
    config_eq := rfl
    documents := by
      intro d hd
      cases hd
    total := by
      intro n hn
      cases hn
    attributes := discovered_nil
    pages := TtlCache.holds_empty _ _
    schemas := TtlCache.holds_empty _ _ }
  loads := by
    intro l hl
    cases hl

/-- The engine goes on, with the same jobs or fewer, and with a longer record. -/
theorem Traceable.goOn (h : s.Traceable config) {s' : Ledger}
    (hjobs : ∀ l, Job.load l ∈ s'.jobs → Job.load l ∈ s.jobs) (hsub : s.answered ⊆ s'.answered)
    (he : Engine.GoesOn s'.answered config s.engine s'.engine) : s'.Traceable config where
  engine := he.1
  loads := by
    intro l hl
    have hbefore := h.loads l (hjobs l hl)
    exact ⟨hbefore.stays.trans he.2, fun n hn => (hbefore.total n hn).mono hsub⟩

/-- A job comes to its next wait, at which it is timely, or to its end. -/
theorem Traceable.proceed (h : s.Traceable config) {e : Engine} {p : Progress}
    (he : Engine.GoesOn s.answered config s.engine e)
    (hp : ∀ l, p = .waiting (.load l) → l.Timely s.answered e.state) :
    (s.proceed (e, p)).Traceable config := by
  have hnext : Traceable config { s with engine := e } :=
    h.goOn (fun _ hl => hl) (List.Subset.refl _) he
  rcases p with job | result
  · refine ⟨hnext.engine, fun l hl => ?_⟩
    rcases List.mem_append.mp hl with hl | hl
    · exact hnext.loads l hl
    · have hjob : job = .load l := (List.mem_singleton.mp hl).symm
      exact hp l (congrArg Progress.waiting hjob)
  · exact hnext

theorem Traceable.proceed_load (h : s.Traceable config) {r : Engine × LoadProgress}
    (hr : Engine.GoesOnWith s.answered config s.engine r) :
    (s.proceed (r.1, r.2.progress)).Traceable config := by
  refine h.proceed hr.1 fun l hl => ?_
  obtain ⟨e, p | outcome⟩ := r
  · cases hl
    exact hr.2
  · cases hl

theorem Traceable.proceed_discovery (h : s.Traceable config) {r : Engine × DiscoveryProgress}
    (hr : Engine.GoesOn s.answered config s.engine r.1) :
    (s.proceed (r.1, r.2.progress)).Traceable config := by
  refine h.proceed hr fun l hl => ?_
  obtain ⟨e, d | attributes⟩ := r
  · cases hl
  · cases hl

/-- Nothing is struck from the record. -/
theorem answered_subset_take (i : Nat) (ns : String) (answer : Except Failure QueryResponse) :
    s.answered ⊆ (s.take i ns answer).answered := by
  rcases answer with f | r
  · exact List.Subset.refl _
  · exact List.subset_cons_self _ _

/-- The answer is on record. -/
theorem Traceable.take (h : s.Traceable config) (i : Nat) (ns : String)
    (answer : Except Failure QueryResponse) : (s.take i ns answer).Traceable config ∧
      ∀ r, answer = .ok r → ⟨ns, r⟩ ∈ (s.take i ns answer).answered := by
  have hsub := s.answered_subset_take i ns answer
  refine ⟨h.goOn (fun _ hl => List.eraseIdx_subset hl) hsub (h.engine.mono hsub).goesOn, ?_⟩
  rintro r rfl
  exact List.mem_cons_self

/-- **A move keeps it so.** -/
theorem Traceable.step (h : s.Traceable config) (m : Move) : (s.step m).Traceable config := by
  have hsame {e : Engine} (he : Engine.GoesOn s.answered config s.engine e) :
      Traceable config { s with engine := e } :=
    h.goOn (fun _ hl => hl) (List.Subset.refl _) he
  have hless {e : Engine} (i : Nat) (he : Engine.GoesOn s.answered config s.engine e) :
      Traceable config { s with engine := e, jobs := s.jobs.eraseIdx i } :=
    h.goOn (fun _ hl => List.eraseIdx_subset hl) (List.Subset.refl _) he
  cases m with
  | change c => exact hsame (Engine.goesOn_change h.engine c)
  | clearError => exact hsame ⟨h.engine.keeps rfl rfl rfl rfl, s.engine.state.stays_reduce _⟩
  | clearCache =>
    refine hsame ⟨?_, .refl _⟩
    exact ⟨h.engine.config_eq, h.engine.documents, h.engine.total, h.engine.attributes,
      TtlCache.holds_clear _, TtlCache.holds_clear _⟩
  | load options => exact h.proceed_load (Engine.traceable_beginAttempt h.engine options true)
  | discover force => exact h.proceed_discovery (Engine.goesOn_beginDiscovery h.engine force)
  | write w =>
    refine ⟨h.engine, fun l hl => ?_⟩
    rcases List.mem_append.mp hl with hl | hl
    · exact h.loads l hl
    · cases List.mem_singleton.mp hl
  | answer i answer =>
    rw [Ledger.step]
    rcases hjob : s.jobs[i]? with _ | (l | d | w)
    · exact h
    · -- the answer is recorded first, so that the load finds it there
      obtain ⟨htaken, hanswer⟩ := h.take i l.start.snapshot.ns answer
      have htimely : l.Timely (s.take i l.start.snapshot.ns answer).answered s.engine.state :=
        (h.loads l (List.mem_of_getElem? hjob)).mono (answered_subset_take i _ answer)
      exact htaken.proceed_load (Engine.traceable_resumeLoad htaken.engine htimely hanswer)
    · obtain ⟨htaken, hanswer⟩ := h.take i d.snapshot.ns answer
      exact htaken.goOn (fun _ hl => hl) (List.Subset.refl _)
        (Engine.traceable_resumeDiscovery htaken.engine hanswer)
    · exact h
  | «return» i answer =>
    rw [Ledger.step]
    rcases hjob : s.jobs[i]? with _ | (l | d | w)
    · exact h
    · exact h
    · exact h
    · exact hless i (Engine.goesOn_resumeWrite h.engine w answer)
  | abandon i =>
    have hsettled := hless i
      ⟨h.engine.keeps rfl rfl rfl rfl, s.engine.state.stays_reduce .loadSettled⟩
    rw [Ledger.step]
    rcases s.jobs[i]? with _ | (l | d | w)
    · exact hless i h.engine.goesOn
    · exact hsettled
    · exact hless i h.engine.goesOn
    · exact hless i h.engine.goesOn

theorem Traceable.run (h : s.Traceable config) (moves : List Move) :
    (s.run moves).Traceable config := by
  induction moves generalizing s with
  | nil => exact h
  | cons m moves ih => exact ih (h.step m)

/-- **Namespaces never leak into each other.** In every run, whatever the backend answers and in
whatever order: the documents and the total that are shown come from answers of the namespace that
is shown, the attributes were inferred from documents of it, and every cached page and schema comes
from the namespace that its key names. -/
theorem run_traceable (config : EngineConfig) (connection ns : String) (historyLimit : Option Nat)
    (moves : List Move) :
    let s := (start config connection ns historyLimit).run moves
    (∀ d ∈ s.engine.state.documents, Obtained s.answered s.engine.state.ns d) ∧
      (∀ n, s.engine.state.total = some n → Counted s.answered s.engine.state.ns n) ∧
      Discovered s.answered config.discovery s.engine.state.ns s.engine.state.attributes ∧
      (∀ key entry, (key, entry) ∈ s.engine.cache.queries.entries →
        PageFrom s.answered key.ns entry.value) ∧
      (∀ key entry, (key, entry) ∈ s.engine.cache.schemas.entries →
        Discovered s.answered config.discovery key.ns entry.value) := by
  intro s
  have h : s.engine.Traceable s.answered config :=
    ((traceable_start config connection ns historyLimit).run moves).engine
  exact ⟨h.documents, h.total, h.attributes, fun key entry he => h.pages (key, entry) he,
    fun key entry he => h.schemas (key, entry) he⟩

/-- An answer that counts one document, and has it. -/
def oneAnswer : QueryResponse :=
  ⟨[.ofId (.int 1)], some (.ofList [(QueryRequest.countName, .int 1)]), none⟩

/-- Another namespace is shown while a load waits for its rows. -/
def leftAmid : List Move :=
  [.load .default, .answer 0 (.ok oneAnswer), .change (.setNamespace "other"),
    .answer 0 (.ok oneAnswer)]

-- the page is cached under the namespace that was left, and nothing of it is shown
example :
    let e := ((start .default "local" "docs" none).run leftAmid).engine
    e.state.ns = "other" ∧ e.state.total = none ∧ e.state.documents.length = 0 ∧
      e.cache.queries.entries.map (fun x => (x.1.ns, x.2.value.total)) = [("docs", 1)] := by
  cbv

end Ledger

end DocQuery
