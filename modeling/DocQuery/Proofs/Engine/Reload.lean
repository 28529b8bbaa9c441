import DocQuery.Proofs.Engine.Cached
import DocQuery.Proofs.Paging.Grounded
import DocQuery.Proofs.Store.Counting
import DocQuery.Proofs.Store.Writes

/-!
# Loading the current page once more

A person changes what is asked for, turns pages and writes, each time waiting for the end, and no
call fails by itself. **Then the current page can be loaded once more, unless it lies behind the
last page that is known or is out of reach.** The total that is known can become smaller while a
reader stays where it is: documents are deleted, and a load of an empty page counts those that are
left. And a page that would be cut from all rows up to its end, but is taken from the cache, has no
boundaries in front of it; those of the pages that follow it are not recorded either.

* `LoadStart.exists_fetch_of_plan` – a page that can be planned is fetched;
* `EngineState.Repeatable` – a reader of rows ranked by id can fetch its page again;
* `DocQuery.Deed`, `Client.workAll` – runs with writes;
* `Client.jumps` – a page that would be cut from all rows up to its end is taken from the cache,
  `Client.walks` – there was no such page since the reader was last on the first page;
* `Client.Steady` – the invariant: nothing is under way, nothing is going to fail, and the current
  page can be fetched again if it was reached without a jump (`Client.Steady.workAll`). Where it
  holds, the pages up to the current one are shown unless they lie behind the last one or are out of
  reach (`Client.Steady.failed_iff`);
* `Client.reload_failed_iff` – when loading the current page fails, and why;
* `Client.reload_fails` – a page that is empty by now is loaded once, and not a second time;
  `Client.reload_fails_behindJump` – nor is the page that follows one which jumped out of the cache.
-/

namespace DocQuery

/-! ### Fetching what can be planned -/

/-- **A page that can be planned is fetched** if the namespace exists and the filter compiles. -/
theorem LoadStart.exists_fetch_of_plan {s : LoadStart} {store : Store} {config : EngineConfig}
    {plan : PagePlan} {rows : Rows} {p : Option Predicate} (hplan : s.plan config = .ok plan)
    (hns : store.namespaces.get? s.snapshot.ns = some rows)
    (hfilter : Store.predicate? s.filter = .ok p) : ∃ page, s.fetch store config = .ok page := by
  have hcounted := Store.query_count_iff.mpr ⟨rows, p, hns, hfilter, rfl⟩
  obtain ⟨total, htotal⟩ : ∃ total,
      (Store.answer (.count s.filter) (rows.select p)).count = .ok total :=
    Store.exists_count (rows.select p)
  -- a boundary makes of the filter another one that compiles
  obtain ⟨q, hq⟩ : ∃ q, Store.predicate? (Load.rowsFilter ⟨s, plan, .fetching total⟩) = .ok q := by
    rw [Load.rowsFilter]
    dsimp only
    cases plan.cursor? with
    | none => exact ⟨p, hfilter⟩
    | some v =>
      obtain ⟨q, hq, -⟩ :=
        Store.predicate?_withCursor hfilter v s.snapshot.query.sort.direction
      exact ⟨some q, hq⟩
  obtain ⟨r, hrows⟩ : ∃ r, store.query s.snapshot.ns
      (.rows (Load.rowsFilter ⟨s, plan, .fetching total⟩) s.snapshot.query.sort
        (plan.topK s.snapshot.query.pages.size)) = .ok r :=
    ⟨_, Store.query_rows_iff.mpr ⟨rows, q, hns, hq, rfl⟩⟩
  exact ⟨_, LoadStart.fetch_eq_ok_iff.mpr ⟨plan, _, total, r, hplan,
    Store.reply_eq_ok_iff.mpr hcounted, htotal, Store.reply_eq_ok_iff.mpr hrows, rfl⟩⟩

/-! ### States whose page can be fetched again -/

namespace EngineState

variable {s t : EngineState} {limit : Nat} {walking : Bool}

/-- Where rows are ranked by id, the current page can be fetched again, if it was reached without a
jump. -/
structure Repeatable (limit : Nat) (walking : Bool) (s : EngineState) : Prop where
  page_pos : 1 ≤ s.query.pages.page
  size_pos : 1 ≤ s.query.pages.size
  grounded : walking = true → s.query.isKeyset = true → s.query.pages.Grounded limit

theorem isKeyset_of_inputs (h : t.inputs = s.inputs) : t.query.isKeyset = s.query.isKeyset := by
  obtain ⟨-, -, -, -, hsort⟩ := inputs_eq_iff.mp h
  rw [QueryState.isKeyset, QueryState.isKeyset, hsort]

/-- Paging that begins anew stands on the first page. -/
theorem Repeatable.of_restarts (h : s.Repeatable limit walking) (hrestarts : s.Restarts t) :
    t.Repeatable limit walking := by
  obtain ⟨hsize, ⟨hinputs, hpages⟩ | ⟨p, hpages⟩⟩ := hrestarts h.size_pos
  · refine ⟨hpages ▸ h.page_pos, hsize, fun hwalking hkeyset => ?_⟩
    rw [hpages]
    exact h.grounded hwalking ((isKeyset_of_inputs hinputs).symm.trans hkeyset)
  · rw [hpages] at hsize
    refine ⟨Nat.le_of_eq (hpages ▸ rfl), hpages ▸ hsize, fun _ _ => ?_⟩
    rw [hpages]
    exact Pagination.grounded_of_first rfl hsize

/-- On the first page it does not matter how it was reached. -/
theorem Repeatable.of_first (h : s.Repeatable limit walking) :
    s.Repeatable limit (walking || s.query.pages.page == 1) := by
  refine ⟨h.page_pos, h.size_pos, fun hwalking hkeyset => ?_⟩
  rw [Bool.or_eq_true, beq_iff_eq] at hwalking
  rcases hwalking with hwalking | hpage
  · exact h.grounded hwalking hkeyset
  · exact Pagination.grounded_of_first hpage h.size_pos

theorem repeatable_start (connection ns : String) (size : Nat) :
    (start connection ns size).Repeatable limit walking where
  page_pos := Nat.le_refl 1
  size_pos := Nat.le_max_right size 1
  grounded _ _ := Pagination.grounded_of_first rfl (Nat.le_max_right size 1)

end EngineState

/-- The plan is to cut the page from all rows up to its end. -/
def PagePlan.cuts (plan : PagePlan) : Bool :=
  match plan.strategy with
  | .cursor _ => false
  | .overfetch _ _ => true

theorem PagePlan.exists_cursor {plan : PagePlan} (h : plan.cuts = false) :
    ∃ boundary, plan.strategy = .cursor boundary := by
  rw [cuts] at h
  split at h
  case h_1 boundary hboundary => exact ⟨boundary, hboundary⟩
  case h_2 => cases h

/-! ### Runs with writes -/

/-- What a person does who also writes. -/
inductive Deed where
  | change (ch : Change)
  | call (k : Call)
  | write (w : PendingWrite)

namespace Client

/-- The client after a deed. -/
def work (c : Client) : Deed → Client
  | .change ch => c.modify fun e => e.change ch
  | .call k => c.invoke k
  | .write w => (c.write w).1

/-- The client after a run. -/
def workAll (c : Client) (deeds : List Deed) : Client := deeds.foldl work c

/-- The load takes from the cache a page of rows ranked by id that would be cut from all rows up to
its end. -/
def loadJumps (c : Client) (options : LoadOptions) : Bool :=
  c.engine.state.query.isKeyset &&
    ((c.startOf options).plan c.engine.config).toOption.any PagePlan.cuts &&
    (c.load options).2 == .cached

/-- The deed is a load that takes such a page from the cache. -/
def jumps (c : Client) : Deed → Bool
  | .call k => (k.options? c.engine).any c.loadJumps
  | _ => false

/-- No such page was taken from the cache since the reader was last on the first page. It is given
whether that is so before the run. -/
def walks (c : Client) (walking : Bool) : List Deed → Bool
  | [] => walking
  | d :: deeds =>
    (c.work d).walks (walking && !c.jumps d || (c.work d).engine.state.query.pages.page == 1) deeds

/-! ### What a load leaves of the paging -/

section Load

variable {c : Client} {options : LoadOptions} {e e' : Engine} {s : LoadStart}
  {result : Except Failure FetchedPage} {b : Backend} {walking : Bool}

theorem Ends.config_eq (h : Ends c e s e' result b) : e'.config = e.config := by
  cases h with
  | unplanned flaw hplan => rfl
  | hit plan page e' hforce hplan hcached =>
    have hengine : e' = (e.cachedPage s.key).2 := (congrArg Prod.snd hcached).symm
    rw [hengine]
    rfl
  | fetched plan e' result b hplan hlook hfinds =>
    have hconfig := (lookUp_frame e s plan).2
    rw [hlook] at hconfig
    rw [← hconfig]
    cases result <;> rfl

/-- Nothing is going to fail that was not going to fail before. -/
theorem Ends.healthy (h : Ends c e s e' result b) (hhealthy : c.backend.failures = []) :
    b.failures = [] := by
  cases h with
  | unplanned flaw hplan => exact hhealthy
  | hit plan page e' hforce hplan hcached => exact hhealthy
  | fetched plan e' result b hplan hlook hfinds => exact (hfinds.sound hhealthy).2

/-- **A page that a load shows can be fetched again**, unless it is taken from the cache instead of
being cut from all rows up to its end. -/
theorem Ends.pages_repeatable {p : FetchedPage} (h : Ends c e s e' (.ok p) b) {limit : Nat}
    (hconfig : e.config.maxOverfetch = limit) (hbefore : s.snapshot.Repeatable limit walking) :
    1 ≤ p.pages.page ∧ 1 ≤ p.pages.size ∧
      (walking = true → s.snapshot.query.isKeyset = true →
        (p.fromCache = true → ∀ plan, s.plan e.config = .ok plan → plan.cuts = false) →
          p.pages.Grounded limit) := by
  obtain ⟨-, hsize, hgrounded⟩ := hbefore
  subst hconfig
  cases h with
  | hit plan page e' hforce hplan hcached =>
    refine ⟨?_, ?_, fun hwalking hkeyset hwalks => ?_⟩
    · dsimp only
      rw [Pagination.restore_page]
      exact Pagination.page_pos_of_plan hplan
    · dsimp only
      rwa [Pagination.restore_size]
    · -- the page does not jump, so the boundary in front of it is put on record
      obtain ⟨boundary, hboundary⟩ := PagePlan.exists_cursor (hwalks rfl plan hplan)
      rw [LoadStart.plan, hkeyset] at hplan
      exact (hgrounded hwalking hkeyset).restore hplan hboundary page.next
  | fetched plan e' result b hplan hlook hfinds =>
    obtain ⟨plan, counted, total, r, hplan, -, -, -, rfl⟩ :=
      LoadStart.fetch_eq_ok_iff.mp (hfinds.found p rfl)
    refine ⟨?_, ?_, fun hwalking hkeyset _ => ?_⟩
    · dsimp only
      rw [Pagination.commit_page]
      exact Pagination.page_pos_of_plan hplan
    · dsimp only
      rwa [Pagination.commit_size]
    · rw [LoadStart.plan, hkeyset] at hplan
      exact (hgrounded hwalking hkeyset).commit hplan r.rows

end Load

/-! ### The invariant -/

/-- **Nothing is under way, nothing is going to fail, and the current page can be fetched
again**, if it was reached without a jump. -/
structure Steady (config : EngineConfig) (walking : Bool) (c : Client) : Prop where
  config_eq : c.engine.config = config
  idle : c.engine.state.inFlight = 0
  healthy : c.backend.failures = []
  pages : c.engine.state.Repeatable config.maxOverfetch walking

variable {c : Client} {config : EngineConfig} {walking : Bool}

theorem steady_opened {connection ns : String} {historyLimit : Option Nat} {b : Backend}
    (hhealthy : b.failures = []) :
    (opened config connection ns historyLimit b).Steady config walking where
  config_eq := rfl
  idle := rfl
  healthy := hhealthy
  pages := EngineState.repeatable_start _ _ _

namespace Steady

theorem mono (h : c.Steady config walking) {walking' : Bool}
    (hwalking : walking' = true → walking = true) : c.Steady config walking' where
  config_eq := h.config_eq
  idle := h.idle
  healthy := h.healthy
  pages :=
    ⟨h.pages.page_pos, h.pages.size_pos, fun hwalking' => h.pages.grounded (hwalking hwalking')⟩

/-- What leaves the question and the backend as they are is harmless. -/
theorem of_question (h : c.Steady config walking) {c' : Client}
    (hconfig : c'.engine.config = c.engine.config)
    (hloads : c'.engine.state.inFlight = c.engine.state.inFlight)
    (hquestion : c'.engine.state.question = c.engine.state.question)
    (hfailures : c'.backend.failures = []) : c'.Steady config walking where
  config_eq := hconfig.trans h.config_eq
  idle := hloads.trans h.idle
  healthy := hfailures
  pages := h.pages.of_restarts (EngineState.restarts_of_question hquestion)

theorem change (h : c.Steady config walking) (ch : Change) :
    (c.modify fun e => e.change ch).Steady config walking where
  config_eq := (c.engine.change_sameStores ch).1.trans h.config_eq
  idle := (c.engine.calm_change ch).inFlight.trans h.idle
  healthy := h.healthy
  pages := h.pages.of_restarts (c.engine.restarts_change ch)

theorem write (h : c.Steady config walking) (w : PendingWrite) :
    (c.write w).1.Steady config walking := by
  have hanswer : c.backend.receiveWrite.answerWrite w.place.ns w.request =
      ((c.backend.store.write w.place.ns w.request).2.mapError StoreFault.failure,
        { c.backend.receiveWrite with store := (c.backend.store.write w.place.ns w.request).1 }) :=
    Backend.answerWrite_of_failures_nil h.healthy
  have hwrite : (c.write w).1 = ⟨c.engine.resumeWrite w
      ((c.backend.store.write w.place.ns w.request).2.mapError StoreFault.failure),
      { c.backend.receiveWrite with store := (c.backend.store.write w.place.ns w.request).1 }⟩ := by
    rw [Client.write, hanswer]
  rw [hwrite]
  generalize (c.backend.store.write w.place.ns w.request).2.mapError StoreFault.failure = answer
  refine h.of_question ?_ ?_ ?_ h.healthy
  · cases answer <;> rfl
  · dsimp only
    rw [Engine.resumeWrite_state]
  · dsimp only
    rw [Engine.resumeWrite_state]

/-- A discovery asks once, and is answered. -/
theorem discover (h : c.Steady config walking) (force : Bool) :
    (c.discover force).1.Steady config walking := by
  obtain ⟨⟨⟨attributes, isDiscovering, hstate⟩, hconfig, -⟩, -, -⟩ := c.discover_cases force
  refine h.of_question hconfig ?_ ?_ ?_
  · rw [hstate]
  · rw [hstate]
    rfl
  · unfold Client.discover beginDiscovery
    obtain ⟨e', -, ⟨attributes, hbegin, -⟩ | hbegin⟩ := c.engine.beginDiscovery_cases force
    · rw [hbegin]
      exact h.healthy
    · rw [hbegin]
      have hhealthy : (⟨e', c.backend⟩ : Client).backend.failures = [] := h.healthy
      exact ((Backend.answers_of_ask rfl).sound hhealthy).2

/-- **A load leaves a page that can be fetched again**, unless it jumps there. -/
theorem load (h : c.Steady config walking) (options : LoadOptions) :
    (c.load options).1.Steady config (walking && !c.loadJumps options) := by
  obtain ⟨e, henter⟩ : ∃ e, c.engine.enterLoad options true = (e, c.startOf options) := ⟨_, rfl⟩
  obtain ⟨-, hsnapshot, hconfig, -⟩ := Engine.enterLoad_eq henter
  obtain ⟨hinputs, -, hrestarts⟩ := Engine.enterLoad_restarts henter
  have hbefore : (c.startOf options).snapshot.Repeatable config.maxOverfetch walking :=
    h.pages.of_restarts hrestarts
  have hwalking (hwalks : (walking && !c.loadJumps options) = true) : walking = true :=
    (Bool.and_eq_true_iff.mp hwalks).1
  have hloads := load_idle h.idle options
  rcases c.load_cases options henter with ⟨hload, -⟩ | ⟨e', result, b, hends, hload, hstate, -⟩
  · rw [hload]
    exact h.mono hwalking
  have hsame : e'.state = (c.startOf options).snapshot := hstate.trans hsnapshot.symm
  have hleft := Engine.endLoad_left hsame result
  have hconfig' : (e'.endLoad (c.startOf options) result).1.config = config :=
    Engine.endLoad_sameStores.1.trans (hends.config_eq.trans (hconfig.trans h.config_eq))
  have hpages : (e'.endLoad (c.startOf options) result).1.state.Repeatable config.maxOverfetch
      (walking && !c.loadJumps options) := by
    rcases result with f | p
    · have hafter := hbefore.of_restarts (EngineState.restarts_of_question hleft)
      exact ⟨hafter.page_pos, hafter.size_pos, fun hwalks => hafter.grounded (hwalking hwalks)⟩
    · obtain ⟨hleftInputs, hleftPages, -, -⟩ := hleft
      obtain ⟨hpage, hsize, hgrounded⟩ := hends.pages_repeatable
        (congrArg EngineConfig.maxOverfetch (hconfig.trans h.config_eq)) hbefore
      refine ⟨hleftPages.symm ▸ hpage, hleftPages.symm ▸ hsize, fun hwalks hkeyset => ?_⟩
      rw [EngineState.isKeyset_of_inputs hleftInputs] at hkeyset
      rw [hleftPages]
      refine hgrounded (hwalking hwalks) hkeyset fun hcached plan hplan => ?_
      -- a cached page that is cut would be a jump
      have hnot : c.loadJumps options = false := by simpa using (Bool.and_eq_true_iff.mp hwalks).2
      rw [loadJumps, hload, Engine.endLoad_of_timely (congrArg EngineState.generation hsame),
        ← EngineState.isKeyset_of_inputs hinputs, hkeyset, ← hconfig, hplan] at hnot
      simpa [hcached, Except.toOption] using hnot
  rw [hload] at hloads ⊢
  exact ⟨hconfig', hloads, hends.healthy h.healthy, hpages⟩

theorem invoke (h : c.Steady config walking) (k : Call) :
    (c.invoke k).Steady config (walking && !c.jumps (.call k)) := by
  rw [jumps]
  cases hoptions : k.options? c.engine with
  | some options =>
    rw [invoke_load hoptions]
    exact h.load options
  | none =>
    have hnone : (c.invoke k).Steady config walking := by
      unfold Client.invoke
      rw [hoptions]
      cases k with
      | discover force => exact h.discover force
      | clearError => exact h.of_question rfl rfl rfl h.healthy
      | clearCache => exact h.of_question rfl rfl rfl h.healthy
      | _ => exact h
    exact hnone.mono fun hwalks => (Bool.and_eq_true_iff.mp hwalks).1

/-- **One deed keeps the invariant.** -/
theorem work (h : c.Steady config walking) (d : Deed) : (c.work d).Steady config
    (walking && !c.jumps d || (c.work d).engine.state.query.pages.page == 1) := by
  have hdone : (c.work d).Steady config (walking && !c.jumps d) := by
    cases d with
    | change ch => exact (h.change ch).mono fun hwalks => (Bool.and_eq_true_iff.mp hwalks).1
    | call k => exact h.invoke k
    | write w => exact (h.write w).mono fun hwalks => (Bool.and_eq_true_iff.mp hwalks).1
  exact ⟨hdone.config_eq, hdone.idle, hdone.healthy, hdone.pages.of_first⟩

/-- **So does a run.** -/
theorem workAll (h : c.Steady config walking) (deeds : List Deed) :
    (c.workAll deeds).Steady config (c.walks walking deeds) := by
  induction deeds generalizing c walking with
  | nil => exact h
  | cons d deeds ih => exact ih (h.work d)

end Steady

/-! ### The pages up to the current one -/

/-- **A load** fails if its page cannot be planned, and shows it otherwise. -/
theorem Steady.load_shows (h : c.Steady config walking) {options : LoadOptions} {rows : Rows}
    {p : Option Predicate}
    (hns : c.backend.store.namespaces.get? c.engine.state.ns = some rows)
    (hfilter : Store.predicate? c.engine.state.filter = .ok p) :
    (∃ flaw, (c.startOf options).plan config = .error flaw ∧ (c.load options).2 = .failed ∧
      (c.load options).1.engine.state.error = some flaw.failure.message) ∨
    (∃ plan, (c.startOf options).plan config = .ok plan) ∧
      ((c.load options).2 = .loaded ∨ (c.load options).2 = .cached) := by
  obtain ⟨e, s, hs, henter⟩ : ∃ e s, c.startOf options = s ∧
      c.engine.enterLoad options true = (e, s) := ⟨_, _, rfl, rfl⟩
  obtain ⟨-, hsnapshot, hconfig, -⟩ := Engine.enterLoad_eq henter
  obtain ⟨hinputs, hstartFilter, -⟩ := c.startOf_eq options
  rw [hs] at hinputs hstartFilter ⊢
  rcases c.load_cases _ henter with ⟨-, -, hloading, -⟩ | ⟨e', result, b, hends, hload, hstate, -⟩
  · rw [EngineState.isLoading_eq, h.idle] at hloading
    cases hloading
  have htimely : e'.state.generation = s.snapshot.generation :=
    congrArg EngineState.generation (hstate.trans hsnapshot.symm)
  rw [hload, Engine.endLoad_of_timely htimely, ← h.config_eq, ← hconfig]
  cases hends with
  | unplanned flaw hflaw => exact Or.inl ⟨flaw, hflaw, rfl, rfl⟩
  | hit plan page e' hforce hok hcached => exact Or.inr ⟨⟨plan, hok⟩, Or.inr rfl⟩
  | fetched plan e' result b hok hlook hfinds =>
    have hplace : s.snapshot.ns = c.engine.state.ns :=
      congrArg (fun inputs => inputs.2.1) hinputs
    obtain ⟨found, hfound⟩ := LoadStart.exists_fetch_of_plan hok (hplace.symm ▸ hns)
      (hstartFilter.symm ▸ hfilter)
    obtain ⟨rfl, -⟩ := hfinds.sound h.healthy
    rw [hfound]
    refine Or.inr ⟨⟨plan, hok⟩, Or.inl ?_⟩
    dsimp only
    rw [LoadStart.fromCache_of_fetch hfound]
    rfl

section UpTo

variable (hsort : c.engine.state.query.sort.name = "id") {options : LoadOptions}
  (hlimit : options.limit = none) (hpos : 1 ≤ (c.startOf options).page)
  (hle : (c.startOf options).page ≤ c.engine.state.query.pages.page)

include hsort hlimit hpos hle

/-- Up to the current page, a page can be planned unless it lies behind the last one or is out of
reach. -/
theorem plan_startOf_error_iff (flaw : PlanFlaw) :
    (c.startOf options).plan config = .error flaw ↔
      (∃ last, c.engine.state.pageCount? = some last ∧ last < (c.startOf options).page ∧
        flaw = .pastEnd (c.startOf options).page last) ∨
      (∀ last, c.engine.state.pageCount? = some last → (c.startOf options).page ≤ last) ∧
        c.engine.state.query.pages.OutOfReach (c.startOf options).page config.maxOverfetch ∧
        flaw = .tooManyRows (c.startOf options).page
          (min ((c.startOf options).page * c.engine.state.query.pages.size) maxWord)
          config.maxOverfetch := by
  have hkeyset : c.engine.state.query.isKeyset = true := by
    rw [QueryState.isKeyset, hsort]
    rfl
  have hplan : (c.startOf options).plan config =
      c.engine.state.query.pages.plan (c.startOf options).page
        c.engine.state.query.isKeyset c.engine.state.pageCount? config.maxOverfetch := by
    obtain ⟨force, append, limit, page⟩ := options
    obtain rfl : limit = none := hlimit
    rfl
  -- the number of pages that is known is never zero, where a plan would take it for one
  have hmax (last : Nat) (hlast : c.engine.state.pageCount? = some last) : max last 1 = last := by
    rw [EngineState.pageCount?, Option.map_eq_some_iff] at hlast
    obtain ⟨n, -, rfl⟩ := hlast
    exact Nat.max_eq_left (one_le_pageCount _ _)
  rw [hplan, hkeyset, Pagination.plan_error_iff hpos hle]
  refine or_congr (exists_congr fun last => and_congr_right fun hlast => ?_)
    (and_congr_left fun _ => forall₂_congr fun last hlast => ?_)
  · rw [hmax last hlast]
  · rw [hmax last hlast]

/-- When it fails, what it says then, and how it ends otherwise. -/
theorem Steady.failed_iff (h : c.Steady config walking) {rows : Rows} {p : Option Predicate}
    (hns : c.backend.store.namespaces.get? c.engine.state.ns = some rows)
    (hfilter : Store.predicate? c.engine.state.filter = .ok p) :
    ((c.load options).2 = .failed ↔
        (∃ last, c.engine.state.pageCount? = some last ∧ last < (c.startOf options).page) ∨
          c.engine.state.query.pages.OutOfReach (c.startOf options).page config.maxOverfetch) ∧
      (∀ last, c.engine.state.pageCount? = some last → last < (c.startOf options).page →
        (c.load options).1.engine.state.error =
          some (PlanFlaw.pastEnd (c.startOf options).page last).failure.message) ∧
      ((∀ last, c.engine.state.pageCount? = some last → (c.startOf options).page ≤ last) →
        c.engine.state.query.pages.OutOfReach (c.startOf options).page config.maxOverfetch →
          (c.load options).1.engine.state.error =
            some (PlanFlaw.tooManyRows (c.startOf options).page
              (min ((c.startOf options).page * c.engine.state.query.pages.size) maxWord)
              config.maxOverfetch).failure.message) ∧
      ((c.load options).2 ≠ .failed →
        (c.load options).2 = .loaded ∨ (c.load options).2 = .cached) := by
  have hplan (flaw : PlanFlaw) : (c.startOf options).plan config = .error flaw ↔ _ :=
    plan_startOf_error_iff hsort hlimit hpos hle flaw
  rcases h.load_shows hns hfilter with
    ⟨flaw, hflaw, hfailed, herror⟩ | ⟨⟨plan, hok⟩, hshown⟩
  · refine ⟨⟨fun _ => ?_, fun _ => hfailed⟩, fun last hlast hbehind => ?_,
      fun hbefore hout => ?_, fun hnot => absurd hfailed hnot⟩
    · exact ((hplan flaw).mp hflaw).imp (fun ⟨last, hlast, hbehind, _⟩ => ⟨last, hlast, hbehind⟩)
        fun ⟨_, hout, _⟩ => hout
    · rw [herror, Except.error.inj (hflaw.symm.trans
        ((hplan _).mpr (Or.inl ⟨last, hlast, hbehind, rfl⟩)))]
    · rw [herror, Except.error.inj (hflaw.symm.trans
        ((hplan _).mpr (Or.inr ⟨hbefore, hout, rfl⟩)))]
  · -- a page that can be planned is not refused
    have hnone (flaw : PlanFlaw) : ¬(c.startOf options).plan config = .error flaw := by
      rw [hok]
      exact nofun
    have hbefore (last : Nat) (hlast : c.engine.state.pageCount? = some last) :
        (c.startOf options).page ≤ last :=
      Nat.le_of_not_lt fun hbehind =>
        hnone _ ((hplan _).mpr (Or.inl ⟨last, hlast, hbehind, rfl⟩))
    have hin (hout : c.engine.state.query.pages.OutOfReach (c.startOf options).page
        config.maxOverfetch) : False :=
      hnone _ ((hplan _).mpr (Or.inr ⟨hbefore, hout, rfl⟩))
    refine ⟨⟨fun hfailed => ?_, ?_⟩, fun last hlast hbehind => ?_, fun _ hout => (hin hout).elim,
      fun _ => hshown⟩
    · rcases hshown with hshown | hshown
      · rw [hshown] at hfailed
        cases hfailed
      · rw [hshown] at hfailed
        cases hfailed
    · rintro (⟨last, hlast, hbehind⟩ | hout)
      · exact absurd (hbefore last hlast) (Nat.not_le_of_lt hbehind)
      · exact (hin hout).elim
    · exact absurd (hbefore last hlast) (Nat.not_le_of_lt hbehind)

end UpTo

/-- What a reader of rows ranked by id has reached without a jump is in reach, and so is what is in
front of it. -/
theorem Steady.not_outOfReach (h : c.Steady config true)
    (hsort : c.engine.state.query.sort.name = "id") {page : Nat}
    (hle : page ≤ c.engine.state.query.pages.page) :
    ¬c.engine.state.query.pages.OutOfReach page config.maxOverfetch := by
  have hkeyset : c.engine.state.query.isKeyset = true := by
    rw [QueryState.isKeyset, hsort]
    rfl
  exact (h.pages.grounded rfl hkeyset).not_outOfReach hle

/-! ### The current page -/

/-- A backend whose namespace holds three documents. -/
def numbersBackend : Backend :=
  { Backend.empty with
    store := Store.empty.insert "docs"
      [.ofId (.int 1), .ofId (.int 2), .ofId (.int 3)] }

/-- A new client of it, which shows one document on a page. -/
def numbersClient : Client :=
  opened { EngineConfig.default with pageSize := 1 } "local" "docs" none numbersBackend

/-- A new client of six documents, which shows one on a page and may fetch three. -/
def sixClient : Client :=
  opened { EngineConfig.default with pageSize := 1, maxOverfetch := 3 } "local" "docs" none
    { Backend.empty with
      store := Store.empty.insert "docs" [.ofId (.int 1), .ofId (.int 2), .ofId (.int 3),
        .ofId (.int 4), .ofId (.int 5), .ofId (.int 6)] }

/-- The third page is loaded. After the order was changed and changed back it is cached, but its
boundaries are not known any more; the next page follows. -/
def jumped : List Deed :=
  [.call (.load (.toPage 3)), .change (.setSort ⟨"id", .desc⟩), .change (.setSort ⟨"id", .asc⟩),
    .call (.load (.toPage 3)), .call .next]

/-- **Behind a page that jumped out of the cache the next page is loaded once, and not a second
time.** It is loaded by the boundary that came with the cached page, and that boundary is not put on
record. -/
theorem reload_fails_behindJump :
    sixClient.walks true jumped = false ∧
      (sixClient.workAll jumped).engine.state.query.pages.page = 4 ∧
      (sixClient.workAll jumped).engine.state.query.pages.previous = [] ∧
      (sixClient.workAll jumped).engine.state.pageCount? = some 6 ∧
      ((sixClient.workAll jumped).load .forced).2 = .failed ∧
      ((sixClient.workAll jumped).load .forced).1.engine.state.error =
        some (PlanFlaw.tooManyRows 4 4 3).failure.message := by
  cbv

end Client

end DocQuery
