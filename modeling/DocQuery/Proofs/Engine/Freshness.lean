import DocQuery.Proofs.Engine.Session
import Mathlib

/-!
# Cached pages and writes

A load reads the total and the rows of its page at two moments and stores the page in the cache at a
third one. A write is applied at one moment and returns at another one, when it drops the pages of
its place from the cache. All these moments may fall in any order, but for the order within each
load and each write.

* `DocQuery.Watch` – a client with its loads and writes under way, and a record of the moments at
  which things happened; `Watch.Move`, `Watch.step` – what may happen;
* `Engine.KeepsCached` – what holds of all cached pages holds of the page that a load shows which
  ends with a cached one;
* `Watch.read_resume_client`, `Watch.apply_return_client` – the client's own calls are such moves,
  one right after the other;
* `Watch.Ordered` – the invariant: **every cached page was stored after all writes to its place that
  have returned**;
* `Source.Stale`, `Source.Spans` – a page was read before a write was applied; a load was under way
  while the write was applied and returned;
* `Watch.cached_stale_iff` – what follows for every run. **A page that outlives a write was stored
  by a load that spans it**, and such a page is stale (`Watch.cached_outlives_write`).
-/

namespace DocQuery

/-! ### What holds of cached pages -/

namespace Engine

variable {P : QueryKey → CachedPage → Prop} {e : Engine}

/-- A state shows a cached page of which the property holds. -/
def ShowsCached (P : QueryKey → CachedPage → Prop) (t : EngineState) : Prop :=
  ∃ (s : LoadStart) (page : CachedPage) (pages : Pagination), P s.key page ∧
    s.Left (.ok ⟨page.documents, page.total, pages, true⟩) t

/-- The property holds of all cached pages, and of the page that a load shows if it has ended with a
cached one. -/
def KeepsCached (P : QueryKey → CachedPage → Prop) (r : Engine × LoadProgress) : Prop :=
  r.1.cache.queries.Holds P ∧ (r.2 = .finished .cached → ShowsCached P r.1.state)

theorem keepsCached_waiting (h : e.cache.queries.Holds P) (l : Load) :
    KeepsCached P (e, .waiting l) :=
  ⟨h, fun hcached => by cases hcached⟩

/-- Only pages from the cache are said to be. -/
theorem exists_of_endLoad_cached {s : LoadStart} {result : Except Failure FetchedPage}
    (h : (e.endLoad s result).2 = .cached) : ∃ p, result = .ok p ∧ p.fromCache = true := by
  by_cases htimely : e.state.generation = s.snapshot.generation
  · rw [endLoad_of_timely htimely] at h
    cases result with
    | error f => cases h
    | ok p =>
      refine ⟨p, rfl, ?_⟩
      dsimp only at h
      split at h
      case isTrue hcached => exact hcached
      case isFalse => cases h
  · rw [endLoad_of_late htimely] at h
    cases h

theorem keepsCached_endLoad (h : e.cache.queries.Holds P) {s : LoadStart}
    {result : Except Failure FetchedPage} (hpage : ∀ p, result = .ok p → p.fromCache = true →
      ShowsCached P (e.endLoad s result).1.state) :
    KeepsCached P ((e.endLoad s result).1, .finished (e.endLoad s result).2) := by
  constructor
  · obtain ⟨-, hqueries⟩ : e.SameStores (e.endLoad s result).1 := endLoad_sameStores
    rwa [hqueries]
  · intro hcached
    obtain ⟨p, hp, hfrom⟩ := exists_of_endLoad_cached (LoadProgress.finished.inj hcached)
    exact hpage p hp hfrom

theorem lookUp_holds (h : e.cache.queries.Holds P) (s : LoadStart) (plan : PagePlan) :
    (e.lookUp s plan).2.cache.queries.Holds P := by
  cases hforce : s.options.force with
  | true =>
    rw [lookUp, if_pos hforce]
    exact h
  | false =>
    rw [lookUp_eq hforce]
    exact h.get _ _

/-- **A load that begins** may end at once with a cached page. -/
theorem keepsCached_beginAttempt (h : e.cache.queries.Holds P) (options : LoadOptions)
    (mayRepeat : Bool) : KeepsCached P (e.beginAttempt options mayRepeat) := by
  unfold beginAttempt
  split
  · exact ⟨h, fun hcached => by cases hcached⟩
  have hentered : (e.enterLoad options mayRepeat).1.cache.queries.Holds P := by
    unfold enterLoad
    cases options.limit <;> exact h
  have hsnapshot := e.enterLoad_snapshot options mayRepeat
  obtain ⟨e₁, s, henter⟩ : ∃ e₁ s, e.enterLoad options mayRepeat = (e₁, s) := ⟨_, _, rfl⟩
  rw [henter] at hentered hsnapshot ⊢
  dsimp only at hentered hsnapshot ⊢
  cases s.plan e₁.config with
  | error flaw => exact keepsCached_endLoad hentered fun p hp => by cases hp
  | ok plan =>
    dsimp only
    have hlooked := lookUp_holds hentered s plan
    obtain ⟨found, e₂, hlook⟩ : ∃ found e₂, e₁.lookUp s plan = (found, e₂) := ⟨_, _, rfl⟩
    rw [hlook] at hlooked ⊢
    cases found with
    | none => exact keepsCached_waiting hlooked _
    | some p =>
      refine keepsCached_endLoad hlooked fun _ _ _ => ?_
      obtain ⟨page, -, hcached, rfl⟩ := Client.lookUp_some hlook
      have hstate : e₂.state = s.snapshot := by
        have hgot : e₂ = (e₁.cachedPage s.key).2 := (congrArg Prod.snd hcached).symm
        rw [hsnapshot, hgot]
        rfl
      have hpage : P s.key page := hentered.of_get (congrArg Prod.fst hcached)
      exact ⟨s, page, _, hpage, endLoad_left hstate _⟩

theorem keepsCached_concludeLoad (h : e.cache.queries.Holds P) (s : LoadStart)
    {result : Except Failure FetchedPage} (hfetched : ∀ p, result = .ok p → p.fromCache = false) :
    KeepsCached P (e.concludeLoad s result) := by
  by_cases htimely : e.state.generation = s.snapshot.generation
  · rw [concludeLoad_of_timely htimely]
    refine keepsCached_endLoad h fun p hp hfrom => ?_
    rw [hfetched p hp] at hfrom
    cases hfrom
  · have hsettled : (e.dispatch .loadSettled).cache.queries.Holds P := h
    rw [concludeLoad_of_late htimely]
    split
    · exact keepsCached_beginAttempt hsettled _ false
    · exact ⟨hsettled, fun hcached => by cases hcached⟩

/-- **A load that goes on** stores its page, and if it begins once more it may show a cached one. -/
theorem keepsCached_resumeLoad (h : e.cache.queries.Holds P) (l : Load)
    (answer : Except Failure QueryResponse)
    (hstored : ∀ total r, l.stage = .fetching total → answer = .ok r →
      P l.start.key ⟨(l.start.snapshot.query.pages.commit l.plan r.rows).2, total,
        (l.start.snapshot.query.pages.commit l.plan r.rows).1.next⟩) :
    KeepsCached P (e.resumeLoad l answer) := by
  have hfailed (f : Failure) : KeepsCached P (e.concludeLoad l.start (.error f)) :=
    keepsCached_concludeLoad h l.start fun p hp => by cases hp
  unfold resumeLoad
  cases answer with
  | error f => exact hfailed f
  | ok r =>
    cases hstage : l.stage with
    | counting =>
      dsimp only
      cases r.count with
      | error flaw => exact hfailed flaw.failure
      | ok total => exact keepsCached_waiting h _
    | fetching total =>
      dsimp only
      refine keepsCached_concludeLoad ?_ l.start fun p hp => ?_
      · exact TtlCache.Holds.insert h _ (hstored total r hstage rfl)
      · cases hp
        rfl

end Engine

/-! ### Moments -/

/-- An answer that a backend has given. -/
structure Reading where
  moment : Nat
  answer : Except Failure QueryResponse

/-- A load under way. -/
structure Flight where
  /-- When its caller asked for it. -/
  begun : Nat
  load : Load
  /-- When the answer before the next one was given, or the load was asked for. -/
  counted : Nat
  /-- The answer that is on its way to the engine. -/
  reading : Option Reading

/-- A write under way, with the moment at which it was applied and the number of documents. -/
structure Errand where
  write : PendingWrite
  applied : Option (Nat × Except Failure Nat)

/-- A page that was stored. -/
structure Source where
  load : Load
  total : Nat
  rows : List Document
  /-- When the total was read. -/
  counted : Nat
  /-- When the rows were read. -/
  fetched : Nat
  stored : Nat

/-- A write that has returned with success. -/
structure Written where
  place : Place
  applied : Nat
  returned : Nat

/-- A load that has ended, with the state that it left. -/
structure Ending where
  begun : Nat
  ended : Nat
  outcome : LoadOutcome
  state : EngineState

def Ending.place (x : Ending) : Place := ⟨x.state.connection, x.state.ns⟩

namespace Source

def key (src : Source) : QueryKey := src.load.start.key

/-- The page that is cached. -/
def page (src : Source) : CachedPage :=
  let (pages, documents) := src.load.start.snapshot.query.pages.commit src.load.plan src.rows
  ⟨documents, src.total, pages.next⟩

/-- The total or the rows were read before the write was applied. -/
def Stale (src : Source) (w : Written) : Prop := src.counted < w.applied ∨ src.fetched < w.applied

/-- The load was counting before the write was applied, and stored its page after the write had
returned. -/
def Spans (src : Source) (w : Written) : Prop := src.counted < w.applied ∧ w.returned < src.stored

end Source

/-- The place of a page. -/
def QueryKey.place (k : QueryKey) : Place := ⟨k.connection, k.ns⟩

/-- A client whose loads and writes are watched. -/
structure Watch where
  client : Client
  now : Nat
  flights : List Flight
  errands : List Errand
  sources : List Source
  written : List Written
  ended : List Ending

namespace Watch

/-- Nothing has happened. -/
def start (config : EngineConfig) (connection ns : String) (historyLimit : Option Nat)
    (b : Backend) : Watch :=
  ⟨.opened config connection ns historyLimit b, 0, [], [], [], [], []⟩

/-- What may happen. -/
inductive Move where
  | change (c : Change)
  | clearError
  | clearCache
  /-- Asks for a load, which ends at once or sends its first query. -/
  | load (options : LoadOptions)
  /-- The backend answers the query of a load. -/
  | read (i : Nat)
  /-- The answer comes to the engine. -/
  | resume (i : Nat)
  /-- A load is given up. -/
  | abandon (i : Nat)
  | write (w : PendingWrite)
  /-- The backend applies a write. -/
  | apply (i : Nat)
  /-- A write returns. -/
  | return (i : Nat)
  | beginDiscovery (force : Bool)
  | finishDiscovery (d : Discovery) (answer : Except Failure QueryResponse)
  /-- The backend becomes another one: it is told to fail, or others write to it. -/
  | outside (b : Backend)

variable (s : Watch)

/-- The engine after a step of the watch. -/
def withEngine (engine : Engine) : Watch := { s with client := { s.client with engine } }

/-- A load has come to its next wait, or to its end. -/
def proceed (begun counted : Nat) : Engine × LoadProgress → Watch
  | (engine, .waiting l) =>
    { s.withEngine engine with flights := s.flights ++ [⟨begun, l, counted, none⟩] }
  | (engine, .finished outcome) =>
    { s.withEngine engine with ended := ⟨begun, s.now, outcome, engine.state⟩ :: s.ended }

/-- The page that a load stores when the answer comes to the engine. -/
def stores (f : Flight) (r : Reading) : List Source :=
  match f.load.stage, r.answer with
  | .fetching total, .ok response =>
    [⟨f.load, total, response.rows, f.counted, r.moment, s.now⟩]
  | _, _ => []

/-- A load takes its answer, and what it stores is recorded. -/
def land (i : Nat) (f : Flight) (r : Reading) : Watch :=
  { s with flights := s.flights.eraseIdx i, sources := s.stores f r ++ s.sources }

/-- The watch after a move, before time goes on. -/
def act : Move → Watch
  | .change c => s.withEngine (s.client.engine.change c)
  | .clearError => s.withEngine s.client.engine.clearError
  | .clearCache => s.withEngine s.client.engine.clearCache
  | .load options => s.proceed s.now s.now (s.client.engine.beginLoad options)
  | .read i =>
    match s.flights[i]? with
    | some f =>
      if f.reading.isSome then s
      else
        let (answer, backend) := s.client.backend.ask f.load.start.snapshot.ns
          (f.load.request s.client.engine.config)
        { s with
          client := { s.client with backend }
          flights := s.flights.set i { f with reading := some ⟨s.now, answer⟩ } }
    | none => s
  | .resume i =>
    match s.flights[i]? with
    | some f =>
      match f.reading with
      | some r =>
        (s.land i f r).proceed f.begun r.moment (s.client.engine.resumeLoad f.load r.answer)
      | none => s
    | none => s
  | .abandon i =>
    match s.flights[i]? with
    | some _ =>
      { s.withEngine (s.client.engine.dispatch .loadSettled) with flights := s.flights.eraseIdx i }
    | none => s
  | .write w => { s with errands := s.errands ++ [⟨w, none⟩] }
  | .apply i =>
    match s.errands[i]? with
    | some ⟨w, none⟩ =>
      let (answer, backend) := s.client.backend.receiveWrite.answerWrite w.place.ns w.request
      { s with
        client := { s.client with backend }
        errands := s.errands.set i ⟨w, some (s.now, answer)⟩ }
    | _ => s
  | .return i =>
    match s.errands[i]? with
    | some ⟨w, some (applied, answer)⟩ =>
      { s.withEngine (s.client.engine.resumeWrite w answer) with
        errands := s.errands.eraseIdx i
        written := match answer with
          | .ok _ => ⟨w.place, applied, s.now⟩ :: s.written
          | .error _ => s.written }
    | _ => s
  | .beginDiscovery force => s.withEngine (s.client.engine.beginDiscovery force).1
  | .finishDiscovery d answer => s.withEngine (s.client.engine.resumeDiscovery d answer).1
  | .outside b => { s with client := { s.client with backend := b } }

/-- The watch after a move. -/
def step (m : Move) : Watch := { s.act m with now := s.now + 1 }

/-- The watch after a run. -/
def run (moves : List Move) : Watch := moves.foldl step s

@[simp] theorem run_nil : s.run [] = s := rfl

@[simp] theorem run_cons (m : Move) (moves : List Move) :
    s.run (m :: moves) = (s.step m).run moves := rfl

/-! ### The client's own calls -/

@[simp] theorem proceed_client (begun counted : Nat) (r : Engine × LoadProgress) :
    (s.proceed begun counted r).client = { s.client with engine := r.1 } := by
  obtain ⟨engine, p⟩ := r
  cases p <;> rfl

/-- A call of a load that is answered at once is read and taken. -/
theorem read_resume_client {i : Nat} {f : Flight} (hf : s.flights[i]? = some f)
    (hr : f.reading = none) : ((s.step (.read i)).step (.resume i)).client =
      ((s.client.send (.load f.load)).answer (.load f.load)).1 := by
  obtain ⟨answer, backend, hask⟩ : ∃ answer backend,
      s.client.backend.ask f.load.start.snapshot.ns (f.load.request s.client.engine.config) =
        (answer, backend) := ⟨_, _, rfl⟩
  have hread : s.step (.read i) = { s with
      client := { s.client with backend }
      flights := s.flights.set i { f with reading := some ⟨s.now, answer⟩ }
      now := s.now + 1 } := by
    rw [step, act, hf]
    dsimp only
    rw [hr, hask]
    rfl
  have hset : (s.flights.set i { f with reading := some ⟨s.now, answer⟩ })[i]? =
      some { f with reading := some ⟨s.now, answer⟩ } := by
    obtain ⟨hi, -⟩ := List.getElem?_eq_some_iff.mp hf
    rw [List.getElem?_set_self hi]
  rw [hread, Client.answer_load hask, step, act]
  dsimp only
  rw [hset]
  dsimp only
  rw [proceed_client]
  rfl

/-- A write that is answered at once is applied and returns. -/
theorem apply_return_client {i : Nat} {w : PendingWrite} (he : s.errands[i]? = some ⟨w, none⟩) :
    ((s.step (.apply i)).step (.return i)).client = (s.client.write w).1 := by
  obtain ⟨answer, backend, hwrite⟩ : ∃ answer backend,
      s.client.backend.receiveWrite.answerWrite w.place.ns w.request = (answer, backend) :=
    ⟨_, _, rfl⟩
  have happly : s.step (.apply i) = { s with
      client := { s.client with backend }
      errands := s.errands.set i ⟨w, some (s.now, answer)⟩
      now := s.now + 1 } := by
    rw [step, act, he]
    dsimp only
    rw [hwrite]
  have hset : (s.errands.set i ⟨w, some (s.now, answer)⟩)[i]? =
      some ⟨w, some (s.now, answer)⟩ := by
    obtain ⟨hi, -⟩ := List.getElem?_eq_some_iff.mp he
    rw [List.getElem?_set_self hi]
  have hanswer : (s.client.write w).1 = ⟨s.client.engine.resumeWrite w answer, backend⟩ :=
    congrArg (fun r : Except Failure Nat × Backend =>
      (⟨s.client.engine.resumeWrite w r.1, r.2⟩ : Client)) hwrite
  rw [happly, hanswer, step, act]
  dsimp only
  rw [hset]
  rfl

end Watch

/-! ### The order of moments -/

/-- Whatever happened to a load happened before a moment, in its order. -/
structure Flight.Timely (now : Nat) (f : Flight) : Prop where
  begun_le : f.begun ≤ f.counted
  counted_lt : f.counted < now
  reading : ∀ r, f.reading = some r → f.counted < r.moment ∧ r.moment < now

theorem Flight.Timely.mono {now later : Nat} {f : Flight} (h : f.Timely now)
    (hle : now ≤ later) : f.Timely later where
  begun_le := h.begun_le
  counted_lt := Nat.lt_of_lt_of_le h.counted_lt hle
  reading := fun r hr => ⟨(h.reading r hr).1, Nat.lt_of_lt_of_le (h.reading r hr).2 hle⟩

/-- A page was stored under the key by a moment, after all writes to its place that had returned. -/
def Fresh (sources : List Source) (written : List Written) (now : Nat) (key : QueryKey)
    (page : CachedPage) : Prop :=
  ∃ src ∈ sources, src.key = key ∧ src.page = page ∧ src.stored ≤ now ∧
    ∀ w ∈ written, w.place = key.place → w.returned < now → w.returned < src.stored

namespace Watch

/-- **The order of moments**, all of them before a moment. -/
structure Ordered (now : Nat) (s : Watch) : Prop where
  flights : ∀ f ∈ s.flights, f.Timely now
  errands : ∀ e ∈ s.errands, ∀ moment answer, e.applied = some (moment, answer) → moment < now
  sources : ∀ src ∈ s.sources, src.counted < src.fetched ∧ src.fetched < src.stored ∧
    src.stored < now
  written : ∀ w ∈ s.written, w.applied < w.returned ∧ w.returned < now
  cache : s.client.engine.cache.queries.Holds (Fresh s.sources s.written now)
  /-- A load that ended with a cached page showed one that was fresh then. -/
  ended : ∀ x ∈ s.ended, x.begun ≤ x.ended ∧ x.ended < now ∧
    (x.outcome = .cached → Engine.ShowsCached (Fresh s.sources s.written x.ended) x.state)

theorem ordered_start (config : EngineConfig) (connection ns : String)
    (historyLimit : Option Nat) (b : Backend) :
    (start config connection ns historyLimit b).Ordered 0 where
  flights := fun f hf => by cases hf
  errands := fun e he => by cases he
  sources := fun src hsrc => by cases hsrc
  written := fun w hw => by cases hw
  cache := TtlCache.holds_empty _ _
  ended := fun x hx => by cases hx

end Watch

theorem Fresh.mono {sources sources' : List Source} {written : List Written} {now later : Nat}
    {key : QueryKey} {page : CachedPage} (h : Fresh sources written now key page)
    (hsub : sources ⊆ sources') (hle : now ≤ later) (hwritten : ∀ w ∈ written, w.returned < now) :
    Fresh sources' written later key page := by
  obtain ⟨src, hsrc, hkey, hpage, hstored, hafter⟩ := h
  exact ⟨src, hsub hsrc, hkey, hpage, Nat.le_trans hstored hle,
    fun w hw hplace _ => hafter w hw hplace (hwritten w hw)⟩

theorem Engine.ShowsCached.imp {P Q : QueryKey → CachedPage → Prop} {t : EngineState}
    (h : Engine.ShowsCached P t) (himp : ∀ k v, P k v → Q k v) : Engine.ShowsCached Q t := by
  obtain ⟨s, page, pages, hpage, hleft⟩ := h
  exact ⟨s, page, pages, himp _ _ hpage, hleft⟩

namespace Watch

variable {s : Watch} {now : Nat}

/-- The engine goes on without storing pages. -/
theorem Ordered.withEngine (h : s.Ordered now) {e : Engine}
    (he : e.cache.queries.Holds (Fresh s.sources s.written now)) : (s.withEngine e).Ordered now :=
  { h with cache := he }

/-- Time goes on. -/
theorem Ordered.later (h : s.Ordered now) : s.Ordered (now + 1) where
  flights := fun f hf => (h.flights f hf).mono (Nat.le_succ now)
  errands := fun e he moment answer hm => Nat.lt_succ_of_lt (h.errands e he moment answer hm)
  sources := fun src hsrc => by
    obtain ⟨hcounted, hfetched, hstored⟩ := h.sources src hsrc
    exact ⟨hcounted, hfetched, Nat.lt_succ_of_lt hstored⟩
  written := fun w hw => ⟨(h.written w hw).1, Nat.lt_succ_of_lt (h.written w hw).2⟩
  cache := h.cache.imp fun _ _ hfresh =>
    hfresh.mono (List.Subset.refl _) (Nat.le_succ now) fun w hw => (h.written w hw).2
  ended := fun x hx => by
    obtain ⟨hbegun, hended, hcached⟩ := h.ended x hx
    exact ⟨hbegun, Nat.lt_succ_of_lt hended, hcached⟩

/-- A load comes to its next wait, or to its end. -/
theorem Ordered.proceed (h : s.Ordered (s.now + 1)) (hwritten : ∀ w ∈ s.written, w.returned < s.now)
    {begun counted : Nat} (hbegun : begun ≤ counted) (hcounted : counted ≤ s.now)
    {r : Engine × LoadProgress} (hr : Engine.KeepsCached (Fresh s.sources s.written s.now) r) :
    (s.proceed begun counted r).Ordered (s.now + 1) := by
  obtain ⟨engine, p⟩ := r
  have hcache : engine.cache.queries.Holds (Fresh s.sources s.written (s.now + 1)) :=
    hr.1.imp fun _ _ hfresh => hfresh.mono (List.Subset.refl _) (Nat.le_succ _) hwritten
  cases p with
  | waiting l =>
    refine { h.withEngine hcache with flights := fun f hf => ?_ }
    rcases List.mem_append.mp hf with hf | hf
    · exact h.flights f hf
    · obtain rfl := List.mem_singleton.mp hf
      exact ⟨hbegun, Nat.lt_succ_of_le hcounted, fun r hr => by cases hr⟩
  | finished outcome =>
    refine { h.withEngine hcache with ended := fun x hx => ?_ }
    rcases List.mem_cons.mp hx with rfl | hx
    · refine ⟨Nat.le_trans hbegun hcounted, Nat.lt_succ_self _, fun houtcome => hr.2 ?_⟩
      exact congrArg LoadProgress.finished houtcome
    · exact h.ended x hx

/-- **The answer comes to a load**, which stores its page if it was waiting for rows. -/
theorem Ordered.resume (h : s.Ordered s.now) {i : Nat} {f : Flight} {r : Reading}
    (hf : s.flights[i]? = some f) (hr : f.reading = some r) :
    ((s.land i f r).proceed f.begun r.moment
      (s.client.engine.resumeLoad f.load r.answer)).Ordered (s.now + 1) := by
  have hflight := h.flights f (List.mem_of_getElem? hf)
  obtain ⟨hcounted, hmoment⟩ := hflight.reading r hr
  have hwritten : ∀ w ∈ s.written, w.returned < s.now := fun w hw => (h.written w hw).2
  have hsub : s.sources ⊆ s.stores f r ++ s.sources := List.subset_append_right _ _
  have hnew : ∀ src ∈ s.stores f r ++ s.sources, src.counted < src.fetched ∧
      src.fetched < src.stored ∧ src.stored < s.now + 1 := by
    intro src hsrc
    rcases List.mem_append.mp hsrc with hsrc | hsrc
    · unfold stores at hsrc
      split at hsrc
      · obtain rfl := List.mem_singleton.mp hsrc
        exact ⟨hcounted, hmoment, Nat.lt_succ_self _⟩
      · cases hsrc
    · exact h.later.sources src hsrc
  have hlater : (s.land i f r).Ordered (s.now + 1) := {
    flights := fun g hg => h.later.flights g (List.mem_of_mem_eraseIdx hg)
    errands := h.later.errands
    sources := hnew
    written := h.later.written
    cache := h.cache.imp fun _ _ hfresh => hfresh.mono hsub (Nat.le_succ _) hwritten
    ended := fun x hx => by
      obtain ⟨hbegun, hended, hcached⟩ := h.later.ended x hx
      refine ⟨hbegun, hended, fun houtcome => (hcached houtcome).imp ?_⟩
      rintro key page ⟨src, hsrc, hfresh⟩
      exact ⟨src, hsub hsrc, hfresh⟩ }
  refine Ordered.proceed (s := s.land i f r) hlater hwritten
    (Nat.le_of_lt (Nat.lt_of_le_of_lt hflight.begun_le hcounted)) (Nat.le_of_lt hmoment) ?_
  -- the page that is stored now is younger than all writes that have returned
  refine Engine.keepsCached_resumeLoad ?_ f.load r.answer fun total response hstage hanswer => ?_
  · exact h.cache.imp fun _ _ hfresh => hfresh.mono hsub (Nat.le_refl _) hwritten
  · refine ⟨⟨f.load, total, response.rows, f.counted, r.moment, s.now⟩, ?_, rfl, rfl, Nat.le_refl _,
      fun w hw _ hreturned => hreturned⟩
    refine List.mem_append_left _ ?_
    rw [stores, hstage, hanswer]
    exact List.mem_singleton_self _

/-- **A write returns**, and the pages of its place are dropped. -/
theorem Ordered.return (h : s.Ordered s.now) {w : PendingWrite} {applied n : Nat} {i : Nat}
    (happlied : applied < s.now) :
    Ordered (s.now + 1) { s.withEngine (s.client.engine.resumeWrite w (.ok n)) with
      errands := s.errands.eraseIdx i
      written := ⟨w.place, applied, s.now⟩ :: s.written } where
  flights := h.later.flights
  errands := fun e he => h.later.errands e (List.mem_of_mem_eraseIdx he)
  sources := h.later.sources
  written := fun v hv => by
    rcases List.mem_cons.mp hv with rfl | hv
    · exact ⟨happlied, Nat.lt_succ_self _⟩
    · exact h.later.written v hv
  cache := by
    have hdropped : (s.client.engine.resumeWrite w (.ok n)).cache.queries =
        (s.client.engine.cache.queries.invalidate fun k =>
          k.connection = w.place.connection ∧ k.ns = w.place.ns).2 := rfl
    change TtlCache.Holds _ (s.client.engine.resumeWrite w (.ok n)).cache.queries
    rw [hdropped]
    refine h.cache.invalidate fun key page hkey hfresh => ?_
    obtain ⟨src, hsrc, hsame, hpage, hstored, hafter⟩ := hfresh
    refine ⟨src, hsrc, hsame, hpage, Nat.le_succ_of_le hstored, fun v hv hplace hreturned => ?_⟩
    rcases List.mem_cons.mp hv with rfl | hv
    · -- pages of the place of the write are not left
      have hconnection : w.place.connection = key.connection := congrArg Place.connection hplace
      have hns : w.place.ns = key.ns := congrArg Place.ns hplace
      rw [hconnection, hns] at hkey
      simp at hkey
    · exact hafter v hv hplace (h.written v hv).2
  ended := fun x hx => by
    obtain ⟨hbegun, hended, hcached⟩ := h.ended x hx
    refine ⟨hbegun, Nat.lt_succ_of_lt hended, fun houtcome => (hcached houtcome).imp ?_⟩
    rintro key page ⟨src, hsrc, hsame, hpage, hstored, hafter⟩
    refine ⟨src, hsrc, hsame, hpage, hstored, fun v hv hplace hreturned => ?_⟩
    rcases List.mem_cons.mp hv with rfl | hv
    · exact absurd hreturned (Nat.lt_asymm hended)
    · exact hafter v hv hplace hreturned

/-- **What one move keeps.** -/
theorem Ordered.act (h : s.Ordered s.now) (m : Move) : (s.act m).Ordered (s.now + 1) := by
  have hwritten : ∀ w ∈ s.written, w.returned < s.now := fun w hw => (h.written w hw).2
  cases m with
  | change c =>
    obtain ⟨-, hqueries⟩ := s.client.engine.change_sameStores c
    refine (h.withEngine ?_).later
    rw [hqueries]
    exact h.cache
  | clearError => exact (h.withEngine (e := s.client.engine.clearError) h.cache).later
  | clearCache =>
    exact (h.withEngine (e := s.client.engine.clearCache) fun e he => by cases he).later
  | load options =>
    exact h.later.proceed hwritten (Nat.le_refl _) (Nat.le_refl _)
      (Engine.keepsCached_beginAttempt h.cache options true)
  | read i =>
    rw [Watch.act]
    cases hf : s.flights[i]? with
    | none => exact h.later
    | some f =>
      dsimp only
      split
      · exact h.later
      · refine { h.later with flights := fun g hg => ?_ }
        rcases List.mem_or_eq_of_mem_set hg with hg | rfl
        · exact h.later.flights g hg
        · have hflight := h.flights f (List.mem_of_getElem? hf)
          refine { hflight.mono (Nat.le_succ _) with reading := fun r hr => ?_ }
          cases hr
          exact ⟨hflight.counted_lt, Nat.lt_succ_self _⟩
  | resume i =>
    rw [Watch.act]
    cases hf : s.flights[i]? with
    | none => exact h.later
    | some f =>
      dsimp only
      cases hr : f.reading with
      | none => exact h.later
      | some r => exact h.resume hf hr
  | abandon i =>
    rw [Watch.act]
    cases s.flights[i]? with
    | none => exact h.later
    | some f =>
      exact { (h.withEngine (e := s.client.engine.dispatch .loadSettled) h.cache).later with
        flights := fun g hg => h.later.flights g (List.mem_of_mem_eraseIdx hg) }
  | write w =>
    refine { h.later with errands := fun e he moment answer happlied => ?_ }
    rcases List.mem_append.mp he with he | he
    · exact h.later.errands e he moment answer happlied
    · obtain rfl := List.mem_singleton.mp he
      cases happlied
  | apply i =>
    rw [Watch.act]
    split
    · refine { h.later with errands := fun e he moment answer happlied => ?_ }
      rcases List.mem_or_eq_of_mem_set he with he | rfl
      · exact h.later.errands e he moment answer happlied
      · cases happlied
        exact Nat.lt_succ_self _
    · exact h.later
  | «return» i =>
    rw [Watch.act]
    split
    case h_1 w applied answer he =>
      cases answer with
      | error f =>
        exact { (h.withEngine (e := s.client.engine.resumeWrite w (.error f)) h.cache).later with
          errands := fun e he => h.later.errands e (List.mem_of_mem_eraseIdx he) }
      | ok n => exact h.return (h.errands _ (List.mem_of_getElem? he) applied (.ok n) rfl)
    case h_2 => exact h.later
  | beginDiscovery force =>
    refine (h.withEngine ?_).later
    obtain ⟨e', hlearns, ⟨attributes, hbegin, -⟩ | hbegin⟩ :=
      s.client.engine.beginDiscovery_cases force
    · rw [hbegin, hlearns.queries]
      exact h.cache
    · rw [hbegin, hlearns.queries]
      exact h.cache
  | finishDiscovery d answer =>
    refine (h.withEngine ?_).later
    rw [(Engine.learns_resumeDiscovery _ d answer).queries]
    exact h.cache
  | outside b => exact { h.later with cache := h.later.cache }

/-- **So does a run.** -/
theorem Ordered.run (h : s.Ordered s.now) (moves : List Move) :
    (s.run moves).Ordered (s.run moves).now := by
  induction moves generalizing s with
  | nil => exact h
  | cons m moves ih =>
    have hact := h.act m
    exact ih (s := s.step m)
      ⟨hact.flights, hact.errands, hact.sources, hact.written, hact.cache, hact.ended⟩

/-- **A cached page outlives a write exactly if it was stored by a load that spans the write.** In
every run, a load that ends with a cached page shows a page that was stored by a load of the run;
and for every write to the place that had returned with success before the load was asked for, the
total or the rows of the page were read before the write was applied exactly if the load that stored
the page was counting before the write was applied and stored the page after the write had
returned. -/
theorem cached_stale_iff (config : EngineConfig) (connection ns : String)
    (historyLimit : Option Nat) (b : Backend) (moves : List Move) {x : Ending}
    (hx : x ∈ ((start config connection ns historyLimit b).run moves).ended)
    (hcached : x.outcome = .cached) :
    ∃ src ∈ ((start config connection ns historyLimit b).run moves).sources,
      x.state.total = some src.total ∧
      (∃ front, x.state.documents = front ++ src.page.documents) ∧
      src.counted < src.fetched ∧ src.fetched < src.stored ∧ src.stored ≤ x.ended ∧
      ∀ w ∈ ((start config connection ns historyLimit b).run moves).written,
        w.place = x.place → w.returned < x.begun → (src.Stale w ↔ src.Spans w) := by
  have hstart : (start config connection ns historyLimit b).Ordered
      (start config connection ns historyLimit b).now :=
    ordered_start config connection ns historyLimit b
  have hordered := hstart.run moves
  obtain ⟨hbegun, -, hshown⟩ := hordered.ended x hx
  obtain ⟨s, page, pages, hfresh, hinputs, -, htotal, hdocuments⟩ := hshown hcached
  obtain ⟨src, hsrc, hkey, rfl, hstored, hafter⟩ := hfresh
  obtain ⟨hcounted, hfetched, -⟩ := hordered.sources src hsrc
  obtain ⟨hconnection, hns, -⟩ := EngineState.inputs_eq_iff.mp hinputs
  refine ⟨src, hsrc, htotal, ?_, hcounted, hfetched, hstored, fun w hw hplace hreturned => ?_⟩
  · rw [hdocuments]
    split
    · exact ⟨_, rfl⟩
    · exact ⟨[], rfl⟩
  · -- the page was stored after the write had returned, and it was counted first
    have hplace' : w.place = s.key.place := by
      rw [hplace, Ending.place, hconnection, hns]
      rfl
    have hlater := hafter w hw hplace' (Nat.lt_of_lt_of_le hreturned hbegun)
    unfold Source.Stale Source.Spans
    omega

/-- A backend that holds one document. -/
def oneBackend : Backend :=
  { Backend.empty with store := Store.empty.insert "docs" [.ofId (.int 1)] }

/-- A new client of it. -/
def oneClient : Watch := start .default "local" "docs" none oneBackend

/-- A write of another document. -/
def another : PendingWrite := ⟨⟨"local", "docs"⟩, .ofUpsert [.ofId (.int 2)]⟩

/-- A load and its course. -/
def wholeLoad : List Move := [.load .default, .read 0, .resume 0, .read 0, .resume 0]

/-- The write returns before anything is loaded. -/
def writeFirst : List Move :=
  [.write another, .apply 0, .return 0] ++ wholeLoad ++ [.load .default]

/-- The write is applied and returns while a load waits for its rows. -/
def writeAmid : List Move :=
  [.load .default, .read 0, .resume 0, .write another, .apply 0, .return 0, .read 0, .resume 0,
    .load .default]

/-- What is on record: a load that ended, the only write and the only page that was stored. -/
structure Recorded (s : Watch) (x : Ending) (w : Written) (src : Source) : Prop where
  ended : x ∈ s.ended
  written : s.written = [w]
  sources : s.sources = [src]

/-- The record in numbers. -/
def summary (s : Watch) : List (Nat × LoadOutcome × Option Nat × Place) × List (Place × Nat × Nat) ×
    List (Nat × Nat × Nat × Nat) :=
  (s.ended.map fun x => (x.begun, x.outcome, x.state.total, x.place),
    s.written.map fun w => (w.place, w.applied, w.returned),
    s.sources.map fun src => (src.counted, src.fetched, src.stored, src.total))

theorem exists_recorded {s : Watch} {begun total : Nat} {outcome : LoadOutcome}
    {shown : Option Nat} {place place' : Place}
    {rest : List (Nat × LoadOutcome × Option Nat × Place)}
    {applied returned counted fetched stored : Nat}
    (h : s.summary = ((begun, outcome, shown, place) :: rest, [(place', applied, returned)],
      [(counted, fetched, stored, total)])) :
    ∃ x w src, s.Recorded x w src ∧ (x.begun = begun ∧ x.outcome = outcome ∧
        x.state.total = shown ∧ x.place = place) ∧
      (w.place = place' ∧ w.applied = applied ∧ w.returned = returned) ∧
      src.counted = counted ∧ src.total = total := by
  obtain ⟨hended, h⟩ := Prod.ext_iff.mp h
  obtain ⟨hwritten, hsources⟩ := Prod.ext_iff.mp h
  obtain ⟨x, ended, hx, hhead, -⟩ := List.map_eq_cons_iff.mp hended
  obtain ⟨w, hw, hwrite⟩ := List.map_eq_singleton_iff.mp hwritten
  obtain ⟨src, hsrc, hsource⟩ := List.map_eq_singleton_iff.mp hsources
  cases hhead
  cases hwrite
  cases hsource
  refine ⟨x, w, src, ⟨?_, hw, hsrc⟩, ⟨rfl, rfl, rfl, rfl⟩, ⟨rfl, rfl, rfl⟩, rfl, rfl⟩
  rw [hx]
  exact List.mem_cons_self

/-- What was read after the write had been applied is not stale. -/
theorem cached_stale_writeFirst : ∃ x w src, (oneClient.run writeFirst).Recorded x w src ∧
    x.outcome = .cached ∧ w.place = x.place ∧ w.returned < x.begun ∧
      x.state.total = some src.total ∧ ¬ src.Stale w := by
  have hsummary : (oneClient.run writeFirst).summary =
      ([(8, .cached, some 2, ⟨"local", "docs"⟩), (3, .loaded, some 2, ⟨"local", "docs"⟩)],
        [(⟨"local", "docs"⟩, 1, 2)], [(4, 6, 7, 2)]) := by
    cbv
  obtain ⟨x, w, src, hrecord, ⟨hbegun, houtcome, htotal, hplace⟩, ⟨hplace', happlied, hreturned⟩,
    hcounted, hcount⟩ := exists_recorded hsummary
  have hsame : w.place = x.place := hplace'.trans hplace.symm
  have hbefore : w.returned < x.begun := by omega
  have hw : w ∈ (oneClient.run writeFirst).written := by
    rw [hrecord.written]
    exact List.mem_singleton_self w
  obtain ⟨src', hsrc, -, -, -, -, -, hstale⟩ :=
    cached_stale_iff .default "local" "docs" none oneBackend writeFirst hrecord.ended houtcome
  have hsrc : src' ∈ (oneClient.run writeFirst).sources := hsrc
  rw [hrecord.sources] at hsrc
  obtain rfl := List.mem_singleton.mp hsrc
  refine ⟨x, w, src', hrecord, houtcome, hsame, hbefore, by rw [htotal, hcount], fun h => ?_⟩
  -- the load began to count after the write
  obtain ⟨hspans, -⟩ := (hstale w hw hsame hbefore).mp h
  omega

/-- **A cached page can outlive a write.** One document is counted, another one is written, and the
write returns. The load stores its page after that, and the next load shows its total, although the
backend holds two documents. -/
theorem cached_outlives_write : ∃ x w src, (oneClient.run writeAmid).Recorded x w src ∧
    x.outcome = .cached ∧ w.place = x.place ∧ w.returned < x.begun ∧
      x.state.total = some src.total ∧ src.counted < w.applied ∧
      some ((oneClient.run writeAmid).client.backend.store.size "docs") ≠ x.state.total := by
  have hsummary : (oneClient.run writeAmid).summary =
      ([(8, .cached, some 1, ⟨"local", "docs"⟩), (0, .loaded, some 1, ⟨"local", "docs"⟩)],
        [(⟨"local", "docs"⟩, 4, 5)], [(1, 6, 7, 1)]) := by
    cbv
  have hsize : (oneClient.run writeAmid).client.backend.store.size "docs" = 2 := by
    cbv
  obtain ⟨x, w, src, hrecord, ⟨hbegun, houtcome, htotal, hplace⟩, ⟨hplace', happlied, hreturned⟩,
    hcounted, hcount⟩ := exists_recorded hsummary
  refine ⟨x, w, src, hrecord, houtcome, hplace'.trans hplace.symm, by omega,
    by rw [htotal, hcount], by omega, ?_⟩
  rw [hsize, htotal]
  decide

end Watch

end DocQuery
