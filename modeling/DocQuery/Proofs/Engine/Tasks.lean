import DocQuery.Proofs.Engine.Fetch
import Mathlib

/-!
# Tasks that change a question and load its page

Several tasks share an engine. Each may change what is asked for, and then loads the current page;
while one of them waits for the store, the others go on. A task that finds a load under way leaves
its change to that load, which begins once more when it finds the question changed.

* `DocQuery.Task`, `DocQuery.Crowd` – the tasks, and an engine with them; `Crowd.step` – one of them
  goes on to its next wait;
* `Crowd.Healthy`, `Crowd.Rests` – what holds of the engine, and of a load at each of its waits;
* `Crowd.rests_beginAttempt`, `Crowd.rests_resumeLoad` – the engine's steps keep it so;
* `Crowd.Inv` – the invariant: a task has not finished, or **the state shows what a fetch
  returns**, or the last load was dropped;
* `Crowd.settled` – what follows when all tasks have finished;
* `Crowd.undone_change_lost`, `Crowd.second_change_lost`, `Crowd.learned_types_missed` – why it is
  not more. A load begins once more only once, and not at all if the change is undone by then; and
  the types of attributes are learned from the rows that it shows.
-/

namespace DocQuery

/-- A task of a person. -/
inductive Task where
  /-- It has not begun. -/
  | idle (change : Option Change)
  /-- It has made its change and is about to load. -/
  | ready
  | waiting (l : Load)
  | finished (outcome : LoadOutcome)

namespace Task

def isFinished : Task → Bool
  | .finished _ => true
  | _ => false

/-- The load for which the task waits, if there is one. -/
def loads : Task → List Load
  | .waiting l => [l]
  | _ => []

end Task

/-- A load that was dropped. -/
structure Drop where
  start : LoadStart
  /-- The state at that time. -/
  state : EngineState

/-- The load had begun once more already, or the place and the query at its end are those at its
beginning. -/
def Drop.Excused (d : Drop) : Prop :=
  d.start.mayRepeat = false ∨ d.state.sameInputs d.start.snapshot = true

/-- An engine with the tasks that share it. -/
structure Crowd where
  engine : Engine
  tasks : List Task
  /-- The last load, other than those that were skipped, if it was dropped. -/
  dropped : Option Drop

namespace Crowd

/-- No task has begun. -/
def start (config : EngineConfig) (connection ns : String) (historyLimit : Option Nat)
    (changes : List (Option Change)) : Crowd :=
  ⟨.start config connection ns historyLimit, changes.map .idle, none⟩

/-- What a task does between two waits. -/
inductive Move where
  | change (i : Nat)
  | load (i : Nat)
  /-- The call that a load waits for is answered. -/
  | answer (i : Nat)

/-- The crowd after a task's load has come to its next wait or to its end. -/
def proceed (c : Crowd) (i : Nat) (late : Option Drop) : Engine × LoadProgress → Crowd
  | (engine, .waiting l) => ⟨engine, c.tasks.set i (.waiting l), none⟩
  | (engine, .finished .skipped) => ⟨engine, c.tasks.set i (.finished .skipped), c.dropped⟩
  | (engine, .finished .stale) => ⟨engine, c.tasks.set i (.finished .stale), late⟩
  | (engine, .finished outcome) => ⟨engine, c.tasks.set i (.finished outcome), none⟩

@[simp] theorem proceed_engine (c : Crowd) (i : Nat) (late : Option Drop)
    (r : Engine × LoadProgress) : (c.proceed i late r).engine = r.1 := by
  obtain ⟨e, p⟩ := r
  cases p with
  | waiting l => rfl
  | finished outcome => cases outcome <;> rfl

/-- The crowd after a move; a task that is not there, or not there yet, does nothing. -/
def step (store : Store) (c : Crowd) : Move → Crowd
  | .change i =>
    match c.tasks[i]? with
    | some (.idle none) => { c with tasks := c.tasks.set i .ready }
    | some (.idle (some change)) =>
      { c with engine := c.engine.change change, tasks := c.tasks.set i .ready }
    | _ => c
  | .load i =>
    match c.tasks[i]? with
    | some .ready => c.proceed i none (c.engine.beginLoad .default)
    | _ => c
  | .answer i =>
    match c.tasks[i]? with
    | some (.waiting l) =>
      c.proceed i (some ⟨l.start, c.engine.state⟩) <|
        c.engine.resumeLoad l (store.reply l.start.snapshot.ns (l.request c.engine.config))
    | _ => c

/-- The crowd after a run. -/
def run (store : Store) (c : Crowd) (moves : List Move) : Crowd := moves.foldl (step store) c

@[simp] theorem run_nil (store : Store) (c : Crowd) : c.run store [] = c := rfl

@[simp] theorem run_cons (store : Store) (c : Crowd) (m : Move) (moves : List Move) :
    c.run store (m :: moves) = (c.step store m).run store moves := rfl

open Engine

/-! ### What holds of the engine -/

section Engines

variable {store : Store} {config : EngineConfig} {seen : EngineState → Prop} {e : Engine}

/-- The page under a key is what a fetch returned in a state that was seen. -/
def Cached (store : Store) (config : EngineConfig) (seen : EngineState → Prop) (key : QueryKey)
    (page : CachedPage) : Prop :=
  ∃ s, seen s ∧ s.query.pages.page = 1 ∧ queryKey s 1 = key ∧
    fetch store config s s.filter = .ok (page.documents, page.total)

/-- The engine stands at the first page and has cached what fetches returned. -/
structure Healthy (store : Store) (config : EngineConfig) (seen : EngineState → Prop) (e : Engine) :
    Prop where
  config_eq : e.config = config
  first : e.state.query.pages.page = 1
  cache : e.cache.queries.Holds (Cached store config seen)

/-- **The state shows what a fetch returns**, with the filter as it was compiled in a state that was
seen. -/
def Answered (store : Store) (config : EngineConfig) (seen : EngineState → Prop) (s : EngineState) :
    Prop :=
  ∃ t, seen t ∧ queryKey t 1 = queryKey s 1 ∧ s.Shows (fetch store config s t.filter)

/-- What holds at each wait of a load, and at its end. A load that is dropped may say why. -/
def Rests (store : Store) (config : EngineConfig) (seen : EngineState → Prop) (reason : Prop)
    (s : EngineState) : LoadProgress → Prop
  | .waiting l =>
    l.Sound store config ∧ seen l.start.snapshot ∧ l.start.snapshot.query.pages.page = 1 ∧
      l.start.snapshot.Orderly s ∧ s.inFlight = 1
  | .finished .stale => s.inFlight = 0 ∧ reason
  | .finished .skipped => False
  | .finished _ => s.inFlight = 0 ∧ Answered store config seen s

theorem Healthy.change (h : Healthy store config seen e) (change : Change) :
    Healthy store config seen (e.change change) := by
  obtain ⟨hconfig, hqueries⟩ := e.change_sameStores change
  refine ⟨hconfig.trans h.config_eq, ?_, hqueries ▸ h.cache⟩
  rcases e.change_cases change with heq | ⟨a, ha, heq⟩
  · rw [heq]
    exact h.first
  · rw [heq]
    exact EngineState.page_of_isInput ha h.first

theorem Rests.mono {reason reason' : Prop} {s : EngineState} {p : LoadProgress}
    (h : Rests store config seen reason s p) (hreason : reason → reason') :
    Rests store config seen reason' s p := by
  cases p with
  | waiting l => exact h
  | finished outcome =>
    cases outcome with
    | stale => exact ⟨h.1, hreason h.2⟩
    | _ => exact h

/-! ### The course of a load -/

/-- A load that ends in time with what a fetch returns. -/
theorem rests_endLoad {l : LoadStart} {result : Except Failure FetchedPage} {t : EngineState}
    {reason : Prop} (h : Healthy store config seen e) (hoptions : l.options = .default)
    (hfirst : l.snapshot.query.pages.page = 1)
    (hgen : e.state.generation = l.snapshot.generation)
    (hquestion : e.state.question = l.snapshot.question) (hloads : e.state.inFlight = 1)
    (ht : seen t) (hkey : queryKey t 1 = queryKey l.snapshot 1)
    (hdelivers : Delivers store config l.snapshot t.filter result) :
    Healthy store config seen (e.endLoad l result).1 ∧
      Rests store config seen reason (e.endLoad l result).1.state
        (.finished (e.endLoad l result).2) := by
  obtain ⟨hpage, hkey', hshows⟩ := shows_endLoad hoptions hfirst hgen hquestion hdelivers
  obtain ⟨hconfig, hqueries⟩ : e.SameStores (e.endLoad l result).1 := endLoad_sameStores
  refine ⟨⟨hconfig.trans h.config_eq, hpage, hqueries ▸ h.cache⟩, ?_⟩
  have hanswered : Answered store config seen (e.endLoad l result).1.state :=
    ⟨t, ht, hkey.trans hkey'.symm, hshows⟩
  have hnone : (e.endLoad l result).1.state.inFlight = 0 := by
    rw [endLoad_generation.2, hloads]
  rw [endLoad_of_timely hgen] at hanswered hnone ⊢
  cases result with
  | error f => exact ⟨hnone, hanswered⟩
  | ok p =>
    dsimp only at hanswered hnone ⊢
    cases p.fromCache with
    | true => exact ⟨hnone, hanswered⟩
    | false => exact ⟨hnone, hanswered⟩

/-- **A load that begins** waits, or ends at once with what a fetch returns. -/
theorem rests_beginAttempt {reason : Prop} (h : Healthy store config seen e)
    (hloads : e.state.inFlight = 0) (mayRepeat : Bool)
    (hseen : seen (e.beginAttempt .default mayRepeat).1.state) :
    Healthy store config seen (e.beginAttempt .default mayRepeat).1 ∧
      Rests store config seen reason (e.beginAttempt .default mayRepeat).1.state
        (e.beginAttempt .default mayRepeat).2 := by
  have hentered : Healthy store config seen (e.dispatch .loadStarted) :=
    ⟨h.config_eq, h.first, h.cache⟩
  have hone : (e.dispatch .loadStarted).state.inFlight = 1 := congrArg (· + 1) hloads
  have hfirst : (e.startLoad mayRepeat).snapshot.query.pages.page = 1 := h.first
  rcases beginAttempt_cases hloads mayRepeat with ⟨flaw, hplan, heq⟩ | ⟨plan, e', hplan, rfl, heq⟩
  · -- the load ends in the state in which its filter is compiled: any filter will do
    rw [heq] at hseen ⊢
    rw [h.config_eq] at hplan
    have hdelivers (filter : Option Filter) : Delivers store config (e.startLoad mayRepeat).snapshot
        filter (.error flaw.failure) := fetch_of_plan_error rfl hplan filter
    refine rests_endLoad hentered rfl hfirst rfl rfl hone hseen ?_ (hdelivers _)
    rw [endLoad_of_timely rfl]
    rfl
  · rw [h.config_eq] at hplan
    have hfound : Healthy store config seen
        ((e.dispatch .loadStarted).cachedPage (e.startLoad mayRepeat).key).2 :=
      ⟨hentered.config_eq, hentered.first, hentered.cache.get _ _⟩
    rcases heq with heq | ⟨page, p, hpage, hp, heq⟩
    · rw [heq] at hseen ⊢
      refine ⟨hfound, ⟨rfl, hplan, ?_⟩, hseen, hfirst, .refl _, hone⟩
      rintro total ⟨⟩
    · rw [heq]
      obtain ⟨t, ht, htfirst, hkey, hfetch⟩ := hentered.cache.of_get hpage
      have hkey' : queryKey t 1 = queryKey (e.startLoad mayRepeat).snapshot 1 := by
        rw [hkey, LoadStart.key, page_of_default rfl, hfirst]
      have hdelivers :
          Delivers store config (e.startLoad mayRepeat).snapshot t.filter (.ok p) := by
        rw [hp]
        refine ⟨?_, ?_, Pagination.restore_size _ _⟩
        · rwa [← fetch_congr htfirst hfirst hkey' t.filter]
        · exact (Pagination.restore_page _ _).trans (Pagination.plan_page hplan)
      exact rests_endLoad hfound rfl hfirst rfl rfl hone ht hkey' hdelivers

/-- **A load that ends** shows what a fetch returns, or begins once more, or is dropped. -/
theorem rests_concludeLoad {l : LoadStart} {result : Except Failure FetchedPage}
    (h : Healthy store config seen e) (hoptions : l.options = .default)
    (hfirst : l.snapshot.query.pages.page = 1) (horderly : l.snapshot.Orderly e.state)
    (hloads : e.state.inFlight = 1) (hsnapshot : seen l.snapshot)
    (hdelivers : Delivers store config l.snapshot l.filter result)
    (hseen : seen (e.concludeLoad l result).1.state) :
    Healthy store config seen (e.concludeLoad l result).1 ∧
      Rests store config seen (Drop.Excused ⟨l, e.state⟩) (e.concludeLoad l result).1.state
        (e.concludeLoad l result).2 := by
  by_cases hgen : e.state.generation = l.snapshot.generation
  · have hquestion : e.state.question = l.snapshot.question := by
      rcases horderly with hlt | ⟨-, hquestion⟩
      · omega
      · exact hquestion
    rw [concludeLoad_of_timely hgen]
    exact rests_endLoad h hoptions hfirst hgen hquestion hloads hsnapshot rfl hdelivers
  · have hsettled : Healthy store config seen (e.dispatch .loadSettled) :=
      ⟨h.config_eq, h.first, h.cache⟩
    have hnone : (e.dispatch .loadSettled).state.inFlight = 0 := congrArg (· - 1) hloads
    rw [concludeLoad_of_late hgen, hoptions] at hseen ⊢
    split at hseen
    case isTrue hrepeats =>
      rw [if_pos hrepeats]
      exact rests_beginAttempt hsettled hnone false hseen
    case isFalse hdropped =>
      rw [if_neg hdropped]
      refine ⟨hsettled, hnone, ?_⟩
      rw [Bool.not_eq_true, Bool.and_eq_false_iff, Bool.not_eq_false'] at hdropped
      exact hdropped

/-- **A load that is answered** waits for its next answer, or ends. -/
theorem rests_resumeLoad {l : Load} {reason : Prop} (h : Healthy store config seen e)
    (hl : Rests store config seen reason e.state (.waiting l))
    (hseen : seen (e.resumeLoad l
      (store.reply l.start.snapshot.ns (l.request config))).1.state) :
    Healthy store config seen
        (e.resumeLoad l (store.reply l.start.snapshot.ns (l.request config))).1 ∧
      Rests store config seen (Drop.Excused ⟨l.start, e.state⟩)
        (e.resumeLoad l (store.reply l.start.snapshot.ns (l.request config))).1.state
        (e.resumeLoad l (store.reply l.start.snapshot.ns (l.request config))).2 := by
  obtain ⟨hsound, hsnapshot, hfirst, horderly, hloads⟩ := hl
  rcases hsound.resumeLoad_cases e with ⟨total, heq, hsound'⟩ | ⟨f, hdelivers, heq⟩ |
    ⟨p, next, hdelivers, heq⟩
  · rw [heq]
    exact ⟨h, hsound', hsnapshot, hfirst, horderly, hloads⟩
  · rw [heq] at hseen ⊢
    exact rests_concludeLoad h hsound.options hfirst horderly hloads hsnapshot hdelivers hseen
  · rw [heq] at hseen ⊢
    have hkey : queryKey l.start.snapshot 1 = l.start.key := by
      rw [LoadStart.key, page_of_default hsound.options, hfirst]
    have hcached : Cached store config seen l.start.key ⟨p.documents, p.total, next⟩ :=
      ⟨l.start.snapshot, hsnapshot, hfirst, hkey, hdelivers.1⟩
    have hstored : Healthy store config seen
        (e.cachePage l.start.key ⟨p.documents, p.total, next⟩) :=
      ⟨h.config_eq, h.first, h.cache.insert _ hcached⟩
    exact rests_concludeLoad hstored hsound.options hfirst horderly hloads hsnapshot hdelivers hseen

end Engines

/-! ### The invariant -/

section Invariant

variable {store : Store} {config : EngineConfig} {seen : EngineState → Prop} {c : Crowd}

/-- The loads for which tasks wait. -/
def loads (c : Crowd) : List Load := c.tasks.flatMap Task.loads

/-- **What holds after every move.** -/
structure Inv (store : Store) (config : EngineConfig) (seen : EngineState → Prop) (c : Crowd) :
    Prop where
  healthy : Healthy store config seen c.engine
  state : seen c.engine.state
  /-- At most one load is under way. -/
  inFlight : c.loads = [] ∧ c.engine.state.inFlight = 0 ∨
    ∃ l, c.loads = [l] ∧ Rests store config seen True c.engine.state (.waiting l)
  /-- Somebody will load the current page, or has done so. -/
  progress : (∃ t ∈ c.tasks, t.isFinished = false) ∨ (∃ d, c.dropped = some d ∧ d.Excused) ∨
    Answered store config seen c.engine.state

/-- To replace a task is to replace its load. -/
theorem exists_flatMap_set {tasks : List Task} {i : Nat} {u : Task} (hu : tasks[i]? = some u) :
    ∃ before after, tasks.flatMap Task.loads = before ++ u.loads ++ after ∧
      ∀ t, (tasks.set i t).flatMap Task.loads = before ++ Task.loads t ++ after := by
  induction tasks generalizing i with
  | nil => cases hu
  | cons head tasks ih =>
    cases i with
    | zero =>
      rw [List.getElem?_cons_zero, Option.some.injEq] at hu
      rw [hu]
      exact ⟨[], tasks.flatMap Task.loads, rfl, fun t => rfl⟩
    | succ i =>
      rw [List.getElem?_cons_succ] at hu
      obtain ⟨before, after, htasks, hset⟩ := ih hu
      refine ⟨head.loads ++ before, after, ?_, fun t => ?_⟩
      · rw [List.flatMap_cons, htasks]
        simp only [List.append_assoc]
      · rw [List.set_cons_succ, List.flatMap_cons, hset]
        simp only [List.append_assoc]

theorem mem_set_self {tasks : List Task} {i : Nat} {u : Task} (hu : tasks[i]? = some u)
    (t : Task) : t ∈ tasks.set i t := by
  obtain ⟨hi, -⟩ := List.getElem?_eq_some_iff.mp hu
  exact List.mem_set hi t

/-- Who waits for a load has not finished. -/
theorem exists_unfinished {tasks : List Task} {l : Load} (h : l ∈ tasks.flatMap Task.loads) :
    ∃ t ∈ tasks, t.isFinished = false := by
  obtain ⟨t, ht, hl⟩ := List.mem_flatMap.mp h
  refine ⟨t, ht, ?_⟩
  cases t with
  | finished outcome => cases hl
  | _ => rfl

/-- **A load that comes to its next wait or to its end**, while no other one is under way. -/
theorem inv_proceed {i : Nat} {u : Task} {late : Option Drop} {e : Engine} {p : LoadProgress}
    (hu : c.tasks[i]? = some u) (honly : c.loads = u.loads)
    (h : Healthy store config seen e) (hseen : seen e.state)
    (hrests : Rests store config seen (∃ d, late = some d ∧ d.Excused) e.state p) :
    (c.proceed i late (e, p)).Inv store config seen := by
  obtain ⟨before, after, hloads, hset⟩ := exists_flatMap_set hu
  have hset' (t : Task) : (c.tasks.set i t).flatMap Task.loads = t.loads := by
    have hlength := congrArg List.length (honly.symm.trans hloads)
    rw [List.length_append, List.length_append] at hlength
    have hbefore : before = [] := List.eq_nil_of_length_eq_zero (by omega)
    have hafter : after = [] := List.eq_nil_of_length_eq_zero (by omega)
    rw [hset, hbefore, hafter, List.append_nil, List.nil_append]
  cases p with
  | waiting l =>
    obtain ⟨hsound, hrest⟩ := hrests
    exact ⟨h, hseen, Or.inr ⟨l, hset' _, hsound, hrest⟩, Or.inl ⟨_, mem_set_self hu _, rfl⟩⟩
  | finished outcome =>
    cases outcome with
    | skipped => exact hrests.elim
    | stale => exact ⟨h, hseen, Or.inl ⟨hset' _, hrests.1⟩, Or.inr (Or.inl hrests.2)⟩
    | loaded => exact ⟨h, hseen, Or.inl ⟨hset' _, hrests.1⟩, Or.inr (Or.inr hrests.2)⟩
    | cached => exact ⟨h, hseen, Or.inl ⟨hset' _, hrests.1⟩, Or.inr (Or.inr hrests.2)⟩
    | failed => exact ⟨h, hseen, Or.inl ⟨hset' _, hrests.1⟩, Or.inr (Or.inr hrests.2)⟩

/-- A change, which leaves a load that is under way to its course. -/
theorem Inv.change (h : c.Inv store config seen) {i : Nat} {u : Task} {e : Engine}
    (hu : c.tasks[i]? = some u) (hnone : u.loads = []) (he : Healthy store config seen e)
    (hseen : seen e.state) (hcalm : c.engine.state.Calm e.state) :
    Inv store config seen { c with engine := e, tasks := c.tasks.set i .ready } := by
  obtain ⟨before, after, hloads, hset⟩ := exists_flatMap_set hu
  have hsame : (c.tasks.set i .ready).flatMap Task.loads = c.loads := by
    rw [hset, loads, hloads, hnone]
    rfl
  refine ⟨he, hseen, ?_, Or.inl ⟨.ready, mem_set_self hu _, rfl⟩⟩
  rcases h.inFlight with ⟨hidle, hzero⟩ | ⟨l, hwaits, hsound, hsnapshot, hfirst, horderly, hone⟩
  · exact Or.inl ⟨hsame.trans hidle, hcalm.inFlight.trans hzero⟩
  · exact Or.inr ⟨l, hsame.trans hwaits, hsound, hsnapshot, hfirst,
      horderly.trans hcalm.orderly, hcalm.inFlight.trans hone⟩

/-- A load that finds another one under way is skipped; the other one goes on. -/
theorem Inv.skip (h : c.Inv store config seen) {i : Nat} {u : Task} {l : Load}
    (hu : c.tasks[i]? = some u) (hnone : u.loads = []) (hwaits : c.loads = [l])
    (hrests : Rests store config seen True c.engine.state (.waiting l)) :
    Inv store config seen { c with tasks := c.tasks.set i (.finished .skipped) } := by
  obtain ⟨before, after, hloads, hset⟩ := exists_flatMap_set hu
  have hsame : (c.tasks.set i (.finished .skipped)).flatMap Task.loads = [l] := by
    rw [hset, ← hwaits, loads, hloads, hnone]
    rfl
  have hmem : l ∈ (c.tasks.set i (.finished .skipped)).flatMap Task.loads := by
    rw [hsame]
    exact List.mem_singleton_self l
  exact ⟨h.healthy, h.state, Or.inr ⟨l, hsame, hrests⟩, Or.inl (exists_unfinished hmem)⟩

/-- **A move keeps the invariant.** -/
theorem Inv.step (h : c.Inv store config seen) (m : Move)
    (hseen : seen (c.step store m).engine.state) : (c.step store m).Inv store config seen := by
  cases m with
  | change i =>
    rw [Crowd.step] at hseen ⊢
    cases hu : c.tasks[i]? with
    | none => exact h
    | some u =>
      rw [hu] at hseen
      cases u with
      | idle change =>
        cases change with
        | none => exact h.change hu rfl h.healthy h.state (.refl _)
        | some change =>
          exact h.change hu rfl (h.healthy.change change) hseen (calm_change _ change)
      | _ => exact h
  | load i =>
    rw [Crowd.step] at hseen ⊢
    cases hu : c.tasks[i]? with
    | none => exact h
    | some u =>
      rw [hu] at hseen
      cases u with
      | ready =>
        rcases h.inFlight with ⟨hidle, hzero⟩ | ⟨l, hwaits, hrests⟩
        · dsimp only at hseen
          rw [proceed_engine] at hseen
          obtain ⟨he, hrests⟩ := rests_beginAttempt h.healthy hzero true hseen
          exact inv_proceed hu hidle he hseen hrests
        · have hskipped : c.engine.beginLoad .default = (c.engine, .finished .skipped) := by
            rw [beginLoad, beginAttempt, EngineState.isLoading_eq, hrests.2.2.2.2]
            rfl
          dsimp only
          rw [hskipped]
          exact h.skip hu rfl hwaits hrests
      | _ => exact h
  | answer i =>
    rw [Crowd.step] at hseen ⊢
    cases hu : c.tasks[i]? with
    | none => exact h
    | some u =>
      rw [hu] at hseen
      cases u with
      | waiting l =>
        have hmem : l ∈ c.loads :=
          List.mem_flatMap.mpr ⟨_, List.mem_of_getElem? hu, List.mem_singleton_self l⟩
        rcases h.inFlight with ⟨hidle, -⟩ | ⟨l', hwaits, hrests⟩
        · rw [hidle] at hmem
          cases hmem
        · -- the load that is answered is the only one
          rw [hwaits] at hmem
          obtain rfl := List.mem_singleton.mp hmem
          dsimp only at hseen ⊢
          rw [proceed_engine, h.healthy.config_eq] at hseen
          rw [h.healthy.config_eq]
          obtain ⟨he, hrests⟩ := rests_resumeLoad h.healthy hrests hseen
          refine inv_proceed hu hwaits he hseen (hrests.mono fun hexcused => ⟨_, rfl, hexcused⟩)
      | _ => exact h

/-- **So does a run.** -/
theorem Inv.run (h : c.Inv store config seen) (moves : List Move)
    (hseen : ∀ moves', moves' <+: moves → seen (c.run store moves').engine.state) :
    (c.run store moves).Inv store config seen := by
  induction moves generalizing c with
  | nil => exact h
  | cons m moves ih =>
    have hstep : seen (c.step store m).engine.state :=
      hseen [m] ((List.prefix_cons_inj m).mpr List.nil_prefix)
    refine ih (h.step m hstep) fun moves' hprefix => ?_
    exact hseen (m :: moves') ((List.prefix_cons_inj m).mpr hprefix)

theorem inv_start {connection ns : String} {historyLimit : Option Nat}
    {changes : List (Option Change)} (hsome : changes ≠ [])
    (hseen : seen (start config connection ns historyLimit changes).engine.state) :
    (start config connection ns historyLimit changes).Inv store config seen := by
  refine ⟨⟨rfl, rfl, TtlCache.holds_empty _ _⟩, hseen, Or.inl ⟨?_, rfl⟩, Or.inl ?_⟩
  · rw [loads, start, List.flatMap_map, List.flatMap_eq_nil_iff]
    intro change _
    rfl
  · obtain ⟨change, hchange⟩ := List.exists_mem_of_ne_nil changes hsome
    exact ⟨.idle change, List.mem_map_of_mem hchange, rfl⟩

end Invariant

/-! ### What follows when all tasks have finished -/

/-- **No change is lost, unless its load is dropped.** When all tasks have finished, no load is
under way, and the state shows what a fetch of its page returns, with the filter as it was compiled
in a state of the run that asked for the same page; or the last load was dropped. -/
theorem settled (store : Store) (config : EngineConfig) (connection ns : String)
    (historyLimit : Option Nat) {changes : List (Option Change)} (hsome : changes ≠ [])
    (moves : List Move)
    (hdone : ∀ t ∈ ((start config connection ns historyLimit changes).run store moves).tasks,
      t.isFinished = true) :
    let c := start config connection ns historyLimit changes
    (c.run store moves).engine.state.inFlight = 0 ∧
      (c.run store moves).engine.state.query.pages.page = 1 ∧
      ((∃ moves', moves' <+: moves ∧
          queryKey (c.run store moves').engine.state 1 =
            queryKey (c.run store moves).engine.state 1 ∧
          (c.run store moves).engine.state.Shows
            (fetch store config (c.run store moves).engine.state
              (c.run store moves').engine.state.filter)) ∨
        ∃ d, (c.run store moves).dropped = some d ∧ d.Excused) := by
  intro c
  -- the states of this run are those that are seen
  have hstart : c.Inv store config
      fun s => ∃ moves', moves' <+: moves ∧ (c.run store moves').engine.state = s :=
    inv_start hsome ⟨[], List.nil_prefix, rfl⟩
  have h := hstart.run moves fun moves' hprefix => ⟨moves', hprefix, rfl⟩
  have hfinished : ¬ ∃ t ∈ (c.run store moves).tasks, t.isFinished = false := by
    rintro ⟨t, ht, hnot⟩
    rw [hdone t ht] at hnot
    cases hnot
  refine ⟨?_, h.healthy.first, ?_⟩
  · rcases h.inFlight with ⟨-, hzero⟩ | ⟨l, hwaits, -⟩
    · exact hzero
    · -- who waits for the load has not finished
      have hmem : l ∈ (c.run store moves).loads := by
        rw [hwaits]
        exact List.mem_singleton_self l
      exact absurd (exists_unfinished hmem) hfinished
  · rcases h.progress with hunfinished | hdropped | ⟨t, ⟨moves', hprefix, rfl⟩, hkey, hshows⟩
    · exact absurd hunfinished hfinished
    · exact Or.inr hdropped
    · exact Or.inl ⟨moves', hprefix, hkey, hshows⟩

/-- What is to be seen of a crowd: whether all have finished, the number of loads under way, whether
the last load was dropped, the total, and the total that a fetch returns. -/
def outcome (store : Store) (config : EngineConfig) (c : Crowd) :
    Bool × Nat × Bool × Option Nat × Option Nat :=
  (c.tasks.all Task.isFinished, c.engine.state.inFlight, c.dropped.isSome, c.engine.state.total,
    (fetch store config c.engine.state c.engine.state.filter).toOption.map Prod.snd)

/-- A document with a tag. -/
def tagged : Store :=
  Store.empty.insert "docs" [⟨.int 1, none, none, none, [("tags", .array [.string "a"])]⟩]

/-- The crowd after a run of tasks on the tagged document. -/
def runTagged (changes : List (Option Change)) (moves : List Move) : Crowd :=
  (start .default "local" "docs" none changes).run tagged moves

/-- The order is changed while a load runs, and the load for it is skipped. -/
def changeOnce : List Move :=
  [.change 0, .load 0, .change 1, .load 1, .answer 0, .answer 0, .answer 0, .answer 0]

theorem settled_changeOnce :
    ∃ moves', moves' <+: changeOnce ∧
      (runTagged [none, some (.setSort ⟨"id", .desc⟩)] changeOnce).engine.state.Shows
        (fetch tagged .default
          (runTagged [none, some (.setSort ⟨"id", .desc⟩)] changeOnce).engine.state
          (runTagged [none, some (.setSort ⟨"id", .desc⟩)] moves').engine.state.filter) := by
  have hrun : (runTagged [none, some (.setSort ⟨"id", .desc⟩)] changeOnce).outcome tagged .default =
      (true, 0, false, some 1, some 1) := by cbv
  have hall : (runTagged [none, some (.setSort ⟨"id", .desc⟩)] changeOnce).tasks.all
      Task.isFinished = true := congrArg Prod.fst hrun
  have hkept : (runTagged [none, some (.setSort ⟨"id", .desc⟩)] changeOnce).dropped.isSome =
      false := congrArg (fun r => r.2.2.1) hrun
  have hdone := List.all_eq_true.mp hall
  obtain ⟨-, -, ⟨moves', hprefix, -, hshows⟩ | ⟨d, hd, -⟩⟩ :=
    settled tagged .default "local" "docs" none (List.cons_ne_nil none _) changeOnce hdone
  · refine ⟨moves', hprefix, ?_⟩
    rwa [runTagged, runTagged]
  · rw [runTagged, hd] at hkept
    cases hkept

/-- All tasks have finished, and the state does not show what a fetch returns. -/
def Misses (store : Store) (config : EngineConfig) (c : Crowd) : Prop :=
  (∀ t ∈ c.tasks, t.isFinished = true) ∧ c.engine.state.inFlight = 0 ∧
    ¬ c.engine.state.Shows (fetch store config c.engine.state c.engine.state.filter)

theorem misses_of_outcome {store : Store} {config : EngineConfig} {c : Crowd} {dropped : Bool}
    {total : Option Nat} {n : Nat} (h : c.outcome store config = (true, 0, dropped, total, some n))
    (hne : total ≠ some n) : c.Misses store config := by
  have hdone := congrArg Prod.fst h
  have htotal : c.engine.state.total = total := congrArg (fun r => r.2.2.2.1) h
  have hfetch := congrArg (fun r => r.2.2.2.2) h
  refine ⟨List.all_eq_true.mp hdone, congrArg (fun r => r.2.1) h, fun hshows => hne ?_⟩
  rw [← htotal]
  exact hshows.total_eq hfetch

/-- The order is changed while a load runs, and once more while it runs for the second time. -/
def changeTwice : List Move :=
  [.change 0, .load 0, .change 1, .load 1, .answer 0, .answer 0, .change 2, .load 2, .answer 0,
    .answer 0]

/-- The order is changed and changed back while a load runs. -/
def changeBack : List Move :=
  [.change 0, .load 0, .change 1, .load 1, .change 2, .load 2, .answer 0, .answer 0]

/-- **A change that is undone is lost.** A load that is late does not begin once more if the
question at its end is the one at its beginning. Its rows are dropped all the same, and the loads of
those who made the changes were skipped; so nothing is shown. -/
theorem undone_change_lost :
    Misses tagged .default (runTagged
      [none, some (.setSort ⟨"id", .desc⟩), some (.setSort ⟨"id", .asc⟩)] changeBack) := by
  have hrun : (runTagged [none, some (.setSort ⟨"id", .desc⟩), some (.setSort ⟨"id", .asc⟩)]
      changeBack).outcome tagged .default = (true, 0, true, none, some 1) := by cbv
  exact misses_of_outcome hrun (by decide)

/-- **So is a change during the second course of a load**, which does not begin for a third time. -/
theorem second_change_lost :
    Misses tagged .default (runTagged
      [none, some (.setSort ⟨"id", .desc⟩), some (.setSort ⟨"tags", .asc⟩)] changeTwice) := by
  have hrun : (runTagged [none, some (.setSort ⟨"id", .desc⟩), some (.setSort ⟨"tags", .asc⟩)]
      changeTwice).outcome tagged .default = (true, 0, true, none, some 1) := by cbv
  exact misses_of_outcome hrun (by decide)

/-- **The rows that are shown can teach what a filter means.** Then the state does not show what a
fetch returns with the filter as it is compiled now. -/
theorem learned_types_missed :
    Misses tagged .default (runTagged [some (.addFilter "tags" .notEquals "a")]
      [.change 0, .load 0, .answer 0, .answer 0]) := by
  have hrun : (runTagged [some (.addFilter "tags" .notEquals "a")]
      [.change 0, .load 0, .answer 0, .answer 0]).outcome tagged .default =
        (true, 0, false, some 1, some 0) := by cbv
  exact misses_of_outcome hrun (by decide)

end Crowd

end DocQuery
