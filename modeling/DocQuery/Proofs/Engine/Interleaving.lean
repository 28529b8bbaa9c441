import DocQuery.Proofs.Engine.Generation
import Mathlib.Data.List.Perm.Basic

/-!
# Any number of loads in any order

Loads that are under way may end in any order, and between the beginning of a load and its end
anything may happen: changes of the question, other loads, discoveries, writes. **A load that is
applied is applied to the question it was begun for.**

* `DocQuery.Traffic` – an engine with the loads under way and a record of those that were applied;
* `Traffic.Move`, `Traffic.step` – what may happen between two moments of waiting;
* `Traffic.Ordered` – the invariant: between the beginning of a load and the present the question
  stays within a generation, and no two loads have the same generation;
* `Traffic.applied_timely` – **what follows for every run**;
* `Traffic.reaches_beginAttempt`, `Traffic.reaches_resumeLoad` – the engine's own steps of a load
  are runs of such moves.

The pages that a load finds, and the samples and numbers that discoveries and writes are answered
with, are arbitrary here: nothing depends on where they come from.
-/

namespace DocQuery

/-- An engine and its loads. -/
structure Traffic where
  engine : Engine
  /-- The loads under way. -/
  loads : List LoadStart
  /-- The loads that were applied, newest first, each with the state to which it was. -/
  applied : List (EngineState × LoadStart)

/-- The load that goes on waiting, if there is one. -/
def LoadProgress.starts : LoadProgress → List LoadStart
  | .waiting l => [l.start]
  | .finished _ => []

namespace Traffic

/-- Nothing has been loaded. -/
def start (config : EngineConfig) (connection ns : String) (historyLimit : Option Nat) : Traffic :=
  ⟨.start config connection ns historyLimit, [], []⟩

/-- What happens between two moments of waiting. -/
inductive Move where
  | change (c : Change)
  | clearError
  | clearCache
  /-- Begins a load, unless another one is under way and it is not forced. -/
  | enter (options : LoadOptions) (mayRepeat : Bool)
  | lookUp (key : QueryKey)
  | cachePage (key : QueryKey) (page : CachedPage)
  /-- Ends a load. -/
  | finish (i : Nat) (result : Except Failure FetchedPage)
  /-- Gives a load up. -/
  | abandon (i : Nat)
  | beginDiscovery (force : Bool)
  | finishDiscovery (d : Discovery) (answer : Except Failure QueryResponse)
  | finishWrite (w : PendingWrite) (answer : Except Failure Nat)

/-- A load that begins whatever is under way. -/
def Move.isForced : Move → Bool
  | .enter options _ => options.force
  | _ => false

/-- The traffic after a move. -/
def step (s : Traffic) : Move → Traffic
  | .change c => { s with engine := s.engine.change c }
  | .clearError => { s with engine := s.engine.clearError }
  | .clearCache => { s with engine := s.engine.clearCache }
  | .enter options mayRepeat =>
    if s.engine.state.isLoading && !options.force then s
    else
      let (engine, l) := s.engine.enterLoad options mayRepeat
      { s with engine, loads := s.loads ++ [l] }
  | .lookUp key => { s with engine := (s.engine.cachedPage key).2 }
  | .cachePage key page => { s with engine := s.engine.cachePage key page }
  | .finish i result =>
    match s.loads[i]? with
    | none => s
    | some l =>
      let (engine, outcome) := s.engine.endLoad l result
      ⟨engine, s.loads.eraseIdx i,
        if outcome = .stale then s.applied else (s.engine.state, l) :: s.applied⟩
  | .abandon i =>
    match s.loads[i]? with
    | none => s
    | some _ =>
      { s with engine := s.engine.dispatch .loadSettled, loads := s.loads.eraseIdx i }
  | .beginDiscovery force => { s with engine := (s.engine.beginDiscovery force).1 }
  | .finishDiscovery d answer => { s with engine := (s.engine.resumeDiscovery d answer).1 }
  | .finishWrite w answer => { s with engine := s.engine.resumeWrite w answer }

/-- The traffic after a run. -/
def run (s : Traffic) (moves : List Move) : Traffic := moves.foldl step s

@[simp] theorem run_nil (s : Traffic) : s.run [] = s := rfl

@[simp] theorem run_cons (s : Traffic) (m : Move) (moves : List Move) :
    s.run (m :: moves) = (s.step m).run moves := rfl

@[simp] theorem run_append (s : Traffic) (moves moves' : List Move) :
    s.run (moves ++ moves') = (s.run moves).run moves' :=
  List.foldl_append

/-! ### The invariant -/

/-- The generations of all loads that were begun and not dropped. -/
def generations (s : Traffic) : List Nat :=
  (s.loads ++ s.applied.map Prod.snd).map fun l => l.snapshot.generation

/-- **The order of loads.** -/
structure Ordered (s : Traffic) : Prop where
  inFlight : s.engine.state.inFlight = s.loads.length
  /-- Since a load was begun, the question has stayed within each generation. -/
  orderly : ∀ l ∈ s.loads, l.snapshot.Orderly s.engine.state
  /-- No generation lies ahead. -/
  generation_le : ∀ g ∈ s.generations, g ≤ s.engine.state.generation
  nodup : s.generations.Nodup
  /-- What was applied was asked for. -/
  question : ∀ a ∈ s.applied, a.1.question = a.2.snapshot.question

theorem ordered_start (config : EngineConfig) (connection ns : String)
    (historyLimit : Option Nat) : (start config connection ns historyLimit).Ordered where
  inFlight := rfl
  orderly := fun l hl => by cases hl
  generation_le := fun g hg => by cases hg
  nodup := List.nodup_nil
  question := fun a ha => by cases ha

variable {s : Traffic} {l : LoadStart}

/-- A calm change of the engine keeps the order. -/
theorem Ordered.of_calm (h : s.Ordered) {e : Engine} (hcalm : s.engine.state.Calm e.state) :
    Ordered { s with engine := e } where
  inFlight := hcalm.inFlight.trans h.inFlight
  orderly := fun l hl => (h.orderly l hl).trans hcalm.orderly
  generation_le := fun g hg => Nat.le_trans (h.generation_le g hg) hcalm.orderly.generation_le
  nodup := h.nodup
  question := h.question

/-- A load that begins in a new generation is the only one of that generation. -/
theorem Ordered.enter (h : s.Ordered) {e : Engine}
    (hlt : s.engine.state.generation < e.state.generation) (hsnapshot : l.snapshot = e.state)
    (hloads : e.state.inFlight = s.engine.state.inFlight + 1) :
    Ordered ⟨e, s.loads ++ [l], s.applied⟩ := by
  -- the list of generations gains one member, which is larger than all others
  have hperm : (generations ⟨e, s.loads ++ [l], s.applied⟩).Perm
      (l.snapshot.generation :: s.generations) := by
    have hmiddle : (s.loads ++ [l] ++ s.applied.map Prod.snd).Perm
        (l :: (s.loads ++ s.applied.map Prod.snd)) := by
      rw [List.append_assoc]
      exact List.perm_middle
    exact hmiddle.map _
  refine ⟨?_, ?_, ?_, ?_, h.question⟩
  · rw [hloads, h.inFlight, List.length_append]
    rfl
  · intro l' hl'
    rcases List.mem_append.mp hl' with hl' | hl'
    · exact Or.inl (Nat.lt_of_le_of_lt (h.orderly l' hl').generation_le hlt)
    · rw [List.mem_singleton.mp hl', hsnapshot]
      exact .refl _
  · intro g hg
    rcases List.mem_cons.mp (hperm.mem_iff.mp hg) with rfl | hg
    · exact Nat.le_of_eq (congrArg EngineState.generation hsnapshot)
    · exact Nat.le_trans (h.generation_le g hg) (Nat.le_of_lt hlt)
  · refine hperm.nodup_iff.mpr (List.nodup_cons.mpr ⟨fun hmem => ?_, h.nodup⟩)
    have hle := h.generation_le _ hmem
    rw [hsnapshot] at hle
    exact absurd hlt (Nat.not_lt_of_le hle)

/-- The generations of all loads but one that is under way. -/
def otherGenerations (s : Traffic) (i : Nat) : List Nat :=
  (s.loads.eraseIdx i ++ s.applied.map Prod.snd).map fun l => l.snapshot.generation

theorem generations_perm {i : Nat} (hl : s.loads[i]? = some l) :
    s.generations.Perm (l.snapshot.generation :: s.otherGenerations i) := by
  obtain ⟨hi, rfl⟩ := List.getElem?_eq_some_iff.mp hl
  have hloads : (s.loads ++ s.applied.map Prod.snd).Perm
      (s.loads[i] :: (s.loads.eraseIdx i ++ s.applied.map Prod.snd)) :=
    (List.getElem_cons_eraseIdx_perm hi).symm.append_right _
  exact hloads.map _

/-- A load that ends is one load less. -/
theorem Ordered.inFlight_eraseIdx (h : s.Ordered) {i : Nat} (hl : s.loads[i]? = some l) :
    s.engine.state.inFlight - 1 = (s.loads.eraseIdx i).length := by
  obtain ⟨hi, rfl⟩ := List.getElem?_eq_some_iff.mp hl
  rw [h.inFlight, List.length_eraseIdx_of_lt hi]

/-- A load that is given up, or dropped because it is late, leaves the others as they are. -/
theorem Ordered.drop (h : s.Ordered) {i : Nat} (hl : s.loads[i]? = some l) :
    Ordered ⟨s.engine.dispatch .loadSettled, s.loads.eraseIdx i, s.applied⟩ := by
  have hperm := generations_perm hl
  refine ⟨h.inFlight_eraseIdx hl, ?_, ?_, ?_, h.question⟩
  · intro l' hl'
    exact h.orderly l' (List.mem_of_mem_eraseIdx hl')
  · intro g hg
    exact h.generation_le g (hperm.mem_iff.mpr (List.mem_cons_of_mem _ hg))
  · exact (List.nodup_cons.mp (hperm.nodup_iff.mp h.nodup)).2

/-- **A load that is applied is applied to the question it was begun for**, and in its generation no
other load is under way. -/
theorem Ordered.apply (h : s.Ordered) {i : Nat} (hl : s.loads[i]? = some l)
    (hgen : s.engine.state.generation = l.snapshot.generation) {e : Engine}
    (he : e.state.generation = s.engine.state.generation)
    (hloads : e.state.inFlight = s.engine.state.inFlight - 1) :
    Ordered ⟨e, s.loads.eraseIdx i, (s.engine.state, l) :: s.applied⟩ := by
  have hperm := generations_perm hl
  -- the load only changes sides in the list of generations
  have hnew : (generations ⟨e, s.loads.eraseIdx i, (s.engine.state, l) :: s.applied⟩).Perm
      (l.snapshot.generation :: s.otherGenerations i) :=
    List.perm_middle.map _
  refine ⟨hloads.trans (h.inFlight_eraseIdx hl), ?_, ?_, ?_, ?_⟩
  · intro l' hl'
    -- the other load has an earlier generation, in which nothing can be applied any more
    have hother : l'.snapshot.generation ≠ l.snapshot.generation := by
      intro heq
      have hmem : l.snapshot.generation ∈ s.otherGenerations i :=
        heq ▸ List.mem_map_of_mem (List.mem_append_left _ hl')
      exact (List.nodup_cons.mp (hperm.nodup_iff.mp h.nodup)).1 hmem
    have hle := (h.orderly l' (List.mem_of_mem_eraseIdx hl')).generation_le
    refine Or.inl ?_
    change _ < e.state.generation
    omega
  · intro g hg
    change g ≤ e.state.generation
    rw [he]
    exact h.generation_le g (hperm.mem_iff.mpr (hnew.mem_iff.mp hg))
  · exact hnew.nodup_iff.mpr (hperm.nodup_iff.mp h.nodup)
  · intro a ha
    rcases List.mem_cons.mp ha with rfl | ha
    · rcases h.orderly l (List.mem_of_getElem? hl) with hlt | ⟨-, hquestion⟩
      · omega
      · exact hquestion
    · exact h.question a ha

/-- **A move keeps the order.** -/
theorem Ordered.step (h : s.Ordered) (m : Move) : (s.step m).Ordered := by
  cases m with
  | change c => exact h.of_calm (s.engine.calm_change c)
  | clearError => exact h.of_calm (EngineState.calm_of_eq rfl rfl rfl)
  | clearCache => exact h.of_calm (.refl _)
  | enter options mayRepeat =>
    rw [Traffic.step]
    split
    · exact h
    · exact h.enter (s.engine.generation_lt_enterLoad options mayRepeat)
        (s.engine.enterLoad_snapshot options mayRepeat)
        (s.engine.enterLoad_inFlight options mayRepeat)
  | lookUp key => exact h.of_calm (.refl _)
  | cachePage key page => exact h.of_calm (.refl _)
  | finish i result =>
    rw [Traffic.step]
    split
    case h_1 => exact h
    case h_2 l hl =>
      by_cases hgen : s.engine.state.generation = l.snapshot.generation
      · have hstale : (s.engine.endLoad l result).2 ≠ .stale :=
          fun hstale => Engine.endLoad_eq_stale_iff.mp hstale hgen
        obtain ⟨he, hloads⟩ : (s.engine.endLoad l result).1.state.generation = _ ∧ _ :=
          Engine.endLoad_generation
        dsimp only
        rw [if_neg hstale]
        exact h.apply hl hgen he hloads
      · rw [Engine.endLoad_of_late hgen]
        exact h.drop hl
  | abandon i =>
    rw [Traffic.step]
    split
    case h_1 => exact h
    case h_2 l hl => exact h.drop hl
  | beginDiscovery force => exact h.of_calm (s.engine.calm_beginDiscovery force)
  | finishDiscovery d answer => exact h.of_calm (s.engine.calm_resumeDiscovery d answer)
  | finishWrite w answer =>
    refine h.of_calm ?_
    rw [Engine.resumeWrite_state]
    exact .refl _

/-- **So does a run.** -/
theorem Ordered.run (h : s.Ordered) (moves : List Move) : (s.run moves).Ordered := by
  induction moves generalizing s with
  | nil => exact h
  | cons m moves ih => exact ih (h.step m)

/-! ### The engine's own steps -/

/-- Traffic comes to an engine and its loads by a run, in which a load is forced only if `force`
is. -/
def Reaches (s : Traffic) (force : Bool) (e : Engine) (loads : List LoadStart) : Prop :=
  ∃ moves, (∀ m ∈ moves, m.isForced = true → force = true) ∧ (s.run moves).engine = e ∧
    (s.run moves).loads = loads

theorem Reaches.trans {force : Bool} {e e' : Engine} {loads loads' : List LoadStart}
    (h : s.Reaches force e loads) (h' : ∀ applied, Reaches ⟨e, loads, applied⟩ force e' loads') :
    s.Reaches force e' loads' := by
  obtain ⟨moves, hforce, rfl, rfl⟩ := h
  obtain ⟨moves', hforce', he, hloads⟩ := h' (s.run moves).applied
  refine ⟨moves ++ moves', ?_, ?_, ?_⟩
  · intro m hm
    rcases List.mem_append.mp hm with hm | hm
    · exact hforce m hm
    · exact hforce' m hm
  · rw [run_append]
    exact he
  · rw [run_append]
    exact hloads

/-- One move. -/
theorem reaches_step {force : Bool} (m : Move) (hforce : m.isForced = true → force = true) :
    s.Reaches force (s.step m).engine (s.step m).loads := by
  refine ⟨[m], ?_, rfl, rfl⟩
  intro m' hm'
  rw [List.mem_singleton.mp hm']
  exact hforce

theorem reaches_finish {force : Bool} {i : Nat} (hl : s.loads[i]? = some l)
    (result : Except Failure FetchedPage) :
    s.Reaches force (s.engine.endLoad l result).1 (s.loads.eraseIdx i) := by
  have h : s.Reaches force (s.step (.finish i result)).engine (s.step (.finish i result)).loads :=
    reaches_step (.finish i result) fun h => by cases h
  rw [step, hl] at h
  exact h

theorem reaches_self {force : Bool} : s.Reaches force s.engine s.loads :=
  ⟨[], by simp, rfl, rfl⟩

theorem reaches_lookUp {force : Bool} (l : LoadStart) (plan : PagePlan) :
    s.Reaches force (s.engine.lookUp l plan).2 s.loads := by
  cases h : l.options.force with
  | true =>
    rw [Engine.lookUp, if_pos h]
    exact reaches_self
  | false =>
    rw [Engine.lookUp_eq h]
    exact reaches_step (.lookUp l.key) fun h => by cases h

/-- **The beginning of a load is a run.** -/
theorem reaches_beginAttempt (s : Traffic) (options : LoadOptions) (mayRepeat : Bool) :
    s.Reaches options.force (s.engine.beginAttempt options mayRepeat).1
      (s.loads ++ (s.engine.beginAttempt options mayRepeat).2.starts) := by
  rw [Engine.beginAttempt]
  split
  case isTrue =>
    rw [LoadProgress.starts, List.append_nil]
    exact reaches_self
  case isFalse hnot =>
    have henter : s.Reaches options.force _ _ := reaches_step (.enter options mayRepeat) id
    rw [step, if_neg hnot] at henter
    have hlast {e : Engine} {l : LoadStart} {applied : List (EngineState × LoadStart)}
        (result : Except Failure FetchedPage) :
        Reaches ⟨e, s.loads ++ [l], applied⟩ options.force (e.endLoad l result).1
          (s.loads ++ []) := by
      have hl : (s.loads ++ [l])[s.loads.length]? = some l := List.getElem?_concat_length
      have herase : (s.loads ++ [l]).eraseIdx s.loads.length = s.loads ++ [] := by
        rw [List.eraseIdx_append_of_length_le (Nat.le_refl _), Nat.sub_self]
        rfl
      rw [← herase]
      exact reaches_finish (s := ⟨e, s.loads ++ [l], applied⟩) hl result
    generalize s.engine.enterLoad options mayRepeat = entered at henter ⊢
    obtain ⟨e, l⟩ := entered
    dsimp only at henter ⊢
    cases l.plan e.config with
    | error flaw => exact henter.trans fun applied => hlast (.error flaw.failure)
    | ok plan =>
      have hlook : s.Reaches options.force (e.lookUp l plan).2 (s.loads ++ [l]) :=
        henter.trans fun applied => reaches_lookUp (s := ⟨e, s.loads ++ [l], applied⟩) l plan
      dsimp only
      generalize e.lookUp l plan = found at hlook ⊢
      obtain ⟨_ | page, e'⟩ := found
      · exact hlook
      · dsimp only at hlook ⊢
        exact hlook.trans fun applied => hlast (.ok page)

theorem reaches_concludeLoad (s : Traffic) {i : Nat} (hl : s.loads[i]? = some l)
    (result : Except Failure FetchedPage) :
    s.Reaches l.options.force (s.engine.concludeLoad l result).1
      (s.loads.eraseIdx i ++ (s.engine.concludeLoad l result).2.starts) := by
  have hfinish : s.Reaches l.options.force _ _ := reaches_finish hl result
  have hdone : s.loads.eraseIdx i ++ [] = s.loads.eraseIdx i := List.append_nil _
  rw [Engine.concludeLoad]
  dsimp only
  generalize s.engine.endLoad l result = ended at hfinish ⊢
  obtain ⟨e, outcome⟩ := ended
  cases outcome with
  | stale =>
    dsimp only
    split
    · exact hfinish.trans fun applied =>
        reaches_beginAttempt ⟨e, s.loads.eraseIdx i, applied⟩
          { LoadOptions.default with force := l.options.force } false
    · rw [LoadProgress.starts, hdone]
      exact hfinish
  | _ =>
    rw [LoadProgress.starts, hdone]
    exact hfinish

/-- **The course of a load is a run.** -/
theorem reaches_resumeLoad (s : Traffic) {l : Load} {i : Nat} (hl : s.loads[i]? = some l.start)
    (answer : Except Failure QueryResponse) :
    ∃ loads, s.Reaches l.start.options.force (s.engine.resumeLoad l answer).1 loads ∧
      loads.Perm (s.loads.eraseIdx i ++ (s.engine.resumeLoad l answer).2.starts) := by
  have hconclude (result : Except Failure FetchedPage) := s.reaches_concludeLoad hl result
  rw [Engine.resumeLoad.eq_def]
  cases answer with
  | error f => exact ⟨_, hconclude (.error f), .refl _⟩
  | ok response =>
    cases hstage : l.stage with
    | counting =>
      dsimp only
      cases response.count with
      | error flaw => exact ⟨_, hconclude (.error flaw.failure), .refl _⟩
      | ok total =>
        -- nothing has happened but that the total is known
        refine ⟨s.loads, reaches_self, ?_⟩
        obtain ⟨hi, hl⟩ := List.getElem?_eq_some_iff.mp hl
        have hperm := List.getElem_cons_eraseIdx_perm hi
        rw [hl] at hperm
        exact hperm.symm.trans (List.perm_append_singleton _ _).symm
    | fetching total =>
      have hcommit : s.Reaches l.start.options.force
          (s.engine.commitRows l total response.rows).1 s.loads :=
        reaches_step (.cachePage l.start.key _) fun h => by cases h
      dsimp only
      generalize s.engine.commitRows l total response.rows = committed at hcommit ⊢
      obtain ⟨e, page⟩ := committed
      exact ⟨_, hcommit.trans fun applied =>
        reaches_concludeLoad ⟨e, s.loads, applied⟩ hl (.ok page), .refl _⟩

/-! ### What follows for every run -/

/-- Without force, a load begins only when none is under way. -/
theorem run_loads_le (h : s.Ordered) (hloads : s.loads.length ≤ 1) {moves : List Move}
    (hforced : ∀ m ∈ moves, m.isForced = false) : (s.run moves).loads.length ≤ 1 := by
  induction moves generalizing s with
  | nil => exact hloads
  | cons m moves ih =>
    refine ih (h.step m) ?_ fun m' hm' => hforced m' (List.mem_cons_of_mem m hm')
    have hm := hforced m List.mem_cons_self
    cases m with
    | enter options mayRepeat =>
      rw [step]
      split
      case isTrue => exact hloads
      case isFalse hnot =>
        have hforce : options.force = false := hm
        rw [hforce, Bool.not_false, Bool.and_true, EngineState.isLoading_eq, decide_eq_true_eq,
          h.inFlight] at hnot
        rw [List.length_append, List.length_singleton]
        omega
    | finish i result =>
      rw [step]
      split
      · exact hloads
      · exact Nat.le_trans (List.length_eraseIdx_le _ _) hloads
    | abandon i =>
      rw [step]
      split
      · exact hloads
      · exact Nat.le_trans (List.length_eraseIdx_le _ _) hloads
    | _ => exact hloads

/-- **No answer is applied to a question it was not fetched for.** In every run, each load that was
applied was applied to a state with the place and the query of the state in which it began; no
generation was applied twice; and if no load is forced, at most one is under way. -/
theorem applied_timely (config : EngineConfig) (connection ns : String)
    (historyLimit : Option Nat) (moves : List Move) :
    (∀ a ∈ ((start config connection ns historyLimit).run moves).applied,
      a.1.connection = a.2.snapshot.connection ∧ a.1.ns = a.2.snapshot.ns ∧
        a.1.query = a.2.snapshot.query) ∧
    (((start config connection ns historyLimit).run moves).applied.map
      fun a => a.2.snapshot.generation).Nodup ∧
    ((∀ m ∈ moves, m.isForced = false) →
      ((start config connection ns historyLimit).run moves).engine.state.inFlight ≤ 1) := by
  have hstart := ordered_start config connection ns historyLimit
  have h := hstart.run moves
  refine ⟨?_, ?_, ?_⟩
  · intro a ha
    have hquestion := h.question a ha
    exact ⟨congrArg Prod.fst hquestion, congrArg (fun q => q.2.1) hquestion,
      congrArg (fun q => q.2.2) hquestion⟩
  · have hnodup := h.nodup
    rw [generations, List.map_append, List.map_map] at hnodup
    exact (List.nodup_append.mp hnodup).2.1
  · intro hforced
    rw [h.inFlight]
    exact run_loads_le hstart (Nat.zero_le 1) hforced

/-- A load that another one overtakes is dropped, and the other one is applied. -/
def overtaken : List Move :=
  [.enter .default true, .enter .forced true, .finish 1 (.ok ⟨[], 0, .start 50, false⟩),
    .finish 0 (.ok ⟨[], 0, .start 50, false⟩)]

/-- Of two loads that are not forced the second one does not begin. -/
def unforced : List Move := [.enter .default true, .enter .default true]

theorem applied_timely_overtaken :
    (∃ a, ((start .default "local" "docs" none).run overtaken).applied = [a] ∧
      a.2.options = .forced ∧ a.1.query = a.2.snapshot.query) ∧
    ((start .default "local" "docs" none).run unforced).engine.state.inFlight ≤ 1 := by
  constructor
  · obtain ⟨happlied, -, -⟩ := applied_timely .default "local" "docs" none overtaken
    refine ⟨_, rfl, rfl, ?_⟩
    exact (happlied _ List.mem_cons_self).2.2
  · obtain ⟨-, -, hunforced⟩ := applied_timely .default "local" "docs" none unforced
    exact hunforced (by decide)

end Traffic

end DocQuery
