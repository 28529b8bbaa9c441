import DocQuery.Debounce
import Mathlib.Data.List.Basic
import Mathlib.Data.List.Induction

/-!
# Of a burst of calls only the last one runs

Tasks are started one after the other, and each of them would run when its time has come. That only
one of them is at work at a time is nothing that the list of tasks shows by itself: it is so because
a call aborts the task whose handle is kept, and that is always the last one. Its handle may be that
of a task which is finished, and then nothing is aborted.

* `Debouncer.Usage` – a debouncer in use; `Usage.run` – a run of calls and waits
  (`Debouncer.Act`);
* `Debouncer.Due`, `Debouncer.Waits` – what is to become of a task, by the calls and waits alone:
  its time comes before the next call, or has still to come;
* `Debouncer.Reflects` – the invariant, which every act keeps (`Reflects.act`);
* `Usage.run_debounced` – **in every run a task runs if and only if its time comes before the next
  call, at most once**, and at most one task waits (`Usage.Debounced`).
-/

namespace DocQuery.Debouncer

/-! ### Runs -/

/-- What is done with a debouncer. -/
inductive Act where
  /-- Schedules a task that is finished as soon as it starts. -/
  | schedule
  | cancel
  /-- Lets time pass. -/
  | wait (ms : Nat)
  deriving DecidableEq

/-- A debouncer in use. Tasks are numbered as they are scheduled, and all that a task does is to
leave its number. -/
structure Usage where
  debouncer : Debouncer Nat
  now : Nat
  /-- The tasks that have run. -/
  ran : List Nat

namespace Usage

/-- A debouncer that was not used. -/
def start (delay now : Nat) : Usage := ⟨.idle delay, now, []⟩

/-- The debouncer after an act. -/
def act (u : Usage) : Act → Usage
  | .schedule => { u with debouncer := u.debouncer.schedule u.now [(0, u.debouncer.tasks.length)] }
  | .cancel => { u with debouncer := u.debouncer.cancel.2 }
  | .wait ms =>
    let (ran, debouncer) := u.debouncer.advance (u.now + ms)
    ⟨debouncer, u.now + ms, u.ran ++ ran⟩

/-- The debouncer after a run of acts. -/
def run (u : Usage) (acts : List Act) : Usage := acts.foldl act u

end Usage

/-! ### What is to become of a task -/

/-- Only time passes. -/
def Quiet (acts : List Act) : Prop := ∀ a ∈ acts, ∃ ms, a = .wait ms

/-- The time that passes before the next call. -/
def quietTime : List Act → Nat
  | .wait ms :: rest => ms + quietTime rest
  | _ => 0

/-- The call that schedules the task `k`, and what is done before and after it. -/
def ScheduledIn (acts : List Act) (k : Nat) (before after : List Act) : Prop :=
  acts = before ++ .schedule :: after ∧ before.count .schedule = k

/-- The time of a task comes before the next call. -/
def Due (delay : Nat) (acts : List Act) (k : Nat) : Prop :=
  ∃ before after, ScheduledIn acts k before after ∧ delay ≤ quietTime after

/-- There was no call after that of the task, and its time has still to come. -/
def Waits (delay : Nat) (acts : List Act) (k : Nat) : Prop :=
  ∃ before after, ScheduledIn acts k before after ∧ Quiet after ∧ quietTime after < delay

/-- The time of the task that waits comes within the next milliseconds. -/
def Ripens (delay : Nat) (acts : List Act) (ms k : Nat) : Prop :=
  ∃ before after, ScheduledIn acts k before after ∧ Quiet after ∧ quietTime after < delay ∧
    delay ≤ quietTime after + ms

section Acts

variable {delay : Nat} {acts before after before' after' : List Act} {a : Act} {j k ms : Nat}

theorem quiet_concat : Quiet (acts ++ [a]) ↔ Quiet acts ∧ ∃ ms, a = .wait ms := by
  simp only [Quiet, List.forall_mem_append, List.forall_mem_singleton]

theorem count_of_quiet (h : Quiet acts) : acts.count .schedule = 0 := by
  refine List.count_eq_zero.mpr fun mem => ?_
  obtain ⟨ms, same⟩ := h _ mem
  cases same

/-- As long as only time passes, all of it counts. -/
theorem quietTime_concat_of_quiet (h : Quiet acts) :
    quietTime (acts ++ [.wait ms]) = quietTime acts + ms := by
  induction acts with
  | nil => exact (Nat.zero_add ms).symm
  | cons a acts ih =>
    obtain ⟨first, rfl⟩ := h a List.mem_cons_self
    rw [List.cons_append, quietTime, ih fun b mem => h b (List.mem_cons_of_mem _ mem), quietTime]
    exact (Nat.add_assoc ..).symm

/-- After a call nothing counts. -/
theorem quietTime_concat_of_not_quiet (h : ¬Quiet (acts ++ [a])) :
    quietTime (acts ++ [a]) = quietTime acts := by
  induction acts with
  | nil =>
    cases a with
    | wait ms => exact absurd (fun b mem => ⟨ms, List.mem_singleton.mp mem⟩) h
    | schedule => rfl
    | cancel => rfl
  | cons b acts ih =>
    cases b with
    | wait ms =>
      refine congrArg (ms + ·) (ih fun quiet => h fun c mem => ?_)
      rcases List.mem_cons.mp mem with rfl | mem
      · exact ⟨ms, rfl⟩
      · exact quiet c mem
    | schedule => rfl
    | cancel => rfl

theorem quietTime_le_concat : quietTime acts ≤ quietTime (acts ++ [a]) := by
  by_cases h : Quiet (acts ++ [a])
  · obtain ⟨quiet, ms, rfl⟩ := quiet_concat.mp h
    rw [quietTime_concat_of_quiet quiet]
    exact Nat.le_add_right _ ms
  · exact Nat.le_of_eq (quietTime_concat_of_not_quiet h).symm

/-- Either the last act is the call of a task, or it comes after this call. -/
theorem scheduledIn_concat : ScheduledIn (acts ++ [a]) k before after ↔
    (a = .schedule ∧ acts.count .schedule = k ∧ before = acts ∧ after = []) ∨
      ∃ rest, after = rest ++ [a] ∧ ScheduledIn acts k before rest := by
  unfold ScheduledIn
  constructor
  · rintro ⟨split, number⟩
    rcases List.eq_nil_or_concat' after with rfl | ⟨rest, last, rfl⟩
    · obtain ⟨rfl, same⟩ := List.append_inj' split rfl
      exact .inl ⟨(List.cons.inj same).1, number, rfl, rfl⟩
    · rw [← List.cons_append, ← List.append_assoc] at split
      obtain ⟨same, last⟩ := List.append_inj' split rfl
      exact .inr ⟨rest, by rw [(List.cons.inj last).1], same, number⟩
  · rintro (⟨rfl, number, rfl, rfl⟩ | ⟨rest, rfl, rfl, number⟩)
    · exact ⟨rfl, number⟩
    · exact ⟨by rw [List.append_assoc, List.cons_append], number⟩

/-- The number of a task determines its call. -/
theorem ScheduledIn.unique (h : ScheduledIn acts k before after)
    (h' : ScheduledIn acts k before' after') : after = after' := by
  induction before generalizing acts k before' with
  | nil =>
    obtain ⟨rfl, rfl⟩ := h
    obtain ⟨split, number⟩ := h'
    cases before' with
    | nil => exact (List.cons.inj split).2
    | cons b before' =>
      rw [← (List.cons.inj split).1, List.count_cons_self] at number
      exact absurd number (Nat.succ_ne_zero _)
  | cons b before ih =>
    obtain ⟨rfl, rfl⟩ := h
    obtain ⟨split, number⟩ := h'
    cases before' with
    | nil =>
      rw [(List.cons.inj split).1, List.count_cons_self] at number
      exact absurd number.symm (Nat.succ_ne_zero _)
    | cons b' before' =>
      obtain ⟨rfl, tails⟩ := List.cons.inj split
      rw [List.count_cons, List.count_cons] at number
      exact ih ⟨rfl, rfl⟩ ⟨tails, Nat.add_right_cancel number⟩

theorem ScheduledIn.lt (h : ScheduledIn acts k before after) : k < acts.count .schedule := by
  obtain ⟨rfl, rfl⟩ := h
  rw [List.count_append, List.count_cons_self]
  omega

/-- After the call of the last task there are no others. -/
theorem ScheduledIn.count (h : ScheduledIn acts k before after) (quiet : Quiet after) :
    acts.count .schedule = k + 1 := by
  obtain ⟨rfl, rfl⟩ := h
  rw [List.count_append, List.count_cons_self, count_of_quiet quiet]

/-- At most one task waits, that of the last call. -/
theorem Waits.unique (h : Waits delay acts j) (h' : Waits delay acts k) : j = k := by
  obtain ⟨before, after, scheduled, quiet, -⟩ := h
  obtain ⟨before', after', scheduled', quiet', -⟩ := h'
  exact Nat.add_right_cancel ((scheduled.count quiet).symm.trans (scheduled'.count quiet'))

/-- A task that has run does not wait. -/
theorem Due.not_waits (h : Due delay acts k) : ¬Waits delay acts k := by
  rintro ⟨before', after', scheduled', -, early⟩
  obtain ⟨before, after, scheduled, due⟩ := h
  rw [← scheduled.unique scheduled'] at early
  exact absurd due (Nat.not_le_of_lt early)

theorem Due.lt (h : Due delay acts k) : k < acts.count .schedule := by
  obtain ⟨before, after, scheduled, -⟩ := h
  exact scheduled.lt

theorem Ripens.waits (h : Ripens delay acts ms k) : Waits delay acts k := by
  obtain ⟨before, after, scheduled, quiet, early, -⟩ := h
  exact ⟨before, after, scheduled, quiet, early⟩

/-! ### One more act -/

theorem Due.concat (h : Due delay acts k) : Due delay (acts ++ [a]) k := by
  obtain ⟨before, after, scheduled, due⟩ := h
  exact ⟨before, after ++ [a], scheduledIn_concat.mpr (.inr ⟨after, rfl, scheduled⟩),
    Nat.le_trans due quietTime_le_concat⟩

/-- A call brings the time of no task. -/
theorem due_concat_call (pos : 0 < delay) (call : ∀ ms, a ≠ .wait ms) :
    Due delay (acts ++ [a]) k ↔ Due delay acts k := by
  refine ⟨?_, .concat⟩
  rintro ⟨before, after, there, due⟩
  rcases scheduledIn_concat.mp there with ⟨-, -, -, rfl⟩ | ⟨rest, rfl, scheduled⟩
  · exact absurd (Nat.lt_of_lt_of_le pos due) (Nat.lt_irrefl 0)
  · have loud : ¬Quiet (rest ++ [a]) := fun quiet => by
      obtain ⟨-, ms, same⟩ := quiet_concat.mp quiet
      exact call ms same
    exact ⟨before, rest, scheduled, quietTime_concat_of_not_quiet loud ▸ due⟩

/-- A wait may bring the time of the task that waits. -/
theorem due_concat_wait : Due delay (acts ++ [.wait ms]) k ↔
    Due delay acts k ∨ Ripens delay acts ms k := by
  constructor
  · rintro ⟨before, after, there, due⟩
    rcases scheduledIn_concat.mp there with ⟨same, -⟩ | ⟨rest, rfl, scheduled⟩
    · cases same
    · by_cases early : quietTime rest < delay
      · have whole : Quiet (rest ++ [.wait ms]) := by
          by_contra loud
          rw [quietTime_concat_of_not_quiet loud] at due
          exact absurd due (Nat.not_le_of_lt early)
        have quiet := (quiet_concat.mp whole).1
        rw [quietTime_concat_of_quiet quiet] at due
        exact .inr ⟨before, rest, scheduled, quiet, early, due⟩
      · exact .inl ⟨before, rest, scheduled, Nat.le_of_not_lt early⟩
  · rintro (due | ⟨before, after, scheduled, quiet, -, due⟩)
    · exact due.concat
    · rw [← quietTime_concat_of_quiet quiet] at due
      exact ⟨before, after ++ [.wait ms], scheduledIn_concat.mpr (.inr ⟨after, rfl, scheduled⟩),
        due⟩

/-- After a cancellation no task waits. -/
theorem not_waits_cancel : ¬Waits delay (acts ++ [.cancel]) k := by
  rintro ⟨before, after, there, quiet, -⟩
  rcases scheduledIn_concat.mp there with ⟨same, -⟩ | ⟨rest, rfl, -⟩
  · cases same
  · obtain ⟨-, ms, same⟩ := quiet_concat.mp quiet
    cases same

/-- A task that waits after a wait has waited before, and its time has not come in between. -/
theorem Waits.of_concat_wait (h : Waits delay (acts ++ [.wait ms]) k) :
    Waits delay acts k ∧ ¬Ripens delay acts ms k := by
  refine ⟨?_, fun ripe => (due_concat_wait.mpr (.inr ripe)).not_waits h⟩
  obtain ⟨before, after, there, quiet, early⟩ := h
  rcases scheduledIn_concat.mp there with ⟨same, -⟩ | ⟨rest, rfl, scheduled⟩
  · cases same
  · exact ⟨before, rest, scheduled, (quiet_concat.mp quiet).1,
      Nat.lt_of_le_of_lt quietTime_le_concat early⟩

end Acts

/-! ### Tasks at work -/

section Tasks

variable {delay now n due e i : Nat} {handle : Option Nat}

/-- As many tasks, and nothing left to do. -/
def spent (n : Nat) : List (List (Nat × Nat)) := List.replicate n []

theorem length_spent : (spent n).length = n := List.length_replicate

theorem spent_succ : spent n ++ [[]] = spent (n + 1) := List.replicate_succ'.symm

theorem isLive_spent : isLive ⟨delay, spent n, handle⟩ i = false := by
  rw [isLive, spent, List.getElem?_replicate]
  split <;> rfl

/-- After tasks that have nothing left to do the one behind them is the only one at work. -/
theorem isLive_waiting :
    isLive ⟨delay, spent n ++ [[(due, e)]], handle⟩ i = true ↔ i = n := by
  rw [isLive]
  rcases Nat.lt_trichotomy i n with lt | rfl | gt
  · rw [List.getElem?_append_left (by rwa [length_spent])]
    have dead : isLive ⟨delay, spent n, handle⟩ i = false := isLive_spent
    rw [isLive] at dead
    rw [dead]
    exact iff_of_false Bool.false_ne_true (Nat.ne_of_lt lt)
  · rw [List.getElem?_append_right (Nat.le_of_eq length_spent), length_spent, Nat.sub_self]
    exact iff_of_true rfl rfl
  · rw [List.getElem?_eq_none (by rw [List.length_append, length_spent]; exact gt)]
    exact iff_of_false Bool.false_ne_true (Nat.ne_of_gt gt)

/-- The handle of a task that is finished aborts nothing. -/
theorem abort_spent (h : ∀ i ∈ handle, i < n) (more : List (List (Nat × Nat))) :
    abort (spent n ++ more) handle = spent n ++ more := by
  cases handle with
  | none => rfl
  | some i =>
    have lt : i < n := h i rfl
    rw [abort, List.set_append_left _ _ (by rwa [length_spent]), spent, List.set_replicate_self]

/-- The handle of the last task aborts it. -/
theorem abort_waiting (more : List (List (Nat × Nat))) :
    abort (spent n ++ [(due, e)] :: more) (some n) = spent (n + 1) ++ more := by
  rw [abort, List.set_append_right _ _ (Nat.le_of_eq length_spent), length_spent, Nat.sub_self,
    List.set_cons_zero, ← spent_succ, List.append_assoc]
  rfl

theorem advance_spent :
    advance ⟨delay, spent n, handle⟩ now = ([], ⟨delay, spent n, handle⟩) := by
  simp [advance, spent]

/-- A task that waits runs as soon as it is due. -/
theorem advance_waiting :
    advance ⟨delay, spent n ++ [[(due, e)]], handle⟩ now =
      if due ≤ now then ([e], ⟨delay, spent (n + 1), handle⟩)
      else ([], ⟨delay, spent n ++ [[(due, e)]], handle⟩) := by
  split <;> rename_i h <;> simp [advance, spent, h, List.replicate_succ']

end Tasks

/-! ### The invariant -/

/-- **What the tasks are**, by the acts so far: either all of them are spent, or only the last one
is not, which then waits and has its handle kept. -/
inductive Standing (delay : Nat) (acts : List Act) : Debouncer Nat → Nat → Prop
  | settled {handle : Option Nat} {now : Nat} (nothing : ∀ k, ¬Waits delay acts k)
      (earlier : ∀ i ∈ handle, i < acts.count .schedule) :
      Standing delay acts ⟨delay, spent (acts.count .schedule), handle⟩ now
  | waiting {now due k : Nat} {before after : List Act}
      (scheduled : ScheduledIn acts k before after) (quiet : Quiet after)
      (early : quietTime after < delay)
      (time : now + delay = due + quietTime after) :
      Standing delay acts ⟨delay, spent k ++ [[(due, k)]], some k⟩ now

/-- A debouncer is as the acts so far require. -/
structure Reflects (delay : Nat) (acts : List Act) (u : Usage) : Prop where
  standing : Standing delay acts u.debouncer u.now
  ran_iff : ∀ k, k ∈ u.ran ↔ Due delay acts k
  ordered : u.ran.Pairwise (· < ·)

section Steps

variable {delay now k : Nat} {acts : List Act} {d : Debouncer Nat} {u : Usage}

/-- A debouncer knows how many tasks there were. -/
theorem Standing.length (h : Standing delay acts d now) :
    d.tasks.length = acts.count .schedule := by
  cases h with
  | settled => exact length_spent
  | waiting scheduled quiet =>
    rw [scheduled.count quiet, List.length_append, length_spent]
    rfl

/-- The task at work is the one that waits. -/
theorem Standing.isLive_iff (h : Standing delay acts d now) :
    d.isLive k = true ↔ Waits delay acts k := by
  cases h with
  | settled nothing =>
    rw [isLive_spent]
    exact iff_of_false Bool.false_ne_true (nothing k)
  | waiting scheduled quiet early =>
    rw [isLive_waiting]
    have waits : Waits delay acts _ := ⟨_, _, scheduled, quiet, early⟩
    exact ⟨fun same => same ▸ waits, fun h => h.unique waits⟩

/-- The handle is that of the task at work, if there is one. -/
theorem Standing.isPending_iff (h : Standing delay acts d now) :
    d.isPending = true ↔ ∃ k, d.isLive k = true := by
  cases h with
  | @settled handle =>
    cases handle <;> simp [isPending, isLive_spent]
  | waiting scheduled quiet early =>
    refine iff_of_true ?_ ⟨_, isLive_waiting.mpr rfl⟩
    exact isLive_waiting.mpr rfl

/-- A new task waits, and whatever waited before is aborted. -/
theorem Standing.schedule (pos : 0 < delay) (h : Standing delay acts d now) :
    Standing delay (acts ++ [.schedule]) (d.schedule now [(0, d.tasks.length)]) now := by
  have fresh : Standing delay (acts ++ [.schedule]) ⟨delay, spent (acts.count .schedule) ++
      [[(now + delay, acts.count .schedule)]], some (acts.count .schedule)⟩ now :=
    .waiting ⟨rfl, rfl⟩ nofun pos rfl
  have number := h.length
  cases h with
  | settled nothing earlier =>
    rw [Debouncer.schedule, abort_spent earlier, number]
    exact fresh
  | waiting scheduled quiet =>
    rw [Debouncer.schedule, List.append_assoc, List.singleton_append, abort_waiting, number,
      ← scheduled.count quiet]
    exact fresh

/-- After a cancellation nothing waits. -/
theorem Standing.cancel (h : Standing delay acts d now) :
    Standing delay (acts ++ [.cancel]) d.cancel.2 now := by
  have number : (acts ++ [Act.cancel]).count .schedule = acts.count .schedule := by
    rw [List.count_append]
    rfl
  have empty : Standing delay (acts ++ [.cancel])
      ⟨delay, spent ((acts ++ [Act.cancel]).count .schedule), none⟩ now :=
    .settled (fun _ => not_waits_cancel) nofun
  rw [number] at empty
  cases h with
  | settled nothing earlier =>
    have same := abort_spent earlier []
    rw [List.append_nil] at same
    rw [Debouncer.cancel, same]
    exact empty
  | waiting scheduled quiet =>
    rw [Debouncer.cancel, abort_waiting, List.append_nil, ← scheduled.count quiet]
    exact empty

/-- After a wait the task has run if its time has come, and waits on if not. -/
theorem Standing.wait (ms : Nat) (h : Standing delay acts d now) :
    Standing delay (acts ++ [.wait ms]) (d.advance (now + ms)).2 (now + ms) ∧
      (((d.advance (now + ms)).1 = [] ∧ ∀ k, ¬Ripens delay acts ms k) ∨
        ∃ k, (d.advance (now + ms)).1 = [k] ∧ Ripens delay acts ms k) := by
  have number : (acts ++ [Act.wait ms]).count .schedule = acts.count .schedule := by
    rw [List.count_append]
    rfl
  cases h with
  | settled nothing earlier =>
    rw [advance_spent, ← number]
    refine ⟨.settled (fun k waits => nothing k waits.of_concat_wait.1) ?_,
      .inl ⟨rfl, fun k ripe => nothing k ripe.waits⟩⟩
    rwa [number]
  | @waiting now due k before after scheduled quiet early time =>
    have waits : Waits delay acts k := ⟨before, after, scheduled, quiet, early⟩
    rw [advance_waiting]
    split
    case isTrue come =>
      have ripe : Ripens delay acts ms k := ⟨before, after, scheduled, quiet, early, by omega⟩
      have nothing (j : Nat) : ¬Waits delay (acts ++ [.wait ms]) j := fun h =>
        h.of_concat_wait.2 (h.of_concat_wait.1.unique waits ▸ ripe)
      refine ⟨?_, .inr ⟨k, rfl, ripe⟩⟩
      rw [← scheduled.count quiet, ← number]
      refine .settled nothing ?_
      rw [number, scheduled.count quiet]
      exact fun i same => Option.mem_some_iff.mp same ▸ Nat.lt_succ_self k
    case isFalse later =>
      have time' : now + ms + delay = due + quietTime (after ++ [.wait ms]) := by
        rw [quietTime_concat_of_quiet quiet]
        omega
      have early' : quietTime (after ++ [.wait ms]) < delay := by omega
      have scheduled' : ScheduledIn (acts ++ [.wait ms]) k before (after ++ [.wait ms]) :=
        scheduledIn_concat.mpr (.inr ⟨after, rfl, scheduled⟩)
      have quiet' : Quiet (after ++ [.wait ms]) := quiet_concat.mpr ⟨quiet, ms, rfl⟩
      have still : Waits delay (acts ++ [.wait ms]) k := ⟨before, _, scheduled', quiet', early'⟩
      refine ⟨.waiting scheduled' quiet' early' time', .inl ⟨rfl, fun j ripe => ?_⟩⟩
      exact still.of_concat_wait.2 (ripe.waits.unique waits ▸ ripe)

/-- **Every act keeps a debouncer as the acts require.** -/
theorem Reflects.act (pos : 0 < delay) (h : Reflects delay acts u) (a : Act) :
    Reflects delay (acts ++ [a]) (u.act a) := by
  cases a with
  | schedule =>
    exact ⟨h.standing.schedule pos,
      fun k => (h.ran_iff k).trans (due_concat_call (a := .schedule) pos nofun).symm, h.ordered⟩
  | cancel =>
    exact ⟨h.standing.cancel,
      fun k => (h.ran_iff k).trans (due_concat_call (a := .cancel) pos nofun).symm, h.ordered⟩
  | wait ms =>
    obtain ⟨standing, ⟨none, unripe⟩ | ⟨k, one, ripe⟩⟩ := h.standing.wait ms
    · refine ⟨standing, fun j => ?_, ?_⟩
      · rw [due_concat_wait, or_iff_left (unripe j), ← h.ran_iff]
        simp only [Usage.act, none, List.append_nil]
      · simpa only [Usage.act, none, List.append_nil] using h.ordered
    · refine ⟨standing, fun j => ?_, ?_⟩
      · have same : Ripens delay acts ms j ↔ j = k :=
          ⟨fun h => h.waits.unique ripe.waits, fun same => same ▸ ripe⟩
        rw [due_concat_wait, same, ← h.ran_iff]
        simp only [Usage.act, one, List.mem_append, List.mem_singleton]
      · have lower (j : Nat) (mem : j ∈ u.ran) : j < k := by
          have due := (h.ran_iff j).mp mem
          obtain ⟨before, after, scheduled, quiet, -⟩ := ripe.waits
          have bound := scheduled.count quiet ▸ due.lt
          have ne : j ≠ k := fun same => due.not_waits (same ▸ ripe.waits)
          omega
        simp only [Usage.act, one]
        exact List.pairwise_append.mpr ⟨h.ordered, List.pairwise_singleton _ _,
          fun j mem i last => List.mem_singleton.mp last ▸ lower j mem⟩

theorem reflects_start (delay now : Nat) : Reflects delay [] (.start delay now) where
  standing := .settled (by rintro k ⟨before, after, ⟨split, -⟩, -⟩; simp at split) nofun
  ran_iff k := by
    refine iff_of_false List.not_mem_nil ?_
    rintro ⟨before, after, ⟨split, -⟩, -⟩
    simp at split
  ordered := List.Pairwise.nil

/-- After every run a debouncer is as the acts require. -/
theorem Reflects.run (pos : 0 < delay) (now : Nat) (acts : List Act) :
    Reflects delay acts ((Usage.start delay now).run acts) := by
  induction acts using List.reverseRecOn with
  | nil => exact reflects_start delay now
  | append_singleton acts a ih =>
    rw [Usage.run, List.foldl_append]
    exact ih.act pos a

end Steps

/-! ### What a debouncer promises -/

/-- **What is to hold at every moment**, by the acts so far. -/
structure Usage.Debounced (delay : Nat) (acts : List Act) (u : Usage) : Prop where
  /-- No task runs twice, and tasks run in the order of their calls. -/
  ran_once : u.ran.Pairwise (· < ·)
  /-- A task runs exactly if its time comes before the next call. -/
  ran_iff : ∀ k, k ∈ u.ran ↔ Due delay acts k
  /-- A task is at work exactly if there was no call after its own and its time has still to
  come. -/
  isLive_iff : ∀ k, u.debouncer.isLive k = true ↔ Waits delay acts k
  isLive_unique : ∀ j k, u.debouncer.isLive j = true → u.debouncer.isLive k = true → j = k
  isPending_iff : u.debouncer.isPending = true ↔ ∃ k, u.debouncer.isLive k = true
  /-- A cancellation leaves no task at work. -/
  isLive_cancel : ∀ k, u.debouncer.cancel.2.isLive k = false
  /-- It answers that there was a task exactly if it takes one away. -/
  cancel_iff : u.debouncer.cancel.1 = true ↔
    ∃ k, u.debouncer.isLive k = true ∧ u.debouncer.cancel.2.isLive k = false

/-- **Only the last call of a burst has an effect**: in every run of calls, cancellations and waits,
a task runs exactly if its time comes before the next call, and at every moment at most one task is
at work, of which `isPending` and `cancel` tell. -/
theorem Usage.run_debounced {delay : Nat} (pos : 0 < delay) (now : Nat) (acts : List Act) :
    ((start delay now).run acts).Debounced delay acts := by
  have reflects := Reflects.run pos now acts
  have standing := reflects.standing
  have aborted (k : Nat) : ((start delay now).run acts).debouncer.cancel.2.isLive k = false := by
    rw [Bool.eq_false_iff, ne_eq, standing.cancel.isLive_iff]
    exact not_waits_cancel
  exact {
    ran_once := reflects.ordered
    ran_iff := reflects.ran_iff
    isLive_iff := fun k => standing.isLive_iff
    isLive_unique := fun j k hj hk =>
      (standing.isLive_iff.mp hj).unique (standing.isLive_iff.mp hk)
    isPending_iff := standing.isPending_iff
    isLive_cancel := aborted
    cancel_iff := by
      simp only [aborted, and_true]
      exact standing.isPending_iff }

/-- A task that is replaced before its time, one that runs and whose handle stays, one that is
cancelled, and one that waits. -/
def burst : List Act :=
  [.schedule, .wait 5, .schedule, .wait 20, .schedule, .wait 19, .cancel, .wait 30, .schedule,
    .wait 10]

theorem run_debounced_burst : 0 < 20 ∧ Due 20 burst 1 ∧ ¬Due 20 burst 0 ∧ ¬Due 20 burst 2 ∧
    Waits 20 burst 3 := by
  have kept := Usage.run_debounced (by decide : 0 < 20) 0 burst
  exact ⟨by decide, (kept.ran_iff 1).mp (by decide), (kept.ran_iff 0).not.mp (by decide),
    (kept.ran_iff 2).not.mp (by decide), (kept.isLive_iff 3).mp rfl⟩

end DocQuery.Debouncer
