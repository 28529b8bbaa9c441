/-!
# Debouncing

A burst of calls is answered by one run of a task, after a time in which no further call came.

* `DocQuery.Debouncer` – the tasks that were started, each as the events it still has to produce
  with the times at which they are due, and the handle of one of them;
* `Debouncer.schedule` – **starts a task and aborts the one that was started before it**;
* `Debouncer.cancel` – aborts the task; `Debouncer.advance` – lets time pass.

The handle of a task is kept when the task is finished, until the next call takes it away. Time is
counted in milliseconds.
-/

namespace DocQuery

/-- Tasks of which at most one is still at work. -/
structure Debouncer (ε : Type) where
  /-- The time that has to pass before a task starts. -/
  delay : Nat
  /-- The tasks in the order in which they were started, as what they still have to do. A task that
  is finished or was aborted has nothing to do. -/
  tasks : List (List (Nat × ε))
  /-- The place of the task whose handle is kept. -/
  handle : Option Nat

namespace Debouncer

variable {ε : Type}

/-- No task. -/
def idle (delay : Nat) : Debouncer ε := ⟨delay, [], none⟩

/-- The times of events that follow one another, each after a wait. -/
def dueTimes (now : Nat) : List (Nat × ε) → List (Nat × ε)
  | [] => []
  | (wait, e) :: rest => (now + wait, e) :: dueTimes (now + wait) rest

/-- The tasks after the one with a handle was aborted. -/
def abort (tasks : List (List (Nat × ε))) : Option Nat → List (List (Nat × ε))
  | some i => tasks.set i []
  | none => tasks

/-- A task is at work: it waits or runs. -/
def isLive (d : Debouncer ε) (i : Nat) : Bool := (d.tasks[i]?).any fun task => !task.isEmpty

/-- Starts a task, which is given by its events and the wait before each of them, and keeps its
handle in the place of the last one. The first wait begins when the delay is over. -/
def schedule (d : Debouncer ε) (now : Nat) (task : List (Nat × ε)) : Debouncer ε :=
  let started := d.tasks ++ [dueTimes (now + d.delay) task]
  { d with tasks := abort started d.handle, handle := some d.tasks.length }

/-- The task with the handle is at work. -/
def isPending (d : Debouncer ε) : Bool := d.handle.any d.isLive

/-- Aborts the task with the handle, which is taken away, and tells whether it was at work. -/
def cancel (d : Debouncer ε) : Bool × Debouncer ε :=
  (d.isPending, { d with tasks := abort d.tasks d.handle, handle := none })

/-- Lets time pass up to `now`, and returns the events that this brings, task by task. -/
def advance (d : Debouncer ε) (now : Nat) : List ε × Debouncer ε :=
  (d.tasks.flatMap fun task => (task.takeWhile fun e => e.1 ≤ now).map Prod.snd,
    { d with tasks := d.tasks.map fun task => task.dropWhile fun e => e.1 ≤ now })

end Debouncer

end DocQuery
