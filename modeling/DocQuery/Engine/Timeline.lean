import DocQuery.Engine.Client

/-!
# Jobs in time

Several jobs may be under way at once. Time moves only when everything waits: it jumps to the next
moment at which a job is due. All that happens between two such moments is one step.

* `DocQuery.Timeline` – a client with the jobs that wait and the time;
* `Timeline.call` – runs a job while its caller waits for it;
* `Timeline.spawn`, `Timeline.join` – begins a job in the background, and waits for its result;
* `Timeline.search` – sets the search text; **a load follows when typing has paused**, and only the
  last one of several does;
* `Timeline.sleep` – lets time pass.

A load that is cancelled keeps its place in the state until its caller waits for something.
-/

namespace DocQuery

/-- Who waits for a job. -/
inductive Owner where
  | caller
  /-- The load that follows a search. -/
  | search
  | task (n : Nat)
  deriving DecidableEq, Repr

/-- What a job is waiting for. -/
inductive Awaited where
  /-- A pause in typing, after which a load begins. -/
  | pause
  | answer (job : Job)

/-- A job that waits for a point in time. -/
structure Waiting where
  owner : Owner
  due : Nat
  awaited : Awaited

/-- A client with the jobs that wait and the time in milliseconds. -/
structure Timeline where
  client : Client
  now : Nat
  waiting : List Waiting
  /-- Results of jobs for which nobody has waited yet. -/
  results : List (Owner × JobResult)
  /-- The number of the next task. -/
  nextTask : Nat
  /-- Cancelled loads that still count as under way. -/
  unsettled : Nat

namespace Timeline

def start (client : Client) : Timeline := ⟨client, 0, [], [], 0, 0⟩

/-- Changes the engine. -/
def modify (t : Timeline) (f : Engine → Engine) : Timeline := { t with client := t.client.modify f }

/-! ### Single steps -/

/-- Enters a job: it waits, or its result is kept. -/
def enter (t : Timeline) (owner : Owner) (step : Client × Progress) : Timeline :=
  let (client, p) := step.1.advance step.2
  match p with
  | .finished r => { t with client, results := t.results ++ [(owner, r)] }
  | .waiting job =>
    let due := t.now + client.backend.latency.getD 0
    { t with client, waiting := t.waiting ++ [⟨owner, due, .answer job⟩] }

/-- Goes on with a job whose time has come. -/
def fire (t : Timeline) (w : Waiting) : Timeline :=
  let t := { t with now := max t.now w.due, waiting := t.waiting.filter fun v => v.owner ≠ w.owner }
  match w.awaited with
  | .pause => t.enter w.owner (t.client.beginLoad .default)
  | .answer job => t.enter w.owner (t.client.answer job)

/-- The earlier one of two jobs, of simultaneous ones the first. -/
def earlier (a b : Waiting) : Waiting := if b.due < a.due then b else a

/-- The job that is due next. -/
def next? (t : Timeline) : Option Waiting :=
  match t.waiting with
  | [] => none
  | w :: rest => some (rest.foldl earlier w)

/-- Settles the loads that were cancelled. -/
def settle (t : Timeline) : Timeline :=
  { (List.range t.unsettled).foldl (fun t _ => t.modify fun e => e.dispatch .loadSettled) t with
    unsettled := 0 }

/-- The most steps that the waiting jobs can take. -/
def maxSteps (t : Timeline) : Nat := (Client.maxCalls + 1) * t.waiting.length

/-! ### Waiting -/

/-- The result of a job, if it has ended. -/
def result? (t : Timeline) (owner : Owner) : Option JobResult :=
  (t.results.find? fun r => r.1 = owner).map Prod.snd

/-- Takes at most `n` steps, until a job has ended. -/
def awaitFor : Nat → Owner → Timeline → Timeline
  | 0, _, t => t
  | n + 1, owner, t =>
    if (t.result? owner).isSome then t
    else match t.next? with
      | some w => awaitFor n owner (t.fire w)
      | none => t

/-- Takes the result of a job. -/
def take (t : Timeline) (owner : Owner) : Option JobResult × Timeline :=
  (t.result? owner, { t with results := t.results.filter fun r => r.1 ≠ owner })

/-- Waits for a job and takes its result; none if there is no such job. -/
def await (t : Timeline) (owner : Owner) : Option JobResult × Timeline :=
  if (t.result? owner).isSome then t.take owner
  else if t.waiting.any fun w => w.owner = owner then
    let t := t.settle
    (awaitFor t.maxSteps owner t).take owner
  else (none, t)

/-- Takes at most `n` steps up to a point in time. -/
def passFor : Nat → Nat → Timeline → Timeline
  | 0, _, t => t
  | n + 1, time, t =>
    match t.next? with
    | some w => if w.due ≤ time then passFor n time (t.fire w) else t
    | none => t

/-- Lets time pass. No time at all is no wait. -/
def sleep (t : Timeline) (ms : Nat) : Timeline :=
  if ms = 0 then t
  else
    let time := t.now + ms
    let t := t.settle
    { passFor t.maxSteps time t with now := time }

/-! ### Jobs -/

/-- **Runs a job** while its caller waits for the result. -/
def call (t : Timeline) (begin_ : Client → Client × Progress) : Option JobResult × Timeline :=
  (t.enter .caller (begin_ t.client)).await .caller

/-- **Begins a job in the background** and returns its number. It has come to its first wait when
this returns. -/
def spawn (t : Timeline) (begin_ : Client → Client × Progress) : Nat × Timeline :=
  let t := t.settle
  let n := t.nextTask
  (n, { t with nextTask := n + 1 }.enter (.task n) (begin_ t.client))

/-- Waits for a job in the background; none if there is no such job or its result was taken. -/
def join (t : Timeline) (n : Nat) : Option JobResult × Timeline := t.await (.task n)

/-! ### Searching -/

/-- Cancels the load that follows a search, if there is one. A load that has sent a call stays to be
settled. -/
def cancelSearch (t : Timeline) : Timeline :=
  let unsettled := (t.waiting.filter fun w =>
    w.owner = .search && (match w.awaited with | .pause => false | .answer _ => true)).length
  { t with
    waiting := t.waiting.filter fun w => w.owner ≠ .search
    results := t.results.filter fun r => r.1 ≠ .search
    unsettled := t.unsettled + unsettled }

/-- **Sets the search text**, which is searched for when typing has paused. -/
def search (t : Timeline) (text : String) : Timeline :=
  let t := (t.modify fun e => e.setSearch text).cancelSearch
  let due := t.now + t.client.engine.config.searchDebounceMs
  { t with waiting := t.waiting ++ [⟨.search, due, .pause⟩] }

/-- Goes to another namespace; a search that waits is dropped. -/
def setNamespace (t : Timeline) (ns : String) : Timeline :=
  t.cancelSearch.modify fun e => e.setNamespace ns

end Timeline

end DocQuery
