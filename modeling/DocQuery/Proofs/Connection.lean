import DocQuery.Connection
import Mathlib.Data.List.Basic

/-!
# Attempts to connect are bounded

A connection counts an attempt when it begins and forgets the count when one succeeds. So what it
holds can be read off the outcomes of the attempts since the last reset, whichever calls were made in
between and whatever the factory did: they are as many as are counted and none succeeded, or the last
one and only that one did.

* `Connection.Usage` – a connection in use, which keeps those outcomes; `Usage.run` – a run of calls
  (`Connection.Call`), among them some whose caller went away;
* `Connection.Reflects` – the invariant, which every call keeps (`Reflects.call`);
* `Usage.run_bounded` – **in every run the factory is called no more often than the limit allows**, and
  not at all once it has succeeded or the limit is reached (`Usage.Bounded`).
-/

namespace DocQuery.Connection

variable {α σ : Type}

/-! ### Runs of calls -/

/-- What is asked of a connection. -/
inductive Call where
  | get
  /-- The caller of `get` goes away while an attempt is under way. -/
  | abandon
  | reset

/-- A connection in use. -/
structure Usage (α σ : Type) where
  connection : Connection α
  /-- What the factory works on. -/
  state : σ
  /-- The outcomes of the attempts since the last reset; unknown where the caller went away. -/
  outcomes : List (Option (Except Failure α))

namespace Usage

/-- A connection for which no attempt was made. -/
def start (id : String) (maxAttempts : Nat) (s : σ) : Usage α σ := ⟨.start id maxAttempts, s, []⟩

/-- The factory, with its outcome added to a record. -/
def recorded (connect : σ → Except Failure α × σ) (s : σ × List (Option (Except Failure α))) :
    Except Failure α × σ × List (Option (Except Failure α)) :=
  let (outcome, state) := connect s.1
  (outcome, state, s.2 ++ [some outcome])

/-- The answer to `get`, and the connection afterwards. -/
def get (connect : σ → Except Failure α × σ) (u : Usage α σ) : Except Failure α × Usage α σ :=
  let (answer, connection, state, outcomes) :=
    u.connection.get (recorded connect) (u.state, u.outcomes)
  (answer, ⟨connection, state, outcomes⟩)

/-- The connection after a call to `get` whose caller went away. -/
def abandon (interrupted : σ → σ) (u : Usage α σ) : Usage α σ :=
  let (connection, state, outcomes) :=
    u.connection.abandon (fun s => (interrupted s.1, s.2 ++ [none])) (u.state, u.outcomes)
  ⟨connection, state, outcomes⟩

/-- The connection after a call. -/
def call (connect : σ → Except Failure α × σ) (interrupted : σ → σ) (u : Usage α σ) :
    Call → Usage α σ
  | .get => (u.get connect).2
  | .abandon => u.abandon interrupted
  | .reset => { u with connection := u.connection.reset, outcomes := [] }

/-- The connection after a run of calls. -/
def run (connect : σ → Except Failure α × σ) (interrupted : σ → σ) (u : Usage α σ)
    (calls : List Call) : Usage α σ :=
  calls.foldl (call connect interrupted) u

end Usage

/-! ### What a connection holds -/

section Outcomes

variable {outcomes : List (Option (Except Failure α))}

/-- No attempt succeeded. -/
def Unsuccessful (outcomes : List (Option (Except Failure α))) : Prop :=
  ∀ client, some (.ok client) ∉ outcomes

/-- The failure of an attempt. -/
def failure? : Option (Except Failure α) → Option Failure
  | some (.error cause) => some cause
  | _ => none

/-- The failure that was seen last. -/
def lastFailure? (outcomes : List (Option (Except Failure α))) : Option Failure :=
  (outcomes.filterMap failure?).getLast?

theorem Unsuccessful.concat {o : Option (Except Failure α)} (h : Unsuccessful outcomes)
    (failed : ∀ client, o ≠ some (.ok client)) : Unsuccessful (outcomes ++ [o]) := by
  intro client mem
  rcases List.mem_append.mp mem with mem | mem
  · exact h client mem
  · exact failed client (List.mem_singleton.mp mem).symm

theorem lastFailure?_concat_error (cause : Failure) :
    lastFailure? (outcomes ++ [some (.error cause)]) = some cause := by
  rw [lastFailure?, List.filterMap_append]
  exact List.getLast?_concat

theorem lastFailure?_concat_unknown : lastFailure? (outcomes ++ [none]) = lastFailure? outcomes := by
  rw [lastFailure?, List.filterMap_append]
  exact congrArg List.getLast? (List.append_nil _)

end Outcomes

/-- **What a connection holds**, by the outcomes since the last reset. -/
inductive Reflects (id : String) (limit : Nat) :
    Connection α → List (Option (Except Failure α)) → Prop
  /-- No attempt succeeded so far, and each one is counted. -/
  | seeking {outcomes : List (Option (Except Failure α))} (few : outcomes.length ≤ limit)
      (unsuccessful : Unsuccessful outcomes) :
      Reflects id limit ⟨id, limit, none, outcomes.length, lastFailure? outcomes⟩ outcomes
  /-- The last attempt succeeded. -/
  | connected {outcomes : List (Option (Except Failure α))} {client : α}
      (few : outcomes.length < limit) (unsuccessful : Unsuccessful outcomes) :
      Reflects id limit ⟨id, limit, some client, 0, none⟩ (outcomes ++ [some (.ok client)])

namespace Reflects

variable {id : String} {limit : Nat} {c : Connection α} {client : α}
  {outcomes : List (Option (Except Failure α))}

/-- A client that was made stands. -/
theorem standing?_of_success (h : Reflects id limit c outcomes)
    (made : some (.ok client) ∈ outcomes) : c.standing? = some (.ok client) := by
  cases h with
  | seeking _ unsuccessful => exact absurd made (unsuccessful client)
  | connected _ unsuccessful =>
    rcases List.mem_append.mp made with made | made
    · exact absurd made (unsuccessful client)
    · obtain rfl : client = _ := Except.ok.inj (Option.some.inj (List.mem_singleton.mp made))
      rfl

/-- Without a client the refusal stands as soon as no attempt is left. -/
theorem standing?_of_unsuccessful (h : Reflects id limit c outcomes)
    (unsuccessful : Unsuccessful outcomes) : c.standing? =
      if limit ≤ outcomes.length then some (.error (refusal id outcomes.length (lastFailure? outcomes)))
      else none := by
  cases h with
  | seeking => rfl
  | connected => exact absurd (List.mem_append_right _ List.mem_cons_self) (unsuccessful _)

/-- An attempt is made when none has succeeded and one is left. -/
theorem seeking_of_standing? (h : Reflects id limit c outcomes) (open_ : c.standing? = none) :
    c = ⟨id, limit, none, outcomes.length, lastFailure? outcomes⟩ ∧ Unsuccessful outcomes ∧
      outcomes.length < limit := by
  cases h with
  | seeking few unsuccessful =>
    refine ⟨rfl, unsuccessful, Nat.lt_of_not_le fun spent => ?_⟩
    exact Option.some_ne_none _ ((if_pos spent).symm.trans open_)
  | connected => cases open_

/-- Before the first attempt. -/
theorem fresh (id : String) (limit : Nat) :
    Reflects id limit (⟨id, limit, none, 0, none⟩ : Connection α) [] := by
  have few : ([] : List (Option (Except Failure α))).length ≤ limit := Nat.zero_le limit
  exact seeking few fun _ => List.not_mem_nil

/-- A reset forgets the outcomes. -/
theorem reset (h : Reflects id limit c outcomes) : Reflects id limit c.reset [] := by
  have forgotten : c.reset = ⟨id, limit, none, 0, none⟩ := by cases h <;> rfl
  rw [forgotten]
  exact fresh id limit

/-- No more attempts were made than the limit allows. -/
theorem length_le (h : Reflects id limit c outcomes) : outcomes.length ≤ limit := by
  cases h with
  | seeking few => exact few
  | connected few => rwa [List.length_append]

theorem attempts_le (h : Reflects id limit c outcomes) : c.attempts ≤ limit := by
  cases h with
  | seeking few => exact few
  | connected => exact Nat.zero_le limit

/-- Only the last attempt may have succeeded. -/
theorem unsuccessful_dropLast (h : Reflects id limit c outcomes) :
    Unsuccessful outcomes.dropLast := by
  cases h with
  | seeking _ unsuccessful =>
    exact fun client mem => unsuccessful client ((List.dropLast_sublist _).subset mem)
  | connected _ unsuccessful => rwa [List.dropLast_concat]

end Reflects

/-! ### Calls -/

section Calls

variable {connect : σ → Except Failure α × σ} {interrupted : σ → σ} {id : String} {limit : Nat}
  {u : Usage α σ}

/-- While an answer stands no attempt is made. -/
theorem Usage.get_of_standing {answer : Except Failure α}
    (h : u.connection.standing? = some answer) : u.get connect = (answer, u) := by
  rw [get, Connection.get, h]

/-- Otherwise the answer is the outcome of one attempt. -/
theorem Usage.get_of_not_standing (h : u.connection.standing? = none) :
    u.get connect = ((u.connection.begin.conclude (connect u.state).1).1,
      ⟨(u.connection.begin.conclude (connect u.state).1).2, (connect u.state).2,
        u.outcomes ++ [some (connect u.state).1]⟩) := by
  rw [get, Connection.get, h]
  rfl

theorem Usage.abandon_of_standing {answer : Except Failure α}
    (h : u.connection.standing? = some answer) : u.abandon interrupted = u := by
  rw [abandon, Connection.abandon, h]

theorem Usage.abandon_of_not_standing (h : u.connection.standing? = none) :
    u.abandon interrupted = ⟨u.connection.begin, interrupted u.state, u.outcomes ++ [none]⟩ := by
  rw [abandon, Connection.abandon, h]

/-- An attempt that did not succeed is counted. -/
theorem Reflects.seeking_concat {outcomes : List (Option (Except Failure α))}
    (left : outcomes.length < limit) (unsuccessful : Unsuccessful outcomes)
    {o : Option (Except Failure α)} (failed : ∀ client, o ≠ some (.ok client))
    {last : Option Failure} (hlast : lastFailure? (outcomes ++ [o]) = last) :
    Reflects id limit ⟨id, limit, none, outcomes.length + 1, last⟩ (outcomes ++ [o]) := by
  have counted : (outcomes ++ [o]).length = outcomes.length + 1 := List.length_append
  rw [← counted, ← hlast]
  exact .seeking (Nat.le_trans (Nat.le_of_eq counted) left) (unsuccessful.concat failed)

/-- **Every call keeps a connection true to the outcomes** since the last reset. -/
theorem Reflects.call (h : Reflects id limit u.connection u.outcomes) (call : Call) :
    Reflects id limit (u.call connect interrupted call).connection
      (u.call connect interrupted call).outcomes := by
  cases call with
  | reset => exact h.reset
  | get =>
    unfold Usage.call
    cases standing : u.connection.standing? with
    | some answer => rwa [Usage.get_of_standing standing]
    | none =>
      obtain ⟨same, unsuccessful, left⟩ := h.seeking_of_standing? standing
      rw [Usage.get_of_not_standing standing, same]
      cases (connect u.state).1 with
      | ok client => exact .connected left unsuccessful
      | error cause =>
        exact seeking_concat left unsuccessful (fun _ => by simp) (lastFailure?_concat_error cause)
  | abandon =>
    unfold Usage.call
    cases standing : u.connection.standing? with
    | some answer => rwa [Usage.abandon_of_standing standing]
    | none =>
      obtain ⟨same, unsuccessful, left⟩ := h.seeking_of_standing? standing
      rw [Usage.abandon_of_not_standing standing, same]
      exact seeking_concat left unsuccessful (fun _ => by simp) lastFailure?_concat_unknown

end Calls

/-! ### Runs -/

/-- The factory is called within a limit, and its outcomes decide what is answered. -/
structure Usage.Bounded (connect : σ → Except Failure α × σ) (id : String) (limit : Nat)
    (u : Usage α σ) : Prop where
  length_outcomes : u.outcomes.length ≤ limit
  attempts_le : u.connection.attempts ≤ limit
  /-- Only the last attempt may have succeeded. -/
  success_last : Unsuccessful u.outcomes.dropLast
  /-- After a success the client is the answer, and no attempt is made. -/
  after_success : ∀ client, some (.ok client) ∈ u.outcomes → u.get connect = (.ok client, u)
  /-- When all attempts are used up, the answer is a refusal, and no attempt is made. -/
  after_limit : Unsuccessful u.outcomes → u.outcomes.length = limit →
    u.get connect = (.error (refusal id limit (lastFailure? u.outcomes)), u)
  /-- Until then one attempt is made, and its outcome is the answer. -/
  before_limit : Unsuccessful u.outcomes → u.outcomes.length < limit →
    (u.get connect).2.outcomes = u.outcomes ++ [some (connect u.state).1] ∧
      (u.get connect).1 =
        (connect u.state).1.mapError (attemptFailure id (u.outcomes.length + 1) limit)

/-- What a connection reflects keeps it within the limit. -/
theorem Reflects.bounded {connect : σ → Except Failure α × σ} {id : String} {limit : Nat}
    {u : Usage α σ} (h : Reflects id limit u.connection u.outcomes) : u.Bounded connect id limit where
  length_outcomes := h.length_le
  attempts_le := h.attempts_le
  success_last := h.unsuccessful_dropLast
  after_success client made := Usage.get_of_standing (h.standing?_of_success made)
  after_limit unsuccessful spent := by
    have standing := h.standing?_of_unsuccessful unsuccessful
    rw [if_pos (Nat.le_of_eq spent.symm), spent] at standing
    exact Usage.get_of_standing standing
  before_limit unsuccessful left := by
    have standing := h.standing?_of_unsuccessful unsuccessful
    rw [if_neg (Nat.not_le.mpr left)] at standing
    obtain ⟨same, -, -⟩ := h.seeking_of_standing? standing
    rw [Usage.get_of_not_standing standing, same]
    refine ⟨rfl, ?_⟩
    cases (connect u.state).1 <;> rfl

/-- **Attempts are bounded**, whatever the factory does: in every run of calls, resets and calls that
nobody waited for among them, it is called no more often since the last reset than the limit allows.
-/
theorem Usage.run_bounded (connect : σ → Except Failure α × σ) (interrupted : σ → σ) (id : String)
    (maxAttempts : Nat) (s : σ) (calls : List Call) :
    ((Usage.start id maxAttempts s).run connect interrupted calls).Bounded connect id
      (max maxAttempts 1) :=
  Reflects.bounded (List.foldlRecOn
    (motive := fun u : Usage α σ => Reflects id (max maxAttempts 1) u.connection u.outcomes)
    calls (Usage.call connect interrupted) (.fresh id _) fun _ h call _ => h.call call)

end DocQuery.Connection
