import DocQuery.Failure

/-!
# Establishing a connection

A client is made when it is first needed. After a number of failed attempts no further one is made
until the connection is reset.

* `DocQuery.Connection` – a connection and the attempts made so far;
* `Connection.get` – **the client**, made by one attempt if there is none yet;
* `Connection.abandon` – the same for a caller who does not wait for the attempt;
* `Connection.reset` – forgets the client and the failures.

An attempt is counted when it begins (`Connection.begin`), before its outcome is known
(`Connection.conclude`). The attempt itself is given to `get` as a function on a state of its own.
-/

namespace DocQuery

/-- A connection that is established on demand. -/
structure Connection (α : Type) where
  id : String
  /-- The most failed attempts, at least one. -/
  maxAttempts : Nat
  client : Option α
  attempts : Nat
  lastFailure : Option Failure

namespace Connection

variable {α σ : Type}

/-- A connection for which no attempt was made. -/
def start (id : String) (maxAttempts : Nat) : Connection α := ⟨id, max maxAttempts 1, none, 0, none⟩

/-- The failure of one attempt. -/
def attemptFailure (id : String) (attempt limit : Nat) (cause : Failure) : Failure :=
  .initialization s!"attempt {attempt}/{limit} to connect to '{id}' failed: {cause.message}"

/-- The failure when no attempt is left, with the failure that was seen last. -/
def refusal (id : String) (attempts : Nat) (last : Option Failure) : Failure :=
  let cause := (last.map Failure.message).getD ""
  .initialization (s!"gave up connecting to '{id}' after {attempts} attempts ({cause}); " ++
    "reset to try again")

/-- The answer that takes no attempt: the client that is there, or the refusal if there is none and
no attempt is left. -/
def standing? (c : Connection α) : Option (Except Failure α) :=
  match c.client with
  | some client => some (.ok client)
  | none =>
    if c.maxAttempts ≤ c.attempts then some (.error (refusal c.id c.attempts c.lastFailure))
    else none

/-- The connection while an attempt is under way. -/
def begin (c : Connection α) : Connection α := { c with attempts := c.attempts + 1 }

/-- The answer and the connection when the outcome of the attempt under way is known. -/
def conclude (c : Connection α) : Except Failure α → Except Failure α × Connection α
  | .ok client => (.ok client, { c with client := some client, attempts := 0, lastFailure := none })
  | .error cause =>
    (.error (attemptFailure c.id c.attempts c.maxAttempts cause), { c with lastFailure := some cause })

/-- The client, made by one attempt if there is none yet and attempts are left. -/
def get (connect : σ → Except Failure α × σ) (c : Connection α) (s : σ) :
    Except Failure α × Connection α × σ :=
  match c.standing? with
  | some answer => (answer, c, s)
  | none =>
    let (outcome, s) := connect s
    let (answer, c) := c.begin.conclude outcome
    (answer, c, s)

/-- A call to `get` whose caller goes away while an attempt is under way. What was done of the
attempt by then is done, and it stays counted. -/
def abandon (interrupted : σ → σ) (c : Connection α) (s : σ) : Connection α × σ :=
  match c.standing? with
  | some _ => (c, s)
  | none => (c.begin, interrupted s)

/-- Forgets the client and the failures. -/
def reset (c : Connection α) : Connection α :=
  { c with client := none, attempts := 0, lastFailure := none }

end Connection

end DocQuery
