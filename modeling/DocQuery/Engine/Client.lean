import DocQuery.Engine.Discovery
import DocQuery.Engine.Load
import DocQuery.Engine.Write
import DocQuery.Store.Backend

/-!
# An engine and its backend

Loads, discoveries and writes are jobs that consist of calls to a backend. A job is advanced call by
call: a call is sent, and later it is answered and the job goes on to its next call or to its end.

* `DocQuery.Client` – an engine with the backend that it calls;
* `DocQuery.Job` – a job that waits for the answer to a call, `DocQuery.JobResult` – what comes out,
  `DocQuery.Progress` – either of them;
* `Client.send`, `Client.answer` – the two ends of a call;
* `Client.advance` – goes on until a call has to wait; `Client.run` – to the end, without waiting.
-/

namespace DocQuery

/-- A job that waits for the answer to a call. -/
inductive Job where
  | load (l : Load)
  | discovery (d : Discovery)
  | write (w : PendingWrite)

/-- What comes out of a job. -/
inductive JobResult where
  | load (outcome : LoadOutcome)
  | discovery (attributes : List Attribute)
  | write (affected : Except Failure Nat)

/-- Where a job stands. -/
inductive Progress where
  | waiting (job : Job)
  | finished (result : JobResult)

def LoadProgress.progress : LoadProgress → Progress
  | .waiting l => .waiting (.load l)
  | .finished outcome => .finished (.load outcome)

def DiscoveryProgress.progress : DiscoveryProgress → Progress
  | .waiting d => .waiting (.discovery d)
  | .finished attributes => .finished (.discovery attributes)

/-- An engine and the backend that it calls. -/
structure Client where
  engine : Engine
  backend : Backend

namespace Client

/-- Changes the engine. -/
def modify (c : Client) (f : Engine → Engine) : Client := { c with engine := f c.engine }

/-! ### Beginning jobs -/

/-- Begins a load. -/
def beginLoad (c : Client) (options : LoadOptions) : Client × Progress :=
  let (engine, p) := c.engine.beginLoad options
  ({ c with engine }, p.progress)

/-- Begins a discovery. -/
def beginDiscovery (c : Client) (force : Bool) : Client × Progress :=
  let (engine, p) := c.engine.beginDiscovery force
  ({ c with engine }, p.progress)

/-! ### Calls -/

/-- Sends the call of a job: the backend receives it. -/
def send (c : Client) : Job → Client
  | .load l => { c with backend := c.backend.receiveQuery (l.request c.engine.config) }
  | .discovery d => { c with backend := c.backend.receiveQuery (d.request c.engine.config) }
  | .write _ => { c with backend := c.backend.receiveWrite }

/-- Answers the call of a job, with which the job goes on. -/
def answer (c : Client) : Job → Client × Progress
  | .load l =>
    let (r, backend) := c.backend.answerQuery l.start.snapshot.ns (l.request c.engine.config)
    let (engine, p) := c.engine.resumeLoad l r
    (⟨engine, backend⟩, p.progress)
  | .discovery d =>
    let (r, backend) := c.backend.answerQuery d.snapshot.ns (d.request c.engine.config)
    let (engine, attributes) := c.engine.resumeDiscovery d r
    (⟨engine, backend⟩, .finished (.discovery attributes))
  | .write w =>
    let (r, backend) := c.backend.answerWrite w.place.ns w.request
    (⟨c.engine.resumeWrite w r, backend⟩, .finished (.write r))

/-- The most calls of a job: a load makes two, and two more when it begins once more. -/
def maxCalls : Nat := 4

/-- Sends calls and answers them, at most `n` of them, until one has to wait or the job ends. -/
def advanceFor : Nat → Client → Progress → Client × Progress
  | n + 1, c, .waiting job =>
    let c := c.send job
    if c.backend.latency.getD 0 = 0 then
      let (c, p) := c.answer job
      advanceFor n c p
    else (c, .waiting job)
  | _, c, p => (c, p)

/-- Goes on with a job until a call has been sent that has to wait, or to its end. -/
def advance (c : Client) (p : Progress) : Client × Progress := advanceFor maxCalls c p

/-- Answers calls without waiting, at most `n` of them. -/
def runFor : Nat → Client → Progress → Client × Progress
  | n + 1, c, .waiting job =>
    let (c, p) := (c.send job).answer job
    runFor n c p
  | _, c, p => (c, p)

/-- Runs a job to its end without waiting. -/
def run (c : Client) (p : Progress) : Client × Progress := runFor maxCalls c p

/-- Loads a page without waiting. -/
def load (c : Client) (options : LoadOptions) : Client × LoadOutcome :=
  let (c, p) := c.beginLoad options
  match c.run p with
  | (c, .finished (.load outcome)) => (c, outcome)
  | (c, _) => (c, .stale)

/-- Discovers the schema without waiting. -/
def discover (c : Client) (force : Bool) : Client × List Attribute :=
  let (c, p) := c.beginDiscovery force
  match c.run p with
  | (c, .finished (.discovery attributes)) => (c, attributes)
  | (c, _) => (c, c.engine.state.attributes)

/-- Writes without waiting. -/
def write (c : Client) (w : PendingWrite) : Client × Except Failure Nat :=
  let (backend, r) :=
    let (r, backend) := c.backend.receiveWrite.answerWrite w.place.ns w.request
    (backend, r)
  (⟨c.engine.resumeWrite w r, backend⟩, r)

end Client

end DocQuery
