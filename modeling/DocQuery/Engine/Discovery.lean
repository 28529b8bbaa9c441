import DocQuery.Engine.Basic

/-!
# Discovering the schema

The schema of a namespace is inferred from a sample, which takes one call. Like an answer to a load,
a sample that comes too late – when another namespace is shown – changes nothing.

* `DocQuery.Discovery` – a discovery that waits for its sample;
* `Engine.beginDiscovery` – begins a discovery, which may end at once from the cache;
* `Engine.resumeDiscovery` – goes on with the sample. A failure leaves the attributes as they are.
-/

namespace DocQuery

/-- A discovery that waits for its sample. -/
structure Discovery where
  /-- The state in which it began. -/
  snapshot : EngineState

/-- Where a discovery stands. -/
inductive DiscoveryProgress where
  | waiting (d : Discovery)
  | finished (attributes : List Attribute)

/-- The query whose answer is awaited. -/
def Discovery.request (_ : Discovery) (config : EngineConfig) : QueryRequest :=
  Engine.consistent config config.discovery.sampleRequest

namespace Engine

/-- Ends a discovery. -/
def endDiscovery (e : Engine) (attributes : Option (List Attribute)) : Engine × List Attribute :=
  let e := e.dispatch (.discoveryFinished attributes)
  (e, e.state.attributes)

/-- **Begins a discovery**; without `force` a cached schema will do. -/
def beginDiscovery (e : Engine) (force : Bool) : Engine × DiscoveryProgress :=
  let (cached, e) := if force then (none, e) else e.cachedSchema (schemaKey e.config e.state)
  match cached with
  | some attributes =>
    let (e, attributes) := e.endDiscovery (some attributes)
    (e, .finished attributes)
  | none =>
    let snapshot := e.state
    (e.dispatch .discoveryStarted, .waiting ⟨snapshot⟩)

/-- **Goes on with a discovery** when its call is answered. -/
def resumeDiscovery (e : Engine) (d : Discovery) (answer : Except Failure QueryResponse) :
    Engine × List Attribute :=
  if !e.state.isAt d.snapshot.connection d.snapshot.ns then e.endDiscovery none
  else match answer with
    | .error _ => e.endDiscovery none
    | .ok response =>
      let attributes := discover response.rows e.config.discovery
      (e.cacheSchema (schemaKey e.config d.snapshot) attributes).endDiscovery (some attributes)

end Engine

end DocQuery
