import DocQuery.Engine.Basic
import DocQuery.Request.Write

/-!
# Writes

A write takes one call. **When it succeeds, whatever is cached of its namespace is dropped.**

* `DocQuery.PendingWrite` – a write that waits for its answer;
* `PendingWrite.upsert`, `PendingWrite.patch`, `PendingWrite.delete`,
  `PendingWrite.deleteByFilter` – the writes; those that would change nothing are refused;
* `Engine.resumeWrite` – goes on with the answer.
-/

namespace DocQuery

/-- A write that waits for its answer. -/
structure PendingWrite where
  /-- The place to which it goes. -/
  place : Place
  request : WriteRequest

namespace PendingWrite

/-- Inserts or replaces documents. -/
def upsert (e : Engine) (docs : List Document) : Except EngineFault PendingWrite :=
  if docs.isEmpty then .error .nothingToUpsert else .ok ⟨e.place, .ofUpsert docs⟩

/-- Changes the attributes that documents have. -/
def patch (e : Engine) (docs : List Document) : Except EngineFault PendingWrite :=
  if docs.isEmpty then .error .nothingToPatch else .ok ⟨e.place, .ofPatch docs⟩

/-- Deletes documents by their ids. -/
def delete (e : Engine) (ids : List Value) : Except EngineFault PendingWrite :=
  if ids.isEmpty then .error .nothingToDelete else .ok ⟨e.place, .ofDelete ids⟩

/-- Deletes what matches a filter. -/
def deleteByFilter (e : Engine) (filter : Filter) : PendingWrite :=
  ⟨e.place, .ofDeleteByFilter filter⟩

end PendingWrite

namespace Engine

/-- Drops whatever is cached of a place. -/
def invalidate (e : Engine) (p : Place) : Engine :=
  { e with cache := (e.cache.invalidate p.connection p.ns).2 }

/-- **Goes on with a write** when its call is answered with the number of documents it touched. -/
def resumeWrite (e : Engine) (w : PendingWrite) (answer : Except Failure Nat) : Engine :=
  match answer with
  | .ok _ => e.invalidate w.place
  | .error _ => e

end Engine

end DocQuery
