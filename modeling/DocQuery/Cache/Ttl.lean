/-!
# Caches with a lifetime

A cache holds a limited number of entries, each of which lives for a fixed time.

* `DocQuery.TtlCache` – the caches, as lists of entries without repeated keys;
* `TtlCache.get` – looks up a key; an entry that is too old is dropped on this occasion;
* `TtlCache.insert` – stores a value; **when the cache is full, the oldest entry makes room**;
* `TtlCache.invalidate` – drops entries by key; `TtlCache.stats` – how well the cache does.

Time is counted in nanoseconds, and every operation is told the present time.
-/

namespace DocQuery

/-- A stored value. -/
structure CacheEntry (α : Type) where
  value : α
  /-- The time at which the value was stored. -/
  stored : Nat
  /-- How often it was found since. -/
  hits : Nat

/-- The entry has outlived its time. -/
def CacheEntry.isExpired {α : Type} (ttl now : Nat) (e : CacheEntry α) : Bool :=
  ttl < now - e.stored

/-- A cache. -/
structure TtlCache (κ α : Type) where
  entries : List (κ × CacheEntry α)
  /-- The most entries that are held, at least one. -/
  capacity : Nat
  /-- The time for which an entry lives. -/
  ttl : Nat

/-- The state of a cache in numbers. -/
structure CacheStats where
  entries : Nat
  capacity : Nat
  hits : Nat
  deriving DecidableEq, Repr

namespace TtlCache

variable {κ α : Type} [DecidableEq κ]

/-- A cache without entries. -/
def empty (capacity ttl : Nat) : TtlCache κ α := ⟨[], max capacity 1, ttl⟩

/-- The entry of a key. -/
def find? (c : TtlCache κ α) (key : κ) : Option (CacheEntry α) :=
  (c.entries.find? fun e => e.1 = key).map Prod.snd

/-- Drops the entry of a key. -/
def erase (c : TtlCache κ α) (key : κ) : TtlCache κ α :=
  { c with entries := c.entries.filter fun e => e.1 ≠ key }

/-- Counts a look-up of a key. -/
def touch (c : TtlCache κ α) (key : κ) : TtlCache κ α :=
  { c with entries := c.entries.map fun e =>
      if e.1 = key then (e.1, { e.2 with hits := e.2.hits + 1 }) else e }

/-- Looks up a key. An entry that is too old is dropped and not found. -/
def get (c : TtlCache κ α) (now : Nat) (key : κ) : Option α × TtlCache κ α :=
  match c.find? key with
  | none => (none, c)
  | some e => if e.isExpired c.ttl now then (none, c.erase key) else (some e.value, c.touch key)

/-- The older one of two entries, of equally old ones the first. -/
def older (a b : κ × CacheEntry α) : κ × CacheEntry α :=
  if b.2.stored < a.2.stored then b else a

/-- The key of the oldest entry. -/
def oldest? (c : TtlCache κ α) : Option κ :=
  match c.entries with
  | [] => none
  | e :: rest => some (rest.foldl older e).1

/-- Drops the oldest entry. -/
def evict (c : TtlCache κ α) : TtlCache κ α :=
  match c.oldest? with
  | some key => c.erase key
  | none => c

/-- Stores a value in place of the one that the key had. A new key drives out the oldest entry when
the cache is full. -/
def insert (c : TtlCache κ α) (now : Nat) (key : κ) (value : α) : TtlCache κ α :=
  let entry := ⟨value, now, 0⟩
  if (c.find? key).isSome then
    { c with entries := c.entries.map fun e => if e.1 = key then (key, entry) else e }
  else
    let c := if c.capacity ≤ c.entries.length then c.evict else c
    { c with entries := c.entries ++ [(key, entry)] }

/-- Drops the entries whose keys have a property, and counts them. -/
def invalidate (c : TtlCache κ α) (p : κ → Bool) : Nat × TtlCache κ α :=
  let kept := c.entries.filter fun e => !p e.1
  (c.entries.length - kept.length, { c with entries := kept })

/-- Drops all entries. -/
def clear (c : TtlCache κ α) : TtlCache κ α := { c with entries := [] }

def stats (c : TtlCache κ α) : CacheStats :=
  ⟨c.entries.length, c.capacity, c.entries.foldl (fun hits e => hits + e.2.hits) 0⟩

end TtlCache

end DocQuery
