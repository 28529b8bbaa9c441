import DocQuery.Proofs.Cache.Ttl
import Mathlib.Data.List.Induction
import Mathlib.Data.List.Nodup

/-!
# What a cache finds after a run

A cache is used by insertions, look-ups, invalidations and emptyings, each at a time. What it finds
under a key can be told from this history: the value that was stored last, unless it was ended by an
invalidation, an emptying or an eviction, or has become too old. That an entry which is too old is
dropped at a look-up makes no difference, since it stays too old.

* `TtlCache.run` – the cache after a run of operations (`DocQuery.CacheOp`);
* `TtlCache.content?` – the value under a key with its time; what each operation does to it is said
  once (`TtlCache.content?_insert` and so on);
* `TtlCache.Ends` – an operation ends the entry of a key; `TtlCache.Standing` – a value was stored
  in a run and nothing has ended it since;
* `TtlCache.standing_iff_content?` – **what stands and is not too old is what the cache holds**;
* `TtlCache.Proper` – the invariant: different keys, and not more than the capacity;
* `TtlCache.insert_full` – a new key drives one entry out of a full cache, the oldest one;
* `TtlCache.run_sound` – all of it, for every run.
-/

namespace DocQuery

/-- A use of a cache. -/
inductive CacheOp (κ α : Type) where
  | insert (key : κ) (value : α)
  | get (key : κ)
  /-- Drops the entries whose keys have a property. -/
  | invalidate (p : κ → Bool)
  | clear

namespace TtlCache

variable {κ α : Type} [DecidableEq κ] {c : TtlCache κ α} {key k : κ} {value : α} {now t : Nat}
  {ops : List (Nat × CacheOp κ α)}

/-- The cache after an operation at a time. -/
def perform (c : TtlCache κ α) : Nat × CacheOp κ α → TtlCache κ α
  | (now, .insert key value) => c.insert now key value
  | (now, .get key) => (c.get now key).2
  | (_, .invalidate p) => (c.invalidate p).2
  | (_, .clear) => c.clear

/-- The cache after a run of operations. -/
def run (c : TtlCache κ α) (ops : List (Nat × CacheOp κ α)) : TtlCache κ α := ops.foldl perform c

@[simp] theorem run_nil (c : TtlCache κ α) : c.run [] = c := rfl

@[simp]
theorem run_concat (c : TtlCache κ α) (ops : List (Nat × CacheOp κ α)) (op : Nat × CacheOp κ α) :
    c.run (ops ++ [op]) = (c.run ops).perform op := by
  rw [run, List.foldl_append]
  rfl

/-! ### What is held under a key -/

/-- The value under a key and the time at which it was stored, whether or not it is too old. -/
def content? (c : TtlCache κ α) (key : κ) : Option (α × Nat) :=
  (c.find? key).map fun e => (e.value, e.stored)

/-- The key whose entry makes room for a key. -/
def victim? (c : TtlCache κ α) (key : κ) : Option κ :=
  if (c.find? key).isSome then none
  else if c.capacity ≤ c.entries.length then c.oldest? else none

@[simp]
theorem content?_empty (capacity ttl : Nat) (key : κ) :
    (empty capacity ttl : TtlCache κ α).content? key = none := rfl

@[simp] theorem content?_clear (c : TtlCache κ α) (key : κ) : c.clear.content? key = none := rfl

/-- The entries changed one by one. -/
def mapEntries (c : TtlCache κ α) (f : κ × CacheEntry α → κ × CacheEntry α) : TtlCache κ α :=
  { c with entries := c.entries.map f }

/-- An entry put behind the others. -/
def push (c : TtlCache κ α) (key : κ) (e : CacheEntry α) : TtlCache κ α :=
  { c with entries := c.entries ++ [(key, e)] }

/-- A change that leaves the keys alone is found under the same keys. -/
theorem find?_mapEntries (c : TtlCache κ α) {f : κ × CacheEntry α → κ × CacheEntry α}
    (keys : ∀ e, (f e).1 = e.1) (k : κ) :
    (c.mapEntries f).find? k = (c.find? k).map fun e => (f (k, e)).2 := by
  have same : ((fun e : κ × CacheEntry α => decide (e.1 = k)) ∘ f) = fun e => decide (e.1 = k) := by
    funext e
    rw [Function.comp_apply, keys]
  rw [find?, mapEntries, List.find?_map, same, find?, Option.map_map, Option.map_map]
  cases found : c.entries.find? fun e => e.1 = k with
  | none => rfl
  | some e =>
    have here : e.1 = k := by simpa using List.find?_some found
    rw [← here]
    rfl

theorem content?_push (missing : c.find? key = none) (e : CacheEntry α) (k : κ) :
    (c.push key e).content? k = if k = key then some (e.value, e.stored) else c.content? k := by
  have found : (c.push key e).find? k = if k = key then some e else c.find? k := by
    rw [find?, Option.map_eq_none_iff] at missing
    rw [find?, push, List.find?_append, find?]
    split
    case isTrue same => simp [same, missing]
    case isFalse other =>
      have ne : ¬ key = k := fun h => other h.symm
      simp [ne]
  rw [content?, found]
  split <;> rfl

theorem content?_touch (c : TtlCache κ α) (key k : κ) :
    (c.touch key).content? k = c.content? k := by
  have found := find?_mapEntries c (k := k)
    (f := fun e => if e.1 = key then (e.1, { e.2 with hits := e.2.hits + 1 }) else e)
    fun e => by split <;> rfl
  rw [content?, touch]
  refine (congrArg (Option.map _) found).trans ?_
  rw [Option.map_map, content?]
  congr 1
  funext e
  dsimp only [Function.comp_apply]
  split <;> rfl

theorem content?_erase (c : TtlCache κ α) (key k : κ) :
    (c.erase key).content? k = if k = key then none else c.content? k := by
  rw [content?, find?_erase]
  split <;> rfl

theorem content?_evict (c : TtlCache κ α) (k : κ) :
    c.evict.content? k = if c.oldest? = some k then none else c.content? k := by
  rw [evict]
  cases c.oldest? with
  | none => simp
  | some old => simp [content?_erase, eq_comm]

/-- An entry is found unless it is too old. -/
theorem get_eq (c : TtlCache κ α) (now : Nat) (key : κ) :
    (c.get now key).1 =
      ((c.content? key).filter fun x => !decide (c.ttl < now - x.2)).map Prod.fst := by
  rw [TtlCache.get, content?]
  cases c.find? key with
  | none => rfl
  | some e => by_cases old : c.ttl < now - e.stored <;>
      simp [CacheEntry.isExpired, Option.filter_some, old]

/-- A look-up drops an entry that is too old, and nothing else. -/
theorem content?_get (c : TtlCache κ α) (now : Nat) (key k : κ) :
    (c.get now key).2.content? k =
      if k = key then (c.content? k).filter fun x => !decide (c.ttl < now - x.2)
      else c.content? k := by
  rw [TtlCache.get]
  cases found : c.find? key with
  | none =>
    dsimp only
    split
    case isTrue same => simp [same, content?, found]
    case isFalse => rfl
  | some e =>
    have held : c.content? key = some (e.value, e.stored) := by simp [content?, found]
    by_cases old : c.ttl < now - e.stored <;> by_cases same : k = key <;>
      simp [CacheEntry.isExpired, Option.filter_some, content?_erase, content?_touch, old, same,
        held]

theorem content?_invalidate (c : TtlCache κ α) (p : κ → Bool) (k : κ) :
    (c.invalidate p).2.content? k = if p k = true then none else c.content? k := by
  rw [content?, content?, find?, find?, invalidate, List.find?_filter]
  split
  case isTrue hit =>
    rw [List.find?_eq_none.2, Option.map_none, Option.map_none]
    intro e _
    by_cases same : e.1 = k <;> simp [same, hit]
  case isFalse miss =>
    congr 3
    funext e
    by_cases same : e.1 = k <;> simp [same, miss]

/-- An entry that replaces another one has its key. -/
theorem fst_replaced (key : κ) (x : CacheEntry α) (e : κ × CacheEntry α) :
    (if e.1 = key then (key, x) else e).1 = e.1 := by
  split
  case isTrue same => exact same.symm
  case isFalse => rfl

/-- A value takes the place of the one that its key had. -/
theorem insert_of_isSome (present : (c.find? key).isSome = true) (now : Nat) (value : α) :
    c.insert now key value =
      c.mapEntries fun e => if e.1 = key then (key, ⟨value, now, 0⟩) else e :=
  if_pos present

/-- A new key comes last, when there is room for it. -/
theorem insert_of_find?_eq_none (missing : c.find? key = none) (now : Nat) (value : α) :
    c.insert now key value =
      (if c.capacity ≤ c.entries.length then c.evict else c).push key ⟨value, now, 0⟩ := by
  refine if_neg ?_
  rw [missing]
  exact Bool.false_ne_true

theorem find?_evict_eq_none (missing : c.find? key = none) : c.evict.find? key = none := by
  rw [evict]
  split
  · rw [find?_erase, missing, ite_self]
  · exact missing

/-- **An insertion** stores its value, drives out its victim and leaves the other keys alone. -/
theorem content?_insert (c : TtlCache κ α) (now : Nat) (key k : κ) (value : α) :
    (c.insert now key value).content? k =
      if k = key then some (value, now)
      else if c.victim? key = some k then none
      else c.content? k := by
  rw [victim?]
  cases found : c.find? key with
  | some old =>
    have present : (c.find? key).isSome = true := by rw [found]; rfl
    rw [insert_of_isSome present, content?, find?_mapEntries c (fst_replaced key _)]
    by_cases same : k = key
    · simp [same, found]
    · simp [same, content?]
  | none =>
    rw [insert_of_find?_eq_none found]
    split
    case isTrue full =>
      rw [content?_push (find?_evict_eq_none found), content?_evict]
      simp
    case isFalse room =>
      rw [content?_push found]
      simp

/-! ### What stands -/

/-- An operation ends the entry of a key, in the state that a cache is in: it stores another value,
or it drops the entry for whatever reason but its age. -/
def Ends (c : TtlCache κ α) (key : κ) : CacheOp κ α → Prop
  | .insert k _ => k = key ∨ c.victim? k = some key
  | .get _ => False
  | .invalidate p => p key = true
  | .clear => True

/-- A run has stored a value under a key at a time, and no later operation has ended it. -/
def Standing (c : TtlCache κ α) (ops : List (Nat × CacheOp κ α)) (key : κ) (value : α) (t : Nat) :
    Prop :=
  ∃ before after, ops = before ++ (t, .insert key value) :: after ∧
    ∀ mid op rest, after = mid ++ op :: rest →
      ¬ (c.run (before ++ (t, .insert key value) :: mid)).Ends key op.2

theorem not_standing_nil (c : TtlCache κ α) : ¬ c.Standing [] key value t := by
  rintro ⟨before, after, same, -⟩
  cases before <;> cases same

/-- The last operation has stored the value, or it has not ended it. -/
theorem standing_concat {op : Nat × CacheOp κ α} : c.Standing (ops ++ [op]) key value t ↔
    op = (t, .insert key value) ∨
      c.Standing ops key value t ∧ ¬ (c.run ops).Ends key op.2 := by
  constructor
  · rintro ⟨before, after, same, stands⟩
    rcases List.eq_nil_or_concat after with rfl | ⟨after, last, rfl⟩
    · exact .inl (List.append_inj_right' same rfl |> List.singleton_inj.1)
    · rw [List.concat_eq_append, ← List.cons_append, ← List.append_assoc] at same
      obtain ⟨rfl, last⟩ := List.append_inj' same rfl
      obtain rfl := List.singleton_inj.1 last
      refine .inr ⟨⟨before, after, rfl, fun mid op' rest split => ?_⟩, ?_⟩
      · refine stands mid op' (rest ++ [op]) ?_
        rw [split, List.concat_eq_append, List.append_assoc, List.cons_append]
      · exact stands after op [] List.concat_eq_append
  · rintro (rfl | ⟨⟨before, after, rfl, stands⟩, last⟩)
    · refine ⟨ops, [], rfl, fun mid op rest split => ?_⟩
      cases mid <;> cases split
    · refine ⟨before, after ++ [op], by simp, fun mid op' rest split => ?_⟩
      rcases List.eq_nil_or_concat rest with rfl | ⟨rest, x, rfl⟩
      · obtain ⟨rfl, same⟩ := List.append_inj' split rfl
        rwa [← List.singleton_inj.1 same]
      · rw [List.concat_eq_append, ← List.cons_append, ← List.append_assoc] at split
        exact stands mid op' rest (List.append_inj_left' split rfl)

/-- What an operation makes of the content of a key. -/
theorem content?_perform (c : TtlCache κ α) (now : Nat) (op : CacheOp κ α) (k : κ) {x : α × Nat}
    (live : ¬ c.ttl < now - x.2) :
    (c.perform (now, op)).content? k = some x ↔
      op = .insert k x.1 ∧ now = x.2 ∨ c.content? k = some x ∧ ¬ c.Ends k op := by
  cases op with
  | insert key value =>
    rw [perform, content?_insert]
    by_cases same : k = key
    · subst same
      simp [Ends, Prod.ext_iff]
    · by_cases out : c.victim? key = some k <;> simp [Ends, same, Ne.symm same, out]
  | get key =>
    rw [perform, content?_get]
    by_cases same : k = key
    · simp [Ends, same, Option.filter_eq_some_iff, live]
    · simp [Ends, same]
  | invalidate p =>
    rw [perform, content?_invalidate]
    by_cases hit : p k = true <;> simp [Ends, hit]
  | clear => simp [perform, Ends]

theorem evict_settings (c : TtlCache κ α) :
    c.evict.capacity = c.capacity ∧ c.evict.ttl = c.ttl := by
  rw [evict]
  split <;> exact ⟨rfl, rfl⟩

/-- The capacity and the lifetime of a cache stay as they are. -/
theorem perform_settings (c : TtlCache κ α) (op : Nat × CacheOp κ α) :
    (c.perform op).capacity = c.capacity ∧ (c.perform op).ttl = c.ttl := by
  obtain ⟨now, op⟩ := op
  cases op with
  | insert key value =>
    rw [perform]
    cases found : c.find? key with
    | some e =>
      rw [insert_of_isSome (by rw [found]; rfl)]
      exact ⟨rfl, rfl⟩
    | none =>
      rw [insert_of_find?_eq_none found]
      split
      · exact evict_settings c
      · exact ⟨rfl, rfl⟩
  | get key =>
    rw [perform, TtlCache.get]
    split
    · exact ⟨rfl, rfl⟩
    · split <;> exact ⟨rfl, rfl⟩
  | invalidate p => exact ⟨rfl, rfl⟩
  | clear => exact ⟨rfl, rfl⟩

theorem run_settings (c : TtlCache κ α) (ops : List (Nat × CacheOp κ α)) :
    (c.run ops).capacity = c.capacity ∧ (c.run ops).ttl = c.ttl := by
  induction ops using List.reverseRecOn with
  | nil => exact ⟨rfl, rfl⟩
  | append_singleton ops op ih =>
    rw [run_concat, (perform_settings _ op).1, (perform_settings _ op).2]
    exact ih

/-- **What stands and is not too old is what the cache holds.** An entry that was too old at some
time of the run is too old now, so that its loss at a look-up is not seen. -/
theorem standing_iff_content? {capacity ttl : Nat} (past : ∀ op ∈ ops, op.1 ≤ now)
    (live : now - t ≤ ttl) : (empty capacity ttl).Standing ops key value t ↔
      ((empty capacity ttl).run ops).content? key = some (value, t) := by
  induction ops using List.reverseRecOn with
  | nil => exact iff_of_false (not_standing_nil _) (by simp)
  | append_singleton ops op ih =>
    obtain ⟨time, op⟩ := op
    have lifetime : ((empty capacity ttl).run ops).ttl = ttl := (run_settings _ ops).2
    have before : time ≤ now := past _ (List.mem_append_right _ List.mem_cons_self)
    have alive : ¬ ((empty capacity ttl).run ops).ttl < time - t := by omega
    rw [standing_concat, run_concat, ih fun op h => past op (List.mem_append_left _ h),
      content?_perform _ time op key (x := (value, t)) alive, Prod.mk.injEq,
      and_comm (a := time = t)]

/-! ### Keys and capacity -/

/-- The entries have different keys, and there are not too many of them. -/
structure Proper (c : TtlCache κ α) : Prop where
  nodup : (c.entries.map Prod.fst).Nodup
  length_le : c.entries.length ≤ c.capacity
  capacity_pos : 0 < c.capacity

omit [DecidableEq κ] in
/-- The oldest of some entries. -/
theorem foldl_older (e : κ × CacheEntry α) (rest : List (κ × CacheEntry α)) :
    rest.foldl older e ∈ e :: rest ∧
      ∀ x ∈ e :: rest, (rest.foldl older e).2.stored ≤ x.2.stored := by
  induction rest generalizing e with
  | nil => simp
  | cons e' rest ih =>
    obtain ⟨mem, least⟩ := ih (older e e')
    have first : (older e e' = e ∨ older e e' = e') ∧
        (older e e').2.stored ≤ e.2.stored ∧ (older e e').2.stored ≤ e'.2.stored := by
      rw [older]
      split
      case isTrue less => exact ⟨.inr rfl, Nat.le_of_lt less, Nat.le_refl _⟩
      case isFalse not => exact ⟨.inl rfl, Nat.le_refl _, Nat.not_lt.1 not⟩
    obtain ⟨one, le, le'⟩ := first
    have head := least _ List.mem_cons_self
    refine ⟨?_, ?_⟩
    · rcases List.mem_cons.1 mem with same | mem
      · rw [List.foldl_cons, same]
        rcases one with same | same <;> rw [same] <;> simp
      · exact List.mem_cons_of_mem _ (List.mem_cons_of_mem _ mem)
    · refine List.forall_mem_cons.2 ⟨Nat.le_trans head le, List.forall_mem_cons.2
        ⟨Nat.le_trans head le', ?_⟩⟩
      exact fun x hx => least x (List.mem_cons_of_mem _ hx)

/-- **An eviction drops one entry**, of which no other one is older. -/
theorem evict_entries (nodup : (c.entries.map Prod.fst).Nodup) (nonempty : c.entries ≠ []) :
    ∃ old rest, c.entries.Perm (old :: rest) ∧ c.evict.entries = rest ∧
      c.oldest? = some old.1 ∧ ∀ e ∈ rest, old.2.stored ≤ e.2.stored := by
  obtain ⟨e, others, entries⟩ := List.exists_cons_of_ne_nil nonempty
  obtain ⟨mem, least⟩ := foldl_older e others
  have oldest : c.oldest? = some (others.foldl older e).1 := by rw [oldest?, entries]
  rw [← entries] at mem least
  generalize others.foldl older e = old at mem least oldest
  obtain ⟨front, back, split⟩ := List.append_of_mem mem
  -- the other entries have other keys
  rw [split, List.map_append, List.map_cons, List.nodup_middle, List.nodup_cons,
    ← List.map_append] at nodup
  have others : ∀ e ∈ front ++ back, decide (e.1 ≠ old.1) = true := fun e he =>
    decide_eq_true fun same => nodup.1 (List.mem_map.2 ⟨e, he, same⟩)
  have perm : c.entries.Perm (old :: (front ++ back)) := split ▸ List.perm_middle
  refine ⟨old, front ++ back, perm, ?_, oldest, fun e he => ?_⟩
  · rw [evict, oldest]
    change c.entries.filter (fun e => decide (e.1 ≠ old.1)) = front ++ back
    rw [split, List.filter_append, List.filter_cons_of_neg (by simp), ← List.filter_append]
    exact List.filter_eq_self.2 others
  · exact least e (perm.mem_iff.2 (List.mem_cons_of_mem _ he))

/-- **A new key drives one entry out of a full cache**, of which no other one is older. -/
theorem insert_full (proper : c.Proper) (missing : c.find? key = none)
    (full : c.entries.length = c.capacity) (now : Nat) (value : α) :
    ∃ old rest, c.entries.Perm (old :: rest) ∧
      (c.insert now key value).entries = rest ++ [(key, ⟨value, now, 0⟩)] ∧
      c.victim? key = some old.1 ∧ ∀ e ∈ rest, old.2.stored ≤ e.2.stored := by
  have nonempty : c.entries ≠ [] :=
    List.ne_nil_of_length_pos (full ▸ proper.capacity_pos)
  obtain ⟨old, rest, perm, evicted, oldest, least⟩ := evict_entries proper.nodup nonempty
  have full := Nat.le_of_eq full.symm
  refine ⟨old, rest, perm, ?_, ?_, least⟩
  · rw [insert_of_find?_eq_none missing, if_pos full, push, evicted]
  · simp [victim?, missing, full, oldest]

/-- A new key comes last in a cache with room for it. -/
theorem insert_room (missing : c.find? key = none) (room : c.entries.length < c.capacity)
    (now : Nat) (value : α) :
    (c.insert now key value).entries = c.entries ++ [(key, ⟨value, now, 0⟩)] := by
  rw [insert_of_find?_eq_none missing, if_neg (Nat.not_le.2 room), push]

omit [DecidableEq κ] in
theorem map_fst_mapEntries (c : TtlCache κ α) {f : κ × CacheEntry α → κ × CacheEntry α}
    (keys : ∀ e, (f e).1 = e.1) :
    (c.mapEntries f).entries.map Prod.fst = c.entries.map Prod.fst := by
  rw [mapEntries, List.map_map]
  exact List.map_congr_left fun e _ => keys e

/-- A key that is known keeps its place, and so do the others. -/
theorem insert_known (present : (c.find? key).isSome = true) (now : Nat) (value : α) :
    (c.insert now key value).entries.map Prod.fst = c.entries.map Prod.fst ∧
      ∀ k, k ≠ key → (c.insert now key value).find? k = c.find? k := by
  rw [insert_of_isSome present]
  refine ⟨map_fst_mapEntries c (fst_replaced key _), fun k other => ?_⟩
  rw [find?_mapEntries c (fst_replaced key _)]
  simp [other]

omit [DecidableEq κ] in
theorem proper_empty (capacity ttl : Nat) : (empty capacity ttl : TtlCache κ α).Proper :=
  ⟨List.nodup_nil, Nat.zero_le _, Nat.lt_of_lt_of_le Nat.zero_lt_one (Nat.le_max_right _ _)⟩

omit [DecidableEq κ] in
/-- Entries may be dropped. -/
theorem Proper.of_sublist (proper : c.Proper) {entries : List (κ × CacheEntry α)}
    (sub : entries.Sublist c.entries) : Proper { c with entries } :=
  ⟨proper.nodup.sublist (sub.map _), Nat.le_trans sub.length_le proper.length_le,
    proper.capacity_pos⟩

omit [DecidableEq κ] in
/-- Entries may be changed, if they keep their keys. -/
theorem Proper.mapEntries (proper : c.Proper) {f : κ × CacheEntry α → κ × CacheEntry α}
    (keys : ∀ e, (f e).1 = e.1) : (c.mapEntries f).Proper where
  nodup := by
    rw [map_fst_mapEntries c keys]
    exact proper.nodup
  length_le := by
    rw [TtlCache.mapEntries, List.length_map]
    exact proper.length_le
  capacity_pos := proper.capacity_pos

theorem not_mem_keys (missing : c.find? key = none) : key ∉ c.entries.map Prod.fst := by
  rw [find?, Option.map_eq_none_iff, List.find?_eq_none] at missing
  intro mem
  obtain ⟨e, he, same⟩ := List.mem_map.1 mem
  exact missing e he (decide_eq_true same)

/-- A new key may be stored, if there is room for it. -/
theorem Proper.push (proper : c.Proper) (missing : c.find? key = none)
    (room : c.entries.length < c.capacity) (e : CacheEntry α) : (c.push key e).Proper where
  nodup := by
    rw [TtlCache.push, List.map_append, List.map_singleton, ← List.concat_eq_append]
    exact proper.nodup.concat (not_mem_keys missing)
  length_le := by
    rw [TtlCache.push, List.length_append, List.length_singleton]
    exact room
  capacity_pos := proper.capacity_pos

theorem Proper.evict (proper : c.Proper) : c.evict.Proper := by
  rw [TtlCache.evict]
  split
  · exact proper.of_sublist List.filter_sublist
  · exact proper

/-- An eviction makes room. -/
theorem Proper.length_evict_lt (proper : c.Proper) : c.evict.entries.length < c.evict.capacity := by
  rw [(evict_settings c).1]
  by_cases nonempty : c.entries = []
  · have nothing : c.evict = c := by rw [TtlCache.evict, oldest?, nonempty]
    rw [nothing, nonempty]
    exact proper.capacity_pos
  · obtain ⟨old, rest, perm, evicted, -⟩ := evict_entries proper.nodup nonempty
    have one := perm.length_eq
    rw [List.length_cons, ← evicted] at one
    exact Nat.lt_of_lt_of_le (Nat.lt_of_lt_of_eq (Nat.lt_succ_self _) one.symm) proper.length_le

theorem Proper.insert (proper : c.Proper) (now : Nat) (key : κ) (value : α) :
    (c.insert now key value).Proper := by
  cases found : c.find? key with
  | some e =>
    rw [insert_of_isSome (by rw [found]; rfl)]
    exact proper.mapEntries (fst_replaced key _)
  | none =>
    rw [insert_of_find?_eq_none found]
    split
    case isTrue => exact proper.evict.push (find?_evict_eq_none found) proper.length_evict_lt _
    case isFalse room => exact proper.push found (Nat.not_le.1 room) _

theorem Proper.perform (proper : c.Proper) (op : Nat × CacheOp κ α) : (c.perform op).Proper := by
  obtain ⟨now, op⟩ := op
  cases op with
  | insert key value => exact proper.insert now key value
  | get key =>
    rw [TtlCache.perform, TtlCache.get]
    split
    · exact proper
    · split
      · exact proper.of_sublist List.filter_sublist
      · exact proper.mapEntries fun e => by split <;> rfl
  | invalidate p => exact proper.of_sublist List.filter_sublist
  | clear => exact proper.of_sublist (List.nil_sublist _)

theorem Proper.run (proper : c.Proper) (ops : List (Nat × CacheOp κ α)) : (c.run ops).Proper := by
  induction ops using List.reverseRecOn with
  | nil => exact proper
  | append_singleton ops op ih =>
    rw [run_concat]
    exact ih.perform op

/-! ### Runs -/

/-- **A cache after a run**, at a time that is not before any of the run.

* It holds no more entries than its capacity.
* Under a key it finds exactly the value that the run stored there last, unless that was ended since
  by an invalidation, an emptying or an eviction, or is older than the lifetime.
* An insertion under a key that is known drives nothing out. Under a new key it drives out one entry
  if the cache is full, and otherwise none. No other entry is older than that one, so that nothing
  live is driven out while something too old is held. -/
theorem run_sound {capacity ttl : Nat} (past : ∀ op ∈ ops, op.1 ≤ now)
    (reached : (empty capacity ttl).run ops = c) :
    c.entries.length ≤ max capacity 1 ∧
    (∀ key value, (c.get now key).1 = some value ↔
      ∃ t, (empty capacity ttl).Standing ops key value t ∧ now - t ≤ ttl) ∧
    (∀ key value, (c.find? key).isSome = true → c.victim? key = none ∧
      (c.insert now key value).entries.map Prod.fst = c.entries.map Prod.fst ∧
      ∀ k, k ≠ key → (c.insert now key value).find? k = c.find? k) ∧
    (∀ key value, c.find? key = none → c.entries.length < max capacity 1 →
      c.victim? key = none ∧
      (c.insert now key value).entries = c.entries ++ [(key, ⟨value, now, 0⟩)]) ∧
    ∀ key value, c.find? key = none → c.entries.length = max capacity 1 →
      ∃ old rest, c.victim? key = some old.1 ∧ c.entries.Perm (old :: rest) ∧
        (c.insert now key value).entries = rest ++ [(key, ⟨value, now, 0⟩)] ∧
        ∀ e ∈ rest, old.2.stored ≤ e.2.stored ∧
          (e.2.isExpired ttl now = true → old.2.isExpired ttl now = true) := by
  subst reached
  obtain ⟨limit, lifetime⟩ := run_settings (empty capacity ttl : TtlCache κ α) ops
  have proper := (proper_empty capacity ttl).run ops
  have limit : ((empty capacity ttl).run ops).capacity = max capacity 1 := limit
  have lifetime : ((empty capacity ttl).run ops).ttl = ttl := lifetime
  refine ⟨limit ▸ proper.length_le, fun key value => ?_, fun key value known => ?_,
    fun key value new room => ?_, fun key value new full => ?_⟩
  · rw [get_eq, lifetime]
    simp only [Option.map_eq_some_iff, Option.filter_eq_some_iff, Prod.exists, exists_and_right,
      exists_eq_right]
    refine exists_congr fun t => ?_
    have live : (!decide (ttl < now - t)) = true ↔ now - t ≤ ttl := by simp
    rw [live]
    exact and_congr_left fun live => (standing_iff_content? past live).symm
  · refine ⟨?_, insert_known known now value⟩
    rw [victim?, if_pos known]
  · rw [← limit] at room
    have nothing : ((empty capacity ttl).run ops).victim? key = none := by
      rw [victim?, if_neg (Nat.not_le.2 room), ite_self]
    exact ⟨nothing, insert_room new room now value⟩
  · obtain ⟨old, rest, perm, entries, victim, least⟩ :=
      insert_full proper new (full.trans limit.symm) now value
    refine ⟨old, rest, victim, perm, entries, fun e he => ⟨least e he, fun expired => ?_⟩⟩
    have older := least e he
    simp only [CacheEntry.isExpired, decide_eq_true_eq] at expired ⊢
    omega

/-- Three keys in turn, of which a cache for two of them keeps the last two. -/
def threeKeys : List (Nat × CacheOp Nat String) :=
  [(0, .insert 1 "a"), (3, .insert 2 "b"), (4, .get 1), (5, .insert 3 "c")]

theorem run_sound_threeKeys : (∀ op ∈ threeKeys, op.1 ≤ 13) ∧
    (∃ t, (empty 2 10).Standing threeKeys 2 "b" t ∧ 13 - t ≤ 10) ∧
    (¬ ∃ t, (empty 2 10).Standing threeKeys 1 "a" t ∧ 13 - t ≤ 10) ∧
    ∃ old rest, ((empty 2 10).run threeKeys).victim? 4 = some old.1 ∧
      ((empty 2 10).run threeKeys).entries.Perm (old :: rest) ∧
      (((empty 2 10).run threeKeys).insert 13 4 "d").entries = rest ++ [(4, ⟨"d", 13, 0⟩)] := by
  have past : ∀ op ∈ threeKeys, op.1 ≤ 13 := by decide
  obtain ⟨-, found, -, -, driven⟩ := @run_sound _ _ _ _ 13 threeKeys 2 10 past rfl
  obtain ⟨old, rest, victim, perm, entries, -⟩ := driven 4 "d" rfl rfl
  refine ⟨past, (found 2 "b").1 rfl, fun standing => ?_, old, rest, victim, perm, entries⟩
  have held := (found 1 "a").2 standing
  cases held

end TtlCache

end DocQuery
