import DocQuery.Cache.Ttl

/-!
# What the entries of a cache have in common

A property that holds of every value when it is stored under its key holds of every value that is
found later, whatever was looked up or driven out in between.

* `TtlCache.Holds` – the property holds of all entries;
* `TtlCache.Holds.get`, `TtlCache.Holds.insert`, `TtlCache.Holds.invalidate` – the operations keep
  it;
* `TtlCache.Holds.of_get` – **it holds of what is found**;
* `TtlCache.Keeps` – nothing is lost but what is too old, which is so when a look-up is in vain
  (`TtlCache.keeps_get`).
-/

namespace DocQuery

namespace TtlCache

variable {κ α : Type} [DecidableEq κ] {P : κ → α → Prop} {c : TtlCache κ α}

/-- A property holds of every key and its value. -/
def Holds (P : κ → α → Prop) (c : TtlCache κ α) : Prop := ∀ e ∈ c.entries, P e.1 e.2.value

omit [DecidableEq κ] in
theorem holds_empty (capacity ttl : Nat) : (empty capacity ttl : TtlCache κ α).Holds P := by
  intro e he
  cases he

omit [DecidableEq κ] in
theorem holds_clear (c : TtlCache κ α) : c.clear.Holds P := by
  intro e he
  cases he

omit [DecidableEq κ] in
theorem Holds.imp {Q : κ → α → Prop} (h : c.Holds P) (himp : ∀ k v, P k v → Q k v) : c.Holds Q :=
  fun e he => himp _ _ (h e he)

theorem Holds.erase (h : c.Holds P) (key : κ) : (c.erase key).Holds P :=
  fun e he => h e (List.mem_filter.mp he).1

theorem Holds.touch (h : c.Holds P) (key : κ) : (c.touch key).Holds P := by
  intro e he
  obtain ⟨a, ha, rfl⟩ := List.mem_map.mp he
  split
  · exact h a ha
  · exact h a ha

theorem Holds.of_find? (h : c.Holds P) {key : κ} {e : CacheEntry α} (he : c.find? key = some e) :
    P key e.value := by
  rw [find?, Option.map_eq_some_iff] at he
  obtain ⟨a, ha, rfl⟩ := he
  have hkey : a.1 = key := by simpa using List.find?_some ha
  rw [← hkey]
  exact h a (List.mem_of_find?_eq_some ha)

theorem Holds.get (h : c.Holds P) (now : Nat) (key : κ) : (c.get now key).2.Holds P := by
  rw [TtlCache.get]
  split
  · exact h
  · split
    · exact h.erase key
    · exact h.touch key

/-- **The property holds of what is found.** -/
theorem Holds.of_get (h : c.Holds P) {now : Nat} {key : κ} {v : α}
    (hv : (c.get now key).1 = some v) : P key v := by
  rw [TtlCache.get] at hv
  split at hv
  case h_1 => cases hv
  case h_2 e he =>
    split at hv
    case isTrue => cases hv
    case isFalse =>
      cases hv
      exact h.of_find? he

theorem Holds.evict (h : c.Holds P) : c.evict.Holds P := by
  rw [TtlCache.evict]
  split
  · exact h.erase _
  · exact h

theorem Holds.insert (h : c.Holds P) (now : Nat) {key : κ} {value : α} (hv : P key value) :
    (c.insert now key value).Holds P := by
  rw [TtlCache.insert]
  dsimp only
  split
  · intro e he
    obtain ⟨a, ha, rfl⟩ := List.mem_map.mp he
    split
    · exact hv
    · exact h a ha
  · intro e he
    rcases List.mem_append.mp he with he | he
    · split at he
      · exact h.evict e he
      · exact h e he
    · rw [List.mem_singleton.mp he]
      exact hv

omit [DecidableEq κ] in
/-- What is not dropped need only keep the property. -/
theorem Holds.invalidate {Q : κ → α → Prop} (h : c.Holds P) {p : κ → Bool}
    (himp : ∀ k v, p k = false → P k v → Q k v) : (c.invalidate p).2.Holds Q := by
  intro e he
  obtain ⟨hmem, hkept⟩ := List.mem_filter.mp he
  exact himp _ _ (by simpa using hkept) (h e hmem)

/-! ### Looking up in vain -/

/-- An erased entry is gone, and the other ones are not. -/
theorem find?_erase (c : TtlCache κ α) (key k : κ) :
    (c.erase key).find? k = if k = key then none else c.find? k := by
  have herase : (c.erase key).find? k =
      (c.entries.find? fun e => e.1 ≠ key ∧ e.1 = k).map Prod.snd := by
    rw [find?, erase, List.find?_filter]
    simp
  rw [herase]
  split
  case isTrue hk =>
    have hnone : (c.entries.find? fun e => e.1 ≠ key ∧ e.1 = k) = none := by
      rw [List.find?_eq_none]
      intro e _
      simp [hk]
    rw [hnone]
    rfl
  case isFalse hk =>
    have hsame : (fun e : κ × CacheEntry α => decide (e.1 ≠ key ∧ e.1 = k)) =
        fun e => decide (e.1 = k) := by
      funext e
      by_cases he : e.1 = k
      · simp [he, hk]
      · simp [he]
    rw [hsame]
    rfl

/-- From one cache to another, nothing is lost but entries that are too old, and nothing is new. -/
structure Keeps (now : Nat) (c c' : TtlCache κ α) : Prop where
  capacity : c'.capacity = c.capacity
  ttl : c'.ttl = c.ttl
  find? : ∀ key, c'.find? key = c.find? key ∨
    ∃ e, c.find? key = some e ∧ e.isExpired c.ttl now = true ∧ c'.find? key = none

theorem Keeps.refl (now : Nat) (c : TtlCache κ α) : c.Keeps now c := ⟨rfl, rfl, fun _ => Or.inl rfl⟩

/-- **A look-up in vain costs nothing** but an entry that is too old. -/
theorem keeps_get {now : Nat} {key : κ} (h : (c.get now key).1 = none) :
    c.Keeps now (c.get now key).2 := by
  rw [TtlCache.get] at h ⊢
  cases hfind : c.find? key with
  | none => exact .refl now c
  | some e =>
    rw [hfind] at h
    dsimp only at h ⊢
    cases hold : e.isExpired c.ttl now with
    | false =>
      rw [hold] at h
      cases h
    | true =>
      refine ⟨rfl, rfl, fun k => ?_⟩
      change (c.erase key).find? k = c.find? k ∨ ∃ e, c.find? k = some e ∧
        e.isExpired c.ttl now = true ∧ (c.erase key).find? k = none
      rw [find?_erase]
      by_cases hk : k = key
      · rw [if_pos hk, hk]
        exact Or.inr ⟨e, hfind, hold, rfl⟩
      · rw [if_neg hk]
        exact Or.inl rfl

end TtlCache

end DocQuery
