import DocQuery.Proofs.Discovery.Shuffled
import DocQuery.Proofs.Value.Order
import Mathlib.Order.Bounds.Basic

/-!
# What observations are joined to

A tally joins one observation after the other to what it knows. Here is what the joins amount to in
the end, whatever the observations were.

* `AttributeType.join_le_iff`, `ElementType.join_le_iff` – types are partially ordered, and a join
  is the least type above two;
* `NumericRange.spans_foldl_note` – **the range of numbers** leads from the least to the greatest;
* `Tally.isLUB_foldl_refine` – **observations are joined to their least upper bound**;
* `Tally.foldl_note_eq` – **the distinct values** are those that are left if of the values with one
  key all but the first are dropped.
-/

namespace DocQuery

/-! ### Orders of types -/

namespace AttributeType

/-- A type is below those that cover it: dates are below strings, and everything is below mixed. -/
instance : PartialOrder AttributeType where
  le a b := b.Covers a
  le_refl := covers_refl
  le_trans a b c := by cases a <;> cases b <;> cases c <;> decide
  le_antisymm a b := by cases a <;> cases b <;> decide

instance (a b : AttributeType) : Decidable (a ≤ b) := inferInstanceAs (Decidable (b.Covers a))

theorem join_le_iff {a b c : AttributeType} : a.join b ≤ c ↔ a ≤ c ∧ b ≤ c := by
  cases a <;> cases b <;> cases c <;> decide

theorem ofValue?_eq_none_iff {v : Value} : ofValue? v = none ↔ v = .null := by
  cases v <;> simp [ofValue?]

/-- Only numbers are below numbers. -/
theorem eq_number_of_le {k : AttributeType} (h : k ≤ .number) : k = .number := by
  revert h
  cases k <;> decide

/-- Only arrays are below arrays. -/
theorem eq_array_of_le {k : AttributeType} (h : k ≤ .array) : k = .array := by
  revert h
  cases k <;> decide

theorem leaf_of_number {v : Value} (h : ofValue? v = some .number) :
    v.leaves = [v] ∧ v.asDouble?.isSome = true := by
  cases v with
  | string s =>
    rw [ofValue?] at h
    split at h <;> cases h
  | _ => first | exact ⟨rfl, rfl⟩ | cases h

theorem exists_of_array {v : Value} (h : ofValue? v = some .array) : ∃ items, v = .array items := by
  cases v with
  | array items => exact ⟨items, rfl⟩
  | string s =>
    rw [ofValue?] at h
    split at h <;> cases h
  | _ => cases h

end AttributeType

namespace ElementType

/-- Integers are below floating-point numbers, and everything is below mixed. -/
instance : PartialOrder ElementType where
  le a b := a = b ∨ (a = .integer ∧ b = .float) ∨ b = .mixed
  le_refl a := Or.inl rfl
  le_trans a b c := by cases a <;> cases b <;> cases c <;> decide
  le_antisymm a b := by cases a <;> cases b <;> decide

instance (a b : ElementType) : Decidable (a ≤ b) :=
  inferInstanceAs (Decidable (a = b ∨ (a = .integer ∧ b = .float) ∨ b = .mixed))

theorem join_le_iff {a b c : ElementType} : a.join b ≤ c ↔ a ≤ c ∧ b ≤ c := by
  cases a <;> cases b <;> cases c <;> decide

/-- No type is below all others. -/
theorem not_isLUB_empty (e : ElementType) : ¬IsLUB ∅ e := by
  rw [isLUB_empty_iff]
  intro bottom
  have first := bottom .string
  have second := bottom .boolean
  revert first second
  cases e <;> decide

/-- Below integers and floating-point numbers there are only such. -/
theorem isSome_asDouble? {k e : ElementType} (below : k ≤ e) (numeric : e = .integer ∨ e = .float)
    {w : Value} (h : ofValue? w = some k) : w.asDouble?.isSome = true := by
  have number : k = .integer ∨ k = .float := by
    rcases numeric with rfl | rfl <;> revert below <;> cases k <;> decide
  cases w with
  | int i => rfl
  | float x => rfl
  | _ => rcases number with rfl | rfl <;> cases h

end ElementType

/-! ### Ranges of numbers -/

namespace Binary

variable {f : Format} {a b c : Binary f}

theorem numLe_iff (ha : a.isNaN = false) (hb : b.isNaN = false) :
    a.numLe b = true ↔ a.units ≤ b.units := by
  have ordered : a.compare? b = some (compare a.units b.units) :=
    compare?_eq_some_iff.mpr ⟨ha, hb, rfl⟩
  rw [numLe, ordered]
  exact Std.isLE_compare

/-- The lesser of two numbers is one of them and not greater than either. -/
theorem min_spec (ha : a.isNaN = false) (hb : b.isNaN = false) :
    (a.min b = a ∨ a.min b = b) ∧ (a.min b).units ≤ a.units ∧ (a.min b).units ≤ b.units := by
  unfold Binary.min
  rw [ha, if_neg Bool.false_ne_true]
  simp only [Bool.and_eq_true, Bool.not_eq_true', ← Bool.not_eq_true, numLe_iff ha hb,
    numLe_iff hb ha]
  split <;> simp <;> omega

/-- The greater of two numbers is one of them and not less than either. -/
theorem max_spec (ha : a.isNaN = false) (hb : b.isNaN = false) :
    (a.max b = a ∨ a.max b = b) ∧ a.units ≤ (a.max b).units ∧ b.units ≤ (a.max b).units := by
  unfold Binary.max
  rw [ha, if_neg Bool.false_ne_true]
  simp only [Bool.and_eq_true, Bool.not_eq_true', ← Bool.not_eq_true, numLe_iff ha hb,
    numLe_iff hb ha]
  split <;> simp <;> omega

end Binary

namespace NumericRange

/-- The range leads from the least to the greatest of some numbers. -/
structure Spans (r : NumericRange) (xs : List Double) : Prop where
  least_mem : r.least ∈ xs
  greatest_mem : r.greatest ∈ xs
  least_le : ∀ x ∈ xs, r.least.numLe x = true
  le_greatest : ∀ x ∈ xs, x.numLe r.greatest = true

/-- The range after a number. -/
def note (r : Option NumericRange) (x : Double) : Option NumericRange := some (widen x r)

variable {xs : List Double}

theorem foldl_note_eq_none_iff : xs.foldl note none = none ↔ xs = [] := by
  induction xs using List.reverseRecOn with
  | nil => simp
  | append_singleton xs x => simp [note]

/-- **The range of numbers** leads from the least to the greatest. -/
theorem spans_foldl_note (numbers : ∀ x ∈ xs, x.isNaN = false) {r : NumericRange}
    (h : xs.foldl note none = some r) : r.Spans xs := by
  induction xs using List.reverseRecOn generalizing r with
  | nil => cases h
  | append_singleton xs x ih =>
    obtain ⟨front, last⟩ := List.forall_mem_append.mp numbers
    have hx : x.isNaN = false := last x (List.mem_singleton_self x)
    rw [List.foldl_append, List.foldl_cons, List.foldl_nil] at h
    obtain rfl := Option.some.inj h
    cases before : xs.foldl note none with
    | none =>
      obtain rfl := foldl_note_eq_none_iff.mp before
      have itself : x.numLe x = true := (Binary.numLe_iff hx hx).mpr le_rfl
      refine ⟨?_, ?_, ?_, ?_⟩ <;> simp [widen, itself]
    | some r =>
      obtain ⟨leastMem, greatestMem, leastLe, leGreatest⟩ := ih front before
      have hleast : r.least.isNaN = false := front _ leastMem
      have hgreatest : r.greatest.isNaN = false := front _ greatestMem
      obtain ⟨min, minLeft, minRight⟩ := Binary.min_spec hleast hx
      obtain ⟨max, maxLeft, maxRight⟩ := Binary.max_spec hgreatest hx
      have hmin : (r.least.min x).isNaN = false := by rcases min with h | h <;> rwa [h]
      have hmax : (r.greatest.max x).isNaN = false := by rcases max with h | h <;> rwa [h]
      refine ⟨?_, ?_, fun y hy => ?_, fun y hy => ?_⟩
      · rcases min with h | h <;> simp [widen, h, leastMem]
      · rcases max with h | h <;> simp [widen, h, greatestMem]
      · refine (Binary.numLe_iff hmin (numbers y hy)).mpr ?_
        rcases List.mem_append.mp hy with hy | hy
        · exact minLeft.trans ((Binary.numLe_iff hleast (front y hy)).mp (leastLe y hy))
        · exact List.mem_singleton.mp hy ▸ minRight
      · refine (Binary.numLe_iff (numbers y hy) hmax).mpr ?_
        rcases List.mem_append.mp hy with hy | hy
        · exact ((Binary.numLe_iff (front y hy) hgreatest).mp (leGreatest y hy)).trans maxLeft
        · exact List.mem_singleton.mp hy ▸ maxRight

end NumericRange

namespace Tally

/-! ### What observations are joined to -/

section Refine

variable {α : Type} {join : α → α → α} {kinds : List (Option α)}

theorem foldl_refine_eq_none_iff :
    kinds.foldl (refine join) none = none ↔ ∀ k ∈ kinds, k = none := by
  have both (x y : Option α) : refine join x y = none ↔ x = none ∧ y = none := by
    cases x <;> cases y <;> simp [refine]
  induction kinds using List.reverseRecOn with
  | nil => simp
  | append_singleton kinds k ih =>
    rw [List.foldl_append, List.foldl_cons, List.foldl_nil, both, List.forall_mem_append,
      List.forall_mem_singleton]
    exact and_congr_left' ih

variable [PartialOrder α]

/-- Joined observations are below what all of them are below. -/
theorem foldl_refine_le_iff (join_le_iff : ∀ {a b c : α}, join a b ≤ c ↔ a ≤ c ∧ b ≤ c) (c : α) :
    (∀ a, kinds.foldl (refine join) none = some a → a ≤ c) ↔ ∀ k, some k ∈ kinds → k ≤ c := by
  induction kinds using List.reverseRecOn with
  | nil => simp
  | append_singleton kinds k ih =>
    rw [List.foldl_append, List.foldl_cons, List.foldl_nil]
    simp only [List.mem_append, List.mem_singleton, or_imp, forall_and, ← ih]
    cases joined : kinds.foldl (refine join) none <;> cases k <;>
      simp [refine, join_le_iff, eq_comm]

/-- **Observations are joined to their least upper bound.** -/
theorem isLUB_foldl_refine (join_le_iff : ∀ {a b c : α}, join a b ≤ c ↔ a ≤ c ∧ b ≤ c) {a : α}
    (joined : kinds.foldl (refine join) none = some a) : IsLUB {k | some k ∈ kinds} a := by
  rw [isLUB_iff_le_iff]
  intro c
  show a ≤ c ↔ ∀ k, some k ∈ kinds → k ≤ c
  rw [← foldl_refine_le_iff join_le_iff c, joined]
  simp

/-- Something was observed, and what it was joined to is above it. -/
theorem exists_observed_le (join_le_iff : ∀ {a b c : α}, join a b ≤ c ↔ a ≤ c ∧ b ≤ c) {a : α}
    (joined : kinds.foldl (refine join) none = some a) : ∃ k, some k ∈ kinds ∧ k ≤ a := by
  by_contra nothing
  have all_none : ∀ k ∈ kinds, k = none := by
    rintro (_ | k) hk
    · rfl
    · exact absurd ⟨k, hk, (isLUB_foldl_refine join_le_iff joined).1 hk⟩ nothing
  rw [foldl_refine_eq_none_iff.mpr all_none] at joined
  cases joined

end Refine

/-! ### Distinct leaves -/

/-- Two values have the same key. -/
def sameKey (v w : Value) : Bool := v.key == w.key

/-- The values among some that are not null, of those with the same key the first one. -/
def distinctOf (vs : List Value) : List Value := (vs.filter fun v => !v.isNull).eraseDupsBy sameKey

/-- **Values are noted as distinct** unless they are null or have a key that was seen before. -/
theorem foldl_note_eq (vs : List Value) (seen : List (String × Value)) :
    vs.foldl note seen =
      seen ++ (distinctOf (vs.filter fun v => !seen.any fun e => e.1 == v.key)).map
        fun v => (v.key, v) := by
  induction vs generalizing seen with
  | nil => exact (List.append_nil seen).symm
  | cons v vs ih =>
    rw [List.foldl_cons, ih]
    unfold distinctOf
    cases old : seen.any fun e => e.1 == v.key with
    | true => simp [note, old]
    | false =>
      cases null : v.isNull with
      | true => simp [note, old, null]
      | false =>
        -- the first value under its key, which is passed over from now on
        have passed (w : Value) : (v.key == w.key) = decide (w.key = v.key) :=
          Bool.eq_iff_iff.mpr (by rw [beq_iff_eq, decide_eq_true_iff, eq_comm])
        simp [note, old, null, List.eraseDupsBy_cons, List.filter_filter, sameKey, passed,
          Bool.and_comm, Bool.and_left_comm]

end Tally

end DocQuery
