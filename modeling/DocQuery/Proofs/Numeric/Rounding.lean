import DocQuery.Numeric.Shortest
import Mathlib.Algebra.Order.Field.Power
import Mathlib.Data.Int.Log
import Mathlib.Data.Rat.Floor
import Mathlib.Tactic.FieldSimp
import Mathlib.Tactic.Linarith
import Mathlib.Tactic.NormNum
import Mathlib.Tactic.Positivity
import Mathlib.Tactic.Ring

/-!
# Rounding to nearest

Rounding is defined by integer division. Here it is tied to the rational numbers that it rounds.

* `roundDiv_eq` – a quotient within one half of a natural number is rounded to it, at exactly one
  half if the number is even;
* `exponentOf_eq` – the exponent of a quotient, by its binary logarithm;
* `RoundingInterval.Contains` – a rational number lies in a rounding interval, and
  `RoundingInterval.contains_ofBinary` – what that means in units of the last place;
* `Binary.ofRatio_eq` – **a quotient in the rounding interval of a number is rounded to it**.

Just below a power of two the numbers lie twice as close. A quotient there is rounded with the
lesser exponent, and the carry brings it to the power of two (`Binary.exponentOf_of_contains`).
-/

namespace DocQuery

/-! ### Quotients of natural numbers -/

theorem scaleRatio_pos {n d : Nat} (hd : 0 < d) (e : Int) : 0 < (scaleRatio n d e).2 := by
  unfold scaleRatio
  split
  · exact Nat.mul_pos hd (Nat.two_pow_pos _)
  · exact hd

theorem scaleRatio_eq {n d : Nat} (e : Int) :
    ((scaleRatio n d e).1 : ℚ) / (scaleRatio n d e).2 = (n : ℚ) / d / 2 ^ e := by
  unfold scaleRatio
  split
  case isTrue h =>
    obtain ⟨k, rfl⟩ := Int.eq_ofNat_of_zero_le h
    simp [div_div]
  case isFalse h =>
    obtain ⟨k, hk⟩ : ∃ k : Nat, e = -k := ⟨(-e).toNat, by omega⟩
    subst hk
    simp [div_eq_mul_inv]
    ring

/-- **Rounding a quotient** yields the natural number that lies within one half of it; at exactly
one half only an even number will do. -/
theorem roundDiv_eq {n d m : Nat} (hd : 0 < d) (low : (m : ℚ) - 1 / 2 ≤ (n : ℚ) / d)
    (high : (n : ℚ) / d ≤ m + 1 / 2)
    (tie : m % 2 = 1 → (m : ℚ) - 1 / 2 ≠ (n : ℚ) / d ∧ (n : ℚ) / d ≠ m + 1 / 2) :
    roundDiv n d = m := by
  have hd' : (0 : ℚ) < d := by exact_mod_cast hd
  rw [le_div_iff₀ hd'] at low
  rw [div_le_iff₀ hd'] at high
  rw [ne_eq, ne_eq, eq_div_iff hd'.ne', div_eq_iff hd'.ne'] at tie
  have low : 2 * m * d ≤ 2 * n + d := by
    have : (2 * m * d : ℚ) ≤ 2 * n + d := by linarith
    exact_mod_cast this
  have high : 2 * n ≤ 2 * m * d + d := by
    have : (2 * n : ℚ) ≤ 2 * m * d + d := by linarith
    exact_mod_cast this
  have tie : m % 2 = 1 → 2 * m * d ≠ 2 * n + d ∧ 2 * n ≠ 2 * m * d + d := by
    intro odd
    refine ⟨fun h => (tie odd).1 ?_, fun h => (tie odd).2 ?_⟩
    · have : (2 * m * d : ℚ) = 2 * n + d := by exact_mod_cast h
      linarith
    · have : (2 * n : ℚ) = 2 * m * d + d := by exact_mod_cast h
      linarith
  have split : n = d * (n / d) + n % d := (Nat.div_add_mod n d).symm
  have rest : n % d < d := Nat.mod_lt n hd
  unfold roundDiv
  generalize n / d = q at split ⊢
  generalize n % d = r at split rest ⊢
  subst split
  have above : m ≤ q + 1 := by
    by_contra h
    have : (q + 2) * d ≤ m * d := Nat.mul_le_mul_right d (by omega)
    nlinarith
  have below : q ≤ m := by
    by_contra h
    have : (m + 1) * d ≤ q * d := Nat.mul_le_mul_right d (by omega)
    nlinarith
  obtain rfl | rfl : m = q ∨ m = q + 1 := by omega
  · have e : 2 * (d * m + r) = 2 * m * d + 2 * r := by ring
    rw [e] at low high tie
    dsimp only
    split_ifs <;> omega
  · have e : 2 * (d * q + r) = 2 * q * d + 2 * r := by ring
    have e' : 2 * (q + 1) * d = 2 * q * d + 2 * d := by ring
    rw [e, e'] at low high tie
    dsimp only
    split_ifs <;> omega

/-! ### The exponent -/

/-- The binary logarithm of a quotient is the difference of those of its parts, or one less. -/
theorem log_div {n d : Nat} (hn : n ≠ 0) (hd : d ≠ 0) :
    Int.log 2 ((n : ℚ) / d) ≤ (n.log2 : Int) - d.log2 ∧
      (n.log2 : Int) - d.log2 ≤ Int.log 2 ((n : ℚ) / d) + 1 := by
  have hr : (0 : ℚ) < (n : ℚ) / d := by positivity
  have hd' : (0 : ℚ) < d := by positivity
  have n₁ : (2 : ℚ) ^ n.log2 ≤ n := by exact_mod_cast Nat.log2_self_le hn
  have n₂ : (n : ℚ) < 2 ^ (n.log2 + 1) := by exact_mod_cast Nat.lt_log2_self
  have d₁ : (2 : ℚ) ^ d.log2 ≤ d := by exact_mod_cast Nat.log2_self_le hd
  have d₂ : (d : ℚ) < 2 ^ (d.log2 + 1) := by exact_mod_cast Nat.lt_log2_self
  constructor
  · have : (n : ℚ) / d < (2 : ℚ) ^ ((n.log2 : Int) - d.log2 + 1) := by
      rw [div_lt_iff₀ hd']
      calc (n : ℚ) < 2 ^ (n.log2 + 1) := n₂
        _ = (2 : ℚ) ^ ((n.log2 : Int) - d.log2 + 1) * 2 ^ d.log2 := by
          rw [← zpow_natCast, ← zpow_natCast, ← zpow_add₀ (by norm_num)]
          congr 1
          push_cast
          ring
        _ ≤ (2 : ℚ) ^ ((n.log2 : Int) - d.log2 + 1) * d := by gcongr
    have := (Int.lt_zpow_iff_log_lt (b := 2) (by decide) hr).1 (by rwa [Nat.cast_ofNat])
    omega
  · have : (2 : ℚ) ^ ((n.log2 : Int) - d.log2 - 1) ≤ (n : ℚ) / d := by
      rw [le_div_iff₀ hd']
      calc (2 : ℚ) ^ ((n.log2 : Int) - d.log2 - 1) * d
          ≤ (2 : ℚ) ^ ((n.log2 : Int) - d.log2 - 1) * 2 ^ (d.log2 + 1) := by gcongr
        _ = 2 ^ n.log2 := by
          rw [← zpow_natCast, ← zpow_natCast, ← zpow_add₀ (by norm_num)]
          congr 1
          push_cast
          ring
        _ ≤ n := n₁
    have := (Int.zpow_le_iff_le_log (b := 2) (by decide) hr).1 (by rwa [Nat.cast_ofNat])
    omega

/-- The exponent of a positive quotient leaves `precision` binary digits before the point, unless
it would be less than the least one. -/
theorem exponentOf_eq {f : Format} {n d : Nat} (hn : n ≠ 0) (hd : d ≠ 0) :
    Binary.exponentOf f n d = max (Int.log 2 ((n : ℚ) / d) + 1 - f.precision) f.minExp := by
  have hr : (0 : ℚ) < (n : ℚ) / d := by positivity
  obtain ⟨low, high⟩ := log_div hn hd
  have full (e : Int) : 2 ^ f.precision ≤ (scaleRatio n d e).1 / (scaleRatio n d e).2 ↔
      e + f.precision ≤ Int.log 2 ((n : ℚ) / d) := by
    have pos : (0 : ℚ) < (scaleRatio n d e).2 := by
      exact_mod_cast scaleRatio_pos (Nat.pos_of_ne_zero hd) e
    rw [Nat.le_div_iff_mul_le (scaleRatio_pos (Nat.pos_of_ne_zero hd) e),
      add_comm e, ← Int.zpow_le_iff_le_log (by decide) hr, Nat.cast_ofNat, zpow_add₀ (by norm_num),
      zpow_natCast, ← le_div_iff₀ (by positivity), ← scaleRatio_eq, le_div_iff₀ pos]
    norm_cast
  unfold Binary.exponentOf
  simp only [full]
  split_ifs <;> omega

/-! ### Rounding intervals -/

namespace RoundingInterval

/-- A rational number lies in the interval. -/
def Contains (i : RoundingInterval) (r : ℚ) : Prop :=
  if i.closed then i.low * 2 ^ i.unit ≤ r ∧ r ≤ i.high * 2 ^ i.unit
  else i.low * 2 ^ i.unit < r ∧ r < i.high * 2 ^ i.unit

/-- How far the interval of `m * 2 ^ e` reaches down, in units of `2 ^ e`. -/
def depth (f : Format) (m : Nat) (e : Int) : ℚ :=
  if m = 2 ^ (f.precision - 1) ∧ f.minExp < e then 1 / 4 else 1 / 2

variable {f : Format} {m : Nat} {e : Int} {r : ℚ}

theorem depth_pos : 0 < depth f m e := by
  unfold depth
  split <;> norm_num

theorem depth_le : depth f m e ≤ 1 / 2 := by
  unfold depth
  split <;> norm_num

theorem ofBinary_low (hm : 0 < m) : ((ofBinary f m e).low : ℚ) = 4 * (m - depth f m e) := by
  unfold ofBinary depth
  dsimp only
  split
  · rw [Nat.cast_sub (by omega)]
    push_cast
    ring
  · rw [Nat.cast_sub (by omega)]
    push_cast
    ring

theorem ofBinary_high : ((ofBinary f m e).high : ℚ) = 4 * (m + 1 / 2) := by
  unfold ofBinary
  push_cast
  ring

/-- The interval of a number around it, in units of `2 ^ e`. -/
theorem contains_ofBinary (hm : 0 < m) : (ofBinary f m e).Contains r ↔
    ((m : ℚ) - depth f m e ≤ r / 2 ^ e ∧ r / 2 ^ e ≤ m + 1 / 2) ∧
      (m % 2 = 1 → (m : ℚ) - depth f m e ≠ r / 2 ^ e ∧ r / 2 ^ e ≠ m + 1 / 2) := by
  have pos : (0 : ℚ) < 2 ^ e := by positivity
  have quarter : (2 : ℚ) ^ (ofBinary f m e).unit = 2 ^ e / 4 := by
    show (2 : ℚ) ^ (e - 2) = 2 ^ e / 4
    rw [zpow_sub₀ (by norm_num)]
    norm_num
  have low : ((ofBinary f m e).low : ℚ) * 2 ^ (ofBinary f m e).unit =
      ((m : ℚ) - depth f m e) * 2 ^ e := by
    rw [ofBinary_low hm, quarter]
    ring
  have high : ((ofBinary f m e).high : ℚ) * 2 ^ (ofBinary f m e).unit = (m + 1 / 2) * 2 ^ e := by
    rw [ofBinary_high, quarter]
    ring
  unfold Contains
  rw [low, high, ne_eq, ne_eq, le_div_iff₀ pos, div_le_iff₀ pos, eq_div_iff pos.ne',
    div_eq_iff pos.ne']
  show (if decide (m % 2 = 0) = true then _ else _) ↔ _
  by_cases even : m % 2 = 0
  · simp [even]
  · have odd : m % 2 = 1 := by omega
    simp only [odd, lt_iff_le_and_ne, ne_eq]
    simp
    tauto

/-- A number lies in its own interval. -/
theorem contains_self (hm : 0 < m) : (ofBinary f m e).Contains (m * 2 ^ e) := by
  have pos : (0 : ℚ) < 2 ^ e := by positivity
  have depth := depth_pos (f := f) (m := m) (e := e)
  rw [contains_ofBinary hm, mul_div_cancel_right₀ _ pos.ne']
  refine ⟨⟨by linarith, by linarith⟩, fun _ => ⟨by linarith, by linarith⟩⟩

end RoundingInterval

/-! ### Rounding to nearest -/

namespace Binary

variable {f : Format} {m : Nat} {e : Int} (negative : Bool)

theorem pack_of_canonical (h : f.Canonical m e) : pack negative m e = .finite negative m e h :=
  dif_pos h

/-- A significand that has reached `2 ^ precision` is halved. -/
theorem pack_carry (h : f.Canonical m (e + 1)) (full : 2 ^ f.precision ≤ 2 * m) :
    pack negative (2 * m) e = .finite negative m (e + 1) h := by
  have half : 2 * m / 2 = m := by omega
  unfold pack
  rw [dif_neg fun c => absurd c.1 (by omega)]
  simp only [half, h, dite_true]

/-- Bounds by powers of two determine the exponent of a quotient. -/
theorem log_eq {r : ℚ} {t : Int} (low : (2 : ℚ) ^ t ≤ r) (high : r < 2 ^ (t + 1)) :
    Int.log 2 r = t := by
  have pos : 0 < r := lt_of_lt_of_le (by positivity) low
  have := (Int.zpow_le_iff_le_log (b := 2) (by decide) pos).1 (by rwa [Nat.cast_ofNat])
  have := (Int.lt_zpow_iff_log_lt (b := 2) (by decide) pos).1 (by rwa [Nat.cast_ofNat])
  omega

/-- The exponent at which a quotient in the interval of `m * 2 ^ e` is rounded is `e`, unless the
quotient lies below a power of two. -/
theorem exponentOf_of_contains {n d : Nat} (hp : 2 ≤ f.precision) (h : f.Canonical m e) (hm : 0 < m)
    (hn : n ≠ 0) (hd : 0 < d) (hr : (RoundingInterval.ofBinary f m e).Contains ((n : ℚ) / d)) :
    exponentOf f n d = e ∨
      (m = 2 ^ (f.precision - 1) ∧ f.minExp < e ∧ (n : ℚ) / d / 2 ^ e < m ∧
        exponentOf f n d + 1 = e) := by
  obtain ⟨⟨low, high⟩, -⟩ := (RoundingInterval.contains_ofBinary hm).1 hr
  obtain ⟨below, least, -, normal⟩ := h
  obtain ⟨p, hp⟩ : ∃ p, f.precision = p + 2 := ⟨f.precision - 2, by omega⟩
  have depth := RoundingInterval.depth_le (f := f) (m := m) (e := e)
  have scale : (0 : ℚ) < 2 ^ e := by positivity
  have full : (m : ℚ) + 1 ≤ 2 ^ f.precision := by exact_mod_cast below
  have positive : (0 : ℚ) < (n : ℚ) / d := by positivity
  have exponent := exponentOf_eq (f := f) hn hd.ne'
  have top : Int.log 2 ((n : ℚ) / d) < e + f.precision := by
    refine (Int.lt_zpow_iff_log_lt (b := 2) (by decide) positive).1 ?_
    rw [Nat.cast_ofNat, add_comm, zpow_add₀ (by norm_num), zpow_natCast, ← div_lt_iff₀ scale]
    linarith
  refine or_iff_not_imp_left.2 fun other => ?_
  have normal : 2 ^ (p + 1) ≤ m := by
    rcases normal with rfl | normal
    · omega
    · rwa [hp] at normal
  have short : (n : ℚ) / d / 2 ^ e < 2 ^ (p + 1) := by
    rw [div_lt_iff₀ scale, ← zpow_natCast, ← zpow_add₀ (by norm_num)]
    have := (Int.lt_zpow_iff_log_lt (b := 2) (x := ((p + 1 : Nat) : Int) + e) (by decide)
      positive).2 (by push_cast; omega)
    rwa [Nat.cast_ofNat] at this
  have power : m = 2 ^ (p + 1) := by
    refine le_antisymm (Nat.lt_succ_iff.1 ?_) normal
    have : (m : ℚ) < 2 ^ (p + 1) + 1 := by linarith
    exact_mod_cast this
  have value : (m : ℚ) = 2 ^ (p + 1) := by exact_mod_cast power
  have log : Int.log 2 ((n : ℚ) / d) = e + p := by
    refine log_eq ?_ ?_
    · rw [add_comm, zpow_add₀ (by norm_num), zpow_natCast, ← le_div_iff₀ scale]
      have : (1 : ℚ) ≤ 2 ^ p := one_le_pow₀ (by norm_num)
      rw [pow_succ] at value
      linarith
    · rw [show e + p + 1 = ((p + 1 : Nat) : Int) + e by push_cast; ring, zpow_add₀ (by norm_num),
        zpow_natCast, ← div_lt_iff₀ scale]
      exact short
  exact ⟨by rw [hp]; exact power, by omega, by rw [value]; exact short, by omega⟩

/-- **A quotient in the rounding interval of a number is rounded to that number.** -/
theorem ofRatio_eq {n d : Nat} (hp : 2 ≤ f.precision) (h : f.Canonical m e) (hm : 0 < m)
    (hd : 0 < d) (hr : (RoundingInterval.ofBinary f m e).Contains ((n : ℚ) / d)) :
    ofRatio negative n d = .finite negative m e h := by
  obtain ⟨⟨low, high⟩, tie⟩ := (RoundingInterval.contains_ofBinary hm).1 hr
  have depth := RoundingInterval.depth_le (f := f) (m := m) (e := e)
  have one : (1 : ℚ) ≤ m := by exact_mod_cast hm
  have hn : n ≠ 0 := by
    rintro rfl
    rw [Nat.cast_zero, zero_div, zero_div] at low
    linarith
  unfold ofRatio
  rcases exponentOf_of_contains hp h hm hn hd hr with same | ⟨power, above, short, rfl⟩
  · have nearest : roundDiv (scaleRatio n d e).1 (scaleRatio n d e).2 = m := by
      refine roundDiv_eq (scaleRatio_pos hd e) ?_ ?_ fun odd => ?_ <;> rw [scaleRatio_eq]
      · linarith
      · exact high
      · refine ⟨fun half => ?_, (tie odd).2⟩
        exact (tie odd).1 (by linarith)
    simp only [if_neg hn, same, nearest]
    exact pack_of_canonical negative h
  · -- The quotient lies so close below the power of two that the significand is twice as large.
    generalize exponentOf f n d = k at *
    have quarter : RoundingInterval.depth f m (k + 1) = 1 / 4 := if_pos ⟨power, above⟩
    have twice : (n : ℚ) / d / 2 ^ k = 2 * ((n : ℚ) / d / 2 ^ (k + 1)) := by
      rw [zpow_add_one₀ (by norm_num)]
      field_simp
    have nearest : roundDiv (scaleRatio n d k).1 (scaleRatio n d k).2 = 2 * m := by
      refine roundDiv_eq (scaleRatio_pos hd k) ?_ ?_ fun odd => by omega
      · rw [scaleRatio_eq, twice]
        push_cast
        linarith
      · rw [scaleRatio_eq, twice]
        push_cast
        linarith
    simp only [if_neg hn, nearest]
    refine pack_carry negative h ?_
    rw [power, ← pow_succ', Nat.sub_add_cancel (by omega)]

end Binary

end DocQuery
