import DocQuery.Proofs.Numeric.Rounding

/-!
# The digits that are written lie in the rounding interval

* `RoundingInterval.holds_iff`, `RoundingInterval.reaches_iff` – the comparisons by integer products
  are those of rational numbers;
* `RoundingInterval.onGrid?_isSome` – **seventeen digits suffice**: on a grid with steps of a 10¹⁶th
  of the number, one of its two neighbours lies in the interval;
* `RoundingInterval.magnitude_le` – the power of ten that the search starts from is at most the
  number, which rests on `30103 / 100000` being the decimal logarithm of two up to a hair
  (`ten_zpow_le`);
* `shortest_contains` – **the decimal that is written lies in the rounding interval**.
-/

namespace DocQuery

/-- A decimal as a rational number. -/
def Decimal.value (d : Decimal) : ℚ := d.digits * 10 ^ d.exponent

/-! ### Powers of ten beside powers of two -/

/-- When `k / n` is at least the decimal logarithm of two, but hardly more, a power of ten is found
below a power of two by multiplying the exponent with it. -/
theorem ten_zpow_le {n k : Nat} (hn : n ≠ 0) (least : 2 ^ n ≤ 10 ^ k) (most : 10 ^ k ≤ 2 ^ (n + 1))
    {p t : Int} (hp : n * p ≤ k * t) (ht : t ≤ 3 * n) : (10 : ℚ) ^ (p - 1) ≤ 2 ^ t := by
  have least : (2 : ℚ) ^ n ≤ 10 ^ k := by exact_mod_cast least
  have most : (10 : ℚ) ^ k ≤ 2 ^ (n + 1) := by exact_mod_cast most
  refine (pow_le_pow_iff_left₀ (by positivity) (by positivity) hn).1 ?_
  have enough : ((10 : ℚ) ^ k) ^ t ≤ ((2 : ℚ) ^ n) ^ t * 10 ^ n := by
    rcases le_total 0 t with pos | neg
    · obtain ⟨s, rfl⟩ := Int.eq_ofNat_of_zero_le pos
      have : (2 : ℚ) ^ s ≤ 10 ^ n := by
        calc (2 : ℚ) ^ s ≤ 2 ^ (3 * n) := pow_le_pow_right₀ (by norm_num) (by omega)
          _ = 8 ^ n := by rw [pow_mul]; norm_num
          _ ≤ 10 ^ n := by gcongr; norm_num
      calc ((10 : ℚ) ^ k) ^ (s : Int) ≤ (2 ^ (n + 1)) ^ (s : Int) := by
            rw [zpow_natCast, zpow_natCast]
            gcongr
        _ = (2 ^ n) ^ (s : Int) * 2 ^ s := by
            rw [pow_succ, mul_zpow, zpow_natCast, zpow_natCast]
        _ ≤ (2 ^ n) ^ (s : Int) * 10 ^ n := by gcongr
    · obtain ⟨s, hs⟩ := Int.eq_ofNat_of_zero_le (neg_nonneg.2 neg)
      obtain rfl : t = -s := by omega
      calc ((10 : ℚ) ^ k) ^ (-s : Int) ≤ (2 ^ n) ^ (-s : Int) := by
            rw [zpow_neg, zpow_neg, zpow_natCast, zpow_natCast]
            gcongr
        _ ≤ (2 ^ n) ^ (-s : Int) * 10 ^ n :=
            le_mul_of_one_le_right (by positivity) (one_le_pow₀ (by norm_num))
  calc ((10 : ℚ) ^ (p - 1)) ^ n = (10 : ℚ) ^ (n * p) / 10 ^ n := by
        rw [← zpow_natCast, ← zpow_mul, ← zpow_natCast, ← zpow_sub₀ (by norm_num)]
        congr 1
        ring
    _ ≤ (10 : ℚ) ^ (k * t) / 10 ^ n := by
        gcongr
        norm_num
    _ = ((10 : ℚ) ^ k) ^ t / 10 ^ n := by rw [zpow_mul, zpow_natCast]
    _ ≤ ((2 : ℚ) ^ n) ^ t := by
        rw [div_le_iff₀ (by positivity)]
        exact enough
    _ = ((2 : ℚ) ^ t) ^ n := by
        rw [← zpow_natCast, ← zpow_mul, ← zpow_natCast, ← zpow_mul, mul_comm]

namespace RoundingInterval

variable (i : RoundingInterval) (k : Int)

/-- The number in whose rounding interval we are. -/
def center : ℚ := i.value * 2 ^ i.unit

theorem center_ofBinary (f : Format) (m : Nat) (e : Int) : (ofBinary f m e).center = m * 2 ^ e := by
  show ((4 * m : Nat) : ℚ) * 2 ^ (e - 2) = m * 2 ^ e
  rw [zpow_sub₀ (by norm_num)]
  push_cast
  ring

/-! ### Comparing with a grid -/

theorem factors_pos : 0 < (i.factors k).1 ∧ 0 < (i.factors k).2 :=
  ⟨Nat.mul_pos (Nat.pow_pos (by decide)) (Nat.two_pow_pos _),
    Nat.mul_pos (Nat.two_pow_pos _) (Nat.pow_pos (by decide))⟩

/-- The factors are the power of ten and the unit on a common scale. -/
theorem factors_eq : ∃ s : ℚ, 0 < s ∧ ((i.factors k).1 : ℚ) = 10 ^ k * s ∧
    ((i.factors k).2 : ℚ) = 2 ^ i.unit * s := by
  have clear (b : ℚ) (hb : b ≠ 0) (z : Int) : b ^ z.toNat = b ^ z * b ^ (-z).toNat := by
    rw [← zpow_natCast, ← zpow_natCast, ← zpow_add₀ hb]
    congr 1
    omega
  refine ⟨2 ^ (-i.unit).toNat * 10 ^ (-k).toNat, by positivity, ?_, ?_⟩
  · show ((10 ^ k.toNat * 2 ^ (-i.unit).toNat : Nat) : ℚ) = _
    push_cast
    rw [clear 10 (by norm_num) k]
    ring
  · show ((2 ^ i.unit.toNat * 10 ^ (-k).toNat : Nat) : ℚ) = _
    push_cast
    rw [clear 2 (by norm_num) i.unit]
    ring

theorem factors_le (c x : Nat) : c * (i.factors k).1 ≤ x * (i.factors k).2 ↔
    (c : ℚ) * 10 ^ k ≤ x * 2 ^ i.unit := by
  obtain ⟨s, pos, left, right⟩ := i.factors_eq k
  rw [← mul_le_mul_iff_left₀ pos, mul_assoc, ← left, mul_assoc, ← right]
  norm_cast

theorem factors_ge (c x : Nat) : x * (i.factors k).2 ≤ c * (i.factors k).1 ↔
    (x : ℚ) * 2 ^ i.unit ≤ c * 10 ^ k := by
  obtain ⟨s, pos, left, right⟩ := i.factors_eq k
  rw [← mul_le_mul_iff_left₀ pos, mul_assoc, ← right, mul_assoc, ← left]
  norm_cast

theorem holds_iff (c : Nat) : i.holds k c = true ↔ i.Contains (c * 10 ^ k) := by
  unfold holds Contains
  cases i.closed <;>
    simp [factors_le, factors_ge, ← not_le]

theorem reaches_iff : i.reaches k = true ↔ (10 : ℚ) ^ k ≤ i.center := by
  have := i.factors_le k 1 i.value
  simp only [one_mul, Nat.cast_one] at this
  unfold reaches
  simp [this, center]

/-! ### The choice on a grid -/

variable {i k}

/-- What is written on a grid lies in the interval. -/
theorem contains_of_onGrid? {tie : Tie} {c : Nat} (h : i.onGrid? tie k = some c) :
    i.Contains (c * 10 ^ k) := by
  rw [← holds_iff]
  unfold onGrid? at h
  dsimp only at h
  generalize i.value * (i.factors k).2 / (i.factors k).1 = n at h
  generalize i.value * (i.factors k).2 % (i.factors k).1 = rest at h
  split at h
  case h_1 low high =>
    cases tie <;> dsimp only at h <;> split_ifs at h <;> cases h <;> assumption
  case h_2 low high => cases h; exact low
  case h_3 low high => cases h; exact high
  case h_4 => cases h

/-- The number lies between its neighbours on a grid. -/
theorem neighbours : ∃ n : Nat,
    (n : ℚ) * 10 ^ k ≤ i.center ∧ i.center < (n + 1 : Nat) * 10 ^ k ∧
      ∀ tie, i.Contains (n * 10 ^ k) ∨ i.Contains ((n + 1 : Nat) * 10 ^ k) →
        (i.onGrid? tie k).isSome := by
  refine ⟨i.value * (i.factors k).2 / (i.factors k).1, ?_, ?_, fun tie near => ?_⟩
  · exact (factors_le i k _ _).1 (Nat.div_mul_le_self _ _)
  · refine not_le.1 fun h => ?_
    exact absurd ((factors_le i k _ _).2 h)
      (not_le.2 ((Nat.div_lt_iff_lt_mul (i.factors_pos k).1).1 (Nat.lt_succ_self _)))
  · rw [← holds_iff, ← holds_iff] at near
    unfold onGrid?
    dsimp only
    split
    case h_1 =>
      cases tie <;> dsimp only <;> split_ifs <;> rfl
    case h_2 => rfl
    case h_3 => rfl
    case h_4 low high => simp [low, high] at near

/-- A grid with steps of at most a 10¹⁶th of the number has a point in the interval: **seventeen
digits suffice** for a precision of at most 53 binary digits. -/
theorem onGrid?_isSome {f : Format} {m : Nat} {e : Int} (tie : Tie) (hp : f.precision ≤ 53)
    (h : f.Canonical m e) (hm : 0 < m) (fine : (10 : ℚ) ^ (k + 16) ≤ m * 2 ^ e) :
    ((ofBinary f m e).onGrid? tie k).isSome := by
  obtain ⟨n, below, above, some⟩ := neighbours (i := ofBinary f m e) (k := k)
  refine some tie ?_
  have scale : (0 : ℚ) < 2 ^ e := by positivity
  rw [center_ofBinary, ← div_le_div_iff_of_pos_right scale, mul_div_cancel_right₀ _ scale.ne']
    at below
  rw [center_ofBinary, ← div_lt_div_iff_of_pos_right scale, mul_div_cancel_right₀ _ scale.ne']
    at above
  rw [contains_ofBinary hm, contains_ofBinary hm]
  -- In units of the last place, the number stands at `m` and the grid has steps of `step`.
  have step : (n + 1 : Nat) * (10 : ℚ) ^ k / 2 ^ e = n * 10 ^ k / 2 ^ e + 10 ^ k / 2 ^ e := by
    push_cast
    ring
  have small : (10 : ℚ) ^ k / 2 ^ e * 10 ^ 16 ≤ m := by
    rw [zpow_add₀ (by norm_num)] at fine
    rw [div_mul_eq_mul_div, div_le_iff₀ scale]
    exact_mod_cast fine
  rw [step] at above ⊢
  generalize (n : ℚ) * 10 ^ k / 2 ^ e = a at *
  generalize (10 : ℚ) ^ k / 2 ^ e = g at *
  have short : g < 2 * depth f m e := by
    unfold depth
    split
    case isTrue power =>
      have : (m : ℚ) ≤ 2 ^ 52 := by
        exact_mod_cast power.1.le.trans (Nat.pow_le_pow_right (by decide) (by omega : _ ≤ 52))
      linarith
    case isFalse =>
      have : (m : ℚ) < 2 ^ 53 := by
        exact_mod_cast h.1.trans_le (Nat.pow_le_pow_right (by decide) hp)
      linarith
  have depth := depth_le (f := f) (m := m) (e := e)
  -- The nearer one of the two neighbours is less than half of the least width away.
  by_cases near : (m : ℚ) - a ≤ g / 2
  · exact .inl ⟨⟨by linarith, by linarith⟩, fun _ => ⟨by linarith, by linarith⟩⟩
  · exact .inr ⟨⟨by linarith, by linarith⟩, fun _ => ⟨by linarith, by linarith⟩⟩

/-! ### The power of ten at the number -/

/-- The power of ten that is found is at most the number. -/
theorem magnitude_le (hv : i.value ≠ 0) (bounded : i.value.log2 + i.unit ≤ 300000) :
    (10 : ℚ) ^ i.magnitude ≤ i.center := by
  have binary : (2 : ℚ) ^ (i.value.log2 + i.unit) ≤ i.center := by
    unfold center
    rw [zpow_add₀ (by norm_num), zpow_natCast]
    gcongr
    exact_mod_cast Nat.log2_self_le hv
  unfold magnitude
  dsimp only
  split
  case isTrue h => exact (reaches_iff i _).1 h
  case isFalse =>
    split
    case isTrue h => exact (reaches_iff i _).1 h
    case isFalse =>
      refine le_trans (ten_zpow_le (n := 100000) (k := 30103) (by decide) (by decide +kernel)
        (by decide +kernel) ?_ bounded) binary
      rw [Int.fdiv_eq_ediv_of_nonneg _ (by decide)]
      omega

end RoundingInterval

/-! ### The fewest digits -/

/-- Dropping final zeros does not change the value. -/
theorem Decimal.strip_value (fuel : Nat) (d : Decimal) : (d.strip fuel).value = d.value := by
  induction fuel generalizing d with
  | zero => rfl
  | succ fuel ih =>
    unfold strip
    split
    case isTrue h =>
      rw [ih]
      obtain ⟨c, hc⟩ := Nat.dvd_of_mod_eq_zero h.2
      unfold value
      dsimp only
      rw [hc, Nat.mul_div_cancel_left c (by decide), zpow_add_one₀ (by norm_num)]
      push_cast
      ring
    case isFalse => rfl

/-- **The digits that are written for a number lie in its rounding interval.** -/
theorem shortest_contains {f : Format} {m : Nat} {e : Int} (tie : Tie) (hp : f.precision ≤ 53)
    (he : f.maxExp ≤ 200000) (h : f.Canonical m e) (hm : 0 < m) :
    (RoundingInterval.ofBinary f m e).Contains (shortest f tie m e).value := by
  set i := RoundingInterval.ofBinary f m e with hi
  have bounded : i.value.log2 + i.unit ≤ 300000 := by
    have : (4 * m).log2 < 55 := by
      rw [Nat.log2_lt (by omega)]
      calc 4 * m < 4 * 2 ^ f.precision := by have := h.1; omega
        _ ≤ 4 * 2 ^ 53 := Nat.mul_le_mul_left _ (Nat.pow_le_pow_right (by decide) hp)
        _ = 2 ^ 55 := by norm_num
    show ((4 * m).log2 : Int) + (e - 2) ≤ 300000
    have := h.2.2.1
    omega
  have reached : (10 : ℚ) ^ i.magnitude ≤ m * 2 ^ e := by
    rw [← RoundingInterval.center_ofBinary f]
    exact RoundingInterval.magnitude_le (by show 4 * m ≠ 0; omega) bounded
  unfold shortest
  rw [← hi]
  dsimp only
  generalize i.magnitude = p at *
  obtain ⟨c, hc⟩ := Option.isSome_iff_exists.1
    (RoundingInterval.onGrid?_isSome (k := p - 16) tie hp h hm (by rwa [sub_add_cancel]))
  cases found : (List.range 17).findSome? fun n : Nat =>
      (i.onGrid? tie (p - n)).map fun c => Decimal.strip 2 ⟨c, p - n⟩ with
  | none =>
    have := (List.findSome?_eq_none_iff.1 found) 16 (by decide)
    rw [Option.map_eq_none_iff] at this
    exact absurd (hc.symm.trans this) (by simp)
  | some d =>
    obtain ⟨n, -, some⟩ := List.exists_of_findSome?_eq_some found
    obtain ⟨c, grid, rfl⟩ := Option.map_eq_some_iff.1 some
    rw [Option.getD_some, Decimal.strip_value]
    exact RoundingInterval.contains_of_onGrid? grid

end DocQuery
