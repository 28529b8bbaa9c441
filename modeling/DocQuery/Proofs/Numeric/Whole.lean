import DocQuery.Proofs.Numeric.Rounding

/-!
# Whole numbers among the doubles

* `Binary.ofInt_small` – an integer below 2⁵³ is a double of the same value;
* `Binary.ofInt_large` – a larger one is rounded to a double that is no smaller than 2⁵³;
* `Binary.units_eq`, `Binary.compare?_of_truncate?` – whole numbers are compared by their values;
* `rounded` – what is left of a whole number, and `Binary.ofInt_whole` – integers are rounded so;
* `sign_mul_rounded_mono` – **rounding keeps the order of integers**, though it may take two of them
  to one number.
-/

namespace DocQuery

/-! ### What rounding leaves of a whole number -/

theorem roundDiv_mono {n m d : Nat} (h : n ≤ m) : roundDiv n d ≤ roundDiv m d := by
  have quotient : n / d ≤ m / d := Nat.div_le_div_right h
  have rest : n / d = m / d → n % d ≤ m % d := by
    intro same
    have left := Nat.div_add_mod n d
    have right := Nat.div_add_mod m d
    rw [same] at left
    omega
  unfold roundDiv
  dsimp only
  split_ifs <;> omega

theorem roundDiv_mul (a : Nat) {d : Nat} (hd : 0 < d) : roundDiv (a * d) d = a := by
  unfold roundDiv
  rw [Nat.mul_div_cancel a hd, Nat.mul_mod_left]
  exact if_pos hd

/-- What 53 binary digits leave of a whole number. -/
def rounded (n : Nat) : Nat := roundDiv n (2 ^ (n.log2 - 52)) * 2 ^ (n.log2 - 52)

theorem rounded_small {n : Nat} (hn : n < 2 ^ 53) : rounded n = n := by
  have short : n.log2 - 52 = 0 := by
    rcases Nat.eq_zero_or_pos n with rfl | pos
    · rfl
    · have := (Nat.log2_lt pos.ne').2 hn
      omega
  have whole := roundDiv_mul n Nat.one_pos
  rw [mul_one] at whole
  rw [rounded, short, pow_zero, mul_one, whole]

/-- Rounding does not leave the interval between two powers of two. -/
theorem rounded_bounds {n : Nat} (hn : n ≠ 0) :
    2 ^ n.log2 ≤ rounded n ∧ rounded n ≤ 2 ^ (n.log2 + 1) := by
  have low := Nat.log2_self_le hn
  have high : n < 2 ^ (n.log2 + 1) := Nat.lt_log2_self
  by_cases small : n < 2 ^ 53
  · rw [rounded_small small]
    exact ⟨low, high.le⟩
  · have long : 53 ≤ n.log2 := (Nat.le_log2 hn).2 (not_lt.1 small)
    have pos : 0 < 2 ^ (n.log2 - 52) := Nat.two_pow_pos _
    have first : 2 ^ n.log2 = 2 ^ 52 * 2 ^ (n.log2 - 52) := by
      rw [← pow_add, show 52 + (n.log2 - 52) = n.log2 by omega]
    have last : 2 ^ (n.log2 + 1) = 2 ^ 53 * 2 ^ (n.log2 - 52) := by
      rw [← pow_add, show 53 + (n.log2 - 52) = n.log2 + 1 by omega]
    constructor
    · calc 2 ^ n.log2 = roundDiv (2 ^ 52 * 2 ^ (n.log2 - 52)) (2 ^ (n.log2 - 52)) *
            2 ^ (n.log2 - 52) := by rw [roundDiv_mul _ pos, first]
        _ ≤ rounded n := Nat.mul_le_mul_right _ (roundDiv_mono (first ▸ low))
    · calc rounded n ≤ roundDiv (2 ^ 53 * 2 ^ (n.log2 - 52)) (2 ^ (n.log2 - 52)) *
            2 ^ (n.log2 - 52) := Nat.mul_le_mul_right _ (roundDiv_mono (last ▸ high.le))
        _ = 2 ^ (n.log2 + 1) := by rw [roundDiv_mul _ pos, last]

/-- **Rounding keeps the order of whole numbers.** -/
theorem rounded_mono {n m : Nat} (h : n ≤ m) : rounded n ≤ rounded m := by
  rcases Nat.eq_zero_or_pos n with rfl | pos
  · rw [rounded_small (by decide)]
    exact Nat.zero_le _
  · have hn : n ≠ 0 := pos.ne'
    have hm : m ≠ 0 := by omega
    have log : n.log2 ≤ m.log2 := (Nat.le_log2 hm).2 ((Nat.log2_self_le hn).trans h)
    rcases log.lt_or_eq with less | same
    · calc rounded n ≤ 2 ^ (n.log2 + 1) := (rounded_bounds hn).2
        _ ≤ 2 ^ m.log2 := Nat.pow_le_pow_right (by decide) less
        _ ≤ rounded m := (rounded_bounds hm).1
    · unfold rounded
      rw [same]
      exact Nat.mul_le_mul_right _ (roundDiv_mono h)

/-- **Rounding keeps the order of integers.** -/
theorem sign_mul_rounded_mono {i j : Int} (h : i ≤ j) :
    i.sign * rounded i.natAbs ≤ j.sign * rounded j.natAbs := by
  rcases lt_or_ge j 0 with jNeg | jPos
  · rw [Int.sign_eq_neg_one_of_neg jNeg, Int.sign_eq_neg_one_of_neg (h.trans_lt jNeg)]
    have := rounded_mono (n := j.natAbs) (m := i.natAbs) (by omega)
    omega
  · rcases lt_or_ge 0 i with iPos | iNeg
    · rw [Int.sign_eq_one_of_pos iPos, Int.sign_eq_one_of_pos (iPos.trans_le h)]
      have := rounded_mono (n := i.natAbs) (m := j.natAbs) (by omega)
      omega
    · have left : i.sign * rounded i.natAbs ≤ 0 :=
        mul_nonpos_of_nonpos_of_nonneg (Int.sign_nonpos_iff.2 iNeg) (Int.natCast_nonneg _)
      exact left.trans (mul_nonneg (Int.sign_nonneg_iff.2 jPos) (Int.natCast_nonneg _))

namespace Binary

variable (negative : Bool)

/-- A small whole number is a double, with an exponent that is not positive. -/
theorem ofRatio_small {n : Nat} (hn : n < 2 ^ 53) : ∃ m e h,
    (ofRatio negative n 1 : Double) = .finite negative m e h ∧ e ≤ 0 ∧
      m = n * 2 ^ (-e).toNat := by
  by_cases zero : n = 0
  · subst zero
    exact ⟨0, -1074, by decide, (if_pos rfl).trans (dif_pos _), by decide, (Nat.zero_mul _).symm⟩
  · have low := Nat.log2_self_le zero
    have high : n < 2 ^ (n.log2 + 1) := Nat.lt_log2_self
    have log : n.log2 < 53 := (Nat.log2_lt zero).2 hn
    have full : n.log2 + (52 - n.log2) = 52 := by omega
    have canonical : Format.double.Canonical (n * 2 ^ (52 - n.log2)) (n.log2 - 52) := by
      refine ⟨?_, ?_, ?_, .inr ?_⟩
      · calc n * 2 ^ (52 - n.log2) < 2 ^ (n.log2 + 1) * 2 ^ (52 - n.log2) :=
              Nat.mul_lt_mul_of_pos_right high (Nat.two_pow_pos _)
          _ = 2 ^ 53 := by rw [← pow_add]; congr 1; omega
      · show (-1074 : Int) ≤ _
        omega
      · show _ ≤ (971 : Int)
        omega
      · calc 2 ^ 52 = 2 ^ n.log2 * 2 ^ (52 - n.log2) := by rw [← pow_add, full]
          _ ≤ n * 2 ^ (52 - n.log2) := Nat.mul_le_mul_right _ low
    have exponent : (-((n.log2 : Int) - 52)).toNat = 52 - n.log2 := by omega
    refine ⟨_, _, canonical, ofRatio_eq negative (by decide) canonical
      (Nat.mul_pos (Nat.pos_of_ne_zero zero) (Nat.two_pow_pos _)) Nat.one_pos ?_, by omega,
      by rw [exponent]⟩
    have := RoundingInterval.contains_self (f := .double) (m := n * 2 ^ (52 - n.log2))
      (e := n.log2 - 52) (Nat.mul_pos (Nat.pos_of_ne_zero zero) (Nat.two_pow_pos _))
    convert this using 1
    rw [Nat.cast_one, div_one, Nat.cast_mul, mul_assoc, Nat.cast_pow, Nat.cast_ofNat,
      ← zpow_natCast, ← zpow_add₀ (by norm_num)]
    rw [show ((52 - n.log2 : Nat) : Int) + (n.log2 - 52) = 0 by omega, zpow_zero, mul_one]

/-- A large whole number is rounded to a double with an exponent that is not negative. -/
theorem ofRatio_large {n : Nat} (low : 2 ^ 53 ≤ n) (high : n < 2 ^ 64) : ∃ m e h,
    (ofRatio negative n 1 : Double) = .finite negative m e h ∧ 0 ≤ e ∧
      m * 2 ^ e.toNat = rounded n := by
  have hn : n ≠ 0 := by omega
  have long : 53 ≤ n.log2 := (Nat.le_log2 hn).2 low
  have short : n.log2 < 64 := (Nat.log2_lt hn).2 high
  obtain ⟨k, hk⟩ : ∃ k, n.log2 = k + 53 := ⟨n.log2 - 53, by omega⟩
  have log : Int.log 2 ((n : ℚ) / (1 : Nat)) = n.log2 := by
    rw [Nat.cast_one, div_one, Int.log_natCast, Nat.log2_eq_log_two]
  have exponent : exponentOf .double n 1 = (k + 1 : Nat) := by
    rw [exponentOf_eq hn one_ne_zero, log]
    show Max.max ((n.log2 : Int) + 1 - (53 : Nat)) (-1074) = _
    omega
  have scaled : scaleRatio n 1 (k + 1 : Nat) = (n, 2 ^ (k + 1)) := by
    rw [scaleRatio, if_pos (Int.natCast_nonneg _), one_mul, Int.toNat_natCast]
  have value : rounded n = roundDiv n (2 ^ (k + 1)) * 2 ^ (k + 1) := by
    rw [rounded, hk, show k + 53 - 52 = k + 1 by omega]
  -- the significand has its 53 digits, or one more when it was rounded up to a power of two
  have bounds : 2 ^ 52 ≤ roundDiv n (2 ^ (k + 1)) ∧ roundDiv n (2 ^ (k + 1)) ≤ 2 ^ 53 := by
    have pos : 0 < 2 ^ (k + 1) := Nat.two_pow_pos _
    have first : 2 ^ n.log2 = 2 ^ 52 * 2 ^ (k + 1) := by
      rw [← pow_add, hk, show 52 + (k + 1) = k + 53 by omega]
    have last : 2 ^ (n.log2 + 1) = 2 ^ 53 * 2 ^ (k + 1) := by
      rw [← pow_add, hk, show 53 + (k + 1) = k + 53 + 1 by omega]
    have := rounded_bounds hn
    rw [value, first, last] at this
    exact ⟨Nat.le_of_mul_le_mul_right this.1 pos, Nat.le_of_mul_le_mul_right this.2 pos⟩
  have packed : (ofRatio negative n 1 : Double) =
      pack negative (roundDiv n (2 ^ (k + 1))) (k + 1 : Nat) := by
    unfold ofRatio
    simp only [if_neg hn, exponent, scaled]
  rw [packed, value]
  obtain ⟨least, most⟩ := bounds
  generalize roundDiv n (2 ^ (k + 1)) = j at *
  by_cases full : j < 2 ^ 53
  · have canonical : Format.double.Canonical j (k + 1 : Nat) :=
      ⟨full, by show (-1074 : Int) ≤ _; omega, by show _ ≤ (971 : Int); omega, .inr least⟩
    exact ⟨_, _, canonical, pack_of_canonical negative canonical, by omega, rfl⟩
  · obtain rfl : j = 2 * 2 ^ 52 := by omega
    have canonical : Format.double.Canonical (2 ^ 52) ((k + 1 : Nat) + 1) :=
      ⟨by decide, by show (-1074 : Int) ≤ _; omega, by show _ ≤ (971 : Int); omega, .inr le_rfl⟩
    refine ⟨_, _, canonical, pack_carry negative canonical le_rfl, by omega, ?_⟩
    show 2 ^ 52 * 2 ^ (k + 2) = 2 * 2 ^ 52 * 2 ^ (k + 1)
    ring

/-- A whole number is rounded to a whole number. -/
theorem ofRatio_whole {n : Nat} (hn : n < 2 ^ 64) :
    (ofRatio negative n 1 : Double).isIntegral = true ∧
      (ofRatio negative n 1 : Double).isNegative = negative ∧
      (ofRatio negative n 1 : Double).truncate? =
        some (if negative then -(rounded n : Int) else rounded n) := by
  by_cases small : n < 2 ^ 53
  · obtain ⟨m, e, h, eq, neg, rfl⟩ := ofRatio_small negative small
    have part : wholePart (n * 2 ^ (-e).toNat) e = n := by
      unfold wholePart
      split
      case isTrue pos =>
        obtain rfl : e = 0 := le_antisymm neg pos
        simp
      case isFalse => rw [Nat.mul_div_cancel _ (Nat.two_pow_pos _)]
    rw [eq, rounded_small small]
    exact ⟨by simp [isIntegral, isWhole], rfl, by rw [truncate?, part]⟩
  · obtain ⟨m, e, h, eq, pos, value⟩ := ofRatio_large negative (not_lt.1 small) hn
    have part : wholePart m e = rounded n := (if_pos pos).trans value
    rw [eq]
    exact ⟨by simp [isIntegral, isWhole, pos], rfl, by rw [truncate?, part]⟩

/-! ### Whole numbers -/

/-- The value of a whole number, counted in units. -/
theorem units_eq {f : Format} (hf : f.minExp ≤ 0) {x : Binary f} (whole : x.isIntegral = true)
    {n : Int} (hn : x.truncate? = some n) : x.units = n * 2 ^ (-f.minExp).toNat := by
  cases x with
  | nan => cases hn
  | infinity => cases hn
  | finite negative m e h =>
    have count : m * 2 ^ (e - f.minExp).toNat = wholePart m e * 2 ^ (-f.minExp).toNat := by
      unfold wholePart
      split
      case isTrue pos =>
        rw [mul_assoc, ← pow_add]
        congr 2
        omega
      case isFalse neg =>
        have divides : 2 ^ (-e).toNat ∣ m :=
          Nat.dvd_of_mod_eq_zero (by simpa [isIntegral, isWhole, neg] using whole)
        have least := h.2.1
        conv_lhs => rw [← Nat.div_mul_cancel divides, mul_assoc, ← pow_add]
        congr 2
        omega
    cases hn
    unfold units
    dsimp only
    have count : (m : Int) * 2 ^ (e - f.minExp).toNat = wholePart m e * 2 ^ (-f.minExp).toNat := by
      exact_mod_cast count
    rw [count]
    split <;> ring

theorem isNaN_of_isFinite {f : Format} {x : Binary f} (h : x.isFinite = true) :
    x.isNaN = false := by
  cases x with
  | nan => cases h
  | infinity => rfl
  | finite => rfl

theorem isNaN_of_isIntegral {f : Format} {x : Binary f} (h : x.isIntegral = true) :
    x.isNaN = false := by
  cases x with
  | nan => cases h
  | infinity => cases h
  | finite => rfl

/-- Two whole numbers with the same integer part are numerically equal. -/
theorem compare?_of_truncate? {f : Format} (hf : f.minExp ≤ 0) {x y : Binary f}
    (hx : x.isIntegral = true) (hy : y.isIntegral = true) {n : Int} (xn : x.truncate? = some n)
    (yn : y.truncate? = some n) : x.compare? y = some .eq := by
  simp [compare?, isNaN_of_isIntegral hx, isNaN_of_isIntegral hy, units_eq hf hx xn,
    units_eq hf hy yn]

theorem compare?_self {f : Format} {x : Binary f} (h : x.isNaN = false) :
    x.compare? x = some .eq := by
  simp [compare?, h]

/-- An integer is rounded to a whole number, which keeps its sign. -/
theorem ofInt_whole {i : Int} (hi : i.natAbs < 2 ^ 64) :
    (ofInt i : Double).isIntegral = true ∧ (ofInt i : Double).isNegative = decide (i < 0) ∧
      (ofInt i : Double).truncate? = some (i.sign * rounded i.natAbs) := by
  obtain ⟨whole, sign, part⟩ := ofRatio_whole (decide (i < 0)) hi
  refine ⟨whole, sign, part.trans (congrArg some ?_)⟩
  obtain less | rfl | pos := lt_trichotomy i 0
  · rw [decide_eq_true less, if_pos rfl, Int.sign_eq_neg_one_of_neg less, neg_one_mul]
  · rfl
  · rw [decide_eq_false (not_lt.2 pos.le), Int.sign_eq_one_of_pos pos, one_mul]
    rfl

/-- An integer of moderate size is a double. -/
theorem ofInt_small {i : Int} (hi : i.natAbs < 2 ^ 53) :
    (ofInt i : Double).isIntegral = true ∧ (ofInt i : Double).truncate? = some i := by
  obtain ⟨whole, -, part⟩ := ofInt_whole (hi.trans (by decide : 2 ^ 53 < 2 ^ 64))
  rw [rounded_small hi, Int.sign_mul_natAbs] at part
  exact ⟨whole, part⟩

/-- An integer of immoderate size is rounded to a number of immoderate size. -/
theorem ofInt_large {i : Int} (low : 2 ^ 53 ≤ i.natAbs) (high : i.natAbs < 2 ^ 64) :
    (ofInt i : Double).isFinite = true ∧
      ∀ n, (ofInt i : Double).truncate? = some n → 2 ^ 53 ≤ n.natAbs := by
  have nonzero : i.natAbs ≠ 0 := by omega
  constructor
  · obtain ⟨m, e, h, eq, -, -⟩ := ofRatio_large (decide (i < 0)) low high
    rw [ofInt, eq, isFinite]
  · intro n hn
    rw [(ofInt_whole high).2.2] at hn
    obtain rfl := Option.some.inj hn
    rw [Int.natAbs_mul, Int.natAbs_sign_of_ne_zero (by omega), one_mul, Int.natAbs_natCast]
    exact (Nat.pow_le_pow_right (by decide) ((Nat.le_log2 nonzero).2 low)).trans
      (rounded_bounds nonzero).1

end Binary

end DocQuery
