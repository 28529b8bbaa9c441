import DocQuery.Proofs.Numeric.Whole

/-!
# Rounding stays in range

* `Binary.magnitude` – the size of a number, as a rational number;
* `Binary.ofRatio_le` – a quotient up to a power of two in range is rounded to a finite number up to
  the same power;
* `Binary.div_le` – so that a division by what is at least one leaves a bound as it is.
-/

namespace DocQuery

/-! ### Rounding against whole numbers -/

theorem roundDiv_le {a b k : Nat} (hb : 0 < b) (h : a ≤ k * b) : roundDiv a b ≤ k :=
  (roundDiv_mono h).trans (roundDiv_mul k hb).le

theorem le_roundDiv {a b k : Nat} (hb : 0 < b) (h : k * b ≤ a) : k ≤ roundDiv a b :=
  (roundDiv_mul k hb).ge.trans (roundDiv_mono h)

namespace Binary

variable (negative : Bool)

/-- The size of a finite number. -/
def magnitude {f : Format} : Binary f → ℚ
  | .finite _ m e _ => m * 2 ^ e
  | _ => 0

/-! ### Rounding a quotient -/

/-- A significand that has at most reached `2 ^ precision` makes a finite number. -/
theorem pack_finite {m : Nat} {e : Int} (low : -1074 ≤ e) (most : m ≤ 2 ^ 53)
    (normal : e = -1074 ∨ 2 ^ 52 ≤ m) (high : e ≤ 971) (carry : m = 2 ^ 53 → e < 971) :
    (pack negative m e : Double).isFinite = true ∧
      (pack negative m e : Double).magnitude = m * 2 ^ e := by
  rcases most.lt_or_eq with below | rfl
  · have canonical : Format.double.Canonical m e := ⟨below, low, high, normal⟩
    rw [pack_of_canonical negative canonical]
    exact ⟨rfl, rfl⟩
  · have canonical : Format.double.Canonical (2 ^ 52) (e + 1) :=
      ⟨by decide, by show (-1074 : Int) ≤ _; omega, by show _ ≤ (971 : Int); have := carry rfl; omega,
        .inr le_rfl⟩
    rw [show 2 ^ 53 = 2 * 2 ^ 52 from rfl, pack_carry negative canonical le_rfl]
    refine ⟨rfl, ?_⟩
    rw [magnitude, zpow_add_one₀ (by norm_num)]
    push_cast
    ring

section Quotient

variable {n d : Nat} {k : Int} (hn : n ≠ 0) (hd : 0 < d)

include hn hd

/-- A quotient is rounded at an exponent that leaves 53 binary digits before the point, unless that
would be less than the least one. -/
theorem exists_scaled : ∃ (a b : Nat) (e : Int), 0 < b ∧ (a : ℚ) / b = (n : ℚ) / d / 2 ^ e ∧
    e = Max.max (Int.log 2 ((n : ℚ) / d) - 52) (-1074) ∧
    (ofRatio negative n d : Double) = pack negative (roundDiv a b) e := by
  refine ⟨_, _, exponentOf .double n d, scaleRatio_pos hd _, scaleRatio_eq _, ?_, ?_⟩
  · rw [exponentOf_eq hn hd.ne']
    show Max.max (_ + 1 - ((53 : Nat) : Int)) (-1074) = _
    congr 1
    omega
  · rw [ofRatio, if_neg hn]

/-- A positive quotient that is at most a power of two in range is rounded to a finite number that
is at most this power. -/
theorem ofRatio_pos_le (low : -1074 ≤ k) (high : k ≤ 1023) (h : (n : ℚ) / d ≤ 2 ^ k) :
    (ofRatio negative n d : Double).isFinite = true ∧
      (ofRatio negative n d : Double).magnitude ≤ 2 ^ k := by
  obtain ⟨a, b, e, hb, scaled, exponent, packed⟩ := exists_scaled negative hn hd
  have positive : (0 : ℚ) < (n : ℚ) / d := by positivity
  have hb' : (0 : ℚ) < b := by exact_mod_cast hb
  have log : Int.log 2 ((n : ℚ) / d) ≤ k := by
    have power := Int.log_zpow (R := ℚ) (b := 2) (by decide) k
    rw [Nat.cast_ofNat] at power
    exact (Int.log_mono_right positive h).trans_eq power
  have quotient : (2 : ℚ) ^ Int.log 2 ((n : ℚ) / d) ≤ (n : ℚ) / d :=
    Int.zpow_log_le_self (by decide) positive
  have quotient' : (n : ℚ) / d < (2 : ℚ) ^ (Int.log 2 ((n : ℚ) / d) + 1) :=
    Int.lt_zpow_succ_log_self (by decide) _
  generalize Int.log 2 ((n : ℚ) / d) = t at *
  have le_of (j : Nat) (hj : (n : ℚ) / d ≤ 2 ^ (e + j)) : roundDiv a b ≤ 2 ^ j := by
    refine roundDiv_le hb ?_
    rw [zpow_add₀ (by norm_num), zpow_natCast, mul_comm, ← div_le_iff₀ (by positivity), ← scaled,
      div_le_iff₀ hb'] at hj
    exact_mod_cast hj
  have most : roundDiv a b ≤ 2 ^ 53 := by
    refine le_of 53 (quotient'.le.trans ?_)
    exact zpow_le_zpow_right₀ (by norm_num) (by omega)
  have bound : roundDiv a b ≤ 2 ^ (k - e).toNat := by
    refine le_of _ ?_
    rwa [show e + ((k - e).toNat : Int) = k by omega]
  have normal : e = -1074 ∨ 2 ^ 52 ≤ roundDiv a b := by
    refine or_iff_not_imp_left.2 fun above => le_roundDiv hb ?_
    have : (2 : ℚ) ^ (e + 52) ≤ (n : ℚ) / d := by rwa [show e + 52 = t by omega]
    rw [zpow_add₀ (by norm_num), mul_comm, ← le_div_iff₀ (by positivity), ← scaled,
      le_div_iff₀ hb'] at this
    exact_mod_cast this
  have carry : roundDiv a b = 2 ^ 53 → e < 971 := by
    intro full
    rw [full] at bound
    have := (Nat.pow_le_pow_iff_right (by decide)).1 bound
    omega
  obtain ⟨finite, size⟩ := pack_finite negative (by omega) most normal (by omega) carry
  rw [packed]
  refine ⟨finite, size.trans_le ?_⟩
  calc ((roundDiv a b : Nat) : ℚ) * 2 ^ e ≤ 2 ^ (k - e).toNat * 2 ^ e := by
        gcongr
        exact_mod_cast bound
    _ = 2 ^ k := by
      rw [← zpow_natCast, ← zpow_add₀ (by norm_num)]
      congr 1
      omega

end Quotient

/-- **A quotient that is at most a power of two in range is rounded to a finite number** that is at
most this power. -/
theorem ofRatio_le {n d : Nat} {k : Int} (hd : 0 < d) (low : -1074 ≤ k) (high : k ≤ 1023)
    (h : (n : ℚ) / d ≤ 2 ^ k) :
    (ofRatio negative n d : Double).isFinite = true ∧
      (ofRatio negative n d : Double).magnitude ≤ 2 ^ k := by
  rcases eq_or_ne n 0 with rfl | hn
  · have canonical : Format.double.Canonical 0 (-1074) := by decide
    have eq : (ofRatio negative 0 d : Double) = .finite negative 0 (-1074) canonical :=
      (if_pos rfl).trans (dif_pos canonical)
    rw [eq]
    refine ⟨rfl, ?_⟩
    rw [magnitude, Nat.cast_zero, zero_mul]
    positivity
  · exact ofRatio_pos_le negative hn hd low high h

theorem ofRatio_nat_le {n : Nat} (hn : n < 2 ^ 64) :
    (ofRatio negative n 1 : Double).isFinite = true ∧
      (ofRatio negative n 1 : Double).magnitude ≤ 2 ^ (64 : Int) := by
  refine ofRatio_le negative Nat.one_pos (by decide) (by decide) ?_
  rw [Nat.cast_one, div_one]
  exact_mod_cast hn.le

/-- No natural number of 64 bits is too large for a double. -/
theorem isFinite_ofRatio_nat {n : Nat} (hn : n < 2 ^ 64) :
    (ofRatio negative n 1 : Double).isFinite = true :=
  (ofRatio_nat_le negative hn).1

/-- No integer of 64 bits is too large for a double. -/
theorem isFinite_ofInt (i : Int64) : (ofInt i.toInt : Double).isFinite = true := by
  have low := i.le_toInt
  have high := i.toInt_lt
  exact isFinite_ofRatio_nat _ (by omega)

/-- A number with a whole part is at least one. -/
theorem one_le_magnitude {x : Double} (h : 0 < x.truncate?.getD 0) :
    x.isFinite = true ∧ 1 ≤ x.magnitude := by
  cases x with
  | nan => cases h
  | infinity => cases h
  | finite s m e _ =>
    refine ⟨rfl, ?_⟩
    have part : 0 < wholePart m e := by
      rw [truncate?, Option.getD_some] at h
      split at h <;> omega
    unfold wholePart at part
    rw [magnitude]
    split at part
    case isTrue pos =>
      obtain ⟨k, rfl⟩ := Int.eq_ofNat_of_zero_le pos
      rw [Int.toNat_natCast] at part
      rw [zpow_natCast]
      exact_mod_cast part
    case isFalse neg =>
      obtain ⟨k, rfl⟩ : ∃ k : Nat, e = -k := ⟨(-e).toNat, by omega⟩
      rw [neg_neg, Int.toNat_natCast] at part
      rw [zpow_neg, zpow_natCast, ← div_eq_mul_inv, one_le_div (by positivity)]
      exact_mod_cast (Nat.div_pos_iff.1 part).2

/-! ### Quotients of numbers -/

theorem ratio_pos (m : Nat) (e : Int) : 0 < (ratio m e).2 := by
  unfold ratio
  split
  · exact Nat.one_pos
  · exact Nat.two_pow_pos _

theorem ratio_eq (m : Nat) (e : Int) : ((ratio m e).1 : ℚ) / (ratio m e).2 = m * 2 ^ e := by
  unfold ratio
  split
  case isTrue h =>
    obtain ⟨k, rfl⟩ := Int.eq_ofNat_of_zero_le h
    simp
  case isFalse h =>
    obtain ⟨k, rfl⟩ : ∃ k : Nat, e = -k := ⟨(-e).toNat, by omega⟩
    simp [div_eq_mul_inv]

/-- **Dividing by what is at least one leaves a bound as it is.** -/
theorem div_le {x y : Double} {k : Int} (hx : x.isFinite = true) (hy : y.isFinite = true)
    (one : 1 ≤ y.magnitude) (low : -1074 ≤ k) (high : k ≤ 1023) (h : x.magnitude ≤ 2 ^ k) :
    (x.div y).isFinite = true ∧ (x.div y).magnitude ≤ 2 ^ k := by
  cases x with
  | nan => cases hx
  | infinity => cases hx
  | finite s m e _ =>
  cases y with
  | nan => cases hy
  | infinity => cases hy
  | finite s' m' e' _ =>
    have positive : m' ≠ 0 := by
      rintro rfl
      rw [magnitude, Nat.cast_zero, zero_mul] at one
      exact absurd one (by norm_num)
    rw [div, if_neg positive]
    have quotient : (((ratio m (e - e')).1 : Nat) : ℚ) / ((ratio m (e - e')).2 * m' : Nat) =
        m * 2 ^ e / (m' * 2 ^ e') := by
      rw [Nat.cast_mul, ← div_div, ratio_eq, zpow_sub₀ (by norm_num)]
      field_simp
    have bound : (((ratio m (e - e')).1 : Nat) : ℚ) / ((ratio m (e - e')).2 * m' : Nat) ≤ 2 ^ k := by
      rw [quotient]
      exact (div_le_self (by positivity) one).trans h
    exact ofRatio_le (s != s')
      (Nat.mul_pos (ratio_pos m (e - e')) (Nat.pos_of_ne_zero positive)) low high bound

end Binary

end DocQuery
