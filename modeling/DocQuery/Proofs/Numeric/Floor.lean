import DocQuery.Proofs.Numeric.Whole

/-!
# Rounding down

The whole number below a double is a double again, so that rounding down rounds no second time.

* `Binary.floor_of_isIntegral` – a whole number is its own floor;
* `Binary.isIntegral_floor` – the floor of a finite double is a whole number;
* `Binary.floor_floor` – **rounding down twice is rounding down once**.
-/

namespace DocQuery

namespace Binary

/-- The whole part of a whole number is its magnitude. -/
theorem wholePart_of_isWhole {m : Nat} {e : Int} (whole : isWhole m e = true) :
    (wholePart m e : ℚ) = m * 2 ^ e := by
  unfold wholePart
  split
  case isTrue pos =>
    obtain ⟨k, rfl⟩ := Int.eq_ofNat_of_zero_le pos
    push_cast
    rfl
  case isFalse neg =>
    obtain ⟨k, hk⟩ : ∃ k : Nat, -e = k := Int.eq_ofNat_of_zero_le (by omega)
    obtain rfl : e = -(k : Int) := by omega
    rw [isWhole, decide_eq_false neg, Bool.false_or, neg_neg, Int.toNat_natCast] at whole
    have divides : m / 2 ^ k * 2 ^ k = m :=
      Nat.div_mul_cancel (Nat.dvd_of_mod_eq_zero (of_decide_eq_true whole))
    rw [neg_neg, Int.toNat_natCast, zpow_neg, zpow_natCast, ← div_eq_mul_inv,
      eq_div_iff (by positivity)]
    exact_mod_cast divides

theorem wholePart_zero (e : Int) : wholePart 0 e = 0 := by
  rw [wholePart, Nat.zero_mul, Nat.zero_div, ite_self]

/-- A whole number is its own floor. -/
theorem floor_of_isIntegral {x : Double} (whole : x.isIntegral = true) : x.floor = x := by
  cases x with
  | nan => cases whole
  | infinity => cases whole
  | finite negative m e h =>
    have whole : isWhole m e = true := whole
    have part := wholePart_of_isWhole whole
    rw [floor]
    simp only [whole, Bool.not_true, Bool.and_false, Bool.false_eq_true, if_false]
    rcases Nat.eq_zero_or_pos m with rfl | pos
    · -- zero has one form for each sign, with the least exponent
      obtain rfl : e = Format.double.minExp :=
        h.2.2.2.resolve_right (Nat.not_le.mpr (Nat.two_pow_pos _))
      rw [wholePart_zero, ofRatio, if_pos rfl, zero, dif_pos h]
    · refine ofRatio_eq negative (by decide) h pos Nat.one_pos ?_
      rw [part, Nat.cast_one, div_one]
      exact RoundingInterval.contains_self pos

/-- The floor of a finite double is a whole number. -/
theorem isIntegral_floor {x : Double} (finite : x.isFinite = true) : x.floor.isIntegral = true := by
  cases whole : x.isIntegral with
  | true => rwa [floor_of_isIntegral whole]
  | false =>
    cases x with
    | nan => cases finite
    | infinity => cases finite
    | finite negative m e h =>
      have fraction : isWhole m e = false := whole
      have neg : ¬ 0 ≤ e := by
        intro pos
        simp [isWhole, pos] at fraction
      -- a number with a fraction lies below the numbers of 53 digits
      have small : wholePart m e < 2 ^ 53 := by
        rw [wholePart, if_neg neg]
        exact (Nat.div_le_self _ _).trans_lt h.1
      rw [floor]
      refine (ofRatio_whole negative ?_).1
      split <;> omega

/-- **Rounding down twice is rounding down once.** -/
theorem floor_floor (x : Double) : x.floor.floor = x.floor := by
  cases finite : x.isFinite with
  | true => exact floor_of_isIntegral (isIntegral_floor finite)
  | false =>
    cases x with
    | nan => rfl
    | infinity => rfl
    | finite => cases finite

end Binary

end DocQuery
