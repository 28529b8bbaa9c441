import DocQuery.Proofs.FieldType.Idempotent

/-!
# Integers, typed in

The text of an integer is read as a double and rounded down. Nothing is lost on the way down, for
the double is a whole number; but it is the double nearest to the integer, and from 2⁵³ on these lie
more than one apart.

* `FieldType.nearest` – the whole number nearest to an integer among the doubles;
* `nearest_eq_self_iff` – which integers are doubles: those of which the binary digits behind the
  first 53 are zeros;
* `floorToInt_ofInt` – what is made of the double nearest to an integer;
* `coerce_integer_iff` – **the text of an integer, typed in for an integer, becomes the nearest
  double, and the integer itself exactly if that is a double**.
-/

namespace DocQuery

/-- A whole number is kept exactly if its binary digits behind the first 53 are zeros. -/
theorem rounded_eq_self_iff (n : Nat) : rounded n = n ↔ 2 ^ (n.log2 - 52) ∣ n := by
  constructor
  · intro same
    exact Dvd.intro_left (roundDiv n (2 ^ (n.log2 - 52))) same
  · intro divides
    have kept := roundDiv_mul (n / 2 ^ (n.log2 - 52)) (Nat.two_pow_pos (n.log2 - 52))
    rw [Nat.div_mul_cancel divides] at kept
    rw [rounded, kept, Nat.div_mul_cancel divides]

namespace FieldType

/-- The whole number nearest to an integer among the doubles, the even one of two. -/
def nearest (i : Int) : Int := i.sign * rounded i.natAbs

/-- **An integer is a double** exactly if its binary digits behind the first 53 are zeros. -/
theorem nearest_eq_self_iff (i : Int) :
    nearest i = i ↔ 2 ^ (i.natAbs.log2 - 52) ∣ i.natAbs := by
  rw [← rounded_eq_self_iff]
  constructor
  · intro same
    by_cases zero : i = 0
    · subst zero
      exact rounded_small (by decide)
    · have size := congrArg Int.natAbs same
      rwa [nearest, Int.natAbs_mul, Int.natAbs_sign_of_ne_zero zero, Nat.one_mul,
        Int.natAbs_natCast] at size
  · intro same
    rw [nearest, same, Int.sign_mul_natAbs]

/-- Rounding an integer of 64 bits leads at most to the first power of two behind them. -/
theorem nearest_bounds (n : Int64) : -(2 ^ 63) ≤ nearest n.toInt ∧ nearest n.toInt ≤ 2 ^ 63 := by
  have least := n.le_toInt
  have most := n.toInt_lt
  have power : rounded (2 ^ 63) = 2 ^ 63 :=
    (rounded_eq_self_iff _).mpr (by rw [Nat.log2_two_pow]; exact Nat.pow_dvd_pow 2 (by decide))
  have size : rounded n.toInt.natAbs ≤ 2 ^ 63 :=
    power ▸ rounded_mono (show n.toInt.natAbs ≤ 2 ^ 63 by omega)
  unfold nearest
  rcases Int.sign_trichotomy n.toInt with sign | sign | sign <;> rw [sign] <;> omega

/-- **What is made of the double nearest to an integer.** It is a whole number, so that rounding
down leaves it; but it may have left the range of integers. -/
theorem floorToInt_ofInt (n : Int64) : floorToInt (Binary.ofInt n.toInt) =
    if nearest n.toInt < 2 ^ 63 then .int (Int64.ofInt (nearest n.toInt))
    else .float (Binary.ofInt n.toInt) := by
  have least := n.le_toInt
  have most := n.toInt_lt
  obtain ⟨whole, -, part⟩ := Binary.ofInt_whole (i := n.toInt) (by omega)
  have part : (Binary.ofInt n.toInt : Double).truncate? = some (nearest n.toInt) := part
  have low := (nearest_bounds n).1
  rw [floorToInt, Binary.floor_of_isIntegral whole, part]
  simp only [low, true_and]

/-- The text of an integer is read as the double nearest to it. -/
theorem readNumber?_toString (n : Int64) :
    readNumber? (toString n.toInt).toList = some (Binary.ofInt n.toInt) := by
  rw [readNumber?, trim_numerals fun c => isNumeral_of_mem_toString, readDecimal?_toString,
    Option.filter_some, if_pos (Binary.isFinite_ofInt n)]

section Typed

variable {t : FieldType} (integer : t.element = .int) (n : Int64)

include integer

/-- The text of an integer, typed in for an integer, is rounded to a double and then down. -/
theorem coerce_toString :
    coerce (some t) (toString n.toInt) = floorToInt (Binary.ofInt n.toInt) := by
  have numeral : ∀ c ∈ (toString n.toInt).toList, isNumeral c = true :=
    fun c => isNumeral_of_mem_toString
  rw [coerce_of_uncut (isNullWord_numerals numeral) (comma_notMem_numerals numeral), coerceScalar,
    isNullWord_numerals numeral, integer, if_neg Bool.false_ne_true]
  dsimp only
  rw [readNumber?_toString]

/-- **The text of an integer, typed in for an integer or an array of integers, becomes the double
nearest to it**: as an integer, or floating if it is 2⁶³. So it becomes the integer itself exactly
if that is a double, which holds up to 2⁵³ in size. -/
theorem coerce_integer_iff :
    (coerce (some t) (toString n.toInt) =
      if nearest n.toInt < 2 ^ 63 then .int (Int64.ofInt (nearest n.toInt))
      else .float (Binary.ofInt n.toInt)) ∧
    (coerce (some t) (toString n.toInt) = .int n ↔
      2 ^ (n.toInt.natAbs.log2 - 52) ∣ n.toInt.natAbs) ∧
    (n.toInt.natAbs ≤ 2 ^ 53 → coerce (some t) (toString n.toInt) = .int n) := by
  have becomes := (coerce_toString integer n).trans (floorToInt_ofInt n)
  have exact_iff : coerce (some t) (toString n.toInt) = .int n ↔
      2 ^ (n.toInt.natAbs.log2 - 52) ∣ n.toInt.natAbs := by
    rw [← nearest_eq_self_iff, becomes]
    obtain ⟨low, -⟩ := nearest_bounds n
    have most := n.toInt_lt
    split
    case isTrue fits =>
      rw [Value.int.injEq, ← Int64.toInt_inj, Int64.toInt_ofInt_of_le low fits]
    case isFalse beyond => exact iff_of_false nofun fun same => beyond (same.trans_lt most)
  refine ⟨becomes, exact_iff, fun small => exact_iff.mpr ?_⟩
  rcases small.lt_or_eq with below | power
  · exact (rounded_eq_self_iff _).mp (rounded_small below)
  · rw [power, Nat.log2_two_pow]
    exact Nat.pow_dvd_pow 2 (by decide)

end Typed

/-- One below 2⁶³ becomes 2⁶³, which is no integer of 64 bits. -/
theorem coerce_integer_iff_largest :
    (FieldType.array .int).element = .int ∧
      toString (9223372036854775807 : Int64).toInt = "9223372036854775807" ∧
      coerce (some (.array .int)) "9223372036854775807" = .float (Binary.ofInt 9223372036854775807) := by
  have integer : (FieldType.array .int).element = .int := rfl
  have text : toString (9223372036854775807 : Int64).toInt = "9223372036854775807" := by decide
  have above : ¬ nearest (9223372036854775807 : Int64).toInt < 2 ^ 63 := by decide +kernel
  have becomes := (coerce_integer_iff integer 9223372036854775807).1
  rw [if_neg above, text] at becomes
  exact ⟨integer, text, becomes⟩

/-- The least positive integer that is no double is taken for its neighbour. -/
theorem coerce_integer_rounds :
    ofName? "int64" = some .int ∧ toString (9007199254740993 : Int64).toInt = "9007199254740993" ∧
      coerce (ofName? "int64") "9007199254740993" = .int 9007199254740992 ∧
      coerce (ofName? "int64") "9007199254740993" ≠ .int 9007199254740993 := by
  have name : ofName? "int64" = some .int := by decide
  have text : toString (9007199254740993 : Int64).toInt = "9007199254740993" := by decide
  have rounded : nearest (9007199254740993 : Int64).toInt = 2 ^ 53 := by decide +kernel
  have read : coerce (ofName? "int64") "9007199254740993" = .int 9007199254740992 := by
    rw [name, ← text, coerce_toString rfl, floorToInt_ofInt, rounded]
    rfl
  refine ⟨name, text, read, ?_⟩
  rw [read]
  exact fun same => absurd (Value.int.inj same) (by decide)

end FieldType

end DocQuery
