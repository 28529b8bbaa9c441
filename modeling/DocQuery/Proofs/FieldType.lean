import DocQuery.Proofs.Discovery.Types
import DocQuery.Proofs.Numeric.Range
import DocQuery.Proofs.Numeric.Text
import DocQuery.Proofs.Text
import Mathlib

/-!
# Displayed values, typed in

Filter input is text, and what a person types is often what a table shows.

* `FieldType.coerce_number` – the text of a number, typed in for a number, is that number;
* `Value.looseEq_narrow_float`, `Value.looseEq_narrow_int` – numbers are equal to what is made of
  them, integers beyond 2⁵³ although they are rounded;
* `Value.isTypeable` – the values whose text is taken at its word, and
  `Value.looseEq_coerce_display` – **the displayed text of a value, typed in for an attribute of its
  type, equals the value exactly if it is typeable**.
-/

namespace DocQuery

namespace FieldType

/-! ### Texts of numbers -/

/-- The characters of numbers by their codes: `+`, `-`, `.`, the digits and `e`. -/
theorem toNat_of_isNumeral {c : Char} (h : isNumeral c = true) :
    (43 ≤ c.toNat ∧ c.toNat ≤ 57 ∧ c.toNat ≠ 44) ∨ c.toNat = 101 := by
  simp only [isNumeral, Char.isDigit, Bool.or_eq_true, Bool.and_eq_true, decide_eq_true_eq,
    beq_iff_eq] at h
  rcases h with (((⟨hlow, hhigh⟩ | rfl) | rfl) | rfl) | rfl
  · have hlow : 48 ≤ c.toNat := UInt32.le_iff_toNat_le.mp hlow
    have hhigh : c.toNat ≤ 57 := UInt32.le_iff_toNat_le.mp hhigh
    omega
  all_goals decide

section Numerals

variable {cs : List Char} (h : ∀ c ∈ cs, isNumeral c = true)

include h

theorem trim_numerals : trim cs = cs := by
  refine trim_eq_self fun c hc => ?_
  have := toNat_of_isNumeral (h c hc)
  simp only [isSpace, Bool.or_eq_false_iff, Bool.and_eq_false_iff, decide_eq_false_iff_not]
  omega

theorem isNullWord_numerals : isNullWord cs = false := by
  rw [isNullWord, trim_numerals h, decide_eq_false_iff_not]
  intro hword
  have hn : 'n' ∈ lowerAscii cs := by
    rw [hword]
    decide
  obtain ⟨c, hc, hlower⟩ := List.mem_map.mp hn
  have hcode := toNat_of_isNumeral (h c hc)
  -- none of these characters is a letter that is put into lower case
  have hself : c.toLower = c := by
    refine dif_neg fun hcase => ?_
    have hlow : 65 ≤ c.toNat := UInt32.le_iff_toNat_le.mp hcase.1
    have hhigh : c.toNat ≤ 90 := UInt32.le_iff_toNat_le.mp hcase.2
    omega
  rw [hself] at hlower
  subst hlower
  exact absurd hcode (by decide)

theorem comma_notMem_numerals : cs.contains ',' = false := by
  refine Bool.eq_false_iff.mpr fun hcomma => ?_
  have := toNat_of_isNumeral (h _ (List.mem_of_elem_eq_true hcomma))
  exact absurd this (by decide)

end Numerals

/-- Text without commas that is not the word `null` is one piece of input. -/
theorem coerce_literal {t : FieldType} (helement : t.element = t) (hobject : t ≠ .object)
    {raw : String} (hnull : isNullWord raw.toList = false)
    (hcomma : raw.toList.contains ',' = false) :
    coerce (some t) raw = coerceScalar t raw.toList := by
  rw [coerce]
  simp only [hnull, Option.map_some, helement, hcomma]
  cases t <;> simp_all

/-- Text that is no number stays text where a number is wanted. -/
theorem coerce_word {raw : String} (hnull : isNullWord raw.toList = false)
    (hcomma : raw.toList.contains ',' = false) (hnumber : readNumber? raw.toList = none) :
    coerce (some .number) raw = .string raw := by
  rw [coerce_literal rfl (by decide) hnull hcomma, coerceScalar, hnull]
  simp [element, hnumber]

/-- The text of a number, typed in for a number, is that number. -/
theorem coerce_number {raw : String} (h : ∀ c ∈ raw.toList, isNumeral c = true) {x : Double}
    (hread : readDecimal? raw.toList = some x) (hfinite : x.isFinite = true) :
    coerce (some .number) raw = narrow x := by
  rw [coerce_literal rfl (by decide) (isNullWord_numerals h) (comma_notMem_numerals h),
    coerceScalar, isNullWord_numerals h]
  have hnumber : readNumber? raw.toList = some x := by
    rw [readNumber?, trim_numerals h, hread, Option.filter_some, if_pos hfinite]
  simp [element, hnumber]

end FieldType

namespace Value

open FieldType

/-! ### Numbers -/

theorem toInt_ofInt {n : Int} (h : n.natAbs ≤ maxExact) : (Int64.ofInt n).toInt = n := by
  have : maxExact = 2 ^ 53 - 1 := rfl
  refine Int64.toInt_ofInt_of_le ?_ ?_ <;> omega

/-- A large integer of 64 bits is rounded to a large number. -/
theorem ofInt_large {i : Int64} (h : ¬ i.toInt.natAbs ≤ maxExact) :
    (Binary.ofInt i.toInt : Double).isFinite = true ∧
      ∀ n, (Binary.ofInt i.toInt : Double).truncate? = some n → 2 ^ 53 ≤ n.natAbs := by
  have hmax : maxExact = 2 ^ 53 - 1 := rfl
  have hlow := i.le_toInt
  have hhigh := i.toInt_lt
  exact Binary.ofInt_large (by omega) (by omega)

/-- Numbers of both types are equal if they compare so. -/
theorem looseEq_of_compare? {v w : Value} (hv : v.kind.isNumeric = true)
    (hw : w.kind.isNumeric = true) (h : v.compare? w = some .eq) : v.looseEq w = true := by
  unfold looseEq
  split
  · cases hv
  · simp [hv, hw, h]

/-- **A floating-point number is equal to what is made of it**: itself, or an integer of the same
value. -/
theorem looseEq_narrow_float {x : Double} (hfinite : x.isFinite = true) :
    (Value.float x).looseEq (narrow x) = true := by
  have hself : (Value.float x).looseEq (.float x) = true :=
    looseEq_of_compare? rfl rfl (Binary.compare?_self (Binary.isNaN_of_isFinite hfinite))
  unfold narrow
  split
  case h_1 n htruncate =>
    split
    case isTrue hwhole =>
      obtain ⟨hintegral, hsmall⟩ := Bool.and_eq_true_iff.mp hwhole
      have hsmall : n.natAbs ≤ maxExact := of_decide_eq_true hsmall
      obtain ⟨hintegral', htruncate'⟩ := Binary.ofInt_small (i := n) (Nat.lt_succ_iff.mpr hsmall)
      refine looseEq_of_compare? rfl rfl ?_
      show x.compare? (Binary.ofInt (Int64.ofInt n).toInt) = some .eq
      rw [toInt_ofInt hsmall]
      exact Binary.compare?_of_truncate? (by decide) hintegral hintegral' htruncate htruncate'
    case isFalse => exact hself
  case h_2 => exact hself

/-- **An integer is equal to what is made of the number nearest to it.** -/
theorem looseEq_narrow_int (i : Int64) :
    (Value.int i).looseEq (narrow (Binary.ofInt i.toInt)) = true := by
  by_cases hsmall : i.toInt.natAbs ≤ maxExact
  · obtain ⟨hintegral, htruncate⟩ := Binary.ofInt_small (Nat.lt_succ_iff.mpr hsmall)
    have hnarrow : narrow (Binary.ofInt i.toInt) = .int i := by
      simp [narrow, htruncate, hintegral, hsmall]
    rw [hnarrow]
    exact looseEq_of_compare? rfl rfl (congrArg some (Std.compare_self (a := i.toInt)))
  · obtain ⟨hfinite, hlarge⟩ := ofInt_large hsmall
    have hnarrow : narrow (Binary.ofInt i.toInt) = .float (Binary.ofInt i.toInt) := by
      unfold narrow
      split
      case h_1 n htruncate =>
        have hn := hlarge n htruncate
        have hmax : maxExact = 2 ^ 53 - 1 := rfl
        refine if_neg fun hwhole => ?_
        have := of_decide_eq_true (Bool.and_eq_true_iff.mp hwhole).2
        omega
      case h_2 => rfl
    rw [hnarrow]
    exact looseEq_of_compare? rfl rfl (Binary.compare?_self (Binary.isNaN_of_isFinite hfinite))

/-! ### Typed values -/

/-- The text of the value is taken at its word when it is typed in: it is not the word for null, it
is not cut at commas, and numbers are finite. -/
def isTypeable : Value → Bool
  | .float x => x.isFinite
  | .string s => !isNullWord s.toList && !s.toList.contains ','
  | _ => true

theorem looseEq_coerce_string {t : FieldType} (ht : t = .string ∨ t = .datetime) (s : String) :
    (Value.string s).looseEq (coerce (some t) s) = (Value.string s).isTypeable := by
  cases hnull : isNullWord s.toList with
  | true =>
    have hnothing : coerce (some t) s = .null := if_pos hnull
    rw [hnothing]
    simp [looseEq, same, kind, Kind.isNumeric, isTypeable, hnull]
  | false =>
    cases hcomma : s.toList.contains ',' with
    | true =>
      have harray : ∃ items, coerce (some t) s = .array items := by
        rcases ht with rfl | rfl
        · exact ⟨_, by simp only [coerce, hnull, hcomma, Option.map_some, element]; rfl⟩
        · exact ⟨_, by simp only [coerce, hnull, hcomma, Option.map_some, element]; rfl⟩
      obtain ⟨items, harray⟩ := harray
      rw [harray]
      simp [looseEq, same, kind, Kind.isNumeric, isTypeable, hnull, List.mem_of_elem_eq_true hcomma]
    | false =>
      have hstring : coerce (some t) s = .string s := by
        rcases ht with rfl | rfl
        · rw [coerce_literal rfl (by decide) hnull hcomma]
          simp [coerceScalar, hnull, element]
        · rw [coerce_literal rfl (by decide) hnull hcomma]
          simp [coerceScalar, hnull, element]
      have hmem : ',' ∉ s.toList := fun h => by simp [h] at hcomma
      rw [hstring]
      simp [looseEq, same, kind, Kind.isNumeric, isTypeable, hnull, hmem]

theorem looseEq_coerce_number (v : Value) (hv : v.kind.isNumeric = true) :
    v.looseEq (coerce (some .number) v.display) = v.isTypeable := by
  cases v with
  | null => cases hv
  | bool => cases hv
  | string => cases hv
  | array => cases hv
  | object => cases hv
  | int i =>
    have hdisplay : (Value.int i).display = toString i.toInt := by simp [display, text]
    rw [hdisplay, coerce_number (fun c => isNumeral_of_mem_toString) (readDecimal?_toString _)
      (Binary.isFinite_ofInt i), looseEq_narrow_int]
    rfl
  | float x =>
    have hdisplay : (Value.float x).display = x.text .display := by simp [display, text]
    rw [hdisplay]
    cases hfinite : x.isFinite with
    | true =>
      rw [coerce_number (fun c => Binary.isNumeral_of_mem_text hfinite)
        (Binary.readDecimal?_text _ hfinite) hfinite, looseEq_narrow_float hfinite, isTypeable,
        hfinite]
    | false =>
      have hword : ∃ s, coerce (some .number) (x.text .display) = .string s := by
        cases x with
        | nan => exact ⟨"NaN", coerce_word (by decide) (by decide) (by cbv)⟩
        | infinity negative =>
          cases negative with
          | true => exact ⟨"-inf", coerce_word (by decide) (by decide) (by cbv)⟩
          | false => exact ⟨"inf", coerce_word (by decide) (by decide) (by cbv)⟩
        | finite => cases hfinite
      obtain ⟨s, hword⟩ := hword
      rw [hword]
      simp [looseEq, same, kind, Kind.isNumeric, isTypeable, hfinite]

theorem looseEq_coerce_bool (b : Bool) :
    (Value.bool b).looseEq (coerce (some .bool) (Value.bool b).display) = true := by
  have hcoerce : coerce (some .bool) (Value.bool b).display = .bool b := by
    cases b with
    | true => exact coerce_literal rfl (by decide) (by decide) (by decide)
    | false => exact coerce_literal rfl (by decide) (by decide) (by decide)
  rw [hcoerce]
  simp [looseEq, same, kind, Kind.isNumeric]

/-- **The displayed text of a value, typed in for an attribute of its type, equals the value exactly
if it is taken at its word.** -/
theorem looseEq_coerce_display {a : Attribute} {v : Value} {b : AttributeType}
    (hb : AttributeType.ofValue? v = some b) (hcovers : a.type.Covers b)
    (hscalar : a.type = .string ∨ a.type = .number ∨ a.type = .boolean ∨ a.type = .date) :
    v.looseEq (coerce a.fieldType? v.display) = v.isTypeable := by
  have hmixed : a.type ≠ .mixed := by
    rintro h
    rw [h] at hscalar
    simp at hscalar
  have hsame (hb' : b ≠ .date) : a.type = b := by
    rcases hcovers with h | ⟨-, h⟩ | h
    · exact h
    · exact absurd h hb'
    · exact absurd h hmixed
  cases v with
  | null => cases hb
  | bool c =>
    cases hb
    have htype : a.fieldType? = some .bool := by rw [Attribute.fieldType?, hsame (by decide)]
    rw [htype, looseEq_coerce_bool]
    rfl
  | int i =>
    cases hb
    have htype : a.fieldType? = some .number := by rw [Attribute.fieldType?, hsame (by decide)]
    rw [htype, looseEq_coerce_number _ rfl]
  | float x =>
    cases hb
    have htype : a.fieldType? = some .number := by rw [Attribute.fieldType?, hsame (by decide)]
    rw [htype, looseEq_coerce_number _ rfl]
  | string s =>
    have htype : a.type = .string ∨ a.type = .date := by
      rcases hcovers with h | ⟨h, -⟩ | h
      · have hb := (Option.some.inj hb).symm
        rw [h, hb]
        split
        · exact Or.inr rfl
        · exact Or.inl rfl
      · exact Or.inl h
      · exact absurd h hmixed
    have hdisplay : (Value.string s).display = s := rfl
    rw [hdisplay]
    rcases htype with htype | htype
    · rw [Attribute.fieldType?, htype]
      exact looseEq_coerce_string (Or.inl rfl) s
    · rw [Attribute.fieldType?, htype]
      exact looseEq_coerce_string (Or.inr rfl) s
  | array items =>
    cases hb
    rw [hsame (by decide)] at hscalar
    simp at hscalar
  | object members =>
    cases hb
    rw [hsame (by decide)] at hscalar
    simp at hscalar

end Value

end DocQuery
