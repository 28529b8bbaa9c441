import DocQuery.Proofs.Json.Print
import DocQuery.Proofs.Json.Readable
import Mathlib.Data.List.TakeWhile

/-!
# Reading numbers as they were written

An integer is written by its digits and read by them. A floating-point number is written with the
fewest digits that the nearest number is read from, but a reader that scales the digits in doubles
may miss that number by a last digit. What it reads is a floating-point number in any case, because
of the point or the exponent in the text.

* `Json.ReadsBack` – the floating-point numbers that are read as they were written;
* `Json.readNumber?_int` – **integers of 64 bits are all read as they were written**;
* `Json.exists_float_of_word` – the text of a floating-point number is read as a finite one.
-/

namespace DocQuery

/-- Only zero is written with a zero in front. -/
theorem head?_toDigits {n : Nat} (h : n ≠ 0) : (Nat.toDigits 10 n).head? ≠ some '0' := by
  induction n using Nat.strongRecOn with
  | ind n ih =>
    rcases Nat.lt_or_ge n 10 with small | large
    · have digit : ∀ d < 10, d ≠ 0 → d.digitChar ≠ '0' := by decide
      rw [Nat.toDigits_of_lt_base small]
      exact fun zero => digit n small h (Option.some.inj zero)
    · rw [Nat.toDigits_of_base_le (by decide) large,
        List.head?_append_of_ne_nil _ Nat.toDigits_ne_nil]
      exact ih (n / 10) (by omega) (by omega)

namespace Json

namespace Literal

/-- A sign and digits, with no superfluous zero in front, are a number as they stand. -/
theorem split?_signed {ds : List Char} (hne : ds ≠ []) (digits : ∀ c ∈ ds, c.isDigit = true)
    (lead : 1 < ds.length → ds.head? ≠ some '0') (negative : Bool) :
    split? (signed negative ds) = some ⟨negative, ds, none, none⟩ := by
  have all : ds.takeWhile Char.isDigit = ds := List.takeWhile_eq_self_iff.mpr digits
  have none_left : ds.dropWhile Char.isDigit = [] := List.dropWhile_eq_nil_iff.mpr digits
  have allowed : (ds.isEmpty || (ds.length > 1 && ds.head? == some '0')) = false := by
    simpa [hne] using lead
  cases negative with
  | true =>
    show split? ('-' :: ds) = _
    simp only [split?, all, none_left, allowed]
    rfl
  | false =>
    obtain ⟨c, cs, rfl⟩ := List.exists_cons_of_ne_nil hne
    have unsigned : c ≠ '-' := by
      rintro rfl
      exact absurd (digits '-' List.mem_cons_self) (by decide)
    show split? (c :: cs) = _
    unfold split?
    split
    case h_1 parts =>
      split at parts
      case h_1 same => exact absurd (List.cons.inj same).1 unsigned
      case h_2 =>
        obtain ⟨rfl, rfl⟩ := Prod.mk.inj parts
        simp only [all, none_left, allowed]
        rfl

/-- A number without point and exponent is read without marks. -/
theorem not_mark_of_split? {cs : List Char} {l : Literal} (h : split? cs = some l)
    (point : l.fraction = none) (exponent : l.exponent = none) {c : Char} (hc : c ∈ cs) :
    c ≠ '.' ∧ c ≠ 'e' := by
  unfold split? at h
  split at h
  case h_1 negative body parts =>
    have unsigned : c = '-' ∨ c ∈ body := by
      split at parts
      · obtain ⟨-, rfl⟩ := Prod.mk.inj parts
        exact List.mem_cons.mp hc
      · obtain ⟨-, rfl⟩ := Prod.mk.inj parts
        exact .inr hc
    dsimp only at h
    split at h
    · cases h
    split at h
    · split at h
      · cases h
      · obtain ⟨x, -, rfl⟩ := Option.map_eq_some_iff.mp h
        cases point
    · obtain ⟨x, read, rfl⟩ := Option.map_eq_some_iff.mp h
      obtain rfl : x = none := exponent
      have ends : body.dropWhile Char.isDigit = [] := by
        unfold readExponent? at read
        split at read
        case h_1 nil => exact nil
        case h_4 => cases read
        all_goals
          obtain ⟨y, -, same⟩ := Option.map_eq_some_iff.mp read
          cases same
      rcases unsigned with rfl | hc
      · decide
      · have digit := List.dropWhile_eq_nil_iff.mp ends c hc
        constructor <;> rintro rfl <;> cases digit

end Literal

/-! ### Integers -/

/-- **Integers of 64 bits are read as they were written.** -/
theorem readNumber?_int {i : Int} (h : (Json.int i).isReadable = true) :
    readNumber? (print (.int i)) = some (.int i) := by
  obtain ⟨low, high⟩ := isReadable_int.mp h
  have lead : 1 < (Nat.toDigits 10 i.natAbs).length →
      (Nat.toDigits 10 i.natAbs).head? ≠ some '0' := by
    intro long
    refine head?_toDigits fun zero => ?_
    rw [zero] at long
    exact absurd long (by decide)
  have split := Literal.split?_signed Nat.toDigits_ne_nil
    (fun _ => isDigit_of_mem_toDigits) lead (decide (i < 0))
  have small : i.natAbs < 2 ^ 64 := by omega
  rw [readNumber?, print, toString_int, split, Option.bind_some, Literal.value?]
  simp only [digitsValue_toDigits, Option.isNone_none, Bool.true_and, small, decide_true, if_true]
  rcases lt_or_ge i 0 with negative | positive
  · have size : i.natAbs ≤ 2 ^ 63 := by omega
    have value : -(i.natAbs : Int) = i := by omega
    rw [if_neg (by simpa using negative), if_neg (by omega), if_pos size, value]
  · have value : (i.natAbs : Int) = i := by omega
    rw [if_pos (by simpa using positive), value]

/-! ### Floating-point numbers -/

/-- The number is read as it was written. -/
def ReadsBack (x : Double) : Prop := readNumber? (print (.float x)) = some (.float x)

instance (x : Double) : Decidable (ReadsBack x) :=
  match h : readNumber? (print (.float x)) with
  | some (.float y) => decidable_of_iff (y = x) (by simp [ReadsBack, h])
  | some .null | some (.bool _) | some (.int _) | some (.single _) | some (.string _)
  | some (.array _) | some (.object _) | none => isFalse (by simp [ReadsBack, h])

-- a tenth is read as it was written, and `5e32` is not
example : ReadsBack (Binary.ofRatio false 1 10) ∧
    ¬ReadsBack (Binary.ofRatio false (5 * 10 ^ 32) 1) := by
  decide +kernel

/-- A number with a point or an exponent is read as a floating-point number. -/
theorem exists_float_of_mark {cs : List Char} {j : Json} (h : readNumber? cs = some j)
    (mark : ∃ c ∈ cs, c = '.' ∨ c = 'e') : ∃ x, j = .float x := by
  obtain ⟨l, split, value⟩ := Option.bind_eq_some_iff.mp h
  obtain ⟨c, mem, mark⟩ := mark
  unfold Literal.value? at value
  dsimp only at value
  split at value
  case isTrue whole =>
    simp only [Bool.and_eq_true, Option.isNone_iff_eq_none] at whole
    obtain ⟨point, exponent⟩ := Literal.not_mark_of_split? split whole.1.1 whole.1.2 mem
    exact (mark.elim point exponent).elim
  case isFalse =>
    obtain ⟨x, -, rfl⟩ := Option.map_eq_some_iff.mp value
    exact ⟨x, rfl⟩

/-! ### Words -/

/-- The scalars that are written without quotes. -/
def IsWord : Json → Prop
  | .null | .bool _ | .int _ | .float _ => True
  | _ => False

theorem isWord_of_word {cs : List Char} {j : Json} (h : wordValue? cs = some j) : j.IsWord := by
  unfold wordValue? at h
  split at h
  · cases h
    trivial
  split at h
  · cases h
    trivial
  split at h
  · cases h
    trivial
  obtain ⟨l, -, value⟩ := Option.bind_eq_some_iff.mp h
  unfold Literal.value? at value
  dsimp only at value
  split at value
  · split at value
    · cases value
      trivial
    split at value
    · cases value
      trivial
    split at value
    · cases value
      trivial
    · cases value
      trivial
  · obtain ⟨x, -, rfl⟩ := Option.map_eq_some_iff.mp value
    trivial

/-- A number is no keyword. -/
theorem wordValue?_number {j : Json} (hj : IsNumber j) :
    wordValue? (print j) = readNumber? (print j) := by
  have apart {keyword : List Char} {c : Char} (hc : c ∈ keyword) (letter : isNumeral c = false) :
      print j ≠ keyword := by
    rintro rfl
    rw [isNumeral_of_mem_print hj hc] at letter
    cases letter
  rw [wordValue?, if_neg (apart (c := 'n') (by decide) rfl),
    if_neg (apart (c := 't') (by decide) rfl), if_neg (apart (c := 'f') (by decide) rfl)]

/-- **A floating-point number is read as a finite one**, or refused. -/
theorem exists_float_of_word {x : Double} (finite : x.isFinite = true) {j : Json}
    (h : wordValue? (print (.float x)) = some j) : ∃ y, j = .float y ∧ y.isFinite = true := by
  have readable := isReadable_of_word h
  rw [wordValue?_number (.float finite)] at h
  have mark := exists_mark_mem_text finite
  rw [← print_float finite] at mark
  obtain ⟨y, rfl⟩ := exists_float_of_mark h mark
  exact ⟨y, rfl, readable⟩

end Json

end DocQuery
