import DocQuery.Numeric.Text
import DocQuery.Proofs.Numeric.Shortest

/-!
# The text of a number reads back

* `DecimalParts` – a decimal text taken apart, with `DecimalParts.readDecimal?_text` – **texts are
  read part by part**;
* `ofDecimal_eq` – a decimal in the rounding interval of a number is read as that number;
* `Decimal.layout_parts` – a laid out decimal is such a text, in each of the four layouts;
* `Binary.readDecimal?_text` – **the text of a finite number reads back as the number**.
-/

namespace DocQuery

/-! ### Runs of digits -/

theorem digitsValue_eq (cs : List Char) : digitsValue cs = Nat.ofDigitChars 10 cs 0 := rfl

theorem digitsValue_toDigits (n : Nat) : digitsValue (Nat.toDigits 10 n) = n :=
  Nat.ofDigitChars_ten_toDigits

theorem digitsValue_append (cs ds : List Char) :
    digitsValue (cs ++ ds) = digitsValue cs * 10 ^ ds.length + digitsValue ds := by
  rw [digitsValue_eq, Nat.ofDigitChars_append, Nat.ofDigitChars_eq_ofDigitChars_zero, mul_comm]
  rfl

theorem digitsValue_zeros (n : Nat) : digitsValue (List.replicate n '0') = 0 := by
  rw [digitsValue_eq, Nat.ofDigitChars_replicate_zero, mul_zero]

theorem digitsValue_lt {cs : List Char} (h : ∀ c ∈ cs, c.isDigit = true) :
    digitsValue cs < 10 ^ cs.length := by
  induction cs using List.reverseRecOn with
  | nil => decide
  | append_singleton cs c ih =>
    have digit : c.toNat - '0'.toNat < 10 := by
      have := h c (by simp)
      simp only [Char.isDigit, Bool.and_eq_true, decide_eq_true_eq] at this
      have : c.toNat ≤ 57 := UInt32.le_iff_toNat_le.1 this.2
      have : '0'.toNat = 48 := rfl
      omega
    have last : digitsValue [c] = c.toNat - '0'.toNat := by simp [digitsValue]
    have := ih fun c hc => h c (by simp [hc])
    rw [digitsValue_append, last, List.length_append, pow_add]
    simp only [List.length_singleton, pow_one]
    omega

theorem isDigit_of_mem_toDigits {n : Nat} {c : Char} (h : c ∈ Nat.toDigits 10 n) :
    c.isDigit = true :=
  Nat.isDigit_of_mem_toDigits (by decide) (by decide) h

theorem readDigits?_toDigits (n : Nat) : readDigits? (Nat.toDigits 10 n) = some n := by
  have all : (Nat.toDigits 10 n).all Char.isDigit = true :=
    List.all_eq_true.2 fun c => isDigit_of_mem_toDigits
  have nonempty : (Nat.toDigits 10 n).isEmpty = false := by simp [Nat.toDigits_ne_nil]
  simp [readDigits?, all, nonempty, digitsValue_toDigits]

/-! ### Decimal texts -/

/-- A text with a sign in front. -/
def signed (negative : Bool) (cs : List Char) : List Char := if negative then '-' :: cs else cs

/-- The parts of a decimal text: digits in front of the point, perhaps digits behind it, and perhaps
an exponent. -/
structure DecimalParts where
  whole : List Char
  fraction : Option (List Char)
  exponent : Option Int
  whole_ne_nil : whole ≠ []
  whole_digits : ∀ c ∈ whole, c.isDigit = true
  fraction_digits : ∀ ds ∈ fraction, ∀ c ∈ ds, c.isDigit = true

namespace DecimalParts

variable (p : DecimalParts)

/-- The exponent with its mark. -/
def tail : List Char :=
  match p.exponent with
  | none => []
  | some x => 'e' :: (if 0 ≤ x then '+' else '-') :: Nat.toDigits 10 x.natAbs

/-- The text without a sign. -/
def text : List Char :=
  match p.fraction with
  | none => p.whole ++ p.tail
  | some ds => p.whole ++ '.' :: (ds ++ p.tail)

/-- The digits behind the point. -/
def places : List Char := p.fraction.getD []

/-- All digits. -/
def digits : List Char := p.whole ++ p.places

/-- The power of ten that the last digit counts. -/
def scale : Int := p.exponent.getD 0 - p.places.length

def value : ℚ := digitsValue p.digits * 10 ^ p.scale

theorem digits_isDigit : ∀ c ∈ p.digits, c.isDigit = true := by
  unfold digits places
  have whole := p.whole_digits
  have fraction := p.fraction_digits
  cases h : p.fraction with
  | none => simpa using whole
  | some ds =>
    intro c hc
    rcases List.mem_append.1 hc with hc | hc
    · exact whole c hc
    · exact fraction ds h c hc

theorem readExponent?_tail : readExponent? p.tail = some (p.exponent.getD 0) := by
  unfold tail
  cases p.exponent with
  | none => rfl
  | some x =>
    by_cases h : 0 ≤ x
    · have : |x| = x := abs_of_nonneg h
      simp [readExponent?, h, splitSign, readDigits?_toDigits, this]
    · have : -|x| = x := by rw [abs_of_neg (by omega), neg_neg]
      simp [readExponent?, h, splitSign, readDigits?_toDigits, this]

theorem text_cons : ∃ c cs, p.text = c :: cs ∧ c.isDigit = true := by
  obtain ⟨c, cs, h⟩ := List.exists_cons_of_ne_nil p.whole_ne_nil
  have digit : c.isDigit = true := p.whole_digits c (by simp [h])
  unfold text
  split
  · exact ⟨c, cs ++ p.tail, by simp [h], digit⟩
  · next ds _ => exact ⟨c, cs ++ '.' :: (ds ++ p.tail), by simp [h], digit⟩

theorem splitSign_text (negative : Bool) :
    splitSign (signed negative p.text) = (negative, p.text) := by
  cases negative with
  | true => rfl
  | false =>
    obtain ⟨c, cs, h, digit⟩ := p.text_cons
    show splitSign p.text = _
    rw [h]
    unfold splitSign
    split
    case h_1 heq => cases heq; exact absurd digit (by decide)
    case h_2 heq => cases heq; exact absurd digit (by decide)
    case h_3 => rfl

/-- **The texts of decimals are read part by part.** -/
theorem readDecimal?_text (negative : Bool) : readDecimal? (signed negative p.text) =
    some (Binary.ofDecimal negative (digitsValue p.digits) p.digits.length p.scale) := by
  have mark : p.tail = [] ∨ ∃ cs, p.tail = 'e' :: cs := by
    unfold tail
    cases p.exponent <;> simp
  have exponent := p.readExponent?_tail
  have nonempty : p.digits.isEmpty = false := by simp [digits, p.whole_ne_nil]
  unfold readDecimal?
  rw [splitSign_text]
  cases h : p.fraction with
  | none =>
    have digits : p.digits = p.whole := by simp [DecimalParts.digits, places, h]
    have text : p.text = p.whole ++ p.tail := by simp [DecimalParts.text, h]
    have scale : p.scale = p.exponent.getD 0 := by simp [DecimalParts.scale, places, h]
    rw [digits] at nonempty
    rw [text, digits, scale]
    simp only [List.takeWhile_append_of_pos p.whole_digits,
      List.dropWhile_append_of_pos p.whole_digits]
    rcases mark with none | ⟨cs, some⟩
    · rw [none] at exponent ⊢
      simp [nonempty, exponent]
    · rw [some] at exponent ⊢
      simp [nonempty, exponent]
  | some ds =>
    have fraction := p.fraction_digits ds h
    have digits : p.digits = p.whole ++ ds := by simp [DecimalParts.digits, places, h]
    have text : p.text = p.whole ++ '.' :: (ds ++ p.tail) := by simp [DecimalParts.text, h]
    have scale : p.scale = p.exponent.getD 0 - ds.length := by
      simp [DecimalParts.scale, places, h]
    have behind : p.tail.takeWhile Char.isDigit = [] ∧ p.tail.dropWhile Char.isDigit = p.tail := by
      rcases mark with none | ⟨cs, some⟩
      · simp [none]
      · simp [some]
    have point : ('.' :: (ds ++ p.tail)).takeWhile Char.isDigit = [] ∧
        ('.' :: (ds ++ p.tail)).dropWhile Char.isDigit = '.' :: (ds ++ p.tail) := by simp
    rw [digits] at nonempty
    rw [text, digits, scale]
    simp only [List.takeWhile_append_of_pos p.whole_digits,
      List.dropWhile_append_of_pos p.whole_digits, point, List.takeWhile_append_of_pos fraction,
      List.dropWhile_append_of_pos fraction, behind, List.append_nil, nonempty, exponent]
    simp

end DecimalParts

/-! ### Reading back -/

/-- Within four hundred powers of ten lies the range of all doubles. -/
theorem two_zpow_le_ten : (2 : ℚ) ^ (1200 : Int) ≤ 10 ^ (400 : Int) := by
  calc (2 : ℚ) ^ (1200 : Int) = (2 ^ (3 : Int)) ^ (400 : Int) := by rw [← zpow_mul]; rfl
    _ ≤ 10 ^ (400 : Int) := zpow_le_zpow_left₀ (by norm_num) (by norm_num) (by norm_num)

/-- What rounds to a positive double lies between half of the least one and the limit of
overflow. -/
theorem RoundingInterval.bounds {m : Nat} {e : Int} (h : Format.double.Canonical m e) (hm : 0 < m)
    {r : ℚ} (near : (ofBinary .double m e).Contains r) :
    (2 : ℚ) ^ (-1075 : Int) ≤ r ∧ r ≤ 2 ^ (1024 : Int) := by
  obtain ⟨⟨low, high⟩, -⟩ := (contains_ofBinary hm).1 near
  obtain ⟨below, least, most, -⟩ := h
  have scale : (0 : ℚ) < 2 ^ e := by positivity
  have depth := depth_le (f := .double) (m := m) (e := e)
  have one : (1 : ℚ) ≤ m := by exact_mod_cast hm
  have full : (m : ℚ) + 1 ≤ 2 ^ 53 := by exact_mod_cast below
  constructor
  · have half : (1 : ℚ) / 2 ≤ r / 2 ^ e := by linarith
    rw [le_div_iff₀ scale] at half
    calc (2 : ℚ) ^ (-1075 : Int) ≤ 2 ^ (e - 1) :=
          zpow_le_zpow_right₀ (by norm_num) (Int.sub_le_sub_right least 1)
      _ = 1 / 2 * 2 ^ e := by
          rw [zpow_sub_one₀ (by norm_num)]
          ring
      _ ≤ r := half
  · have top : r / 2 ^ e ≤ 2 ^ 53 := by linarith
    rw [div_le_iff₀ scale] at top
    calc r ≤ 2 ^ 53 * 2 ^ e := top
      _ = 2 ^ (53 + e) := by rw [zpow_add₀ (by norm_num)]; rfl
      _ ≤ 2 ^ (1024 : Int) := zpow_le_zpow_right₀ (by norm_num) (Int.add_le_add_left most 53)

/-- **A decimal in the rounding interval of a number is read as that number.** Its exponent is never
so far out that the power of ten would not be computed. -/
theorem ofDecimal_eq (negative : Bool) {m : Nat} {e : Int} (h : Format.double.Canonical m e)
    (hm : 0 < m) {n size : Nat} {x : Int} (hn : n < 10 ^ size)
    (near : (RoundingInterval.ofBinary .double m e).Contains (n * 10 ^ x)) :
    Binary.ofDecimal negative n size x = .finite negative m e h := by
  obtain ⟨lower, upper⟩ := RoundingInterval.bounds h hm near
  have positive : n ≠ 0 := by
    rintro rfl
    rw [Nat.cast_zero, zero_mul] at lower
    exact absurd lower (not_le.2 (by positivity))
  have above : ¬ 400 < x := by
    intro far
    have : (2 : ℚ) ^ (1200 : Int) ≤ 2 ^ (1024 : Int) := by
      have : (1 : ℚ) ≤ n := by exact_mod_cast Nat.pos_of_ne_zero positive
      calc (2 : ℚ) ^ (1200 : Int) ≤ 10 ^ (400 : Int) := two_zpow_le_ten
        _ ≤ 10 ^ x := zpow_le_zpow_right₀ (by norm_num) far.le
        _ ≤ n * 10 ^ x := le_mul_of_one_le_left (by positivity) this
        _ ≤ 2 ^ (1024 : Int) := upper
    exact absurd ((zpow_le_zpow_iff_right₀ (by norm_num)).1 this) (by decide)
  have beneath : ¬ x + size < -400 := by
    intro far
    have : (2 : ℚ) ^ (-1075 : Int) ≤ 2 ^ (-1200 : Int) := by
      have : (n : ℚ) ≤ 10 ^ size := by exact_mod_cast hn.le
      calc (2 : ℚ) ^ (-1075 : Int) ≤ n * 10 ^ x := lower
        _ ≤ 10 ^ size * 10 ^ x := by gcongr
        _ = 10 ^ (x + size) := by rw [zpow_add₀ (by norm_num), zpow_natCast, mul_comm]
        _ ≤ 10 ^ (-400 : Int) := zpow_le_zpow_right₀ (by norm_num) far.le
        _ ≤ 2 ^ (-1200 : Int) := by
          rw [zpow_neg, zpow_neg 2]
          exact inv_anti₀ (by positivity) two_zpow_le_ten
    exact absurd ((zpow_le_zpow_iff_right₀ (by norm_num)).1 this) (by decide)
  unfold Binary.ofDecimal
  rw [if_neg positive, if_neg above, if_neg beneath]
  split
  case isTrue pos =>
    obtain ⟨k, rfl⟩ := Int.eq_ofNat_of_zero_le pos
    refine Binary.ofRatio_eq negative (by decide) h hm Nat.one_pos ?_
    simpa using near
  case isFalse neg =>
    obtain ⟨k, hk⟩ : ∃ k : Nat, x = -k := ⟨(-x).toNat, by omega⟩
    subst hk
    refine Binary.ofRatio_eq negative (by decide) h hm (by positivity) ?_
    simpa [div_eq_mul_inv] using near

/-- **A decimal text in the rounding interval of a number reads back as that number.** -/
theorem DecimalParts.readDecimal?_eq (p : DecimalParts) (negative : Bool) {m : Nat} {e : Int}
    (h : Format.double.Canonical m e) (hm : 0 < m)
    (near : (RoundingInterval.ofBinary .double m e).Contains p.value) :
    readDecimal? (signed negative p.text) = some (.finite negative m e h) := by
  rw [readDecimal?_text, ofDecimal_eq negative h hm (digitsValue_lt p.digits_isDigit) near]

/-! ### The layout of decimals -/

/-- Digits with a point behind the first one, if there are more. -/
def pointed : List Char → List Char
  | first :: second :: rest => first :: '.' :: second :: rest
  | short => short

section Layout

variable {ds : List Char} (nonempty : ds ≠ []) (digits : ∀ c ∈ ds, c.isDigit = true)

include nonempty digits

/-- Digits with zeros behind them, and perhaps a final `.0`. -/
theorem exists_parts_whole (j : Nat) (point : Bool) : ∃ p : DecimalParts,
    p.text = ds ++ List.replicate j '0' ++ (if point then ['.', '0'] else []) ∧
      p.value = digitsValue ds * 10 ^ (j : Int) := by
  have all : ∀ c ∈ ds ++ List.replicate j '0', c.isDigit = true := by
    intro c hc
    rcases List.mem_append.1 hc with hc | hc
    · exact digits c hc
    · rw [List.eq_of_mem_replicate hc]
      rfl
  have shifted : digitsValue (ds ++ List.replicate j '0') = digitsValue ds * 10 ^ j := by
    rw [digitsValue_append, digitsValue_zeros, List.length_replicate, add_zero]
  cases point with
  | true =>
    refine ⟨⟨ds ++ List.replicate j '0', some ['0'], none, by simp [nonempty], all, by simp⟩,
      by simp [DecimalParts.text, DecimalParts.tail], ?_⟩
    simp only [DecimalParts.value, DecimalParts.digits, DecimalParts.scale, DecimalParts.places,
      Option.getD_some, Option.getD_none, digitsValue_append _ ['0'], shifted]
    simp [digitsValue, mul_assoc]
  | false =>
    refine ⟨⟨ds ++ List.replicate j '0', none, none, by simp [nonempty], all, by simp⟩,
      by simp [DecimalParts.text, DecimalParts.tail], ?_⟩
    simp only [DecimalParts.value, DecimalParts.digits, DecimalParts.scale, DecimalParts.places,
      Option.getD_none, List.append_nil, shifted]
    simp

/-- Digits with a point among them. -/
theorem exists_parts_inside {p : Nat} (inside : p + 1 ≤ ds.length) : ∃ q : DecimalParts,
    q.text = ds.take (p + 1) ++ '.' :: ds.drop (p + 1) ∧
      q.value = digitsValue ds * 10 ^ ((p : Int) + 1 - ds.length) := by
  refine ⟨⟨ds.take (p + 1), some (ds.drop (p + 1)), none, by simp [nonempty],
    fun c hc => digits c (List.mem_of_mem_take hc),
    by simpa using fun c hc => digits c (List.mem_of_mem_drop hc)⟩,
    by simp [DecimalParts.text, DecimalParts.tail], ?_⟩
  have count : -((ds.drop (p + 1)).length : Int) = p + 1 - ds.length := by
    rw [List.length_drop]
    omega
  simp only [DecimalParts.value, DecimalParts.digits, DecimalParts.scale, DecimalParts.places,
    Option.getD_some, Option.getD_none, List.take_append_drop, zero_sub, count]

omit nonempty in
/-- Digits behind a point, with zeros in front of them. -/
theorem exists_parts_behind (z : Nat) : ∃ q : DecimalParts,
    q.text = '0' :: '.' :: (List.replicate z '0' ++ ds) ∧
      q.value = digitsValue ds * 10 ^ (-(z : Int) - ds.length) := by
  refine ⟨⟨['0'], some (List.replicate z '0' ++ ds), none, by simp, by simp,
    by simpa using fun c hc => hc.elim (fun hc => by simp [hc.2]) (digits c)⟩,
    by simp [DecimalParts.text, DecimalParts.tail], ?_⟩
  have count : -((List.replicate z '0' ++ ds).length : Int) = -(z : Int) - ds.length := by
    rw [List.length_append, List.length_replicate]
    omega
  have same : digitsValue (['0'] ++ (List.replicate z '0' ++ ds)) = digitsValue ds := by
    have := digitsValue_zeros (z + 1)
    rw [List.replicate_succ] at this
    rw [← List.append_assoc, digitsValue_append, List.singleton_append, this]
    omega
  simp only [DecimalParts.value, DecimalParts.digits, DecimalParts.scale, DecimalParts.places,
    Option.getD_some, Option.getD_none, same, zero_sub, count]

/-- Such digits with an exponent. -/
theorem exists_parts_scientific (x : Int) : ∃ q : DecimalParts,
    q.text = pointed ds ++ 'e' :: (if 0 ≤ x then '+' else '-') :: Nat.toDigits 10 x.natAbs ∧
      q.value = digitsValue ds * 10 ^ (x + 1 - ds.length) := by
  match ds, nonempty with
  | [c], _ =>
    refine ⟨⟨[c], none, some x, by simp, by simpa using digits, by simp⟩,
      by simp [DecimalParts.text, DecimalParts.tail, pointed], ?_⟩
    simp [DecimalParts.value, DecimalParts.digits, DecimalParts.scale, DecimalParts.places]
  | first :: second :: rest, _ =>
    refine ⟨⟨[first], some (second :: rest), some x, by simp, by simpa using digits first (by simp),
      by simpa using ⟨digits second (by simp), fun c hc => digits c (by simp [hc])⟩⟩,
      by simp [DecimalParts.text, DecimalParts.tail, pointed], ?_⟩
    have count : x - ((second :: rest).length : Int) =
        x + 1 - ((first :: second :: rest).length : Int) := by
      simp only [List.length_cons]
      omega
    simp only [DecimalParts.value, DecimalParts.digits, DecimalParts.scale, DecimalParts.places,
      Option.getD_some, List.singleton_append, count]

end Layout

/-- **A laid out decimal is a decimal text of the same value.** -/
theorem Decimal.layout_parts (style : FloatStyle) (d : Decimal) :
    ∃ p : DecimalParts, (d.layout style).toList = p.text ∧ p.value = d.value := by
  obtain ⟨n, k⟩ := d
  have digits : ∀ c ∈ Nat.toDigits 10 n, c.isDigit = true := fun c => isDigit_of_mem_toDigits
  have nonempty : Nat.toDigits 10 n ≠ [] := Nat.toDigits_ne_nil
  have value : digitsValue (Nat.toDigits 10 n) = n := digitsValue_toDigits n
  have count : 0 < (Nat.toDigits 10 n).length := Nat.length_toDigits_pos
  unfold Decimal.layout Decimal.value
  simp only [Nat.toString_eq_ofList_toDigits, String.toList_ofList, String.length_ofList]
  generalize Nat.toDigits 10 n = ds at *
  split
  case isTrue positional =>
    split
    case isTrue whole =>
      obtain ⟨j, rfl⟩ := Int.eq_ofNat_of_zero_le whole
      obtain ⟨p, text, same⟩ := exists_parts_whole nonempty digits j style.point
      refine ⟨p, ?_, by rw [same, value]⟩
      rw [text]
      cases style.point <;> simp [zeros]
    case isFalse =>
      split
      case isTrue inside =>
        obtain ⟨p, hp⟩ := Int.eq_ofNat_of_zero_le inside
        obtain ⟨q, text, same⟩ := exists_parts_inside nonempty digits (p := p) (by omega)
        refine ⟨q, by simp [text, hp], ?_⟩
        rw [same, value, show (p : Int) + 1 - ds.length = k by omega]
      case isFalse outside =>
        obtain ⟨z, hz⟩ := Int.eq_ofNat_of_zero_le (a := -(k + ds.length - 1) - 1) (by omega)
        obtain ⟨q, text, same⟩ := exists_parts_behind digits z
        refine ⟨q, ?_, ?_⟩
        · rw [text, hz]
          simp [zeros]
        · rw [same, value, show -(z : Int) - ds.length = k by omega]
  case isFalse scientific =>
    obtain ⟨q, text, same⟩ := exists_parts_scientific nonempty digits (k + ds.length - 1)
    refine ⟨q, ?_, ?_⟩
    · rw [text]
      have sign : (if 0 ≤ k + (ds.length : Int) - 1 then "+" else "-").toList =
          [if 0 ≤ k + (ds.length : Int) - 1 then '+' else '-'] := by
        split <;> rfl
      simp only [String.toList_append, String.toList_ofList, sign]
      match ds, nonempty with
      | [c], _ => simp [pointed]
      | first :: second :: rest, _ => simp [pointed]
    · rw [same, value, show k + (ds.length : Int) - 1 + 1 - ds.length = k by omega]

namespace Binary

/-- The text of a finite number is a decimal text with its sign, and what it spells rounds to the
number. -/
theorem text_parts (style : FloatStyle) (negative : Bool) {m : Nat} {e : Int}
    (h : Format.double.Canonical m e) : ∃ p : DecimalParts,
    ((finite negative m e h).text style).toList = signed negative p.text ∧
      if m = 0 then p.value = 0
      else (RoundingInterval.ofBinary .double m e).Contains p.value := by
  have body : ∃ p : DecimalParts,
      (if m = 0 then (if style.point then "0.0" else "0")
        else (shortest .double style.tie m e).layout style).toList = p.text ∧
      if m = 0 then p.value = 0
      else (RoundingInterval.ofBinary .double m e).Contains p.value := by
    split
    case isTrue =>
      obtain ⟨p, text, value⟩ :=
        exists_parts_whole (List.cons_ne_nil '0' []) (by simp) 0 style.point
      refine ⟨p, ?_, by rw [value]; simp [digitsValue]⟩
      rw [text]
      cases style.point <;> rfl
    case isFalse positive =>
      obtain ⟨p, text, value⟩ := Decimal.layout_parts style (shortest .double style.tie m e)
      refine ⟨p, text, ?_⟩
      rw [value]
      exact shortest_contains style.tie (by decide) (by decide) h (Nat.pos_of_ne_zero positive)
  obtain ⟨p, text, near⟩ := body
  refine ⟨p, ?_, near⟩
  rw [← text]
  cases negative <;> simp [Binary.text, signed]

/-- **The text of a finite number reads back as the number**, in every style. -/
theorem readDecimal?_text (style : FloatStyle) {x : Double} (finite : x.isFinite = true) :
    readDecimal? (x.text style).toList = some x := by
  cases x with
  | nan => cases finite
  | infinity => cases finite
  | finite negative m e h =>
    obtain ⟨p, text, near⟩ := text_parts style negative h
    rw [text]
    split at near
    case isTrue zero =>
      subst zero
      have none : digitsValue p.digits = 0 := by
        have : (digitsValue p.digits : ℚ) = 0 :=
          (mul_eq_zero.1 near).resolve_right (zpow_ne_zero _ (by norm_num))
        exact_mod_cast this
      obtain rfl : e = Format.double.minExp := by
        rcases h.2.2.2 with least | normal
        · exact least
        · exact absurd normal (by decide)
      rw [DecimalParts.readDecimal?_text, none]
      simp [ofDecimal, zero, h]
    case isFalse positive =>
      exact p.readDecimal?_eq negative h (Nat.pos_of_ne_zero positive) near

end Binary

/-! ### The characters of numbers -/

/-- A character of a decimal text. -/
def isNumeral (c : Char) : Bool := c.isDigit || c == '.' || c == 'e' || c == '+' || c == '-'

theorem DecimalParts.isNumeral_of_mem_text (p : DecimalParts) {c : Char} (h : c ∈ p.text) :
    isNumeral c = true := by
  have digit {c : Char} (h : c.isDigit = true) : isNumeral c = true := by simp [isNumeral, h]
  have tail {c : Char} (h : c ∈ p.tail) : isNumeral c = true := by
    unfold DecimalParts.tail at h
    split at h
    · cases h
    · rcases List.mem_cons.1 h with rfl | h
      · rfl
      rcases List.mem_cons.1 h with rfl | h
      · split <;> rfl
      exact digit (isDigit_of_mem_toDigits h)
  unfold DecimalParts.text at h
  split at h
  case h_1 =>
    rcases List.mem_append.1 h with h | h
    · exact digit (p.whole_digits c h)
    · exact tail h
  case h_2 ds some =>
    rcases List.mem_append.1 h with h | h
    · exact digit (p.whole_digits c h)
    rcases List.mem_cons.1 h with rfl | h
    · rfl
    rcases List.mem_append.1 h with h | h
    · exact digit (p.fraction_digits ds some c h)
    · exact tail h

theorem isNumeral_of_mem_signed {negative : Bool} {cs : List Char} {c : Char}
    (h : ∀ c ∈ cs, isNumeral c = true) (hc : c ∈ signed negative cs) : isNumeral c = true := by
  unfold signed at hc
  split at hc
  · rcases List.mem_cons.1 hc with rfl | hc
    · rfl
    · exact h c hc
  · exact h c hc

theorem Binary.isNumeral_of_mem_text {style : FloatStyle} {x : Double} (finite : x.isFinite = true)
    {c : Char} (h : c ∈ (x.text style).toList) : isNumeral c = true := by
  cases x with
  | nan => cases finite
  | infinity => cases finite
  | finite negative m e canonical =>
    obtain ⟨p, text, -⟩ := text_parts style negative canonical
    rw [text] at h
    exact isNumeral_of_mem_signed (fun _ => p.isNumeral_of_mem_text) h

/-! ### Integers -/

theorem toString_int (i : Int) :
    (toString i).toList = signed (decide (i < 0)) (Nat.toDigits 10 i.natAbs) := by
  show (Int.repr i).toList = _
  rw [Int.repr_eq_if]
  split
  case isTrue pos =>
    have : i.toNat = i.natAbs := by omega
    simp [signed, not_lt.2 pos, Nat.repr_eq_ofList_toDigits, this]
  case isFalse neg =>
    have : (-i).toNat = i.natAbs := by omega
    simp [signed, not_le.1 neg, Nat.repr_eq_ofList_toDigits, this]

theorem isNumeral_of_mem_toString {i : Int} {c : Char} (h : c ∈ (toString i).toList) :
    isNumeral c = true := by
  rw [toString_int] at h
  refine isNumeral_of_mem_signed (fun c hc => ?_) h
  simp [isNumeral, isDigit_of_mem_toDigits hc]

/-- **The text of an integer is read as the number nearest to it.** -/
theorem readDecimal?_toString (i : Int) :
    readDecimal? (toString i).toList = some (Binary.ofInt i) := by
  have digits : ∀ c ∈ Nat.toDigits 10 i.natAbs, c.isDigit = true :=
    fun c => isDigit_of_mem_toDigits
  let p : DecimalParts := ⟨Nat.toDigits 10 i.natAbs, none, none, Nat.toDigits_ne_nil, digits,
    by simp⟩
  have text : p.text = Nat.toDigits 10 i.natAbs := by simp [p, DecimalParts.text, DecimalParts.tail]
  have value : digitsValue p.digits = i.natAbs := by
    simp [p, DecimalParts.digits, DecimalParts.places, digitsValue_toDigits]
  have scale : p.scale = 0 := by simp [p, DecimalParts.scale, DecimalParts.places]
  rw [toString_int, ← text, p.readDecimal?_text, value, scale]
  congr 1
  unfold Binary.ofInt Binary.ofDecimal
  split
  case isTrue zero => simp [Binary.ofRatio, zero]
  case isFalse =>
    rw [if_neg (by decide), if_neg (by omega), if_pos le_rfl]
    simp

end DocQuery
