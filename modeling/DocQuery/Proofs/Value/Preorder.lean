import DocQuery.Proofs.Numeric.Whole
import DocQuery.Proofs.Store.Ranking

/-!
# Where the order of sorting is transitive

`Value.totalCompare` compares two integers exactly and an integer with a floating-point number after
rounding. Beyond 2⁵³ two integers may be rounded to one number: it ties with both of them, while
they do not tie with each other, and so it joins what the exact order keeps apart.

* `Coherent` – three outcomes of a comparison that fit together, and `Coherent.then`, by which
  lexicographic comparisons inherit it;
* `Binary.totalKey_ofInt_mono` – rounding keeps the order of integers, so that only such ties do
  harm;
* `Value.NumbersFrom` – values with numbers from given ones, and `Value.totalCompare_coherent` – the
  comparisons among them fit together if no number ties with two integers;
* `Value.totalCompare_preorder_iff` – **reversal and reflexivity hold for all values, transitivity
  exactly without such ties**;
* `Value.pairwise_sort` – lists without such ties are sorted.
-/

namespace DocQuery

/-! ### Comparisons that fit together -/

/-- The outcomes of comparing a first with a second thing, the second with a third and the first
with the third do not contradict each other. -/
def Coherent (ab bc ac : Ordering) : Prop :=
  (ab = .eq → ac = bc) ∧ (bc = .eq → ac = ab) ∧ (ab = bc → ac = ab)

namespace Coherent

variable {α : Type} {ab bc ac ab' bc' ac' : Ordering}

theorem isLE (h : Coherent ab bc ac) (hab : ab.isLE = true) (hbc : bc.isLE = true) :
    ac.isLE = true := by
  obtain ⟨left, right, both⟩ := h
  cases ab with
  | lt =>
    cases bc with
    | lt => rw [both rfl]; rfl
    | eq => rw [right rfl]; rfl
    | gt => cases hbc
  | eq => rw [left rfl]; exact hbc
  | gt => cases hab

/-- The first comparison decides; the second one counts where the first ties throughout. -/
protected theorem «then» (h : Coherent ab bc ac)
    (h' : ab = .eq → bc = .eq → Coherent ab' bc' ac') :
    Coherent (ab.then ab') (bc.then bc') (ac.then ac') := by
  obtain ⟨left, right, both⟩ := h
  cases ab <;> cases bc
  case eq.eq =>
    rw [left rfl]
    exact h' rfl rfl
  case eq.lt | eq.gt =>
    rw [left rfl]
    exact ⟨fun _ => rfl, nofun, fun h => h.symm⟩
  case lt.eq | gt.eq =>
    rw [right rfl]
    exact ⟨nofun, fun _ => rfl, fun _ => rfl⟩
  case lt.lt | gt.gt =>
    rw [both rfl]
    exact ⟨nofun, nofun, fun _ => rfl⟩
  case lt.gt | gt.lt => exact ⟨nofun, nofun, nofun⟩

/-- An order that is decided from both sides is coherent where it is transitive. -/
theorem of_trans {S : α → Prop} {cmp : α → α → Ordering}
    (swap : ∀ a b, cmp b a = (cmp a b).swap)
    (trans : ∀ {a b c}, S a → S b → S c → (cmp a b).isLE = true → (cmp b c).isLE = true →
      (cmp a c).isLE = true)
    {a b c : α} (ha : S a) (hb : S b) (hc : S c) : Coherent (cmp a b) (cmp b c) (cmp a c) := by
  -- transitivity in all six orders, put in terms of the same three comparisons
  have abc := trans ha hb hc
  have bca := trans hb hc ha
  have cab := trans hc ha hb
  have cba := trans hc hb ha
  have bac := trans hb ha hc
  have acb := trans ha hc hb
  rw [swap a c] at bca cba cab
  rw [swap b c] at cab cba acb
  rw [swap a b] at bac bca cba
  revert abc bca cab cba bac acb
  generalize cmp a b = ab
  generalize cmp b c = bc
  generalize cmp a c = ac
  cases ab <;> cases bc <;> cases ac <;> simp [Coherent]

/-- Comparisons in a linear order fit together. -/
theorem of_transOrd [Ord α] [Std.TransOrd α] (a b c : α) :
    Coherent (compare a b) (compare b c) (compare a c) := by
  have swap (a b : α) : compare b a = (compare a b).swap := Std.OrientedOrd.eq_swap
  exact of_trans (S := fun _ => True) swap (fun _ _ _ => Std.TransOrd.isLE_trans) trivial trivial
    trivial

end Coherent

/-! ### Rounding and the order of integers -/

namespace Binary

/-- The position of an integer among the doubles. -/
theorem totalKey_ofInt {i : Int} (hi : i.natAbs < 2 ^ 64) : (ofInt i : Double).totalKey =
    2 * (i.sign * rounded i.natAbs * 2 ^ (-Format.double.minExp).toNat) -
      if i < 0 then 1 else 0 := by
  obtain ⟨whole, sign, part⟩ := ofInt_whole hi
  rw [totalKey_of_isNaN_eq_false (isNaN_of_isIntegral whole), units_eq (by decide) whole part, sign]
  simp only [decide_eq_true_eq]

/-- **Rounding keeps the order of integers.** -/
theorem totalKey_ofInt_mono {i j : Int} (hi : i.natAbs < 2 ^ 64) (hj : j.natAbs < 2 ^ 64)
    (h : i ≤ j) : (ofInt i : Double).totalKey ≤ (ofInt j : Double).totalKey := by
  have scale : (0 : Int) ≤ 2 ^ (-Format.double.minExp).toNat := Int.pow_nonneg (by decide)
  have value := Int.mul_le_mul_of_nonneg_right (sign_mul_rounded_mono h) scale
  rw [totalKey_ofInt hi, totalKey_ofInt hj]
  split <;> split <;> omega

end Binary

namespace Value

/-! ### Reflexivity -/

mutual

theorem totalCompare_self (a : Value) : a.totalCompare a = .eq := by
  cases a with
  | null => rfl
  | bool b => exact Std.ReflOrd.compare_self
  | int i => exact Std.ReflOrd.compare_self
  | float x => exact Std.ReflOrd.compare_self
  | string s => exact Std.ReflOrd.compare_self
  | array items => exact totalCompareItems_self items
  | object members => exact Std.ReflOrd.compare_self

/-- `totalCompare_self` item by item. -/
theorem totalCompareItems_self (as : List Value) : totalCompareItems as as = .eq := by
  cases as with
  | nil => rfl
  | cons a as => rw [totalCompareItems, totalCompare_self a, totalCompareItems_self as]; rfl

end

/-! ### Numbers -/

section Numbers

variable (I : Int64 → Prop) (F : Double → Prop)

mutual

/-- The integers of a value satisfy `I` and its floating-point numbers satisfy `F`. Numbers in
objects do not count: objects are compared by their text. -/
def NumbersFrom : Value → Prop
  | .int i => I i
  | .float x => F x
  | .array items => ItemsFrom items
  | _ => True

/-- `NumbersFrom` for every item. -/
def ItemsFrom : List Value → Prop
  | [] => True
  | v :: rest => NumbersFrom v ∧ ItemsFrom rest

end

/-- No floating-point number stands for two integers. -/
def Unambiguous : Prop :=
  ∀ m n x, I m → I n → F x → (int m).totalCompare (float x) = .eq →
    (int n).totalCompare (float x) = .eq → m = n

/-- A number of either type, from the given ones. -/
inductive IsNumber : Value → Prop
  | int {i : Int64} : I i → IsNumber (.int i)
  | float {x : Double} : F x → IsNumber (.float x)

variable {I F}

/-- The position of a number after rounding. -/
def position : Value → Int
  | .int i => (Binary.ofInt i.toInt : Double).totalKey
  | .float x => x.totalKey
  | _ => 0

theorem natAbs_toInt_lt (i : Int64) : i.toInt.natAbs < 2 ^ 64 := by
  have low := i.le_toInt
  have high := i.toInt_lt
  omega

/-- What the order puts first has no later position. -/
theorem position_le {a b : Value} (ha : IsNumber I F a) (hb : IsNumber I F b)
    (h : (a.totalCompare b).isLE = true) : a.position ≤ b.position := by
  cases ha with
  | int =>
    cases hb with
    | int =>
      exact Binary.totalKey_ofInt_mono (natAbs_toInt_lt _) (natAbs_toInt_lt _)
        (Std.isLE_compare.1 h)
    | float => exact Std.isLE_compare.1 h
  | float => cases hb <;> exact Std.isLE_compare.1 h

/-- **Unambiguous numbers are in a transitive order.** Positions decide except between two
integers, and there a number at the position of both would be a tie. -/
theorem number_trans (unambiguous : Unambiguous I F) {a b c : Value} (ha : IsNumber I F a)
    (hb : IsNumber I F b) (hc : IsNumber I F c) (hab : (a.totalCompare b).isLE = true)
    (hbc : (b.totalCompare c).isLE = true) : (a.totalCompare c).isLE = true := by
  have first := position_le ha hb hab
  have last := position_le hb hc hbc
  cases ha with
  | float => cases hc <;> exact Std.isLE_compare.2 (first.trans last)
  | @int i hi =>
    cases hc with
    | float => exact Std.isLE_compare.2 (first.trans last)
    | @int j hj =>
      cases hb with
      | int => exact Std.TransOrd.isLE_trans (α := Int) hab hbc
      | @float x hx =>
        -- `i` and `j` are out of order, then `x` stands at the position of both
        by_contra greater
        have less : j.toInt ≤ i.toInt := by
          rw [totalCompare, Std.isLE_compare] at greater
          omega
        have back := Binary.totalKey_ofInt_mono (natAbs_toInt_lt j) (natAbs_toInt_lt i) less
        have left : (int i).position = (float x).position := le_antisymm first (last.trans back)
        have right : (int j).position = (float x).position := le_antisymm (back.trans first) last
        have same : i = j :=
          unambiguous i j x hi hj hx (Std.compare_eq_iff_eq.2 left) (Std.compare_eq_iff_eq.2 right)
        subst same
        exact greater (by rw [totalCompare_self]; rfl)

/-- Integers below 2⁵³ are not rounded, and no number stands for two of them. -/
theorem unambiguous_of_small (h : ∀ i, I i → i.toInt.natAbs < 2 ^ 53) : Unambiguous I F := by
  intro m n x hm hn _ left right
  have same : (int m).position = (int n).position :=
    (Std.compare_eq_iff_eq.1 left).trans (Std.compare_eq_iff_eq.1 right).symm
  have scale : (2 : Int) ^ (-Format.double.minExp).toNat ≠ 0 := pow_ne_zero _ (by decide)
  rw [position, position, Binary.totalKey_ofInt (natAbs_toInt_lt m),
    Binary.totalKey_ofInt (natAbs_toInt_lt n), rounded_small (h m hm), rounded_small (h n hn),
    Int.sign_mul_natAbs, Int.sign_mul_natAbs] at same
  refine Int64.toInt_inj.1 (Int.eq_of_mul_eq_mul_right scale ?_)
  split at same <;> split at same <;> omega

/-! ### Values -/

theorem totalCompare_of_rank_ne {a b : Value} (h : a.kind.rank ≠ b.kind.rank) :
    a.totalCompare b = compare a.kind.rank b.kind.rank := by
  cases a <;> cases b <;> first | rfl | exact absurd rfl h

/-- The types decide first. -/
theorem totalCompare_eq_then (a b : Value) :
    a.totalCompare b = (compare a.kind.rank b.kind.rank).then (a.totalCompare b) := by
  by_cases same : a.kind.rank = b.kind.rank
  · rw [Std.compare_eq_iff_eq.2 same]
    rfl
  · rw [totalCompare_of_rank_ne same]
    cases h : compare a.kind.rank b.kind.rank with
    | lt => rfl
    | gt => rfl
    | eq => exact absurd (Std.compare_eq_iff_eq.1 h) same

theorem isNumber_of_rank {a : Value} (ha : a.NumbersFrom I F) (h : a.kind.rank = 2) :
    IsNumber I F a := by
  cases a <;> first | exact .int ha | exact .float ha | cases h

mutual

/-- **The comparisons among values with unambiguous numbers fit together.** -/
theorem totalCompare_coherent (unambiguous : Unambiguous I F) (a b c : Value)
    (ha : a.NumbersFrom I F) (hb : b.NumbersFrom I F) (hc : c.NumbersFrom I F) :
    Coherent (a.totalCompare b) (b.totalCompare c) (a.totalCompare c) := by
  rw [totalCompare_eq_then a b, totalCompare_eq_then b c, totalCompare_eq_then a c]
  -- from here on the three values have one rank
  refine (Coherent.of_transOrd _ _ _).then fun ab bc => ?_
  have ab := Std.compare_eq_iff_eq.1 ab
  have bc := Std.compare_eq_iff_eq.1 bc
  have numbers (h : a.kind.rank = 2) :
      Coherent (a.totalCompare b) (b.totalCompare c) (a.totalCompare c) :=
    Coherent.of_trans totalCompare_swap (number_trans unambiguous) (isNumber_of_rank ha h)
      (isNumber_of_rank hb (ab.symm.trans h)) (isNumber_of_rank hc ((ab.trans bc).symm.trans h))
  cases a with
  | int i => exact numbers rfl
  | float x => exact numbers rfl
  | null =>
    cases b <;> cases ab
    cases c <;> cases bc
    exact ⟨fun _ => rfl, fun _ => rfl, fun _ => rfl⟩
  | bool p =>
    cases b <;> cases ab
    cases c <;> cases bc
    exact Coherent.of_transOrd _ _ _
  | string s =>
    cases b <;> cases ab
    cases c <;> cases bc
    exact Coherent.of_transOrd _ _ _
  | array as =>
    cases b <;> cases ab
    cases c <;> cases bc
    exact totalCompareItems_coherent unambiguous as _ _ ha hb hc
  | object as =>
    cases b <;> cases ab
    cases c <;> cases bc
    exact Coherent.of_transOrd _ _ _

/-- `totalCompare_coherent` item by item. -/
theorem totalCompareItems_coherent (unambiguous : Unambiguous I F) (as bs cs : List Value)
    (ha : ItemsFrom I F as) (hb : ItemsFrom I F bs) (hc : ItemsFrom I F cs) :
    Coherent (totalCompareItems as bs) (totalCompareItems bs cs) (totalCompareItems as cs) := by
  cases as with
  | nil =>
    cases bs with
    | nil => exact ⟨fun _ => rfl, fun h => h, fun h => h.symm⟩
    | cons b bs =>
      cases cs with
      | nil => exact ⟨nofun, nofun, nofun⟩
      | cons c cs => exact ⟨nofun, fun _ => rfl, fun _ => rfl⟩
  | cons a as =>
    cases bs with
    | nil =>
      cases cs with
      | nil => exact ⟨nofun, fun _ => rfl, nofun⟩
      | cons c cs => exact ⟨nofun, nofun, nofun⟩
    | cons b bs =>
      cases cs with
      | nil => exact ⟨fun _ => rfl, nofun, fun h => h.symm⟩
      | cons c cs =>
        exact (totalCompare_coherent unambiguous a b c ha.1 hb.1 hc.1).then fun _ _ =>
          totalCompareItems_coherent unambiguous as bs cs ha.2 hb.2 hc.2

end

theorem totalLe_trans (unambiguous : Unambiguous I F) {a b c : Value} (ha : a.NumbersFrom I F)
    (hb : b.NumbersFrom I F) (hc : c.NumbersFrom I F) (hab : totalLe a b = true)
    (hbc : totalLe b c = true) : totalLe a c = true :=
  (totalCompare_coherent unambiguous a b c ha hb hc).isLE hab hbc

/-- **Sorting sorts** what has unambiguous numbers. -/
theorem pairwise_sort (unambiguous : Unambiguous I F) {vs : List Value} (h : ItemsFrom I F vs) :
    (sort vs).Pairwise fun a b => totalLe a b = true := by
  have from_mem : ∀ v ∈ vs, v.NumbersFrom I F := by
    induction vs with
    | nil => nofun
    | cons v vs ih => exact List.forall_mem_cons.2 ⟨h.1, ih h.2⟩
  exact pairwise_stableSort totalLe_total fun a ha b hb c hc =>
    totalLe_trans unambiguous (from_mem a ha) (from_mem b hb) (from_mem c hc)

/-- Where one number stands for two integers, the order is not transitive. -/
theorem unambiguous_of_trans
    (trans : ∀ a b c : Value, a.NumbersFrom I F → b.NumbersFrom I F → c.NumbersFrom I F →
      totalLe a b = true → totalLe b c = true → totalLe a c = true) : Unambiguous I F := by
  have le {m n : Int64} {x : Double} (hm : I m) (hn : I n) (hx : F x)
      (left : (int m).totalCompare (float x) = .eq)
      (right : (int n).totalCompare (float x) = .eq) : m.toInt ≤ n.toInt := by
    have back : (float x).totalCompare (int n) = .eq := by rw [totalCompare_swap, right]; rfl
    exact Std.isLE_compare.1 (trans (int m) (float x) (int n) hm hx hn (by rw [totalLe, left]; rfl)
      (by rw [totalLe, back]; rfl))
  intro m n x hm hn hx left right
  exact Int64.toInt_inj.1 (le_antisymm (le hm hn hx left right) (le hn hm hx right left))

end Numbers

/-- **The order of sorting.** It is decided alike from both sides, and every value ties with itself.
Among the values whose numbers are from given ones it is transitive exactly if no floating-point
number of these ties with two different integers. -/
theorem totalCompare_preorder_iff (I : Int64 → Prop) (F : Double → Prop) :
    (∀ a b : Value, b.totalCompare a = (a.totalCompare b).swap) ∧
    (∀ a : Value, a.totalCompare a = .eq) ∧
    ((∀ a b c : Value, a.NumbersFrom I F → b.NumbersFrom I F → c.NumbersFrom I F →
      totalLe a b = true → totalLe b c = true → totalLe a c = true) ↔ Unambiguous I F) :=
  ⟨totalCompare_swap, totalCompare_self, unambiguous_of_trans,
    fun unambiguous _ _ _ => totalLe_trans unambiguous⟩

/-- Beyond 2⁵³ the order is not transitive: 2⁵³ + 1 is rounded to 2⁵³, so that it ties with the
floating-point number, which ties with the integer 2⁵³. -/
theorem not_totalLe_trans :
    ¬ ∀ a b c : Value, totalLe a b = true → totalLe b c = true → totalLe a c = true := by
  intro trans
  have greater := trans (.int 9007199254740993) (.float (Binary.ofInt 9007199254740992))
    (.int 9007199254740992) (by decide +kernel) (by decide +kernel)
  revert greater
  decide +kernel

end Value

end DocQuery
