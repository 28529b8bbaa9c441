import DocQuery.Sorting
import Mathlib.Data.List.Perm.Basic

/-!
# What sorting promises

A list is sorted by a test that says which member may stand before which. Where the test is total
and transitive on the members (`TransOn`), the sorted list is determined: its members are in order,
and those that may stand either way are in the order in which they stood. Then it does not matter
how the list is sorted, and sorting goes together with filtering.

Elsewhere nothing but the members is certain. Ids of all types at once may be such a list: two
integers beyond `2 ^ 53` are told apart, and neither from the floating-point number that both are
rounded to. A sort may return them in any order, and it may even stop without an answer.

* `filter_mergeSort` – sorting is stable, so that it commutes with filtering;
* `mergeSort_eq_of_perm` – different arrangements of a list are sorted alike, if no two members may
  stand either way; `mergeSort_flip` – backwards, the sorted list is reversed;
* `stableSort_eq_mergeSort` – **sorting by insertion and by merging lead to the same list**;
* `DocQuery.Sorter` – a sort as far as it is promised, of which `Sorter.standard` is one.
-/

namespace DocQuery

variable {α : Type} {le : α → α → Bool} {l m : List α}

/-! ### Sorting a part of a list -/

/-- A comparison is transitive on the members of a list. -/
def TransOn (le : α → α → Bool) (l : List α) : Prop :=
  ∀ a ∈ l, ∀ b ∈ l, ∀ c ∈ l, le a b = true → le b c = true → le a c = true

instance (l : List α) : Decidable (TransOn le l) :=
  inferInstanceAs (Decidable (∀ a ∈ l, ∀ b ∈ l, ∀ c ∈ l, _))

theorem TransOn.of_subset (h : TransOn le m) (hsub : l ⊆ m) : TransOn le l :=
  fun a ha b hb c hc => h a (hsub ha) b (hsub hb) c (hsub hc)

theorem TransOn.flip (h : TransOn le l) : TransOn (fun a b => le b a) l :=
  fun a ha b hb c hc hab hbc => h c hc b hb a ha hbc hab

/-- A list that was split by a test can be split again by asking the test. -/
theorem filter_append_split {q : α → Bool} {l₁ l₂ : List α} (h₁ : ∀ b ∈ l₁, (!q b) = true)
    (h₂ : ∀ b ∈ l₂, q b = true) :
    (l₁ ++ l₂).filter (fun b => !q b) = l₁ ∧ (l₁ ++ l₂).filter q = l₂ := by
  have hfront : l₁.filter q = [] :=
    List.filter_eq_nil_iff.mpr fun b hb => by simpa using h₁ b hb
  have hback : l₂.filter (fun b => !q b) = [] :=
    List.filter_eq_nil_iff.mpr fun b hb => by simpa using h₂ b hb
  rw [List.filter_append, List.filter_append, hfront, hback, List.filter_eq_self.mpr h₁,
    List.filter_eq_self.mpr h₂]
  exact ⟨List.append_nil l₁, List.nil_append l₂⟩

/-- **Sorting commutes with filtering.** The head of the list goes to the same place whether the
rest is sorted with or without the members that are filtered out: in front of the first member that
it may stand before. -/
theorem filter_mergeSort (trans : ∀ a b c, le a b = true → le b c = true → le a c = true)
    (total : ∀ a b, (le a b || le b a) = true) (q : α → Bool) (l : List α) :
    (l.filter q).mergeSort le = (l.mergeSort le).filter q := by
  -- what stands behind the head in a sorted list may stand behind it
  have hbehind {a : α} {l l₁ l₂ : List α} (h : (a :: l).mergeSort le = l₁ ++ a :: l₂) :
      ∀ b ∈ l₂, le a b = true := by
    have hsorted := List.pairwise_mergeSort trans total (a :: l)
    rw [h, List.pairwise_append, List.pairwise_cons] at hsorted
    exact hsorted.2.1.1
  induction l with
  | nil => simp
  | cons a l ih =>
    obtain ⟨l₁, l₂, hsort, hrest, hfront⟩ := List.mergeSort_cons trans total a l
    rw [hrest, List.filter_append] at ih
    rw [hsort, List.filter_append]
    rcases Bool.eq_false_or_eq_true (q a) with ha | ha
    · -- both sorted lists are split where the head stands, and the parts agree
      obtain ⟨m₁, m₂, hsort', hrest', hfront'⟩ := List.mergeSort_cons trans total a (l.filter q)
      obtain ⟨hm₁, hm₂⟩ := filter_append_split hfront' (hbehind hsort')
      obtain ⟨hl₁, hl₂⟩ := filter_append_split
        (fun b (hb : b ∈ l₁.filter q) => hfront b (List.mem_filter.mp hb).1)
        (fun b (hb : b ∈ l₂.filter q) => hbehind hsort b (List.mem_filter.mp hb).1)
      rw [← hrest', ih, hl₁] at hm₁
      rw [← hrest', ih, hl₂] at hm₂
      rw [List.filter_cons_of_pos ha, List.filter_cons_of_pos ha, hsort', hm₁, hm₂]
    · rw [List.filter_cons_of_neg (by simp [ha]), List.filter_cons_of_neg (by simp [ha]), ih]

/-- Stable sorting keeps what holds between earlier and later members, where it leaves them
alone. -/
theorem pairwise_mergeSort_of_pairwise {R : α → α → Prop} {l : List α}
    (trans : ∀ a b c, le a b = true → le b c = true → le a c = true)
    (total : ∀ a b, (le a b || le b a) = true) (h : l.Pairwise R) :
    (l.mergeSort le).Pairwise fun a b => le a b = true ∧ (le b a = true → R a b) := by
  induction h with
  | nil => simp
  | @cons a l first _ ih =>
    -- the head is put in front of the first member that it may stand before
    obtain ⟨front, back, sorted, rest, before⟩ := List.mergeSort_cons trans total a l
    have ordered := List.pairwise_mergeSort trans total (a :: l)
    rw [sorted, List.pairwise_append, List.pairwise_cons] at ordered
    obtain ⟨-, ⟨behind, -⟩, across⟩ := ordered
    rw [rest, List.pairwise_append] at ih
    obtain ⟨ihFront, ihBack, ihAcross⟩ := ih
    rw [sorted, List.pairwise_append, List.pairwise_cons]
    refine ⟨ihFront, ⟨fun b hb => ⟨behind b hb, fun _ => first b ?_⟩, ihBack⟩, ?_⟩
    · exact List.mem_mergeSort.mp (rest ▸ List.mem_append_right front hb)
    · intro b hb c hc
      rcases List.mem_cons.mp hc with rfl | hc
      · refine ⟨across b hb c List.mem_cons_self, fun h => ?_⟩
        have stays := before b hb
        rw [h] at stays
        cases stays
      · exact ihAcross b hb c hc

/-- The members of a list, compared as they are in the list. -/
def memberLe (le : α → α → Bool) (l : List α) (a b : {a // a ∈ l}) : Bool := le a.1 b.1

theorem map_mergeSort_memberLe (l : List α) (m : List {a // a ∈ l}) :
    (m.mergeSort (memberLe le l)).map Subtype.val = (m.map Subtype.val).mergeSort le :=
  List.map_mergeSort fun _ _ _ _ => rfl

/-- `List.pairwise_mergeSort` where the comparison is transitive on what is sorted. -/
theorem pairwise_mergeSort_of_transOn (trans : TransOn le l)
    (total : ∀ a b, (le a b || le b a) = true) :
    (l.mergeSort le).Pairwise fun a b => le a b = true := by
  have hsorted : (l.attach.mergeSort (memberLe le l)).Pairwise
      fun a b => memberLe le l a b = true :=
    List.pairwise_mergeSort (fun a b c => trans a.1 a.2 b.1 b.2 c.1 c.2)
      (fun a b => total a.1 b.1) l.attach
  rw [← List.attach_map_subtype_val l, ← map_mergeSort_memberLe, List.pairwise_map]
  exact hsorted

/-- `filter_mergeSort` where the comparison is transitive on what is sorted. -/
theorem filter_mergeSort_of_transOn (trans : TransOn le l)
    (total : ∀ a b, (le a b || le b a) = true) (q : α → Bool) :
    (l.filter q).mergeSort le = (l.mergeSort le).filter q := by
  have hcomm : (l.attach.filter (q ∘ Subtype.val)).mergeSort (memberLe le l) =
      (l.attach.mergeSort (memberLe le l)).filter (q ∘ Subtype.val) :=
    filter_mergeSort (fun a b c => trans a.1 a.2 b.1 b.2 c.1 c.2) (fun a b => total a.1 b.1) _ _
  have hmap := congrArg (List.map Subtype.val) hcomm
  rwa [map_mergeSort_memberLe, ← List.filter_map, ← List.filter_map, map_mergeSort_memberLe,
    List.attach_map_subtype_val] at hmap

/-! ### Sorted arrangements -/

/-- A comparison tells the members of a list apart. -/
def AntisymmOn (le : α → α → Bool) (l : List α) : Prop :=
  ∀ a ∈ l, ∀ b ∈ l, le a b = true → le b a = true → a = b

/-- **A list has one sorted arrangement**, if no two members are equal to the comparison. -/
theorem mergeSort_eq_of_perm (trans : TransOn le l) (total : ∀ a b, (le a b || le b a) = true)
    (antisymm : AntisymmOn le l) (perm : l.Perm m) : l.mergeSort le = m.mergeSort le := by
  refine List.Perm.eq_of_pairwise (fun a b ha hb => ?_) (pairwise_mergeSort_of_transOn trans total)
    (pairwise_mergeSort_of_transOn (trans.of_subset perm.symm.subset) total)
    ((List.mergeSort_perm l le).trans (perm.trans (List.mergeSort_perm m le).symm))
  exact antisymm a (List.mem_mergeSort.1 ha) b (perm.symm.subset (List.mem_mergeSort.1 hb))

/-- **The other way round the sorted list is reversed.** -/
theorem mergeSort_flip (trans : TransOn le l) (total : ∀ a b, (le a b || le b a) = true)
    (antisymm : AntisymmOn le l) :
    l.mergeSort (fun a b => le b a) = (l.mergeSort le).reverse := by
  refine List.Perm.eq_of_pairwise (fun a b ha hb hab hba => ?_)
    (pairwise_mergeSort_of_transOn trans.flip fun a b => total b a)
    (List.pairwise_reverse.2 (pairwise_mergeSort_of_transOn trans total))
    ((List.mergeSort_perm l _).trans
      ((List.mergeSort_perm l le).symm.trans (List.reverse_perm _).symm))
  exact antisymm a (List.mem_mergeSort.1 ha) b
    (List.mem_mergeSort.1 (List.mem_reverse.1 hb)) hba hab

/-! ### Sorting by insertion -/

theorem perm_place (a : α) (l : List α) : (place le a l).Perm (a :: l) := by
  induction l with
  | nil => exact .refl _
  | cons b l ih =>
    rw [place]
    split
    · exact .refl _
    · exact (ih.cons b).trans (.swap a b l)

theorem perm_insertionSort (l : List α) : (insertionSort le l).Perm l := by
  have hfold (sorted : List α) :
      (l.foldl (fun sorted a => place le a sorted) sorted).Perm (l ++ sorted) := by
    induction l generalizing sorted with
    | nil => exact .refl _
    | cons a l ih =>
      exact (ih _).trans (((perm_place a sorted).append_left l).trans List.perm_middle)
  exact (List.reverse_perm _).trans ((hfold []).trans (.of_eq (List.append_nil l)))

/-- The greatest comes first. -/
def Descends (le : α → α → Bool) (l : List α) : Prop := l.Pairwise fun a b => le b a = true

theorem Descends.place (trans : ∀ a b c, le a b = true → le b c = true → le a c = true)
    (total : ∀ a b, (le a b || le b a) = true) (h : Descends le l) (a : α) :
    Descends le (place le a l) := by
  induction l with
  | nil => exact List.pairwise_singleton _ a
  | cons b l ih =>
    obtain ⟨hb, hl⟩ := List.pairwise_cons.mp h
    rw [DocQuery.place]
    split
    case isTrue hba =>
      refine List.pairwise_cons.mpr ⟨fun c hc => ?_, h⟩
      rcases List.mem_cons.mp hc with rfl | hc
      · exact hba
      · exact trans c b a (hb c hc) hba
    case isFalse hnot =>
      refine List.pairwise_cons.mpr ⟨fun c hc => ?_, ih hl⟩
      rcases List.mem_cons.mp ((perm_place a l).mem_iff.mp hc) with rfl | hc
      · have either := total b c
        rwa [eq_false_of_ne_true hnot, Bool.false_or] at either
      · exact hb c hc

/-- **Inserting sorts.** -/
theorem pairwise_insertionSort (trans : ∀ a b c, le a b = true → le b c = true → le a c = true)
    (total : ∀ a b, (le a b || le b a) = true) (l : List α) :
    (insertionSort le l).Pairwise fun a b => le a b = true := by
  refine List.pairwise_reverse.mpr ?_
  refine List.foldlRecOn (motive := Descends le) l _ .nil fun sorted h a _ => ?_
  exact h.place trans total a

section Map

variable {β : Type} {le' : β → β → Bool} {f : α → β}

theorem map_place {a : α} (h : ∀ b ∈ l, le b a = le' (f b) (f a)) :
    (place le a l).map f = place le' (f a) (l.map f) := by
  induction l with
  | nil => rfl
  | cons b l ih =>
    obtain ⟨hb, hl⟩ := List.forall_mem_cons.mp h
    rw [List.map_cons, place, place, ← hb]
    split
    · rfl
    · rw [List.map_cons, ih hl]

/-- Members are compared with earlier ones only. -/
theorem map_insertionSort (h : l.Pairwise fun b a => le b a = le' (f b) (f a)) :
    (insertionSort le l).map f = insertionSort le' (l.map f) := by
  have hfold (sorted : List α) (hsorted : ∀ b ∈ sorted, ∀ a ∈ l, le b a = le' (f b) (f a)) :
      (l.foldl (fun sorted a => place le a sorted) sorted).map f =
        (l.map f).foldl (fun sorted a => place le' a sorted) (sorted.map f) := by
    induction h generalizing sorted with
    | nil => rfl
    | @cons a l ha _ ih =>
      rw [List.foldl_cons, List.map_cons, List.foldl_cons,
        ← map_place fun b hb => hsorted b hb a List.mem_cons_self]
      refine ih _ fun b hb c hc => ?_
      rcases List.mem_cons.mp ((perm_place a sorted).mem_iff.mp hb) with rfl | hb
      · exact ha c hc
      · exact hsorted b hb c (List.mem_cons_of_mem _ hc)
  rw [insertionSort, insertionSort, List.map_reverse, hfold [] (by simp), List.map_nil]

end Map

/-- Two members at the same place are the same. -/
theorem eq_of_zipIdxLE {a b : α × Nat} (ha : a ∈ l.zipIdx) (hb : b ∈ l.zipIdx)
    (hab : List.zipIdxLE le a b = true) (hba : List.zipIdxLE le b a = true) : a = b := by
  have hplace : a.2 = b.2 := by
    rw [List.zipIdxLE] at hab hba
    cases hfirst : le a.1 b.1 <;> cases hlast : le b.1 a.1 <;> simp [hfirst, hlast] at hab hba
    omega
  rw [List.mem_zipIdx_iff_getElem?] at ha hb
  rw [hplace, hb] at ha
  exact Prod.ext (Option.some.inj ha).symm hplace

/-- **Inserting and merging lead to the same list.** Members are told apart by their places, so that
the list that is sorted by the test and then by place is the only one. -/
theorem insertionSort_eq_mergeSort
    (trans : ∀ a b c, le a b = true → le b c = true → le a c = true)
    (total : ∀ a b, (le a b || le b a) = true) (l : List α) :
    insertionSort le l = l.mergeSort le := by
  -- what is inserted stands behind everything that was inserted before
  have hplaces : l.zipIdx.Pairwise fun b a => List.zipIdxLE le b a = le b.1 a.1 := by
    have hbefore : l.zipIdx.Pairwise fun b a => b.2 < a.2 := by
      have hrange : (List.range' 0 l.length).Pairwise (· < ·) := List.pairwise_lt_range'
      rwa [← List.zipIdx_map_snd 0 l, List.pairwise_map] at hrange
    refine hbefore.imp fun {b a} hlt => ?_
    rw [List.zipIdxLE, decide_eq_true (Nat.le_of_lt hlt)]
    cases le b.1 a.1 <;> cases le a.1 b.1 <;> rfl
  have hsorted : insertionSort (List.zipIdxLE le) l.zipIdx =
      l.zipIdx.mergeSort (List.zipIdxLE le) := by
    refine List.Perm.eq_of_pairwise (fun a b ha hb hab hba => ?_)
      (pairwise_insertionSort (List.zipIdxLE_trans trans) (List.zipIdxLE_total total) _)
      (List.pairwise_mergeSort (List.zipIdxLE_trans trans) (List.zipIdxLE_total total) _)
      ((perm_insertionSort _).trans (List.mergeSort_perm _ _).symm)
    exact eq_of_zipIdxLE ((perm_insertionSort _).mem_iff.mp ha) (List.mem_mergeSort.mp hb) hab hba
  calc insertionSort le l
      = insertionSort le (l.zipIdx.map Prod.fst) := by rw [List.zipIdx_map_fst]
    _ = (insertionSort (List.zipIdxLE le) l.zipIdx).map Prod.fst := (map_insertionSort hplaces).symm
    _ = (l.zipIdx.mergeSort (List.zipIdxLE le)).map Prod.fst := by rw [hsorted]
    _ = l.mergeSort le := List.mergeSort_zipIdx

/-! ### Sorting -/

theorem perm_stableSort (l : List α) : (stableSort le l).Perm l := by
  rw [stableSort]
  split
  · exact perm_insertionSort l
  · exact List.mergeSort_perm l le

/-- **Where the test is total and transitive on the members, the sorted list is the merged one**,
whichever way is taken. -/
theorem stableSort_eq_mergeSort (trans : TransOn le l)
    (total : ∀ a b, (le a b || le b a) = true) : stableSort le l = l.mergeSort le := by
  rw [stableSort]
  split
  case isFalse => rfl
  case isTrue =>
    have hsorted : insertionSort (memberLe le l) l.attach = l.attach.mergeSort (memberLe le l) :=
      insertionSort_eq_mergeSort (fun a b c => trans a.1 a.2 b.1 b.2 c.1 c.2)
        (fun a b => total a.1 b.1) l.attach
    have hmap : (insertionSort (memberLe le l) l.attach).map Subtype.val =
        insertionSort le (l.attach.map Subtype.val) :=
      map_insertionSort (List.pairwise_of_forall fun _ _ => rfl)
    rwa [hsorted, map_mergeSort_memberLe, List.attach_map_subtype_val, eq_comm] at hmap

@[simp] theorem mem_stableSort {a : α} : a ∈ stableSort le l ↔ a ∈ l :=
  (perm_stableSort l).mem_iff

@[simp] theorem length_stableSort : (stableSort le l).length = l.length :=
  (perm_stableSort l).length_eq

section Total

variable (total : ∀ a b, (le a b || le b a) = true)

include total

/-- **Sorting sorts.** -/
theorem pairwise_stableSort (trans : TransOn le l) :
    (stableSort le l).Pairwise fun a b => le a b = true := by
  rw [stableSort_eq_mergeSort trans total]
  exact pairwise_mergeSort_of_transOn trans total

/-- A part of a list is sorted as it is in the whole list. -/
theorem filter_stableSort (trans : TransOn le l) (q : α → Bool) :
    stableSort le (l.filter q) = (stableSort le l).filter q := by
  rw [stableSort_eq_mergeSort trans total, ← filter_mergeSort_of_transOn trans total q]
  exact stableSort_eq_mergeSort (trans.of_subset (List.filter_subset_self l)) total

theorem stableSort_eq_of_perm (trans : TransOn le l) (antisymm : AntisymmOn le l)
    (perm : l.Perm m) : stableSort le l = stableSort le m := by
  rw [stableSort_eq_mergeSort trans total,
    stableSort_eq_mergeSort (trans.of_subset perm.symm.subset) total]
  exact mergeSort_eq_of_perm trans total antisymm perm

theorem stableSort_flip (trans : TransOn le l) (antisymm : AntisymmOn le l) :
    stableSort (fun a b => le b a) l = (stableSort le l).reverse := by
  rw [stableSort_eq_mergeSort trans total, ← mergeSort_flip trans total antisymm]
  exact stableSort_eq_mergeSort trans.flip fun a b => total b a

end Total

/-! ### Sorts -/

/-- **A sort as far as it is promised.** If it returns a list, it has the same members. Where the
test is total and transitive on the members, it does return, and the members are in order, those
that may stand either way as they stood before. -/
structure Sorter where
  sort : {α : Type} → (α → α → Bool) → List α → Option (List α)
  perm : ∀ {α : Type} {le : α → α → Bool} {l m : List α}, sort le l = some m → m.Perm l
  sorts : ∀ {α : Type} {le : α → α → Bool} {l : List α}, TransOn le l →
    (∀ a b, (le a b || le b a) = true) → sort le l = some (l.mergeSort le)

namespace Sorter

/-- The sort that always returns. -/
def standard : Sorter where
  sort le l := some (stableSort le l)
  perm h := Option.some.inj h ▸ perm_stableSort _
  sorts trans total := congrArg some (stableSort_eq_mergeSort trans total)

theorem sort_eq (sorter : Sorter) (trans : TransOn le l)
    (total : ∀ a b, (le a b || le b a) = true) : sorter.sort le l = some (stableSort le l) := by
  rw [sorter.sorts trans total, stableSort_eq_mergeSort trans total]

end Sorter

end DocQuery
