import DocQuery.Record
import Mathlib.Data.List.Induction
import Mathlib.Data.String.Basic

/-!
# Records as finite maps

* `Record.get?_insert`, `Record.get?_ofList` – what is found after the operations of a record;
* `Record.Sorted.insert` – insertion keeps the order, in which **every name has one value**
  (`Record.Sorted.get?_of_mem`);
* `Record.ofList_of_sorted` – pairs that stand in order are a record as they are.
-/

namespace DocQuery.Record

variable {α : Type}

@[simp]
theorem get?_cons (name n : String) (a : α) (r : Record α) :
    get? name ((n, a) :: r) = if name = n then some a else get? name r := rfl

theorem get?_insert (name other : String) (a : α) (r : Record α) :
    get? other (insert name a r) = if other = name then some a else get? other r := by
  induction r with
  | nil => simp [insert]
  | cons entry r ih =>
    obtain ⟨n, b⟩ := entry
    rw [insert]
    split
    · simp
    split
    case isTrue hname =>
      subst hname
      by_cases hother : other = name <;> simp [hother]
    case isFalse hname =>
      rw [get?_cons, get?_cons, ih]
      by_cases hn : other = n
      · rw [if_pos hn, if_neg fun h => hname (h.symm.trans hn), if_pos hn]
      · rw [if_neg hn, if_neg hn]

/-- Entries that are left out by their name are not found. -/
theorem get?_filter (p : String → Bool) (name : String) (r : Record α) :
    get? name (r.filter fun e => p e.1) = if p name then get? name r else none := by
  induction r with
  | nil => exact (ite_self none).symm
  | cons entry r ih =>
    obtain ⟨n, b⟩ := entry
    rw [List.filter_cons, get?_cons]
    by_cases hname : name = n
    · subst hname
      cases hp : p name <;> simp [ih, hp]
    · cases p n <;> simp [ih, hname]

theorem mem_of_get? {name : String} {a : α} {r : Record α} (h : get? name r = some a) :
    (name, a) ∈ r := by
  induction r with
  | nil => cases h
  | cons entry r ih =>
    obtain ⟨n, b⟩ := entry
    rw [get?_cons] at h
    split at h
    case isTrue hname =>
      cases h
      rw [hname]
      exact List.mem_cons_self
    case isFalse => exact List.mem_cons_of_mem _ (ih h)

theorem ne_of_get?_eq_none {name : String} {r : Record α} (h : get? name r = none) :
    ∀ e ∈ r, e.1 ≠ name := by
  induction r with
  | nil => exact List.forall_mem_nil _
  | cons e r ih =>
    rw [get?_cons] at h
    split at h
    case isTrue => cases h
    case isFalse apart => exact List.forall_mem_cons.mpr ⟨Ne.symm apart, ih h⟩

theorem mem_names_iff {name : String} {r : Record α} :
    name ∈ r.map Prod.fst ↔ ∃ a, get? name r = some a := by
  constructor
  · intro h
    obtain ⟨e, he, rfl⟩ := List.mem_map.mp h
    exact Option.ne_none_iff_exists'.mp fun missing => ne_of_get?_eq_none missing e he rfl
  · rintro ⟨a, h⟩
    exact List.mem_map.mpr ⟨_, mem_of_get? h, rfl⟩

/-- **Of a repeated name the last value counts.** -/
theorem get?_ofList (name : String) (pairs : List (String × α)) :
    get? name (ofList pairs) = (pairs.reverse.find? fun e => e.1 == name).map Prod.snd := by
  induction pairs using List.reverseRecOn with
  | nil => rfl
  | append_singleton pairs entry ih =>
    rw [ofList, List.foldl_append, List.foldl_cons, List.foldl_nil, get?_insert,
      List.reverse_append, List.reverse_singleton, List.singleton_append, List.find?_cons]
    by_cases hname : entry.1 = name
    · simp [hname]
    · rw [if_neg fun h => hname h.symm, beq_false_of_ne hname]
      exact ih

/-! ### The order -/

theorem mem_of_mem_insert {name : String} {a : α} {r : Record α} {e : String × α}
    (h : e ∈ insert name a r) : e = (name, a) ∨ e ∈ r := by
  induction r with
  | nil => exact Or.inl (by simpa [insert] using h)
  | cons entry r ih =>
    obtain ⟨n, b⟩ := entry
    rw [insert] at h
    split at h
    · simpa using h
    split at h
    · rcases List.mem_cons.mp h with rfl | h
      · exact Or.inl rfl
      · exact Or.inr (List.mem_cons_of_mem _ h)
    · rcases List.mem_cons.mp h with rfl | h
      · exact Or.inr List.mem_cons_self
      · exact (ih h).imp_right (List.mem_cons_of_mem _)

theorem Sorted.insert {r : Record α} (h : r.Sorted) (name : String) (a : α) :
    (Record.insert name a r).Sorted := by
  induction r with
  | nil => exact List.pairwise_singleton _ _
  | cons entry r ih =>
    obtain ⟨n, b⟩ := entry
    obtain ⟨hfirst, hrest⟩ := List.pairwise_cons.mp h
    rw [Record.insert]
    split
    case isTrue hless =>
      refine List.pairwise_cons.mpr ⟨fun e he => ?_, h⟩
      rcases List.mem_cons.mp he with rfl | he
      · exact hless
      · exact lt_trans hless (hfirst e he)
    case isFalse hnot =>
      split
      case isTrue hname =>
        subst hname
        exact List.pairwise_cons.mpr ⟨hfirst, hrest⟩
      case isFalse hname =>
        refine List.pairwise_cons.mpr ⟨fun e he => ?_, ih hrest⟩
        rcases mem_of_mem_insert he with rfl | he
        · exact lt_of_le_of_ne (not_lt.mp hnot) fun h => hname h.symm
        · exact hfirst e he

/-- **In a sorted record every name has one value**, which is found. -/
theorem Sorted.get?_of_mem {r : Record α} (h : r.Sorted) {name : String} {a : α}
    (hmem : (name, a) ∈ r) : get? name r = some a := by
  induction r with
  | nil => cases hmem
  | cons entry r ih =>
    obtain ⟨n, b⟩ := entry
    obtain ⟨hfirst, hrest⟩ := List.pairwise_cons.mp h
    rw [get?_cons]
    rcases List.mem_cons.mp hmem with heq | hmem
    · cases heq
      exact if_pos rfl
    · rw [if_neg (hfirst _ hmem).ne', ih hrest hmem]

/-- The values of a name in a record: one or none. -/
theorem Sorted.map_filter_name {r : Record α} (h : r.Sorted) (name : String) :
    (r.filter fun e => e.1 == name).map Prod.snd = (r.get? name).toList := by
  induction r with
  | nil => rfl
  | cons e r ih =>
    obtain ⟨first, rest⟩ := List.pairwise_cons.mp h
    rw [List.filter_cons, get?_cons]
    by_cases same : e.1 = name
    · have others : r.filter (fun e => e.1 == name) = [] := List.filter_eq_nil_iff.mpr
        fun d hd => by simpa [← same] using (first d hd).ne'
      simp [same, others]
    · simp [same, Ne.symm same, ih rest]

theorem Sorted.nodup_names {r : Record α} (h : r.Sorted) : (r.map Prod.fst).Nodup :=
  List.pairwise_map.mpr (h.imp fun hless => hless.ne)

instance (r : Record α) : Decidable r.Sorted :=
  inferInstanceAs (Decidable (List.Pairwise _ r))

/-- A name behind all others is put at the end. -/
theorem insert_of_forall_lt {name : String} {r : Record α} (h : ∀ e ∈ r, e.1 < name) (a : α) :
    insert name a r = r ++ [(name, a)] := by
  induction r with
  | nil => rfl
  | cons entry r ih =>
    obtain ⟨n, b⟩ := entry
    have hless : n < name := h _ List.mem_cons_self
    rw [insert, if_neg hless.asymm, if_neg hless.ne', ih fun e he => h e (List.mem_cons_of_mem _ he),
      List.cons_append]

/-- A new name is added to the entries. -/
theorem insert_perm {name : String} {r : Record α} (h : ∀ e ∈ r, e.1 ≠ name) (a : α) :
    (insert name a r).Perm ((name, a) :: r) := by
  induction r with
  | nil => exact .refl _
  | cons e r ih =>
    obtain ⟨n, b⟩ := e
    obtain ⟨first, rest⟩ := List.forall_mem_cons.mp h
    rw [insert]
    split
    · exact .refl _
    rw [if_neg (Ne.symm first)]
    exact ((ih rest).cons _).trans (.swap _ _ _)

theorem ofList_concat (pairs : List (String × α)) (e : String × α) :
    ofList (pairs ++ [e]) = insert e.1 e.2 (ofList pairs) := by
  rw [ofList, List.foldl_append]
  rfl

theorem sorted_ofList (pairs : List (String × α)) : (ofList pairs).Sorted := by
  induction pairs using List.reverseRecOn with
  | nil => exact List.Pairwise.nil
  | append_singleton pairs e ih =>
    rw [ofList_concat]
    exact ih.insert _ _

theorem mem_of_mem_ofList {pairs : List (String × α)} {e : String × α} (h : e ∈ ofList pairs) :
    e ∈ pairs := by
  induction pairs using List.reverseRecOn with
  | nil => cases h
  | append_singleton pairs last ih =>
    rw [ofList_concat] at h
    rcases mem_of_mem_insert h with rfl | h
    · exact List.mem_append_right _ (List.mem_singleton_self _)
    · exact List.mem_append_left _ (ih h)

/-- **Pairs that stand in order are a record as they are.** -/
theorem ofList_of_sorted {r : Record α} (h : r.Sorted) : ofList r = r := by
  induction r using List.reverseRecOn with
  | nil => rfl
  | append_singleton r e ih =>
    obtain ⟨hfront, -, hlast⟩ := List.pairwise_append.mp h
    rw [ofList_concat, ih hfront]
    exact insert_of_forall_lt (fun d hd => hlast d hd e List.mem_cons_self) _

/-- Where no name stands twice every value is found. -/
theorem get?_of_mem_of_nodup {name : String} {a : α} {r : Record α}
    (h : (r.map Prod.fst).Nodup) (hmem : (name, a) ∈ r) : get? name r = some a := by
  induction r with
  | nil => cases hmem
  | cons e r ih =>
    obtain ⟨first, rest⟩ := List.nodup_cons.mp h
    rw [get?_cons]
    rcases List.mem_cons.mp hmem with rfl | hmem
    · exact if_pos rfl
    · rw [if_neg, ih rest hmem]
      rintro rfl
      exact first (List.mem_map.mpr ⟨_, hmem, rfl⟩)

/-- Entries with different names replace what was found under them. -/
theorem get?_foldl_insert {entries : List (String × α)} (h : (entries.map Prod.fst).Nodup)
    (r : Record α) (name : String) :
    get? name (entries.foldl (fun r e => insert e.1 e.2 r) r) =
      (get? name entries).or (get? name r) := by
  induction entries generalizing r with
  | nil => rfl
  | cons e entries ih =>
    obtain ⟨first, rest⟩ := List.nodup_cons.mp h
    rw [List.foldl_cons, ih rest, get?_insert, get?_cons]
    by_cases here : name = e.1
    · rw [if_pos here, if_pos here]
      cases found : get? name entries with
      | none => rfl
      | some b => exact absurd (List.mem_map.mpr ⟨_, mem_of_get? found, here⟩) first
    · rw [if_neg here, if_neg here]

/-- Where no name stands twice, a record has the same entries in order. -/
theorem ofList_perm {pairs : List (String × α)} (h : (pairs.map Prod.fst).Nodup) :
    (ofList pairs).Perm pairs := by
  induction pairs using List.reverseRecOn with
  | nil => exact .refl _
  | append_singleton pairs e ih =>
    rw [List.map_append, List.nodup_append] at h
    obtain ⟨front, -, apart⟩ := h
    have fresh : ∀ d ∈ ofList pairs, d.1 ≠ e.1 := fun d hd =>
      apart d.1 (List.mem_map_of_mem (mem_of_mem_ofList hd)) e.1 (List.mem_singleton_self _)
    rw [ofList_concat]
    exact (insert_perm fresh e.2).trans (List.perm_append_singleton e _ |>.symm.trans
      ((ih front).append_right [e]))

end DocQuery.Record
