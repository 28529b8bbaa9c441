import DocQuery.Proofs.Json.Decode
import DocQuery.Proofs.Json.Reread

/-!
# Trees that are read as they were written

Of all that a text can hold, only floating-point numbers may be read as something else. So a tree is
read as it was written exactly if each of its floating-point numbers is, and even if one is not, data
is read as data.

* `Json.floats` – the floating-point numbers of a tree;
* `Json.reread_eq_self_iff` – **a tree is read as it was written exactly if they are**;
* `Json.rereadMembers_eq_some_iff`, `Json.get?_of_reread` – the members of an object are read one by
  one, under their names;
* `Json.isData_of_reread` – data is read as data;
* `Value.toJson_of_reread` – so that a value is read back only from a text that is read exactly.
-/

namespace DocQuery

namespace Json

mutual

/-- The floating-point numbers of a tree. -/
def floats : Json → List Double
  | .float x => [x]
  | .array items => floatsItems items
  | .object members => floatsMembers members
  | _ => []

/-- The floating-point numbers of items. -/
def floatsItems : List Json → List Double
  | [] => []
  | j :: rest => floats j ++ floatsItems rest

/-- The floating-point numbers of members. -/
def floatsMembers : List (String × Json) → List Double
  | [] => []
  | (_, j) :: rest => floats j ++ floatsMembers rest

end

/-! ### Exact reading -/

theorem reread_int {i : Int} (h : (Json.int i).isReadable = true) :
    reread (.int i) = some (.int i) :=
  (wordValue?_number (.int i)).trans (readNumber?_int h)

theorem reread_float {x : Double} (finite : x.isFinite = true) :
    reread (.float x) = some (.float x) ↔ ReadsBack x := by
  show wordValue? (print (.float x)) = _ ↔ _
  rw [wordValue?_number (.float finite), ReadsBack]

theorem rereadItems_cons_eq_self {j : Json} {rest : List Json} :
    rereadItems (j :: rest) = some (j :: rest) ↔
      reread j = some j ∧ rereadItems rest = some rest := by
  rw [rereadItems]
  cases reread j <;> cases rereadItems rest <;> simp

theorem rereadMembers_cons_eq_self {name : String} {j : Json} {rest : List (String × Json)} :
    rereadMembers ((name, j) :: rest) = some ((name, j) :: rest) ↔
      reread j = some j ∧ rereadMembers rest = some rest := by
  rw [rereadMembers]
  cases reread j <;> cases rereadMembers rest <;> simp

mutual

/-- **A tree is read as it was written** exactly if its floating-point numbers are. -/
theorem reread_eq_self_iff (j : Json) (h : j.isReadable = true) :
    reread j = some j ↔ ∀ x ∈ j.floats, ReadsBack x := by
  match j with
  | .null => exact iff_of_true rfl (List.forall_mem_nil _)
  | .bool b =>
    have keyword : reread (.bool b) = some (.bool b) := by
      cases b <;> simp [reread, print, wordValue?]
    exact iff_of_true keyword (List.forall_mem_nil _)
  | .int i => exact iff_of_true (reread_int h) (List.forall_mem_nil _)
  | .float x => rw [reread_float h, floats, List.forall_mem_singleton]
  | .single _ => cases h
  | .string s => exact iff_of_true rfl (List.forall_mem_nil _)
  | .array items =>
    rw [reread, floats, ← rereadItems_eq_self_iff items h]
    exact ((Option.map_injective fun _ _ => Json.array.inj).eq_iff (b := some items))
  | .object members =>
    rw [reread, floats, ← rereadMembers_eq_self_iff members h]
    exact ((Option.map_injective fun _ _ => Json.object.inj).eq_iff (b := some members))

/-- `reread_eq_self_iff` item by item. -/
theorem rereadItems_eq_self_iff (items : List Json) (h : areReadable items = true) :
    rereadItems items = some items ↔ ∀ x ∈ floatsItems items, ReadsBack x := by
  match items with
  | [] => exact iff_of_true rfl (List.forall_mem_nil _)
  | j :: rest =>
    obtain ⟨first, others⟩ := Bool.and_eq_true_iff.mp h
    rw [rereadItems_cons_eq_self, reread_eq_self_iff j first, rereadItems_eq_self_iff rest others,
      floatsItems, List.forall_mem_append]

/-- `reread_eq_self_iff` member by member. -/
theorem rereadMembers_eq_self_iff (members : List (String × Json))
    (h : haveReadable members = true) :
    rereadMembers members = some members ↔ ∀ x ∈ floatsMembers members, ReadsBack x := by
  match members with
  | [] => exact iff_of_true rfl (List.forall_mem_nil _)
  | (name, j) :: rest =>
    obtain ⟨first, others⟩ := Bool.and_eq_true_iff.mp h
    rw [rereadMembers_cons_eq_self, reread_eq_self_iff j first,
      rereadMembers_eq_self_iff rest others, floatsMembers, List.forall_mem_append]

end

/-! ### Members -/

section Members

variable {ms ms' ns ns' : List (String × Json)}

/-- The members of an object are read one by one. -/
theorem rereadMembers_eq_mapM (ms : List (String × Json)) :
    rereadMembers ms = ms.mapM fun m => (reread m.2).map fun j => (m.1, j) := by
  induction ms with
  | nil => rfl
  | cons m ms ih =>
    rw [rereadMembers, ih, List.mapM_cons]
    cases reread m.2 <;> rfl

theorem rereadMembers_eq_some_iff : rereadMembers ms = some ms' ↔
    List.Forall₂ (fun m m' => m.1 = m'.1 ∧ reread m.2 = some m'.2) ms ms' := by
  have each (m m' : String × Json) : (reread m.2).map (fun j => (m.1, j)) = some m' ↔
      m.1 = m'.1 ∧ reread m.2 = some m'.2 := by
    obtain ⟨name', j'⟩ := m'
    simp only [Option.map_eq_some_iff, Prod.mk.injEq]
    constructor
    · rintro ⟨j, read, name, rfl⟩
      exact ⟨name, read⟩
    · rintro ⟨name, read⟩
      exact ⟨j', read, name, rfl⟩
  rw [rereadMembers_eq_mapM, mapM_eq_some_iff]
  exact ⟨.imp fun m m' => (each m m').mp, .imp fun m m' => (each m m').mpr⟩

/-- The names are kept. -/
theorem map_fst_of_reread (h : rereadMembers ms = some ms') :
    ms'.map Prod.fst = ms.map Prod.fst := by
  have members := rereadMembers_eq_some_iff.mp h
  clear h
  induction members with
  | nil => rfl
  | cons first _ ih => rw [List.map_cons, List.map_cons, ← first.1, ih]

/-- What stands under a name is read. -/
theorem get?_of_reread (h : rereadMembers ms = some ms') (name : String) :
    Record.get? name ms' = (Record.get? name ms).bind reread := by
  have members := rereadMembers_eq_some_iff.mp h
  clear h
  induction members with
  | nil => rfl
  | @cons m m' _ _ first _ ih =>
    obtain ⟨name', j⟩ := m
    obtain ⟨_, j'⟩ := m'
    obtain ⟨rfl, read⟩ := first
    rw [Record.get?_cons, Record.get?_cons, ih]
    split
    · exact read.symm
    · rfl

/-- Members that are left out by their names are not missed. -/
theorem rereadMembers_filter (p : String → Bool) (h : rereadMembers ms = some ms') :
    rereadMembers (ms.filter fun m => p m.1) = some (ms'.filter fun m => p m.1) := by
  refine rereadMembers_eq_some_iff.mpr ?_
  have members := rereadMembers_eq_some_iff.mp h
  refine List.rel_filter (fun m m' first => ?_) members
  show p m.1 = true ↔ p m'.1 = true
  rw [first.1]

theorem rereadMembers_eq_self_iff_forall :
    rereadMembers ms = some ms ↔ ∀ m ∈ ms, reread m.2 = some m.2 := by
  rw [rereadMembers_eq_some_iff, List.forall₂_same]
  simp

end Members

/-! ### Data -/

mutual

/-- Data can stand in a text. -/
theorem isReadable_of_isData (j : Json) (h : j.isData = true) : j.isReadable = true := by
  match j with
  | .null | .bool _ | .string _ => rfl
  | .float _ => exact h
  | .single _ => cases h
  | .int i =>
    obtain ⟨low, high⟩ := Bool.and_eq_true_iff.mp h
    have low := of_decide_eq_true low
    have high := of_decide_eq_true high
    exact isReadable_int.mpr ⟨low, by omega⟩
  | .array items => exact areReadable_of_areData items h
  | .object members => exact haveReadable_of_haveData members (Bool.and_eq_true_iff.mp h).2

/-- `isReadable_of_isData` item by item. -/
theorem areReadable_of_areData (items : List Json) (h : areData items = true) :
    areReadable items = true := by
  match items with
  | [] => rfl
  | j :: rest =>
    obtain ⟨first, others⟩ := Bool.and_eq_true_iff.mp h
    exact Bool.and_eq_true_iff.mpr ⟨isReadable_of_isData j first, areReadable_of_areData rest others⟩

/-- `isReadable_of_isData` member by member. -/
theorem haveReadable_of_haveData (members : List (String × Json)) (h : haveData members = true) :
    haveReadable members = true := by
  match members with
  | [] => rfl
  | (_, j) :: rest =>
    obtain ⟨first, others⟩ := Bool.and_eq_true_iff.mp h
    exact Bool.and_eq_true_iff.mpr
      ⟨isReadable_of_isData j first, haveReadable_of_haveData rest others⟩

end

mutual

/-- **Data is read as data**, even if a floating-point number is missed. -/
theorem isData_of_reread {j j' : Json} (h : j.isData = true) (read : reread j = some j') :
    j'.isData = true := by
  match j with
  | .null =>
    cases read
    rfl
  | .bool b =>
    have keyword := (reread_eq_self_iff (.bool b) rfl).mpr (List.forall_mem_nil _)
    obtain rfl := Option.some.inj (keyword.symm.trans read)
    rfl
  | .int i =>
    obtain rfl := Option.some.inj ((reread_int (isReadable_of_isData _ h)).symm.trans read)
    exact h
  | .float x =>
    obtain ⟨y, rfl, finite⟩ := exists_float_of_word h read
    exact finite
  | .single _ => cases h
  | .string s =>
    cases read
    rfl
  | .array items =>
    obtain ⟨items', readItems, rfl⟩ := Option.map_eq_some_iff.mp read
    exact areData_of_reread h readItems
  | .object members =>
    obtain ⟨sorted, data⟩ := Bool.and_eq_true_iff.mp h
    obtain ⟨members', readMembers, rfl⟩ := Option.map_eq_some_iff.mp read
    have sorted := Value.sorted_iff_map_fst.mp (of_decide_eq_true sorted)
    rw [← map_fst_of_reread readMembers] at sorted
    exact Bool.and_eq_true_iff.mpr
      ⟨decide_eq_true (Value.sorted_iff_map_fst.mpr sorted), haveData_of_reread data readMembers⟩

/-- `isData_of_reread` item by item. -/
theorem areData_of_reread {items items' : List Json} (h : areData items = true)
    (read : rereadItems items = some items') : areData items' = true := by
  match items with
  | [] =>
    cases read
    rfl
  | j :: rest =>
    obtain ⟨first, others⟩ := Bool.and_eq_true_iff.mp h
    obtain ⟨j', readFirst, read⟩ := Option.bind_eq_some_iff.mp read
    obtain ⟨rest', readOthers, read⟩ := Option.bind_eq_some_iff.mp read
    cases read
    exact Bool.and_eq_true_iff.mpr
      ⟨isData_of_reread first readFirst, areData_of_reread others readOthers⟩

/-- `isData_of_reread` member by member. -/
theorem haveData_of_reread {members members' : List (String × Json)}
    (h : haveData members = true) (read : rereadMembers members = some members') :
    haveData members' = true := by
  match members with
  | [] =>
    cases read
    rfl
  | (name, j) :: rest =>
    obtain ⟨first, others⟩ := Bool.and_eq_true_iff.mp h
    obtain ⟨j', readFirst, read⟩ := Option.bind_eq_some_iff.mp read
    obtain ⟨rest', readOthers, read⟩ := Option.bind_eq_some_iff.mp read
    cases read
    exact Bool.and_eq_true_iff.mpr
      ⟨isData_of_reread first readFirst, haveData_of_reread others readOthers⟩

end

end Json

namespace Value

/-- **A value that is read back has the text of the tree it was read from.** -/
theorem toJson_of_reread {v : Value} (h : v.isData = true) {j : Json}
    (read : Json.reread v.toJson = some j) (same : ofJson j = v) : j = v.toJson := by
  have data := Json.isData_of_reread (isData_toJson v h) read
  rw [← same, toJson_ofJson j data]

end Value

end DocQuery
