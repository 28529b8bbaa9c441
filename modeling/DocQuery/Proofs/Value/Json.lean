import DocQuery.Proofs.Record
import DocQuery.Value.Basic

/-!
# Values as JSON trees, and back

Not every tree is a value as it stands: decoding puts the members of an object in order and rounds an
integer that needs more than 64 bits. Nor is every value a tree, since JSON has no infinities and no
not-a-number. Apart from this, trees and values are the same thing.

* `Json.isData`, `Value.isData` – the trees and the values that stand for each other;
  `Value.isOrdered` – all values, those that are not finite among them;
* `Value.ofJson_toJson`, `Value.toJson_ofJson` – **coding loses nothing in either direction**;
* `Value.toJson_inj` – different values have different trees, in whatever order their members stand.
-/

namespace DocQuery

/-! ### Data -/

namespace Json

mutual

/-- The tree stands for a value as it is: its integers have 64 bits, its floating-point numbers are
finite and of double precision, and the members of its objects stand in order. -/
def isData : Json → Bool
  | .int i => -(2 ^ 63) ≤ i && i < 2 ^ 63
  | .float x => x.isFinite
  | .single _ => false
  | .array items => areData items
  | .object members => decide (Record.Sorted members) && haveData members
  | _ => true

/-- `isData` for every item. -/
def areData : List Json → Bool
  | [] => true
  | j :: rest => isData j && areData rest

/-- `isData` for the value of every member. -/
def haveData : List (String × Json) → Bool
  | [] => true
  | (_, j) :: rest => isData j && haveData rest

end

theorem areData_iff {items : List Json} : areData items = true ↔ ∀ j ∈ items, j.isData = true := by
  induction items with
  | nil => simp [areData]
  | cons j items ih => simp [areData, ih]

theorem haveData_iff {members : List (String × Json)} :
    haveData members = true ↔ ∀ m ∈ members, m.2.isData = true := by
  induction members with
  | nil => simp [haveData]
  | cons m members ih => simp [haveData, ih]

end Json

namespace Value

mutual

/-- The value can be written as JSON: its floating-point numbers are finite, and the members of its
objects stand in order, as they do in every value that was decoded. -/
def isData : Value → Bool
  | .float x => x.isFinite
  | .array items => areData items
  | .object members => decide (Record.Sorted members) && haveData members
  | _ => true

/-- `isData` for every item. -/
def areData : List Value → Bool
  | [] => true
  | v :: rest => isData v && areData rest

/-- `isData` for the value of every member. -/
def haveData : List (String × Value) → Bool
  | [] => true
  | (_, v) :: rest => isData v && haveData rest

end

mutual

/-- The members of its objects stand in order. Its floating-point numbers may be anything. -/
def isOrdered : Value → Bool
  | .array items => areOrdered items
  | .object members => decide (Record.Sorted members) && haveOrdered members
  | _ => true

/-- `isOrdered` for every item. -/
def areOrdered : List Value → Bool
  | [] => true
  | v :: rest => isOrdered v && areOrdered rest

/-- `isOrdered` for the value of every member. -/
def haveOrdered : List (String × Value) → Bool
  | [] => true
  | (_, v) :: rest => isOrdered v && haveOrdered rest

end

mutual

theorem isOrdered_of_isData (v : Value) (h : v.isData = true) : v.isOrdered = true := by
  cases v with
  | array items => exact areOrdered_of_areData items h
  | object members =>
    obtain ⟨hsorted, hdata⟩ := Bool.and_eq_true_iff.mp h
    exact Bool.and_eq_true_iff.mpr ⟨hsorted, haveOrdered_of_haveData members hdata⟩
  | _ => rfl

/-- `isOrdered_of_isData` item by item. -/
theorem areOrdered_of_areData (items : List Value) (h : areData items = true) :
    areOrdered items = true := by
  cases items with
  | nil => rfl
  | cons v items =>
    obtain ⟨hv, hrest⟩ := Bool.and_eq_true_iff.mp h
    exact Bool.and_eq_true_iff.mpr ⟨isOrdered_of_isData v hv, areOrdered_of_areData items hrest⟩

/-- `isOrdered_of_isData` member by member. -/
theorem haveOrdered_of_haveData (members : List (String × Value)) (h : haveData members = true) :
    haveOrdered members = true := by
  match members with
  | [] => rfl
  | (name, v) :: members =>
    obtain ⟨hv, hrest⟩ := Bool.and_eq_true_iff.mp h
    exact Bool.and_eq_true_iff.mpr
      ⟨isOrdered_of_isData v hv, haveOrdered_of_haveData members hrest⟩

end

theorem areData_iff {items : List Value} :
    areData items = true ↔ ∀ v ∈ items, v.isData = true := by
  induction items with
  | nil => simp [areData]
  | cons v items ih => simp [areData, ih]

theorem haveData_iff {members : List (String × Value)} :
    haveData members = true ↔ ∀ m ∈ members, m.2.isData = true := by
  induction members with
  | nil => simp [haveData]
  | cons m members ih => simp [haveData, ih]

/-! ### The names of members -/

theorem map_fst_ofJsonMembers (members : List (String × Json)) :
    (ofJsonMembers members).map Prod.fst = members.map Prod.fst := by
  induction members with
  | nil => rfl
  | cons m members ih => exact congrArg (m.1 :: ·) ih

/-- Order is a matter of the names alone. -/
theorem sorted_iff_map_fst {α : Type} {r : Record α} :
    r.Sorted ↔ (r.map Prod.fst).Pairwise (· < ·) :=
  List.pairwise_map.symm

theorem sorted_ofJsonMembers {members : List (String × Json)} :
    Record.Sorted (ofJsonMembers members) ↔ Record.Sorted members := by
  rw [sorted_iff_map_fst, map_fst_ofJsonMembers, sorted_iff_map_fst]

/-! ### Coding and decoding -/

/-- An integer of 64 bits is kept. -/
theorem ofInt_toInt (i : Int64) : ofInt i.toInt = .int i := by
  rw [ofInt, if_pos ⟨i.le_toInt, i.toInt_lt⟩, Int64.ofInt_toInt]

mutual

/-- **A value is what its tree decodes to.** -/
theorem ofJson_toJson (v : Value) (h : v.isData = true) : ofJson v.toJson = v := by
  cases v with
  | null => rfl
  | bool b => rfl
  | int i => exact ofInt_toInt i
  | float x =>
    have hfinite : x.isFinite = true := h
    rw [toJson, if_pos hfinite]
    rfl
  | string s => rfl
  | array items => exact congrArg array (ofJsonItems_toJsonItems items h)
  | object members =>
    obtain ⟨hsorted, hdata⟩ := Bool.and_eq_true_iff.mp h
    rw [toJson, ofJson, ofJsonMembers_toJsonMembers members hdata,
      Record.ofList_of_sorted (of_decide_eq_true hsorted)]

/-- `ofJson_toJson` item by item. -/
theorem ofJsonItems_toJsonItems (items : List Value) (h : areData items = true) :
    ofJsonItems (toJsonItems items) = items := by
  cases items with
  | nil => rfl
  | cons v items =>
    obtain ⟨hv, hrest⟩ := Bool.and_eq_true_iff.mp h
    rw [toJsonItems, ofJsonItems, ofJson_toJson v hv, ofJsonItems_toJsonItems items hrest]

/-- `ofJson_toJson` member by member. -/
theorem ofJsonMembers_toJsonMembers (members : List (String × Value)) (h : haveData members = true) :
    ofJsonMembers (toJsonMembers members) = members := by
  match members with
  | [] => rfl
  | (name, v) :: members =>
    obtain ⟨hv, hrest⟩ := Bool.and_eq_true_iff.mp h
    rw [toJsonMembers, ofJsonMembers, ofJson_toJson v hv,
      ofJsonMembers_toJsonMembers members hrest]

end

mutual

/-- **A tree is what the value it decodes to is encoded as.** -/
theorem toJson_ofJson (j : Json) (h : j.isData = true) : toJson (ofJson j) = j := by
  cases j with
  | null => rfl
  | bool b => rfl
  | int i =>
    obtain ⟨hlow, hhigh⟩ := Bool.and_eq_true_iff.mp h
    have hlow := of_decide_eq_true hlow
    have hhigh := of_decide_eq_true hhigh
    rw [ofJson, ofInt, if_pos ⟨hlow, hhigh⟩, toJson, Int64.toInt_ofInt_of_le hlow hhigh]
  | float x =>
    have hfinite : x.isFinite = true := h
    rw [ofJson, toJson, if_pos hfinite]
  | single x => cases h
  | string s => rfl
  | array items => exact congrArg Json.array (toJsonItems_ofJsonItems items h)
  | object members =>
    obtain ⟨hsorted, hdata⟩ := Bool.and_eq_true_iff.mp h
    rw [ofJson, Record.ofList_of_sorted (sorted_ofJsonMembers.mpr (of_decide_eq_true hsorted)),
      toJson, toJsonMembers_ofJsonMembers members hdata]

/-- `toJson_ofJson` item by item. -/
theorem toJsonItems_ofJsonItems (items : List Json) (h : Json.areData items = true) :
    toJsonItems (ofJsonItems items) = items := by
  cases items with
  | nil => rfl
  | cons j items =>
    obtain ⟨hj, hrest⟩ := Bool.and_eq_true_iff.mp h
    rw [ofJsonItems, toJsonItems, toJson_ofJson j hj, toJsonItems_ofJsonItems items hrest]

/-- `toJson_ofJson` member by member. -/
theorem toJsonMembers_ofJsonMembers (members : List (String × Json))
    (h : Json.haveData members = true) : toJsonMembers (ofJsonMembers members) = members := by
  match members with
  | [] => rfl
  | (name, j) :: members =>
    obtain ⟨hj, hrest⟩ := Bool.and_eq_true_iff.mp h
    rw [ofJsonMembers, toJsonMembers, toJson_ofJson j hj,
      toJsonMembers_ofJsonMembers members hrest]

end

theorem map_fst_toJsonMembers (members : List (String × Value)) :
    (toJsonMembers members).map Prod.fst = members.map Prod.fst := by
  induction members with
  | nil => rfl
  | cons m members ih => exact congrArg (m.1 :: ·) ih

mutual

/-- A value is written as data, what is not finite as null. -/
theorem isData_toJson_of_isOrdered (v : Value) (h : v.isOrdered = true) :
    v.toJson.isData = true := by
  cases v with
  | null => rfl
  | bool b => rfl
  | int i =>
    exact Bool.and_eq_true_iff.mpr ⟨decide_eq_true i.le_toInt, decide_eq_true i.toInt_lt⟩
  | float x =>
    rw [toJson]
    split
    case isTrue hfinite => exact hfinite
    case isFalse => rfl
  | string s => rfl
  | array items => exact areData_toJsonItems items h
  | object members =>
    obtain ⟨hsorted, hordered⟩ := Bool.and_eq_true_iff.mp h
    have hsorted := sorted_iff_map_fst.mp (of_decide_eq_true hsorted)
    rw [← map_fst_toJsonMembers] at hsorted
    exact Bool.and_eq_true_iff.mpr ⟨decide_eq_true (sorted_iff_map_fst.mpr hsorted),
      haveData_toJsonMembers members hordered⟩

/-- `isData_toJson_of_isOrdered` item by item. -/
theorem areData_toJsonItems (items : List Value) (h : areOrdered items = true) :
    Json.areData (toJsonItems items) = true := by
  cases items with
  | nil => rfl
  | cons v items =>
    obtain ⟨hv, hrest⟩ := Bool.and_eq_true_iff.mp h
    exact Bool.and_eq_true_iff.mpr
      ⟨isData_toJson_of_isOrdered v hv, areData_toJsonItems items hrest⟩

/-- `isData_toJson_of_isOrdered` member by member. -/
theorem haveData_toJsonMembers (members : List (String × Value)) (h : haveOrdered members = true) :
    Json.haveData (toJsonMembers members) = true := by
  match members with
  | [] => rfl
  | (name, v) :: members =>
    obtain ⟨hv, hrest⟩ := Bool.and_eq_true_iff.mp h
    exact Bool.and_eq_true_iff.mpr
      ⟨isData_toJson_of_isOrdered v hv, haveData_toJsonMembers members hrest⟩

end

/-- A value that can be written is written as data. -/
theorem isData_toJson (v : Value) (h : v.isData = true) : v.toJson.isData = true :=
  isData_toJson_of_isOrdered v (isOrdered_of_isData v h)

/-- **Different values have different trees.** -/
theorem toJson_inj {v w : Value} (hv : v.isData = true) (hw : w.isData = true)
    (h : v.toJson = w.toJson) : v = w := by
  rw [← ofJson_toJson v hv, h, ofJson_toJson w hw]

end Value

end DocQuery
