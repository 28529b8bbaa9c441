import DocQuery.Proofs.Value.Order

/-!
# The equality of values

Structural equality compares floating-point numbers by value, so that it is no equality of values:
the two zeros are the same, and not-a-number is not the same as itself. What is left of the laws of
an equality is that it holds in both directions and can be chained.

* `Binary.numEq_comm`, `Binary.numEq_trans` – for numbers;
* `Value.same_comm`, `Value.same_trans` – for values.
-/

namespace DocQuery

namespace Binary

variable {f : Format} {a b c : Binary f}

theorem numEq_iff :
    a.numEq b = true ↔ a.isNaN = false ∧ b.isNaN = false ∧ a.units = b.units := by
  rw [numEq, beq_iff_eq, compare?_eq_some_iff, Std.compare_eq_iff_eq]

theorem numEq_comm (a b : Binary f) : a.numEq b = b.numEq a := by
  rw [Bool.eq_iff_iff, numEq_iff, numEq_iff]
  constructor
  · rintro ⟨ha, hb, h⟩
    exact ⟨hb, ha, h.symm⟩
  · rintro ⟨hb, ha, h⟩
    exact ⟨ha, hb, h.symm⟩

theorem numEq_trans (h : a.numEq b = true) (h' : b.numEq c = true) : a.numEq c = true := by
  obtain ⟨ha, -, hab⟩ := numEq_iff.mp h
  obtain ⟨-, hc, hbc⟩ := numEq_iff.mp h'
  exact numEq_iff.mpr ⟨ha, hc, hab.trans hbc⟩

end Binary

namespace Value

mutual

theorem same_comm (a b : Value) : same a b = same b a := by
  -- values of different types are on neither side the same
  cases a <;> cases b <;> try rfl
  case bool.bool b c => exact Bool.beq_comm
  case int.int i j => exact Bool.beq_comm
  case float.float x y => exact Binary.numEq_comm x y
  case string.string s t => exact Bool.beq_comm
  case array.array as bs => exact sameItems_comm as bs
  case object.object as bs => exact sameMembers_comm as bs

/-- `same_comm` item by item. -/
theorem sameItems_comm (as bs : List Value) : sameItems as bs = sameItems bs as := by
  cases as with
  | nil => cases bs <;> rfl
  | cons a as =>
    cases bs with
    | nil => rfl
    | cons b bs => rw [sameItems, sameItems, same_comm a b, sameItems_comm as bs]

/-- `same_comm` member by member. -/
theorem sameMembers_comm (as bs : List (String × Value)) : sameMembers as bs = sameMembers bs as := by
  match as, bs with
  | [], [] => rfl
  | [], _ :: _ => rfl
  | _ :: _, [] => rfl
  | (n, a) :: as, (m, b) :: bs =>
    rw [sameMembers, sameMembers, same_comm a b, sameMembers_comm as bs, Bool.beq_comm (a := n)]

end

mutual

theorem same_trans (a b c : Value) (h : same a b = true) (h' : same b c = true) :
    same a c = true := by
  -- only values of one type are the same
  cases a with
  | null =>
    cases b <;> cases h
    exact h'
  | bool x =>
    cases b <;> try cases h
    case bool y =>
      obtain rfl : x = y := eq_of_beq h
      exact h'
  | int i =>
    cases b <;> try cases h
    case int j =>
      obtain rfl : i = j := eq_of_beq h
      exact h'
  | float x =>
    cases b <;> try cases h
    case float y =>
      cases c <;> try cases h'
      case float z => exact Binary.numEq_trans h h'
  | string s =>
    cases b <;> try cases h
    case string t =>
      obtain rfl : s = t := eq_of_beq h
      exact h'
  | array as =>
    cases b <;> try cases h
    case array bs =>
      cases c <;> try cases h'
      case array cs => exact sameItems_trans as bs cs h h'
  | object as =>
    cases b <;> try cases h
    case object bs =>
      cases c <;> try cases h'
      case object cs => exact sameMembers_trans as bs cs h h'

/-- `same_trans` item by item. -/
theorem sameItems_trans (as bs cs : List Value) (h : sameItems as bs = true)
    (h' : sameItems bs cs = true) : sameItems as cs = true := by
  match as, bs, cs with
  | [], [], [] => rfl
  | a :: as, b :: bs, c :: cs =>
    obtain ⟨head, rest⟩ := Bool.and_eq_true_iff.mp h
    obtain ⟨head', rest'⟩ := Bool.and_eq_true_iff.mp h'
    exact Bool.and_eq_true_iff.mpr
      ⟨same_trans a b c head head', sameItems_trans as bs cs rest rest'⟩

/-- `same_trans` member by member. -/
theorem sameMembers_trans (as bs cs : List (String × Value)) (h : sameMembers as bs = true)
    (h' : sameMembers bs cs = true) : sameMembers as cs = true := by
  match as, bs, cs with
  | [], [], [] => rfl
  | (n, a) :: as, (m, b) :: bs, (l, c) :: cs =>
    simp only [sameMembers, Bool.and_eq_true, beq_iff_eq] at h h' ⊢
    obtain ⟨⟨name, head⟩, rest⟩ := h
    obtain ⟨⟨name', head'⟩, rest'⟩ := h'
    exact ⟨⟨name.trans name', same_trans a b c head head'⟩, sameMembers_trans as bs cs rest rest'⟩

end

end Value

end DocQuery
