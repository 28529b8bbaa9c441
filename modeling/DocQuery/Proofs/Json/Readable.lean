import DocQuery.Proofs.Numeric.Range
import DocQuery.Proofs.Value.Json

/-!
# Trees that are read from texts

A tree that was read from a text may hold integers that no value holds, and its members stand in the
order of the text. But its floating-point numbers are finite, since a number that is too large is
refused, and so the value it is decoded to can be written again.

* `Json.isReadable` – the trees that can stand in a text;
* `Json.Literal.isFinite_of_float?` – a floating-point number that is read is finite;
* `Json.isReadable_of_read?` – **what is read from a text can stand in a text**, by an invariant of
  either pass of the reader;
* `Value.isData_ofJson` – **what it decodes to can be written**.
-/

namespace DocQuery

/-! ### Numbers in texts -/

namespace Json.Literal

open Binary

/-- The powers of ten that numbers are scaled by are finite. -/
theorem powerOfTen_whole : ∀ n ≤ 308, 0 < (powerOfTen n).truncate?.getD 0 := by decide +kernel

theorem one_le_powerOfTen {n : Nat} (hn : n ≤ 308) :
    (powerOfTen n).isFinite = true ∧ 1 ≤ (powerOfTen n).magnitude :=
  one_le_magnitude (powerOfTen_whole n hn)

theorem absorb_lt {s : Nat} (hs : s < 2 ^ 64) (cs : List Char) : (absorb s cs).1 < 2 ^ 64 := by
  induction cs generalizing s with
  | nil => exact hs
  | cons c cs ih =>
    rw [absorb]
    split
    case isTrue h => exact ih h
    case isFalse => exact hs

theorem isFinite_of_scale? {negative : Bool} {s : Nat} {exponent : Int} {x : Double}
    (hs : s < 2 ^ 64) (h : scale? negative s exponent = some x) : x.isFinite = true := by
  have start := ofRatio_nat_le negative hs
  unfold scale? at h
  split at h
  · cases h
    exact start.1
  split at h
  · cases h
  split at h
  · dsimp only at h
    split at h
    case isTrue finite =>
      cases h
      exact finite
    case isFalse => cases h
  dsimp only at h
  split at h
  case isTrue hn =>
    cases h
    obtain ⟨finite, one⟩ := one_le_powerOfTen hn
    exact (div_le start.1 finite one (by decide) (by decide) start.2).1
  split at h
  case isTrue hn =>
    cases h
    obtain ⟨finite, one⟩ := one_le_powerOfTen (le_refl 308)
    have half := div_le start.1 finite one (by decide) (by decide) start.2
    obtain ⟨finite', one'⟩ := one_le_powerOfTen (n := (-exponent).toNat - 308) (by omega)
    exact (div_le half.1 finite' one' (by decide) (by decide) half.2).1
  case isFalse =>
    cases h
    cases negative <;> decide

/-- **A number that is read from a text is finite.** -/
theorem isFinite_of_float? {l : Literal} {x : Double} (h : l.float? = some x) :
    x.isFinite = true := by
  unfold float? at h
  exact isFinite_of_scale? (absorb_lt (absorb_lt (by decide) _) _) h

end Json.Literal


namespace Json

/-! ### Trees in texts -/

mutual

/-- The tree can stand in a text: its integers have 64 bits, signed or unsigned, and its
floating-point numbers are finite and of double precision. -/
def isReadable : Json → Bool
  | .int i => -(2 ^ 63) ≤ i && i < 2 ^ 64
  | .float x => x.isFinite
  | .single _ => false
  | .array items => areReadable items
  | .object members => haveReadable members
  | _ => true

/-- `isReadable` for every item. -/
def areReadable : List Json → Bool
  | [] => true
  | j :: rest => isReadable j && areReadable rest

/-- `isReadable` for the value of every member. -/
def haveReadable : List (String × Json) → Bool
  | [] => true
  | (_, j) :: rest => isReadable j && haveReadable rest

end

theorem isReadable_int {i : Int} :
    (Json.int i).isReadable = true ↔ -(2 ^ 63) ≤ i ∧ i < 2 ^ 64 := by
  simp [isReadable]

theorem areReadable_iff {items : List Json} :
    areReadable items = true ↔ ∀ j ∈ items, j.isReadable = true := by
  induction items with
  | nil => simp [areReadable]
  | cons j items ih => simp [areReadable, ih]

theorem haveReadable_iff {members : List (String × Json)} :
    haveReadable members = true ↔ ∀ m ∈ members, m.2.isReadable = true := by
  induction members with
  | nil => simp [haveReadable]
  | cons m members ih => simp [haveReadable, ih]

/-! ### Reading -/

theorem isReadable_of_literal {l : Literal} {j : Json} (h : l.value? = some j) :
    j.isReadable = true := by
  unfold Literal.value? at h
  dsimp only at h
  split at h
  case isTrue whole =>
    have small : digitsValue l.whole < 2 ^ 64 := by
      simp only [Bool.and_eq_true, decide_eq_true_eq] at whole
      exact whole.2
    split at h
    · cases h
      exact isReadable_int.mpr (by omega)
    split at h
    · cases h
      decide
    split at h
    · cases h
      exact isReadable_int.mpr (by omega)
    · cases h
      exact Binary.isFinite_ofRatio_nat true small
  case isFalse =>
    obtain ⟨x, read, rfl⟩ := Option.map_eq_some_iff.mp h
    exact Literal.isFinite_of_float? read

theorem isReadable_of_word {cs : List Char} {j : Json} (h : wordValue? cs = some j) :
    j.isReadable = true := by
  unfold wordValue? at h
  split at h
  · cases h
    rfl
  split at h
  · cases h
    rfl
  split at h
  · cases h
    rfl
  · obtain ⟨l, -, value⟩ := Option.bind_eq_some_iff.mp h
    exact isReadable_of_literal value

/-- The token is punctuation, or can stand in a text. -/
def Token.IsReadable (t : Token) : Prop := ∀ j, t = .scalar j → j.isReadable = true

namespace Scan

theorem readable_start? {c : Char} {s : Scan} {ts : List Token} (h : start? c = some (s, ts)) :
    ∀ t ∈ ts, t.IsReadable := by
  unfold start? at h
  split at h
  · cases h
    nofun
  split at h
  · cases h
    nofun
  split at h
  case h_1 t punctuation =>
    cases h
    rintro t (_ | ⟨_, ⟨⟩⟩)
    unfold punctuation? at punctuation
    split at punctuation <;> cases punctuation <;> nofun
  case h_2 =>
    cases h
    nofun

/-- What one character completes can stand in a text. -/
theorem readable_step? {s s' : Scan} {c : Char} {ts : List Token}
    (h : s.step? c = some (s', ts)) : ∀ t ∈ ts, t.IsReadable := by
  unfold step? at h
  split at h
  case h_1 => exact readable_start? h
  case h_2 =>
    split at h
    case isTrue =>
      obtain ⟨j, value, h⟩ := Option.bind_eq_some_iff.mp h
      obtain ⟨⟨_, us⟩, start, same⟩ := Option.map_eq_some_iff.mp h
      obtain ⟨-, rfl⟩ := Prod.mk.inj same
      rintro t (_ | ⟨_, ht⟩)
      · rintro _ ⟨⟩
        exact isReadable_of_word value
      · exact readable_start? start t ht
    case isFalse =>
      cases h
      nofun
  case h_3 =>
    split at h
    · cases h
      rintro t (_ | ⟨_, ⟨⟩⟩)
      rintro _ ⟨⟩
      rfl
    split at h
    · cases h
      nofun
    split at h
    · cases h
    · cases h
      nofun
  case h_4 =>
    split at h
    · cases h
      nofun
    · obtain ⟨d, -, same⟩ := Option.map_eq_some_iff.mp h
      cases same
      nofun
  case h_5 =>
    obtain ⟨d, -, h⟩ := Option.bind_eq_some_iff.mp h
    split at h
    · obtain ⟨s, -, same⟩ := Option.map_eq_some_iff.mp h
      cases same
      nofun
    · cases h
      nofun
  case h_6 =>
    split at h <;> cases h
    nofun
  case h_7 =>
    split at h <;> cases h
    nofun

theorem tokens?_cons (s : Scan) (c : Char) (cs : List Char) :
    tokens? s (c :: cs) = (step? s c).bind fun x => (tokens? x.1 cs).map (x.2 ++ ·) := by
  cases s <;> rfl

theorem readable_tokens? {s : Scan} {cs : List Char} {ts : List Token}
    (h : tokens? s cs = some ts) : ∀ t ∈ ts, t.IsReadable := by
  induction cs generalizing s ts with
  | nil =>
    unfold tokens? at h
    split at h
    case h_1 =>
      cases h
      nofun
    case h_2 =>
      obtain ⟨j, value, rfl⟩ := Option.map_eq_some_iff.mp h
      rintro t (_ | ⟨_, ⟨⟩⟩)
      rintro _ ⟨⟩
      exact isReadable_of_word value
    case h_3 => cases h
    case h_4 same => cases same
  | cons c cs ih =>
    rw [tokens?_cons] at h
    obtain ⟨⟨s', us⟩, step, rest⟩ := Option.bind_eq_some_iff.mp h
    obtain ⟨vs, tokens, rfl⟩ := Option.map_eq_some_iff.mp rest
    intro t ht
    rcases List.mem_append.mp ht with ht | ht
    · exact readable_step? step t ht
    · exact ih tokens t ht

end Scan

/-- The items or members that a container holds so far can stand in a text. -/
def Frame.IsReadable : Frame → Prop
  | .array items => areReadable items = true
  | .object members _ => haveReadable members = true

namespace Build

/-- The containers that are open can stand in a text, and so can the complete tree. -/
structure IsReadable (b : Build) : Prop where
  stack : ∀ frame ∈ b.stack, frame.IsReadable
  tree : ∀ j, b.expect = .nothing j → j.isReadable = true

variable {b b' : Build} {stack : List Frame} {t : Token} {j : Json}

theorem readable_complete (hj : j.isReadable = true) (h : ∀ frame ∈ stack, frame.IsReadable) :
    (complete j stack).IsReadable := by
  match stack, h with
  | [], _ =>
    refine ⟨nofun, ?_⟩
    rintro _ ⟨⟩
    exact hj
  | .array items :: rest, h =>
    obtain ⟨first, others⟩ := List.forall_mem_cons.mp h
    exact ⟨List.forall_mem_cons.mpr ⟨Bool.and_eq_true_iff.mpr ⟨hj, first⟩, others⟩, nofun⟩
  | .object members name :: rest, h =>
    obtain ⟨first, others⟩ := List.forall_mem_cons.mp h
    exact ⟨List.forall_mem_cons.mpr ⟨Bool.and_eq_true_iff.mpr ⟨hj, first⟩, others⟩, nofun⟩

/-- A container that holds nothing yet is opened. -/
theorem readable_push? {frame : Frame} {expect : Expect} (hframe : frame.IsReadable)
    (hexpect : ∀ j, expect ≠ .nothing j) (h : ∀ frame ∈ stack, frame.IsReadable)
    (push : push? frame expect stack = some b) : b.IsReadable := by
  unfold push? at push
  split at push
  · cases push
    exact ⟨List.forall_mem_cons.mpr ⟨hframe, h⟩, fun j same => absurd same (hexpect j)⟩
  · cases push

theorem readable_value? (ht : t.IsReadable) (h : ∀ frame ∈ stack, frame.IsReadable)
    (value : value? stack t = some b) : b.IsReadable := by
  unfold value? at value
  split at value
  case h_1 =>
    cases value
    exact readable_complete (ht _ rfl) h
  case h_2 =>
    have nothing : (Frame.array []).IsReadable := rfl
    exact readable_push? nothing (by rintro _ ⟨⟩) h value
  case h_3 =>
    have nothing : (Frame.object [] "").IsReadable := rfl
    exact readable_push? nothing (by rintro _ ⟨⟩) h value
  case h_4 => cases value

theorem readable_array {items : List Json} (h : areReadable items = true) :
    (Json.array items.reverse).isReadable = true :=
  areReadable_iff.mpr fun j hj => areReadable_iff.mp h j (List.mem_reverse.mp hj)

theorem readable_object {members : List (String × Json)} (h : haveReadable members = true) :
    (Json.object members.reverse).isReadable = true :=
  haveReadable_iff.mpr fun m hm => haveReadable_iff.mp h m (List.mem_reverse.mp hm)

/-- **What is built from a token that can stand in a text can stand in a text.** -/
theorem IsReadable.step? (h : b.IsReadable) (ht : t.IsReadable) (step : b.step? t = some b') :
    b'.IsReadable := by
  obtain ⟨stack, expect⟩ := b
  have frames := h.stack
  unfold Build.step? at step
  dsimp only at step frames
  split at step
  -- where a value may stand
  case h_1 => exact readable_value? ht frames step
  case h_3 => exact readable_value? ht frames step
  -- where a container ends
  case h_2 | h_10 =>
    cases step
    obtain ⟨first, others⟩ := List.forall_mem_cons.mp frames
    exact readable_complete (readable_array first) others
  case h_6 | h_11 =>
    cases step
    obtain ⟨first, others⟩ := List.forall_mem_cons.mp frames
    exact readable_complete (readable_object first) others
  -- the name of a member is none of its value
  case h_4 | h_5 =>
    cases step
    obtain ⟨first, others⟩ := List.forall_mem_cons.mp frames
    exact ⟨List.forall_mem_cons.mpr ⟨first, others⟩, nofun⟩
  -- elsewhere the containers are left as they are
  case h_7 | h_8 | h_9 =>
    cases step
    exact ⟨frames, nofun⟩
  case h_12 => cases step

theorem IsReadable.run? {ts : List Token} (h : b.IsReadable) (hts : ∀ t ∈ ts, t.IsReadable)
    (run : b.run? ts = some j) : j.isReadable = true := by
  induction ts generalizing b with
  | nil =>
    unfold Build.run? at run
    split at run
    case h_1 tree same =>
      cases run
      exact h.tree _ same
    case h_2 => cases run
  | cons t ts ih =>
    obtain ⟨first, others⟩ := List.forall_mem_cons.mp hts
    obtain ⟨next, step, rest⟩ := Option.bind_eq_some_iff.mp run
    exact ih (h.step? first step) others rest

end Build

/-- **What is read from a text can stand in a text.** -/
theorem isReadable_of_read? {text : String} {j : Json} (h : read? text = some j) :
    j.isReadable = true := by
  obtain ⟨ts, tokens, run⟩ := Option.bind_eq_some_iff.mp h
  have start : Build.IsReadable ⟨[], .value⟩ := ⟨List.forall_mem_nil _, fun _ => nofun⟩
  exact start.run? (Scan.readable_tokens? tokens) run

end Json

namespace Value

/-! ### Decoding -/

theorem isData_ofInt {i : Int} (low : -(2 ^ 63) ≤ i) (high : i < 2 ^ 64) :
    (ofInt i).isData = true := by
  unfold ofInt
  split
  · rfl
  · exact Binary.isFinite_ofRatio_nat _ (by omega)

mutual

/-- **What is read from a text is decoded to a value that can be written.** -/
theorem isData_ofJson (j : Json) (h : j.isReadable = true) : (ofJson j).isData = true := by
  cases j with
  | null => rfl
  | bool b => rfl
  | int i =>
    obtain ⟨low, high⟩ := Json.isReadable_int.mp h
    exact isData_ofInt low high
  | float x => exact h
  | single x => cases h
  | string s => rfl
  | array items => exact areData_ofJsonItems items h
  | object members =>
    refine Bool.and_eq_true_iff.mpr ⟨decide_eq_true (Record.sorted_ofList _), ?_⟩
    have decoded := haveData_iff.mp (haveData_ofJsonMembers members h)
    exact haveData_iff.mpr fun m hm => decoded m (Record.mem_of_mem_ofList hm)

/-- `isData_ofJson` item by item. -/
theorem areData_ofJsonItems (items : List Json) (h : Json.areReadable items = true) :
    areData (ofJsonItems items) = true := by
  cases items with
  | nil => rfl
  | cons j items =>
    obtain ⟨first, rest⟩ := Bool.and_eq_true_iff.mp h
    exact Bool.and_eq_true_iff.mpr ⟨isData_ofJson j first, areData_ofJsonItems items rest⟩

/-- `isData_ofJson` member by member. -/
theorem haveData_ofJsonMembers (members : List (String × Json))
    (h : Json.haveReadable members = true) : haveData (ofJsonMembers members) = true := by
  match members with
  | [] => rfl
  | (name, j) :: members =>
    obtain ⟨first, rest⟩ := Bool.and_eq_true_iff.mp h
    exact Bool.and_eq_true_iff.mpr ⟨isData_ofJson j first, haveData_ofJsonMembers members rest⟩

end

end Value

end DocQuery
