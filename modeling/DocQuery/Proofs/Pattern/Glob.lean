import DocQuery.Pattern.Glob
import Mathlib.Data.List.Forall2

/-!
# What globs match

A glob matches a text that can be cut into pieces, one for each item and in the order of the items.
The matcher never looks for the cuts: it keeps one Boolean for each tail of the text.

* `Glob.Item.Takes`, `Glob.Takes` – the declarative reading of an item and of a glob;
* `Glob.matchTails_cons` – the list of a text continues the list of its tail, from which the
  equations of `Glob.accepts` follow;
* `Glob.accepts_iff` – **the matcher accepts exactly the texts that can be cut**;
* `Glob.StandsFor`, `Glob.Describes` – the same reading for the characters of a pattern;
* `Glob.readFrom?_closed`, `Glob.readFrom?_unclosed`, `Glob.readFrom?_plain` – how a glob is read;
* `Glob.read?_eq_map` – where no bracket opens, every character is an item of its own, so that
  reading never fails.
-/

namespace DocQuery.Glob

/-- The pieces of text that an item stands for. -/
def Item.Takes : Item → List Char → Prop
  | .many, _ => True
  | .one, piece => ∃ c, piece = [c]
  | .set s, piece => ∃ c, s.contains c ∧ piece = [c]

/-- The text can be cut into pieces that the items stand for, in order. -/
def Takes (g : Glob) (text : List Char) : Prop :=
  ∃ pieces : List (List Char), List.Forall₂ Item.Takes g pieces ∧ pieces.flatten = text

variable {g : Glob} {item : Item} {text : List Char}

theorem takes_nil : Takes [] text ↔ text = [] := by
  simp [Takes, eq_comm]

/-- The first item takes the first piece. -/
theorem takes_cons : Takes (item :: g) text ↔
    ∃ piece rest, item.Takes piece ∧ Takes g rest ∧ text = piece ++ rest := by
  constructor
  · rintro ⟨_, cut, rfl⟩
    obtain ⟨piece, pieces, first, others, rfl⟩ := List.forall₂_cons_left_iff.mp cut
    exact ⟨piece, pieces.flatten, first, ⟨pieces, others, rfl⟩, List.flatten_cons⟩
  · rintro ⟨piece, _, first, ⟨pieces, others, rfl⟩, rfl⟩
    exact ⟨piece :: pieces, .cons first others, List.flatten_cons⟩

/-- An item other than the star takes single characters. -/
theorem Item.takes_iff (single : item ≠ .many) {piece : List Char} :
    item.Takes piece ↔ ∃ c, item.test c ∧ piece = [c] := by
  cases item with
  | many => exact absurd rfl single
  | one => simp [Takes, test]
  | set s => simp [Takes, test]

/-! ### Equations of the matcher -/

theorem matchTails_many (g : Glob) (text : List Char) :
    matchTails (.many :: g) text = orLater (matchTails g text) := rfl

theorem matchTails_single (single : item ≠ .many) (g : Glob) (text : List Char) :
    matchTails (item :: g) text =
      List.zipWith (fun c b => item.test c && b) text (matchTails g text).tail ++ [false] := by
  cases item with
  | many => exact absurd rfl single
  | one => rfl
  | set s => rfl

theorem length_orLater (bs : List Bool) : (orLater bs).length = bs.length := by
  induction bs with
  | nil => rfl
  | cons b bs ih => simp [orLater, ih]

/-- There is one entry for every tail of the text. -/
theorem length_matchTails (g : Glob) (text : List Char) :
    (matchTails g text).length = text.length + 1 := by
  induction g with
  | nil => simp [matchTails]
  | cons item g ih =>
    by_cases single : item = .many
    · rw [single, matchTails_many, length_orLater, ih]
    · simp [matchTails_single single, ih]

/-- The first entry is about the whole text. -/
theorem matchTails_eq_cons (g : Glob) (text : List Char) :
    matchTails g text = accepts g text :: (matchTails g text).tail := by
  cases entries : matchTails g text with
  | nil => simpa [entries] using length_matchTails g text
  | cons b bs => simp [accepts, entries]

/-- **The list of a text continues the list of its tail.** -/
theorem tail_matchTails_cons (g : Glob) (c : Char) (text : List Char) :
    (matchTails g (c :: text)).tail = matchTails g text := by
  induction g with
  | nil => rfl
  | cons item g ih =>
    by_cases single : item = .many
    · rw [single, matchTails_many, matchTails_many, matchTails_eq_cons g (c :: text), ih]
      rfl
    · rw [matchTails_single single, matchTails_single single, ih, matchTails_eq_cons g text]
      rfl

theorem matchTails_cons (g : Glob) (c : Char) (text : List Char) :
    matchTails g (c :: text) = accepts g (c :: text) :: matchTails g text := by
  rw [matchTails_eq_cons, tail_matchTails_cons]

theorem accepts_nil (text : List Char) : accepts [] text = text.isEmpty := by
  cases text <;> rfl

theorem accepts_many_nil (g : Glob) : accepts (.many :: g) [] = accepts g [] := by
  rw [accepts, matchTails_many, matchTails_eq_cons]
  have last : (matchTails g []).tail = [] := by
    rw [← List.length_eq_zero_iff, List.length_tail, length_matchTails, List.length_nil]
  simp [last, orLater]

/-- The piece of a star is empty or begins with the first character. -/
theorem accepts_many_cons (g : Glob) (c : Char) (text : List Char) :
    accepts (.many :: g) (c :: text) = (accepts g (c :: text) || accepts (.many :: g) text) := by
  rw [accepts, matchTails_many, matchTails_cons]
  rfl

theorem accepts_single_nil (single : item ≠ .many) (g : Glob) :
    accepts (item :: g) [] = false := by
  rw [accepts, matchTails_single single]
  rfl

theorem accepts_single_cons (single : item ≠ .many) (g : Glob) (c : Char) (text : List Char) :
    accepts (item :: g) (c :: text) = (item.test c && accepts g text) := by
  rw [accepts, matchTails_single single, tail_matchTails_cons, matchTails_eq_cons]
  rfl

/-! ### Correctness -/

/-- A star in front accepts what the rest accepts after some piece is passed over. -/
theorem accepts_many_iff (g : Glob) (text : List Char) :
    accepts (.many :: g) text ↔ ∃ piece rest, accepts g rest ∧ text = piece ++ rest := by
  induction text with
  | nil => simp [accepts_many_nil]
  | cons c text ih =>
    rw [accepts_many_cons, Bool.or_eq_true, ih]
    constructor
    · rintro (now | ⟨piece, rest, later, rfl⟩)
      · exact ⟨[], c :: text, now, rfl⟩
      · exact ⟨c :: piece, rest, later, rfl⟩
    · rintro ⟨_ | ⟨d, piece⟩, rest, accepted, cut⟩
      · exact .inl (cut ▸ accepted)
      · obtain ⟨rfl, rfl⟩ := List.cons.inj cut
        exact .inr ⟨piece, rest, accepted, rfl⟩

theorem accepts_single_iff (single : item ≠ .many) (g : Glob) (text : List Char) :
    accepts (item :: g) text ↔ ∃ c rest, item.test c ∧ accepts g rest ∧ text = c :: rest := by
  cases text with
  | nil => simp [accepts_single_nil single]
  | cons c text => simp [accepts_single_cons single]

/-- **The matcher accepts exactly the texts that can be cut** into pieces for the items. -/
theorem accepts_iff (g : Glob) (text : List Char) : accepts g text ↔ Takes g text := by
  induction g generalizing text with
  | nil => rw [takes_nil, accepts_nil, List.isEmpty_iff]
  | cons item g ih =>
    rw [takes_cons]
    by_cases single : item = .many
    · simp only [single, accepts_many_iff, ih, Item.Takes, true_and]
    · simp only [accepts_single_iff single, ih, Item.takes_iff single]
      constructor
      · rintro ⟨c, rest, first, others, rfl⟩
        exact ⟨[c], rest, ⟨c, first, rfl⟩, others, rfl⟩
      · rintro ⟨_, rest, ⟨c, first, rfl⟩, others, rfl⟩
        exact ⟨c, rest, first, others, rfl⟩

/-! ### Reading -/

section Reading

variable (ignoreCase : Bool) (fuel : Nat) {inner rest : List Char}

variable {ignoreCase} in
theorem ne_many_of_group? {item : Item} (read : group? ignoreCase inner = some item) :
    item ≠ .many := by
  unfold group? at read
  dsimp only at read
  split at read
  · cases read
    exact nofun
  · cases read

theorem forall_bne_of_not_mem (noClose : ']' ∉ inner) : ∀ c ∈ inner, (c != ']') = true := by
  intro c member
  simpa using fun h : c = ']' => noClose (h ▸ member)

/-- A bracket that is closed opens a group, unless it is closed at once. -/
theorem readFrom?_closed (noClose : ']' ∉ inner) (rest : List Char) :
    readFrom? ignoreCase (fuel + 1) ('[' :: (inner ++ ']' :: rest)) =
      if inner = [] then
        (readFrom? ignoreCase fuel rest).map (['[', ']'].map (literal ignoreCase) ++ ·)
      else do
        let item ← group? ignoreCase inner
        let items ← readFrom? ignoreCase fuel rest
        return item :: items := by
  have front : (inner ++ ']' :: rest).takeWhile (fun c => c != ']') = inner := by
    rw [List.takeWhile_append_of_pos (forall_bne_of_not_mem noClose)]
    simp
  rw [readFrom?, if_neg (by decide), if_neg (by decide), if_pos rfl]
  simp only [front, List.drop_left, List.isEmpty_iff]

/-- Behind a bracket that is not closed everything stands for itself. -/
theorem readFrom?_unclosed (noClose : ']' ∉ rest) :
    readFrom? ignoreCase (fuel + 1) ('[' :: rest) =
      some (('[' :: rest).map (literal ignoreCase)) := by
  have front : (rest ++ []).takeWhile (fun c => c != ']') = rest ++ [] :=
    List.takeWhile_append_of_pos (forall_bne_of_not_mem noClose)
  rw [List.append_nil] at front
  rw [readFrom?, if_neg (by decide), if_neg (by decide), if_pos rfl]
  simp only [front, List.drop_length]

end Reading

/-! ### Patterns without groups -/

/-- The pieces of text that a character of a pattern stands for. -/
def StandsFor (c : Char) (piece : List Char) : Prop :=
  if c = '*' then True else if c = '?' then ∃ d, piece = [d] else piece = [c]

/-- The text can be cut into consecutive pieces that the characters of the pattern stand for, in
order. -/
def Describes (pattern text : List Char) : Prop :=
  ∃ pieces : List (List Char), List.Forall₂ StandsFor pattern pieces ∧ pieces.flatten = text

/-- The item of a character that opens no group. -/
def Item.ofChar (ignoreCase : Bool) (c : Char) : Item :=
  if c = '*' then .many else if c = '?' then .one else literal ignoreCase c

theorem readFrom?_plain (ignoreCase : Bool) (fuel : Nat) {c : Char} (plain : c ≠ '[')
    (rest : List Char) :
    readFrom? ignoreCase (fuel + 1) (c :: rest) =
      (readFrom? ignoreCase fuel rest).map (Item.ofChar ignoreCase c :: ·) := by
  rw [readFrom?, Item.ofChar, if_neg plain]
  split_ifs <;> rfl

/-- **A pattern in which no bracket opens is read character by character.** -/
theorem read?_eq_map (ignoreCase : Bool) {cs : List Char} (plain : '[' ∉ cs) :
    read? ignoreCase cs = some (cs.map (Item.ofChar ignoreCase)) := by
  have enough (fuel : Nat) (room : cs.length < fuel) :
      readFrom? ignoreCase fuel cs = some (cs.map (Item.ofChar ignoreCase)) := by
    induction cs generalizing fuel with
    | nil =>
      obtain ⟨fuel, rfl⟩ := Nat.exists_eq_succ_of_ne_zero (Nat.ne_of_gt room)
      rfl
    | cons c cs ih =>
      obtain ⟨fuel, rfl⟩ := Nat.exists_eq_succ_of_ne_zero (Nat.ne_of_gt (Nat.zero_lt_of_lt room))
      obtain ⟨notOpen, plain⟩ := not_or.mp (List.mem_cons.not.mp plain)
      have others := ih plain fuel (Nat.lt_of_succ_lt_succ room)
      simp only [readFrom?, others, if_neg (Ne.symm notOpen), Option.map_some, List.map_cons,
        Item.ofChar]
      split_ifs <;> rfl
  exact enough _ (Nat.lt_succ_self _)

theorem test_literal {c d : Char} : (literal false c).test d ↔ d = c := by
  simp only [Item.test, literal, CharSet.foldIf, CharSet.single, CharSet.contains,
    Bool.false_eq_true, if_false, Bool.and_eq_true, decide_eq_true_eq]
  exact ⟨fun within => Char.le_antisymm within.2 within.1,
    fun same => same ▸ ⟨Char.le_refl d, Char.le_refl d⟩⟩

theorem Item.takes_ofChar (c : Char) (piece : List Char) :
    (ofChar false c).Takes piece ↔ StandsFor c piece := by
  unfold ofChar StandsFor
  split_ifs with star mark
  · rfl
  · rfl
  · have single : literal false c ≠ .many := nofun
    simp [takes_iff single, test_literal]

/-- **The glob of such a pattern accepts what the pattern describes.** -/
theorem accepts_ofChar_iff (pattern text : List Char) :
    accepts (pattern.map (Item.ofChar false)) text ↔ Describes pattern text := by
  simp only [accepts_iff, Takes, Describes, List.forall₂_map_left_iff, Item.takes_ofChar]

end DocQuery.Glob
