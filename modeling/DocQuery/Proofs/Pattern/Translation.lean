import DocQuery.Proofs.Pattern.Glob
import DocQuery.Proofs.Pattern.Regex
import DocQuery.Store.Predicate

/-!
# Globs as regular expressions

A glob can be written as a regular expression that is tied to both ends of the text: a dot for each
question mark, a repeated dot for each star, and every other character for itself, behind a
backslash where expressions give it a meaning of its own. The expression matches what the glob
accepts, and is what the reader makes of its text.

* `Glob.regex` – the expression of a glob;
* `Glob.isMatch_regex` – **it matches exactly the texts that the glob accepts**;
* `Glob.translate` – the text of the expression, for patterns without groups;
* `Pattern.Reads` – what is read of a text, however many steps are allowed;
* `Glob.read?_translate` – **reading the text gives the expression of the glob**;
* `Glob.plain_glob_iff_describes` – what a pattern without groups means, as a glob and as an
  expression.
-/

namespace DocQuery.Glob

/-- The expression of an item. -/
def Item.regex : Item → Regex
  | .many => .times (.set .all) 0 none
  | .one => .set .all
  | .set s => .set s

/-- The expressions of items, up to the end of the text. -/
def upToEnd (g : Glob) : Regex := g.foldr (fun item r => .seq item.regex r) (.anchor .textEnd)

/-- The expression of a glob. -/
def regex (g : Glob) : Regex := .seq (.anchor .textStart) (upToEnd g)

/-! ### Matching

Positions are given by what lies in front of them. -/

section Matching

variable {front text : List Char} {s : CharSet} {q : Nat}

open Regex (Spans Iterated)

theorem spans_set : Spans (front ++ text).toArray (.set s) front.length q ↔
    ∃ c rest, text = c :: rest ∧ s.contains c ∧ q = front.length + 1 := by
  cases text <;> simp [Spans]

/-- Dots go on one character at a time, as far as the text goes. -/
theorem iterated_all {n : Nat} :
    Iterated (Spans (front ++ text).toArray (.set .all)) n front.length q ↔
      n ≤ text.length ∧ q = front.length + n := by
  induction n generalizing front text with
  | zero => simp [Iterated]
  | succ n ih =>
    simp only [Iterated, spans_set]
    constructor
    · rintro ⟨_, ⟨c, rest, rfl, -, rfl⟩, others⟩
      have others : Iterated (Spans ((front ++ [c]) ++ rest).toArray (.set .all)) n
          (front ++ [c]).length q := by simpa using others
      obtain ⟨few, rfl⟩ := ih.mp others
      exact ⟨Nat.succ_le_succ few, by simp; omega⟩
    · rintro ⟨few, rfl⟩
      obtain ⟨c, rest, rfl⟩ := List.exists_cons_of_length_pos (Nat.zero_lt_of_lt few)
      have others : Iterated (Spans ((front ++ [c]) ++ rest).toArray (.set .all)) n
          (front ++ [c]).length (front.length + (n + 1)) :=
        ih.mpr ⟨Nat.le_of_succ_le_succ few, by simp; omega⟩
      exact ⟨front.length + 1, ⟨c, rest, rfl, rfl, rfl⟩, by simpa using others⟩

/-- The expression of an item that takes single characters is the set of these. -/
theorem Item.regex_of_single {item : Item} (single : item ≠ .many) :
    ∃ s, item.regex = .set s ∧ ∀ c, s.contains c = item.test c := by
  cases item with
  | many => exact absurd rfl single
  | one => exact ⟨.all, rfl, fun _ => rfl⟩
  | set s => exact ⟨s, rfl, fun _ => rfl⟩

/-- The expression of an item matches the pieces that the item takes. -/
theorem spans_item {item : Item} :
    Spans (front ++ text).toArray item.regex front.length q ↔
      ∃ piece rest, item.Takes piece ∧ text = piece ++ rest ∧ q = (front ++ piece).length := by
  by_cases single : item = .many
  · have repeated : Item.many.regex = .rep (.set .all) 0 none := rfl
    simp only [single, repeated, Regex.spans_rep, iterated_all, Item.Takes]
    constructor
    · rintro ⟨n, -, -, few, rfl⟩
      exact ⟨text.take n, text.drop n, trivial, (List.take_append_drop n text).symm,
        by simp [few]⟩
    · rintro ⟨piece, rest, -, rfl, rfl⟩
      exact ⟨piece.length, Nat.zero_le _, by simp, by simp, List.length_append⟩
  · obtain ⟨s, form, members⟩ := Item.regex_of_single single
    rw [form, spans_set]
    simp only [members, Item.takes_iff single]
    constructor
    · rintro ⟨c, rest, rfl, within, rfl⟩
      exact ⟨[c], rest, ⟨c, within, rfl⟩, rfl, by simp⟩
    · rintro ⟨_, rest, ⟨c, within, rfl⟩, rfl, rfl⟩
      exact ⟨c, rest, rfl, within, List.length_append⟩

/-- Items up to the end match all of the text behind a position or nothing. -/
theorem spans_upToEnd (g : Glob) :
    Spans (front ++ text).toArray (upToEnd g) front.length q ↔
      Takes g text ∧ q = front.length + text.length := by
  induction g generalizing front text with
  | nil =>
    rw [takes_nil]
    cases text <;> simp [upToEnd, Spans, Anchor.holds]
  | cons item g ih =>
    have first : upToEnd (item :: g) = .seq item.regex (upToEnd g) := rfl
    have behind (piece rest : List Char) :
        Spans (front ++ (piece ++ rest)).toArray (upToEnd g) (front ++ piece).length q ↔
          Takes g rest ∧ q = front.length + (piece ++ rest).length := by
      rw [← List.append_assoc, ih]
      simp [Nat.add_assoc]
    rw [first, Regex.spans_seq, takes_cons]
    simp only [spans_item]
    constructor
    · rintro ⟨_, ⟨piece, rest, taken, rfl, rfl⟩, others⟩
      obtain ⟨left, rfl⟩ := (behind piece rest).mp others
      exact ⟨⟨piece, rest, taken, left, rfl⟩, rfl⟩
    · rintro ⟨⟨piece, rest, taken, others, rfl⟩, rfl⟩
      exact ⟨_, ⟨piece, rest, taken, rfl, rfl⟩, (behind piece rest).mpr ⟨others, rfl⟩⟩

/-- **The expression of a glob matches exactly the texts that the glob accepts.** -/
theorem isMatch_regex (g : Glob) (text : List Char) : g.regex.isMatch text = g.accepts text := by
  have atStart : ∀ q, Spans text.toArray (upToEnd g) 0 q ↔ Takes g text ∧ q = text.length := by
    intro q
    simpa using @spans_upToEnd [] text q g
  rw [Bool.eq_iff_iff, Regex.isMatch_iff, accepts_iff]
  constructor
  · rintro ⟨p, within, q, m, ⟨start, rfl⟩, others⟩
    -- The character in front of any other position is there, so that the anchor holds only at 0.
    have : m = 0 := by
      by_contra later
      have inside : m - 1 < text.length := by omega
      simp [Anchor.holds, Regex.before, later, inside] at start
    exact ((atStart q).mp (this ▸ others)).1
  · intro taken
    exact ⟨0, Nat.zero_le _, text.length, 0, ⟨rfl, rfl⟩, (atStart _).mpr ⟨taken, rfl⟩⟩

end Matching

end DocQuery.Glob

/-! ### Reading expressions -/

namespace DocQuery.Pattern

variable {r next final : Reader} {c : Char} {cs rest : List Char}

/-- A pattern is read to its end, in any number of steps beyond its length. -/
def Reads (r : Reader) (cs : List Char) (final : Reader) : Prop :=
  ∀ fuel, cs.length < fuel → run? fuel r cs = some final

theorem Reads.nil (quiet : r.flags.verbose = false) : Reads r [] r := by
  intro fuel room
  obtain ⟨fuel, rfl⟩ := Nat.exists_eq_succ_of_ne_zero (Nat.ne_of_gt room)
  simp [run?, skip, quiet]

/-- One item is read, and then the rest. -/
theorem Reads.step (quiet : r.flags.verbose = false) (read : step? r c cs = some (next, rest))
    (shorter : rest.length ≤ cs.length) (others : Reads next rest final) :
    Reads r (c :: cs) final := by
  intro fuel room
  obtain ⟨fuel, rfl⟩ := Nat.exists_eq_succ_of_ne_zero (Nat.ne_of_gt (Nat.zero_lt_of_lt room))
  have room : rest.length < fuel :=
    Nat.lt_of_le_of_lt shorter (Nat.lt_of_succ_lt_succ room)
  simp [run?, skip, quiet, read, others fuel room]

/-- A character with a meaning of its own stands for itself behind a backslash. -/
theorem readEscape?_of_isMeta (fs : Flags) (special : isMeta c) :
    readEscape? fs (c :: cs) = some (.char c false, cs) := by
  have escapable : isEscapable c := by simp [isEscapable, special]
  have unused : ("\\.+*?()|[]\x7b\x7d^$#&-~".toList.all fun c =>
      !(c.isDigit || "xuUpPdDsSwW".toList.contains c)) = true := by decide
  have : c.isDigit = false ∧ c ∉ ['x', 'u', 'U', 'p', 'P', 'd', 'D', 's', 'S', 'w', 'W'] := by
    simpa using List.all_eq_true.mp unused c (List.contains_iff_mem.mp special)
  obtain ⟨noDigit, noLetter⟩ := this
  simp only [List.mem_cons, List.not_mem_nil, or_false, not_or] at noLetter
  simp [readEscape?, escapable, noDigit, noLetter]

theorem step?_backslash (r : Reader) (special : isMeta c) :
    step? r '\\' (c :: cs) = (charRegex? r.flags c false).map fun e => (r.leaf e, cs) := by
  simp only [step?, readEscape?_of_isMeta _ special]
  show (charRegex? r.flags c false >>= fun e => some (r.leaf e, cs)) = _
  cases charRegex? r.flags c false <;> rfl

/-- Any other character stands for itself. -/
theorem step?_of_not_isMeta (r : Reader) (plain : ¬isMeta c) :
    step? r c cs = (charRegex? r.flags c false).map fun e => (r.leaf e, cs) := by
  unfold step?
  split
  case h_13 => rfl
  all_goals exact absurd (by decide) plain

/-- A sequence is nested as deeply as its items. -/
theorem foldl_depth_le {n k : Nat} {es : List (Regex × Nat)} (low : n ≤ k)
    (each : ∀ e ∈ es, e.2 ≤ k) : es.foldl (fun n e => max n e.2) n ≤ k := by
  induction es generalizing n with
  | nil => exact low
  | cons e es ih =>
    obtain ⟨first, others⟩ := List.forall_mem_cons.mp each
    exact ih (max_le low first) others

end DocQuery.Pattern

namespace DocQuery.Glob

/-! ### The text of the expression -/

/-- The text of a character that stands for itself. -/
def escape (c : Char) : List Char := if Pattern.isMeta c then ['\\', c] else [c]

/-- The text for a character of a pattern. -/
def translateChar (c : Char) : List Char :=
  if c = '*' then ".*".toList else if c = '?' then ".".toList else escape c

/-- The switches of the expression and its first condition. A dot stands for line feeds as well. -/
def opening (ignoreCase : Bool) : List Char := (if ignoreCase then "(?is)^" else "(?s)^").toList

/-- **The text of the expression** for a pattern in which no bracket opens. -/
def translate (ignoreCase : Bool) (pattern : List Char) : List Char :=
  opening ignoreCase ++ (pattern.flatMap translateChar ++ ['$'])

/-- The state of a reading of such an expression, after the given items. -/
def reading (ignoreCase : Bool) (items : List Pattern.Item) : Pattern.Reader :=
  ⟨⟨.default, [], items⟩, [], flags ignoreCase, []⟩

/-- The depth to which the expression of an item is nested. -/
def Item.depth : Item → Nat
  | .many => 1
  | _ => 0

/-- What is read for an item. -/
def Item.entry (item : Item) : Pattern.Item := .expr item.regex item.depth

/-- What is read in front of all items. -/
def openingEntries : List Pattern.Item := [.expr (.anchor .textStart) 0, .switches]

/-- What is read of the whole expression, in reverse. -/
def entries (g : Glob) : List Pattern.Item :=
  .expr (.anchor .textEnd) 0 :: ((g.map Item.entry).reverse ++ openingEntries)

section Reading

open Pattern (Reads)

variable {ignoreCase : Bool} {items : List Pattern.Item} {final : Pattern.Reader} {cs : List Char}

theorem reads_opening (others : Reads (reading ignoreCase openingEntries) cs final) :
    Reads .start (opening ignoreCase ++ cs) final := by
  have caret : Reads (reading ignoreCase [.switches]) ('^' :: cs) final :=
    .step rfl rfl le_rfl others
  cases ignoreCase
  · exact .step rfl rfl (Nat.le_add_right _ 3) caret
  · exact .step rfl rfl (Nat.le_add_right _ 4) caret

/-- A star is never followed by the mark of a lazy repetition, since a mark that stands for itself
is behind a backslash. -/
theorem head?_flatMap_translateChar (pattern : List Char) :
    (pattern.flatMap translateChar ++ ['$']).head? ≠ some '?' := by
  cases pattern with
  | nil => decide
  | cons c pattern =>
    rw [List.flatMap_cons, translateChar, escape]
    split_ifs with star mark special
    · simp
    · simp
    · simp
    · simpa using mark

/-- **The text for a character is read as its item.** -/
theorem reads_translateChar (c : Char) (eager : cs.head? ≠ some '?')
    (others : Reads (reading ignoreCase ((Item.ofChar ignoreCase c).entry :: items)) cs final) :
    Reads (reading ignoreCase items) (translateChar c ++ cs) final := by
  unfold translateChar escape
  unfold Item.ofChar at others
  split_ifs at others ⊢ with star mark special
  · have dropped : Pattern.dropLazy cs = cs := by
      unfold Pattern.dropLazy
      split
      · exact absurd rfl eager
      · rfl
    have repeated : Reads (reading ignoreCase (.expr (.set .all) 0 :: items)) ('*' :: cs) final :=
      .step rfl rfl (Nat.le_of_eq (congrArg _ dropped)) (dropped.symm ▸ others)
    exact .step rfl rfl le_rfl repeated
  · exact .step rfl rfl le_rfl others
  · exact .step rfl (Pattern.step?_backslash _ special) (Nat.le_succ _) others
  · exact .step rfl (Pattern.step?_of_not_isMeta _ special) le_rfl others

/-- **The text for a pattern is read as its items.** -/
theorem reads_translate (ignoreCase : Bool) (pattern : List Char) :
    Reads .start (translate ignoreCase pattern)
      (reading ignoreCase (entries (pattern.map (Item.ofChar ignoreCase)))) := by
  refine reads_opening ?_
  rw [entries]
  generalize openingEntries = items
  induction pattern generalizing items with
  | nil => exact .step rfl rfl le_rfl (.nil rfl)
  | cons c pattern ih =>
    rw [List.flatMap_cons, List.append_assoc]
    refine reads_translateChar c (head?_flatMap_translateChar pattern) ?_
    simpa using ih ((Item.ofChar ignoreCase c).entry :: items)

end Reading

theorem filterMap_entries (g : Glob) : (entries g).filterMap Pattern.Item.expr? =
    (.anchor .textEnd, 0) ::
      ((g.map fun item => (item.regex, item.depth)).reverse ++ [(.anchor .textStart, 0)]) := by
  have opened : openingEntries.filterMap Pattern.Item.expr? = [(.anchor .textStart, 0)] := rfl
  have items : (g.map Item.entry).filterMap Pattern.Item.expr? =
      g.map fun item => (item.regex, item.depth) := by
    rw [List.filterMap_map]
    exact congrFun List.filterMap_eq_map g
  rw [entries, List.filterMap_cons, List.filterMap_append, List.filterMap_reverse, items, opened]
  rfl

/-- **The items make up the expression of the glob.** -/
theorem sequence_entries_fst (g : Glob) : (Pattern.sequence (entries g)).1 = g.regex := by
  rw [Pattern.sequence, filterMap_entries]
  simp [regex, upToEnd, List.foldr_map]

/-- Only stars are nested in anything but the sequence. -/
theorem sequence_entries_snd (g : Glob) : (Pattern.sequence (entries g)).2 ≤ Pattern.maxDepth := by
  have items (item : Item) : item.depth ≤ 1 := by cases item <;> simp [Item.depth]
  have inner : ((entries g).filterMap Pattern.Item.expr?).foldl (fun n e => max n e.2) 0 ≤ 1 := by
    refine Pattern.foldl_depth_le (Nat.zero_le 1) ?_
    rw [filterMap_entries]
    simp only [List.mem_cons, List.mem_append, List.mem_reverse, List.mem_map, List.not_mem_nil,
      or_false]
    rintro e (rfl | ⟨item, -, rfl⟩ | rfl)
    · exact Nat.zero_le 1
    · exact items item
    · exact Nat.zero_le 1
  rw [Pattern.sequence]
  dsimp only
  split_ifs
  · exact Nat.le_trans inner (by decide)
  · exact Nat.le_trans (Nat.succ_le_succ inner) (by decide)

/-- **Reading the text gives the expression of the glob**, unless it is too large. -/
theorem read?_translate (ignoreCase : Bool) (pattern : List Char) :
    Regex.read? (translate ignoreCase pattern) =
      let r := regex (pattern.map (Item.ofChar ignoreCase))
      if r.weight ≤ Regex.maxWeight then some r else none := by
  have shallow := sequence_entries_snd (pattern.map (Item.ofChar ignoreCase))
  have whole := sequence_entries_fst (pattern.map (Item.ofChar ignoreCase))
  have read := reads_translate ignoreCase pattern _ (Nat.lt_succ_self _)
  simp [Regex.read?, read, reading, Pattern.Level.close, whole, shallow]

/-- A character takes little room. -/
theorem weight_regex_le (ignoreCase : Bool) (pattern : List Char) :
    (regex (pattern.map (Item.ofChar ignoreCase))).weight ≤ 10 * pattern.length + 2 := by
  have single (c : Char) : (Item.ofChar ignoreCase c).regex.weight ≤ 10 := by
    unfold Item.ofChar
    split_ifs
    · decide
    · decide
    · have narrow : (CharSet.single c).weight ≤ 4 := by
        unfold CharSet.single CharSet.weight
        split_ifs <;> decide
      cases ignoreCase
      · exact Nat.le_trans narrow (by decide)
      · exact Nat.le_trans (Nat.succ_le_succ narrow) (by decide)
  have items : (upToEnd (pattern.map (Item.ofChar ignoreCase))).weight ≤
      10 * pattern.length + 1 := by
    induction pattern with
    | nil => exact Nat.le_refl 1
    | cons c pattern ih =>
      have first : (upToEnd ((c :: pattern).map (Item.ofChar ignoreCase))).weight =
          (Item.ofChar ignoreCase c).regex.weight +
            (upToEnd (pattern.map (Item.ofChar ignoreCase))).weight := rfl
      have := single c
      rw [first, List.length_cons]
      omega
  show 1 + _ ≤ _
  omega

/-! ### Patterns without groups -/

/-- **What a pattern without groups means.** Its glob can be read and accepts exactly the texts that
can be cut into pieces for its characters. So does the expression that the glob is translated into,
which is what the text of the translation is read as unless it is too large. -/
theorem plain_glob_iff_describes {pattern : Value} (plain : '[' ∉ pattern.display.toList) :
    ∃ g : Glob, ∃ r : Regex,
      Predicate.glob? false pattern = .ok (.glob g) ∧
      (10 * pattern.display.length + 2 ≤ Regex.maxWeight →
        Regex.read? (translate false pattern.display.toList) = some r) ∧
      ∀ text : String,
        ((Matcher.glob g).test text ↔ Describes pattern.display.toList text.toList) ∧
        ((Matcher.regex r).test text ↔ Describes pattern.display.toList text.toList) := by
  let g : Glob := pattern.display.toList.map (Item.ofChar false)
  refine ⟨g, g.regex, ?_, ?_, fun text => ⟨?_, ?_⟩⟩
  · rw [Predicate.glob?, read?_eq_map false plain]
  · intro room
    have small : g.regex.weight ≤ Regex.maxWeight :=
      Nat.le_trans (weight_regex_le false _) (by rwa [String.length_toList])
    rw [read?_translate]
    exact if_pos small
  · exact accepts_ofChar_iff _ _
  · rw [Matcher.test, isMatch_regex]
    exact accepts_ofChar_iff _ _

/-- A star takes line feeds as well, and a dot stands for itself, in the glob and in the
expression. -/
theorem plain_glob_iff_describes_dotted :
    '[' ∉ (Value.string "a*.?").display.toList ∧
    ∃ g : Glob, ∃ r : Regex, Predicate.glob? false (.string "a*.?") = .ok (.glob g) ∧
      Regex.read? (translate false "a*.?".toList) = some r ∧
      (Matcher.glob g).test "a\n\n.(" ∧ (Matcher.regex r).test "a\n\n.(" := by
  have plain : '[' ∉ (Value.string "a*.?").display.toList := by decide
  obtain ⟨g, r, read, translated, meaning⟩ := plain_glob_iff_describes plain
  have cut : Describes (Value.string "a*.?").display.toList "a\n\n.(".toList :=
    ⟨[['a'], ['\n', '\n'], ['.'], ['(']], by simp [StandsFor, Value.display], rfl⟩
  exact ⟨plain, g, r, read, translated (by decide), (meaning _).1.mpr cut, (meaning _).2.mpr cut⟩

end DocQuery.Glob
