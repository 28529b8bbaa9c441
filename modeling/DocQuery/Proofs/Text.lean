import DocQuery.Text.Basic
import Mathlib.Data.List.Basic
import Mathlib.Data.List.TakeWhile

/-!
# White space around and between words

* `IsWord`, `IsGap` – texts without white space, and of nothing else; `HasEnds` – texts with white
  space at neither end;
* `trim_eq_nil_iff`, `trim_eq_of_ends` – trimming leaves nothing of blank text, and all of a text
  with white space at neither end;
* `trim_blank_append`, `trim_append_blank` – blank text at an end does not matter;
* `splitSpace_append`, `splitSpace_eq_none` – **a word is cut off at the first character of the
  white space behind it**, so that the rest of a longer run stays in front of what follows;
* `words_intercalate` – words with white space between them are found again.
-/

namespace DocQuery

/-- The text is one word. -/
def IsWord (s : String) : Prop := s ≠ "" ∧ ∀ c ∈ s.toList, isSpace c = false

/-- The text is a run of white space. -/
def IsGap (s : String) : Prop := s ≠ "" ∧ ∀ c ∈ s.toList, isSpace c

/-- There is white space at neither end of the text, which may be empty. -/
def HasEnds (s : String) : Prop :=
  (∀ c ∈ s.toList.head?, ¬isSpace c) ∧ ∀ c ∈ s.toList.getLast?, ¬isSpace c

instance (s : String) : Decidable (IsWord s) :=
  decidable_of_iff (s ≠ "" ∧ s.toList.all fun c => !isSpace c) (by simp [IsWord])

instance (s : String) : Decidable (IsGap s) :=
  decidable_of_iff (s ≠ "" ∧ s.toList.all isSpace) (by simp [IsGap])

instance (s : String) : Decidable (HasEnds s) :=
  decidable_of_iff ((s.toList.head?.all fun c => !isSpace c) ∧
    s.toList.getLast?.all fun c => !isSpace c) (by simp [HasEnds, Option.all_eq_true])

theorem IsWord.ne_nil {s : String} (h : IsWord s) : s.toList ≠ [] := by simpa using h.1

/-- A text that begins with a word begins with no white space. -/
theorem IsWord.front {s : String} (h : IsWord s) (cs : List Char) :
    ∀ c ∈ (s.toList ++ cs).head?, ¬isSpace c := by
  intro c hc
  rw [List.head?_append_of_ne_nil _ h.ne_nil] at hc
  simp [h.2 c (List.mem_of_mem_head? hc)]

/-- A text that ends with a word ends with no white space. -/
theorem IsWord.back {s : String} (h : IsWord s) (cs : List Char) :
    ∀ c ∈ (cs ++ s.toList).getLast?, ¬isSpace c := by
  intro c hc
  rw [List.getLast?_append_of_ne_nil _ h.ne_nil] at hc
  simp [h.2 c (List.mem_of_getLast? hc)]

theorem IsGap.exists_cons {s : String} (h : IsGap s) :
    ∃ c cs, s.toList = c :: cs ∧ isSpace c ∧ ∀ c ∈ cs, isSpace c := by
  obtain ⟨ne, blank⟩ := h
  cases cut : s.toList with
  | nil => exact absurd (by simpa using cut) ne
  | cons c cs =>
    rw [cut] at blank
    exact ⟨c, cs, rfl, List.forall_mem_cons.mp blank⟩

variable {cs blank word : List Char}

/-! ### Trimming -/

theorem trimStart_eq_self (front : ∀ c ∈ cs.head?, ¬isSpace c) : trimStart cs = cs := by
  cases cs with
  | nil => rfl
  | cons c cs => exact List.dropWhile_cons_of_neg (front c rfl)

theorem trim_eq_of_ends (front : ∀ c ∈ cs.head?, ¬isSpace c)
    (back : ∀ c ∈ cs.getLast?, ¬isSpace c) : trim cs = cs := by
  have reversed : trimStart cs.reverse = cs.reverse := trimStart_eq_self (by simpa using back)
  rw [trim, trimStart_eq_self front, trimEnd, ← trimStart, reversed, List.reverse_reverse]

/-- Something may be put in front of a text that cannot be trimmed. -/
theorem trim_append_of_ends (start : List Char) (first : ∀ c ∈ start.head?, ¬isSpace c)
    (ne : cs ≠ []) (front : ∀ c ∈ cs.head?, ¬isSpace c) (back : ∀ c ∈ cs.getLast?, ¬isSpace c) :
    trim (start ++ cs) = start ++ cs := by
  refine trim_eq_of_ends ?_ (by rwa [List.getLast?_append_of_ne_nil _ ne])
  cases start with
  | nil => exact front
  | cons c start => exact first

theorem trim_eq_self (h : ∀ c ∈ cs, isSpace c = false) : trim cs = cs :=
  trim_eq_of_ends (fun c hc => by simp [h c (List.mem_of_mem_head? hc)])
    fun c hc => by simp [h c (List.mem_of_getLast? hc)]

theorem trim_eq_nil_iff : trim cs = [] ↔ ∀ c ∈ cs, isSpace c := by
  rw [trim, trimEnd, List.reverse_eq_nil_iff, List.dropWhile_eq_nil_iff, trimStart]
  simp only [List.mem_reverse]
  constructor
  · intro rest c member
    rw [← List.takeWhile_append_dropWhile (p := isSpace) (l := cs), List.mem_append] at member
    exact member.elim (fun front => List.mem_takeWhile_imp front) (rest c)
  · intro blank c member
    exact blank c (List.dropWhile_sublist isSpace |>.mem member)

theorem trimString_isEmpty_iff {s : String} :
    (trimString s).isEmpty ↔ ∀ c ∈ s.toList, isSpace c := by
  rw [← trim_eq_nil_iff, trimString, String.isEmpty_iff, String.ofList_eq_empty_iff]

theorem trim_blank_append (h : ∀ c ∈ blank, isSpace c) : trim (blank ++ cs) = trim cs := by
  rw [trim, trimStart, List.dropWhile_append_of_pos h, ← trimStart, ← trim]

theorem trim_append_blank (h : ∀ c ∈ blank, isSpace c) : trim (cs ++ blank) = trim cs := by
  rw [trim, trimStart, List.dropWhile_append]
  split
  next nothing =>
    have gone : trimStart cs = [] := List.isEmpty_iff.mp nothing
    rw [trim, gone, List.dropWhile_eq_nil_iff.mpr h]
  next =>
    rw [trimEnd, List.reverse_append, List.dropWhile_append_of_pos (by simpa using h), ← trimEnd,
      ← trimStart, ← trim]

/-! ### Cutting -/

theorem splitSpace_append (solid : ∀ c ∈ word, isSpace c = false) {c : Char} (space : isSpace c)
    (rest : List Char) : splitSpace (word ++ c :: rest) = some (word, rest) := by
  have solid : ∀ c ∈ word, !isSpace c := by simpa using solid
  rw [splitSpace, List.dropWhile_append_of_pos solid, List.takeWhile_append_of_pos solid]
  simp [space]

theorem splitSpace_eq_none (solid : ∀ c ∈ word, isSpace c = false) : splitSpace word = none := by
  rw [splitSpace, List.dropWhile_eq_nil_iff.mpr (by simpa using solid)]

/-! ### Words -/

/-- What a character does to the pieces of the text behind it. -/
def cutPiece (isSeparator : Char → Bool) (c : Char) (ps : List (List Char)) : List (List Char) :=
  if isSeparator c then [] :: ps
  else match ps with
    | [] => [[c]]
    | p :: rest => (c :: p) :: rest

theorem words_eq (cs : List Char) :
    words cs = (cs.foldr (cutPiece isSpace) [[]]).filter fun p => !p.isEmpty := rfl

theorem foldr_cutPiece (solid : ∀ c ∈ word, isSpace c = false) (piece : List Char)
    (ps : List (List Char)) :
    word.foldr (cutPiece isSpace) (piece :: ps) = (word ++ piece) :: ps := by
  induction word with
  | nil => rfl
  | cons c word ih =>
    obtain ⟨first, others⟩ := List.forall_mem_cons.mp solid
    rw [List.foldr_cons, ih others]
    exact if_neg (by simp [first])

theorem words_word (ne : word ≠ []) (solid : ∀ c ∈ word, isSpace c = false) :
    words word = [word] := by
  rw [words_eq, foldr_cutPiece solid, List.append_nil, List.filter_cons_of_pos (by simpa using ne),
    List.filter_nil]

theorem words_append (ne : word ≠ []) (solid : ∀ c ∈ word, isSpace c = false) {c : Char}
    (space : isSpace c) (rest : List Char) : words (word ++ c :: rest) = word :: words rest := by
  have cut (ps : List (List Char)) : cutPiece isSpace c ps = [] :: ps := if_pos space
  rw [words_eq, List.foldr_append, List.foldr_cons, cut, foldr_cutPiece solid, List.append_nil,
    List.filter_cons_of_pos (by simpa using ne), words_eq]

/-- **Words with white space between them** are its words. -/
theorem words_intercalate {c : Char} (space : isSpace c) {ws : List (List Char)}
    (each : ∀ w ∈ ws, w ≠ [] ∧ ∀ c ∈ w, isSpace c = false) : words ([c].intercalate ws) = ws := by
  induction ws with
  | nil => rfl
  | cons w ws ih =>
    obtain ⟨⟨ne, solid⟩, others⟩ := List.forall_mem_cons.mp each
    cases ws with
    | nil => rw [List.intercalate_singleton, words_word ne solid]
    | cons w' ws =>
      rw [List.intercalate_cons_cons, List.append_assoc, List.singleton_append,
        words_append ne solid space, ih others]

/-- Words with something between them begin and end like words. -/
theorem ends_intercalate (sep : List Char) {ws : List (List Char)} (some : ws ≠ [])
    (each : ∀ w ∈ ws, w ≠ [] ∧ ∀ c ∈ w, isSpace c = false) :
    sep.intercalate ws ≠ [] ∧ (∀ c ∈ (sep.intercalate ws).head?, ¬isSpace c) ∧
      ∀ c ∈ (sep.intercalate ws).getLast?, ¬isSpace c := by
  induction ws with
  | nil => exact absurd rfl some
  | cons w ws ih =>
    obtain ⟨⟨ne, solid⟩, others⟩ := List.forall_mem_cons.mp each
    have front : ∀ c ∈ w.head?, ¬isSpace c := fun c hc => by
      simp [solid c (List.mem_of_mem_head? hc)]
    cases ws with
    | nil =>
      rw [List.intercalate_singleton]
      exact ⟨ne, front, fun c hc => by simp [solid c (List.mem_of_getLast? hc)]⟩
    | cons w' ws =>
      obtain ⟨filled, -, back⟩ := ih (List.cons_ne_nil _ _) others
      rw [List.intercalate_cons_cons, List.getLast?_append_of_ne_nil _ filled, List.append_assoc,
        List.head?_append_of_ne_nil _ ne]
      exact ⟨List.append_ne_nil_of_left_ne_nil ne _, front, back⟩

end DocQuery
