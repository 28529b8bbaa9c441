import DocQuery.Proofs.Filter.Conjunction
import DocQuery.Proofs.Pattern.Glob
import DocQuery.Proofs.Record

/-!
# Containment

What a person looks for, in an attribute or among ids, becomes a pattern: the text between two
stars. The text is not protected there, so that it is a glob of its own: it is found where a piece
is described by it, which is not always where it occurs.

* `Glob.accepts_between_iff` – **between stars a glob accepts the texts with a piece that it accepts
  by itself**;
* `Glob.Found` – what is found by a text between stars;
* `Glob.verbatim` – texts of which every character stands for itself. They are found exactly where
  they occur (`Glob.found_of_verbatim`), and **no other text is** (`Glob.verbatim_of_found`): the
  glob read of it takes nothing, or only texts that end with a star, or a text that is too short or
  another of the same length (`Glob.Short`);
* `Filter.TestsText` – the property of a string that a filter asks for;
* `containment_testsText` – **what containment and search ask for**.
-/

namespace DocQuery

namespace Glob

variable {g h : Glob} {v text : List Char}

/-! ### Globs between stars -/

/-- Items in front take the front of the text. -/
theorem takes_append : Takes (g ++ h) text ↔
    ∃ piece rest, Takes g piece ∧ Takes h rest ∧ text = piece ++ rest := by
  induction g generalizing text with
  | nil => simp [takes_nil]
  | cons item g ih =>
    rw [List.cons_append, takes_cons]
    simp only [takes_cons, ih]
    constructor
    · rintro ⟨first, _, taken, ⟨piece, rest, others, behind, rfl⟩, rfl⟩
      exact ⟨first ++ piece, rest, ⟨first, piece, taken, others, rfl⟩, behind,
        (List.append_assoc ..).symm⟩
    · rintro ⟨_, rest, ⟨first, piece, taken, others, rfl⟩, behind, rfl⟩
      exact ⟨first, piece ++ rest, taken, ⟨piece, rest, others, behind, rfl⟩,
        List.append_assoc ..⟩

theorem takes_many : Takes [.many] text :=
  ⟨[text], .cons trivial .nil, by simp⟩

/-- **Between stars a glob accepts the texts with a piece that it accepts by itself.** -/
theorem accepts_between_iff : accepts (.many :: (g ++ [.many])) text ↔
    ∃ piece, accepts g piece ∧ piece <:+: text := by
  rw [accepts_many_iff]
  simp only [accepts_iff, takes_append, takes_many, true_and]
  constructor
  · rintro ⟨front, _, ⟨piece, rest, taken, rfl⟩, rfl⟩
    exact ⟨piece, taken, front, rest, List.append_assoc ..⟩
  · rintro ⟨piece, taken, front, rest, rfl⟩
    exact ⟨front, _, ⟨piece, rest, taken, rfl⟩, List.append_assoc ..⟩

theorem takes_literal (c : Char) : (literal false c).Takes [c] :=
  ⟨c, test_literal.mpr rfl, rfl⟩

/-- Characters that stand for themselves accept their own text. -/
theorem accepts_literals : accepts (v.map (literal false)) text ↔ text = v := by
  induction v generalizing text with
  | nil => simp [accepts_nil]
  | cons c v ih =>
    have single : literal false c ≠ .many := nofun
    simp [accepts_single_iff single, test_literal, ih]

/-- The glob of a text between stars can be read and accepts the text. -/
def Found (v text : List Char) : Prop :=
  ∃ g, read? false ('*' :: (v ++ ['*'])) = some g ∧ g.accepts text

theorem read?_star (cs : List Char) :
    read? false ('*' :: cs) = (readFrom? false (cs.length + 1) cs).map (.many :: ·) := by
  rw [read?, List.length_cons, readFrom?, if_pos rfl]

theorem found_iff : Found v text ↔ ∃ g, readFrom? false (v.length + 2) (v ++ ['*']) = some g ∧
    accepts (.many :: g) text := by
  simp [Found, read?_star]

/-- **Without brackets, a text is found where it describes a piece.** -/
theorem found_iff_describes (plain : '[' ∉ v) :
    Found v text ↔ ∃ piece, Describes v piece ∧ piece <:+: text := by
  have whole : '[' ∉ '*' :: (v ++ ['*']) := by simpa using plain
  have star : Item.ofChar false '*' = .many := rfl
  simp [Found, read?_eq_map false whole, star, accepts_between_iff, accepts_ofChar_iff]

/-! ### Verbatim text -/

/-- Every character stands for itself: there is no star and no question mark, and every opening
bracket is closed at once. -/
def verbatim : List Char → Bool
  | [] => true
  | '[' :: ']' :: rest => verbatim rest
  | c :: rest => c != '*' && c != '?' && c != '[' && verbatim rest

theorem readFrom?_of_verbatim (exactly : verbatim v) {fuel : Nat} (room : v.length + 1 < fuel) :
    readFrom? false fuel (v ++ ['*']) = some (v.map (literal false) ++ [.many]) := by
  fun_induction verbatim v generalizing fuel with
  | case1 =>
    obtain ⟨fuel, rfl⟩ := Nat.exists_eq_add_of_lt room
    simp [readFrom?]
  | case2 rest ih =>
    obtain ⟨fuel, rfl⟩ := Nat.exists_eq_succ_of_ne_zero (Nat.ne_of_gt (Nat.zero_lt_of_lt room))
    simp only [List.length_cons] at room
    have bracket := readFrom?_closed false fuel List.not_mem_nil (rest ++ ['*'])
    rw [ih exactly (by omega)] at bracket
    exact bracket
  | case3 c rest _ ih =>
    obtain ⟨fuel, rfl⟩ := Nat.exists_eq_succ_of_ne_zero (Nat.ne_of_gt (Nat.zero_lt_of_lt room))
    simp only [Bool.and_eq_true, bne_iff_ne, ne_eq] at exactly
    obtain ⟨⟨⟨star, mark⟩, opening⟩, exactly⟩ := exactly
    have itself : Item.ofChar false c = literal false c := by
      rw [Item.ofChar, if_neg star, if_neg mark]
    rw [List.cons_append, readFrom?_plain false fuel opening,
      ih exactly (Nat.lt_of_succ_lt_succ room), itself]
    rfl

/-- **Verbatim text is found where it occurs.** -/
theorem found_of_verbatim (exactly : verbatim v) : Found v text ↔ v <:+: text := by
  simp [found_iff, readFrom?_of_verbatim exactly (Nat.lt_succ_self _), accepts_between_iff,
    accepts_literals]

/-- The glob takes only texts that end with a star, or it takes one that is not longer than the
given text, and that is this text only if it is verbatim. -/
def Short (v : List Char) (g : Glob) : Prop :=
  (∀ t, Takes g t → t.getLast? = some '*') ∨
    ∃ t, Takes g t ∧ t.length ≤ v.length ∧ (t = v → verbatim v)

/-- An item keeps this if it takes a piece that is not longer than the text it was read from. -/
theorem Short.cons {item : Item} {piece : List Char} (h : Short v g) (taken : item.Takes piece)
    (front : List Char) (shorter : piece.length ≤ front.length)
    (exactly : piece = front → verbatim v → verbatim (front ++ v)) :
    Short (front ++ v) (item :: g) := by
  obtain starred | ⟨t, others, bound, same⟩ := h
  · refine .inl fun t whole => ?_
    obtain ⟨first, rest, -, others, rfl⟩ := takes_cons.mp whole
    rw [List.getLast?_append, starred rest others]
    rfl
  · refine .inr ⟨piece ++ t, takes_cons.mpr ⟨piece, t, taken, others, rfl⟩, ?_, fun whole => ?_⟩
    · simp only [List.length_append]
      omega
    · have lengths := congrArg List.length whole
      simp only [List.length_append] at lengths
      obtain ⟨first, rfl⟩ := List.append_inj whole (by omega)
      exact exactly first (same rfl)

/-- A character that opens no bracket takes a short piece: a star the empty one, a question mark
another character. -/
theorem Short.plain {c : Char} (h : Short v g) (plain : c ≠ '[') :
    Short (c :: v) (Item.ofChar false c :: g) := by
  unfold Item.ofChar
  split_ifs with star mark
  · have taken : Item.Takes .many [] := trivial
    exact h.cons taken [c] (Nat.zero_le 1) nofun
  · have taken : Item.Takes .one ['a'] := ⟨'a', rfl⟩
    refine h.cons taken [c] le_rfl fun same => ?_
    simp [mark] at same
  · refine h.cons (takes_literal c) [c] le_rfl fun _ exactly => ?_
    simp [verbatim, star, mark, plain, exactly]

/-- A bracket that is closed at once stands for itself. -/
theorem Short.brackets (h : Short v g) :
    Short ('[' :: ']' :: v) (literal false '[' :: literal false ']' :: g) :=
  (h.plain (c := ']') (by decide)).cons (takes_literal '[') ['['] le_rfl
    fun _ exactly => by simpa [verbatim] using exactly

/-- A group takes one character, and is longer. -/
theorem Short.group {item : Item} {c : Char} (h : Short v g) (taken : item.Takes [c])
    (inner : List Char) : Short ('[' :: (inner ++ ']' :: v)) (item :: g) := by
  have longer := h.cons taken ('[' :: (inner ++ [']'])) (by simp) (by simp)
  simpa using longer

/-- **What is read of any text in front of a star is short**, if it takes anything. -/
theorem short_of_readFrom? {fuel : Nat} {t : List Char}
    (read : readFrom? false fuel (v ++ ['*']) = some g) (taken : Takes g t) : Short v g := by
  induction fuel generalizing v g t with
  | zero =>
    rw [readFrom?] at read
    cases read
  | succ fuel ih =>
    cases v with
    | nil =>
      rw [List.nil_append, readFrom?_plain false fuel (by decide)] at read
      obtain ⟨items, others, rfl⟩ := Option.map_eq_some_iff.mp read
      obtain rfl : items = [] := by
        cases fuel <;> simp [readFrom?] at others
        exact others
      exact .inr ⟨[], takes_many, le_rfl, fun _ => rfl⟩
    | cons c rest =>
      rw [List.cons_append] at read
      by_cases plain : c ≠ '['
      · rw [readFrom?_plain false fuel plain] at read
        obtain ⟨items, others, rfl⟩ := Option.map_eq_some_iff.mp read
        obtain ⟨-, t, -, behind, -⟩ := takes_cons.mp taken
        exact (ih others behind).plain plain
      obtain rfl := not_not.mp plain
      by_cases closed : ']' ∈ rest
      · obtain ⟨inner, rest, rfl, noClose⟩ := List.eq_append_cons_of_mem closed
        rw [List.append_assoc, List.cons_append, readFrom?_closed false fuel noClose] at read
        split_ifs at read with empty
        · obtain ⟨items, others, rfl⟩ := Option.map_eq_some_iff.mp read
          obtain ⟨-, t, -, behind, -⟩ := takes_cons.mp taken
          obtain ⟨-, t, -, behind, -⟩ := takes_cons.mp behind
          subst empty
          exact (ih others behind).brackets
        · obtain ⟨item, group, found⟩ := Option.bind_eq_some_iff.mp read
          obtain ⟨items, others, same⟩ := Option.bind_eq_some_iff.mp found
          obtain rfl := Option.some.inj same
          obtain ⟨piece, t, first, behind, -⟩ := takes_cons.mp taken
          obtain ⟨c, -, rfl⟩ := (Item.takes_iff (ne_many_of_group? group)).mp first
          exact (ih others behind).group first inner
      · have noClose : ']' ∉ rest ++ ['*'] := by simpa using closed
        rw [readFrom?_unclosed false fuel noClose] at read
        obtain rfl := Option.some.inj read
        refine .inl fun t taken => ?_
        rw [← accepts_iff, accepts_literals] at taken
        rw [taken, ← List.cons_append]
        exact List.getLast?_concat

/-- **Only verbatim text is found exactly where it occurs.** -/
theorem verbatim_of_found (h : ∀ text, Found v text ↔ v <:+: text) : verbatim v := by
  obtain ⟨g, read, accepted⟩ := found_iff.mp ((h v).mpr (List.infix_refl v))
  obtain ⟨-, t, accepted, -⟩ := (accepts_many_iff g v).mp accepted
  have found {text : List Char} (within : v <:+: text) : accepts (.many :: g) text := by
    obtain ⟨g', read', accepted⟩ := found_iff.mp ((h text).mpr within)
    exact Option.some.inj (read.symm.trans read') ▸ accepted
  have short := short_of_readFrom? read ((accepts_iff g t).mp accepted)
  obtain starred | ⟨s, taken, bound, same⟩ := short
  · -- a text that ends with another character is not found
    obtain ⟨front, rest, accepted, cut⟩ :=
      (accepts_many_iff g _).mp (found (List.prefix_append v ['a']).isInfix)
    have last := congrArg List.getLast? cut
    rw [List.getLast?_append, List.getLast?_append, starred rest ((accepts_iff g rest).mp accepted)]
      at last
    simp at last
  · have occurs : v <:+: s := by
      refine (h s).mp (found_iff.mpr ⟨g, read, ?_⟩)
      exact (accepts_many_iff g s).mpr ⟨[], s, (accepts_iff g s).mpr taken, rfl⟩
    exact same (occurs.eq_of_length (Nat.le_antisymm occurs.length_le bound)).symm

/-- **A text is found exactly where it occurs if and only if it is verbatim.** -/
theorem found_iff_infix_iff : (∀ text, Found v text ↔ v <:+: text) ↔ verbatim v :=
  ⟨verbatim_of_found, fun exactly _ => found_of_verbatim exactly⟩

end Glob

/-! ### Filters -/

namespace Filter

/-- The filter selects a document with a string in a field exactly if the string has the
property. -/
def TestsText (filter : Option Filter) (name : String) (P : List Char → Prop) : Prop :=
  ∀ (d : Document) (s : String), d.get? name = some (.string s) →
    ((∃ x ∈ filter, x.Selects d) ↔ P s.toList)

/-- The condition on a text between stars. -/
def between (name v : String) : Filter := .condition name .glob (.string ("*" ++ v ++ "*"))

theorem selects_between_iff {d : Document} {name v s : String}
    (value : d.get? name = some (.string s)) :
    (between name v).Selects d ↔ Glob.Found v.toList s.toList := by
  have stars : ("*" ++ v ++ "*").toList = '*' :: (v.toList ++ ['*']) := by simp
  have field : d.getOrNull name = .string s := by rw [Document.getOrNull, value, Option.getD_some]
  unfold Glob.Found Selects
  simp only [between, Predicate.ofFilter, Predicate.pattern?, Predicate.glob?, Value.display, stars]
  cases Glob.read? false ('*' :: (v.toList ++ ['*'])) with
  | none => simp [Except.map]
  | some g =>
    simp [Except.map, Predicate.test, field, Predicate.holds, Predicate.textMatches, Matcher.test,
      Value.display]

/-- Every string is in a field of some document. -/
theorem exists_document (name s : String) : ∃ d : Document, d.get? name = some (.string s) := by
  refine ⟨(Document.ofId (.string s)).set name (.string s), ?_⟩
  unfold Document.get?
  split_ifs
  · rfl
  · exact (Record.get?_insert name name _ []).trans (if_pos rfl)

theorem testsText_between_iff {name v : String} {P : List Char → Prop} :
    TestsText (some (between name v)) name P ↔ ∀ text, Glob.Found v.toList text ↔ P text := by
  constructor
  · intro tests text
    obtain ⟨d, value⟩ := exists_document name (String.ofList text)
    simpa [selects_between_iff value] using tests d _ value
  · intro same d s value
    simp [selects_between_iff value, same]

end Filter

section Containment

variable {v : String} {types : Record FieldType}

/-- What a person looks for in an attribute that holds no arrays. -/
theorem compile_contains (id : Nat) {name : String} (shown : String)
    (scalar : ∀ t ∈ types.get? name, t.isArray = false) :
    compile [.make id name .contains (.string v) shown] "" types =
      some (.between name v) := by
  have noArray : ((types.get? name).map FieldType.isArray).getD false = false := by
    cases found : types.get? name with
    | none => rfl
    | some t => exact scalar t found
  have alone (x : ActiveFilter) : compile [x] "" types = some (x.compile (types.get? x.name)) := rfl
  have made : ActiveFilter.make id name .contains (.string v) shown =
      ⟨id, name, .contains, .string v, shown⟩ := rfl
  rw [alone, made, ActiveFilter.compile]
  simp only [noArray]
  rfl

/-- What a person looks for in ids. -/
theorem compile_search (filled : v ≠ "") (front : ∀ c ∈ v.toList.head?, ¬isSpace c)
    (back : ∀ c ∈ v.toList.getLast?, ¬isSpace c) :
    compile [] v types = some (.between "id" v) := by
  have trimmed : trimString v = v := by
    rw [trimString, trim_eq_of_ends front back, String.ofList_toList]
  have isFilled : v.isEmpty = false := by simpa using filled
  simp only [compile, searchFilter, trimmed, isFilled]
  rfl

/-- **Containment and search are exact for verbatim text and for no other.** Text is looked for
between stars, where it is read as a glob: verbatim text is then found exactly where it occurs, and
any other text misses an occurrence or is found where it does not occur. Without brackets it is
found where it describes a piece. -/
theorem containment_testsText (filled : v ≠ "") (front : ∀ c ∈ v.toList.head?, ¬isSpace c)
    (back : ∀ c ∈ v.toList.getLast?, ¬isSpace c) (id : Nat) {name : String} (shown : String)
    (scalar : ∀ t ∈ types.get? name, t.isArray = false) :
    let contains := compile [.make id name .contains (.string v) shown] "" types
    let search := compile [] v types
    (Filter.TestsText contains name (fun text => v.toList <:+: text) ↔ Glob.verbatim v.toList) ∧
    (Filter.TestsText search "id" (fun text => v.toList <:+: text) ↔ Glob.verbatim v.toList) ∧
    ('[' ∉ v.toList →
      Filter.TestsText contains name
        (fun text => ∃ piece, Glob.Describes v.toList piece ∧ piece <:+: text) ∧
      Filter.TestsText search "id"
        (fun text => ∃ piece, Glob.Describes v.toList piece ∧ piece <:+: text)) := by
  intro contains search
  have contains_eq : contains = some (.between name v) := compile_contains id shown scalar
  have search_eq : search = some (.between "id" v) := compile_search filled front back
  rw [contains_eq, search_eq]
  simp only [Filter.testsText_between_iff]
  exact ⟨Glob.found_iff_infix_iff, Glob.found_iff_infix_iff,
    fun plain => ⟨fun _ => Glob.found_iff_describes plain, fun _ => Glob.found_iff_describes plain⟩⟩

/-- Dots, backslashes and closing brackets are verbatim, and so is an empty pair of brackets. -/
theorem containment_testsText_brackets :
    ("a.\\[]]" ≠ "" ∧ (∀ c ∈ "a.\\[]]".toList.head?, ¬isSpace c) ∧
      (∀ c ∈ "a.\\[]]".toList.getLast?, ¬isSpace c) ∧
      ∀ t ∈ Record.get? "name" [("name", FieldType.string)], t.isArray = false) ∧
    Filter.TestsText (compile [.make 1 "name" .contains (.string "a.\\[]]") ""] ""
      [("name", .string)]) "name" (fun text => "a.\\[]]".toList <:+: text) ∧
    Filter.TestsText (compile [] "a.\\[]]" [("name", .string)]) "id"
      (fun text => "a.\\[]]".toList <:+: text) := by
  have filled : "a.\\[]]" ≠ "" := by decide
  have front : ∀ c ∈ "a.\\[]]".toList.head?, ¬isSpace c := by
    rintro _ ⟨rfl⟩
    decide
  have back : ∀ c ∈ "a.\\[]]".toList.getLast?, ¬isSpace c := by
    rintro _ ⟨rfl⟩
    decide
  have scalar : ∀ t ∈ Record.get? "name" [("name", FieldType.string)], t.isArray = false := by
    rintro _ ⟨rfl⟩
    rfl
  obtain ⟨contains, search, -⟩ := containment_testsText filled front back 1 "" scalar
  have verbatim : Glob.verbatim "a.\\[]]".toList := by decide
  exact ⟨⟨filled, front, back, scalar⟩, contains.mpr verbatim, search.mpr verbatim⟩

/-- A question mark is found without occurring, and an opening bracket occurs without being
found. -/
theorem containment_not_infix :
    ¬Filter.TestsText (compile [.make 1 "name" .contains (.string "a?c") ""] "" []) "name"
      (fun text => "a?c".toList <:+: text) ∧
    ¬Filter.TestsText (compile [] "a?c" []) "id" (fun text => "a?c".toList <:+: text) ∧
    ¬Filter.TestsText (compile [] "[x" []) "id" (fun text => "[x".toList <:+: text) := by
  refine ⟨fun tests => ?_, fun tests => ?_, fun tests => ?_⟩
  · have found := (tests ((Document.ofId .null).set "name" (.string "abc")) "abc" rfl).mp
      ⟨_, rfl, _, rfl, by decide⟩
    revert found
    decide
  · have found := (tests (Document.ofId (.string "abc")) "abc" rfl).mp ⟨_, rfl, _, rfl, by decide⟩
    revert found
    decide
  · obtain ⟨g, read, accepted⟩ :=
      (Filter.testsText_between_iff.mp tests "[x".toList).mpr (List.infix_refl _)
    cases read
    revert accepted
    decide

end Containment

end DocQuery
