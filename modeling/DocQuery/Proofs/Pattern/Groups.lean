import DocQuery.Proofs.Pattern.Translation

/-!
# Groups in globs

A group of a glob is meant to be a set of characters, the ones between its brackets. But its text
follows the rules for bracket expressions, where only the backslash is protected: a caret in front
complements the set, a bracket inside of it opens another one, and a doubled ampersand or tilde is
an operator between what stands in front of it and what stands behind. The reader is followed here
for texts without closing brackets and hyphens.

* `Glob.Inner` – those texts;
* `Glob.segments`, `Glob.belongs` – the text of a group cut at its operators, and the set that the
  segments describe together;
* `Pattern.ReadsAs` – a text is read to its end with that set, whatever was read in front of it;
  `Pattern.readsAs_segments` – **every text without brackets is read like this**;
* `Pattern.readParts?_closed` – **a bracket inside of a group never finds its end**, so that the
  group cannot be read;
* `Glob.Singles`, `Glob.singles_iff` – what a glob of one group matches;
* `Glob.group_characters_iff` – **when a group matches the characters that it lists** and its
  complement all others;
* `Glob.group_not_literal` – characters that do not stand for themselves.
-/

namespace DocQuery

/-! ### Operators -/

/-- An operator between sets, asked about one character. -/
def Pattern.SetOp.test : Pattern.SetOp → Bool → Bool → Bool
  | .inter, a, b => a && b
  | .diff, a, b => a && !b
  | .xor, a, b => a != b

namespace Glob

/-- The text of a group, cut at its operators: what stands in front of the first one, and every
operator with what stands behind it. -/
def segments : List Char → List Char × List (Pattern.SetOp × List Char)
  | [] => ([], [])
  | '&' :: '&' :: rest => ([], (.inter, (segments rest).1) :: (segments rest).2)
  | '~' :: '~' :: rest => ([], (.xor, (segments rest).1) :: (segments rest).2)
  | c :: rest => (c :: (segments rest).1, (segments rest).2)

/-- Applies the operators of the segments from left to right. -/
def folded (d : Char) (first : Bool) (others : List (Pattern.SetOp × List Char)) : Bool :=
  others.foldl (fun b s => s.1.test b (s.2.contains d)) first

/-- A character belongs to what the text of a group describes. -/
def belongs (cs : List Char) (d : Char) : Bool :=
  folded d ((segments cs).1.contains d) (segments cs).2

/-- The text between the brackets of a group without ranges. -/
structure Inner (cs : List Char) : Prop where
  noClose : ']' ∉ cs
  noRange : '-' ∉ cs

theorem Inner.of_suffix {cs rest : List Char} (h : Inner cs) (behind : rest <:+ cs) : Inner rest :=
  ⟨fun member => h.noClose (behind.mem member), fun member => h.noRange (behind.mem member)⟩

theorem Inner.head_ne {c : Char} {cs : List Char} (h : Inner (c :: cs)) : c ≠ ']' ∧ c ≠ '-' :=
  ⟨fun same => h.noClose (same ▸ List.mem_cons_self),
    fun same => h.noRange (same ▸ List.mem_cons_self)⟩

/-- The text of a group as it is read: with its backslashes doubled and its closing bracket. -/
def groupText (cs : List Char) : List Char := protect cs ++ [']']

theorem groupText_cons {c : Char} (plain : c ≠ '\\') (cs : List Char) :
    groupText (c :: cs) = c :: groupText cs := by
  simp [groupText, protect, plain]

theorem groupText_backslash (cs : List Char) :
    groupText ('\\' :: cs) = '\\' :: '\\' :: groupText cs := rfl

/-- It begins like the text of the group, if that is not empty. -/
theorem exists_groupText (cs : List Char) : ∃ rest, groupText cs = cs.headD ']' :: rest := by
  cases cs with
  | nil => exact ⟨[], rfl⟩
  | cons c cs =>
    by_cases special : c = '\\'
    · subst special
      exact ⟨_, rfl⟩
    · exact ⟨_, groupText_cons special cs⟩

theorem headD_ne {cs : List Char} {c : Char} (absent : c ∉ cs) (other : c ≠ ']') :
    cs.headD ']' ≠ c := by
  cases cs with
  | nil => exact other.symm
  | cons d cs => exact fun h => absent (h ▸ List.mem_cons_self)

theorem length_lt_groupText (cs : List Char) : cs.length < (groupText cs).length := by
  have doubled : cs.length ≤ (protect cs).length := by
    induction cs with
    | nil => exact Nat.le_refl 0
    | cons c cs ih =>
      have first : 1 ≤ (if c = '\\' then ['\\', '\\'] else [c]).length := by
        split_ifs <;> simp
      simp only [protect, List.flatMap_cons, List.length_append, List.length_cons] at ih ⊢
      omega
  rw [groupText, List.length_append]
  exact Nat.lt_succ_of_le doubled

/-- The only closing bracket is the last character. -/
theorem eq_nil_of_suffix {cs rest : List Char} (noClose : ']' ∉ cs)
    (behind : ']' :: rest <:+ groupText cs) : rest = [] := by
  have inner : ']' ∉ protect cs := by
    simp only [protect, List.mem_flatMap, not_exists, not_and]
    intro c member
    split_ifs
    · decide
    · simpa using fun h : ']' = c => noClose (h ▸ member)
  obtain ⟨front, form⟩ := behind
  exact ((List.append_cons_inj_of_notMem inner List.not_mem_nil).mp form.symm).2.2.symm

end Glob

namespace Pattern

open Glob (groupText segments folded Inner)

variable {fs : Flags} {cs : List Char} {c : Char}

theorem SetOp.contains_apply (op : SetOp) (a b : CharSet) (d : Char) :
    (op.apply a b).contains d = op.test (a.contains d) (b.contains d) := by
  cases op <;> rfl

theorem contains_unions (sets : List CharSet) (d : Char) :
    (CharSet.unions sets).contains d = sets.any fun s => s.contains d := by
  have started (first : CharSet) :
      (sets.foldl CharSet.union first).contains d =
        (first.contains d || sets.any fun s => s.contains d) := by
    induction sets generalizing first with
    | nil => simp
    | cons s sets ih => rw [List.foldl_cons, ih, List.any_cons, ← Bool.or_assoc]; rfl
  exact started .empty

theorem contains_unionPart (parts : List Part) (d : Char) :
    (unionPart parts).set.contains d = parts.any fun p => p.set.contains d := by
  match parts with
  | [] => rfl
  | [p] => simp [unionPart]
  | p :: q :: ps =>
    show (CharSet.unions ((p :: q :: ps).reverse.map Part.set)).contains d = _
    rw [contains_unions, List.any_map, List.any_reverse]
    rfl

/-- Joins what is asked about a character with what stands in front of an operator. -/
def joined (pending : Option (SetOp × Part)) (d : Char) (b : Bool) : Bool :=
  match pending with
  | none => b
  | some (op, lhs) => op.test (lhs.set.contains d) b

theorem contains_applyPending (sensitive : fs.ignoreCase = false)
    (pending : Option (SetOp × Part)) (rhs : Part) (d : Char) :
    (applyPending fs pending rhs).set.contains d = joined pending d (rhs.set.contains d) := by
  cases pending with
  | none => rfl
  | some p => simp [applyPending, joined, CharSet.foldIf, sensitive, SetOp.contains_apply]

theorem skip_of_quiet (quiet : fs.verbose = false) (cs : List Char) : skip fs cs = cs := by
  simp [skip, quiet]

theorem contains_single (c d : Char) : (CharSet.single c).contains d = (d == c) :=
  Bool.eq_iff_iff.mpr ((Glob.test_literal (c := c)).trans beq_iff_eq.symm)

/-- The sign of an operator. -/
def SetOp.sign : SetOp → Char
  | .inter => '&'
  | .diff => '-'
  | .xor => '~'

/-- The text of a group is read to its end, with the set that some segments describe together with
what was read in front of it. -/
def ReadsAs (fs : Flags) (cs first : List Char) (others : List (SetOp × List Char)) : Prop :=
  ∀ (fuel : Nat) (parts : List Part) (pending : Option (SetOp × Part)), cs.length < fuel →
    ∃ part, readParts? fs fuel parts pending (groupText cs) = some (part, []) ∧
      ∀ d, part.set.contains d = folded d
        (joined pending d ((parts.any fun p => p.set.contains d) || first.contains d)) others

section Reading

variable (quiet : fs.verbose = false)
include quiet

theorem readParts?_close (fuel : Nat) (parts : List Part) (pending : Option (SetOp × Part)) :
    readParts? fs (fuel + 1) parts pending (groupText []) =
      some (applyPending fs pending (unionPart parts), []) := by
  rw [readParts?, skip_of_quiet quiet]
  rfl

/-- **A doubled sign puts what was read so far on the left of an operator.** -/
theorem readParts?_sign (op : SetOp) (fuel : Nat) (parts : List Part)
    (pending : Option (SetOp × Part)) :
    readParts? fs (fuel + 1) parts pending (groupText (op.sign :: op.sign :: cs)) =
      readParts? fs fuel [] (some (op, applyPending fs pending (unionPart parts)))
        (groupText cs) := by
  have form : groupText (op.sign :: op.sign :: cs) = op.sign :: op.sign :: groupText cs := by
    cases op <;> rfl
  rw [readParts?, skip_of_quiet quiet, form]
  cases op <;> rfl

variable (wide : fs.unicode = true)
include wide

theorem readRange?_groupText (noRange : '-' ∉ cs) :
    readRange? fs (groupText (c :: cs)) = some (.single c, groupText cs) := by
  obtain ⟨rest, form⟩ := Glob.exists_groupText cs
  have element : readElement? fs (groupText (c :: cs)) = some (.char c, groupText cs) := by
    by_cases special : c = '\\'
    · subst special
      rw [Glob.groupText_backslash, readElement?, readEscape?_of_isMeta fs (by decide)]
      simp [endpoint?, wide]
    · rw [Glob.groupText_cons special, readElement?]
      · simp [endpoint?, wide]
      · exact fun h => special h
  rw [readRange?, element]
  simp only [Option.bind_eq_bind, Option.bind_some, skip_of_quiet quiet, form]
  split
  · contradiction
  · exact absurd (List.cons.inj ‹_›).1 (Glob.headD_ne noRange (by decide))
  · rfl

/-- **A character is read as itself**, unless it is a bracket or doubled to an operator. -/
theorem readParts?_char (noOpen : c ≠ '[') (inner : Inner (c :: cs))
    (single : ∀ rest, (c = '&' ∨ c = '~') → cs ≠ c :: rest) (fuel : Nat) (parts : List Part)
    (pending : Option (SetOp × Part)) :
    readParts? fs (fuel + 1) parts pending (groupText (c :: cs)) =
      readParts? fs fuel (⟨.single c, 0⟩ :: parts) pending (groupText cs) := by
  obtain ⟨noClose, noHyphen⟩ := inner.head_ne
  have head : ∃ rest, groupText (c :: cs) = c :: rest ∧ (rest = groupText cs ∨ c = '\\') := by
    by_cases special : c = '\\'
    · subst special
      exact ⟨_, rfl, .inr rfl⟩
    · exact ⟨_, Glob.groupText_cons special cs, .inl rfl⟩
  obtain ⟨rest, form, behind⟩ := head
  have noRange : '-' ∉ cs := List.not_mem_of_not_mem_cons inner.noRange
  have range := readRange?_groupText quiet wide (c := c) noRange
  have doubled {e : Char} {more : List Char} (sign : e = '&' ∨ e = '~') :
      c :: rest ≠ e :: e :: more := by
    rintro h
    obtain ⟨rfl, h⟩ := List.cons.inj h
    obtain rfl := behind.resolve_right (by rcases sign with rfl | rfl <;> decide)
    obtain ⟨more, form⟩ := Glob.exists_groupText cs
    have first : cs.headD ']' = c := (List.cons.inj (form.symm.trans h)).1
    cases cs with
    | nil => exact noClose first.symm
    | cons d cs => exact single cs sign (first ▸ rfl)
  rw [readParts?, skip_of_quiet quiet, form]
  split
  · contradiction
  · exact absurd (List.cons.inj ‹_›).1 noClose
  · exact absurd (List.cons.inj ‹_›).1 noOpen
  · exact absurd ‹_› (doubled (.inl rfl))
  · exact absurd (List.cons.inj ‹_›).1 noHyphen
  · exact absurd ‹_› (doubled (.inr rfl))
  · rw [← form, range]
    rfl

theorem ReadsAs.char {first : List Char} {others : List (SetOp × List Char)}
    (h : ReadsAs fs cs first others) (noOpen : c ≠ '[') (inner : Inner (c :: cs))
    (single : ∀ rest, (c = '&' ∨ c = '~') → cs ≠ c :: rest) :
    ReadsAs fs (c :: cs) (c :: first) others := by
  intro fuel parts pending room
  obtain ⟨fuel, rfl⟩ := Nat.exists_eq_succ_of_ne_zero (Nat.ne_of_gt (Nat.zero_lt_of_lt room))
  obtain ⟨part, read, members⟩ :=
    h fuel (⟨.single c, 0⟩ :: parts) pending (Nat.lt_of_succ_lt_succ room)
  refine ⟨part, ?_, fun d => ?_⟩
  · rw [readParts?_char quiet wide noOpen inner single, read]
  · rw [members d, List.any_cons, List.contains_cons, contains_single, Bool.or_left_comm,
      ← Bool.or_assoc]

end Reading

/-- A character that begins no operator is not doubled, if it is a sign. -/
theorem ne_cons_of_single (notInter : ∀ rest, c = '&' → cs = '&' :: rest → False)
    (notXor : ∀ rest, c = '~' → cs = '~' :: rest → False) (rest : List Char)
    (sign : c = '&' ∨ c = '~') : cs ≠ c :: rest := by
  rcases sign with rfl | rfl
  · exact notInter rest rfl
  · exact notXor rest rfl

section Segments

variable (quiet : fs.verbose = false) (sensitive : fs.ignoreCase = false) {first : List Char}
  {others : List (SetOp × List Char)}
include quiet sensitive

theorem readsAs_nil : ReadsAs fs [] [] [] := by
  intro fuel parts pending room
  obtain ⟨fuel, rfl⟩ := Nat.exists_eq_succ_of_ne_zero (Nat.ne_of_gt room)
  refine ⟨_, readParts?_close quiet fuel parts pending, fun d => ?_⟩
  rw [contains_applyPending sensitive, contains_unionPart]
  simp [folded]

theorem ReadsAs.sign (h : ReadsAs fs cs first others) (op : SetOp) :
    ReadsAs fs (op.sign :: op.sign :: cs) [] ((op, first) :: others) := by
  intro fuel parts pending room
  obtain ⟨fuel, rfl⟩ := Nat.exists_eq_succ_of_ne_zero (Nat.ne_of_gt (Nat.zero_lt_of_lt room))
  have room : cs.length < fuel := by
    simp only [List.length_cons] at room
    omega
  obtain ⟨part, read, members⟩ :=
    h fuel [] (some (op, applyPending fs pending (unionPart parts))) room
  refine ⟨part, (readParts?_sign quiet op fuel parts pending).trans read, fun d => ?_⟩
  rw [members d]
  simp [folded, joined, contains_applyPending sensitive, contains_unionPart]

/-- **Text without brackets describes what its segments do.** -/
theorem readsAs_segments (wide : fs.unicode = true) (noOpen : '[' ∉ cs) (inner : Inner cs) :
    ReadsAs fs cs (segments cs).1 (segments cs).2 := by
  fun_induction segments cs with
  | case1 => exact readsAs_nil quiet sensitive
  | case2 rest ih =>
    have behind : rest <:+ '&' :: '&' :: rest := List.suffix_append ['&', '&'] rest
    have others := ih (fun member => noOpen (behind.mem member)) (inner.of_suffix behind)
    exact others.sign quiet sensitive .inter
  | case3 rest ih =>
    have behind : rest <:+ '~' :: '~' :: rest := List.suffix_append ['~', '~'] rest
    have others := ih (fun member => noOpen (behind.mem member)) (inner.of_suffix behind)
    exact others.sign quiet sensitive .xor
  | case4 c rest notInter notXor ih =>
    have single := ne_cons_of_single notInter notXor
    obtain ⟨opens, noOpen⟩ := not_or.mp (List.mem_cons.not.mp noOpen)
    have others := ih noOpen (inner.of_suffix (List.suffix_cons c rest))
    exact others.char quiet wide (Ne.symm opens) inner single

end Segments

/-! ### Brackets inside of a group -/

theorem readParts?_nil (quiet : fs.verbose = false) (fuel : Nat) (parts : List Part)
    (pending : Option (SetOp × Part)) : readParts? fs fuel parts pending [] = none := by
  cases fuel with
  | zero => rw [readParts?]
  | succ fuel => rw [readParts?, skip_of_quiet quiet]

/-- The text of a group with the sign of complement that stands in front of it. -/
def signedText (negated : Bool) (cs : List Char) : List Char :=
  if negated then '^' :: groupText cs else groupText cs

/-- The opening of a group without hyphens is its sign, and a closing bracket that follows at once
stands for itself. -/
theorem readOpening_signedText (quiet : fs.verbose = false) (inner : Inner cs) {negated : Bool}
    (unsigned : negated = false → cs.head? ≠ some '^') :
    readOpening fs (signedText negated cs) =
      if cs = [] then (negated, [⟨.single ']', 0⟩], []) else (negated, [], groupText cs) := by
  cases cs with
  | nil =>
    simp only [readOpening, skip_of_quiet quiet]
    cases negated <;> rfl
  | cons c cs =>
    obtain ⟨rest, form⟩ := Glob.exists_groupText (c :: cs)
    have form : groupText (c :: cs) = c :: rest := form
    obtain ⟨notClose, notHyphen⟩ := inner.head_ne
    have notSign : negated = false → c ≠ '^' := fun h first => unsigned h (congrArg some first)
    simp only [readOpening, skip_of_quiet quiet, signedText, form]
    cases negated with
    | true => simp [notHyphen, notClose]
    | false => simp [notHyphen, notClose, notSign]

/-- The text of every group begins with a sign or has none. -/
theorem exists_signedText (cs : List Char) : ∃ negated inner,
    groupText cs = signedText negated inner ∧ (negated = false → inner.head? ≠ some '^') ∧
      inner <:+ cs := by
  by_cases signed : cs.head? = some '^'
  · obtain ⟨inner, rfl⟩ := List.head?_eq_some_iff.mp signed
    exact ⟨true, inner, rfl, nofun, List.suffix_cons _ _⟩
  · exact ⟨false, cs, rfl, fun _ => signed, List.suffix_refl _⟩

section Brackets

variable (quiet : fs.verbose = false) (wide : fs.unicode = true)
include quiet wide

/-- What is read of a group is what is read of its text, closed under case and complemented. -/
theorem readBracketFrom?_signedText (inner : Inner cs) {negated : Bool}
    (unsigned : negated = false → cs.head? ≠ some '^') (fuel : Nat) :
    readBracketFrom? fs (fuel + 1) (signedText negated cs) =
      if cs = [] then none
      else (readParts? fs fuel [] none (groupText cs)).map fun read =>
        (⟨(read.1.set.foldIf fs.ignoreCase).complIf negated, read.1.depth + 1⟩, read.2) := by
  rw [readBracketFrom?, readOpening_signedText quiet inner unsigned]
  split_ifs with empty
  · simp [readParts?_nil quiet]
  · dsimp only
    cases readParts? fs fuel [] none (groupText cs) with
    | none => rfl
    | some read => simp [finish?, wide]

/-- What is left of a bracket is what is left of the text behind its sign. -/
theorem exists_of_readBracketFrom? (inner : Inner cs) {fuel : Nat} {part : Part}
    {rest : List Char} (read : readBracketFrom? fs fuel (groupText cs) = some (part, rest)) :
    ∃ n < fuel, ∃ tail p, tail <:+ cs ∧
      readParts? fs n [] none (groupText tail) = some (p, rest) := by
  obtain ⟨negated, tail, form, unsigned, behind⟩ := exists_signedText cs
  cases fuel with
  | zero =>
    rw [readBracketFrom?] at read
    cases read
  | succ n =>
    rw [form, readBracketFrom?_signedText quiet wide (inner.of_suffix behind) unsigned] at read
    split_ifs at read
    obtain ⟨⟨p, left⟩, whole, same⟩ := Option.map_eq_some_iff.mp read
    obtain ⟨-, rfl⟩ := Prod.mk.inj same
    exact ⟨n, Nat.lt_succ_self n, tail, p, behind, whole⟩

omit quiet wide in
/-- A class with a name ends with the closing bracket of the group. -/
theorem eq_nil_of_readAsciiClass? {s : CharSet} {rest : List Char} (noClose : ']' ∉ cs)
    (read : readAsciiClass? fs (groupText cs) = some (s, rest)) : rest = [] := by
  unfold readAsciiClass? at read
  split at read
  case h_2 => cases read
  case h_1 inner form =>
    dsimp only at read
    split at read
    case h_2 => cases read
    case h_1 behind ends =>
      obtain ⟨_, -, found⟩ := Option.bind_eq_some_iff.mp read
      obtain ⟨_, -, same⟩ := Option.map_eq_some_iff.mp found
      obtain ⟨-, rfl⟩ := Prod.mk.inj same
      refine Glob.eq_nil_of_suffix noClose ?_
      have named := ends ▸ List.dropWhile_suffix (fun c => c != ':')
      rw [form]
      refine ((List.suffix_cons _ _).trans named).trans (.trans ?_ (List.suffix_cons _ _))
      split
      · exact List.suffix_cons _ _
      · exact List.suffix_refl _

omit wide in
/-- A bracket inside of a group ends where the group does, so that the group has no end. -/
theorem readParts?_open (noClose : ']' ∉ cs) {fuel : Nat}
    (nested : ∀ part rest, readBracketFrom? fs fuel (groupText cs) = some (part, rest) → rest = [])
    (parts : List Part) (pending : Option (SetOp × Part)) :
    readParts? fs (fuel + 1) parts pending (groupText ('[' :: cs)) = none := by
  rw [readParts?, skip_of_quiet quiet, Glob.groupText_cons (by decide)]
  cases named : readAsciiClass? fs (groupText cs) with
  | some found =>
    have ended : found.2 = [] := eq_nil_of_readAsciiClass? noClose named
    simp [named, ended, readParts?_nil quiet]
  | none =>
    cases bracket : readBracketFrom? fs fuel (groupText cs) with
    | none => simp [named, bracket]
    | some read => simp [named, bracket, nested _ _ bracket, readParts?_nil quiet]

/-- **A bracket inside of a group never finds its end**: the only closing bracket belongs to it. -/
theorem readParts?_closed {fuel : Nat} {parts : List Part} {pending : Option (SetOp × Part)}
    {part : Part} {rest : List Char} (inner : Inner cs)
    (read : readParts? fs fuel parts pending (groupText cs) = some (part, rest)) :
    rest = [] ∧ '[' ∉ cs := by
  -- The fuel falls by more than one where a bracket is read inside of the group.
  induction fuel using Nat.strong_induction_on generalizing cs parts pending part rest with
  | _ fuel ih =>
    cases fuel with
    | zero =>
      rw [readParts?] at read
      cases read
    | succ fuel =>
      have behind {tail : List Char} (suffix : tail <:+ cs) {parts : List Part}
          {pending : Option (SetOp × Part)}
          (read : readParts? fs fuel parts pending (groupText tail) = some (part, rest)) :
          rest = [] ∧ '[' ∉ tail := ih fuel (Nat.lt_succ_self fuel) (inner.of_suffix suffix) read
      fun_cases segments cs with
      | case1 =>
        rw [readParts?_close quiet] at read
        cases read
        exact ⟨rfl, List.not_mem_nil⟩
      | case2 cs =>
        have read := (readParts?_sign quiet .inter fuel parts pending).symm.trans read
        simpa using behind (List.suffix_append ['&', '&'] cs) read
      | case3 cs =>
        have read := (readParts?_sign quiet .xor fuel parts pending).symm.trans read
        simpa using behind (List.suffix_append ['~', '~'] cs) read
      | case4 c cs notInter notXor =>
        have innerBehind := inner.of_suffix (List.suffix_cons c cs)
        by_cases opens : c = '['
        · subst opens
          rw [readParts?_open quiet innerBehind.noClose] at read
          · cases read
          · intro part rest nested
            obtain ⟨n, less, tail, p, suffix, read⟩ :=
              exists_of_readBracketFrom? quiet wide innerBehind nested
            exact (ih n (Nat.lt_succ_of_lt less) (innerBehind.of_suffix suffix) read).1
        · rw [readParts?_char quiet wide opens inner (ne_cons_of_single notInter notXor)] at read
          obtain ⟨ended, noOpen⟩ := behind (List.suffix_cons c cs) read
          exact ⟨ended, List.not_mem_cons_of_ne_of_not_mem (Ne.symm opens) noOpen⟩

/-! ### Whole groups -/

variable {negated : Bool}

/-- **A group without inner brackets is the set that its segments describe**, or its complement. -/
theorem exists_readBracket? (sensitive : fs.ignoreCase = false) (filled : cs ≠ [])
    (noOpen : '[' ∉ cs) (inner : Inner cs) (unsigned : negated = false → cs.head? ≠ some '^') :
    ∃ part, readBracket? fs (signedText negated cs) = some (part, []) ∧
      ∀ d, part.set.contains d = (Glob.belongs cs d != negated) := by
  have room : cs.length < (signedText negated cs).length := by
    have := Glob.length_lt_groupText cs
    cases negated
    · exact this
    · exact Nat.lt_succ_of_lt this
  obtain ⟨part, read, members⟩ :=
    readsAs_segments quiet sensitive wide noOpen inner _ [] none room
  refine ⟨⟨part.set.complIf negated, part.depth + 1⟩, ?_, fun d => ?_⟩
  · rw [readBracket?, readBracketFrom?_signedText quiet wide inner unsigned,
      if_neg filled, read]
    simp [sensitive, CharSet.foldIf]
  · have described : part.set.contains d = Glob.belongs cs d := by
      simp [members d, joined, Glob.belongs]
    cases negated <;> simp [CharSet.complIf, CharSet.contains, described]

/-- **A group that is read has no inner bracket**, and is not empty. -/
theorem not_mem_of_readBracket? (inner : Inner cs)
    (unsigned : negated = false → cs.head? ≠ some '^') {part : Part} {rest : List Char}
    (read : readBracket? fs (signedText negated cs) = some (part, rest)) :
    '[' ∉ cs ∧ cs ≠ [] := by
  rw [readBracket?, readBracketFrom?_signedText quiet wide inner unsigned] at read
  split_ifs at read with filled
  obtain ⟨⟨p, left⟩, whole, -⟩ := Option.map_eq_some_iff.mp read
  exact ⟨(readParts?_closed quiet wide inner whole).2, filled⟩

end Brackets

end Pattern

namespace Glob

open Pattern (signedText)

variable {cs : List Char}

/-! ### Groups of characters -/

/-- A group that is a glob by itself. -/
theorem read?_group (ignoreCase : Bool) (filled : cs ≠ []) (noClose : ']' ∉ cs) :
    read? ignoreCase ('[' :: (cs ++ [']'])) = (group? ignoreCase cs).map fun item => [item] := by
  have ended (n : Nat) : readFrom? ignoreCase (n + 1) [] = some [] := by simp [readFrom?]
  rw [read?, readFrom?_closed ignoreCase _ noClose, if_neg filled, List.length_cons, ended]
  cases group? ignoreCase cs <;> rfl

/-- The item of a group, from its text behind the sign of the complement. -/
def signed? (negated : Bool) (cs : List Char) : Option Item :=
  match Pattern.readBracket? (flags false) (signedText negated cs) with
  | some (part, []) => some (.set part.set)
  | _ => none

theorem read?_negative (noClose : ']' ∉ cs) :
    read? false ('[' :: '!' :: (cs ++ [']'])) = (signed? true cs).map fun item => [item] := by
  have noClose : ']' ∉ '!' :: cs := by simpa using noClose
  exact read?_group false (List.cons_ne_nil '!' cs) noClose

theorem group?_positive (positive : cs.head? ≠ some '!') :
    group? false cs = signed? false cs := by
  unfold group?
  split
  · exact absurd rfl positive
  · rfl

/-- The pattern can be read and matches exactly the texts of one character that has the property. -/
def Singles (pattern : String) (P : Char → Prop) : Prop :=
  ∃ m, Predicate.glob? false (.string pattern) = .ok m ∧
    ∀ text : String, m.test text ↔ ∃ d, P d ∧ text.toList = [d]

theorem accepts_set_iff (s : CharSet) (text : List Char) :
    accepts [.set s] text ↔ ∃ d, s.contains d ∧ text = [d] := by
  have single : Item.set s ≠ .many := nofun
  simp [accepts_single_iff single, accepts_nil, Item.test]

/-- **What a group matches**, and when it can be read. -/
theorem singles_iff {pattern : String} {negated : Bool} {P : Char → Prop}
    (form : read? false pattern.toList = (signed? negated cs).map fun item => [item])
    (inner : Inner cs) (unsigned : negated = false → cs.head? ≠ some '^') :
    Singles pattern P ↔
      cs ≠ [] ∧ '[' ∉ cs ∧ ∀ d, P d ↔ (belongs cs d != negated) = true := by
  have readable (filled : cs ≠ []) (noOpen : '[' ∉ cs) :
      Singles pattern P ↔ ∀ d, P d ↔ (belongs cs d != negated) = true := by
    have sensitive : (flags false).ignoreCase = false := rfl
    obtain ⟨part, read, contains⟩ :=
      Pattern.exists_readBracket? rfl rfl sensitive filled noOpen inner unsigned
    have whole : Predicate.glob? false (.string pattern) = .ok (.glob [.set part.set]) := by
      simp only [Predicate.glob?, Value.display, form, signed?, read, Option.map_some]
    simp only [Singles, whole, Except.ok.injEq, exists_eq_left', Matcher.test, accepts_set_iff,
      contains]
    constructor
    · intro meaning d
      simpa using (meaning (String.ofList [d])).symm
    · intro members text
      simp only [members]
  constructor
  · intro singles
    have read : '[' ∉ cs ∧ cs ≠ [] := by
      obtain ⟨m, ok, -⟩ := singles
      unfold Predicate.glob? at ok
      rw [Value.display, form, signed?] at ok
      split at ok
      case h_2 => cases ok
      case h_1 found =>
        obtain ⟨item, found, -⟩ := Option.map_eq_some_iff.mp found
        split at found
        case h_2 => cases found
        case h_1 read => exact Pattern.not_mem_of_readBracket? rfl rfl inner unsigned read
    exact ⟨read.2, read.1, (readable read.2 read.1).mp singles⟩
  · rintro ⟨filled, noOpen, members⟩
    exact (readable filled noOpen).mpr members

/-! ### Signs inside of a group -/

/-- Segments hold only what the text does. -/
theorem subset_of_segments (cs : List Char) :
    (segments cs).1 ⊆ cs ∧ ∀ s ∈ (segments cs).2, s.2 ⊆ cs := by
  fun_induction segments cs with
  | case1 => exact ⟨List.Subset.refl [], nofun⟩
  | case2 rest ih =>
    have wider : rest ⊆ '&' :: '&' :: rest := fun d h => by simp [h]
    refine ⟨List.nil_subset _, List.forall_mem_cons.mpr ⟨List.Subset.trans ih.1 wider, ?_⟩⟩
    exact fun s member => List.Subset.trans (ih.2 s member) wider
  | case3 rest ih =>
    have wider : rest ⊆ '~' :: '~' :: rest := fun d h => by simp [h]
    refine ⟨List.nil_subset _, List.forall_mem_cons.mpr ⟨List.Subset.trans ih.1 wider, ?_⟩⟩
    exact fun s member => List.Subset.trans (ih.2 s member) wider
  | case4 c rest _ _ ih =>
    exact ⟨List.cons_subset_cons c ih.1,
      fun s member => List.Subset.trans (ih.2 s member) (List.subset_cons_self c rest)⟩

/-- No operator adds a character that its right side does not hold. -/
theorem of_folded {d : Char} {others : List (Pattern.SetOp × List Char)}
    (absent : ∀ s ∈ others, d ∉ s.2) {first : Bool} (member : folded d first others) :
    first = true := by
  induction others generalizing first with
  | nil => exact member
  | cons s others ih =>
    obtain ⟨notHere, absent⟩ := List.forall_mem_cons.mp absent
    have left : s.1.test first (s.2.contains d) = true := ih absent member
    have right : s.2.contains d = false := by simpa using notHere
    rw [right] at left
    cases first
    · cases op : s.1 <;> simp [op, Pattern.SetOp.test] at left
    · rfl

/-- A group describes only characters that it lists. -/
theorem mem_of_belongs {d : Char} (member : belongs cs d) : d ∈ cs := by
  by_contra absent
  obtain ⟨first, others⟩ := subset_of_segments cs
  have listed := of_folded (fun s inside h => absent (others s inside h)) member
  exact absent (first (List.contains_iff_mem.mp listed))

/-- Where no sign is doubled, a group is one segment. -/
theorem segments_of_single (noInter : ¬['&', '&'] <:+: cs) (noXor : ¬['~', '~'] <:+: cs) :
    segments cs = (cs, []) := by
  fun_induction segments cs with
  | case1 => rfl
  | case2 rest => exact absurd (List.prefix_append ['&', '&'] rest).isInfix noInter
  | case3 rest => exact absurd (List.prefix_append ['~', '~'] rest).isInfix noXor
  | case4 c rest _ _ ih =>
    rw [ih (fun h => noInter (h.trans (List.suffix_cons c rest).isInfix))
      (fun h => noXor (h.trans (List.suffix_cons c rest).isInfix))]

/-- **Without doubled signs a group describes the characters that it lists.** -/
theorem belongs_iff_mem (noInter : ¬['&', '&'] <:+: cs) (noXor : ¬['~', '~'] <:+: cs) (d : Char) :
    belongs cs d ↔ d ∈ cs := by
  simp [belongs, folded, segments_of_single noInter noXor]

/-! ### Groups and the characters that they list -/

section Characters

variable {c : String} (filled : c ≠ "") (inner : Inner c.toList)
include filled inner

/-- What the complement of a group matches. -/
theorem singles_others_iff {P : Char → Prop} : Singles ("[!" ++ c ++ "]") P ↔
    '[' ∉ c.toList ∧ ∀ d, P d ↔ ¬belongs c.toList d := by
  have others : read? false ("[!" ++ c ++ "]").toList =
      (signed? true c.toList).map fun item => [item] := by
    rw [← read?_negative inner.noClose]
    simp
  rw [singles_iff others inner nofun]
  simp [filled]

variable (positive : c.toList.head? ≠ some '!')
include positive

theorem read?_listed : read? false ("[" ++ c ++ "]").toList =
    (signed? false c.toList).map fun item => [item] := by
  have filled : c.toList ≠ [] := by simpa using filled
  rw [← group?_positive positive, ← read?_group false filled inner.noClose]
  simp

/-- What a group matches that does not begin with a caret. -/
theorem singles_listed_iff {P : Char → Prop} (unsigned : c.toList.head? ≠ some '^') :
    Singles ("[" ++ c ++ "]") P ↔ '[' ∉ c.toList ∧ ∀ d, P d ↔ belongs c.toList d := by
  rw [singles_iff (read?_listed filled inner positive) inner fun _ => unsigned]
  simp [filled]

/-- A group that begins with a caret is a complement, and accepts the closing bracket, which is not
listed. -/
theorem not_singles_of_caret (signed : c.toList.head? = some '^') :
    ¬Singles ("[" ++ c ++ "]") (fun d => d ∈ c.toList) := by
  have listed := read?_listed filled inner positive
  generalize c.toList = cs at *
  obtain ⟨rest, rfl⟩ := List.head?_eq_some_iff.mp signed
  have swapped : read? false ("[" ++ c ++ "]").toList =
      (signed? true rest).map fun item => [item] := listed
  have behind : Inner rest := inner.of_suffix (List.suffix_cons '^' rest)
  rw [singles_iff swapped behind nofun]
  rintro ⟨-, -, members⟩
  have unlisted : belongs rest ']' = false :=
    Bool.eq_false_iff.mpr fun h => behind.noClose (mem_of_belongs h)
  exact inner.noClose ((members ']').mpr (by simp [unlisted]))

end Characters

/-- **A group matches the characters that it lists, and its complement all others**, exactly if it
has no opening bracket and no sign of complement in front, and its doubled signs do not change what
it describes. They do not where there are none. -/
theorem group_characters_iff {c : String} (filled : c ≠ "") (noClose : ']' ∉ c.toList)
    (noRange : '-' ∉ c.toList) (positive : c.toList.head? ≠ some '!') :
    (Singles ("[" ++ c ++ "]") (fun d => d ∈ c.toList) ∧
        Singles ("[!" ++ c ++ "]") (fun d => d ∉ c.toList) ↔
      '[' ∉ c.toList ∧ c.toList.head? ≠ some '^' ∧ ∀ d, belongs c.toList d ↔ d ∈ c.toList) ∧
    (¬['&', '&'] <:+: c.toList → ¬['~', '~'] <:+: c.toList →
      ∀ d, belongs c.toList d ↔ d ∈ c.toList) := by
  refine ⟨?_, belongs_iff_mem⟩
  have inner : Inner c.toList := ⟨noClose, noRange⟩
  by_cases signed : c.toList.head? = some '^'
  · refine iff_of_false (fun h => ?_) fun h => h.2.1 signed
    exact not_singles_of_caret filled inner positive signed h.1
  · rw [singles_others_iff filled inner, singles_listed_iff filled inner positive signed]
    constructor
    · rintro ⟨⟨noOpen, members⟩, -⟩
      exact ⟨noOpen, signed, fun d => (members d).symm⟩
    · rintro ⟨noOpen, -, members⟩
      exact ⟨⟨noOpen, fun d => (members d).symm⟩, noOpen, fun d => (members d).symm.not⟩

/-- Single signs, a backslash and a sign of complement behind the first place stand for
themselves. -/
theorem group_characters_iff_signs :
    ("a&\\~b^" ≠ "" ∧ ']' ∉ "a&\\~b^".toList ∧ '-' ∉ "a&\\~b^".toList ∧
      "a&\\~b^".toList.head? ≠ some '!') ∧
    Singles ("[" ++ "a&\\~b^" ++ "]") (fun d => d ∈ "a&\\~b^".toList) ∧
    Singles ("[!" ++ "a&\\~b^" ++ "]") (fun d => d ∉ "a&\\~b^".toList) := by
  have filled : "a&\\~b^" ≠ "" := by decide
  have noClose : ']' ∉ "a&\\~b^".toList := by decide
  have noRange : '-' ∉ "a&\\~b^".toList := by decide
  have positive : "a&\\~b^".toList.head? ≠ some '!' := by decide
  obtain ⟨exactly, single⟩ := group_characters_iff filled noClose noRange positive
  have members := single (by decide) (by decide)
  exact ⟨⟨filled, noClose, noRange, positive⟩, exactly.mpr ⟨by decide, by decide, members⟩⟩

/-- A caret in front, an opening bracket and a doubled sign do not stand for themselves. -/
theorem group_not_literal :
    ¬Singles ("[" ++ "^a" ++ "]") (fun d => d ∈ "^a".toList) ∧
    ¬Singles ("[" ++ "a[" ++ "]") (fun d => d ∈ "a[".toList) ∧
    ¬Singles ("[!" ++ "a[" ++ "]") (fun d => d ∉ "a[".toList) ∧
    ¬Singles ("[" ++ "a&&b" ++ "]") (fun d => d ∈ "a&&b".toList) ∧
    ¬Singles ("[" ++ "a~~a" ++ "]") (fun d => d ∈ "a~~a".toList) := by
  refine ⟨?_, ?_, ?_, ?_, ?_⟩
  · exact not_singles_of_caret (by decide) ⟨by decide, by decide⟩ (by decide) (by decide)
  · rw [singles_listed_iff (by decide) ⟨by decide, by decide⟩ (by decide) (by decide)]
    exact fun h => absurd h.1 (by decide)
  · rw [singles_others_iff (by decide) ⟨by decide, by decide⟩]
    exact fun h => absurd h.1 (by decide)
  · rw [singles_listed_iff (by decide) ⟨by decide, by decide⟩ (by decide) (by decide)]
    exact fun h => absurd (h.2 'a') (by decide)
  · rw [singles_listed_iff (by decide) ⟨by decide, by decide⟩ (by decide) (by decide)]
    exact fun h => absurd (h.2 '~') (by decide)

end Glob

end DocQuery
