import DocQuery.Json.Reader
import DocQuery.Proofs.Numeric.Text
import DocQuery.Proofs.Value.Json

/-!
# Texts of trees tell the trees apart

The compact text of a tree is followed by a comma, by a closing bracket or by nothing, and can be
split off from what follows: a string ends at its closing quote, a number before the first character
that cannot belong to it, and everything else is fixed by its first character.

* `Json.quote_append_inj` – strings, in which the quote is escaped;
* `Json.number_inj` – numbers, of which only the floating-point ones have a point or an exponent;
* `Json.print_append_inj` – **two trees with the same text are the same tree**;
* `Value.key_inj` – so that the key of a value identifies it.
-/

namespace DocQuery

namespace Json

/-! ### Strings -/

/-- Splits off one character of a quoted text. -/
def unescape : List Char → Option (Char × List Char)
  | '\\' :: 'u' :: '0' :: '0' :: a :: b :: rest => do
    let high ← hexValue? a
    let low ← hexValue? b
    return (Char.ofNat (16 * high + low), rest)
  | '\\' :: c :: rest => (escaped? c).map fun d => (d, rest)
  | c :: rest => some (c, rest)
  | [] => none

theorem hexValue?_hexDigit : ∀ n < 16, hexValue? (hexDigit n) = some n := by decide

theorem unescape_plain {c : Char} (h : c ≠ '\\') (rest : List Char) :
    unescape (c :: rest) = some (c, rest) := by
  unfold unescape
  split
  case h_1 same => exact absurd (List.cons.inj same).1 h
  case h_2 same => exact absurd (List.cons.inj same).1 h
  case h_3 same =>
    obtain ⟨rfl, rfl⟩ := List.cons.inj same
    rfl
  case h_4 same => cases same

/-- The first character of a quoted text and the rest are read back. -/
theorem unescape_escapeChar (c : Char) (rest : List Char) :
    unescape (escapeChar c ++ rest) = some (c, rest) := by
  unfold escapeChar
  split
  -- what is left after the characters with an escape of their own
  case h_8 quote backslash _ _ _ _ _ =>
    split
    case isTrue control =>
      have high := hexValue?_hexDigit (c.toNat / 16) (by omega)
      have low := hexValue?_hexDigit (c.toNat % 16) (by omega)
      have whole : 16 * (c.toNat / 16) + c.toNat % 16 = c.toNat := Nat.div_add_mod _ _
      simp [unescape, high, low, whole]
    case isFalse => exact unescape_plain backslash rest
  all_goals rfl

/-- The closing quote does not begin the text of a character. -/
theorem escapeChar_append_ne_quote (c : Char) (s t : List Char) : escapeChar c ++ s ≠ '"' :: t := by
  intro h
  have read := unescape_escapeChar c s
  rw [h] at read
  obtain ⟨rfl, rfl⟩ := Prod.mk.inj (Option.some.inj read)
  cases h

theorem escape_append_inj {cs ds s t : List Char}
    (h : cs.flatMap escapeChar ++ '"' :: s = ds.flatMap escapeChar ++ '"' :: t) :
    cs = ds ∧ s = t := by
  induction cs generalizing ds with
  | nil =>
    cases ds with
    | nil => exact ⟨rfl, (List.cons.inj h).2⟩
    | cons d ds =>
      rw [List.flatMap_cons, List.append_assoc] at h
      exact absurd h.symm (escapeChar_append_ne_quote d _ _)
  | cons c cs ih =>
    cases ds with
    | nil =>
      rw [List.flatMap_cons, List.append_assoc] at h
      exact absurd h (escapeChar_append_ne_quote c _ _)
    | cons d ds =>
      rw [List.flatMap_cons, List.append_assoc, List.flatMap_cons, List.append_assoc] at h
      have read := congrArg unescape h
      rw [unescape_escapeChar, unescape_escapeChar] at read
      obtain ⟨rfl, rest⟩ := Prod.mk.inj (Option.some.inj read)
      obtain ⟨rfl, rfl⟩ := ih rest
      exact ⟨rfl, rfl⟩

theorem quote_append_inj {a b : String} {s t : List Char} (h : quote a ++ s = quote b ++ t) :
    a = b ∧ s = t := by
  unfold quote at h
  simp only [List.cons_append, List.append_assoc, List.nil_append] at h
  obtain ⟨chars, rest⟩ := escape_append_inj (List.cons.inj h).2
  exact ⟨String.toList_inj.1 chars, rest⟩

/-! ### Numbers -/

theorem splitSign_toString_int (i : Int) :
    splitSign (toString i).toList = (decide (i < 0), Nat.toDigits 10 i.natAbs) := by
  let p : DecimalParts := ⟨Nat.toDigits 10 i.natAbs, none, none, Nat.toDigits_ne_nil,
    fun _ => isDigit_of_mem_toDigits, by simp⟩
  have text : p.text = Nat.toDigits 10 i.natAbs := by simp [p, DecimalParts.text, DecimalParts.tail]
  rw [toString_int, ← text, p.splitSign_text]

theorem toString_int_inj {i j : Int} (h : (toString i).toList = (toString j).toList) : i = j := by
  have parts := congrArg splitSign h
  rw [splitSign_toString_int, splitSign_toString_int] at parts
  obtain ⟨sign, digits⟩ := Prod.mk.inj parts
  have size := congrArg digitsValue digits
  rw [digitsValue_toDigits, digitsValue_toDigits] at size
  have sign := decide_eq_decide.1 sign
  omega

/-- A floating-point number has a point or an exponent. -/
theorem exists_mark_mem_text {x : Double} (finite : x.isFinite = true) :
    ∃ c ∈ (x.text (.json .double)).toList, c = '.' ∨ c = 'e' := by
  have layout (d : Decimal) :
      ∃ c ∈ (d.layout (.json .double)).toList, c = '.' ∨ c = 'e' := by
    unfold Decimal.layout
    dsimp only
    split
    · split
      · exact ⟨'.', by simp [FloatStyle.json], .inl rfl⟩
      · split
        · exact ⟨'.', by simp, .inl rfl⟩
        · exact ⟨'.', by simp, .inl rfl⟩
    · exact ⟨'e', by simp, .inr rfl⟩
  have signed (negative : Bool) {body : String} (h : ∃ c ∈ body.toList, c = '.' ∨ c = 'e') :
      ∃ c ∈ (if negative then "-" ++ body else body).toList, c = '.' ∨ c = 'e' := by
    obtain ⟨c, mem, mark⟩ := h
    refine ⟨c, ?_, mark⟩
    cases negative
    · exact mem
    · simp [mem]
  cases x with
  | nan => cases finite
  | infinity => cases finite
  | finite negative m e h =>
    unfold Binary.text
    refine signed negative ?_
    split
    · exact ⟨'.', by decide, .inl rfl⟩
    · exact layout _

/-- An integer has neither. -/
theorem not_mark_of_mem_toString {i : Int} {c : Char} (h : c ∈ (toString i).toList) :
    c ≠ '.' ∧ c ≠ 'e' := by
  rw [toString_int, signed] at h
  have digit (h : c ∈ Nat.toDigits 10 i.natAbs) : c ≠ '.' ∧ c ≠ 'e' := by
    have := isDigit_of_mem_toDigits h
    constructor <;> rintro rfl <;> cases this
  split at h
  · rcases List.mem_cons.1 h with rfl | h
    · decide
    · exact digit h
  · exact digit h

/-- The text cannot be part of a number: it is empty or begins with something else. -/
def Apart (s : List Char) : Prop := ∀ c ∈ s.head?, isNumeral c = false

/-- A run of characters of numbers is split off from what cannot be part of it. -/
theorem numerals_append_inj {cs ds s t : List Char} (hcs : ∀ c ∈ cs, isNumeral c = true)
    (hds : ∀ c ∈ ds, isNumeral c = true) (hs : Apart s) (ht : Apart t) (h : cs ++ s = ds ++ t) :
    cs = ds ∧ s = t := by
  have run {cs s : List Char} (hcs : ∀ c ∈ cs, isNumeral c = true) (hs : Apart s) :
      (cs ++ s).takeWhile isNumeral = cs := by
    rw [List.takeWhile_append_of_pos hcs]
    cases s with
    | nil => exact List.append_nil cs
    | cons c s => rw [List.takeWhile_cons, hs c rfl]; exact List.append_nil cs
  have same : cs = ds := by rw [← run hcs hs, h, run hds ht]
  exact ⟨same, List.append_cancel_left (same ▸ h)⟩

/-- The numbers of data. -/
inductive IsNumber : Json → Prop
  | int (i : Int) : IsNumber (.int i)
  | float {x : Double} : x.isFinite = true → IsNumber (.float x)

theorem print_float {x : Double} (finite : x.isFinite = true) :
    print (.float x) = (x.text (.json .double)).toList := by
  rw [print, if_pos finite]

theorem isNumeral_of_mem_print {j : Json} (hj : IsNumber j) {c : Char} (h : c ∈ print j) :
    isNumeral c = true := by
  cases hj with
  | int i => exact isNumeral_of_mem_toString h
  | float finite => exact Binary.isNumeral_of_mem_text finite (print_float finite ▸ h)

/-- **Numbers with the same text are the same**, and of one type. -/
theorem number_inj {j k : Json} (hj : IsNumber j) (hk : IsNumber k) (h : print j = print k) :
    j = k := by
  have mixed {i : Int} {x : Double} (finite : x.isFinite = true) :
      (toString i).toList ≠ print (.float x) := by
    intro h
    obtain ⟨c, mem, mark⟩ := exists_mark_mem_text finite
    rw [← print_float finite, ← h] at mem
    obtain ⟨point, exponent⟩ := not_mark_of_mem_toString mem
    exact mark.elim point exponent
  cases hj with
  | int i =>
    cases hk with
    | int i' => rw [toString_int_inj h]
    | float finite => exact absurd h (mixed finite)
  | float finite =>
    cases hk with
    | int i => exact absurd h.symm (mixed finite)
    | float finite' =>
      have read := congrArg readDecimal? h
      rw [print_float finite, print_float finite', Binary.readDecimal?_text _ finite,
        Binary.readDecimal?_text _ finite'] at read
      rw [Option.some.inj read]

/-! ### Trees -/

/-- What a text begins with. -/
inductive Shape where
  | null
  | bool (b : Bool)
  | number
  | string
  | array
  | object
  deriving DecidableEq

/-- What begins with a character. -/
def shapeOf? (c : Char) : Option Shape :=
  if isNumeral c then some .number
  else match c with
    | 'n' => some .null
    | 't' => some (.bool true)
    | 'f' => some (.bool false)
    | '"' => some .string
    | '[' => some .array
    | '\x7b' => some .object
    | _ => none

/-- The shape of a tree. -/
def shape : Json → Shape
  | .null => .null
  | .bool b => .bool b
  | .int _ | .float _ | .single _ => .number
  | .string _ => .string
  | .array _ => .array
  | .object _ => .object

theorem print_number_eq_cons {j : Json} (hj : IsNumber j) : ∃ c cs, print j = c :: cs := by
  cases h : print j with
  | cons c cs => exact ⟨c, cs, rfl⟩
  | nil =>
    cases hj with
    | int i =>
      have read := splitSign_toString_int i
      rw [show (toString i).toList = [] from h] at read
      exact absurd (Prod.mk.inj read).2.symm Nat.toDigits_ne_nil
    | float finite =>
      obtain ⟨c, mem, -⟩ := exists_mark_mem_text finite
      rw [← print_float finite, h] at mem
      cases mem

/-- The first character of a text tells the shape of the tree. -/
theorem print_eq_cons {j : Json} (hj : j.isData = true) :
    ∃ c cs, print j = c :: cs ∧ shapeOf? c = some j.shape := by
  have number (hj : IsNumber j) : ∃ c cs, print j = c :: cs ∧ shapeOf? c = some .number := by
    obtain ⟨c, cs, eq⟩ := print_number_eq_cons hj
    refine ⟨c, cs, eq, if_pos (isNumeral_of_mem_print hj ?_)⟩
    rw [eq]
    exact List.mem_cons_self
  cases j with
  | null => exact ⟨_, _, rfl, rfl⟩
  | bool b => cases b <;> exact ⟨_, _, rfl, rfl⟩
  | int i => exact number (.int i)
  | float x => exact number (.float hj)
  | single x => cases hj
  | string s => exact ⟨_, _, rfl, rfl⟩
  | array items => exact ⟨_, _, rfl, rfl⟩
  | object members => exact ⟨_, _, rfl, rfl⟩

theorem shape_eq {j k : Json} (hj : j.isData = true) (hk : k.isData = true) {s t : List Char}
    (h : print j ++ s = print k ++ t) : j.shape = k.shape := by
  obtain ⟨c, cs, printj, shapej⟩ := print_eq_cons hj
  obtain ⟨d, ds, printk, shapek⟩ := print_eq_cons hk
  rw [printj, printk] at h
  rw [(List.cons.inj h).1] at shapej
  exact Option.some.inj (shapej.symm.trans shapek)

/-- The text of a tree does not begin with a closing bracket. -/
theorem print_append_ne {j : Json} (hj : j.isData = true) {s t : List Char} {c : Char}
    (hc : shapeOf? c = none) : print j ++ s ≠ c :: t := by
  obtain ⟨d, ds, printj, shapej⟩ := print_eq_cons hj
  rw [printj]
  intro h
  rw [(List.cons.inj h).1, hc] at shapej
  cases shapej

/-- What follows the first of some items: a comma and the others, or the closing bracket. -/
def restOf {α : Type} (close : Char) (text : List α → List Char) : List α → List Char
  | [] => [close]
  | items => ',' :: text items

section Rest

variable {α : Type} {close : Char} {text : List α → List Char} {s t : List Char}

/-- Neither the comma nor the closing bracket can be part of a number. -/
theorem apart_restOf (hclose : isNumeral close = false) (items : List α) :
    Apart (restOf close text items ++ s) := by
  intro c hc
  cases items with
  | nil =>
    obtain rfl := Option.mem_some_iff.1 hc
    exact hclose
  | cons =>
    obtain rfl := Option.mem_some_iff.1 hc
    rfl

/-- The comma and the closing bracket tell whether there are others. -/
theorem restOf_append_inj (hclose : close ≠ ',') {as bs : List α}
    (others : text as ++ s = text bs ++ t → as = bs ∧ s = t)
    (h : restOf close text as ++ s = restOf close text bs ++ t) : as = bs ∧ s = t := by
  cases as with
  | nil =>
    cases bs with
    | nil => exact ⟨rfl, (List.cons.inj h).2⟩
    | cons => exact absurd (List.cons.inj h).1 hclose
  | cons =>
    cases bs with
    | nil => exact absurd (List.cons.inj h).1.symm hclose
    | cons => exact others (List.cons.inj h).2

end Rest

theorem printItems_cons (j : Json) (rest : List Json) :
    printItems (j :: rest) = print j ++ restOf ']' printItems rest := by
  cases rest <;> rfl

theorem printMembers_cons (m : String × Json) (rest : List (String × Json)) :
    printMembers (m :: rest) =
      quote m.1 ++ ':' :: (print m.2 ++ restOf '\x7d' printMembers rest) := by
  cases rest <;> rfl

mutual

/-- **Trees with the same text are the same**, whatever follows that is not part of a number. -/
theorem print_append_inj (j k : Json) (hj : j.isData = true) (hk : k.isData = true)
    {s t : List Char} (hs : Apart s) (ht : Apart t) (h : print j ++ s = print k ++ t) :
    j = k ∧ s = t := by
  have same := shape_eq hj hk h
  -- only among numbers the first character leaves the constructor open
  have number (hj : IsNumber j) (hk : IsNumber k) : j = k ∧ s = t := by
    obtain ⟨text, rest⟩ := numerals_append_inj (fun c => isNumeral_of_mem_print hj)
      (fun c => isNumeral_of_mem_print hk) hs ht h
    exact ⟨number_inj hj hk text, rest⟩
  cases j with
  | null =>
    cases k <;> cases same
    exact ⟨rfl, List.append_cancel_left h⟩
  | bool b =>
    cases k <;> cases same
    exact ⟨rfl, List.append_cancel_left h⟩
  | int i =>
    cases k <;> cases same
    · exact number (.int i) (.int _)
    · exact number (.int i) (.float hk)
    · cases hk
  | float x =>
    cases k <;> cases same
    · exact number (.float hj) (.int _)
    · exact number (.float hj) (.float hk)
    · cases hk
  | single x => cases hj
  | string a =>
    cases k <;> cases same
    obtain ⟨rfl, rest⟩ := quote_append_inj h
    exact ⟨rfl, rest⟩
  | array items =>
    cases k <;> cases same
    obtain ⟨rfl, rest⟩ := printItems_append_inj items _ hj hk (List.cons.inj h).2
    exact ⟨rfl, rest⟩
  | object members =>
    cases k <;> cases same
    obtain ⟨rfl, rest⟩ := printMembers_append_inj members _ (Bool.and_eq_true_iff.1 hj).2
      (Bool.and_eq_true_iff.1 hk).2 (List.cons.inj h).2
    exact ⟨rfl, rest⟩

/-- `print_append_inj` item by item. -/
theorem printItems_append_inj (as bs : List Json) (ha : areData as = true)
    (hb : areData bs = true) {s t : List Char} (h : printItems as ++ s = printItems bs ++ t) :
    as = bs ∧ s = t := by
  cases as with
  | nil =>
    cases bs with
    | nil => exact ⟨rfl, (List.cons.inj h).2⟩
    | cons b bs =>
      rw [printItems_cons, List.append_assoc] at h
      exact absurd h.symm (print_append_ne (Bool.and_eq_true_iff.1 hb).1 rfl)
  | cons a as =>
    obtain ⟨ha, has⟩ := Bool.and_eq_true_iff.1 ha
    cases bs with
    | nil =>
      rw [printItems_cons, List.append_assoc] at h
      exact absurd h (print_append_ne ha rfl)
    | cons b bs =>
      obtain ⟨hb, hbs⟩ := Bool.and_eq_true_iff.1 hb
      rw [printItems_cons, List.append_assoc, printItems_cons, List.append_assoc] at h
      obtain ⟨rfl, rest⟩ :=
        print_append_inj a b ha hb (apart_restOf rfl as) (apart_restOf rfl bs) h
      obtain ⟨rfl, rfl⟩ :=
        restOf_append_inj (by decide) (printItems_append_inj as bs has hbs) rest
      exact ⟨rfl, rfl⟩

/-- `print_append_inj` member by member. -/
theorem printMembers_append_inj (as bs : List (String × Json)) (ha : haveData as = true)
    (hb : haveData bs = true) {s t : List Char}
    (h : printMembers as ++ s = printMembers bs ++ t) : as = bs ∧ s = t := by
  match as, bs with
  | [], [] => exact ⟨rfl, (List.cons.inj h).2⟩
  | [], b :: bs =>
    rw [printMembers_cons, List.append_assoc] at h
    exact absurd (List.cons.inj h).1 (by decide)
  | a :: as, [] =>
    rw [printMembers_cons, List.append_assoc] at h
    exact absurd (List.cons.inj h).1 (by decide)
  | (name, j) :: as, (name', k) :: bs =>
    obtain ⟨hj, has⟩ := Bool.and_eq_true_iff.1 ha
    obtain ⟨hk, hbs⟩ := Bool.and_eq_true_iff.1 hb
    rw [printMembers_cons, List.append_assoc, printMembers_cons, List.append_assoc] at h
    obtain ⟨rfl, h⟩ := quote_append_inj h
    rw [List.cons_append, List.append_assoc, List.cons_append, List.append_assoc] at h
    obtain ⟨rfl, rest⟩ := print_append_inj j k hj hk (apart_restOf rfl as) (apart_restOf rfl bs)
      (List.cons.inj h).2
    obtain ⟨rfl, rfl⟩ :=
      restOf_append_inj (by decide) (printMembers_append_inj as bs has hbs) rest
    exact ⟨rfl, rfl⟩

end

/-- **Trees with the same text are the same.** -/
theorem render_inj {j k : Json} (hj : j.isData = true) (hk : k.isData = true)
    (h : j.render = k.render) : j = k := by
  have apart : Apart [] := nofun
  refine (print_append_inj j k hj hk apart apart ?_).1
  rw [List.append_nil, List.append_nil]
  exact String.ofList_injective h

end Json

namespace Value

/-- **The key of a value identifies it.** -/
theorem key_inj {v w : Value} (hv : v.isData = true) (hw : w.isData = true)
    (h : v.key = w.key) : v = w :=
  toJson_inj hv hw (Json.render_inj (isData_toJson v hv) (isData_toJson w hw) h)

end Value

end DocQuery
