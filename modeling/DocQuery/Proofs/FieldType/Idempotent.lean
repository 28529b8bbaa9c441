import DocQuery.Proofs.FieldType
import DocQuery.Proofs.Numeric.Floor

/-!
# Coercion is idempotent

Typed input is coerced from text, and what comes out may be coerced again, as a value. The second
time nothing changes.

* `FieldType.Settled` – an item of an array that its type leaves as it is;
* `settled_floorToInt`, `settled_narrow` – numbers are settled once they are rounded down or
  narrowed, also those outside the range of integers;
* `settled_coerceScalar`, `settled_coerceItem` – so is every piece of input, and what is made of any
  item;
* `FieldType.Plain` – neither text nor an array;
* `coerceValue_of_plain`, `normalize_plain_or_text` – what is plain and settled is left alone, and the
  text that is shown for it would be kept, too;
* `coerce_idempotent` – **coercing twice is coercing once**, from text and from values of any shape.
-/

namespace DocQuery

namespace FieldType

variable {t : FieldType}

/-! ### Scalar types -/

@[simp]
theorem element_element (t : FieldType) : t.element.element = t.element := by
  induction t with
  | array t ih => exact ih
  | _ => rfl

/-- A piece of input is read by the scalar type at the bottom. -/
theorem coerceScalar_element (t : FieldType) (cs : List Char) :
    coerceScalar t.element cs = coerceScalar t cs := by
  rw [coerceScalar, coerceScalar, element_element]

/-! ### Settled items -/

/-- The type leaves an item of an array as it is. -/
def Settled (t : FieldType) (v : Value) : Prop := coerceItem t v = v

theorem settled_null (t : FieldType) : Settled t .null := by
  cases t <;> rfl

/-- Rounding down makes an integer of a number, or leaves it floating. -/
theorem floorToInt_cases (x : Double) :
    (∃ i, floorToInt x = .int i) ∨ floorToInt x = .float x.floor := by
  unfold floorToInt
  dsimp only
  split
  · split
    · exact .inl ⟨_, rfl⟩
    · exact .inr rfl
  · exact .inr rfl

/-- Narrowing makes an integer of a number, or leaves it as it is. -/
theorem narrow_cases (x : Double) : (∃ i, narrow x = .int i) ∨ narrow x = .float x := by
  unfold narrow
  split
  · split
    · exact .inl ⟨_, rfl⟩
    · exact .inr rfl
  · exact .inr rfl

/-- **A number that was rounded down is not rounded again**, whether or not it fits an integer. -/
theorem settled_floorToInt (x : Double) : Settled .int (floorToInt x) := by
  rcases floorToInt_cases x with ⟨i, integer⟩ | floating
  · rw [integer]
    rfl
  · have again : floorToInt x.floor = floorToInt x := by
      rw [floorToInt, floorToInt, Binary.floor_floor]
    rw [floating]
    exact again.trans floating

theorem settled_narrow (x : Double) : Settled .number (narrow x) := by
  rcases narrow_cases x with ⟨i, integer⟩ | floating
  · rw [integer]
    rfl
  · rw [floating]
    exact floating

/-- **What is made of a piece of input**: null, a number or a truth value as the type wants it, or
the text itself. -/
theorem coerceScalar_cases (t : FieldType) (cs : List Char) :
    coerceScalar t cs = .null ∨ coerceScalar t cs = .string (String.ofList cs) ∨
      (t.element = .int ∧ ∃ x, coerceScalar t cs = floorToInt x) ∨
      (t.element = .float ∧ ∃ x, coerceScalar t cs = .float x) ∨
      (t.element = .number ∧ ∃ x, coerceScalar t cs = narrow x) ∨
      (t.element = .bool ∧ ∃ b, coerceScalar t cs = .bool b) := by
  rw [coerceScalar]
  split
  case isTrue => exact .inl rfl
  case isFalse =>
    refine .inr ?_
    cases scalar : t.element with
    | int =>
      cases readNumber? cs with
      | some x => exact .inr (.inl ⟨rfl, x, rfl⟩)
      | none => exact .inl rfl
    | float =>
      cases readNumber? cs with
      | some x => exact .inr (.inr (.inl ⟨rfl, x, rfl⟩))
      | none => exact .inl rfl
    | number =>
      cases readNumber? cs with
      | some x => exact .inr (.inr (.inr (.inl ⟨rfl, x, rfl⟩)))
      | none => exact .inl rfl
    | bool => exact .inr (.inr (.inr (.inr ⟨rfl, readBool cs, rfl⟩)))
    | _ => exact .inl rfl

/-- **A piece of input is settled once it is read.** -/
theorem settled_coerceScalar (t : FieldType) (cs : List Char) :
    Settled t.element (coerceScalar t cs) := by
  rcases coerceScalar_cases t cs with null | text | ⟨scalar, x, number⟩ | ⟨scalar, x, number⟩ |
    ⟨scalar, x, number⟩ | ⟨scalar, b, truth⟩
  · rw [null]
    exact settled_null _
  · -- text that is kept is read the same way again
    have again : coerceItem t.element (.string (String.ofList cs)) = coerceScalar t cs := by
      rw [coerceItem, String.toList_ofList, coerceScalar_element]
    rw [text] at again ⊢
    exact again
  · rw [scalar, number]
    exact settled_floorToInt x
  · rw [scalar, number]
    rfl
  · rw [scalar, number]
    exact settled_narrow x
  · rw [scalar, truth]
    rfl

/-- **The text shown for a scalar value is read as it is**: it is not the word for null, and it is
not cut. -/
theorem display_literal {v : Value}
    (h : (∃ b, v = .bool b) ∨ (∃ i, v = .int i) ∨ ∃ x, v = .float x) :
    isNullWord v.display.toList = false ∧ v.display.toList.contains ',' = false := by
  rcases h with ⟨b, rfl⟩ | ⟨i, rfl⟩ | ⟨x, rfl⟩
  · cases b <;> decide
  · have numeral : ∀ c ∈ (Value.int i).display.toList, isNumeral c = true := by
      rw [show (Value.int i).display = toString i.toInt by simp [Value.display, Value.text]]
      exact fun c => isNumeral_of_mem_toString
    exact ⟨isNullWord_numerals numeral, comma_notMem_numerals numeral⟩
  · rw [show (Value.float x).display = x.text .display by simp [Value.display, Value.text]]
    cases x with
    | nan => decide
    | infinity negative => cases negative <;> decide
    | finite negative m e h =>
      have numeral : ∀ c ∈ ((Binary.finite negative m e h : Double).text .display).toList,
          isNumeral c = true := fun c => Binary.isNumeral_of_mem_text rfl
      exact ⟨isNullWord_numerals numeral, comma_notMem_numerals numeral⟩

/-- Where text is wanted, a piece of input is kept unless it is the word for null. -/
theorem coerceScalar_textual (h : t = .string ∨ t = .uuid ∨ t = .datetime) {cs : List Char}
    (notNull : isNullWord cs = false) : coerceScalar t cs = .string (String.ofList cs) := by
  rw [coerceScalar, notNull]
  rcases h with rfl | rfl | rfl <;> rfl

/-- **What is made of a value**: itself, a number or a truth value as the type wants it, or its
text. -/
theorem normalize_cases (t : FieldType) (v : Value) :
    normalize t v = v ∨
      (t = .int ∧ ∃ x, normalize t v = floorToInt x) ∨
      (t = .float ∧ ∃ x, normalize t v = .float x) ∨
      (t = .number ∧ ∃ x, normalize t v = narrow x) ∨
      (t = .bool ∧ ∃ b, normalize t v = .bool b) ∨
      ((t = .string ∨ t = .uuid ∨ t = .datetime) ∧ normalize t v = .string v.display ∧
        ((∃ b, v = .bool b) ∨ (∃ i, v = .int i) ∨ ∃ x, v = .float x)) := by
  unfold normalize
  split
  case h_1 => exact .inl rfl
  case h_2 x => exact .inr (.inl ⟨rfl, x, rfl⟩)
  case h_3 i => exact .inr (.inr (.inl ⟨rfl, _, rfl⟩))
  case h_4 x => exact .inr (.inr (.inr (.inl ⟨rfl, x, rfl⟩)))
  case h_5 i => exact .inr (.inr (.inr (.inr (.inl ⟨rfl, _, rfl⟩))))
  case h_6 notNull _ _ _ _ =>
    split
    case isFalse => exact .inl rfl
    case isTrue textual =>
      cases v with
      | null => exact absurd rfl notNull
      | bool b => exact .inr (.inr (.inr (.inr (.inr ⟨textual, rfl, .inl ⟨b, rfl⟩⟩))))
      | int i => exact .inr (.inr (.inr (.inr (.inr ⟨textual, rfl, .inr (.inl ⟨i, rfl⟩)⟩))))
      | float x => exact .inr (.inr (.inr (.inr (.inr ⟨textual, rfl, .inr (.inr ⟨x, rfl⟩)⟩))))
      | _ => exact .inl rfl

/-- **What is made of an item is settled.** -/
theorem settled_coerceItem (t : FieldType) (v : Value) :
    Settled t.element (coerceItem t.element v) := by
  by_cases text : ∃ s, v = .string s
  · obtain ⟨s, rfl⟩ := text
    have settled := settled_coerceScalar t.element s.toList
    rwa [element_element] at settled
  · have value : coerceItem t.element v = normalize t.element v := by
      cases v with
      | string s => exact absurd ⟨s, rfl⟩ text
      | _ => rfl
    rw [value]
    rcases normalize_cases t.element v with same | ⟨scalar, x, number⟩ | ⟨scalar, x, number⟩ |
      ⟨scalar, x, number⟩ | ⟨scalar, b, truth⟩ | ⟨textual, shown, kind⟩
    · rw [same]
      exact value.trans same
    · rw [number, scalar]
      exact settled_floorToInt x
    · rw [number, scalar]
      rfl
    · rw [number, scalar]
      exact settled_narrow x
    · rw [truth, scalar]
      rfl
    · rw [shown]
      have kept := coerceScalar_textual textual (display_literal kind).1
      rwa [String.ofList_toList] at kept

/-! ### Values and texts -/

/-- Neither text nor an array. -/
def Plain (v : Value) : Prop := v.asString? = none ∧ v.asArray? = none

theorem plain_floorToInt (x : Double) : Plain (floorToInt x) := by
  rcases floorToInt_cases x with ⟨i, made⟩ | made
  · exact made ▸ ⟨rfl, rfl⟩
  · exact made ▸ ⟨rfl, rfl⟩

theorem plain_narrow (x : Double) : Plain (narrow x) := by
  rcases narrow_cases x with ⟨i, made⟩ | made
  · exact made ▸ ⟨rfl, rfl⟩
  · exact made ▸ ⟨rfl, rfl⟩

/-- A piece of input stays text or becomes something plain. -/
theorem coerceScalar_text_or_plain (t : FieldType) (cs : List Char) :
    coerceScalar t cs = .string (String.ofList cs) ∨ Plain (coerceScalar t cs) := by
  rcases coerceScalar_cases t cs with null | text | ⟨-, x, number⟩ | ⟨-, x, number⟩ |
    ⟨-, x, number⟩ | ⟨-, b, truth⟩
  · exact .inr (null ▸ ⟨rfl, rfl⟩)
  · exact .inl text
  · exact .inr (number ▸ plain_floorToInt x)
  · exact .inr (number ▸ ⟨rfl, rfl⟩)
  · exact .inr (number ▸ plain_narrow x)
  · exact .inr (truth ▸ ⟨rfl, rfl⟩)

/-- Input without commas that is not the word for null is one piece. -/
theorem coerce_of_uncut {raw : String} (notNull : isNullWord raw.toList = false)
    (notCut : raw.toList.contains ',' = false) :
    coerce (some t) raw = coerceScalar t raw.toList := by
  rw [coerce, notNull, Option.map_some, ← coerceScalar_element]
  cases scalar : t.element with
  | object =>
    rw [coerceScalar, notNull]
    exact congrArg Value.string (String.ofList_toList (s := raw)).symm
  | _ => exact (if_neg Bool.false_ne_true).trans (if_neg (notCut ▸ Bool.false_ne_true))

/-- What is plain stays so, or is read as its text, which is kept. -/
theorem normalize_plain_or_text {v : Value} (plain : Plain v) : Plain (normalize t.element v) ∨
    (normalize t.element v = .string v.display ∧
      coerce (some t) v.display = .string v.display) := by
  rcases normalize_cases t.element v with same | ⟨-, x, number⟩ | ⟨-, x, number⟩ |
    ⟨-, x, number⟩ | ⟨-, b, truth⟩ | ⟨textual, shown, kind⟩
  · exact .inl (same.symm ▸ plain)
  · exact .inl (number ▸ plain_floorToInt x)
  · exact .inl (number ▸ ⟨rfl, rfl⟩)
  · exact .inl (number ▸ plain_narrow x)
  · exact .inl (truth ▸ ⟨rfl, rfl⟩)
  · refine .inr ⟨shown, ?_⟩
    obtain ⟨notNull, notCut⟩ := display_literal kind
    have kept := coerceScalar_textual textual notNull
    rw [coerceScalar_element, String.ofList_toList] at kept
    exact (coerce_of_uncut notNull notCut).trans kept

/-- A plain value is left alone if it is settled. -/
theorem coerceValue_of_plain {v : Value} (plain : Plain v) (settled : Settled t.element v) :
    coerceValue (some t) v = v := by
  cases v with
  | string s => cases plain.1
  | array items => cases plain.2
  | _ => exact settled

/-- An array is left alone if its items are settled. -/
theorem coerceValue_array {items : List Value} (settled : ∀ v ∈ items, Settled t.element v) :
    coerceValue (some t) (.array items) = .array items := by
  rw [coerceValue, (List.map_congr_left settled).trans (List.map_id' items)]

/-- **What is made of input**: null, the text itself, an array of pieces when it is cut, or a single
piece. -/
theorem coerce_cases (t : FieldType) (raw : String) :
    coerce (some t) raw = .null ∨ coerce (some t) raw = .string raw ∨
      (∃ pieces : List (List Char), coerce (some t) raw = .array (pieces.map (coerceScalar t))) ∨
      coerce (some t) raw = coerceScalar t raw.toList := by
  have scalar : coerceScalar t.element = coerceScalar t := funext (coerceScalar_element t)
  rw [coerce, Option.map_some, ← scalar]
  split
  case isTrue => exact .inl rfl
  case isFalse =>
    refine .inr ?_
    cases t.element with
    | object => exact .inl rfl
    | _ =>
      refine .inr ?_
      cases raw.toList.contains ',' with
      | true => exact .inl ⟨_, rfl⟩
      | false => exact .inr rfl

/-- **Input that was coerced is left alone.** -/
theorem coerceValue_coerce (t : FieldType) (raw : String) :
    coerceValue (some t) (coerce (some t) raw) = coerce (some t) raw := by
  -- text that is kept is the input itself, which is coerced the same way again
  have text (kept : coerce (some t) raw = .string raw) :
      coerceValue (some t) (coerce (some t) raw) = coerce (some t) raw :=
    (congrArg (coerceValue (some t)) kept).trans rfl
  rcases coerce_cases t raw with null | kept | ⟨pieces, cut⟩ | single
  · rw [null]
    exact settled_null _
  · exact text kept
  · rw [cut]
    refine coerceValue_array fun v hv => ?_
    obtain ⟨cs, -, rfl⟩ := List.mem_map.mp hv
    exact settled_coerceScalar t cs
  · rcases coerceScalar_text_or_plain t raw.toList with kept | plain
    · rw [String.ofList_toList] at kept
      exact text (single.trans kept)
    · rw [single]
      exact coerceValue_of_plain plain (settled_coerceScalar t raw.toList)

/-- **A value that was coerced is left alone.** -/
theorem coerceValue_coerceValue (t : FieldType) (v : Value) :
    coerceValue (some t) (coerceValue (some t) v) = coerceValue (some t) v := by
  -- what is plain is brought to the type as an item of an array is
  have plain (plain : Plain v) (value : coerceValue (some t) v = normalize t.element v)
      (item : coerceItem t.element v = normalize t.element v) :
      coerceValue (some t) (coerceValue (some t) v) = coerceValue (some t) v := by
    rw [value]
    rcases normalize_plain_or_text plain with stays | ⟨shown, kept⟩
    · exact coerceValue_of_plain stays (item ▸ settled_coerceItem t v)
    · rw [shown]
      exact kept
  cases v with
  | string raw => exact coerceValue_coerce t raw
  | array items =>
    refine coerceValue_array fun v hv => ?_
    obtain ⟨v, -, rfl⟩ := List.mem_map.mp hv
    exact settled_coerceItem t v
  | _ => exact plain ⟨rfl, rfl⟩ rfl rfl

/-- **Coercion is idempotent.** Input that was coerced to a type, and any value that was, is left as
it is when it is coerced to that type again, whatever the type and the shape of the value. -/
theorem coerce_idempotent (type : Option FieldType) :
    (∀ raw : String, coerceValue type (coerce type raw) = coerce type raw) ∧
      ∀ v : Value, coerceValue type (coerceValue type v) = coerceValue type v := by
  cases type with
  | none => exact ⟨fun _ => rfl, fun _ => rfl⟩
  | some t => exact ⟨coerceValue_coerce t, coerceValue_coerceValue t⟩

/-- An item that became null stays null where truth values are wanted. -/
example : coerceValue (some .bool) (coerce (some .bool) "yes, null, 0") =
    .array [.bool true, .null, .bool false] := rfl

end FieldType

end DocQuery
