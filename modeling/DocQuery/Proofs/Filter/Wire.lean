import DocQuery.Filter.Wire
import DocQuery.Proofs.Value.Json

/-!
# The grammar of filters

Filters are read and written by two functions that know nothing of each other. What they share is a
grammar, in which an attribute may have the name of a connective: only the number of items tells the
forms apart.

* `Filter.Written` – **the grammar**;
* `Filter.exists_ofJson_iff` – reading accepts what the grammar derives and nothing else;
* `Filter.Written.toJson_ofJson`, `Filter.ofJson_toJson` – what was read is written as it was, and
  what was written is read as it was;
* `Filter.wire_grammar` – all of it, for trees and filters that hold data.
-/

namespace DocQuery

/-! ### Operators -/

namespace FilterOp

/-- The names of operators. -/
def names : List String :=
  ["Eq", "NotEq", "In", "NotIn", "Lt", "Lte", "Gt", "Gte", "Glob", "NotGlob", "IGlob", "NotIGlob",
    "Contains", "ContainsAny", "ContainsAllTokens", "Regex"]

theorem ofName?_name (op : FilterOp) : ofName? op.name = some op := by
  cases op <;> decide

theorem name_of_ofName? {s : String} {op : FilterOp} (h : ofName? s = some op) : op.name = s :=
  eq_of_beq (List.find?_some (p := fun op : FilterOp => op.name == s) h)

theorem mem_names_iff {s : String} : s ∈ names ↔ ∃ op, ofName? s = some op := by
  have hnames : names = all.map name := rfl
  have hall (op : FilterOp) : op ∈ all := by cases op <;> decide
  rw [hnames, List.mem_map]
  constructor
  · rintro ⟨op, -, rfl⟩
    exact ⟨op, ofName?_name op⟩
  · rintro ⟨op, h⟩
    exact ⟨op, hall op, name_of_ofName? h⟩

end FilterOp

namespace Filter

/-! ### The grammar -/

/-- **The grammar of filters.** A connective stands in front of a list or of one filter, a condition
has three items. -/
inductive Written : Json → Prop where
  | and {items : List Json} (h : ∀ j ∈ items, Written j) :
    Written (.array [.string "And", .array items])
  | or {items : List Json} (h : ∀ j ∈ items, Written j) :
    Written (.array [.string "Or", .array items])
  | not {j : Json} (h : Written j) : Written (.array [.string "Not", j])
  | condition (name : String) {op : String} (h : op ∈ FilterOp.names) (value : Json) :
    Written (.array [.string name, .string op, value])

/-! ### Reading, form by form -/

theorem bind_eq_ok {ε α β : Type} {f : α → β} {r : Except ε α} {b : β}
    (h : (r >>= fun a => pure (f a)) = .ok b) : ∃ a, r = .ok a ∧ b = f a := by
  cases r with
  | error e => cases h
  | ok a => exact ⟨a, rfl, (Except.ok.inj h).symm⟩

theorem ofJson_and (items : List Json) :
    ofJson (.array [.string "And", .array items]) = (ofJsonAll items).map .and := by
  rw [ofJson]
  cases ofJsonAll items <;> rfl

theorem ofJson_or (items : List Json) :
    ofJson (.array [.string "Or", .array items]) = (ofJsonAll items).map .or := by
  rw [ofJson]
  cases ofJsonAll items <;> rfl

theorem ofJson_not (j : Json) : ofJson (.array [.string "Not", j]) = (ofJson j).map .not := by
  conv_lhs => unfold ofJson
  cases ofJson j <;> rfl

theorem ofJson_condition (name : String) {s : String} {op : FilterOp}
    (h : FilterOp.ofName? s = some op) (value : Json) :
    ofJson (.array [.string name, .string s, value]) =
      .ok (.condition name op (Value.ofJson value)) := by
  rw [ofJson, conditionOfJson, h]

theorem ofJsonAll_cons_iff {j : Json} {rest : List Json} {zs : List Filter} :
    ofJsonAll (j :: rest) = .ok zs ↔
      ∃ x xs, ofJson j = .ok x ∧ ofJsonAll rest = .ok xs ∧ zs = x :: xs := by
  rw [ofJsonAll]
  constructor
  · intro h
    cases hj : ofJson j with
    | error flaw =>
      rw [hj] at h
      cases h
    | ok x =>
      rw [hj] at h
      obtain ⟨xs, hxs, rfl⟩ := bind_eq_ok h
      exact ⟨x, xs, rfl, hxs, rfl⟩
  · rintro ⟨x, xs, hx, hxs, rfl⟩
    rw [hx, hxs]
    rfl

/-- The form of a tree that was read, by what was read from it. -/
def ReadFrom (j : Json) : Filter → Prop
  | .and xs => ∃ items, j = .array [.string "And", .array items] ∧ ofJsonAll items = .ok xs
  | .or xs => ∃ items, j = .array [.string "Or", .array items] ∧ ofJsonAll items = .ok xs
  | .not x => ∃ i, j = .array [.string "Not", i] ∧ ofJson i = .ok x
  | .condition name op v => ∃ s value, j = .array [.string name, .string s, value] ∧
      FilterOp.ofName? s = some op ∧ v = Value.ofJson value

/-- **What can be read has one of the four forms.** -/
theorem readFrom_of_ofJson {j : Json} {x : Filter} (h : ofJson j = .ok x) : ReadFrom j x := by
  unfold ofJson at h
  split at h
  case h_1 head argument =>
    split at h
    case isTrue hhead =>
      cases argument with
      | array items =>
        obtain ⟨xs, hxs, rfl⟩ := bind_eq_ok h
        rcases hhead with rfl | rfl
        · exact ⟨items, rfl, hxs⟩
        · exact ⟨items, rfl, hxs⟩
      | _ => cases h
    case isFalse =>
      split at h
      case isTrue hhead =>
        obtain ⟨y, hy, rfl⟩ := bind_eq_ok h
        subst hhead
        exact ⟨argument, rfl, hy⟩
      case isFalse => cases h
  case h_2 name op value =>
    unfold conditionOfJson at h
    split at h
    case h_1 s =>
      split at h
      case h_1 op hop =>
        cases h
        exact ⟨s, value, rfl, hop, rfl⟩
      case h_2 => cases h
    case h_2 => cases h
  all_goals cases h

/-! ### Reading accepts the grammar and nothing else -/

mutual

theorem written_of_ofJson (x : Filter) {j : Json} (h : ofJson j = .ok x) : Written j := by
  cases x with
  | and xs =>
    obtain ⟨items, rfl, hxs⟩ := readFrom_of_ofJson h
    exact .and (written_of_ofJsonAll xs hxs)
  | or xs =>
    obtain ⟨items, rfl, hxs⟩ := readFrom_of_ofJson h
    exact .or (written_of_ofJsonAll xs hxs)
  | not x =>
    obtain ⟨i, rfl, hx⟩ := readFrom_of_ofJson h
    exact .not (written_of_ofJson x hx)
  | condition name op v =>
    obtain ⟨s, value, rfl, hop, -⟩ := readFrom_of_ofJson h
    exact .condition name (FilterOp.mem_names_iff.mpr ⟨op, hop⟩) value

/-- `written_of_ofJson` for every filter of a list. -/
theorem written_of_ofJsonAll (xs : List Filter) {items : List Json} (h : ofJsonAll items = .ok xs) :
    ∀ j ∈ items, Written j := by
  cases items with
  | nil => exact fun j hj => absurd hj List.not_mem_nil
  | cons j rest =>
    obtain ⟨y, ys, hy, hys, rfl⟩ := ofJsonAll_cons_iff.mp h
    intro i hi
    rcases List.mem_cons.mp hi with rfl | hi
    · exact written_of_ofJson y hy
    · exact written_of_ofJsonAll ys hys i hi

end

theorem exists_ofJsonAll {items : List Json} (h : ∀ j ∈ items, ∃ x, ofJson j = .ok x) :
    ∃ xs, ofJsonAll items = .ok xs := by
  induction items with
  | nil => exact ⟨[], rfl⟩
  | cons j rest ih =>
    obtain ⟨x, hx⟩ := h j List.mem_cons_self
    obtain ⟨xs, hxs⟩ := ih fun i hi => h i (List.mem_cons_of_mem _ hi)
    exact ⟨x :: xs, ofJsonAll_cons_iff.mpr ⟨x, xs, hx, hxs, rfl⟩⟩

theorem Written.exists_ofJson {j : Json} (h : Written j) : ∃ x, ofJson j = .ok x := by
  induction h with
  | @and items _ ih =>
    obtain ⟨xs, hxs⟩ := exists_ofJsonAll ih
    exact ⟨.and xs, by rw [ofJson_and, hxs]; rfl⟩
  | @or items _ ih =>
    obtain ⟨xs, hxs⟩ := exists_ofJsonAll ih
    exact ⟨.or xs, by rw [ofJson_or, hxs]; rfl⟩
  | @not j _ ih =>
    obtain ⟨x, hx⟩ := ih
    exact ⟨.not x, by rw [ofJson_not, hx]; rfl⟩
  | condition name h value =>
    obtain ⟨op, hop⟩ := FilterOp.mem_names_iff.mp h
    exact ⟨.condition name op (Value.ofJson value), ofJson_condition name hop value⟩

/-- **Reading accepts what the grammar derives and nothing else.** -/
theorem exists_ofJson_iff {j : Json} : (∃ x, ofJson j = .ok x) ↔ Written j :=
  ⟨fun ⟨x, h⟩ => written_of_ofJson x h, Written.exists_ofJson⟩

/-! ### Nothing is lost -/

mutual

/-- **A tree that was read is written as it was.** -/
theorem toJson_of_ofJson (x : Filter) {j : Json} (hdata : j.isData = true) (h : ofJson j = .ok x) :
    x.toJson = j := by
  cases x with
  | and xs =>
    obtain ⟨items, rfl, hxs⟩ := readFrom_of_ofJson h
    have hitems : Json.areData items = true := by simpa [Json.isData, Json.areData] using hdata
    rw [toJson, toJsonAll_of_ofJsonAll xs hitems hxs]
  | or xs =>
    obtain ⟨items, rfl, hxs⟩ := readFrom_of_ofJson h
    have hitems : Json.areData items = true := by simpa [Json.isData, Json.areData] using hdata
    rw [toJson, toJsonAll_of_ofJsonAll xs hitems hxs]
  | not x =>
    obtain ⟨i, rfl, hx⟩ := readFrom_of_ofJson h
    have hi : i.isData = true := by simpa [Json.isData, Json.areData] using hdata
    rw [toJson, toJson_of_ofJson x hi hx]
  | condition name op v =>
    obtain ⟨s, value, rfl, hop, rfl⟩ := readFrom_of_ofJson h
    have hvalue : value.isData = true := by simpa [Json.isData, Json.areData] using hdata
    rw [toJson, FilterOp.name_of_ofName? hop, Value.toJson_ofJson value hvalue]

/-- `toJson_of_ofJson` for every filter of a list. -/
theorem toJsonAll_of_ofJsonAll (xs : List Filter) {items : List Json}
    (hdata : Json.areData items = true) (h : ofJsonAll items = .ok xs) : toJsonAll xs = items := by
  cases items with
  | nil =>
    cases h
    rfl
  | cons j rest =>
    obtain ⟨hj, hrest⟩ := Bool.and_eq_true_iff.mp hdata
    obtain ⟨y, ys, hy, hys, rfl⟩ := ofJsonAll_cons_iff.mp h
    rw [toJsonAll, toJson_of_ofJson y hj hy, toJsonAll_of_ofJsonAll ys hrest hys]

end

mutual

/-- The values that conditions compare with, from left to right. -/
def operands : Filter → List Value
  | .and xs => operandsAll xs
  | .or xs => operandsAll xs
  | .not x => operands x
  | .condition _ _ v => [v]

/-- `operands` on every filter of a list. -/
def operandsAll : List Filter → List Value
  | [] => []
  | x :: xs => operands x ++ operandsAll xs

end

mutual

/-- **A filter that was written is read as it was.** -/
theorem ofJson_toJson (x : Filter) (h : ∀ v ∈ x.operands, v.isData = true) :
    ofJson x.toJson = .ok x := by
  cases x with
  | and xs =>
    rw [toJson, ofJson_and, ofJsonAll_toJsonAll xs h]
    rfl
  | or xs =>
    rw [toJson, ofJson_or, ofJsonAll_toJsonAll xs h]
    rfl
  | not x =>
    rw [toJson, ofJson_not, ofJson_toJson x h]
    rfl
  | condition name op v =>
    rw [toJson, ofJson_condition name (FilterOp.ofName?_name op),
      Value.ofJson_toJson v (h v List.mem_cons_self)]

/-- `ofJson_toJson` for every filter of a list. -/
theorem ofJsonAll_toJsonAll (xs : List Filter) (h : ∀ v ∈ operandsAll xs, v.isData = true) :
    ofJsonAll (toJsonAll xs) = .ok xs := by
  cases xs with
  | nil => rfl
  | cons x xs =>
    rw [toJsonAll]
    exact ofJsonAll_cons_iff.mpr ⟨x, xs,
      ofJson_toJson x fun v hv => h v (List.mem_append_left _ hv),
      ofJsonAll_toJsonAll xs fun v hv => h v (List.mem_append_right _ hv), rfl⟩

end

/-- **The grammar is read exactly and coded without loss.** Reading accepts what it derives and
nothing else; a tree of data is written as it was read, and a filter whose conditions compare with
data is read as it was written. -/
theorem wire_grammar :
    (∀ j, (∃ x, ofJson j = .ok x) ↔ Written j) ∧
      (∀ j x, j.isData = true → ofJson j = .ok x → x.toJson = j) ∧
      ∀ x : Filter, (∀ v ∈ x.operands, v.isData = true) → ofJson x.toJson = .ok x :=
  ⟨fun _ => exists_ofJson_iff, fun _ x => toJson_of_ofJson x, ofJson_toJson⟩

/-- Conditions on attributes that are called like connectives. -/
def namedLikeConnectives : Filter :=
  .or [.condition "And" .eq (.array [.int (-1), .null]), .not (.condition "Or" .glob (.string "Not")),
    .condition "Not" .containsAny (.object [("a", .bool true), ("b", .object [])])]

/-- The same as a tree. -/
def treeOfConnectives : Json :=
  .array [.string "Or", .array [
    .array [.string "And", .string "Eq", .array [.int (-1), .null]],
    .array [.string "Not", .array [.string "Or", .string "Glob", .string "Not"]],
    .array [.string "Not", .string "ContainsAny",
      .object [("a", .bool true), ("b", .object [])]]]]

/-- They are told from connectives, and an unknown operator is not in the grammar. -/
theorem wire_grammar_namedLikeConnectives :
    (∀ v ∈ namedLikeConnectives.operands, v.isData = true) ∧
      ofJson namedLikeConnectives.toJson = .ok namedLikeConnectives ∧
      treeOfConnectives.isData = true ∧ ofJson treeOfConnectives = .ok namedLikeConnectives ∧
      namedLikeConnectives.toJson = treeOfConnectives ∧ Written treeOfConnectives ∧
      ¬Written (.array [.string "a", .string "Like", .string "x"]) := by
  have hdata : ∀ v ∈ namedLikeConnectives.operands, v.isData = true := by decide
  have htree : treeOfConnectives.isData = true := by decide
  have hread : ofJson treeOfConnectives = .ok namedLikeConnectives := rfl
  obtain ⟨haccepts, hwrites, hreads⟩ := wire_grammar
  refine ⟨hdata, hreads _ hdata, htree, hread, hwrites _ _ htree hread,
    (haccepts _).mp ⟨_, hread⟩, fun h => ?_⟩
  obtain ⟨x, hx⟩ := (haccepts _).mpr h
  cases hx

end Filter

end DocQuery
