import DocQuery.Document.Basic
import DocQuery.Proofs.Json.Decode
import DocQuery.Proofs.Json.Readable

/-!
# Documents that can be written

A document that was decoded from a text holds nothing that JSON could not express: its numbers are
finite and its records stand in order.

* `Document.IsData` – the documents that can be written;
* `Document.Decoded` – the documents that were decoded from a tree that can stand in a text;
* `Document.ofJson?_eq_some_iff` – what a document is decoded from;
* `Document.Decoded.isData` – **what was decoded can be written**.
-/

namespace DocQuery

namespace Binary

/-- A double is the nearest double to itself. -/
theorem convert_double {x : Double} (finite : x.isFinite = true) : x.convert .double = x := by
  cases x with
  | nan => cases finite
  | infinity => cases finite
  | finite negative m e h =>
    rw [convert]
    rcases Nat.eq_zero_or_pos m with rfl | pos
    · have least : e = -1074 := h.2.2.2.resolve_right (by decide)
      subst least
      have none_left : (ratio 0 (-1074)).1 = 0 := rfl
      exact (if_pos none_left).trans (dif_pos h)
    · have inside : (RoundingInterval.ofBinary .double m e).Contains
          (((ratio m e).1 : ℚ) / (ratio m e).2) := by
        rw [ratio_eq]
        exact RoundingInterval.contains_self pos
      exact ofRatio_eq negative (by decide) h pos (ratio_pos m e) inside

end Binary

namespace Json

variable {j : Json}

/-- A number of a text is finite, also as a double. -/
theorem isFinite_of_number? (h : j.isReadable = true) {x : Double}
    (hx : number? .double j = some x) : x.isFinite = true := by
  cases j with
  | int i =>
    cases hx
    obtain ⟨low, high⟩ := isReadable_int.mp h
    exact Binary.isFinite_ofRatio_nat _ (by omega)
  | float y =>
    cases hx
    rw [Binary.convert_double h]
    exact h
  | single y => cases h
  | _ => cases hx

/-- The fields of a tree in a text can stand in a text. -/
theorem isReadable_of_fields? {names : List String} {field : Json} {fs : List (Option Json)}
    (readable : j.isReadable = true) (found : fields? names j = some fs)
    (hfield : some field ∈ fs) : field.isReadable = true := by
  cases j with
  | object members =>
    obtain ⟨name, -, hmem⟩ := exists_of_known? found hfield
    exact haveReadable_iff.mp readable _ hmem
  | array items =>
    unfold fields? at found
    dsimp only at found
    split at found
    case isFalse => cases found
    case isTrue =>
      cases found
      rcases List.mem_append.mp hfield with here | missing
      · obtain ⟨item, hitem, same⟩ := List.mem_map.mp here
        exact Option.some.inj same ▸ areReadable_iff.mp readable item hitem
      · cases List.eq_of_mem_replicate missing
  | _ => cases found

end Json

namespace Value

/-- A record of values that can be written. -/
theorem isData_object {r : Record Value} :
    (object r).isData = true ↔ r.Sorted ∧ ∀ e ∈ r, e.2.isData = true := by
  rw [isData, Bool.and_eq_true_iff, decide_eq_true_iff, haveData_iff]

end Value

namespace Document

/-- The document can be written as JSON. -/
structure IsData (d : Document) : Prop where
  id : d.id.isData = true
  dist : ∀ x ∈ d.dist, x.isFinite = true
  attributes : ∀ r ∈ d.attributes, (Value.object r).isData = true
  fields : (Value.object d.fields).isData = true

/-- The document was decoded from a tree that can stand in a text. -/
def Decoded (d : Document) : Prop := ∃ j : Json, j.isReadable = true ∧ ofJson? j = some d

theorem decoded_of_mapM {js : List Json} {docs : List Document}
    (read : js.mapM ofJson? = some docs) (readable : ∀ j ∈ js, j.isReadable = true) :
    ∀ d ∈ docs, d.Decoded := by
  intro d hd
  obtain ⟨j, hj, same⟩ := Json.exists_of_mapM read hd
  exact ⟨j, readable j hj, same⟩

variable {d : Document}

/-- The attributes of a document can be written. -/
theorem IsData.bag (h : d.IsData) : ∀ e ∈ d.bag, e.2.isData = true := by
  intro e he
  unfold Document.bag at he
  split at he
  case h_1 r present => exact (Value.isData_object.mp (h.attributes r present)).2 e he
  case h_2 => exact (Value.isData_object.mp h.fields).2 e (List.mem_of_mem_filter he)

theorem IsData.sorted_bag (h : d.IsData) : d.bag.Sorted := by
  unfold Document.bag
  split
  case h_1 r present => exact (Value.isData_object.mp (h.attributes r present)).1
  case h_2 => exact (Value.isData_object.mp h.fields).1.filter _

/-- The names of the members that are no free fields. -/
def memberNames : List String := ["id", "vector", "$dist", "attributes"]

/-- The free fields among the members of an object. -/
def freeFields (members : List (String × Json)) : List (String × Json) :=
  members.filter fun m => !memberNames.contains m.1

/-- **What a document is decoded from**: named members, each of which stands there at most once, and
free fields. -/
theorem ofJson?_eq_some_iff {j : Json} : ofJson? j = some d ↔
    ∃ members id vector dist attributes, j = .object members ∧
      Json.known? memberNames members = some [some id, vector, dist, attributes] ∧
      d.id = Value.ofJson id ∧
      Json.optional? (Json.list? (Json.number? .single)) vector = some d.vector ∧
      Json.optional? (Json.number? .double) dist = some d.dist ∧
      Json.optional? (Json.record? fun j => some (Value.ofJson j)) attributes =
        some d.attributes ∧
      d.fields = Record.ofList ((freeFields members).map fun m => (m.1, Value.ofJson m.2)) := by
  constructor
  · intro decoded
    unfold ofJson? at decoded
    split at decoded
    case h_1 id vector dist attributes rest split =>
      cases j with
      | object members =>
        obtain ⟨fs, found, parts⟩ := Option.map_eq_some_iff.mp split
        obtain ⟨rfl, rfl⟩ := Prod.mk.inj parts
        obtain ⟨xs, hvector, decoded⟩ := Option.bind_eq_some_iff.mp decoded
        obtain ⟨x, hdist, decoded⟩ := Option.bind_eq_some_iff.mp decoded
        obtain ⟨r, hattributes, decoded⟩ := Option.bind_eq_some_iff.mp decoded
        obtain rfl := Option.some.inj decoded
        exact ⟨members, id, vector, dist, attributes, rfl, found, rfl, hvector, hdist,
          hattributes, rfl⟩
      | _ => cases split
    case h_2 => cases decoded
  · rintro ⟨members, id, vector, dist, attributes, rfl, found, hid, hvector, hdist, hattributes,
      hfields⟩
    have split : Json.split? ["id", "vector", "$dist", "attributes"] (.object members) =
        some ([some id, vector, dist, attributes], freeFields members) :=
      congrArg (Option.map fun fs => (fs, freeFields members)) found
    obtain ⟨_, _, _, _, _⟩ := d
    subst hid hfields
    rw [ofJson?, split]
    dsimp only
    rw [hvector, hdist, hattributes]
    rfl

/-- **What was decoded can be written.** -/
theorem Decoded.isData (h : d.Decoded) : d.IsData := by
  obtain ⟨j, readable, decoded⟩ := h
  obtain ⟨members, id, vector, dist, attributes, rfl, found, hid, -, hdist, hattributes, hfields⟩ :=
    ofJson?_eq_some_iff.mp decoded
  have each := Json.haveReadable_iff.mp readable
  have named {j : Json} (hj : some j ∈ [some id, vector, dist, attributes]) :
      j.isReadable = true := by
    obtain ⟨name, -, hmem⟩ := Json.exists_of_known? found hj
    exact each _ hmem
  refine ⟨?_, ?_, ?_, ?_⟩
  · rw [hid]
    exact Value.isData_ofJson id (named (by simp))
  · intro x present
    rw [present] at hdist
    obtain ⟨j, rfl, hj⟩ := Json.optional?_eq_some hdist
    exact Json.isFinite_of_number? (named (by simp)) hj
  · intro r present
    rw [present] at hattributes
    obtain ⟨j, rfl, hj⟩ := Json.optional?_eq_some hattributes
    have readable : j.isReadable = true := named (by simp)
    obtain ⟨inner, rfl, sorted, values⟩ := Json.record?_eq_some hj
    refine Value.isData_object.mpr ⟨sorted, fun e he => ?_⟩
    obtain ⟨m, hm, -, same⟩ := values e he
    rw [← Option.some.inj same]
    exact Value.isData_ofJson _ (Json.haveReadable_iff.mp readable m hm)
  · rw [hfields]
    refine Value.isData_object.mpr ⟨Record.sorted_ofList _, fun e he => ?_⟩
    obtain ⟨m, hm, rfl⟩ := List.mem_map.mp (Record.mem_of_mem_ofList he)
    exact Value.isData_ofJson _ (each m (List.mem_of_mem_filter hm))

end Document

end DocQuery
