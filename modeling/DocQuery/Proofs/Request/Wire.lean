import DocQuery.Proofs.Filter.Wire
import DocQuery.Proofs.Json.Decode
import DocQuery.Request.Write

/-!
# Requests on the wire

A request leaves out the fields that are absent, so that what stands at a place of its text depends
on which fields are there; on the other side the fields are found by their names. Inside, names,
lists, booleans and tuples are told apart by their shapes alone.

* `Json.canonical_of_isData` – a tree of data is not changed by putting its members in order;
* `Json.fields?_canonical` – named fields are found in whatever order they stand;
* `QueryRequest.IsData`, `WriteRequest.IsData` – the requests that can be written;
* `QueryRequest.ofJson?_fields`, `WriteRequest.ofJson?_fields` – decoding from the fields alone;
* `requests_read_back` – **both kinds of requests are read as they were written**, as text and as a
  tree with its members in order.
-/

namespace DocQuery

/-! ### Trees with their members in order -/

namespace Json

mutual

/-- A tree of data has its members in order. -/
theorem canonical_of_isData (j : Json) (h : j.isData = true) : j.canonical = j := by
  cases j with
  | array items => rw [canonical, canonicalItems_of_areData items h]
  | object members =>
    obtain ⟨sorted, data⟩ := Bool.and_eq_true_iff.mp h
    rw [canonical, canonicalMembers_of_haveData members data,
      Record.ofList_of_sorted (of_decide_eq_true sorted)]
  | _ => rfl

/-- `canonical_of_isData` item by item. -/
theorem canonicalItems_of_areData (items : List Json) (h : areData items = true) :
    canonicalItems items = items := by
  cases items with
  | nil => rfl
  | cons j items =>
    obtain ⟨first, rest⟩ := Bool.and_eq_true_iff.mp h
    rw [canonicalItems, canonical_of_isData j first, canonicalItems_of_areData items rest]

/-- `canonical_of_isData` member by member. -/
theorem canonicalMembers_of_haveData (members : List (String × Json)) (h : haveData members = true) :
    canonicalMembers members = members := by
  match members with
  | [] => rfl
  | (name, j) :: members =>
    obtain ⟨first, rest⟩ := Bool.and_eq_true_iff.mp h
    rw [canonicalMembers, canonical_of_isData j first, canonicalMembers_of_haveData members rest]

end

theorem canonicalMembers_of_forall {members : List (String × Json)}
    (h : ∀ m ∈ members, m.2.canonical = m.2) : canonicalMembers members = members := by
  induction members with
  | nil => rfl
  | cons m members ih =>
    obtain ⟨first, rest⟩ := List.forall_mem_cons.mp h
    rw [canonicalMembers, first, ih rest]

theorem isData_array {items : List Json} (h : ∀ j ∈ items, j.isData = true) :
    (Json.array items).isData = true :=
  areData_iff.mpr h

/-- A record is written as data, if its values are. -/
theorem isData_record {α : Type} (encode : α → Json) {r : Record α} (sorted : r.Sorted)
    (h : ∀ e ∈ r, (encode e.2).isData = true) :
    (Json.object (r.map fun e => (e.1, encode e.2))).isData = true := by
  refine Bool.and_eq_true_iff.mpr ⟨decide_eq_true (List.pairwise_map.mpr sorted), ?_⟩
  refine haveData_iff.mpr fun m hm => ?_
  obtain ⟨e, he, rfl⟩ := List.mem_map.mp hm
  exact h e he

/-- **Named fields are found in whatever order they stand.** -/
theorem fields?_canonical {members : List (String × Json)} (names : List String)
    (distinct : (members.map Prod.fst).Nodup) (h : ∀ m ∈ members, m.2.canonical = m.2) :
    fields? names (Json.object members).canonical = fields? names (.object members) := by
  rw [canonical, canonicalMembers_of_forall h]
  exact known?_perm ((Record.ofList_perm distinct).map Prod.fst |>.nodup_iff.mpr distinct)
    (Record.ofList_perm distinct)

end Json

/-! ### Filters -/

namespace Filter

mutual

/-- A filter that compares with data is written as data. -/
theorem isData_toJson (x : Filter) (h : ∀ v ∈ x.operands, v.isData = true) :
    x.toJson.isData = true := by
  cases x with
  | and xs => simp [toJson, Json.isData, Json.areData, areData_toJsonAll xs h]
  | or xs => simp [toJson, Json.isData, Json.areData, areData_toJsonAll xs h]
  | not x => simp [toJson, Json.isData, Json.areData, isData_toJson x h]
  | condition name op v =>
    have value := Value.isData_toJson v (h v List.mem_cons_self)
    simp [toJson, Json.isData, Json.areData, value]

/-- `isData_toJson` for every filter of a list. -/
theorem areData_toJsonAll (xs : List Filter) (h : ∀ v ∈ operandsAll xs, v.isData = true) :
    Json.areData (toJsonAll xs) = true := by
  cases xs with
  | nil => rfl
  | cons x xs =>
    rw [toJsonAll]
    exact Bool.and_eq_true_iff.mpr ⟨isData_toJson x fun v hv => h v (List.mem_append_left _ hv),
      areData_toJsonAll xs fun v hv => h v (List.mem_append_right _ hv)⟩

end

theorem toJson_ne_null (x : Filter) : x.toJson ≠ .null := by
  cases x <;> exact nofun

theorem ofJson?_toJson {x : Filter} (h : ∀ v ∈ x.operands, v.isData = true) :
    ofJson? x.toJson = some x :=
  congrArg Except.toOption (ofJson_toJson x h)

end Filter

/-! ### The parts of a query -/

theorem RankBy.ofJson?_toJson (r : RankBy) : ofJson? r.toJson = some r := by
  obtain ⟨name, direction⟩ := r
  cases direction <;> rfl

theorem Consistency.ofJson?_toJson (c : Consistency) : ofJson? c.toJson = some c := by
  cases c <;> rfl

theorem Aggregate.ofJson?_toJson (a : Aggregate) : ofJson? a.toJson = some a := by
  cases a
  rfl

/-- A list of names is told from a boolean by its shape. -/
theorem Projection.ofJson?_toJson (p : Projection) : ofJson? p.toJson = some p := by
  cases p with
  | all => rfl
  | none => rfl
  | only names =>
    have strings : (names.map Json.string).mapM Json.string? = some names :=
      Json.mapM_map_eq_some fun _ _ => rfl
    rw [toJson, ofJson?, strings]
    rfl

theorem Projection.isData_toJson (p : Projection) : p.toJson.isData = true := by
  cases p with
  | all => rfl
  | none => rfl
  | only names =>
    refine Json.isData_array fun j hj => ?_
    obtain ⟨name, -, rfl⟩ := List.mem_map.mp hj
    rfl

namespace QueryRequest

/-- The request can be written: its filter compares with data, its limit has 64 bits, and its
aggregates stand in the order of their names. -/
structure IsData (r : QueryRequest) : Prop where
  filter : ∀ x ∈ r.filter, ∀ v ∈ x.operands, v.isData = true
  topK : ∀ k ∈ r.topK, k < 2 ^ 64
  aggregates : ∀ a ∈ r.aggregates, a.Sorted

/-- The fields of a request, each with its name. -/
def fields (r : QueryRequest) : List (String × Option Json) :=
  [("filters", r.filter.map Filter.toJson), ("rank_by", r.rankBy.map RankBy.toJson),
    ("top_k", r.topK.map fun k : Nat => Json.int k), ("include_attributes", some r.projection.toJson),
    ("aggregate_by", r.aggregates.map fun a => .object (a.mapValues Aggregate.toJson)),
    ("consistency", r.consistency.map Consistency.toJson)]

theorem toJson_eq (r : QueryRequest) : r.toJson = .object (Json.present r.fields) := by
  simp [toJson, fields, Option.map_map, Function.comp_def]

theorem fields_nodup (r : QueryRequest) : (r.fields.map Prod.fst).Nodup := by
  show ["filters", "rank_by", "top_k", "include_attributes", "aggregate_by", "consistency"].Nodup
  decide

/-- A request is decoded from its fields. -/
theorem ofJson?_fields {r : QueryRequest} (h : r.IsData) {j : Json}
    (found : Json.fields?
      ["filters", "rank_by", "top_k", "include_attributes", "aggregate_by", "consistency"] j =
        some (r.fields.map Prod.snd)) : ofJson? j = some r := by
  have filter : Json.optional? Filter.ofJson? (r.filter.map Filter.toJson) = some r.filter :=
    Json.optional?_map (fun x hx => Filter.ofJson?_toJson (h.filter x hx)) Filter.toJson_ne_null
  have rankBy : Json.optional? RankBy.ofJson? (r.rankBy.map RankBy.toJson) = some r.rankBy :=
    Json.optional?_map (fun x _ => x.ofJson?_toJson) fun _ => nofun
  have topK : Json.optional? Json.word? (r.topK.map fun k : Nat => Json.int k) = some r.topK := by
    refine Json.optional?_map (fun k hk => ?_) fun _ => nofun
    have small := h.topK k hk
    rw [Json.word?, Json.natural?, if_pos ⟨Int.natCast_nonneg k, by exact_mod_cast small⟩,
      Int.toNat_natCast]
  have aggregates : Json.optional? (Json.record? Aggregate.ofJson?)
      (r.aggregates.map fun a => .object (a.mapValues Aggregate.toJson)) = some r.aggregates :=
    Json.optional?_map (fun a ha => Json.record?_map _ (h.aggregates a ha)
      fun e _ => e.2.ofJson?_toJson) fun _ => nofun
  have consistency : Json.optional? Consistency.ofJson? (r.consistency.map Consistency.toJson) =
      some r.consistency :=
    Json.optional?_map (fun c _ => c.ofJson?_toJson) fun _ => nofun
  rw [ofJson?, found]
  simp only [fields, List.map_cons, List.map_nil, filter, rankBy, topK, aggregates, consistency,
    Json.orDefault?, r.projection.ofJson?_toJson]
  rfl

/-- The values of the fields have their members in order. -/
theorem canonical_present {r : QueryRequest} (h : r.IsData) :
    ∀ m ∈ Json.present r.fields, m.2.canonical = m.2 := by
  rintro ⟨name, j⟩ hm
  have written := Json.mem_present.mp hm
  simp only [fields, List.mem_cons, Prod.mk.injEq, List.not_mem_nil, or_false] at written
  obtain ⟨-, hj⟩ | ⟨-, hj⟩ | ⟨-, hj⟩ | ⟨-, hj⟩ | ⟨-, hj⟩ | ⟨-, hj⟩ := written
  · obtain ⟨x, hx, rfl⟩ := Option.map_eq_some_iff.mp hj.symm
    exact Json.canonical_of_isData _ (x.isData_toJson (h.filter x hx))
  · obtain ⟨x, -, rfl⟩ := Option.map_eq_some_iff.mp hj.symm
    rfl
  · obtain ⟨k, -, rfl⟩ := Option.map_eq_some_iff.mp hj.symm
    rfl
  · cases hj
    exact Json.canonical_of_isData _ r.projection.isData_toJson
  · obtain ⟨a, ha, rfl⟩ := Option.map_eq_some_iff.mp hj.symm
    exact Json.canonical_of_isData _ (Json.isData_record _ (h.aggregates a ha) fun _ _ => rfl)
  · obtain ⟨c, -, rfl⟩ := Option.map_eq_some_iff.mp hj.symm
    rfl

end QueryRequest

/-! ### The parts of a write -/

namespace Columns

/-- The table can be written: its columns stand in the order of their names, and its cells can be
written. -/
structure IsData (table : Columns) : Prop where
  sorted : table.Sorted
  cells : ∀ c ∈ table, ∀ v ∈ c.2, v.isData = true

/-- Values are decoded one by one. -/
theorem list?_toJson {vs : List Value} (h : ∀ v ∈ vs, v.isData = true) :
    Json.list? (fun j => some (Value.ofJson j)) (.array (vs.map Value.toJson)) = some vs :=
  Json.mapM_map_eq_some fun v hv => congrArg some (Value.ofJson_toJson v (h v hv))

theorem isData_values {vs : List Value} (h : ∀ v ∈ vs, v.isData = true) :
    (Json.array (vs.map Value.toJson)).isData = true := by
  refine Json.isData_array fun j hj => ?_
  obtain ⟨v, hv, rfl⟩ := List.mem_map.mp hj
  exact v.isData_toJson (h v hv)

variable {table : Columns}

theorem ofJson?_toJson (h : table.IsData) : ofJson? table.toJson = some table :=
  Json.record?_map (fun vs : List Value => .array (vs.map Value.toJson)) h.sorted
    fun c hc => list?_toJson (h.cells c hc)

theorem isData_toJson (h : table.IsData) : table.toJson.isData = true :=
  Json.isData_record (fun vs : List Value => .array (vs.map Value.toJson)) h.sorted
    fun c hc => isData_values (h.cells c hc)

end Columns

namespace WriteRequest

/-- The request can be written: its tables, its ids and its filter can. -/
structure IsData (r : WriteRequest) : Prop where
  upsert : ∀ table ∈ r.upsert, table.IsData
  patch : ∀ table ∈ r.patch, table.IsData
  deletes : ∀ ids ∈ r.deletes, ∀ id ∈ ids, id.isData = true
  deleteByFilter : ∀ x ∈ r.deleteByFilter, ∀ v ∈ x.operands, v.isData = true

/-- The fields of a request, each with its name. -/
def fields (r : WriteRequest) : List (String × Option Json) :=
  [("upsert_columns", r.upsert.map Columns.toJson), ("patch_columns", r.patch.map Columns.toJson),
    ("deletes", r.deletes.map fun ids => .array (ids.map Value.toJson)),
    ("delete_by_filter", r.deleteByFilter.map Filter.toJson)]

theorem toJson_eq (r : WriteRequest) : r.toJson = .object (Json.present r.fields) := by
  simp [toJson, fields, Option.map_map, Function.comp_def]

theorem fields_nodup (r : WriteRequest) : (r.fields.map Prod.fst).Nodup := by
  show ["upsert_columns", "patch_columns", "deletes", "delete_by_filter"].Nodup
  decide

/-- A request is decoded from its fields. -/
theorem ofJson?_fields {r : WriteRequest} (h : r.IsData) {j : Json}
    (found : Json.fields? ["upsert_columns", "patch_columns", "deletes", "delete_by_filter"] j =
      some (r.fields.map Prod.snd)) : ofJson? j = some r := by
  have upsert : Json.optional? Columns.ofJson? (r.upsert.map Columns.toJson) = some r.upsert :=
    Json.optional?_map (fun t ht => Columns.ofJson?_toJson (h.upsert t ht)) fun _ => nofun
  have patch : Json.optional? Columns.ofJson? (r.patch.map Columns.toJson) = some r.patch :=
    Json.optional?_map (fun t ht => Columns.ofJson?_toJson (h.patch t ht)) fun _ => nofun
  have deletes : Json.optional? (Json.list? fun j => some (Value.ofJson j))
      (r.deletes.map fun ids => .array (ids.map Value.toJson)) = some r.deletes :=
    Json.optional?_map (fun ids hids => Columns.list?_toJson (h.deletes ids hids)) fun _ => nofun
  have filter : Json.optional? Filter.ofJson? (r.deleteByFilter.map Filter.toJson) =
      some r.deleteByFilter :=
    Json.optional?_map (fun x hx => Filter.ofJson?_toJson (h.deleteByFilter x hx))
      Filter.toJson_ne_null
  rw [ofJson?, found]
  simp only [fields, List.map_cons, List.map_nil, upsert, patch, deletes, filter]
  rfl

/-- The values of the fields have their members in order. -/
theorem canonical_present {r : WriteRequest} (h : r.IsData) :
    ∀ m ∈ Json.present r.fields, m.2.canonical = m.2 := by
  rintro ⟨name, j⟩ hm
  have written := Json.mem_present.mp hm
  simp only [fields, List.mem_cons, Prod.mk.injEq, List.not_mem_nil, or_false] at written
  refine Json.canonical_of_isData _ ?_
  obtain ⟨-, hj⟩ | ⟨-, hj⟩ | ⟨-, hj⟩ | ⟨-, hj⟩ := written
  · obtain ⟨table, ht, rfl⟩ := Option.map_eq_some_iff.mp hj.symm
    exact Columns.isData_toJson (h.upsert table ht)
  · obtain ⟨table, ht, rfl⟩ := Option.map_eq_some_iff.mp hj.symm
    exact Columns.isData_toJson (h.patch table ht)
  · obtain ⟨ids, hids, rfl⟩ := Option.map_eq_some_iff.mp hj.symm
    exact Columns.isData_values (h.deletes ids hids)
  · obtain ⟨x, hx, rfl⟩ := Option.map_eq_some_iff.mp hj.symm
    exact x.isData_toJson (h.deleteByFilter x hx)

end WriteRequest

/-! ### Both kinds of requests -/

/-- **Requests are read as they were written**, those for reading and those for writing, from the
members as they are written and from a tree that has put them in order. -/
theorem requests_read_back :
    (∀ r : QueryRequest, r.IsData →
      QueryRequest.ofJson? r.toJson = some r ∧ QueryRequest.ofJson? r.toJson.canonical = some r) ∧
    ∀ r : WriteRequest, r.IsData →
      WriteRequest.ofJson? r.toJson = some r ∧ WriteRequest.ofJson? r.toJson.canonical = some r := by
  refine ⟨fun r h => ?_, fun r h => ?_⟩
  · have found := Json.known?_present r.fields_nodup
    rw [r.toJson_eq]
    refine ⟨QueryRequest.ofJson?_fields h found, QueryRequest.ofJson?_fields h ?_⟩
    rw [Json.fields?_canonical _ (Json.present_nodup r.fields_nodup)
      (QueryRequest.canonical_present h)]
    exact found
  · have found := Json.known?_present r.fields_nodup
    rw [r.toJson_eq]
    refine ⟨WriteRequest.ofJson?_fields h found, WriteRequest.ofJson?_fields h ?_⟩
    rw [Json.fields?_canonical _ (Json.present_nodup r.fields_nodup)
      (WriteRequest.canonical_present h)]
    exact found

/-- A filter with a list, a negation and a nested object. -/
def oldOrTagged : Filter :=
  .or [.not (.condition "age" .lt (.float (Binary.ofRatio true 5 2))), .and [],
    .condition "tags" .containsAny (.array [.object [("a", .null), ("b", .bool true)], .int (-1)])]

/-- A query with all of its fields. -/
def fullQuery : QueryRequest :=
  ⟨some oldOrTagged, some ⟨"filters", .desc⟩, some (2 ^ 64 - 1), .only ["id", "count"],
    some [("count", .count), ("total", .count)], some .eventual⟩

/-- A write with all of its parts. -/
def fullWrite : WriteRequest :=
  ⟨some [("id", [.int 1, .string "x"]), ("v", [.null, .float (Binary.ofRatio false 1 10)])],
    some [("id", [.object [("id", .int 3)]])], some [.int 2, .array []], some oldOrTagged⟩

theorem requests_read_back_full :
    fullQuery.IsData ∧ QueryRequest.ofJson? fullQuery.toJson = some fullQuery ∧
      QueryRequest.ofJson? fullQuery.toJson.canonical = some fullQuery ∧
    fullWrite.IsData ∧ WriteRequest.ofJson? fullWrite.toJson = some fullWrite ∧
      WriteRequest.ofJson? fullWrite.toJson.canonical = some fullWrite := by
  have filter : ∀ v ∈ oldOrTagged.operands, v.isData = true := by decide
  have query : fullQuery.IsData := by
    refine ⟨?_, ?_, ?_⟩ <;> rintro _ ⟨⟩
    exacts [filter, by decide, by decide]
  have write : fullWrite.IsData := by
    refine ⟨?_, ?_, ?_, ?_⟩ <;> rintro _ ⟨⟩
    exacts [⟨by decide, by decide⟩, ⟨by decide, by decide⟩, by decide, filter]
  obtain ⟨queries, writes⟩ := requests_read_back
  exact ⟨query, (queries _ query).1, (queries _ query).2, write, (writes _ write).1,
    (writes _ write).2⟩

end DocQuery
