import DocQuery.Proofs.Document.Wire
import DocQuery.Proofs.Request.Wire
import DocQuery.Proofs.Store.Everywhere

/-!
# Rows that are read back

Rows that were loaded from a text without vectors, and tables that were decoded from a text, hold
data only, and neither writes nor the choice of attributes change this. So the text of a row of an
answer is decoded to that row exactly if its free fields have other names than its members and its
floating-point numbers are read as they were written. A name of a member can get among the free
fields in two ways, by a table with a column of that name and by asking for the attribute of that
name.

* `Document.Plain` – data without a vector, which rows remain when attributes are set or asked for;
* `Document.Clear.project_iff` – which fields must not be asked for;
* `Columns.plain_of_toDocuments`, `Columns.clear_of_toDocuments`, `Columns.patch_of_toDocuments` – what
  tables insert and set;
* `Backend.Call.FromText` – the calls that load or write what was decoded from a text;
* `Backend.answer_read_back` – **when the rows of an answer are read back.**
-/

namespace DocQuery

namespace Document

variable {d : Document} {name : String} {v : Value}

/-! ### Attributes that are set -/

@[simp]
theorem vector_set (d : Document) (name : String) (v : Value) :
    (d.set name v).vector = d.vector := by
  unfold set withStore
  split <;> rfl

theorem attributes_set (absent : d.attributes = none) : (d.set name v).attributes = none := by
  unfold set withStore
  rw [absent]

/-- A value in a record keeps it writable. -/
theorem isData_insert {r : Record Value} (h : (Value.object r).isData = true)
    (hv : v.isData = true) : (Value.object (r.insert name v)).isData = true := by
  obtain ⟨sorted, data⟩ := Value.isData_object.mp h
  refine Value.isData_object.mpr ⟨sorted.insert name v, fun e he => ?_⟩
  rcases Record.mem_of_mem_insert he with rfl | he
  · exact hv
  · exact data e he

theorem IsData.set (h : d.IsData) (hv : v.isData = true) : (d.set name v).IsData := by
  unfold Document.set withStore store
  split
  case h_1 r present =>
    refine ⟨h.id, h.dist, fun s hs => ?_, h.fields⟩
    obtain rfl := Option.some.inj hs
    rw [present, Option.getD_some]
    exact isData_insert (h.attributes r present) hv
  case h_2 absent =>
    refine ⟨h.id, h.dist, h.attributes, ?_⟩
    rw [absent, Option.getD_none]
    exact isData_insert h.fields hv

/-- Another name does no harm. -/
theorem Clear.set (h : d.Clear) (other : name ∉ memberNames) : (d.set name v).Clear := by
  unfold Document.set withStore store
  split
  case h_1 => exact h
  case h_2 absent =>
    intro member hmember
    have apart : member ≠ name := fun same => other (same ▸ hmember)
    show ((d.attributes.getD d.fields).insert name v).get? member = none
    rw [absent, Option.getD_none, Record.get?_insert, if_neg apart]
    exact h member hmember

/-- Data without a vector. -/
structure Plain (d : Document) : Prop where
  data : d.IsData
  flat : d.vector = none

theorem Plain.set (h : d.Plain) (hv : v.isData = true) : (d.set name v).Plain :=
  ⟨h.data.set hv, (vector_set d name v).trans h.flat⟩

theorem isData_ofId {id : Value} (h : id.isData = true) : (ofId id).IsData :=
  ⟨h, fun _ => nofun, fun _ => nofun, rfl⟩

/-! ### Attributes that are asked for -/

theorem IsData.get? (h : d.IsData) (found : d.get? name = some v) : v.isData = true := by
  unfold Document.get? at found
  split at found
  · cases found
    exact h.id
  · unfold store at found
    have mem := Record.mem_of_get? found
    cases present : d.attributes with
    | some r =>
      rw [present] at mem
      exact (Value.isData_object.mp (h.attributes r present)).2 _ mem
    | none =>
      rw [present] at mem
      exact (Value.isData_object.mp h.fields).2 _ mem

theorem Plain.copyField {source : Document} (hs : source.Plain) (h : d.Plain) (name : String) :
    (copyField source d name).Plain := by
  unfold Document.copyField
  split
  · exact ⟨⟨h.data.id, h.data.dist, h.data.attributes, h.data.fields⟩, hs.flat⟩
  · split
    case h_1 v found => exact h.set (hs.data.get? found)
    case h_2 => exact h

/-- **With whatever attributes**, a row is data without a vector if it is. -/
theorem Plain.project (h : d.Plain) (projection : Projection) : (d.project projection).Plain := by
  have bare : d.bare.Plain := ⟨⟨h.data.id, h.data.dist, nofun, rfl⟩, rfl⟩
  cases projection with
  | all => exact h
  | none => exact bare
  | only names =>
    exact List.foldlRecOn names (Document.copyField d) bare fun _ hd name _ => h.copyField hd name

theorem attributes_copyField {source : Document} (absent : d.attributes = none) (name : String) :
    (copyField source d name).attributes = none := by
  unfold copyField
  split
  · exact absent
  · split
    · exact attributes_set absent
    · exact absent

/-- A field that is copied becomes a free field. -/
theorem get?_fields_copyField {source : Document} (absent : d.attributes = none)
    (name other : String) : (copyField source d name).fields.get? other =
      if other = name ∧ name ≠ "vector" then (source.get? name).or (d.fields.get? other)
      else d.fields.get? other := by
  unfold copyField
  split
  case isTrue vector => rw [if_neg fun h => h.2 vector]
  case isFalse vector =>
    cases found : source.get? name with
    | none => simp
    | some v =>
      have set : d.set name v = { d with fields := d.fields.insert name v } := by
        unfold Document.set withStore store
        rw [absent]
        rfl
      dsimp only
      rw [set, Record.get?_insert]
      by_cases same : other = name <;> simp [same, vector]

/-- The free fields are the fields that are asked for. -/
theorem get?_fields_project (d : Document) (names : List String) (other : String) :
    (d.project (.only names)).fields.get? other =
      if other ∈ names ∧ other ≠ "vector" then d.get? other else none := by
  -- by induction on the names, with any document in which some were copied before
  have copied (names : List String) (e : Document) (absent : e.attributes = none) :
      (names.foldl (copyField d) e).fields.get? other =
        if other ∈ names ∧ other ≠ "vector" then (d.get? other).or (e.fields.get? other)
        else e.fields.get? other := by
    induction names generalizing e with
    | nil => simp
    | cons name names ih =>
      rw [List.foldl_cons, ih _ (attributes_copyField absent name), get?_fields_copyField absent]
      by_cases same : other = name
      · subst same
        by_cases vector : other = "vector"
        · simp [vector]
        · by_cases rest : other ∈ names <;> cases d.get? other <;> simp [vector, rest]
      · simp [same]
  refine (copied names d.bare rfl).trans ?_
  show (if _ then (d.get? other).or none else none) = _
  rw [Option.or_none]

/-- **Which attributes must not be asked for**: those that a row has under the name of a member. -/
theorem project_clear_iff {names : List String} : (d.project (.only names)).Clear ↔
    ∀ name ∈ memberNames, name ∈ names → name ≠ "vector" → d.get? name = none := by
  refine forall₂_congr fun name _ => ?_
  rw [get?_fields_project]
  by_cases asked : name ∈ names ∧ name ≠ "vector"
  · simp [asked]
  · rw [if_neg asked]
    exact iff_of_true rfl fun mem apart => absurd ⟨mem, apart⟩ asked

end Document

/-- The attributes that are asked for by name. -/
def Projection.names : Projection → List String
  | .only names => names
  | _ => []

/-- **What a clear row must not be asked for**: fields that it has under the name of a member. -/
theorem Document.Clear.project_iff {d : Document} (h : d.Clear) (projection : Projection) :
    (d.project projection).Clear ↔
      ∀ name ∈ memberNames, name ∈ projection.names → name ≠ "vector" → d.get? name = none := by
  cases projection with
  | all => exact iff_of_true h fun _ _ => nofun
  | none => exact iff_of_true (fun _ _ => rfl) fun _ _ => nofun
  | only names => exact project_clear_iff

/-! ### What was decoded -/

/-- Documents that were loaded from a text were decoded from trees in it. -/
theorem decoded_of_readDocuments? {text : String} {docs : List Document}
    (read : readDocuments? text = some docs) : ∀ d ∈ docs, d.Decoded := by
  obtain ⟨j, tree, decoded⟩ := Option.bind_eq_some_iff.mp read
  have readable := Json.isReadable_of_read? tree
  cases j with
  | array items => exact Document.decoded_of_mapM decoded (Json.areReadable_iff.mp readable)
  | _ => cases decoded

namespace Columns

variable {table : Columns} {docs : List Document}

/-- A table that was decoded from a tree in a text is data. -/
theorem isData_of_ofJson? {j : Json} (readable : j.isReadable = true)
    (decoded : ofJson? j = some table) : table.IsData := by
  obtain ⟨members, rfl, sorted, columns⟩ := Json.record?_eq_some decoded
  refine ⟨sorted, fun c hc v hv => ?_⟩
  obtain ⟨m, hm, -, cells⟩ := columns c hc
  have column := Json.haveReadable_iff.mp readable m hm
  obtain ⟨name, j⟩ := m
  cases j with
  | array items =>
    obtain ⟨item, hitem, same⟩ := Json.exists_of_mapM cells hv
    exact Option.some.inj same ▸
      Value.isData_ofJson item (Json.areReadable_iff.mp column item hitem)
  | _ => cases cells

/-- The documents of a table of data hold data in their free fields. -/
theorem plain_of_toDocuments (h : table.IsData) (read : table.toDocuments true = .ok docs) :
    ∀ d ∈ docs, d.Plain ∧ d.attributes = none := by
  refine forall_of_toDocuments (P := fun d => d.Plain ∧ d.attributes = none) ?_ ?_ read
  · intro ids found id hid
    have data := h.cells _ (Record.mem_of_get? found) id hid
    exact ⟨⟨Document.isData_ofId data, rfl⟩, rfl⟩
  · intro c hc _ v hv d hd
    exact ⟨hd.1.set (h.cells c hc v hv), Document.attributes_set hd.2⟩

/-- The documents of a table are clear if no other column than that of the ids has the name of a
member. -/
theorem clear_of_toDocuments (apart : ∀ c ∈ table, c.1 ∈ Document.memberNames → c.1 = "id")
    (read : table.toDocuments true = .ok docs) : ∀ d ∈ docs, d.Clear := by
  refine forall_of_toDocuments (P := Document.Clear) ?_ ?_ read
  · exact fun _ _ _ _ _ _ => rfl
  · exact fun c hc other v _ d hd => hd.set fun member => other (apart c hc member)

/-- What a patch sets is data, under other names than those of the members. -/
theorem patch_of_toDocuments (h : table.IsData) (read : table.toDocuments true = .ok docs) :
    ∀ patch ∈ docs, ∀ e ∈ patch.bag, e.2.isData = true ∧ e.1 ∉ Document.memberNames := by
  intro patch hpatch e he
  obtain ⟨plain, absent⟩ := plain_of_toDocuments h read patch hpatch
  refine ⟨plain.data.bag e he, fun member => ?_⟩
  have reserved : ∀ name ∈ Document.memberNames, Document.reserved.contains name = true := by
    decide
  unfold Document.bag at he
  rw [absent] at he
  have free := (List.mem_filter.mp he).2
  rw [reserved e.1 member] at free
  cases free

end Columns

/-- The tables of a write that was decoded from a tree in a text are data. -/
theorem WriteRequest.isData_tables {j : Json} {r : WriteRequest} (readable : j.isReadable = true)
    (decoded : ofJson? j = some r) :
    (∀ table ∈ r.upsert, table.IsData) ∧ ∀ table ∈ r.patch, table.IsData := by
  unfold ofJson? at decoded
  split at decoded
  case h_1 upsert patch deletes filter found =>
    have part (field : Option Json) (hfield : field ∈ [upsert, patch, deletes, filter])
        {table : Columns} (h : Json.optional? Columns.ofJson? field = some (some table)) :
        table.IsData := by
      obtain ⟨j, rfl, decoded⟩ := Json.optional?_eq_some h
      exact Columns.isData_of_ofJson? (Json.isReadable_of_fields? readable found hfield) decoded
    obtain ⟨upserted, hupsert, decoded⟩ := Option.bind_eq_some_iff.mp decoded
    obtain ⟨patched, hpatch, decoded⟩ := Option.bind_eq_some_iff.mp decoded
    obtain ⟨_, -, decoded⟩ := Option.bind_eq_some_iff.mp decoded
    obtain ⟨_, -, decoded⟩ := Option.bind_eq_some_iff.mp decoded
    obtain rfl := Option.some.inj decoded
    exact ⟨fun table htable => part upsert (by simp) (hupsert.trans (congrArg some htable)),
      fun table htable => part patch (by simp) (hpatch.trans (congrArg some htable))⟩
  case h_2 => cases decoded

/-! ### Runs of calls -/

namespace Backend

/-- On a namespace, the call loads documents without vectors from a text, or writes what was decoded
from a text. -/
def Call.FromText (ns : String) : Call → Prop
  | .insert n docs => n = ns → (∃ text, readDocuments? text = some docs) ∧
      ∀ d ∈ docs, d.vector = none
  | .write n request => n = ns → ∃ text, (Json.read? text).bind WriteRequest.ofJson? = some request
  | _ => True

/-- The columns of documents that the call inserts into a namespace. -/
def Call.columns (ns : String) : Call → Columns
  | .write n request => if n = ns then request.upsert.getD [] else []
  | _ => []

variable {ns : String} {c : Call}

theorem Call.keeps_plain (h : c.FromText ns) : c.Keeps Document.Plain ns := by
  cases c with
  | insert n docs =>
    intro here d hd
    obtain ⟨⟨text, read⟩, flat⟩ := h here
    exact ⟨(decoded_of_readDocuments? read d hd).isData, flat d hd⟩
  | write n request =>
    intro here
    obtain ⟨text, read⟩ := h here
    obtain ⟨j, tree, decoded⟩ := Option.bind_eq_some_iff.mp read
    obtain ⟨upsert, patch⟩ := WriteRequest.isData_tables (Json.isReadable_of_read? tree) decoded
    refine ⟨fun table htable docs read d hd => ?_, fun table htable docs read p hp e he d hd => ?_⟩
    · exact (Columns.plain_of_toDocuments (upsert table htable) read d hd).1
    · exact hd.set (Columns.patch_of_toDocuments (patch table htable) read p hp e he).1
  | _ => trivial

theorem Call.keeps_clear (h : c.FromText ns)
    (apart : ∀ column ∈ c.columns ns, column.1 ∈ Document.memberNames → column.1 = "id") :
    c.Keeps Document.Clear ns := by
  cases c with
  | insert n docs =>
    intro here d hd
    obtain ⟨⟨text, read⟩, -⟩ := h here
    obtain ⟨j, -, decoded⟩ := decoded_of_readDocuments? read d hd
    exact Document.clear_of_ofJson? decoded
  | write n request =>
    intro here
    obtain ⟨text, read⟩ := h here
    obtain ⟨j, tree, decoded⟩ := Option.bind_eq_some_iff.mp read
    obtain ⟨-, patch⟩ := WriteRequest.isData_tables (Json.isReadable_of_read? tree) decoded
    refine ⟨fun table htable docs read d hd => ?_, fun table htable docs read p hp e he d hd => ?_⟩
    · refine Columns.clear_of_toDocuments (fun column hcolumn => apart column ?_) read d hd
      show column ∈ if n = ns then request.upsert.getD [] else []
      rw [if_pos here, Option.mem_def.mp htable]
      exact hcolumn
    · exact hd.set (Columns.patch_of_toDocuments (patch table htable) read p hp e he).2
  | _ => trivial

/-- **When the rows of an answer are read back**, after any run of calls that load rows without
vectors from texts and decode their writes from texts: the text of a row is decoded to that row
exactly if no free field has the name of a member and every floating-point number is read as it was
written. If no documents were inserted with a column of such a name, other than the ids, the first
of these fails exactly if a field of such a name, other than the vector, is asked for and there. -/
theorem answer_read_back {b : Backend} {calls : List Call}
    (reached : Backend.empty.callAll calls = b) (fromText : ∀ c ∈ calls, c.FromText ns)
    {request : QueryRequest} {r : QueryResponse} (answered : b.store.query ns request = .ok r)
    {d : Document} (hd : d ∈ r.rows) (shallow : d.toJson.depth ≤ Json.Build.maxDepth) :
    ((Json.read? d.toJson.render).bind Document.ofJson? = some d ↔
      d.Clear ∧ ∀ x ∈ d.toJson.floats, Json.ReadsBack x) ∧
    ∃ e ∈ b.store.rows ns, d = e.2.project request.projection ∧
      ((∀ c ∈ calls, ∀ column ∈ c.columns ns,
          column.1 ∈ Document.memberNames → column.1 = "id") →
        (d.Clear ↔ ∀ name ∈ Document.memberNames, name ∈ request.projection.names →
          name ≠ "vector" → e.2.get? name = none)) := by
  have nothing (P : Document → Prop) : (Backend.empty.store.rows ns).All P := fun _ => nofun
  obtain ⟨e, he, rfl⟩ := Store.exists_of_mem_answer answered hd
  refine ⟨?_, e, he, rfl, fun columns => ?_⟩ <;> rw [← reached] at he
  · have plain : e.2.Plain :=
      forall_callAll (fun c hc => Call.keeps_plain (fromText c hc)) (nothing _) e he
    have projected := plain.project request.projection
    exact Document.read_render_iff projected.data projected.flat shallow
  · have clear : e.2.Clear := forall_callAll
      (fun c hc => Call.keeps_clear (fromText c hc) (columns c hc)) (nothing _) e he
    exact clear.project_iff request.projection

/-- A row with a fraction. -/
def tenth : Document := ⟨.int 1, none, none, none, [("a", .float (Binary.ofRatio false 1 10))]⟩

/-- A write that inserts a row and patches another one. -/
def insertAndPatch : WriteRequest :=
  { WriteRequest.empty with
    upsert := some [("b", [.null]), ("id", [.int 2])]
    patch := some [("b", [.bool true]), ("id", [.int 1])] }

theorem answer_read_back_patched : ∃ b r d,
    Backend.empty.callAll [.insert "docs" [tenth], .write "docs" insertAndPatch] = b ∧
    b.store.query "docs" (.rows none .byId 9) = .ok r ∧ d ∈ r.rows ∧
    d.toJson.render = "\x7b\"id\":1,\"a\":0.1,\"b\":true\x7d" ∧
    (Json.read? d.toJson.render).bind Document.ofJson? = some d := by
  obtain ⟨b, reached⟩ : ∃ b,
      Backend.empty.callAll [.insert "docs" [tenth], .write "docs" insertAndPatch] = b := ⟨_, rfl⟩
  have loaded : readDocuments? "[\x7b\"id\":1,\"a\":0.1\x7d]" = some [tenth] := by
    have tree : Json.read? "[\x7b\"id\":1,\"a\":0.1\x7d]" = some (.array [.object
      [("id", .int 1), ("a", .float (Binary.ofRatio false 1 10))]]) := rfl
    rw [readDocuments?, tree]
    rfl
  have written : (Json.read? insertAndPatch.toJson.render).bind WriteRequest.ofJson? =
      some insertAndPatch := by
    have tree : Json.read? insertAndPatch.toJson.render = some insertAndPatch.toJson := rfl
    rw [tree]
    rfl
  have fromText : ∀ c ∈ [Call.insert "docs" [tenth], .write "docs" insertAndPatch],
      c.FromText "docs" :=
    List.forall_mem_cons.mpr ⟨fun _ => ⟨⟨_, loaded⟩, List.forall_mem_singleton.mpr rfl⟩,
      List.forall_mem_singleton.mpr fun _ => ⟨_, written⟩⟩
  have there : b.store.namespaces.get? "docs" =
      some [("1", tenth.set "b" (.bool true)), ("2", .ofId (.int 2))] := reached ▸ rfl
  have size : b.store.size "docs" ≤ 9 := by
    rw [Store.size, Store.rows_of_get? there]
    decide
  obtain ⟨r, answered, perm⟩ : ∃ r, b.store.query "docs" (.rows none .byId 9) = .ok r ∧
      r.rows.Perm [tenth.set "b" (.bool true), .ofId (.int 2)] :=
    Store.query_unfiltered there rfl rfl rfl size
  have here : tenth.set "b" (.bool true) ∈ r.rows := perm.mem_iff.mpr List.mem_cons_self
  have shallow : (tenth.set "b" (.bool true)).toJson.depth ≤ Json.Build.maxDepth := by decide
  obtain ⟨exact, -⟩ := answer_read_back reached fromText answered here shallow
  refine ⟨b, r, _, reached, answered, here, rfl, exact.mpr ⟨by decide, ?_⟩⟩
  decide +kernel

/-- **The row with the id 1 is not read back** when its id is asked for by name: the name stands
twice. -/
theorem answer_not_read_back : ∃ docs b r d,
    readDocuments? "[\x7b\"id\":1\x7d]" = some docs ∧
    Backend.empty.callAll [.insert "docs" docs] = b ∧
    b.store.query "docs" ⟨none, some .byId, some 10, .only ["id"], none, none⟩ = .ok r ∧
    d ∈ r.rows ∧ d.toJson.render = "\x7b\"id\":1,\"id\":1\x7d" ∧
    (Json.read? d.toJson.render).bind Document.ofJson? = none := by
  have loaded : readDocuments? "[\x7b\"id\":1\x7d]" = some [.ofId (.int 1)] := by
    have tree : Json.read? "[\x7b\"id\":1\x7d]" = some (.array [.object [("id", .int 1)]]) := rfl
    rw [readDocuments?, tree]
    rfl
  have answered : (Backend.empty.callAll [.insert "docs" [.ofId (.int 1)]]).store.query "docs"
      ⟨none, some .byId, some 10, .only ["id"], none, none⟩ =
        .ok ⟨[(Document.ofId (.int 1)).set "id" (.int 1)], none, some Store.performance⟩ := by
    cbv
  exact ⟨_, _, _, _, loaded, rfl, answered, List.mem_singleton_self _, rfl, rfl⟩

end Backend

end DocQuery
