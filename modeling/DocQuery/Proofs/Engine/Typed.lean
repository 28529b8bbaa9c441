import DocQuery.Proofs.Engine.Client
import DocQuery.Proofs.FieldType
import DocQuery.Proofs.Store.Ranking

/-!
# Filters typed from what is shown

A person who sees a value in a table types its text into a filter for equality. The text is
converted to the type of the attribute that a discovery reported, the filter is compiled with the
same type, and the store compares loosely.

* `Document.getOrNull_of_bag` – an attribute in the bag of a document is read by its name, unless
  the name is `id`;
* `Engine.filter_addFilter` – the filter of an engine with one equality on an attribute that is no
  array;
* `Client.equals_displayed_iff` – **the filter selects the document exactly if the text of the value
  is taken at its word** (`Value.isTypeable`).
-/

namespace DocQuery

/-! ### Attributes of documents -/

namespace Document

/-- An attribute is read by its name, which is not the name of the id. -/
theorem getOrNull_of_bag {d : Document} {name : String} {v : Value} (hid : name ≠ "id")
    (h : d.bag.get? name = some v) : d.getOrNull name = v := by
  have hstore : d.store.get? name = some v := by
    unfold bag at h
    unfold store
    cases hattributes : d.attributes with
    | some r =>
      rw [hattributes] at h
      exact h
    | none =>
      rw [hattributes] at h
      have hname : (!reserved.contains name) = true :=
        List.of_mem_filter (p := fun e : String × Value => !reserved.contains e.1)
          (Record.mem_of_get? h)
      have kept := Record.get?_filter (fun name => !reserved.contains name) name d.fields
      rw [if_pos hname] at kept
      exact kept.symm.trans h
  rw [getOrNull, get?, if_neg hid, hstore, Option.getD_some]

end Document

/-! ### One filter for equality -/

theorem searchFilter_of_blank {text : String} (h : (trimString text).isEmpty = true) :
    searchFilter text = [] := if_pos h

/-- Equality on an attribute that holds no arrays. -/
theorem ActiveFilter.compile_equals {type : Option FieldType}
    (h : (type.map FieldType.isArray).getD false = false) (id : Nat) (name : String) (v : Value)
    (shown : String) :
    ActiveFilter.compile type (.make id name .equals v shown) = .condition name .eq v := by
  unfold ActiveFilter.compile ActiveFilter.make
  rw [h]
  cases v <;> rfl

namespace Engine

/-- The filter of an engine to which a filter for equality was added: a single condition. -/
theorem filter_addFilter {e : Engine} (hfilters : e.state.query.filters = [])
    (hsearch : (trimString e.state.query.search).isEmpty = true) {name : String}
    (hscalar : ((e.state.types.get? name).map FieldType.isArray).getD false = false)
    (raw : String) :
    (e.addFilter name .equals raw).2.state.filter = some (.condition name .eq
      (FieldType.coerce ((e.state.attribute? name).bind Attribute.fieldType?) raw)) := by
  have hquery : (e.addFilter name .equals raw).2.state.query.filters =
      [{ buildFilter e.state e.state.nextFilterId name .equals raw with
          id := e.state.nextFilterId }] := by
    show e.state.query.filters ++ _ = _
    rw [hfilters]
    rfl
  have hsearch' : searchFilter (e.addFilter name .equals raw).2.state.query.search = [] :=
    searchFilter_of_blank hsearch
  rw [EngineState.filter, DocQuery.compile, hquery, hsearch']
  exact congrArg some (ActiveFilter.compile_equals hscalar _ _ _ _)

end Engine

/-- Attributes of these types hold no arrays. -/
theorem Attribute.exists_fieldType? {a : Attribute}
    (h : a.type = .string ∨ a.type = .number ∨ a.type = .boolean ∨ a.type = .date) :
    ∃ t, a.fieldType? = some t ∧ t.isArray = false := by
  unfold Attribute.fieldType?
  rcases h with h | h | h | h <;> rw [h] <;> exact ⟨_, rfl, rfl⟩

/-- A value that is not null has a type. -/
theorem AttributeType.exists_ofValue? {v : Value} (h : v.isNull = false) :
    ∃ b, AttributeType.ofValue? v = some b := by
  cases v with
  | null => cases h
  | _ => exact ⟨_, rfl⟩

namespace Client

/-- **A discovery past the cache reports on the documents of the namespace**, up to the size of a
sample. -/
theorem discover_forced (c : Client) (hfailures : c.backend.failures = []) {rows : Rows}
    (hrows : c.backend.store.namespaces.get? c.engine.state.ns = some rows) :
    (c.discover true).2 = DocQuery.discover
      ((RankBy.byId.sort rows.documents).take c.engine.config.discovery.sampleSize)
      c.engine.config.discovery := by
  have hreply : c.backend.store.reply c.engine.state.ns
      (Discovery.request ⟨c.engine.state⟩ c.engine.config) =
        .ok ⟨(RankBy.byId.sort rows.documents).take c.engine.config.discovery.sampleSize, none,
          some Store.performance⟩ := by
    have hquery : c.backend.store.query c.engine.state.ns
        (.rows none .byId c.engine.config.discovery.sampleSize) =
          .ok ⟨(RankBy.byId.sort (rows.select none)).take c.engine.config.discovery.sampleSize,
            none, some Store.performance⟩ :=
      Store.query_rows_iff.mpr ⟨rows, none, hrows, rfl, rfl⟩
    have hselect : rows.select none = rows.documents := by simp [Rows.select]
    rw [Discovery.request, Store.reply_consistent, Store.reply, DiscoveryOptions.sampleRequest,
      hquery, hselect]
  obtain ⟨answer, b, hask⟩ : ∃ answer b, c.backend.ask c.engine.state.ns
      (Discovery.request ⟨c.engine.state⟩ c.engine.config) = (answer, b) := ⟨_, _, rfl⟩
  obtain ⟨hanswer, -⟩ := (Backend.answers_of_ask hask).sound hfailures
  rw [hreply] at hanswer
  have hdiscover : (c.discover true).2 = ((c.engine.dispatch .discoveryStarted).resumeDiscovery
      ⟨c.engine.state⟩ (c.backend.ask c.engine.state.ns
        (Discovery.request ⟨c.engine.state⟩ c.engine.config)).1).2 := rfl
  have hat : c.engine.state.isAt c.engine.state.connection c.engine.state.ns = true := by
    simp [EngineState.isAt]
  rw [hdiscover, hask, hanswer]
  unfold Engine.resumeDiscovery
  rw [if_neg]
  · rfl
  · show ¬ (!c.engine.state.isAt c.engine.state.connection c.engine.state.ns) = true
    rw [hat]
    decide

/-- The filter of a client that discovers the schema and then has the displayed text of a value
typed into a filter for equality. -/
def typedFilter (c : Client) (force : Bool) (name : String) (v : Value) : Option Filter :=
  ((c.discover force).1.engine.addFilter name .equals v.display).2.state.filter

/-- The documents of the namespace that is shown. -/
def rows (c : Client) : Rows := c.backend.store.rows c.engine.state.ns

/-- A value that is displayed while nothing is asked for: it is a value of a document of the
namespace, in an attribute that a discovery reports as a scalar from all documents. -/
structure Displays (c : Client) (force : Bool) (a : Attribute) (d : Document) (v : Value) :
    Prop where
  filters : c.engine.state.query.filters = []
  search : (trimString c.engine.state.query.search).isEmpty = true
  sample : ∃ sample, (c.discover force).2 = DocQuery.discover sample c.engine.config.discovery ∧
    ∀ d ∈ c.rows.documents, d ∈ sample
  reported : a ∈ (c.discover force).2
  scalar : a.type = .string ∨ a.type = .number ∨ a.type = .boolean ∨ a.type = .date
  present : d ∈ c.rows.documents
  value : d.bag.get? a.name = some v
  notNull : v.isNull = false

/-- The attribute of a displayed value has a type, by which the text is converted and the filter is
compiled to a single condition. -/
theorem Displays.typedFilter_eq {c : Client} {force : Bool} {a : Attribute} {d : Document}
    {v : Value} (h : c.Displays force a d v) :
    c.typedFilter force a.name v =
      some (.condition a.name .eq (FieldType.coerce a.fieldType? v.display)) := by
  obtain ⟨sample, hsample, -⟩ := h.sample
  obtain ⟨hlearns, -, hattributes⟩ := c.discover_cases force
  have hnodup : ((c.discover force).2.map Attribute.name).Nodup := by
    rw [hsample]
    exact discover_nodup sample _
  obtain ⟨t, ht, hnoArray⟩ := Attribute.exists_fieldType? h.scalar
  have htype : (c.discover force).1.engine.state.types.get? a.name = some t := by
    rw [EngineState.types, hattributes]
    exact get?_typesOf hnodup h.reported ht
  have hfound : (c.discover force).1.engine.state.attribute? a.name = some a := by
    rw [EngineState.attribute?, hattributes]
    exact find?_name hnodup h.reported
  have hone := Engine.filter_addFilter (e := (c.discover force).1.engine)
    (by rw [hlearns.query_eq, h.filters]) (by rw [hlearns.query_eq, h.search])
    (by rw [htype]; exact hnoArray) v.display
  rwa [hfound, Option.bind_some] at hone

/-- **A filter for equality that was typed from a displayed value selects the document with that
value exactly if the text is taken at its word.** The name `id` is that of the ids, also where an
attribute is called so. -/
theorem equals_displayed_iff {c : Client} {force : Bool} {a : Attribute} {d : Document} {v : Value}
    (h : c.Displays force a d v) (hid : a.name ≠ "id") :
    ∃ p, Store.predicate? (c.typedFilter force a.name v) = .ok (some p) ∧
      (d ∈ c.rows.select (some p) ↔ v.isTypeable = true) := by
  refine ⟨.leaf a.name .eq (FieldType.coerce a.fieldType? v.display) none, ?_, ?_⟩
  · rw [h.typedFilter_eq]
    rfl
  · -- the type of the attribute covers the value
    obtain ⟨sample, hsample, hall⟩ := h.sample
    obtain ⟨b, hb⟩ := AttributeType.exists_ofValue? h.notNull
    have hcovers : a.type.Covers b :=
      discover_covers (hsample ▸ h.reported) (hall d h.present) h.value hb
    have htest : Predicate.test (.leaf a.name .eq (FieldType.coerce a.fieldType? v.display) none)
        d = v.isTypeable := by
      rw [Predicate.test, Document.getOrNull_of_bag hid h.value, Predicate.holds]
      exact Value.looseEq_coerce_display hb hcovers h.scalar
    rw [Rows.select, List.mem_filter, Option.all_some, htest]
    exact and_iff_right h.present

/-- Two documents with names. One name has a comma, and the other document has an attribute that is
called like the id. -/
def named : List Document :=
  [⟨.int 1, none, none, none, [("name", .string "a, b")]⟩,
    ⟨.int 2, none, none, some [("id", .bool true), ("name", .string "c")], []⟩]

/-- A new client that shows them. -/
def namedClient : Client :=
  ⟨.start .default "local" "docs" none,
    { Backend.empty with store := Store.empty.insert "docs" named }⟩

theorem displays_named {a : Attribute} {d : Document} {v : Value}
    (ha : a ∈ (namedClient.discover true).2) (hscalar : a.type = .string ∨ a.type = .boolean)
    (hd : d ∈ named) (hv : d.bag.get? a.name = some v) (hnull : v.isNull = false) :
    namedClient.Displays true a d v := by
  have hrows : namedClient.rows = named.map fun d => (d.id.key, d) := by cbv
  have hdocuments : namedClient.rows.documents = named := by
    rw [hrows]
    rfl
  have hget : namedClient.backend.store.namespaces.get? namedClient.engine.state.ns =
      some namedClient.rows := rfl
  have hsample := discover_forced namedClient rfl hget
  rw [List.take_of_length_le (by
    rw [RankBy.sort, length_stableSort, hdocuments]
    decide)] at hsample
  exact {
    filters := rfl
    search := by decide
    sample := ⟨_, hsample, fun d hd => mem_stableSort.mpr hd⟩
    reported := ha
    scalar := hscalar.elim Or.inl fun h => Or.inr (Or.inr (Or.inl h))
    present := by rwa [hdocuments]
    value := hv
    notNull := hnull }

/-- What a discovery reports of them. -/
theorem discover_named : (namedClient.discover true).2.map (fun a => (a.name, a.type)) =
    [("name", .string), ("id", .boolean)] := by
  cbv

theorem exists_named {name : String} {type : AttributeType}
    (h : (name, type) ∈ [("name", AttributeType.string), ("id", .boolean)]) :
    ∃ a ∈ (namedClient.discover true).2, a.name = name ∧ a.type = type := by
  rw [← discover_named] at h
  obtain ⟨a, ha, heq⟩ := List.mem_map.mp h
  cases heq
  exact ⟨a, ha, rfl, rfl⟩

/-- The other name, which has no comma, is found. -/
theorem equals_displayed_named : ∃ a d p, namedClient.Displays true a d (.string "c") ∧
    a.name = "name" ∧
    Store.predicate? (namedClient.typedFilter true a.name (.string "c")) = .ok (some p) ∧
    d ∈ namedClient.rows.select (some p) := by
  obtain ⟨a, ha, hname, htype⟩ := exists_named List.mem_cons_self
  have hshown : namedClient.Displays true a
      ⟨.int 2, none, none, some [("id", .bool true), ("name", .string "c")], []⟩ (.string "c") :=
    displays_named ha (Or.inl htype) (List.mem_cons_of_mem _ List.mem_cons_self)
      (by rw [hname]; rfl) rfl
  obtain ⟨p, hp, hselect⟩ := equals_displayed_iff hshown (by rw [hname]; decide)
  exact ⟨a, _, p, hshown, hname, hp, hselect.mpr (by decide)⟩

/-- **Not every displayed value can be typed in.** A name with a comma is taken for a list, and an
attribute that is called like the id is not read. -/
theorem equals_displayed_misses :
    (¬∀ (c : Client) (force : Bool) (a : Attribute) (d : Document) (v : Value),
      c.Displays force a d v → a.name ≠ "id" →
        ∃ p, Store.predicate? (c.typedFilter force a.name v) = .ok p ∧ d ∈ c.rows.select p) ∧
    ¬∀ (c : Client) (force : Bool) (a : Attribute) (d : Document) (v : Value),
      c.Displays force a d v → v.isTypeable = true →
        ∃ p, Store.predicate? (c.typedFilter force a.name v) = .ok p ∧ d ∈ c.rows.select p := by
  constructor
  · intro h
    obtain ⟨a, ha, hname, htype⟩ := exists_named List.mem_cons_self
    have hshown : namedClient.Displays true a
        ⟨.int 1, none, none, none, [("name", .string "a, b")]⟩ (.string "a, b") :=
      displays_named ha (Or.inl htype) List.mem_cons_self (by rw [hname]; rfl) rfl
    have hfilter := hshown.typedFilter_eq
    have hcoerce : FieldType.coerce a.fieldType? (Value.string "a, b").display =
        .array [.string "a", .string "b"] := by
      rw [Attribute.fieldType?, htype]
      rfl
    obtain ⟨p, hp, hselect⟩ := h _ _ _ _ _ hshown (by rw [hname]; decide)
    rw [hfilter, hcoerce, hname] at hp
    cases hp
    exact absurd (List.mem_filter.mp hselect).2 (by decide)
  · intro h
    obtain ⟨a, ha, hname, htype⟩ := exists_named (List.mem_cons_of_mem _ List.mem_cons_self)
    have hshown : namedClient.Displays true a
        ⟨.int 2, none, none, some [("id", .bool true), ("name", .string "c")], []⟩ (.bool true) :=
      displays_named ha (Or.inr htype) (List.mem_cons_of_mem _ List.mem_cons_self)
        (by rw [hname]; rfl) rfl
    have hfilter := hshown.typedFilter_eq
    have hcoerce : FieldType.coerce a.fieldType? (Value.bool true).display = .bool true := by
      rw [Attribute.fieldType?, htype]
      rfl
    obtain ⟨p, hp, hselect⟩ := h _ _ _ _ _ hshown rfl
    rw [hfilter, hcoerce, hname] at hp
    cases hp
    exact absurd (List.mem_filter.mp hselect).2 (by decide)

end Client

end DocQuery
