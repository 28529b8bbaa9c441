import DocQuery.Engine.Basic
import DocQuery.Proofs.Json.Print

/-!
# What the key of a page tells apart

Cached pages are found by a key in which the filters stand as one text. Nothing is lost in it that
matters for the answer: the text of the filters gives back their attributes, operators and values,
and blanks around the search text are dropped by the compiler as well.

* `Engine.filtersKey_inj` – filters with the same text ask for the same
  (`ActiveFilter.content`);
* `compile_congr` – such filters are compiled alike, whatever types the attributes have;
* `Engine.queryKey_eq_iff` – **pages with the same key are the same page of the same query.**
-/

namespace DocQuery

/-! ### The text of the filters -/

theorem Operator.name_inj {a b : Operator} (h : a.name = b.name) : a = b := by
  have hread (op : Operator) : ofName? op.name = some op := by cases op <;> decide
  exact Option.some.inj ((hread a).symm.trans ((congrArg ofName? h).trans (hread b)))

namespace ActiveFilter

/-- What a filter asks for. -/
def content (f : ActiveFilter) : String × Operator × Value := (f.name, f.operator, f.value)

/-- A filter in the key of a page. -/
def keyJson (f : ActiveFilter) : Json :=
  .object [("attribute", .string f.name), ("operator", .string f.operator.name),
    ("value", f.value.toJson)]

theorem keyJson_isData {f : ActiveFilter} (h : f.value.isData = true) :
    f.keyJson.isData = true := by
  have hsorted : Record.Sorted [("attribute", Json.string f.name),
      ("operator", Json.string f.operator.name), ("value", f.value.toJson)] := by
    have hnames : ["attribute", "operator", "value"].Pairwise (· < ·) := by decide
    exact Value.sorted_iff_map_fst.mpr hnames
  simp [keyJson, Json.isData, Json.haveData, hsorted, Value.isData_toJson _ h]

theorem keyJson_inj {f g : ActiveFilter} (hf : f.value.isData = true) (hg : g.value.isData = true)
    (h : f.keyJson = g.keyJson) : f.content = g.content := by
  simp only [keyJson, Json.object.injEq, List.cons.injEq, Prod.mk.injEq, Json.string.injEq,
    true_and, and_true] at h
  obtain ⟨hname, hoperator, hvalue⟩ := h
  rw [content, content, hname, Operator.name_inj hoperator, Value.toJson_inj hf hg hvalue]

/-- What a filter is compiled to depends on what it asks for. -/
theorem compile_of_content {f g : ActiveFilter} (h : f.content = g.content)
    (type : Option FieldType) : f.compile type = g.compile type := by
  obtain ⟨hname, hoperator, hvalue⟩ : f.name = g.name ∧ f.operator = g.operator ∧
      f.value = g.value := by
    simpa [content] using h
  rw [compile, compile, hname, hoperator, hvalue]

end ActiveFilter

/-- **Filters with the same key ask for the same**, if their values can be written as JSON. -/
theorem Engine.filtersKey_inj {fs gs : List ActiveFilter}
    (hfs : ∀ f ∈ fs, f.value.isData = true) (hgs : ∀ g ∈ gs, g.value.isData = true)
    (h : filtersKey fs = filtersKey gs) :
    fs.map ActiveFilter.content = gs.map ActiveFilter.content := by
  have hdata (hs : List ActiveFilter) (hdata : ∀ f ∈ hs, f.value.isData = true) :
      (Json.array (hs.map ActiveFilter.keyJson)).isData = true := by
    refine Json.areData_iff.mpr fun j hj => ?_
    obtain ⟨f, hf, rfl⟩ := List.mem_map.mp hj
    exact ActiveFilter.keyJson_isData (hdata f hf)
  have hkeys : fs.map ActiveFilter.keyJson = gs.map ActiveFilter.keyJson :=
    Json.array.inj (Json.render_inj (hdata fs hfs) (hdata gs hgs) h)
  clear h
  induction fs generalizing gs with
  | nil =>
    obtain rfl : gs = [] := List.map_eq_nil_iff.mp hkeys.symm
    rfl
  | cons f fs ih =>
    obtain ⟨g, gs, rfl, hg, hrest⟩ := List.map_eq_cons_iff.mp hkeys.symm
    have hhead : f.content = g.content :=
      ActiveFilter.keyJson_inj (hfs f List.mem_cons_self) (hgs g List.mem_cons_self) hg.symm
    rw [List.map_cons, List.map_cons, hhead,
      ih (fun f hf => hfs f (List.mem_cons_of_mem _ hf))
        (fun g hg => hgs g (List.mem_cons_of_mem _ hg)) hrest.symm]

theorem searchFilter_of_trim {a b : String} (h : trimString a = trimString b) :
    searchFilter a = searchFilter b := by
  rw [searchFilter, searchFilter, h]

/-- **Filters that ask for the same are compiled alike**, if blanks around the search text do not
count. -/
theorem compile_congr {fs gs : List ActiveFilter} {a b : String}
    (contents : fs.map ActiveFilter.content = gs.map ActiveFilter.content)
    (search : trimString a = trimString b) (types : Record FieldType) :
    compile fs a types = compile gs b types := by
  have compiled : fs.map (fun f => f.compile (types.get? f.name)) =
      gs.map (fun f => f.compile (types.get? f.name)) := by
    rw [← List.forall₂_eq_eq_eq, List.forall₂_map_left_iff, List.forall₂_map_right_iff]
      at contents ⊢
    refine contents.imp fun f g same => ?_
    have name : f.name = g.name := congrArg Prod.fst same
    rw [name]
    exact ActiveFilter.compile_of_content same _
  rw [compile, compile, searchFilter_of_trim search, compiled]

namespace Engine

variable {s t : EngineState}

/-! ### The key of a page -/

/-- Filters in the same places ask for the same. -/
theorem map_content_eq_iff {fs gs : List ActiveFilter} :
    fs.map ActiveFilter.content = gs.map ActiveFilter.content ↔
      List.Forall₂ (fun f g : ActiveFilter =>
        f.name = g.name ∧ f.operator = g.operator ∧ f.value = g.value) fs gs := by
  rw [← List.forall₂_eq_eq_eq, List.forall₂_map_left_iff, List.forall₂_map_right_iff]
  simp only [ActiveFilter.content, Prod.mk.injEq]

theorem filtersKey_eq (fs : List ActiveFilter) :
    filtersKey fs = (Json.array (fs.map ActiveFilter.keyJson)).render := rfl

/-- The text of filters depends on what they ask for. -/
theorem filtersKey_congr {fs gs : List ActiveFilter}
    (contents : fs.map ActiveFilter.content = gs.map ActiveFilter.content) :
    filtersKey fs = filtersKey gs := by
  have texts : fs.map ActiveFilter.keyJson = gs.map ActiveFilter.keyJson := by
    have keyJson : ActiveFilter.keyJson = (fun c : String × Operator × Value =>
        Json.object [("attribute", .string c.1), ("operator", .string c.2.1.name),
          ("value", c.2.2.toJson)]) ∘ ActiveFilter.content := rfl
    rw [keyJson, ← List.map_map, contents, List.map_map]
  rw [filtersKey_eq, filtersKey_eq, texts]

/-- **Pages with the same key are the same page of the same query**: of one place, size and order,
with the same search text up to blanks around it, and with filters that have one by one the same
attribute, operator and value. And they are compiled to the same filter, whatever types the
attributes have. The values of the filters can be written as JSON: there is no infinity and no
not-a-number in them, and the members of objects stand in order, as they do in every value that was
decoded. -/
theorem queryKey_eq_iff (hs : ∀ f ∈ s.query.filters, f.value.isData = true)
    (ht : ∀ f ∈ t.query.filters, f.value.isData = true) (page page' : Nat) :
    (queryKey s page = queryKey t page' ↔
      s.connection = t.connection ∧ s.ns = t.ns ∧ page = page' ∧
      s.query.pages.size = t.query.pages.size ∧ s.query.sort.name = t.query.sort.name ∧
      s.query.sort.direction = t.query.sort.direction ∧
      trimString s.query.search = trimString t.query.search ∧
      List.Forall₂ (fun f g : ActiveFilter =>
        f.name = g.name ∧ f.operator = g.operator ∧ f.value = g.value)
        s.query.filters t.query.filters) ∧
    (queryKey s page = queryKey t page' → ∀ types,
      compile s.query.filters s.query.search types =
        compile t.query.filters t.query.search types) := by
  have filters : filtersKey s.query.filters = filtersKey t.query.filters ↔
      s.query.filters.map ActiveFilter.content = t.query.filters.map ActiveFilter.content :=
    ⟨filtersKey_inj hs ht, filtersKey_congr⟩
  constructor
  · rw [← map_content_eq_iff, ← filters]
    simp only [queryKey, QueryKey.mk.injEq]
    constructor
    · rintro ⟨connection, ns, search, filters, sort, direction, page, size⟩
      exact ⟨connection, ns, page, size, sort, direction, search, filters⟩
    · rintro ⟨connection, ns, page, size, sort, direction, search, filters⟩
      exact ⟨connection, ns, search, filters, sort, direction, page, size⟩
  · intro same types
    exact compile_congr (filters.1 (congrArg QueryKey.filters same)) (congrArg QueryKey.search same)
      types

/-- A search among the documents of one size. -/
def sized (search : String) (id : Nat) (size : Value) (shown : String) : EngineState :=
  { EngineState.start "local" "docs" 10 with
    query := ⟨search, [⟨id, "size", .equals, size, shown⟩], .byId, .start 10⟩ }

/-- Blanks, ids and what was typed do not count, but the type of a number does. -/
theorem queryKey_eq_iff_sized :
    queryKey (sized " a" 1 (.int 3) "3") 1 = queryKey (sized "a\t" 2 (.int 3) "03") 1 ∧
    (∀ types, compile (sized " a" 1 (.int 3) "3").query.filters " a" types =
      compile (sized "a\t" 2 (.int 3) "03").query.filters "a\t" types) ∧
    queryKey (sized "a" 1 (.int 3) "3") 1 ≠
      queryKey (sized "a" 1 (.float (Binary.ofInt 3)) "3") 1 := by
  have whole (search : String) (id : Nat) (shown : String) :
      ∀ f ∈ (sized search id (.int 3) shown).query.filters, f.value.isData = true :=
    List.forall_mem_singleton.2 rfl
  have finite : ∀ f ∈ (sized "a" 1 (.float (Binary.ofInt 3)) "3").query.filters,
      f.value.isData = true :=
    List.forall_mem_singleton.2 (by decide +kernel)
  have blanks : queryKey (sized " a" 1 (.int 3) "3") 1 =
      queryKey (sized "a\t" 2 (.int 3) "03") 1 := by
    decide +kernel
  have alike := (queryKey_eq_iff (whole " a" 1 "3") (whole "a\t" 2 "03") 1 1).2 blanks
  refine ⟨blanks, alike, fun same => ?_⟩
  obtain ⟨-, -, -, -, -, -, -, filters⟩ := (queryKey_eq_iff (whole "a" 1 "3") finite 1 1).1.1 same
  obtain ⟨⟨-, -, values⟩, -⟩ := List.forall₂_cons.1 filters
  cases values

end Engine

end DocQuery
