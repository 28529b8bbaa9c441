import DocQuery.Document.Columns
import DocQuery.Proofs.Record
import Mathlib.Data.List.Forall2

/-!
# Documents as columns, and back

A write carries documents by columns. A column is made for every attribute that some document has,
and a null cell is skipped on the way back, so that a document comes back with the attributes it
had. What is no attribute has no column.

* `Columns.get?_ofDocuments`, `Columns.flaw?_ofDocuments` – the table of a list of documents is well
  formed and holds what the documents hold;
* `Columns.toDocuments_ofDocuments` – **what comes back**, document by document
  (`Columns.copied`): the id and the cells that are not null, as free fields, and nothing else;
* `Columns.get?_bag_copied` – **its attributes are those of the document that are not null**, apart
  from the names that no free field can have as an attribute;
* `Columns.ofDocuments_lossless` – **every attribute comes back as it was**, whether or not null cells
  are skipped.
-/

namespace DocQuery

/-- A cell that is skipped. -/
theorem filter_isNull_eq_none_iff {o : Option Value} :
    (o.filter fun v => !v.isNull) = none ↔ o.all Value.isNull = true := by
  cases o <;> simp

namespace Columns

variable {docs : List Document}

/-! ### The table -/

theorem mem_names {name : String} :
    name ∈ names docs ↔ ∃ d ∈ docs, ∃ v, (name, v) ∈ d.bag := by
  simp [names]

/-- What the columns made so far hold. -/
theorem get?_addColumns (table : Columns) (ns : List String) (name : String) :
    Record.get? name (ns.foldl (fun table n =>
      Record.insert n (docs.map fun d => d.getOrNull n) table) table) =
    if name ∈ ns then some (docs.map fun d => d.getOrNull name) else table.get? name := by
  induction ns generalizing table with
  | nil => simp
  | cons n ns ih =>
    rw [List.foldl_cons, ih, Record.get?_insert]
    by_cases rest : name ∈ ns
    · simp [rest]
    · by_cases here : name = n <;> simp [rest, here]

theorem get?_ofDocuments (name : String) : Record.get? name (ofDocuments docs) =
    if name = "id" ∨ name ∈ names docs then some (docs.map fun d => d.getOrNull name) else none := by
  rw [ofDocuments, get?_addColumns]
  by_cases column : name ∈ names docs
  · simp [column]
  · by_cases ids : name = "id"
    · subst ids
      simp [column, Record.get?, Document.getOrNull, Document.get?]
    · simp [column, ids, Record.get?]

/-- The columns have different names, in order. -/
theorem sorted_ofDocuments : Record.Sorted (ofDocuments docs) := by
  unfold ofDocuments
  induction names docs using List.reverseRecOn with
  | nil => exact List.pairwise_singleton _ _
  | append_singleton ns n ih =>
    rw [List.foldl_append]
    exact ih.insert _ _

theorem mem_ofDocuments {c : String × List Value} (h : c ∈ ofDocuments docs) :
    (c.1 = "id" ∨ c.1 ∈ names docs) ∧ c.2 = docs.map fun d => d.getOrNull c.1 := by
  have found := sorted_ofDocuments.get?_of_mem h
  rw [get?_ofDocuments] at found
  split at found
  case isTrue column => exact ⟨column, (Option.some.inj found).symm⟩
  case isFalse => cases found

/-- **The table of a list of documents is well formed.** -/
theorem flaw?_ofDocuments : (ofDocuments docs).flaw? = none := by
  have even : (ofDocuments docs).find? (fun c => c.2.length !=
      (docs.map fun d => d.getOrNull "id").length) = none := by
    rw [List.find?_eq_none]
    intro c hc
    rw [(mem_ofDocuments hc).2, List.length_map, List.length_map, bne_self_eq_false]
    exact Bool.false_ne_true
  rw [flaw?, get?_ofDocuments, if_pos (.inl rfl)]
  exact congrArg (Option.map _) even

/-! ### The documents of a table -/

/-- A document with cells of another one. -/
def copyCells (skipNulls : Bool) (source d : Document) (ns : List String) : Document :=
  ns.foldl (fun d n => setCell skipNulls n d (source.getOrNull n)) d

variable {skipNulls : Bool}

theorem foldl_setColumn {cs : List (String × List Value)}
    (h : ∀ c ∈ cs, c.2 = docs.map fun d => d.getOrNull c.1) (f : Document → Document) :
    cs.foldl (setColumn skipNulls) (docs.map f) =
      docs.map fun d => copyCells skipNulls d (f d) (cs.map Prod.fst) := by
  induction cs generalizing f with
  | nil => rfl
  | cons c cs ih =>
    have column : setColumn skipNulls (docs.map f) c =
        docs.map fun d => setCell skipNulls c.1 (f d) (d.getOrNull c.1) := by
      rw [setColumn, h c List.mem_cons_self, List.zipWith_map, List.zipWith_self]
    rw [List.foldl_cons, column, ih fun c hc => h c (List.mem_cons_of_mem _ hc)]
    rfl

/-- The names of the columns that become attributes. -/
def attributeNames (docs : List Document) : List String :=
  ((ofDocuments docs).filter fun c => c.1 != "id").map Prod.fst

/-- A document as it comes back when null cells are skipped. -/
def copied (docs : List Document) (d : Document) : Document :=
  copyCells true d (.ofId d.id) (attributeNames docs)

/-- **Documents that went through a table** come back one by one. -/
theorem toDocuments_ofDocuments_eq : (ofDocuments docs).toDocuments skipNulls =
    .ok (docs.map fun d => copyCells skipNulls d (.ofId d.id) (attributeNames docs)) := by
  have ids : ((Record.get? "id" (ofDocuments docs)).getD []).map Document.ofId =
      docs.map fun d => Document.ofId d.id := by
    rw [get?_ofDocuments, if_pos (.inl rfl), Option.getD_some, List.map_map]
    rfl
  rw [toDocuments, flaw?_ofDocuments]
  dsimp only
  rw [ids, foldl_setColumn fun c hc => (mem_ofDocuments (List.mem_filter.1 hc).1).2]
  rfl

/-- They come back with the cells that are not null. -/
theorem toDocuments_ofDocuments :
    (ofDocuments docs).toDocuments true = .ok (docs.map (copied docs)) :=
  toDocuments_ofDocuments_eq

/-! ### What comes back -/

section Cells

variable {source d : Document}

/-- Cells of a document without a nested bag become free fields. -/
theorem setCell_eq (h : d.attributes = none) (n : String) (v : Value) : setCell skipNulls n d v =
    { d with fields := if skipNulls && v.isNull then d.fields else d.fields.insert n v } := by
  obtain ⟨id, vector, dist, attributes, fields⟩ := d
  obtain rfl : attributes = none := h
  cases null : skipNulls && v.isNull <;>
    simp [setCell, null, Document.set, Document.withStore, Document.store]

/-- Only free fields change, and they get the cells that are not skipped. -/
theorem copyCells_eq (h : d.attributes = none) (ns : List String) :
    ∃ fields : Record Value, copyCells skipNulls source d ns = { d with fields := fields } ∧
      ∀ name, fields.get? name =
        if name ∈ ns ∧ (skipNulls && (source.getOrNull name).isNull) = false then
          some (source.getOrNull name)
        else d.fields.get? name := by
  induction ns generalizing d with
  | nil => exact ⟨d.fields, rfl, fun name => by simp⟩
  | cons n ns ih =>
    have set : setCell skipNulls n d (source.getOrNull n) = _ := setCell_eq h n _
    obtain ⟨fields, eq, get⟩ := ih (d := setCell skipNulls n d (source.getOrNull n))
      (by rw [set]; exact h)
    refine ⟨fields, ?_, fun name => ?_⟩
    · calc copyCells skipNulls source d (n :: ns) =
            copyCells skipNulls source (setCell skipNulls n d (source.getOrNull n)) ns := rfl
        _ = { d with fields := fields } := by rw [eq, set]
    · -- the first cell, in the form of the statement
      have first : (setCell skipNulls n d (source.getOrNull n)).fields.get? name =
          if name = n ∧ (skipNulls && (source.getOrNull name).isNull) = false then
            some (source.getOrNull name)
          else d.fields.get? name := by
        rw [set]
        dsimp only
        by_cases here : name = n
        · subst here
          cases skipNulls && (source.getOrNull name).isNull <;> simp [Record.get?_insert]
        · cases skipNulls && (source.getOrNull n).isNull <;> simp [Record.get?_insert, here]
      rw [get, first]
      by_cases rest : name ∈ ns <;> by_cases here : name = n <;>
        cases skipNulls && (source.getOrNull name).isNull <;> simp [rest, here]

/-- Free fields stay in order. -/
theorem sorted_fields_copyCells (h : d.attributes = none) (sorted : d.fields.Sorted)
    (ns : List String) : (copyCells skipNulls source d ns).fields.Sorted := by
  induction ns generalizing d with
  | nil => exact sorted
  | cons n ns ih =>
    have set : setCell skipNulls n d (source.getOrNull n) = _ := setCell_eq h n _
    refine ih (d := setCell skipNulls n d (source.getOrNull n)) ?_ ?_ <;> rw [set]
    · exact h
    · dsimp only
      split
      · exact sorted
      · exact sorted.insert _ _

end Cells

/-- **A document comes back** with its id and free fields, and with nothing else. -/
theorem copyCells_ofId (skipNulls : Bool) (docs : List Document) (d : Document) :
    ∃ fields : Record Value, copyCells skipNulls d (.ofId d.id) (attributeNames docs) =
        ⟨d.id, none, none, none, fields⟩ ∧
      ∀ name, fields.get? name =
        if name ∈ attributeNames docs ∧ (skipNulls && (d.getOrNull name).isNull) = false then
          some (d.getOrNull name)
        else none :=
  copyCells_eq rfl (attributeNames docs)

theorem copied_eq (docs : List Document) (d : Document) :
    ∃ fields : Record Value, copied docs d = ⟨d.id, none, none, none, fields⟩ ∧
      ∀ name, fields.get? name =
        if name ∈ attributeNames docs ∧ (d.getOrNull name).isNull = false then
          some (d.getOrNull name)
        else none :=
  copyCells_ofId true docs d

@[simp]
theorem id_copied (docs : List Document) (d : Document) : (copied docs d).id = d.id := by
  obtain ⟨fields, eq, -⟩ := copied_eq docs d
  rw [eq]

theorem mem_attributeNames {name : String} :
    name ∈ attributeNames docs ↔ name ≠ "id" ∧ name ∈ names docs := by
  constructor
  · intro h
    obtain ⟨c, hc, rfl⟩ := List.mem_map.1 h
    obtain ⟨mem, kept⟩ := List.mem_filter.1 hc
    have hid : c.1 ≠ "id" := bne_iff_ne.1 kept
    exact ⟨hid, (mem_ofDocuments mem).1.resolve_left hid⟩
  · rintro ⟨hid, column⟩
    have found : Record.get? name (ofDocuments docs) = some (docs.map fun d => d.getOrNull name) := by
      rw [get?_ofDocuments, if_pos (.inr column)]
    exact List.mem_map.2 ⟨_, List.mem_filter.2 ⟨Record.mem_of_get? found, bne_iff_ne.2 hid⟩, rfl⟩

/-- An attribute that is not reserved is read where the document keeps its attributes. -/
theorem get?_bag {d : Document} {name : String} (h : name ∉ Document.reserved) :
    d.bag.get? name = d.store.get? name := by
  unfold Document.bag Document.store
  cases d.attributes with
  | some r => rfl
  | none =>
    have kept : (!Document.reserved.contains name) = true := by simpa using h
    exact (Record.get?_filter (fun name => !Document.reserved.contains name) name d.fields).trans
      (if_pos kept)

/-- Free fields of a reserved name are no attributes. -/
theorem get?_bag_of_reserved {d : Document} (flat : d.attributes = none) {name : String}
    (h : name ∈ Document.reserved) : d.bag.get? name = none := by
  have dropped : ¬(!Document.reserved.contains name) = true := by simpa using h
  unfold Document.bag
  rw [flat]
  exact (Record.get?_filter (fun name => !Document.reserved.contains name) name d.fields).trans
    (if_neg dropped)

/-- **The attributes that come back** are those that are not null. The reserved names are lost: a
free field of such a name is no attribute. -/
theorem get?_bag_copied {d : Document} (hd : d ∈ docs) (name : String) :
    (copied docs d).bag.get? name =
      if name ∈ Document.reserved then none
      else (d.bag.get? name).filter fun v => !v.isNull := by
  obtain ⟨fields, eq, get⟩ := copied_eq docs d
  split
  case isTrue reserved => exact get?_bag_of_reserved (by rw [eq]) reserved
  case isFalse free =>
    have hid : name ≠ "id" := by
      rintro rfl
      exact free (by decide)
    have cell : d.getOrNull name = (d.store.get? name).getD .null := by
      rw [Document.getOrNull, Document.get?, if_neg hid]
    rw [get?_bag free, get?_bag free, eq]
    refine (get name).trans ?_
    rw [cell]
    cases stored : d.store.get? name with
    | none => exact if_neg fun h => absurd h.2 (by decide)
    | some v =>
      have column : name ∈ attributeNames docs := mem_attributeNames.2
        ⟨hid, mem_names.2 ⟨d, hd, v, Record.mem_of_get? ((get?_bag free).trans stored)⟩⟩
      cases null : v.isNull <;> simp [column, null, Option.filter]

/-- The attributes that come back have different names, in order. -/
theorem sorted_bag_copied (docs : List Document) (d : Document) : (copied docs d).bag.Sorted := by
  have sorted : (copied docs d).fields.Sorted :=
    sorted_fields_copyCells (d := .ofId d.id) rfl List.Pairwise.nil _
  obtain ⟨fields, eq, -⟩ := copied_eq docs d
  rw [eq] at sorted ⊢
  exact sorted.filter _

/-! ### Nothing is lost -/

/-- **A table keeps every attribute.** All its columns have a cell for each document, and its documents
are the given ones again, one by one: with the same id, and with the same value of every name that is
an attribute of some document. Null cells leave the name absent if they are skipped; else all that is
absent comes back as null. Other names than these do not come back. -/
theorem ofDocuments_lossless (docs : List Document) (skipNulls : Bool) :
    (∀ c ∈ ofDocuments docs, c.2.length = docs.length) ∧
    ∃ docs', (ofDocuments docs).toDocuments skipNulls = .ok docs' ∧
      List.Forall₂ (fun d d' : Document => d'.id = d.id ∧ ∀ name, name ≠ "id" →
        ((∃ e ∈ docs, name ∈ e.bag.map Prod.fst) → d'.get? name =
          if skipNulls then (d.get? name).filter fun v => !v.isNull else some (d.getOrNull name)) ∧
        ((∀ e ∈ docs, name ∉ e.bag.map Prod.fst) → d'.get? name = none)) docs docs' := by
  refine ⟨fun c hc => ?_, _, toDocuments_ofDocuments_eq, ?_⟩
  · rw [(mem_ofDocuments hc).2, List.length_map]
  rw [List.forall₂_map_right_iff, List.forall₂_same]
  intro d _
  obtain ⟨fields, eq, get⟩ := copyCells_ofId skipNulls docs d
  rw [eq]
  refine ⟨rfl, fun name hid => ?_⟩
  have free : (⟨d.id, none, none, none, fields⟩ : Document).get? name = fields.get? name := if_neg hid
  have column : name ∈ attributeNames docs ↔ ∃ e ∈ docs, name ∈ e.bag.map Prod.fst := by
    rw [mem_attributeNames, and_iff_right hid, mem_names]
    simp only [List.mem_map, Prod.exists, exists_and_right, exists_eq_right]
  rw [free, get]
  refine ⟨fun named => ?_, fun unnamed => if_neg fun h => ?_⟩
  · have mem := column.2 named
    unfold Document.getOrNull
    cases skipNulls with
    | false => exact if_pos ⟨mem, rfl⟩
    | true =>
      rcases d.get? name with - | v
      · exact if_neg fun h => Bool.noConfusion h.2
      · cases null : v.isNull <;> simp [mem, null, Option.filter]
  · obtain ⟨e, he, mem⟩ := column.1 h.1
    exact unnamed e he mem

end Columns

end DocQuery
