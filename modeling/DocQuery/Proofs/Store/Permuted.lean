import DocQuery.Proofs.Json.Print
import DocQuery.Proofs.Paging.Slices
import DocQuery.Proofs.Store.Keyed
import DocQuery.Proofs.Value.Preorder

/-!
# Answers do not depend on the order of insertion

Rows stand in the order in which they were first inserted, and sorting keeps equal ones in place, so
that an answer could show that order. It does not where ids decide every tie: then no two rows are
equal to the sort, and a list has only one sorted arrangement. The ids have to be different and of
one type, and the values that are ranked by must not mix integers and floating-point numbers, among
which the order need not be transitive.

* `Value.WithoutFloats` – values whose order is transitive whatever their integers are;
* `DocQuery.StrictBy` – **what makes ranking by a name strict**: distinct ids of one type, and
  ranked values without floating-point numbers; `StrictBy.sort_eq_of_perm`, `StrictBy.sort_reverse`
  – what follows for ranked rows;
* `Store.exists_rows_insert` – documents stand in the order in which they were inserted;
* `Store.query_eq_of_perm` – two namespaces with the same documents answer every query alike, and
  backwards the answer is reversed.
-/

namespace DocQuery

/-! ### The order of ranked rows -/

/-- The value has no floating-point numbers. Those in objects do not count, since objects are
compared by their text. -/
def Value.WithoutFloats (v : Value) : Prop := v.NumbersFrom (fun _ => True) fun _ => False

theorem Value.totalCompare_coherent_of_withoutFloats {a b c : Value} (ha : a.WithoutFloats)
    (hb : b.WithoutFloats) (hc : c.WithoutFloats) :
    Coherent (a.totalCompare b) (b.totalCompare c) (a.totalCompare c) :=
  totalCompare_coherent (fun _ _ _ _ _ h => h.elim) a b c ha hb hc

theorem Coherent.orient {ab bc ac : Ordering} (h : Coherent ab bc ac) (dir : Direction) :
    Coherent (dir.orient ab) (dir.orient bc) (dir.orient ac) := by
  cases dir with
  | asc => exact h
  | desc =>
    have swap_eq (o : Ordering) : o.swap = .eq ↔ o = .eq := by cases o <;> decide
    simpa [Coherent, Direction.orient, swap_eq] using h

theorem SameTypeIds.withoutFloats {docs : List Document} (h : SameTypeIds docs) {d : Document}
    (hd : d ∈ docs) : d.id.WithoutFloats := by
  rcases h with h | h
  · obtain ⟨i, same⟩ := h d hd
    rw [same]
    exact trivial
  · obtain ⟨t, same⟩ := h d hd
    rw [same]
    exact trivial

/-- Ids of one type that tie are the same. -/
theorem SameTypeIds.eq_of_totalCompare {docs : List Document} (h : SameTypeIds docs)
    {a b : Document} (ha : a ∈ docs) (hb : b ∈ docs) (tie : a.id.totalCompare b.id = .eq) :
    a.id = b.id := by
  by_contra other
  obtain ⟨o, compared, decided⟩ := Value.apart_iff.1 (h.apart ha hb other)
  exact decided ((Value.totalCompare_of_compare? compared decided).symm.trans tie)

/-- The documents have different ids of one type, and their values under a name are without
floating-point numbers. -/
structure StrictBy (name : String) (docs : List Document) : Prop where
  sameType : SameTypeIds docs
  distinct : (docs.map Document.id).Nodup
  plain : ∀ d ∈ docs, (d.getOrNull name).WithoutFloats

namespace StrictBy

variable {r : RankBy} {name : String} {docs docs' : List Document}

theorem of_sublist (h : StrictBy name docs) (sub : docs'.Sublist docs) : StrictBy name docs' where
  sameType := h.sameType.of_subset sub.subset
  distinct := h.distinct.sublist (sub.map _)
  plain d hd := h.plain d (sub.subset hd)

theorem transOn (h : StrictBy r.name docs) : TransOn r.le docs := by
  intro a ha b hb c hc hab hbc
  have values := Value.totalCompare_coherent_of_withoutFloats (h.plain a ha) (h.plain b hb)
    (h.plain c hc)
  have ids := Value.totalCompare_coherent_of_withoutFloats (h.sameType.withoutFloats ha)
    (h.sameType.withoutFloats hb) (h.sameType.withoutFloats hc)
  exact ((values.then fun _ _ => ids).orient r.direction).isLE hab hbc

/-- Ids decide every tie. -/
theorem antisymmOn (h : StrictBy r.name docs) : AntisymmOn r.le docs := by
  intro a ha b hb hab hba
  have tie : r.compare a b = .eq := by
    rw [RankBy.le, r.compare_swap a b] at hba
    rw [RankBy.le] at hab
    revert hab hba
    cases r.compare a b <;> decide
  have ids : a.id.totalCompare b.id = .eq := by
    have tie := congrArg r.direction.orient tie
    rw [RankBy.compare, Direction.orient_orient] at tie
    refine (Ordering.then_eq_eq.1 (tie.trans ?_)).2
    cases r.direction <;> rfl
  exact List.inj_on_of_nodup_map h.distinct ha hb (h.sameType.eq_of_totalCompare ha hb ids)

/-- **Ranked rows do not depend on the order in which they were found.** -/
theorem sort_eq_of_perm (h : StrictBy r.name docs) (perm : docs.Perm docs') :
    r.sort docs = r.sort docs' :=
  stableSort_eq_of_perm r.le_total h.transOn h.antisymmOn perm

/-- **Descending rows are the ascending ones in reverse.** -/
theorem sort_reverse (h : StrictBy name docs) :
    (RankBy.mk name .desc).sort docs = ((RankBy.mk name .asc).sort docs).reverse := by
  have flip : (RankBy.mk name .desc).le = fun a b => (RankBy.mk name .asc).le b a := by
    funext a b
    rw [RankBy.le, RankBy.le, (RankBy.mk name .asc).compare_swap a b]
    rfl
  rw [RankBy.sort, flip]
  exact stableSort_flip (RankBy.le_total _) (transOn (r := ⟨name, .asc⟩) h)
    (antisymmOn (r := ⟨name, .asc⟩) h)

end StrictBy

/-! ### The order of insertion -/

/-- **Documents with new keys come last**, in the order in which they are inserted. -/
theorem Rows.documents_insertAll {rows : Rows} {docs : List Document}
    (distinct : (rows.map Prod.fst ++ docs.map (·.id.key)).Nodup) :
    (rows.insertAll docs).documents = rows.documents ++ docs := by
  induction docs generalizing rows with
  | nil => exact (List.append_nil _).symm
  | cons d docs ih =>
    have new : d.id.key ∉ rows.map Prod.fst := fun mem =>
      (List.nodup_append.1 distinct).2.2 _ mem _ List.mem_cons_self rfl
    have last : rows.insert d = rows ++ [(d.id.key, d)] := by
      rw [Rows.insert, get?_eq_none_iff.2 new]
      rfl
    have rest : ((rows.insert d).map Prod.fst ++ docs.map (·.id.key)).Nodup := by
      rw [last, List.map_append, List.append_assoc]
      exact distinct
    calc ((rows.insert d).insertAll docs).documents
        = (rows.insert d).documents ++ docs := ih rest
      _ = rows.documents ++ d :: docs := by
        rw [last, documents, documents, List.map_append, List.append_assoc]
        rfl

/-- Different ids of one type have different keys. -/
theorem SameTypeIds.nodup_keys {docs : List Document} (h : SameTypeIds docs)
    (distinct : (docs.map Document.id).Nodup) : (docs.map (·.id.key)).Nodup := by
  have data (d : Document) (hd : d ∈ docs) : d.id.isData = true := by
    rcases h with h | h
    · obtain ⟨i, same⟩ := h d hd
      rw [same]
      rfl
    · obtain ⟨t, same⟩ := h d hd
      rw [same]
      rfl
  have apart : docs.Nodup := distinct.of_map _
  refine apart.map_on fun a ha b hb same => ?_
  exact List.inj_on_of_nodup_map distinct ha hb (Value.key_inj (data a ha) (data b hb) same)

/-- Documents that are inserted into a namespace without any stand there in their order. -/
theorem Store.exists_rows_insert {s : Store} {ns : String} {docs : List Document}
    (new : s.rows ns = []) (sameType : SameTypeIds docs)
    (distinct : (docs.map Document.id).Nodup) :
    ∃ rows, (s.insert ns docs).namespaces.get? ns = some rows ∧ rows.documents = docs := by
  refine ⟨(s.rows ns).insertAll docs, ?_, ?_⟩
  · rw [Store.insert, get?_withRows, if_pos rfl]
  · rw [new]
    exact Rows.documents_insertAll (sameType.nodup_keys distinct)

/-! ### Answers -/

namespace Store

variable {s s' : Store} {ns ns' : String} {rows rows' : Rows} {request : QueryRequest}

theorem answer_eq_of_perm {docs docs' : List Document}
    (strict : StrictBy (request.rankBy.getD .byId).name docs) (perm : docs.Perm docs') :
    answer request docs = answer request docs' := by
  rw [answer, answer, perm.length_eq, strict.sort_eq_of_perm perm]

/-- The same request in the other direction, with room for every row. -/
theorem answer_reverse {docs : List Document} {name : String} {k : Nat}
    (strict : StrictBy name docs) (limit : request.topK = some k)
    (long : docs.length ≤ k) :
    answer { request with rankBy := some ⟨name, .desc⟩ } docs =
      { answer { request with rankBy := some ⟨name, .asc⟩ } docs with
        rows := (answer { request with rankBy := some ⟨name, .asc⟩ } docs).rows.reverse } := by
  have whole (r : RankBy) : (r.sort docs).take k = r.sort docs := by
    rw [List.take_of_length_le]
    rwa [RankBy.sort, length_stableSort]
  unfold answer
  cases request.aggregates with
  | some aggregates => rfl
  | none =>
    dsimp only [Option.getD_some]
    rw [limit, Option.getD_some, whole, whole, strict.sort_reverse, List.map_reverse]

/-- **Two namespaces with the same documents answer every query alike**, in whatever order the
documents were inserted: with the same rows in the same order, the same totals or the same fault.
With room for every row, the answer in the other direction is the reverse. -/
theorem query_eq_of_perm (there : s.namespaces.get? ns = some rows)
    (there' : s'.namespaces.get? ns' = some rows') (same : rows.documents.Perm rows'.documents)
    (sameType : SameTypeIds rows.documents) (distinct : (rows.documents.map Document.id).Nodup)
    (plain : ∀ d ∈ rows.documents,
      (d.getOrNull (request.rankBy.getD .byId).name).WithoutFloats) :
    s.query ns request = s'.query ns' request ∧
    ∀ name k, name = (request.rankBy.getD .byId).name → request.topK = some k →
      rows.length ≤ k →
        s.query ns { request with rankBy := some ⟨name, .desc⟩ } =
          (s.query ns { request with rankBy := some ⟨name, .asc⟩ }).map fun r =>
            { r with rows := r.rows.reverse } := by
  have strict (p : Option Predicate) : StrictBy (request.rankBy.getD .byId).name (rows.select p) :=
    (StrictBy.mk sameType distinct plain).of_sublist List.filter_sublist
  refine ⟨?_, ?_⟩
  · rw [query, query, there, there']
    cases predicate? request.filter with
    | error flaw => rfl
    | ok p =>
      have answers : answer request (rows.select p) = answer request (rows'.select p) :=
        answer_eq_of_perm (strict p) (same.filter _)
      simp only [answers]
  · rintro name k rfl limit long
    rw [query, query, there]
    cases predicate? request.filter with
    | error flaw => rfl
    | ok p =>
      have long : (rows.select p).length ≤ k := (rows.length_select_le p).trans long
      simp only [Except.map, answer_reverse (strict p) limit long]

/-- Documents whose tags are of several types, two of them alike. -/
def tagged : List Document :=
  [(Document.ofId (.int 2)).set "tags" (.array [.string "a", .int 9007199254740993]),
    (Document.ofId (.int 1)).set "tags" (.array [.string "a", .int 9007199254740993]),
    (Document.ofId (.int 3)).set "tags" (.string "a")]

theorem query_eq_of_perm_tagged :
    (empty.insert "docs" tagged).query "docs" (.rows none ⟨"tags", .asc⟩ 9) =
      (empty.insert "docs" tagged.reverse).query "docs" (.rows none ⟨"tags", .asc⟩ 9) ∧
    (empty.insert "docs" tagged).query "docs" (.rows none ⟨"tags", .desc⟩ 9) =
      ((empty.insert "docs" tagged).query "docs" (.rows none ⟨"tags", .asc⟩ 9)).map fun r =>
        { r with rows := r.rows.reverse } := by
  have sameType : SameTypeIds tagged := by
    refine .inl fun d hd => ?_
    fin_cases hd <;> exact ⟨_, rfl⟩
  have distinct : (tagged.map Document.id).Nodup := List.Nodup.of_map Value.key (by decide +kernel)
  have plain : ∀ d ∈ tagged, (d.getOrNull "tags").WithoutFloats := by
    intro d hd
    fin_cases hd
    · exact ⟨trivial, trivial, trivial⟩
    · exact ⟨trivial, trivial, trivial⟩
    · exact trivial
  have turned : (tagged.reverse.map Document.id).Nodup := by
    rw [List.map_reverse]
    exact List.nodup_reverse.2 distinct
  have new : empty.rows "docs" = [] := rfl
  obtain ⟨rows, there, documents⟩ := exists_rows_insert new sameType distinct
  obtain ⟨rows', there', documents'⟩ := exists_rows_insert new
    (sameType.of_subset (List.reverse_subset.2 (List.Subset.refl _))) turned
  have same : rows.documents.Perm rows'.documents := by
    rw [documents, documents']
    exact (List.reverse_perm tagged).symm
  have length : rows.length ≤ 9 := by
    rw [← List.length_map, ← Rows.documents, documents]
    decide
  rw [← documents] at sameType distinct plain
  obtain ⟨alike, backward⟩ := @query_eq_of_perm _ _ _ _ _ _ (.rows none ⟨"tags", .asc⟩ 9) there
    there' same sameType distinct plain
  exact ⟨alike, backward "tags" 9 rfl rfl length⟩

end Store

end DocQuery
