import DocQuery.Proofs.Sorting
import DocQuery.Proofs.Value.Order
import DocQuery.Store.Basic
import Mathlib

/-!
# Pages of a ranked answer

What a store answers when rows are ranked by id, and what it answers when it is asked once more for
the rows behind one of them. The two questions go to different orders: rows are ranked by
`Value.totalCompare`, and the bound on ids compares by `Value.compare?`.

* `Predicate.holds_after_iff_apart` – behind a row the bound keeps what is apart from it, and up to
  the row it keeps nothing (`Predicate.holds_after_eq_false`);
* `Store.query_rows_iff` – the rows of an answer are the first of the ranked matches;
* `Store.query_withCursor_rows` – **the rows behind a row, as the bound returns them**, and when
  those are all of them (`Store.query_withCursor_loses_rows` shows that they may not be).
-/

namespace DocQuery

/-! ### Ranking by id -/

namespace Direction

theorem orient_swap (dir : Direction) (o : Ordering) : dir.orient o.swap = (dir.orient o).swap := by
  cases dir <;> rfl

theorem orient_orient (dir : Direction) (o : Ordering) : dir.orient (dir.orient o) = o := by
  cases dir <;> cases o <;> rfl

end Direction

/-- The comparison of ids in a direction. -/
def Document.idLe (dir : Direction) (a b : Document) : Bool :=
  (dir.orient (a.id.totalCompare b.id)).isLE

theorem Document.idLe_total (dir : Direction) (a b : Document) :
    (idLe dir a b || idLe dir b a) = true := by
  rw [idLe, idLe, Value.totalCompare_swap a.id b.id, dir.orient_swap]
  cases dir.orient (a.id.totalCompare b.id) <;> rfl

theorem RankBy.compare_swap (r : RankBy) (a b : Document) :
    r.compare b a = (r.compare a b).swap := by
  rw [compare, compare, ← Direction.orient_swap, Ordering.swap_then, ← Value.totalCompare_swap,
    ← Value.totalCompare_swap]

theorem RankBy.le_total (r : RankBy) (a b : Document) : (r.le a b || r.le b a) = true := by
  rw [le, le, compare_swap r a b]
  cases r.compare a b <;> rfl

theorem RankBy.compare_id (dir : Direction) (a b : Document) :
    (RankBy.mk "id" dir).compare a b = dir.orient (a.id.totalCompare b.id) := by
  have h (o : Ordering) : o.then o = o := by cases o <;> rfl
  exact congrArg dir.orient (h _)

theorem RankBy.sort_id (dir : Direction) (docs : List Document) :
    (RankBy.mk "id" dir).sort docs = stableSort (Document.idLe dir) docs := by
  have hle : (RankBy.mk "id" dir).le = Document.idLe dir := by
    funext a b
    rw [RankBy.le, RankBy.compare_id]
    rfl
  rw [RankBy.sort, hle]

/-! ### The bound on ids -/

namespace Predicate

variable {dir : Direction} {a v : Value}

/-- A test that equal values fail need not ask for null, which compares with nothing else. -/
theorem ordered_iff {test : Ordering → Bool} (heq : test .eq = false) :
    ordered a v test = true ↔ ∃ o, a.compare? v = some o ∧ test o = true := by
  rw [ordered, Bool.and_eq_true, Option.any_eq_true]
  refine ⟨And.right, fun ⟨o, h, ho⟩ => ⟨?_, o, h, ho⟩⟩
  cases a with
  | null =>
    cases v <;> cases h
    rw [heq] at ho
    exact absurd ho Bool.false_ne_true
  | _ => rfl

theorem holds_after_iff :
    holds a dir.after v none = true ↔ a.compare? v = some (dir.orient .gt) := by
  cases dir with
  | asc =>
    refine (ordered_iff rfl).trans ⟨fun ⟨o, h, ho⟩ => ?_, fun h => ⟨.gt, h, rfl⟩⟩
    rwa [Ordering.isGT_iff_eq_gt.mp ho] at h
  | desc =>
    refine (ordered_iff rfl).trans ⟨fun ⟨o, h, ho⟩ => ?_, fun h => ⟨.lt, h, rfl⟩⟩
    rwa [Ordering.isLT_iff_eq_lt.mp ho] at h

/-- In front of a value, and at it, the bound keeps nothing. -/
theorem holds_after_eq_false (h : (dir.orient (a.totalCompare v)).isLE = true) :
    holds a dir.after v none = false := by
  refine Bool.eq_false_iff.mpr fun hholds => ?_
  -- what the bound keeps is ranked behind the value
  have hrank : a.totalCompare v = dir.orient .gt :=
    Value.totalCompare_of_compare? (holds_after_iff.mp hholds) (by cases dir <;> decide)
  rw [hrank, dir.orient_orient] at h
  exact absurd h (by decide)

/-- **Behind a value the bound keeps what is apart from it.** -/
theorem holds_after_iff_apart (h : (dir.orient (v.totalCompare a)).isLE = true) :
    holds a dir.after v none = true ↔ Value.Apart a v := by
  rw [holds_after_iff, Value.apart_iff]
  refine ⟨fun hc => ⟨_, hc, by cases dir <;> decide⟩, fun ⟨o, hc, ho⟩ => ?_⟩
  have hrank : v.totalCompare a = o.swap := by
    rw [Value.totalCompare_swap a v, Value.totalCompare_of_compare? hc ho]
  rw [hrank] at h
  rw [hc]
  cases dir <;> cases o <;> first | rfl | exact absurd rfl ho | exact absurd h (by decide)

/-! ### Filters with a bound -/

theorem ofFilters_cons_iff {x : Filter} {xs : List Filter} {ps : List Predicate} :
    ofFilters (x :: xs) = .ok ps ↔
      ∃ q qs, ofFilter x = .ok q ∧ ofFilters xs = .ok qs ∧ ps = q :: qs := by
  rw [ofFilters]
  constructor
  · intro h
    cases hx : ofFilter x with
    | error flaw =>
      rw [hx] at h
      cases h
    | ok q =>
      cases hxs : ofFilters xs with
      | error flaw =>
        rw [hx, hxs] at h
        cases h
      | ok qs =>
        rw [hx, hxs] at h
        cases h
        exact ⟨q, qs, rfl, rfl, rfl⟩
  · rintro ⟨q, qs, hq, hqs, rfl⟩
    rw [hq, hqs]
    rfl

theorem ofFilters_concat {xs : List Filter} {ps : List Predicate} {y : Filter} {q : Predicate}
    (hxs : ofFilters xs = .ok ps) (hy : ofFilter y = .ok q) :
    ofFilters (xs ++ [y]) = .ok (ps ++ [q]) := by
  induction xs generalizing ps with
  | nil =>
    cases hxs
    exact ofFilters_cons_iff.mpr ⟨q, [], hy, rfl, rfl⟩
  | cons x xs ih =>
    obtain ⟨p, ps, hx, hrest, rfl⟩ := ofFilters_cons_iff.mp hxs
    exact ofFilters_cons_iff.mpr ⟨p, ps ++ [q], hx, ih hrest, rfl⟩

theorem testAll_append (ps qs : List Predicate) (d : Document) :
    testAll (ps ++ qs) d = (testAll ps d && testAll qs d) := by
  induction ps with
  | nil => rfl
  | cons p ps ih => rw [List.cons_append, testAll, testAll, ih, Bool.and_assoc]

/-- A filter with one more conjunct is a predicate with one more conjunct. -/
theorem ofFilter_andWith {x y : Filter} {p q : Predicate} (hx : ofFilter x = .ok p)
    (hy : ofFilter y = .ok q) :
    ∃ r, ofFilter (x.andWith y) = .ok r ∧ ∀ d, r.test d = (p.test d && q.test d) := by
  have hlast (d : Document) : testAll [q] d = q.test d := Bool.and_true _
  -- a filter that is no conjunction becomes the first of two conjuncts
  have hpair : ∃ r, ofFilter (.and [x, y]) = .ok r ∧ ∀ d, r.test d = (p.test d && q.test d) := by
    refine ⟨.all [p, q], ?_, fun d => ?_⟩
    · rw [ofFilter, ofFilters, ofFilters, ofFilters, hx, hy]
      rfl
    · rw [test, testAll, hlast]
  cases x with
  | and xs =>
    rw [ofFilter] at hx
    cases hxs : ofFilters xs with
    | error flaw =>
      rw [hxs] at hx
      cases hx
    | ok ps =>
      rw [hxs] at hx
      cases hx
      refine ⟨.all (ps ++ [q]), ?_, fun d => ?_⟩
      · rw [Filter.andWith, ofFilter, ofFilters_concat hxs hy]
        rfl
      · rw [test, test, testAll_append, hlast]
  | or xs => exact hpair
  | not x => exact hpair
  | condition name op value => exact hpair

end Predicate

theorem Rows.length_select_le (rows : Rows) (p : Option Predicate) :
    (rows.select p).length ≤ rows.length := by
  refine Nat.le_trans (List.length_filter_le _ _) (Nat.le_of_eq ?_)
  rw [Rows.documents, List.length_map]

namespace Store

variable {s : Store} {ns : String} {filter : Option Filter} {p : Option Predicate}

theorem predicate?_withCursor (h : predicate? filter = .ok p) (v : Value) (dir : Direction) :
    ∃ q, predicate? (some (Filter.withCursor filter v dir)) = .ok (some q) ∧
      ∀ d, q.test d = ((p.all fun p => p.test d) && Predicate.holds d.id dir.after v none) := by
  have hbound : Predicate.ofFilter (.condition "id" dir.after v) =
      .ok (.leaf "id" dir.after v none) := by
    cases dir <;> rfl
  cases filter with
  | none =>
    cases h
    refine ⟨.leaf "id" dir.after v none, ?_, fun d => rfl⟩
    rw [Filter.withCursor, predicate?, hbound]
    rfl
  | some x =>
    rw [predicate?] at h
    cases hx : Predicate.ofFilter x with
    | error flaw =>
      rw [hx] at h
      cases h
    | ok p =>
      rw [hx] at h
      cases h
      obtain ⟨q, hq, htest⟩ := Predicate.ofFilter_andWith hx hbound
      refine ⟨q, ?_, htest⟩
      rw [Filter.withCursor, predicate?, hq]
      rfl

/-- What matches a filter with a bound is what the bound keeps of what matches the filter. -/
theorem select_withCursor {q : Predicate} {dir : Direction} {v : Value}
    (h : ∀ d, q.test d = ((p.all fun p => p.test d) && Predicate.holds d.id dir.after v none))
    (rows : Rows) :
    rows.select (some q) =
      (rows.select p).filter fun d => Predicate.holds d.id dir.after v none := by
  rw [Rows.select, Rows.select, List.filter_filter]
  refine List.filter_congr fun d _ => ?_
  rw [Bool.and_comm]
  exact h d

/-- **The answer to a query for rows.** -/
theorem query_rows_iff {rank : RankBy} {k : Nat} {r : QueryResponse} :
    s.query ns (.rows filter rank k) = .ok r ↔
      ∃ rows p, s.namespaces.get? ns = some rows ∧ predicate? filter = .ok p ∧
        r = ⟨(rank.sort (rows.select p)).take k, none, some performance⟩ := by
  have hanswer (docs : List Document) : answer (.rows filter rank k) docs =
      ⟨(rank.sort docs).take k, none, some performance⟩ := by
    simp only [answer, QueryRequest.rows, Document.project, List.map_id', Option.getD_some]
  have hfilter : (QueryRequest.rows filter rank k).filter = filter := rfl
  rw [query, hfilter]
  cases hrows : s.namespaces.get? ns with
  | none => simp
  | some rows =>
    cases hp : predicate? filter with
    | error flaw => simp
    | ok p => simp [hanswer, eq_comm]

/-! ### The rows behind a row -/

/-- Of a ranked list the bound on the id of a row keeps what stands behind the row and is apart from
it. -/
theorem filter_behind {dir : Direction} {front behind : List Document} {r : Document}
    (hsorted : (front ++ r :: behind).Pairwise fun a b => Document.idLe dir a b = true) :
    ((front ++ r :: behind).filter fun d => Predicate.holds d.id dir.after r.id none) =
      behind.filter fun d => decide (d.id.Apart r.id) := by
  rw [List.pairwise_append, List.pairwise_cons] at hsorted
  obtain ⟨-, ⟨hbehind, -⟩, hfront⟩ := hsorted
  -- what stands in front of the row, and the row itself, are not kept
  have hnone : (front.filter fun d => Predicate.holds d.id dir.after r.id none) = [] := by
    refine List.filter_eq_nil_iff.mpr fun d hd => ?_
    rw [Predicate.holds_after_eq_false (hfront d hd r List.mem_cons_self)]
    exact Bool.false_ne_true
  have hself : Predicate.holds r.id dir.after r.id none = false :=
    Predicate.holds_after_eq_false ((Bool.or_self _).symm.trans (Document.idLe_total dir r r))
  rw [List.filter_append, hnone, List.nil_append, List.filter_cons_of_neg (by simp [hself])]
  refine List.filter_congr fun d hd => Bool.eq_iff_iff.mpr ?_
  rw [decide_eq_true_eq]
  exact Predicate.holds_after_iff_apart (hbehind d hd)

section Answers

variable {dir : Direction} {k : Nat} {full : QueryResponse}

/-- An answer with every row is the sorted list of what matches. -/
theorem exists_select_of_query (hfull : s.query ns (.rows filter ⟨"id", dir⟩ k) = .ok full)
    (hk : s.size ns ≤ k) :
    ∃ rows p, s.namespaces.get? ns = some rows ∧ predicate? filter = .ok p ∧
      full.rows = stableSort (Document.idLe dir) (rows.select p) := by
  obtain ⟨rows, p, hrows, hp, rfl⟩ := query_rows_iff.mp hfull
  refine ⟨rows, p, hrows, hp, ?_⟩
  have hns : s.rows ns = rows := by rw [Store.rows, hrows, Option.getD_some]
  rw [size, hns] at hk
  rw [RankBy.sort_id, List.take_of_length_le]
  rw [length_stableSort]
  exact Nat.le_trans (Rows.length_select_le rows p) hk

/-- A query with a limit is answered by the first of all rows. -/
theorem query_rows_take (hfull : s.query ns (.rows filter ⟨"id", dir⟩ k) = .ok full)
    (hk : s.size ns ≤ k) (n : Nat) :
    s.query ns (.rows filter ⟨"id", dir⟩ n) = .ok ⟨full.rows.take n, none, some performance⟩ := by
  obtain ⟨rows, p, hrows, hp, hranked⟩ := exists_select_of_query hfull hk
  refine query_rows_iff.mpr ⟨rows, p, hrows, hp, ?_⟩
  rw [hranked, RankBy.sort_id]

/-- A query with the bound on the id of a row is answered by the first rows behind the row that are
apart from it. -/
theorem query_rows_behind {i : Nat} {r : Document}
    (hfull : s.query ns (.rows filter ⟨"id", dir⟩ k) = .ok full) (hk : s.size ns ≤ k)
    (hr : full.rows[i]? = some r) (trans : TransOn (Document.idLe dir) full.rows) (n : Nat) :
    s.query ns (.rows (some (Filter.withCursor filter r.id dir)) ⟨"id", dir⟩ n) =
      .ok ⟨((full.rows.drop (i + 1)).filter fun d => decide (d.id.Apart r.id)).take n, none,
        some performance⟩ := by
  obtain ⟨rows, p, hrows, hp, hranked⟩ := exists_select_of_query hfull hk
  obtain ⟨q, hq, htest⟩ := predicate?_withCursor hp r.id dir
  refine query_rows_iff.mpr ⟨rows, some q, hrows, hq, ?_⟩
  have htrans : TransOn (Document.idLe dir) (rows.select p) := by
    rw [hranked] at trans
    exact trans.of_subset fun d hd => mem_stableSort.mpr hd
  have hsorted := pairwise_stableSort (Document.idLe_total dir) htrans
  -- the bound is a filter on the rows, which may be applied after they are ranked
  rw [RankBy.sort_id, select_withCursor htest,
    filter_stableSort (Document.idLe_total dir) htrans, ← hranked]
  rw [← hranked] at hsorted
  obtain ⟨hi, rfl⟩ := List.getElem?_eq_some_iff.mp hr
  have hsplit : full.rows = full.rows.take i ++ full.rows[i] :: full.rows.drop (i + 1) := by
    rw [← List.drop_eq_getElem_cons hi, List.take_append_drop]
  have hrest := filter_behind (hsplit ▸ hsorted)
  rw [← hsplit] at hrest
  rw [hrest]

/-- **The rows behind a row.** Asked once more with the bound on its id, a namespace returns of the
rows behind it those that are apart from it, in the same order. So nothing is lost exactly if all of
them are. -/
theorem query_withCursor_rows {i : Nat} {r : Document}
    (hfull : s.query ns (.rows filter ⟨"id", dir⟩ k) = .ok full) (hk : s.size ns ≤ k)
    (hr : full.rows[i]? = some r) (trans : TransOn (Document.idLe dir) full.rows) :
    ∃ rest, s.query ns (.rows (some (Filter.withCursor filter r.id dir)) ⟨"id", dir⟩ k) =
        .ok rest ∧
      rest.rows = (full.rows.drop (i + 1)).filter (fun d => decide (d.id.Apart r.id)) ∧
      (rest.rows = full.rows.drop (i + 1) ↔ ∀ d ∈ full.rows.drop (i + 1), d.id.Apart r.id) := by
  refine ⟨_, query_rows_behind hfull hk hr trans k, ?_⟩
  have hlength : full.rows.length ≤ k := by
    obtain ⟨rows, p, -, -, rfl⟩ := query_rows_iff.mp hfull
    exact List.length_take_le k _
  have htake : ((full.rows.drop (i + 1)).filter fun d => decide (d.id.Apart r.id)).take k =
      (full.rows.drop (i + 1)).filter fun d => decide (d.id.Apart r.id) := by
    refine List.take_of_length_le (Nat.le_trans (List.length_filter_le _ _) ?_)
    rw [List.length_drop]
    omega
  refine ⟨htake, ?_⟩
  rw [htake, List.filter_eq_self]
  simp only [decide_eq_true_eq]

end Answers

/-- Ids of two types, of which the integers are apart from each other. -/
def mixedIds : Store :=
  Store.empty.insert "docs" [.ofId (.int 1), .ofId (.string "a"), .ofId (.int 2)]

/-- Behind the first row the other integer is found, and the string is not. -/
theorem query_withCursor_mixedIds :
    ∃ rest, mixedIds.query "docs" (.rows (some (Filter.withCursor none (.int 1) .asc)) .byId 10) =
        .ok rest ∧
      rest.rows = [.ofId (.int 2)] := by
  have hfull : mixedIds.query "docs" (.rows none .byId 10) =
      .ok ⟨[.ofId (.int 1), .ofId (.int 2), .ofId (.string "a")], none, some performance⟩ := by
    cbv
  have trans : TransOn (Document.idLe .asc)
      [.ofId (.int 1), .ofId (.int 2), .ofId (.string "a")] := by
    decide
  have hfirst : [Document.ofId (.int 1), .ofId (.int 2), .ofId (.string "a")][0]? =
      some (.ofId (.int 1)) := rfl
  obtain ⟨rest, hrest, hrows, -⟩ := query_withCursor_rows hfull (by decide) hfirst trans
  exact ⟨rest, hrest, hrows.trans (by cbv)⟩

/-- An integer and a string, which are not apart. -/
def unrelatedIds : Store := Store.empty.insert "docs" [.ofId (.int 1), .ofId (.string "a")]

/-- **The rows behind a row may be lost.** A string is behind every integer, and no bound on ids
finds it there. -/
theorem query_withCursor_loses_rows :
    ¬∀ (s : Store) (ns : String) (filter : Option Filter) (dir : Direction) (k i : Nat)
        (full : QueryResponse) (r : Document),
      s.query ns (.rows filter ⟨"id", dir⟩ k) = .ok full → s.size ns ≤ k →
        full.rows[i]? = some r →
          ∃ rest, s.query ns (.rows (some (Filter.withCursor filter r.id dir)) ⟨"id", dir⟩ k) =
              .ok rest ∧
            rest.rows = full.rows.drop (i + 1) := by
  intro h
  have hfull : unrelatedIds.query "docs" (.rows none .byId 10) =
      .ok ⟨[.ofId (.int 1), .ofId (.string "a")], none, some performance⟩ := by
    cbv
  obtain ⟨rest, hrest, hrows⟩ := h _ _ _ .asc 10 0 _ _ hfull (by decide) rfl
  obtain ⟨rows, p, hget, hp, rfl⟩ := query_rows_iff.mp hrest
  cases hget
  cases hp
  have hlength := congrArg List.length hrows
  rw [List.length_take, RankBy.sort, length_stableSort] at hlength
  exact absurd hlength (by decide)

end Store

end DocQuery
