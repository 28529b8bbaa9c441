import DocQuery.Engine.Load
import DocQuery.Proofs.Paging.Boundaries
import DocQuery.Proofs.Store.Ranking
import Mathlib

/-!
# Reading a namespace page by page

Pages are read in any order, each in one of several ways: from the start, behind a boundary, out of
all rows up to its end, or from memory. Whatever the order and the ways, a page that is returned is
the same page of the same ranked rows.

* `DocQuery.PageSource` – what is read: a namespace, a filter and a direction; `PageSource.request`
  is the query for the rows of a plan, and what a load asks for (`PageSource.request_eq`);
* `SameTypeIds` – ids are integers, or they are strings. Then all rows that differ are apart, and a
  bound on ids loses nothing (`pairwise_apart`);
* `PageSource.answer_of_plan` – a namespace fetches what a plan should fetch;
* `PageSource.Reads` – the runs of a reader, with the pages it has seen;
* `PageSource.Reads.slice_eq` – **pages are slices**, at every step of every run.
-/

namespace DocQuery

/-! ### Ids of one type -/

/-- All ids are integers, or all are strings. -/
def SameTypeIds (docs : List Document) : Prop :=
  (∀ d ∈ docs, ∃ i, d.id = .int i) ∨ ∀ d ∈ docs, ∃ t, d.id = .string t

section Ids

variable {docs : List Document} {dir : Direction}

theorem SameTypeIds.of_subset {l : List Document} (h : SameTypeIds docs) (hsub : l ⊆ docs) :
    SameTypeIds l :=
  h.imp (fun h d hd => h d (hsub hd)) fun h d hd => h d (hsub hd)

theorem Direction.isLE_orient_trans {α : Type} [Ord α] [Std.TransOrd α] (dir : Direction)
    {a b c : α} (hab : (dir.orient (compare a b)).isLE = true)
    (hbc : (dir.orient (compare b c)).isLE = true) :
    (dir.orient (compare a c)).isLE = true := by
  cases dir with
  | asc =>
    rw [orient] at hab hbc ⊢
    exact Std.TransCmp.isLE_trans hab hbc
  | desc =>
    rw [orient, ← Std.OrientedOrd.eq_swap] at hab hbc ⊢
    exact Std.TransCmp.isLE_trans hbc hab

theorem SameTypeIds.transOn (h : SameTypeIds docs) : TransOn (Document.idLe dir) docs := by
  intro a ha b hb c hc hab hbc
  rcases h with h | h
  · obtain ⟨i, hi⟩ := h a ha
    obtain ⟨j, hj⟩ := h b hb
    obtain ⟨k, hk⟩ := h c hc
    rw [Document.idLe, hi, hj] at hab
    rw [Document.idLe, hj, hk] at hbc
    rw [Document.idLe, hi, hk]
    exact dir.isLE_orient_trans (a := i.toInt) (b := j.toInt) (c := k.toInt) hab hbc
  · obtain ⟨i, hi⟩ := h a ha
    obtain ⟨j, hj⟩ := h b hb
    obtain ⟨k, hk⟩ := h c hc
    rw [Document.idLe, hi, hj] at hab
    rw [Document.idLe, hj, hk] at hbc
    rw [Document.idLe, hi, hk]
    exact dir.isLE_orient_trans (a := i) (b := j) (c := k) hab hbc

theorem SameTypeIds.apart {a b : Document} (h : SameTypeIds docs) (ha : a ∈ docs) (hb : b ∈ docs)
    (hne : a.id ≠ b.id) : a.id.Apart b.id := by
  rcases h with h | h
  · obtain ⟨i, hi⟩ := h a ha
    obtain ⟨j, hj⟩ := h b hb
    rw [hi, hj] at hne ⊢
    exact fun heq => hne (congrArg Value.int heq)
  · obtain ⟨i, hi⟩ := h a ha
    obtain ⟨j, hj⟩ := h b hb
    rw [hi, hj] at hne ⊢
    exact fun heq => hne (congrArg Value.string heq)

/-- Rows with different ids of one type are apart from the rows in front of them. -/
theorem pairwise_apart (h : SameTypeIds docs) (hnodup : (docs.map Document.id).Nodup) :
    docs.Pairwise fun a b => b.id.Apart a.id := by
  rw [List.Nodup, List.pairwise_map] at hnodup
  refine hnodup.imp_of_mem ?_
  intro a b ha hb hne
  exact h.apart hb ha hne.symm

/-- Behind a row all rows are apart from it. -/
theorem filter_apart_drop {i : Nat} {r : Document} (h : docs.Pairwise fun a b => b.id.Apart a.id)
    (hr : docs[i]? = some r) :
    (docs.drop (i + 1)).filter (fun d => decide (d.id.Apart r.id)) = docs.drop (i + 1) := by
  obtain ⟨hi, rfl⟩ := List.getElem?_eq_some_iff.mp hr
  have hdrop := h.sublist (List.drop_sublist i docs)
  rw [List.drop_eq_getElem_cons hi, List.pairwise_cons] at hdrop
  exact List.filter_eq_self.mpr fun d hd => decide_eq_true (hdrop.1 d hd)

end Ids

/-! ### What is read -/

/-- What pages are read from. -/
structure PageSource where
  store : Store
  ns : String
  filter : Option Filter
  direction : Direction

namespace PageSource

/-- The filter of the rows of a plan, which begin behind its boundary. -/
def rowsFilter (q : PageSource) (plan : PagePlan) : Option Filter :=
  match plan.cursor? with
  | some v => some (Filter.withCursor q.filter v q.direction)
  | none => q.filter

/-- The query for the rows of a plan. -/
def request (q : PageSource) (size : Nat) (plan : PagePlan) : QueryRequest :=
  .rows (q.rowsFilter plan) ⟨"id", q.direction⟩ (plan.topK size)

/-- It is the query that a load ranked by id sends for its rows. -/
theorem request_eq (l : Load) (config : EngineConfig) {total : Nat} (store : Store)
    (hstage : l.stage = .fetching total) (hsort : l.start.snapshot.query.isKeyset = true) :
    l.request config = Engine.consistent config
      (request ⟨store, l.start.snapshot.ns, l.start.filter, l.start.snapshot.query.sort.direction⟩
        l.start.snapshot.query.pages.size l.plan) := by
  have hid : l.start.snapshot.query.sort = ⟨"id", l.start.snapshot.query.sort.direction⟩ :=
    congrArg (RankBy.mk · _) (eq_of_beq hsort)
  have hfilter : l.rowsFilter = rowsFilter ⟨store, l.start.snapshot.ns, l.start.filter,
      l.start.snapshot.query.sort.direction⟩ l.plan := by
    cases hcursor : l.plan.cursor? with
    | none => simp only [Load.rowsFilter, rowsFilter, hcursor]
    | some v => simp only [Load.rowsFilter, rowsFilter, hcursor]
  rw [Load.request, hstage, request, ← hfilter, ← hid]

open Pagination

variable {q : PageSource} {size page limit k : Nat} {pages : Option Nat} {p : Pagination}
variable {plan : PagePlan} {full : QueryResponse} {log : List (Nat × Option Value)}

/-- The answer that holds every row. -/
def Ranks (q : PageSource) (k : Nat) (full : QueryResponse) : Prop :=
  q.store.query q.ns (.rows q.filter ⟨"id", q.direction⟩ k) = .ok full ∧ q.store.size q.ns ≤ k

/-- The rows of the answer are some of the documents, in another order. -/
theorem Ranks.exists_sublist (h : q.Ranks k full) :
    ∃ docs, docs.Sublist (q.store.rows q.ns).documents ∧ full.rows.Perm docs := by
  obtain ⟨rows, p, hrows, -, hranked⟩ := Store.exists_select_of_query h.1 h.2
  have hns : q.store.rows q.ns = rows := by rw [Store.rows, hrows, Option.getD_some]
  refine ⟨rows.select p, ?_, ?_⟩
  · rw [hns, Rows.select]
    exact List.filter_sublist
  · rw [hranked]
    exact perm_stableSort _

section Keyed

variable (hids : SameTypeIds (q.store.rows q.ns).documents)
variable (hnodup : ((q.store.rows q.ns).documents.map Document.id).Nodup)

include hids in
theorem Ranks.sameTypeIds (h : q.Ranks k full) : SameTypeIds full.rows := by
  obtain ⟨docs, hsub, hperm⟩ := h.exists_sublist
  exact hids.of_subset fun d hd => hsub.subset (hperm.mem_iff.mp hd)

include hids hnodup in
theorem Ranks.pairwise_apart (h : q.Ranks k full) :
    full.rows.Pairwise fun a b => b.id.Apart a.id := by
  obtain ⟨docs, hsub, hperm⟩ := h.exists_sublist
  refine DocQuery.pairwise_apart (h.sameTypeIds hids) ?_
  exact (hperm.map Document.id).nodup_iff.mpr (hnodup.sublist (hsub.map Document.id))

include hids hnodup in
/-- **A namespace fetches what a plan should fetch**, for a reader that knows nothing false. -/
theorem answer_of_plan (h : q.Ranks k full) (hf : p.Follows full.rows)
    (hplan : p.plan page true pages limit = .ok plan) :
    q.store.query q.ns (q.request p.size plan) =
      .ok ⟨plan.fetched full.rows p.size, none, some Store.performance⟩ := by
  have hboundary {v : Value} := hf.boundary_of_plan (v := v) hplan
  have hpairwise := h.pairwise_apart hids hnodup
  rcases plan_keyset hplan with ⟨rfl, rfl⟩ | ⟨v, -, rfl, -⟩ | ⟨-, -, rfl⟩
  · -- the first page is the first rows
    have hfirst : pageOf full.rows p.size 1 = full.rows.take p.size := by
      rw [pageOf, Nat.sub_self, Nat.zero_mul, List.drop_zero]
    refine (Store.query_rows_take h.1 h.2 p.size).trans ?_
    rw [← hfirst]
    rfl
  · -- a page behind a boundary: the boundary is the id of a row, and behind the row nothing is lost
    obtain ⟨htwo, hv⟩ := hboundary rfl
    rw [boundaryBehind_eq hf.size_pos (by omega)] at hv
    obtain ⟨r, hr, rfl⟩ := Option.map_eq_some_iff.mp hv
    have hpos : 1 ≤ (page - 1) * p.size := Nat.mul_pos (by omega) hf.size_pos
    have hquery := Store.query_rows_behind h.1 h.2 hr (h.sameTypeIds hids).transOn p.size
    rw [filter_apart_drop hpairwise hr, Nat.sub_add_cancel hpos] at hquery
    exact hquery
  · exact Store.query_rows_take h.1 h.2 _

end Keyed

/-! ### Runs of a reader -/

/-- **The runs of a reader**, in rows ranked by id: the state that is reached, and the pages that
were fetched on the way, each with the boundary that was found behind it. A step asks for a page,
whatever its number, the number of pages and the limit on rows are said to be. -/
inductive Reads (q : PageSource) (size : Nat) : Pagination → List (Nat × Option Value) → Prop
  | start : Reads q size (.start size) []
  /-- The rows of the plan are fetched. -/
  | fetch {p : Pagination} {log : List (Nat × Option Value)} {page limit : Nat}
      {pages : Option Nat} {plan : PagePlan} {r : QueryResponse} (h : Reads q size p log)
      (hlimit : limit < maxWord) (hplan : p.plan page true pages limit = .ok plan)
      (hquery : q.store.query q.ns (q.request size plan) = .ok r) :
      Reads q size (p.commit plan r.rows).1 ((page, (p.commit plan r.rows).1.next) :: log)
  /-- The page was fetched before. -/
  | restore {p : Pagination} {log : List (Nat × Option Value)} {page limit : Nat}
      {pages : Option Nat} {plan : PagePlan} {next : Option Value} (h : Reads q size p log)
      (hlimit : limit < maxWord) (hplan : p.plan page true pages limit = .ok plan)
      (hnext : (page, next) ∈ log) : Reads q size (p.restore plan next) log

section Runs

variable (hids : SameTypeIds (q.store.rows q.ns).documents)
variable (hnodup : ((q.store.rows q.ns).documents.map Document.id).Nodup)

include hids hnodup in
/-- A step whose rows are fetched. -/
theorem fetch_standsAt (h : q.Ranks k full) (hf : p.Follows full.rows) (hlimit : limit < maxWord)
    (hplan : p.plan page true pages limit = .ok plan) {r : QueryResponse}
    (hquery : q.store.query q.ns (q.request p.size plan) = .ok r) :
    (p.commit plan r.rows).2 = pageOf full.rows p.size page ∧
      (p.commit plan r.rows).1.StandsAt full.rows p.size page := by
  rw [answer_of_plan hids hnodup h hf hplan] at hquery
  obtain rfl := Except.ok.inj hquery
  exact commit_standsAt hf hplan hlimit

include hids hnodup in
/-- What a reader knows is true in every run, and so is what it remembers. -/
theorem Reads.follows (hsize : 1 ≤ size) (h : q.Ranks k full) (hreads : q.Reads size p log) :
    p.size = size ∧ p.Follows full.rows ∧
      ∀ page next, (page, next) ∈ log → next = boundaryBehind full.rows size page := by
  -- every step starts from a state that knows nothing false, whichever steps led to it
  induction hreads with
  | start =>
    refine ⟨Nat.max_eq_left hsize, follows_start, ?_⟩
    intro page next hmem
    cases hmem
  | @fetch p log page limit pages plan r _ hlimit hplan hquery ih =>
    obtain ⟨hp, hf, hlog⟩ := ih
    subst hp
    obtain ⟨-, hat⟩ := fetch_standsAt hids hnodup h hf hlimit hplan hquery
    refine ⟨hat.size_eq, hat.follows hsize (plan_eq_ok hplan).1, ?_⟩
    intro page' next hmem
    rcases List.mem_cons.mp hmem with heq | hmem
    · cases heq
      exact hat.next
    · exact hlog page' next hmem
  | @restore p log page limit pages plan next _ _ hplan hnext ih =>
    obtain ⟨hp, hf, hlog⟩ := ih
    subst hp
    have hat := restore_standsAt hf hplan (hlog page next hnext)
    exact ⟨hat.size_eq, hat.follows hsize (plan_eq_ok hplan).1, hlog⟩

include hids hnodup in
/-- **Pages are slices.** In every run, every page that may be fetched is answered with the rows at
its place in the ranked rows, and leaves the reader knowing whether the page was full, its last id
if it was, and of every boundary it has recorded the last id of the page in front of it. The same
holds of a page that is remembered. -/
theorem Reads.slice_eq (hsize : 1 ≤ size) (h : q.Ranks k full) (hreads : q.Reads size p log)
    (hlimit : limit < maxWord) (hplan : p.plan page true pages limit = .ok plan) :
    (∃ r, q.store.query q.ns (q.request size plan) = .ok r ∧
        (p.commit plan r.rows).2 = pageOf full.rows size page ∧
        (p.commit plan r.rows).1.StandsAt full.rows size page) ∧
      ∀ next, (page, next) ∈ log → (p.restore plan next).StandsAt full.rows size page := by
  obtain ⟨rfl, hf, hlog⟩ := hreads.follows hids hnodup hsize h
  have hquery := answer_of_plan hids hnodup h hf hplan
  refine ⟨⟨_, hquery, fetch_standsAt hids hnodup h hf hlimit hplan hquery⟩, ?_⟩
  intro next hmem
  exact restore_standsAt hf hplan (hlog page next hmem)

end Runs

/-- Three ids, inserted out of order. -/
def threeIds : PageSource where
  store := Store.empty.insert "docs" [.ofId (.int 3), .ofId (.int 1), .ofId (.int 2)]
  ns := "docs"
  filter := none
  direction := .asc

/-- The third page is cut from three rows, which leaves a boundary behind which the second one is
found. -/
theorem slice_eq_threeIds :
    ∃ p log plan r, threeIds.Reads 1 p log ∧ p.page = 3 ∧
      p.plan 2 true none 10 = .ok plan ∧ plan.cursor? = some (.int 1) ∧
      threeIds.store.query "docs" (threeIds.request 1 plan) = .ok r ∧
      (p.commit plan r.rows).2 = [.ofId (.int 2)] := by
  have hfull : threeIds.Ranks 10
      ⟨[.ofId (.int 1), .ofId (.int 2), .ofId (.int 3)], none, some Store.performance⟩ :=
    ⟨by cbv, by decide⟩
  have hids : SameTypeIds (threeIds.store.rows "docs").documents := by
    refine Or.inl ?_
    rintro d (_ | ⟨_, _ | ⟨_, _ | ⟨_, ⟨⟩⟩⟩⟩) <;> exact ⟨_, rfl⟩
  have hnodup : ((threeIds.store.rows "docs").documents.map Document.id).Nodup := by
    change ([.int 3, .int 1, .int 2] : List Value).Nodup
    simp
  have hthird : threeIds.store.query "docs" (threeIds.request 1 ⟨3, .overfetch 3 2, true⟩) =
      .ok ⟨[.ofId (.int 1), .ofId (.int 2), .ofId (.int 3)], none, some Store.performance⟩ := by
    cbv
  have hlimit : 10 < maxWord := by decide
  have hplan : (start 1).plan 3 true none 10 = .ok ⟨3, .overfetch 3 2, true⟩ := rfl
  have hreads := Reads.fetch .start hlimit hplan hthird
  have hback : ((start 1).commit ⟨3, .overfetch 3 2, true⟩
      [.ofId (.int 1), .ofId (.int 2), .ofId (.int 3)]).1.plan 2 true none 10 =
        .ok ⟨2, .cursor (some (.int 1)), true⟩ := rfl
  obtain ⟨⟨r, hquery, hrows, -⟩, -⟩ :=
    hreads.slice_eq hids hnodup (Nat.le_refl 1) hfull hlimit hback
  exact ⟨_, _, _, r, hreads, rfl, hback, rfl, hquery, hrows⟩

end PageSource

end DocQuery
