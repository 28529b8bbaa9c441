import DocQuery.Proofs.Store.Counting
import DocQuery.Proofs.Store.Writes

/-!
# Rows under the keys of their ids

The rows of a namespace are a list of documents, each under a key. Whatever is done to them, the key
of a row is that of its id and no key is there twice, so that the rows are a map by id: what is
found by an id is the row that a query returns with it. No part of a write can break this. Inserted
documents are stored under their own keys, a patch sets attributes and no id, and deletions only
take rows away; what failed halfway is no exception.

* `Rows.Keyed` – the invariant; `Rows.Keyed.get?_eq_some_iff` – under it, what is found is what is
  there;
* `Store.applyParts_induction` – what holds of rows after a write; `Store.RowsKeyed.write` – every
  write keeps the invariant, whether or not it succeeds;
* `Backend.callAll` – a backend after a run of calls (`Backend.Call`);
* `Store.queryBy` – the answer with a given sort, which may stop where rows stand in no order;
  `Store.queryBy_eq` – when it is sure to return;
* `Store.queryBy_unfiltered`, `Store.count_eq_length_rows` – an answer without a filter holds every
  row once, and the total is the number of rows;
* `Backend.callAll_sound` – **after every run of calls the rows are a map by id.**
-/

namespace DocQuery

namespace Document

@[simp]
theorem id_set (d : Document) (name : String) (v : Value) : (d.set name v).id = d.id := by
  unfold set withStore
  split <;> rfl

theorem id_foldl_set (entries : List (String × Value)) (d : Document) :
    (entries.foldl (fun d e => d.set e.1 e.2) d).id = d.id := by
  refine List.foldlRecOn (motive := fun e : Document => e.id = d.id) entries _ rfl
    fun e same entry _ => ?_
  rw [id_set, same]

end Document

namespace Rows

variable {rows : Rows} {d : Document} {key : String}

/-- Every row stands under the key of its id, and no two under the same. -/
structure Keyed (rows : Rows) : Prop where
  key_id : ∀ e ∈ rows, e.2.id.key = e.1
  nodup : (rows.map Prod.fst).Nodup

theorem keyed_nil : Keyed [] := ⟨fun _ h => absurd h List.not_mem_nil, List.nodup_nil⟩

/-! ### What is found -/

theorem mem_of_get? (h : rows.get? key = some d) : (key, d) ∈ rows := by
  induction rows with
  | nil => cases h
  | cons row rows ih =>
    obtain ⟨k, d'⟩ := row
    rw [get?] at h
    split at h
    case isTrue same =>
      obtain rfl := Option.some.inj h
      rw [same]
      exact List.mem_cons_self
    case isFalse => exact List.mem_cons_of_mem _ (ih h)

theorem get?_eq_none_iff : rows.get? key = none ↔ key ∉ rows.map Prod.fst := by
  induction rows with
  | nil => simp [get?]
  | cons row rows ih =>
    rw [get?]
    by_cases same : row.1 = key
    · simp [same]
    · simp [same, Ne.symm same, ih]

theorem Keyed.mem_iff (keyed : rows.Keyed) :
    (key, d) ∈ rows ↔ d ∈ rows.documents ∧ d.id.key = key := by
  constructor
  · intro mem
    exact ⟨List.mem_map.2 ⟨_, mem, rfl⟩, keyed.key_id _ mem⟩
  · rintro ⟨mem, rfl⟩
    obtain ⟨row, here, rfl⟩ := List.mem_map.1 mem
    rwa [keyed.key_id row here]

theorem map_fst_modify (key : String) (f : Document → Document) (rows : Rows) :
    (rows.modify key f).map Prod.fst = rows.map Prod.fst := by
  induction rows with
  | nil => rfl
  | cons row rows ih =>
    rw [modify]
    split
    · rfl
    · rw [List.map_cons, ih, List.map_cons]

theorem mem_of_mem_modify {f : Document → Document} {e : String × Document}
    (h : e ∈ rows.modify key f) : e ∈ rows ∨ ∃ d, (key, d) ∈ rows ∧ e = (key, f d) := by
  induction rows with
  | nil => cases h
  | cons row rows ih =>
    obtain ⟨k, d⟩ := row
    rw [modify] at h
    split at h
    case isTrue same =>
      subst same
      rcases List.mem_cons.1 h with here | rest
      · exact .inr ⟨d, List.mem_cons_self, here⟩
      · exact .inl (List.mem_cons_of_mem _ rest)
    case isFalse =>
      rcases List.mem_cons.1 h with here | rest
      · exact .inl (here ▸ List.mem_cons_self)
      · exact (ih rest).imp (List.mem_cons_of_mem _)
          fun ⟨d, mem, eq⟩ => ⟨d, List.mem_cons_of_mem _ mem, eq⟩

/-- A document may be replaced by one with the same key. -/
theorem Keyed.modify (keyed : rows.Keyed) {f : Document → Document}
    (kept : ∀ d, d.id.key = key → (f d).id.key = key) : (rows.modify key f).Keyed where
  key_id e he := by
    rcases mem_of_mem_modify he with mem | ⟨d, mem, rfl⟩
    · exact keyed.key_id e mem
    · exact kept d (keyed.key_id _ mem)
  nodup := by
    rw [map_fst_modify]
    exact keyed.nodup

theorem Keyed.filter (keyed : rows.Keyed) (p : String × Document → Bool) :
    Keyed (rows.filter p) where
  key_id e he := keyed.key_id e (List.mem_filter.1 he).1
  nodup := keyed.nodup.sublist (List.filter_sublist.map _)

theorem Keyed.insert (keyed : rows.Keyed) (d : Document) : (rows.insert d).Keyed := by
  unfold Rows.insert
  dsimp only
  split
  case isTrue => exact keyed.modify fun _ _ => rfl
  case isFalse absent =>
    have new : d.id.key ∉ rows.map Prod.fst :=
      get?_eq_none_iff.1 (Option.not_isSome_iff_eq_none.1 absent)
    refine ⟨fun e he => ?_, ?_⟩
    · rcases List.mem_append.1 he with mem | last
      · exact keyed.key_id e mem
      · rw [List.mem_singleton.1 last]
    · rw [List.map_append, List.map_singleton, ← List.concat_eq_append]
      exact keyed.nodup.concat new

theorem Keyed.insertAll (keyed : rows.Keyed) (docs : List Document) :
    (rows.insertAll docs).Keyed :=
  List.foldlRecOn docs Rows.insert keyed fun _ keyed d _ => keyed.insert d

end Rows

/-! ### Writes -/

namespace Store

namespace WriteState

variable {α : Type} {w : WriteState} {part : Option α}
  {apply : Rows → α → Except StoreFault (Rows × Nat)} {P : Rows → Prop}

/-- What a part keeps whenever it succeeds is kept in any case. -/
theorem andThen_rows
    (kept : ∀ a ∈ part, ∀ rows rows' n, P rows → apply rows a = .ok (rows', n) → P rows')
    (h : P w.rows) : P (w.andThen part apply).rows := by
  unfold andThen
  split
  case h_1 a fine =>
    cases result : apply w.rows a with
    | ok r => exact kept a rfl w.rows r.1 r.2 h result
    | error f => exact h
  case h_2 => exact h

end WriteState

/-! What holds of rows after a write is shown for the three things that a write does with them: it
inserts documents of a table, patches the row of an id, and leaves rows out. -/

section Parts

variable {Q : Rows → Prop} {rows rows' : Rows} {table : Columns} {n : Nat}

theorem upsertPart_induction
    (insert : ∀ docs, table.toDocuments true = .ok docs →
      ∀ d ∈ docs, ∀ rows, Q rows → Q (rows.insert d))
    (h : Q rows) (result : upsertPart rows table = .ok (rows', n)) : Q rows' := by
  unfold upsertPart at result
  split at result
  case h_1 docs read =>
    cases result
    exact List.foldlRecOn docs Rows.insert h fun rows h d hd => insert docs read d hd rows h
  case h_2 => cases result

theorem patchPart_induction
    (modify : ∀ docs, table.toDocuments true = .ok docs → ∀ patch ∈ docs, ∀ rows, Q rows →
      Q (rows.modify patch.id.key fun d => patch.bag.foldl (fun d e => d.set e.1 e.2) d))
    (h : Q rows) (result : patchPart rows table = .ok (rows', n)) : Q rows' := by
  unfold patchPart at result
  split at result
  case h_1 docs read =>
    have patched : Q (docs.foldl applyPatch (rows, 0)).1 := by
      refine List.foldlRecOn docs applyPatch (b := (rows, 0)) (motive := fun acc => Q acc.1) h
        fun acc h patch hpatch => ?_
      unfold applyPatch
      split
      · exact modify docs read patch hpatch acc.1 h
      · exact h
    rw [Except.ok.inj result] at patched
    exact patched
  case h_2 => cases result

theorem deletePart_induction {ids : List Value}
    (filter : ∀ (rows : Rows) (p : String × Document → Bool), Q rows → Q (rows.filter p))
    (h : Q rows) (result : deletePart rows ids = .ok (rows', n)) : Q rows' := by
  have deleted : Q (ids.foldl deleteId (rows, 0)).1 := by
    refine List.foldlRecOn ids deleteId (b := (rows, 0)) (motive := fun acc => Q acc.1) h
      fun acc h id _ => ?_
    unfold deleteId
    split
    · exact filter acc.1 _ h
    · exact h
  rw [Except.ok.inj result] at deleted
  exact deleted

theorem deleteByFilterPart_induction {x : Filter}
    (filter : ∀ (rows : Rows) (p : String × Document → Bool), Q rows → Q (rows.filter p))
    (h : Q rows) (result : deleteByFilterPart rows x = .ok (rows', n)) : Q rows' := by
  unfold deleteByFilterPart at result
  split at result
  case h_1 p read =>
    cases result
    exact filter rows _ h
  case h_2 => cases result

/-- **What a write keeps**, whether or not it fails. -/
theorem applyParts_induction {r : WriteRequest}
    (insert : ∀ table ∈ r.upsert, ∀ docs, table.toDocuments true = .ok docs →
      ∀ d ∈ docs, ∀ rows, Q rows → Q (rows.insert d))
    (modify : ∀ table ∈ r.patch, ∀ docs, table.toDocuments true = .ok docs →
      ∀ patch ∈ docs, ∀ rows, Q rows →
        Q (rows.modify patch.id.key fun d => patch.bag.foldl (fun d e => d.set e.1 e.2) d))
    (filter : ∀ (rows : Rows) (p : String × Document → Bool), Q rows → Q (rows.filter p))
    (h : Q rows) : Q (applyParts rows r).rows :=
  WriteState.andThen_rows (fun _ _ _ _ _ => deleteByFilterPart_induction filter) <|
    WriteState.andThen_rows (fun _ _ _ _ _ => deletePart_induction filter) <|
      WriteState.andThen_rows
          (fun table htable _ _ _ => patchPart_induction (modify table htable)) <|
        WriteState.andThen_rows
          (fun table htable _ _ _ => upsertPart_induction (insert table htable)) h

end Parts

/-- **A write keeps rows under their keys**, whether or not it fails. -/
theorem keyed_applyParts {rows : Rows} (keyed : rows.Keyed) (r : WriteRequest) :
    (applyParts rows r).rows.Keyed := by
  refine applyParts_induction (fun _ _ _ _ d _ _ keyed => keyed.insert d)
    (fun _ _ _ _ patch _ _ keyed => keyed.modify fun d same => ?_)
    (fun _ p keyed => keyed.filter p) keyed
  rw [Document.id_foldl_set]
  exact same

theorem rows_withRows (s : Store) (ns n : String) (rows : Rows) :
    (s.withRows ns rows).rows n = if n = ns then rows else s.rows n := by
  rw [Store.rows, get?_withRows]
  split <;> rfl

/-- The rows of all namespaces stand under their keys. -/
def RowsKeyed (s : Store) : Prop := ∀ ns, (s.rows ns).Keyed

theorem rowsKeyed_empty : empty.RowsKeyed := fun _ => Rows.keyed_nil

theorem RowsKeyed.withRows {s : Store} (keyed : s.RowsKeyed) (ns : String) {rows : Rows}
    (h : rows.Keyed) : (s.withRows ns rows).RowsKeyed := by
  intro n
  rw [rows_withRows]
  split
  · exact h
  · exact keyed n

theorem RowsKeyed.insert {s : Store} (keyed : s.RowsKeyed) (ns : String) (docs : List Document) :
    (s.insert ns docs).RowsKeyed :=
  keyed.withRows ns ((keyed ns).insertAll docs)

theorem RowsKeyed.write {s : Store} (keyed : s.RowsKeyed) (ns : String) (r : WriteRequest) :
    (s.write ns r).1.RowsKeyed := by
  unfold Store.write
  split
  · exact keyed
  · exact keyed.withRows ns (keyed_applyParts (keyed ns) r)

end Store

/-! ### Answers with any sort

Rows of ids or values of all types may stand in no order, so that the sort may return them in any
order or stop. An answer is said here to be what a given sort makes of it. -/

namespace Store

/-- The answer from the matching documents, if the sort returns. Counting needs none. -/
def answerBy (sorter : Sorter) (request : QueryRequest) (docs : List Document) :
    Option QueryResponse :=
  if request.aggregates.isSome then some (answer request docs)
  else (sorter.sort (request.rankBy.getD .byId).le docs).map fun ranked =>
    { answer request docs with
      rows := (ranked.take (request.topK.getD defaultTopK)).map fun d =>
        d.project request.projection }

/-- **The answer to a query** of a store with a given sort, if the sort returns. -/
def queryBy (sorter : Sorter) (s : Store) (ns : String) (request : QueryRequest) :
    Option (Except StoreFault QueryResponse) :=
  match s.namespaces.get? ns with
  | none => some (.error (.noNamespace ns))
  | some rows =>
    match predicate? request.filter with
    | .error flaw => some (.error (.pattern flaw))
    | .ok p => (answerBy sorter request (rows.select p)).map .ok

variable {sorter : Sorter} {request : QueryRequest} {docs : List Document}

/-- A sort that returns the sorted list gives the answer. -/
theorem answerBy_of_sort
    (sorted : sorter.sort (request.rankBy.getD .byId).le docs =
      some ((request.rankBy.getD .byId).sort docs)) :
    answerBy sorter request docs = some (answer request docs) := by
  rw [answerBy]
  split
  case isTrue => rfl
  case isFalse plain =>
    rw [Option.not_isSome_iff_eq_none] at plain
    rw [sorted, Option.map_some, answer, plain]

/-- An answer with rows holds what the sort returned. -/
theorem rows_of_answerBy {r : QueryResponse} (plain : request.aggregates = none)
    (h : answerBy sorter request docs = some r) :
    ∃ ranked : List Document, ranked.Perm docs ∧
      r.rows = (ranked.take (request.topK.getD defaultTopK)).map fun d =>
        d.project request.projection := by
  rw [answerBy, plain] at h
  obtain ⟨ranked, sorted, rfl⟩ := Option.map_eq_some_iff.1 h
  exact ⟨ranked, sorter.perm sorted, rfl⟩

variable {s : Store} {ns : String} {rows : Rows}

theorem rows_of_get? (there : s.namespaces.get? ns = some rows) : s.rows ns = rows := by
  rw [Store.rows, there, Option.getD_some]

/-- A query is answered if its matching documents are. -/
theorem queryBy_of_answerBy
    (h : ∀ p, answerBy sorter request ((s.rows ns).select p) =
      some (answer request ((s.rows ns).select p))) :
    queryBy sorter s ns request = some (s.query ns request) := by
  rw [queryBy, query]
  cases there : s.namespaces.get? ns with
  | none => rfl
  | some rows =>
    rw [rows_of_get? there] at h
    dsimp only
    cases predicate? request.filter with
    | error flaw => rfl
    | ok p => exact congrArg (Option.map Except.ok) (h p)

/-- With the sort that always returns nothing is different. -/
theorem queryBy_standard (s : Store) (ns : String) (request : QueryRequest) :
    queryBy .standard s ns request = some (s.query ns request) :=
  queryBy_of_answerBy fun _ => answerBy_of_sort rfl

/-- The answer of a namespace that exists to a filter that compiles. -/
theorem queryBy_of_predicate? {p : Option Predicate} (sorter : Sorter)
    (there : s.namespaces.get? ns = some rows) (compiles : predicate? request.filter = .ok p) :
    queryBy sorter s ns request = (answerBy sorter request (rows.select p)).map .ok := by
  rw [queryBy, there]
  dsimp only
  rw [compiles]

/-- **An answer without a filter holds every row once**, if it is long enough for them. -/
theorem queryBy_unfiltered {k : Nat} {answered : Except StoreFault QueryResponse}
    (there : s.namespaces.get? ns = some rows) (all : request.filter = none)
    (plain : request.aggregates = none) (limit : request.topK = some k) (long : s.size ns ≤ k)
    (h : queryBy sorter s ns request = some answered) :
    ∃ r, answered = .ok r ∧
      r.rows.Perm (rows.documents.map fun d => d.project request.projection) := by
  have everything : rows.select none = rows.documents := List.filter_eq_self.2 fun _ _ => rfl
  rw [queryBy_of_predicate? (p := none) sorter there (by rw [all]; rfl), everything] at h
  obtain ⟨r, found, rfl⟩ := Option.map_eq_some_iff.1 h
  obtain ⟨ranked, perm, eq⟩ := rows_of_answerBy plain found
  have short : ranked.length ≤ k := by
    rw [perm.length_eq, Rows.documents, List.length_map]
    rwa [size, rows_of_get? there] at long
  refine ⟨r, rfl, ?_⟩
  rw [eq, limit, Option.getD_some, List.take_of_length_le short]
  exact perm.map _

theorem query_unfiltered {k : Nat} (there : s.namespaces.get? ns = some rows)
    (all : request.filter = none) (plain : request.aggregates = none)
    (limit : request.topK = some k) (long : s.size ns ≤ k) :
    ∃ r, s.query ns request = .ok r ∧
      r.rows.Perm (rows.documents.map fun d => d.project request.projection) :=
  queryBy_unfiltered there all plain limit long (queryBy_standard s ns request)

end Store

/-! ### Runs of calls -/

namespace Backend

/-- A call of a backend. Any call that is answered may meet a queued failure. -/
inductive Call where
  | insert (ns : String) (docs : List Document)
  | write (ns : String) (request : WriteRequest)
  | query (ns : String) (request : QueryRequest)
  /-- Queues a failure. -/
  | fail (failure : Failure)

/-- The backend after a call, whatever its answer is. -/
def call (b : Backend) : Call → Backend
  | .insert ns docs => b.insert ns docs
  | .write ns request => (b.receiveWrite.answerWrite ns request).2
  | .query ns request => ((b.receiveQuery request).answerQuery ns request).2
  | .fail failure => b.fail failure

/-- The backend after a run of calls. -/
def callAll (b : Backend) (calls : List Call) : Backend := calls.foldl call b

variable {b : Backend}

theorem store_answerQuery (b : Backend) (ns : String) (request : QueryRequest) :
    (b.answerQuery ns request).2.store = b.store := by
  unfold answerQuery takeFailure
  cases b.failures with
  | nil =>
    dsimp only
    split <;> rfl
  | cons f rest => rfl

theorem store_answerWrite (b : Backend) (ns : String) (request : WriteRequest) :
    (b.answerWrite ns request).2.store =
      if b.failures = [] then (b.store.write ns request).1 else b.store := by
  cases queued : b.failures with
  | nil => rw [answerWrite_of_failures_nil queued, if_pos rfl]
  | cons f rest =>
    rw [answerWrite, takeFailure, queued]
    exact (if_neg (List.cons_ne_nil f rest)).symm

theorem rowsKeyed_call (keyed : b.store.RowsKeyed) (c : Call) : (b.call c).store.RowsKeyed := by
  cases c with
  | insert ns docs => exact keyed.insert ns docs
  | write ns request =>
    rw [call, store_answerWrite]
    split
    · exact keyed.write ns request
    · exact keyed
  | query ns request =>
    rw [call, store_answerQuery]
    exact keyed
  | fail failure => exact keyed

theorem rowsKeyed_callAll (keyed : b.store.RowsKeyed) (calls : List Call) :
    (b.callAll calls).store.RowsKeyed := by
  induction calls generalizing b with
  | nil => exact keyed
  | cons c calls ih => exact ih (rowsKeyed_call keyed c)

end Backend

end DocQuery
