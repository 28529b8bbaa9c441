import DocQuery.Engine.Client
import DocQuery.Proofs.Document.Columns
import DocQuery.Proofs.Json.Print
import DocQuery.Proofs.Store.Writes

/-!
# What an upsert stores

Documents are sent by columns and stored under the keys of their ids, which tell the ids apart.

* `Rows.get?_insertAll`, `Rows.get?_insertAll_of_forall_ne` – of documents with different keys each
  one is found under its own, and other keys hold what they held;
* `Store.write_ofUpsert` – an upsert does not fail, and stores what comes back from the columns;
* `Client.write_upsert` – **what is found by the ids of the documents afterwards**: the id and the
  attributes, without those that are null or of a reserved name. A vector has no column and is lost.
-/

namespace DocQuery

namespace Rows

variable {rows : Rows} {d : Document} {key : String}

theorem get?_append (rows rows' : Rows) (key : String) :
    get? key (rows ++ rows') = (get? key rows).or (get? key rows') := by
  induction rows with
  | nil => rfl
  | cons row rows ih =>
    rw [List.cons_append, get?, get?, ih]
    split <;> rfl

theorem get?_modify (f : Document → Document) (other : String) :
    get? other (modify key f rows) =
      if other = key then (get? other rows).map f else get? other rows := by
  induction rows with
  | nil => simp [modify, get?]
  | cons row rows ih =>
    obtain ⟨k, d⟩ := row
    rw [modify]
    by_cases here : k = key
    · subst here
      by_cases same : k = other
      · simp [get?, same]
      · simp [get?, same, Ne.symm same]
    · by_cases same : k = other
      · subst same
        simp [get?, here]
      · simp [get?, here, same, ih]

theorem get?_insert (rows : Rows) (d : Document) (key : String) :
    (rows.insert d).get? key = if key = d.id.key then some d else rows.get? key := by
  unfold insert
  dsimp only
  split
  case isTrue present =>
    rw [get?_modify]
    obtain ⟨old, found⟩ := Option.isSome_iff_exists.1 present
    split
    case isTrue same => rw [same, found, Option.map_some]
    case isFalse => rfl
  case isFalse absent =>
    rw [get?_append]
    split
    case isTrue same =>
      rw [same, Option.not_isSome_iff_eq_none.1 absent]
      simp [get?]
    case isFalse other => simp [get?, Ne.symm other]

theorem insertAll_cons (docs : List Document) :
    rows.insertAll (d :: docs) = (rows.insert d).insertAll docs := rfl

/-- What has none of the keys is left as it was. -/
theorem get?_insertAll_of_forall_ne {docs : List Document} (other : ∀ d ∈ docs, d.id.key ≠ key) :
    (rows.insertAll docs).get? key = rows.get? key := by
  induction docs generalizing rows with
  | nil => rfl
  | cons d docs ih =>
    obtain ⟨here, rest⟩ := List.forall_mem_cons.1 other
    rw [insertAll_cons, ih rest, get?_insert, if_neg here.symm]

/-- **Of documents with different keys each one is found under its own.** -/
theorem get?_insertAll {docs : List Document}
    (different : docs.Pairwise fun d d' => d.id.key ≠ d'.id.key) :
    ∀ d ∈ docs, (rows.insertAll docs).get? d.id.key = some d := by
  induction docs generalizing rows with
  | nil => exact fun _ h => absurd h List.not_mem_nil
  | cons d docs ih =>
    obtain ⟨first, rest⟩ := List.pairwise_cons.1 different
    refine List.forall_mem_cons.2 ⟨?_, ih rest⟩
    rw [insertAll_cons, get?_insertAll_of_forall_ne fun d' hd' => (first d' hd').symm, get?_insert,
      if_pos rfl]

end Rows

namespace Store

/-- **An upsert of documents does not fail.** -/
theorem write_ofUpsert (s : Store) (ns : String) (docs : List Document) :
    s.write ns (.ofUpsert docs) =
      (s.withRows ns ((s.rows ns).insertAll (docs.map (Columns.copied docs))), .ok docs.length) := by
  have parts : applyParts (s.rows ns) (.ofUpsert docs) =
      ⟨(s.rows ns).insertAll (docs.map (Columns.copied docs)), docs.length, none⟩ := by
    simp [applyParts, WriteRequest.ofUpsert, WriteRequest.empty, WriteState.andThen, upsertPart,
      Columns.toDocuments_ofDocuments]
  have given : ¬(WriteRequest.ofUpsert docs).isEmpty = true := Bool.false_ne_true
  rw [write, if_neg given, parts]

end Store

namespace Client

variable {c c' : Client} {docs : List Document} {w : PendingWrite} {n : Nat}

/-- **An upsert of documents succeeds** unless a failure is queued. -/
theorem write_upsert_ok (hdocs : docs ≠ []) (quiet : c.backend.failures = []) :
    ∃ w c', PendingWrite.upsert c.engine docs = .ok w ∧ c.write w = (c', .ok docs.length) := by
  have given : ¬docs.isEmpty = true := by simpa using hdocs
  have answered : (c.write ⟨c.engine.place, .ofUpsert docs⟩).2 = .ok docs.length := by
    have quiet : c.backend.receiveWrite.failures = [] := quiet
    rw [write, Backend.answerWrite_of_failures_nil quiet, Store.write_ofUpsert]
    rfl
  exact ⟨⟨c.engine.place, .ofUpsert docs⟩, _, if_neg given, Prod.ext rfl answered⟩

/-- An upsert that succeeds has stored what comes back from the columns of the documents. -/
theorem store_write_upsert (hw : PendingWrite.upsert c.engine docs = .ok w)
    (h : c.write w = (c', .ok n)) :
    c'.backend.store = c.backend.store.withRows c.engine.place.ns
      ((c.backend.store.rows c.engine.place.ns).insertAll (docs.map (Columns.copied docs))) := by
  unfold PendingWrite.upsert at hw
  split at hw
  case isTrue => cases hw
  case isFalse =>
    obtain rfl := Except.ok.inj hw
    unfold write at h
    cases queued : c.backend.failures with
    | cons f rest =>
      have refused : c.backend.receiveWrite.answerWrite c.engine.place.ns (.ofUpsert docs) =
          (.error f, { c.backend.receiveWrite with failures := rest }) := by
        have queued : c.backend.receiveWrite.failures = f :: rest := queued
        rw [Backend.answerWrite, Backend.takeFailure, queued]
      rw [refused] at h
      cases h
    | nil =>
      have none : c.backend.receiveWrite.failures = [] := queued
      rw [Backend.answerWrite_of_failures_nil none, Store.write_ofUpsert] at h
      cases h
      rfl

theorem key_copied (docs : List Document) (d : Document) :
    (Columns.copied docs d).id.key = d.id.key :=
  congrArg Value.key (Columns.id_copied docs d)

/-- **An upsert stores the attributes of its documents** under their ids, and nothing else changes.
The ids can be written as JSON and are different. What is stored is the document that was given, as
far as it is visible, exactly if that has no vector and no attribute of a reserved name. -/
theorem write_upsert (different : docs.Pairwise fun d d' => d.id ≠ d'.id)
    (data : ∀ d ∈ docs, d.id.isData = true) (hw : PendingWrite.upsert c.engine docs = .ok w)
    (h : c.write w = (c', .ok n)) :
    (∀ d ∈ docs, ∃ d', c'.backend.store.get? c.engine.place.ns d.id = some d' ∧
      d'.id = d.id ∧ d'.vector = none ∧
      (∀ name, d'.bag.get? name = if name ∈ Document.reserved then none
        else (d.bag.get? name).filter fun v => !v.isNull) ∧
      ((d'.vector = d.vector ∧
          ∀ name, d'.bag.get? name = (d.bag.get? name).filter fun v => !v.isNull) ↔
        d.vector = none ∧ ∀ name ∈ Document.reserved, (d.bag.get? name).all Value.isNull)) ∧
    (∀ id : Value, id.isData = true → (∀ d ∈ docs, d.id ≠ id) →
      c'.backend.store.get? c.engine.place.ns id = c.backend.store.get? c.engine.place.ns id) ∧
    ∀ ns, ns ≠ c.engine.place.ns →
      c'.backend.store.namespaces.get? ns = c.backend.store.namespaces.get? ns := by
  have store := store_write_upsert hw h
  have rows : c'.backend.store.rows c.engine.place.ns =
      (c.backend.store.rows c.engine.place.ns).insertAll (docs.map (Columns.copied docs)) := by
    rw [store, Store.rows, Store.get?_withRows, if_pos rfl, Option.getD_some]
  have keys : (docs.map (Columns.copied docs)).Pairwise fun d d' => d.id.key ≠ d'.id.key := by
    rw [List.pairwise_map]
    refine different.imp_of_mem fun {d d'} hd hd' ne same => ?_
    rw [key_copied, key_copied] at same
    exact ne (Value.key_inj (data d hd) (data d' hd') same)
  refine ⟨fun d hd => ⟨Columns.copied docs d, ?_, ?_⟩, fun id isData other => ?_, fun ns ne => ?_⟩
  · rw [Store.get?, rows, ← key_copied docs d]
    exact Rows.get?_insertAll keys _ (List.mem_map_of_mem hd)
  · obtain ⟨fields, eq, -⟩ := Columns.copied_eq docs d
    have bag := Columns.get?_bag_copied hd
    have noVector : (Columns.copied docs d).vector = none := by rw [eq]
    refine ⟨by rw [eq], noVector, bag, ?_, ?_⟩
    · intro faithful
      obtain ⟨vector, same⟩ := faithful
      -- nothing comes back under a reserved name, so what was there had to be null
      refine ⟨vector.symm.trans noVector, fun name reserved => ?_⟩
      have nothing := (same name).symm.trans ((bag name).trans (if_pos reserved))
      exact filter_isNull_eq_none_iff.1 nothing
    · intro plain
      obtain ⟨vector, lost⟩ := plain
      refine ⟨noVector.trans vector.symm, fun name => ?_⟩
      rw [bag]
      split
      case isTrue reserved => exact (filter_isNull_eq_none_iff.2 (lost name reserved)).symm
      case isFalse => rfl
  · rw [Store.get?, Store.get?, rows]
    refine Rows.get?_insertAll_of_forall_ne ?_
    simp only [List.forall_mem_map, key_copied]
    exact fun d hd same => other d hd (Value.key_inj (data d hd) isData same)
  · rw [store, Store.get?_withRows, if_neg ne]

/-- A new client of an empty backend. -/
def freshClient : Client := ⟨.start .default "local" "docs" none, .empty⟩

/-- A document with a vector. -/
def vectorDocument : Document := ⟨.int 1, some [Binary.ofInt 1], none, none, [("a", .int 1)]⟩

theorem write_upsert_vectorDocument : ∃ w c', PendingWrite.upsert freshClient.engine
      [vectorDocument] = .ok w ∧ freshClient.write w = (c', .ok 1) ∧
    ∃ d', c'.backend.store.get? "docs" (.int 1) = some d' ∧ d'.id = .int 1 ∧ d'.vector = none := by
  obtain ⟨w, c', hw, h⟩ := write_upsert_ok (c := freshClient) (List.cons_ne_nil vectorDocument [])
    rfl
  obtain ⟨stored, -, -⟩ := write_upsert (List.pairwise_singleton _ _)
    (fun d hd => by rw [List.mem_singleton.1 hd]; rfl) hw h
  obtain ⟨d', found, id, vector, -, -⟩ := stored vectorDocument List.mem_cons_self
  exact ⟨w, c', hw, h, d', found, id, vector⟩

/-- **A vector is not stored.** -/
theorem write_upsert_loses_vector :
    ¬ ∀ (c c' : Client) (docs : List Document) (w : PendingWrite) (n : Nat),
      docs.Pairwise (fun d d' => d.id ≠ d'.id) → PendingWrite.upsert c.engine docs = .ok w →
        c.write w = (c', .ok n) →
          ∀ d ∈ docs, ∃ d', c'.backend.store.get? c.engine.place.ns d.id = some d' ∧
            d'.id = d.id ∧ d'.vector = d.vector ∧
            ∀ name, d'.bag.get? name = (d.bag.get? name).filter fun v => !v.isNull := by
  intro stores
  obtain ⟨d', found, -, vector, -⟩ := stores freshClient _ [vectorDocument] _ _
    (List.pairwise_singleton _ _) rfl rfl vectorDocument List.mem_cons_self
  have hasVector := congrArg (Option.map fun d : Document => d.vector.isSome) found
  rw [Option.map_some, vector] at hasVector
  revert hasVector
  decide +kernel

end Client

end DocQuery
