import DocQuery.Proofs.Record
import DocQuery.Store.Backend

/-!
# What is left of a failed write

The parts of a write are applied to the rows one after the other. Each part is checked before it
changes anything, and whether it passes does not depend on the rows; so what a failed write leaves
behind can be read off the request: the parts in front of the first one at fault.

* `WriteRequest.fault?` – the first fault of a request, and `WriteRequest.untilFault` – the parts in
  front of it;
* `Store.applyParts_fault`, `Store.applyParts_rows` – a request stops at that fault, and the rows are
  those after that many parts;
* `Store.applyParts_untilFault_of_single` – a request with one part, if it fails, has done nothing to
  the rows;
* `Backend.answerWrite_error_iff` – **when a write fails**;
* `Backend.answerWrite_error_unchanged_iff` – **when a failed write has changed nothing**: not if its
  namespace came into being for it, nor if the parts in front of the fault did something.
-/

namespace DocQuery

/-! ### The fault of a request -/

/-- The first pattern of a filter that is ill-formed. -/
def Filter.flaw? (x : Filter) : Option PatternFlaw :=
  match Predicate.ofFilter x with
  | .ok _ => none
  | .error flaw => some flaw

namespace WriteRequest

/-- What is wrong with the documents to insert or replace. -/
def upsertFault? (r : WriteRequest) : Option StoreFault :=
  (r.upsert.bind Columns.flaw?).map .columns

/-- What is wrong with the documents to patch. -/
def patchFault? (r : WriteRequest) : Option StoreFault :=
  (r.patch.bind Columns.flaw?).map .columns

/-- What is wrong with the filter of documents to delete. Ids to delete are never wrong. -/
def filterFault? (r : WriteRequest) : Option StoreFault :=
  (r.deleteByFilter.bind Filter.flaw?).map .pattern

/-- The fault that a write stops at. -/
def fault? (r : WriteRequest) : Option StoreFault :=
  if r.isEmpty then some .emptyWrite
  else r.upsertFault?.or (r.patchFault?.or r.filterFault?)

/-- The parts in front of that fault. -/
def untilFault (r : WriteRequest) : WriteRequest :=
  if r.upsertFault?.isSome then empty
  else if r.patchFault?.isSome then { empty with upsert := r.upsert }
  else if r.filterFault?.isSome then { r with deleteByFilter := none }
  else r

/-- Requests with one part, as the client sends them. -/
inductive Single : WriteRequest → Prop
  | upsert (table : Columns) : Single ⟨some table, none, none, none⟩
  | patch (table : Columns) : Single ⟨none, some table, none, none⟩
  | deletes (ids : List Value) : Single ⟨none, none, some ids, none⟩
  | filter (x : Filter) : Single ⟨none, none, none, some x⟩

end WriteRequest

namespace Store

/-! ### One part -/

namespace WriteState

variable {α : Type} {w : WriteState} {part : Option α}
  {apply : Rows → α → Except StoreFault (Rows × Nat)}

@[simp]
theorem andThen_none : w.andThen none apply = w := by
  unfold andThen
  cases w.fault <;> rfl

theorem andThen_of_fault {f : StoreFault} (h : w.fault = some f) : w.andThen part apply = w := by
  unfold andThen
  rw [h]

/-- A part with a given check: the fault does not depend on the rows. -/
def Checked (apply : Rows → α → Except StoreFault (Rows × Nat)) (check : α → Option StoreFault) :
    Prop :=
  ∀ rows a, check a = match apply rows a with
    | .ok _ => none
    | .error fault => some fault

theorem andThen_fault {check : α → Option StoreFault} (checked : Checked apply check) :
    (w.andThen part apply).fault = w.fault.or (part.bind check) := by
  unfold andThen
  cases hw : w.fault with
  | some f => exact hw
  | none =>
    cases part with
    | none => exact hw
    | some a =>
      rw [Option.bind_some, Option.none_or, checked w.rows a]
      cases result : apply w.rows a <;> simp only [result]

/-- **A part that fails leaves the rows alone.** -/
theorem andThen_rows_of_fault {f : StoreFault} (h : (w.andThen part apply).fault = some f) :
    (w.andThen part apply).rows = w.rows := by
  unfold andThen at h ⊢
  split
  case h_1 fault a hw =>
    simp only [hw] at h
    cases result : apply w.rows a with
    | ok r => simp only [result] at h; cases h
    | error f => rfl
  case h_2 => rfl

end WriteState

theorem upsertPart_checked :
    WriteState.Checked upsertPart fun table => table.flaw?.map .columns := by
  intro rows table
  unfold upsertPart Columns.toDocuments
  dsimp only
  cases table.flaw? <;> rfl

theorem patchPart_checked :
    WriteState.Checked patchPart fun table => table.flaw?.map .columns := by
  intro rows table
  unfold patchPart Columns.toDocuments
  dsimp only
  cases table.flaw? <;> rfl

theorem deletePart_checked : WriteState.Checked deletePart fun _ => none := fun _ _ => rfl

theorem deleteByFilterPart_checked :
    WriteState.Checked deleteByFilterPart fun x => x.flaw?.map .pattern := by
  intro rows x
  unfold deleteByFilterPart Filter.flaw?
  dsimp only
  cases Predicate.ofFilter x <;> rfl

/-! ### All parts -/

variable (rows : Rows) (r : WriteRequest)

/-- The states of a write after each of its parts. -/
def afterUpsert : WriteState := WriteState.andThen ⟨rows, 0, none⟩ r.upsert upsertPart

@[inherit_doc afterUpsert]
def afterPatch : WriteState := (afterUpsert rows r).andThen r.patch patchPart

@[inherit_doc afterUpsert]
def afterDeletes : WriteState := (afterPatch rows r).andThen r.deletes deletePart

theorem applyParts_eq : applyParts rows r =
    (afterDeletes rows r).andThen r.deleteByFilter deleteByFilterPart := rfl

theorem afterUpsert_fault : (afterUpsert rows r).fault = r.upsertFault? := by
  rw [afterUpsert, WriteState.andThen_fault upsertPart_checked, Option.none_or,
    WriteRequest.upsertFault?, Option.map_bind]
  rfl

theorem afterPatch_fault : (afterPatch rows r).fault = r.upsertFault?.or r.patchFault? := by
  rw [afterPatch, WriteState.andThen_fault patchPart_checked, afterUpsert_fault,
    WriteRequest.patchFault?, Option.map_bind]
  rfl

theorem afterDeletes_fault : (afterDeletes rows r).fault = r.upsertFault?.or r.patchFault? := by
  rw [afterDeletes, WriteState.andThen_fault deletePart_checked, afterPatch_fault]
  cases r.deletes <;> exact Option.or_none

/-- **A write stops at the first fault of the request.** -/
theorem applyParts_fault :
    (applyParts rows r).fault = r.upsertFault?.or (r.patchFault?.or r.filterFault?) := by
  rw [applyParts_eq, WriteState.andThen_fault deleteByFilterPart_checked, afterDeletes_fault,
    Option.or_assoc, WriteRequest.filterFault?, Option.map_bind]
  rfl

/-- **The parts in front of the fault have been applied**, and no others. -/
theorem applyParts_rows : (applyParts rows r).rows = (applyParts rows r.untilFault).rows := by
  have upsert := afterUpsert_fault rows r
  have patch := afterPatch_fault rows r
  have deletes := afterDeletes_fault rows r
  have filter := applyParts_fault rows r
  unfold WriteRequest.untilFault
  -- by the part at fault: it leaves the rows alone, and those behind it are not tried
  cases hu : r.upsertFault? with
  | some f =>
    rw [hu] at upsert patch deletes
    calc (applyParts rows r).rows = (afterUpsert rows r).rows := by
          rw [applyParts_eq, WriteState.andThen_of_fault deletes, afterDeletes,
            WriteState.andThen_of_fault patch, afterPatch, WriteState.andThen_of_fault upsert]
      _ = rows := WriteState.andThen_rows_of_fault upsert
  | none =>
    cases hp : r.patchFault? with
    | some f =>
      rw [hu, hp] at patch deletes
      calc (applyParts rows r).rows = (afterPatch rows r).rows := by
            rw [applyParts_eq, WriteState.andThen_of_fault deletes, afterDeletes,
              WriteState.andThen_of_fault patch]
        _ = (afterUpsert rows r).rows := WriteState.andThen_rows_of_fault patch
        _ = (applyParts rows { WriteRequest.empty with upsert := r.upsert }).rows := by
          simp [applyParts, afterUpsert, WriteRequest.empty]
    | none =>
      cases hf : r.filterFault? with
      | some f =>
        rw [hu, hp, hf] at filter
        calc (applyParts rows r).rows = (afterDeletes rows r).rows :=
              WriteState.andThen_rows_of_fault filter
          _ = (applyParts rows { r with deleteByFilter := none }).rows := by
            simp [applyParts, afterDeletes, afterPatch, afterUpsert]
      | none => rfl

/-- In front of the fault of a request with one part there is nothing. -/
theorem applyParts_untilFault_of_single {r : WriteRequest} (single : r.Single)
    (fault : (r.upsertFault?.or (r.patchFault?.or r.filterFault?)).isSome) :
    (applyParts rows r.untilFault).rows = rows := by
  have absent : ¬(none : Option StoreFault).isSome = true := Bool.false_ne_true
  have nothing : r.untilFault = .empty := by
    unfold WriteRequest.untilFault
    unfold WriteRequest.upsertFault? WriteRequest.patchFault? WriteRequest.filterFault? at *
    cases single with
    | upsert table =>
      dsimp only [Option.bind_none, Option.map_none] at fault ⊢
      rw [Option.or_none, Option.or_none] at fault
      rw [if_pos fault]
    | patch table =>
      dsimp only [Option.bind_none, Option.map_none, Option.none_or] at fault ⊢
      rw [Option.or_none] at fault
      rw [if_neg absent, if_pos fault]
      rfl
    | deletes ids => cases fault
    | filter x =>
      dsimp only [Option.bind_none, Option.map_none, Option.none_or] at fault ⊢
      rw [if_neg absent, if_neg absent, if_pos fault]
      rfl
  rw [nothing]
  rfl

theorem write_of_isEmpty (s : Store) (ns : String) {r : WriteRequest} (h : r.isEmpty = true) :
    s.write ns r = (s, .error .emptyWrite) := if_pos h

theorem write_of_not_isEmpty (s : Store) (ns : String) {r : WriteRequest} (h : r.isEmpty = false) :
    s.write ns r = (s.withRows ns (applyParts (s.rows ns) r.untilFault).rows,
      match r.fault? with
      | some fault => .error fault
      | none => .ok (applyParts (s.rows ns) r).affected) := by
  rw [← applyParts_rows, WriteRequest.fault?, h, if_neg Bool.false_ne_true,
    ← applyParts_fault (s.rows ns)]
  exact if_neg (by rw [h]; exact Bool.false_ne_true)

theorem get?_withRows (s : Store) (ns n : String) (rows : Rows) :
    (s.withRows ns rows).namespaces.get? n =
      if n = ns then some rows else s.namespaces.get? n :=
  Record.get?_insert ns n rows s.namespaces

end Store

namespace Backend

variable {b b' : Backend} {ns : String} {r : WriteRequest} {f : Failure}

/-- Without a queued failure a write is answered by the store. -/
theorem answerWrite_of_failures_nil (h : b.failures = []) : b.answerWrite ns r =
    ((b.store.write ns r).2.mapError StoreFault.failure,
      { b with store := (b.store.write ns r).1 }) := by
  have taken : b.takeFailure = (none, b) := by rw [takeFailure, h]
  rw [answerWrite, taken]
  dsimp only
  rcases b.store.write ns r with ⟨store, fault | n⟩ <;> rfl

/-- **A write fails** with the next queued failure or else with the fault of its request. The rows
have no say. -/
theorem answerWrite_error_iff : (∃ b', b.answerWrite ns r = (.error f, b')) ↔
    b.failures.head? = some f ∨ b.failures = [] ∧ r.fault?.map StoreFault.failure = some f := by
  cases queued : b.failures with
  | cons g rest =>
    have taken : b.answerWrite ns r = (.error g, { b with failures := rest }) := by
      rw [answerWrite, takeFailure, queued]
    simp [taken]
  | nil =>
    rw [answerWrite_of_failures_nil queued]
    cases isEmpty : r.isEmpty with
    | true =>
      rw [Store.write_of_isEmpty _ _ isEmpty, WriteRequest.fault?, if_pos isEmpty]
      simp [Except.mapError]
    | false =>
      rw [Store.write_of_not_isEmpty _ _ isEmpty]
      cases r.fault? <;> simp [Except.mapError]

/-- What a failed write has done: nothing if the failure was queued, else what the store did. -/
theorem answerWrite_error_cases (h : b.answerWrite ns r = (.error f, b')) :
    (b.failures ≠ [] ∧ b'.store = b.store) ∨
      b.failures = [] ∧ b'.store = (b.store.write ns r).1 := by
  cases queued : b.failures with
  | cons g rest =>
    unfold answerWrite takeFailure at h
    rw [queued] at h
    cases h
    exact .inl ⟨List.cons_ne_nil _ _, rfl⟩
  | nil =>
    rw [answerWrite_of_failures_nil queued] at h
    exact .inr ⟨rfl, congrArg (fun answer => answer.2.store) h.symm⟩

/-- **A failed write changes nothing** exactly if the failure was queued, if the request asked for
nothing, or if the namespace was there and the parts in front of the fault do nothing to its rows.
Other namespaces are left alone in any case. -/
theorem answerWrite_error_unchanged_iff (h : b.answerWrite ns r = (.error f, b')) :
    (∀ n, n ≠ ns → b'.store.namespaces.get? n = b.store.namespaces.get? n) ∧
    ((∀ n, b'.store.namespaces.get? n = b.store.namespaces.get? n) ↔
      b.failures ≠ [] ∨ r.isEmpty = true ∨
        ∃ rows, b.store.namespaces.get? ns = some rows ∧
          (Store.applyParts rows r.untilFault).rows = rows) := by
  obtain ⟨queued, store⟩ | ⟨none_queued, store⟩ := answerWrite_error_cases h <;> rw [store]
  · exact ⟨fun _ _ => rfl, fun _ => .inl queued, fun _ _ => rfl⟩
  cases isEmpty : r.isEmpty with
  | true =>
    rw [Store.write_of_isEmpty _ _ isEmpty]
    exact ⟨fun _ _ => rfl, fun _ => .inr (.inl rfl), fun _ _ => rfl⟩
  | false =>
    rw [Store.write_of_not_isEmpty _ _ isEmpty]
    simp only [Store.get?_withRows]
    refine ⟨fun n hn => if_neg hn, fun unchanged => .inr (.inr ?_), ?_⟩
    · -- the namespace is there afterwards, so it was there before
      have here := unchanged ns
      rw [if_pos rfl] at here
      have same : b.store.rows ns = (Store.applyParts (b.store.rows ns) r.untilFault).rows := by
        conv_lhs => rw [Store.rows, ← here, Option.getD_some]
      exact ⟨b.store.rows ns, here.symm.trans (congrArg some same.symm), same.symm⟩
    · rintro (queued | empty | ⟨rows, found, same⟩) n
      · exact absurd none_queued queued
      · cases empty
      · split
        case isTrue hn => rw [hn, found, Store.rows, found, Option.getD_some, same]
        case isFalse => rfl

/-- A namespace with one document. -/
def oneDocument : Backend := Backend.empty.insert "docs" [Document.ofId (.int 1)]

/-- A second document to insert, and documents to delete by an ill-formed pattern. -/
def halfSound : WriteRequest :=
  { WriteRequest.ofUpsert [Document.ofId (.int 2)] with
    deleteByFilter := some (.condition "name" .glob (.string "[z-a]")) }

theorem answerWrite_error_unchanged_halfSound : ∃ f b',
    oneDocument.answerWrite "docs" halfSound = (.error f, b') ∧
    (∀ n, n ≠ "docs" → b'.store.namespaces.get? n = oneDocument.store.namespaces.get? n) ∧
    ((∀ n, b'.store.namespaces.get? n = oneDocument.store.namespaces.get? n) ↔
      oneDocument.failures ≠ [] ∨ halfSound.isEmpty = true ∨
        ∃ rows, oneDocument.store.namespaces.get? "docs" = some rows ∧
          (Store.applyParts rows halfSound.untilFault).rows = rows) :=
  ⟨_, _, rfl, answerWrite_error_unchanged_iff rfl⟩

/-- The second document stays although the write fails. -/
theorem answerWrite_error_changes :
    ¬ ∀ (b b' : Backend) (ns : String) (r : WriteRequest) (f : Failure),
      b.answerWrite ns r = (.error f, b') →
        ∀ n, b'.store.namespaces.get? n = b.store.namespaces.get? n := by
  intro unchanged
  have rows := unchanged oneDocument _ "docs" halfSound _ rfl "docs"
  have size := congrArg (Option.map List.length) rows
  revert size
  decide +kernel

end Backend

end DocQuery
