import DocQuery.Proofs.Document.Columns
import DocQuery.Proofs.Store.Keyed
import Mathlib.Data.List.Forall2

/-!
# What a patch changes

The documents of a patch are sent as one table, in which a column that one of them needs has a cell
for all of them. Those cells are null and are skipped, so that each document sets what it names itself
and nothing else, and only on the row with its id.

* `Document.patchedBy` – a row with the attributes of a patch; `Document.Patched` – what such a row has
  in common with the one before;
* `Rows.foldl_applyPatch` – all patches, one after the other, row by row;
* `Backend.answerWrite_patch` – **a patch sets what it names** on the rows that are there, and counts
  them.
-/

namespace DocQuery

namespace Document

variable {d : Document} {r : Record Value} {name : String}

/-! ### Setting many attributes -/

@[simp]
theorem store_withStore (d : Document) (r : Record Value) : (d.withStore r).store = r := by
  obtain ⟨id, vector, dist, _ | bag, fields⟩ := d <;> rfl

@[simp]
theorem withStore_withStore (d : Document) (r r' : Record Value) :
    (d.withStore r).withStore r' = d.withStore r' := by
  obtain ⟨id, vector, dist, _ | bag, fields⟩ := d <;> rfl

@[simp]
theorem withStore_store (d : Document) : d.withStore d.store = d := by
  obtain ⟨id, vector, dist, _ | bag, fields⟩ := d <;> rfl

/-- Attributes that are set one after the other. -/
theorem foldl_set (entries : List (String × Value)) (d : Document) :
    entries.foldl (fun d e => d.set e.1 e.2) d =
      d.withStore (entries.foldl (fun r e => r.insert e.1 e.2) d.store) := by
  induction entries generalizing d with
  | nil => exact (withStore_store d).symm
  | cons e entries ih =>
    rw [List.foldl_cons, ih, set, store_withStore, withStore_withStore, List.foldl_cons]

/-- The fields of a document that is stored anew. -/
theorem get?_withStore : (d.withStore r).get? name = if name = "id" then some d.id else r.get? name := by
  obtain ⟨id, vector, dist, _ | bag, fields⟩ := d <;> rfl

/-! ### One patch -/

/-- The document with the attributes of a patch. -/
def patchedBy (d patch : Document) : Document := patch.bag.foldl (fun d e => d.set e.1 e.2) d

/-- A document is as before but for what a patch names. -/
structure Patched (patch d d' : Document) : Prop where
  id : d'.id = d.id
  vector : d'.vector = d.vector
  dist : d'.dist = d.dist
  /-- The attributes stay in a nested bag, or among the free fields. -/
  nested : d'.attributes.isSome = d.attributes.isSome
  named : ∀ name v, patch.bag.get? name = some v → v.isNull = false → d'.get? name = some v
  other : ∀ name, (patch.bag.get? name).all Value.isNull → d'.get? name = d.get? name

theorem get?_patchedBy {patch : Document} (sorted : patch.bag.Sorted) (d : Document) (name : String) :
    (d.patchedBy patch).get? name =
      if name = "id" then some d.id else (patch.bag.get? name).or (d.store.get? name) := by
  rw [patchedBy, foldl_set, get?_withStore, Record.get?_foldl_insert sorted.nodup_names]

/-- **A document of a patch that came through a table sets what it names**, if it is flat. -/
theorem patched_patchedBy {patches : List Document} {patch : Document} (mem : patch ∈ patches)
    (flat : patch.attributes = none) (d : Document) :
    Patched patch d (d.patchedBy (Columns.copied patches patch)) := by
  -- a flat document has no attribute of a reserved name
  have bag (name : String) : (Columns.copied patches patch).bag.get? name =
      (patch.bag.get? name).filter fun v => !v.isNull := by
    rw [Columns.get?_bag_copied mem]
    split
    case isTrue reserved => rw [Columns.get?_bag_of_reserved flat reserved, Option.filter_none]
    case isFalse => rfl
  have get (name : String) : (d.patchedBy (Columns.copied patches patch)).get? name =
      ((patch.bag.get? name).filter fun v => !v.isNull).or (d.get? name) := by
    rw [get?_patchedBy (Columns.sorted_bag_copied patches patch), bag, get?]
    split
    case isTrue hid =>
      rw [Columns.get?_bag_of_reserved flat (by rw [hid]; decide)]
      rfl
    case isFalse => rfl
  have stored : ∃ r, d.patchedBy (Columns.copied patches patch) = d.withStore r :=
    ⟨_, foldl_set _ d⟩
  obtain ⟨r, stored⟩ := stored
  refine ⟨?_, ?_, ?_, ?_, fun name v found notNull => ?_, fun name nothing => ?_⟩
  iterate 4 rw [stored]; obtain ⟨id, vector, dist, _ | bag, fields⟩ := d <;> rfl
  · rw [get, found, Option.filter_some, notNull]
    rfl
  · rw [get, filter_isNull_eq_none_iff.2 nothing, Option.none_or]

end Document

namespace Rows

variable {rows : Rows}

/-! ### All rows -/

/-- Under a key that is not there nothing is changed. -/
theorem modify_of_get?_eq_none {key : String} (absent : rows.get? key = none)
    (f : Document → Document) : rows.modify key f = rows := by
  induction rows with
  | nil => rfl
  | cons e rows ih =>
    rw [get?] at absent
    split at absent
    case isTrue => cases absent
    case isFalse other => rw [modify, if_neg other, ih absent]

/-- Under different keys a change is made wherever the key is. -/
theorem modify_eq_map (nodup : (rows.map Prod.fst).Nodup) (key : String)
    (f : Document → Document) :
    rows.modify key f = rows.map fun e => (e.1, if e.1 = key then f e.2 else e.2) := by
  induction rows with
  | nil => rfl
  | cons e rows ih =>
    obtain ⟨first, rest⟩ := List.nodup_cons.1 nodup
    rw [modify, List.map_cons, ← ih rest]
    split
    case isTrue here =>
      rw [modify_of_get?_eq_none (get?_eq_none_iff.2 (here ▸ first))]
    case isFalse => rfl

theorem isSome_get?_modify (key other : String) (f : Document → Document) :
    ((rows.modify key f).get? other).isSome = (rows.get? other).isSome := by
  rw [Bool.eq_iff_iff, ← Option.ne_none_iff_isSome, ← Option.ne_none_iff_isSome, ne_eq, ne_eq,
    get?_eq_none_iff, get?_eq_none_iff, map_fst_modify]

theorem applyPatch_eq (rows : Rows) (n : Nat) (patch : Document) :
    Store.applyPatch (rows, n) patch =
      (rows.modify patch.id.key (·.patchedBy patch),
        n + (rows.get? patch.id.key).isSome.toNat) := by
  unfold Store.applyPatch
  split
  case isTrue present =>
    rw [present]
    rfl
  case isFalse absent =>
    have absent := Option.not_isSome_iff_eq_none.1 absent
    rw [modify_of_get?_eq_none absent, absent]
    rfl

/-- A row under a key after some patches: those with this key are applied to it. -/
def patchedUnder (key : String) (patches : List Document) (d : Document) : Document :=
  patches.foldl (fun d patch => if patch.id.key = key then d.patchedBy patch else d) d

/-- **Patches are applied row by row**, and those whose row is there are counted. -/
theorem foldl_applyPatch (nodup : (rows.map Prod.fst).Nodup) (patches : List Document) (n : Nat) :
    patches.foldl Store.applyPatch (rows, n) =
      (rows.map fun e => (e.1, patchedUnder e.1 patches e.2),
        n + (patches.filter fun patch => (rows.get? patch.id.key).isSome).length) := by
  induction patches generalizing rows n with
  | nil => simp [patchedUnder]
  | cons patch patches ih =>
    have nodup' : ((rows.modify patch.id.key (·.patchedBy patch)).map Prod.fst).Nodup := by
      rwa [map_fst_modify]
    rw [List.foldl_cons, applyPatch_eq, ih nodup']
    simp only [isSome_get?_modify]
    rw [modify_eq_map nodup, List.map_map]
    refine Prod.ext ?_ ?_
    · refine List.map_congr_left fun e _ => ?_
      simp only [Function.comp_apply, patchedUnder, List.foldl_cons, eq_comm]
    · rw [List.filter_cons]
      cases (rows.get? patch.id.key).isSome
      · rfl
      · simp only [Bool.toNat_true, if_true, List.length_cons]
        omega

section Different

variable {patches : List Document} {key : String}

theorem patchedUnder_of_forall_ne (other : ∀ patch ∈ patches, patch.id.key ≠ key) (d : Document) :
    patchedUnder key patches d = d := by
  induction patches generalizing d with
  | nil => rfl
  | cons patch patches ih =>
    obtain ⟨first, rest⟩ := List.forall_mem_cons.1 other
    rw [patchedUnder, List.foldl_cons, if_neg first]
    exact ih rest d

/-- Of patches with different keys at most one is for the row. -/
theorem patchedUnder_of_mem (different : patches.Pairwise fun p q => p.id.key ≠ q.id.key)
    {patch : Document} (mem : patch ∈ patches) (here : patch.id.key = key) (d : Document) :
    patchedUnder key patches d = d.patchedBy patch := by
  induction patches generalizing d with
  | nil => cases mem
  | cons first patches ih =>
    obtain ⟨apart, rest⟩ := List.pairwise_cons.1 different
    rw [patchedUnder, List.foldl_cons]
    rcases List.mem_cons.1 mem with rfl | mem
    · rw [if_pos here]
      exact patchedUnder_of_forall_ne (fun q hq same => apart q hq (here.trans same.symm)) _
    · rw [if_neg fun same => apart patch mem (same.trans here.symm)]
      exact ih rest mem d

end Different

end Rows

/-! ### Writes -/

/-- **A patch of documents does not fail.** -/
theorem Store.write_ofPatch (s : Store) (ns : String) (docs : List Document)
    (nodup : ((s.rows ns).map Prod.fst).Nodup) :
    s.write ns (.ofPatch docs) =
      (s.withRows ns ((s.rows ns).map fun e =>
          (e.1, Rows.patchedUnder e.1 (docs.map (Columns.copied docs)) e.2)),
        .ok (docs.filter fun patch => (s.get? ns patch.id).isSome).length) := by
  have part : patchPart (s.rows ns) (Columns.ofDocuments docs) =
      .ok ((s.rows ns).map fun e =>
          (e.1, Rows.patchedUnder e.1 (docs.map (Columns.copied docs)) e.2),
        (docs.filter fun patch => (s.get? ns patch.id).isSome).length) := by
    rw [patchPart, Columns.toDocuments_ofDocuments]
    dsimp only
    rw [Rows.foldl_applyPatch nodup, Nat.zero_add, List.filter_map, List.length_map]
    simp only [Function.comp_def, Columns.id_copied, Store.get?]
  have given : ¬(WriteRequest.ofPatch docs).isEmpty = true := Bool.false_ne_true
  have parts : applyParts (s.rows ns) (.ofPatch docs) =
      ⟨(s.rows ns).map fun e =>
          (e.1, Rows.patchedUnder e.1 (docs.map (Columns.copied docs)) e.2),
        (docs.filter fun patch => (s.get? ns patch.id).isSome).length, none⟩ := by
    simp [applyParts, WriteRequest.ofPatch, WriteRequest.empty, WriteState.andThen, part]
  rw [write, if_neg given, parts]

namespace Backend

variable {b : Backend} {calls : List Call} {ns : String} {docs : List Document}

/-- **A patch touches exactly what it names.** Flat documents with different keys are patched on a
backend with any contents, unless a failure is queued. All rows keep their places; each one whose id
is that of a document has the attributes of the document that are not null and is as before in
everything else, and the other rows are as before. The documents whose row is there are counted. -/
theorem answerWrite_patch (reached : Backend.empty.callAll calls = b)
    (flat : ∀ patch ∈ docs, patch.attributes = none)
    (different : docs.Pairwise fun p q => p.id.key ≠ q.id.key) :
    ((∃ n b', b.answerWrite ns (.ofPatch docs) = (.ok n, b')) ↔ b.failures = []) ∧
    ∀ n b', b.answerWrite ns (.ofPatch docs) = (.ok n, b') →
      n = (docs.filter fun patch => (b.store.get? ns patch.id).isSome).length ∧
      List.Forall₂ (fun e e' => e'.1 = e.1 ∧
          (∀ patch ∈ docs, patch.id.key = e.2.id.key → Document.Patched patch e.2 e'.2) ∧
          ((∀ patch ∈ docs, patch.id.key ≠ e.2.id.key) → e'.2 = e.2))
        (b.store.rows ns) (b'.store.rows ns) ∧
      ∀ other, other ≠ ns → b'.store.rows other = b.store.rows other := by
  have keyed : (b.store.rows ns).Keyed := reached ▸ rowsKeyed_callAll Store.rowsKeyed_empty calls ns
  have written := Store.write_ofPatch b.store ns docs keyed.nodup
  have keys : (docs.map (Columns.copied docs)).Pairwise fun p q => p.id.key ≠ q.id.key := by
    simpa only [List.pairwise_map, Columns.id_copied] using different
  cases queued : b.failures with
  | cons f rest =>
    have refused : (b.answerWrite ns (.ofPatch docs)).1 = .error f := by
      rw [answerWrite, takeFailure, queued]
    refine ⟨iff_of_false ?_ (List.cons_ne_nil f rest), fun n b' answered => ?_⟩
    · rintro ⟨n, b', answered⟩
      rw [answered] at refused
      cases refused
    · rw [answered] at refused
      cases refused
  | nil =>
    rw [answerWrite_of_failures_nil queued, written]
    refine ⟨iff_of_true ⟨_, _, rfl⟩ rfl, fun n b' answered => ?_⟩
    obtain ⟨count, rfl⟩ := Prod.mk.inj answered
    refine ⟨(Except.ok.inj count).symm, ?_, fun other apart => ?_⟩
    · rw [Store.rows_withRows, if_pos rfl, List.forall₂_map_right_iff, List.forall₂_same]
      refine fun e he => ⟨rfl, fun patch mem same => ?_, fun none_here => ?_⟩
      · rw [keyed.key_id e he] at same
        rw [Rows.patchedUnder_of_mem keys (List.mem_map_of_mem mem)
          ((congrArg Value.key (Columns.id_copied docs patch)).trans same)]
        exact Document.patched_patchedBy mem (flat patch mem) e.2
      · rw [keyed.key_id e he] at none_here
        refine Rows.patchedUnder_of_forall_ne ?_ e.2
        simpa only [List.forall_mem_map, Columns.id_copied] using none_here
    · rw [Store.rows_withRows, if_neg apart]

/-- A row with free fields and one with a nested bag. -/
def flatAndNested : List Document :=
  [(Document.ofId (.int 1)).set "a" (.int 1),
    { Document.ofId (.string "x") with attributes := some [("a", .int 2), ("b", .int 3)] }]

/-- Three documents that share columns; no row has the last id. -/
def overlapping : List Document :=
  [(Document.ofId (.int 1)).set "b" (.bool true),
    ((Document.ofId (.string "x")).set "a" .null).set "c" (.string "new"),
    (Document.ofId (.int 9)).set "a" (.int 5)]

theorem answerWrite_patch_overlapping : ∃ b b' d d',
    Backend.empty.callAll [.insert "docs" flatAndNested] = b ∧
    (∀ patch ∈ overlapping, patch.attributes = none) ∧
    (overlapping.Pairwise fun p q => p.id.key ≠ q.id.key) ∧
    b.answerWrite "docs" (.ofPatch overlapping) = (.ok 2, b') ∧
    b'.store.rows "docs" = [("1", d), ("\"x\"", d')] ∧
    d.get? "a" = some (.int 1) ∧ d.get? "b" = some (.bool true) ∧
    d'.get? "a" = some (.int 2) ∧ d'.get? "c" = some (.string "new") := by
  obtain ⟨b, reached⟩ : ∃ b, Backend.empty.callAll [.insert "docs" flatAndNested] = b := ⟨_, rfl⟩
  have flat : ∀ patch ∈ overlapping, patch.attributes = none := by decide
  have different : overlapping.Pairwise fun p q => p.id.key ≠ q.id.key := by decide +kernel
  have there : b.store.rows "docs" = flatAndNested.map fun d => (d.id.key, d) := by
    rw [← reached]
    rfl
  obtain ⟨succeeds, effect⟩ := @answerWrite_patch b _ "docs" overlapping reached flat different
  obtain ⟨n, b', answered⟩ := succeeds.2 (reached ▸ rfl)
  obtain ⟨count, rows, -⟩ := effect n b' answered
  rw [there] at rows
  obtain ⟨⟨_, d⟩, _, ⟨rfl, first, -⟩, behind, rows'⟩ := List.forall₂_cons_left_iff.1 rows
  obtain ⟨⟨_, d'⟩, _, ⟨rfl, second, -⟩, last, rfl⟩ := List.forall₂_cons_left_iff.1 behind
  obtain rfl := List.forall₂_nil_left_iff.1 last
  have first := first _ List.mem_cons_self rfl
  have second := second _ (List.mem_cons_of_mem _ List.mem_cons_self) rfl
  have affected : n = 2 := by
    rw [count, ← reached]
    rfl
  exact ⟨b, b', d, d', reached, flat, different, affected ▸ answered, rows', first.other _ rfl,
    first.named _ _ rfl rfl, second.other _ rfl, second.named _ _ rfl rfl⟩

end Backend

end DocQuery
