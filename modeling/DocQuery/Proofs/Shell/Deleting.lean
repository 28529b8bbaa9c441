import DocQuery.Proofs.Engine.Session
import DocQuery.Proofs.Store.Deleting
import DocQuery.Proofs.Text
import DocQuery.Proofs.Value.Keys
import DocQuery.Shell.Session

/-!
# Documents deleted by their names

The words behind the command for deletions name ids: a word that reads as an integer names that
integer, any other one the string that it is. What a table shows of an id is another matter. A
string of digits is shown like an integer, so are some floating-point numbers, and an integer is
named by numerals that it is not shown as.

* `Value.isNamedBy` – the ids that a word names (`Value.key_ofWord_iff`), `Value.hasName` – those
  that are named by what is shown of them (`Value.isNamedBy_display`);
* `Session.documents_delete` – **a deletion takes away what its words name**;
* `Session.handle_delete` – and when that is what is shown as the words.
-/

namespace DocQuery

/-! ### Names of ids -/

/-- Integers of 64 bits are read as they were written. -/
theorem readInt64?_toString (i : Int64) : readInt64? (toString i.toInt).toList = some i := by
  have low := i.le_toInt
  have high := i.toInt_lt
  have signed : (if decide (i.toInt < 0) = true then -(i.toInt.natAbs : Int) else i.toInt.natAbs) =
      i.toInt := by
    simp only [decide_eq_true_eq]
    split <;> omega
  rw [readInt64?, Json.splitSign_toString_int]
  dsimp only
  rw [readDigits?_toDigits, Option.bind_some, signed, if_pos ⟨low, high⟩, Int64.ofInt_toInt]

namespace Value

variable {v : Value} {w : String}

/-- The word names the id: an integer by all of its numerals, a string by itself unless it reads as
an integer. Nothing else is named. -/
def isNamedBy (v : Value) (w : String) : Bool :=
  match v with
  | .int i => decide (readInt64? w.toList = some i)
  | .string s => decide (readInt64? w.toList = none ∧ s = w)
  | _ => false

/-- The id is named by what is shown of it. -/
def hasName : Value → Bool
  | .int _ => true
  | .string s => decide (readInt64? s.toList = none)
  | _ => false

theorem isNamedBy_iff : v.isNamedBy w = true ↔ v = ofWord w := by
  unfold ofWord isNamedBy
  cases readInt64? w.toList <;> cases v <;> simp [eq_comm]

theorem eq_int_of_toJson {i : Int64} (h : v.toJson = (int i).toJson) : v = int i := by
  cases v with
  | int j => rw [Int64.toInt_inj.mp (Json.int.inj h)]
  | float x =>
    rw [toJson, toJson] at h
    split at h <;> cases h
  | _ => cases h

theorem eq_string_of_toJson {s : String} (h : v.toJson = (string s).toJson) : v = string s := by
  cases v with
  | string t => rw [Json.string.inj h]
  | float x =>
    rw [toJson, toJson] at h
    split at h <;> cases h
  | _ => cases h

/-- **The word names exactly the ids with its key.** -/
theorem key_ofWord_iff (hv : v.isOrdered = true) :
    v.key = (ofWord w).key ↔ v.isNamedBy w = true := by
  have named : (ofWord w).isOrdered = true := by
    unfold ofWord
    split <;> rfl
  rw [key_eq_iff_toJson hv named, isNamedBy_iff]
  refine ⟨fun same => ?_, congrArg toJson⟩
  unfold ofWord at same ⊢
  split at same
  · exact eq_int_of_toJson same
  · exact eq_string_of_toJson same

theorem isNamedBy_display (v : Value) : v.isNamedBy v.display = v.hasName := by
  cases v with
  | int i => exact decide_eq_true (readInt64?_toString i)
  | string s => simp [isNamedBy, hasName, display]
  | _ => rfl

/-- When an id is named by one of some words exactly if it is shown as one of them. -/
theorem named_iff_displayed_iff (v : Value) (words : List String) :
    ((∃ w ∈ words, v.isNamedBy w = true) ↔ v.display ∈ words) ↔
      (v.display ∈ words → v.hasName = true) ∧
        ∀ i, v = .int i → (∃ w ∈ words, readInt64? w.toList = some i) →
          toString i.toInt ∈ words := by
  constructor
  · intro agree
    refine ⟨fun shown => ?_, ?_⟩
    · obtain ⟨w, hw, named⟩ := agree.mpr shown
      cases v with
      | int i => rfl
      | string s =>
        obtain ⟨word, rfl⟩ := of_decide_eq_true named
        exact decide_eq_true word
      | _ => cases named
    · rintro i rfl ⟨w, hw, read⟩
      exact agree.mp ⟨w, hw, decide_eq_true read⟩
  · rintro ⟨shown, numeral⟩
    refine ⟨?_, fun here => ⟨_, here, (isNamedBy_display v).trans (shown here)⟩⟩
    rintro ⟨w, hw, named⟩
    cases v with
    | int i => exact numeral i rfl ⟨w, hw, of_decide_eq_true named⟩
    | string s =>
      obtain ⟨-, rfl⟩ := of_decide_eq_true named
      exact hw
    | _ => cases named

end Value

/-! ### Deletions -/

/-- **A deletion of ids succeeds** unless a failure is queued. -/
theorem Client.write_delete {c : Client} {p : Place} (quiet : c.backend.failures = [])
    (keyed : (c.backend.store.rows p.ns).Keyed) (ids : List Value) :
    ∃ c' n, c.write ⟨p, .ofDelete ids⟩ = (c', .ok n) ∧ c'.backend.store =
      c.backend.store.withRows p.ns ((c.backend.store.rows p.ns).without ids) := by
  have quiet : c.backend.receiveWrite.failures = [] := quiet
  have written : c.backend.receiveWrite.store.write p.ns (.ofDelete ids) = _ :=
    Store.write_ofDelete keyed ids
  rw [write, Backend.answerWrite_of_failures_nil quiet, written]
  exact ⟨_, _, rfl, rfl⟩

namespace Session

variable {s : Session} {words : List String}

/-- The documents of a namespace. -/
def documents (s : Session) (ns : String) : List Document :=
  (s.client.backend.store.rows ns).documents

theorem store_load (s : Session) (options : LoadOptions) :
    (s.load options).1.client.backend.store = s.client.backend.store := by
  have loaded := Client.store_load s.client options
  unfold load
  generalize s.client.load options = ended at loaded ⊢
  obtain ⟨client, outcome⟩ := ended
  cases outcome <;> exact loaded

/-- A deletion leaves the rows under other keys than those of its ids. -/
theorem store_delete (quiet : s.client.backend.failures = [])
    (keyed : (s.client.backend.store.rows s.state.ns).Keyed) {ids : List Value} (some : ids ≠ []) :
    (s.delete ids).1.client.backend.store = s.client.backend.store.withRows s.state.ns
      ((s.client.backend.store.rows s.state.ns).without ids) := by
  have given : PendingWrite.delete s.client.engine ids =
      .ok ⟨s.client.engine.place, .ofDelete ids⟩ := if_neg (by simpa using some)
  obtain ⟨c, n, written, store⟩ :=
    Client.write_delete (p := s.client.engine.place) quiet keyed ids
  unfold delete
  rw [given]
  dsimp only
  rw [written]
  exact (store_load _ _).trans store

/-- **A deletion takes away what its words name**, and nothing from another namespace. -/
theorem documents_delete (quiet : s.client.backend.failures = [])
    (keyed : (s.client.backend.store.rows s.state.ns).Keyed)
    (ordered : ∀ d ∈ s.documents s.state.ns, d.id.isOrdered = true) (words : List String)
    (ns : String) :
    (s.delete (words.map Value.ofWord)).1.documents ns =
      if ns = s.state.ns then (s.documents ns).filter fun d => !words.any d.id.isNamedBy
      else s.documents ns := by
  cases words with
  | nil =>
    have all : (s.documents ns).filter (fun d => !List.any [] d.id.isNamedBy) = s.documents ns :=
      List.filter_eq_self.2 fun _ _ => rfl
    rw [all, ite_self]
    rfl
  | cons w words =>
    rw [documents, store_delete quiet keyed (by simp), Store.rows_withRows]
    split
    case isFalse => rfl
    case isTrue here =>
      subst here
      rw [Rows.without, Rows.documents, documents, Rows.documents, List.filter_map]
      refine congrArg _ (List.filter_congr fun e he => ?_)
      have mem : e.2 ∈ s.documents s.state.ns := List.mem_map_of_mem he
      rw [Function.comp_apply, Bool.eq_iff_iff, ← keyed.key_id e he, decide_eq_true_eq,
        List.map_map, Bool.not_eq_true', List.any_eq_false, List.mem_map]
      simp only [not_exists, not_and, Function.comp_apply, ← Value.key_ofWord_iff (ordered _ mem),
        eq_comm]

/-- **What a line that deletes does.** It takes away the documents whose ids its words name. These
are the ones that are shown as the words exactly if each id that is shown as a word has a name, and
each integer that a word names is among the words as it is shown. The rows stand under the keys of
their ids, which every write keeps (`Store.RowsKeyed.write`), and the members of objects stand in
order, as they do in every value. -/
theorem handle_delete {line : String} (typed : Command.ofLine? line = some (.delete words))
    (quiet : s.client.backend.failures = [])
    (keyed : (s.client.backend.store.rows s.state.ns).Keyed)
    (ordered : ∀ d ∈ s.documents s.state.ns, d.id.isOrdered = true) :
    ∃ t lines, s.handle line = some (t, lines) ∧
      (∀ ns, t.documents ns =
        if ns = s.state.ns then (s.documents ns).filter fun d => !words.any d.id.isNamedBy
        else s.documents ns) ∧
      ((∀ d ∈ s.documents s.state.ns, d ∉ t.documents s.state.ns ↔ d.id.display ∈ words) ↔
        (∀ d ∈ s.documents s.state.ns, d.id.display ∈ words → d.id.hasName = true) ∧
          ∀ d ∈ s.documents s.state.ns, ∀ i, d.id = .int i →
            (∃ w ∈ words, readInt64? w.toList = some i) → toString i.toInt ∈ words) := by
  have handled : s.handle line = some (s.delete (words.map Value.ofWord)) := by
    rw [handle, typed]
    rfl
  have left := documents_delete quiet keyed ordered words
  refine ⟨_, _, handled, left, ?_⟩
  have removed (d : Document) (hd : d ∈ s.documents s.state.ns) :
      d ∉ (s.delete (words.map Value.ofWord)).1.documents s.state.ns ↔
        ∃ w ∈ words, d.id.isNamedBy w = true := by
    rw [left, if_pos rfl, List.mem_filter, not_and, Bool.not_eq_true', Bool.not_eq_false,
      List.any_eq_true]
    exact ⟨fun h => h hd, fun h _ => h⟩
  constructor
  · intro agree
    have each (d : Document) (hd : d ∈ s.documents s.state.ns) :=
      (Value.named_iff_displayed_iff d.id words).mp ((removed d hd).symm.trans (agree d hd))
    exact ⟨fun d hd => (each d hd).1, fun d hd => (each d hd).2⟩
  · rintro ⟨shown, numeral⟩ d hd
    exact (removed d hd).trans
      ((Value.named_iff_displayed_iff d.id words).mpr ⟨shown d hd, numeral d hd⟩)

/-- A session over documents with some ids. -/
def ofIds (ids : List Value) : Session where
  client := Client.opened .default "local" "docs" none
    { Backend.empty with store := Store.empty.insert "docs" (ids.map Document.ofId) }
  color := false

theorem keyed_ofIds (ids : List Value) : ((ofIds ids).client.backend.store.rows "docs").Keyed :=
  Store.rowsKeyed_empty.insert "docs" _ "docs"

/-- An integer and a string are deleted, by names that are all that is shown of them. -/
theorem handle_delete_names : ∃ t lines,
    (ofIds [.int 7, .string "x7", .int (-7)]).handle ":del 7 x7" = some (t, lines) ∧
      t.documents "docs" = [.ofId (.int (-7))] ∧
      ∀ d ∈ (ofIds [.int 7, .string "x7", .int (-7)]).documents "docs",
        d ∉ t.documents "docs" ↔ d.id.display ∈ ["7", "x7"] := by
  have typed : Command.ofLine? ":del 7 x7" = some (.delete ["7", "x7"]) := by rfl
  obtain ⟨t, lines, handled, left, agree⟩ :=
    handle_delete (s := ofIds [.int 7, .string "x7", .int (-7)]) typed rfl (keyed_ofIds _)
      (by decide)
  refine ⟨t, lines, handled, left "docs", agree.mpr ⟨by decide, ?_⟩⟩
  rintro d - i - ⟨w, hw, read⟩
  obtain rfl | rfl := List.mem_pair.mp hw
  · obtain rfl : (7 : Int64) = i := Option.some.inj read
    decide
  · cases read

/-- **A numeral deletes another document than the one that is shown as it.** -/
theorem delete_otherNumeral : ∃ t lines,
    (ofIds [.int 7, .string "007"]).handle ":del 007" = some (t, lines) ∧
      (Value.string "007").display = "007" ∧ (Value.int 7).display = "7" ∧
      t.documents "docs" = [.ofId (.string "007")] := by
  have typed : Command.ofLine? ":del 007" = some (.delete ["007"]) := by rfl
  have handled : (ofIds [.int 7, .string "007"]).handle ":del 007" =
      some ((ofIds [.int 7, .string "007"]).delete (["007"].map Value.ofWord)) := by
    rw [handle, typed]
    rfl
  have left := documents_delete (s := ofIds [.int 7, .string "007"]) rfl (keyed_ofIds _) (by decide)
    ["007"] "docs"
  exact ⟨_, _, handled, rfl, rfl, left⟩

end Session

end DocQuery
