import DocQuery.Proofs.Store.Keyed

/-!
# Rows after deletions

The ids of a deletion are taken one after the other, and the row under the key of each is taken out
if there is one. Ids that are not there, and ids that come twice, change nothing.

* `Rows.without` – the rows whose key is not that of an id;
* `Rows.erase_eq_self`, `Rows.length_erase` – one id: nothing happens, or the rows are one fewer;
* `Store.foldl_deleteId` – **these rows are left**, and the number of the others is what is counted;
* `Store.write_ofDelete` – so it is with a write.
-/

namespace DocQuery

namespace Rows

variable {rows : Rows} {key : String}

/-- The rows whose key is not that of an id. -/
def without (rows : Rows) (ids : List Value) : Rows :=
  rows.filter fun e => decide (e.1 ∉ ids.map Value.key)

theorem erase_eq_self (absent : rows.get? key = none) : rows.erase key = rows := by
  refine List.filter_eq_self.2 fun e he => bne_iff_ne.2 fun same => ?_
  exact get?_eq_none_iff.1 absent (same ▸ List.mem_map_of_mem he)

/-- Where no key is twice, one row is erased. -/
theorem length_erase (nodup : (rows.map Prod.fst).Nodup) (there : (rows.get? key).isSome = true) :
    (rows.erase key).length + 1 = rows.length := by
  induction rows with
  | nil => cases there
  | cons row rows ih =>
    obtain ⟨new, nodup⟩ := List.nodup_cons.1 nodup
    rw [erase]
    by_cases here : row.1 = key
    · have others := erase_eq_self (get?_eq_none_iff.2 (here ▸ new))
      rw [List.filter_cons_of_neg (by simpa using here), ← erase, others, List.length_cons]
    · rw [get?, if_neg here] at there
      rw [List.filter_cons_of_pos (by simpa using here), ← erase, List.length_cons, ih nodup there,
        List.length_cons]

end Rows

namespace Store

variable {rows : Rows}

theorem deleteId_rows (acc : Rows × Nat) (id : Value) :
    (deleteId acc id).1 = acc.1.erase id.key := by
  unfold deleteId
  split
  case isTrue => rfl
  case isFalse absent =>
    exact (Rows.erase_eq_self (Option.not_isSome_iff_eq_none.1 absent)).symm

/-- Rows that are left and rows that are counted are as many as before. -/
theorem deleteId_count {acc : Rows × Nat} (nodup : (acc.1.map Prod.fst).Nodup) (id : Value) :
    (deleteId acc id).1.length + (deleteId acc id).2 = acc.1.length + acc.2 := by
  unfold deleteId
  split
  case isTrue there =>
    have := Rows.length_erase nodup there
    dsimp only
    omega
  case isFalse => rfl

/-- **What a deletion leaves and counts**: the rows under other keys than those of the ids are left,
and the rest is counted. -/
theorem foldl_deleteId (ids : List Value) (acc : Rows × Nat) (nodup : (acc.1.map Prod.fst).Nodup) :
    (ids.foldl deleteId acc).1 = acc.1.without ids ∧
      (ids.foldl deleteId acc).1.length + (ids.foldl deleteId acc).2 = acc.1.length + acc.2 := by
  induction ids generalizing acc with
  | nil => exact ⟨(List.filter_eq_self.2 fun _ _ => rfl).symm, rfl⟩
  | cons id ids ih =>
    have fewer : ((deleteId acc id).1.map Prod.fst).Sublist (acc.1.map Prod.fst) := by
      rw [deleteId_rows]
      exact List.filter_sublist.map _
    obtain ⟨left, counted⟩ := ih (deleteId acc id) (nodup.sublist fewer)
    rw [List.foldl_cons]
    refine ⟨?_, counted.trans (deleteId_count nodup id)⟩
    rw [left, deleteId_rows, Rows.erase, Rows.without, List.filter_filter]
    refine List.filter_congr fun e _ => Bool.eq_iff_iff.2 ?_
    simp [and_comm]

/-- **A deletion does not fail.** -/
theorem write_ofDelete {s : Store} {ns : String} (keyed : (s.rows ns).Keyed) (ids : List Value) :
    s.write ns (.ofDelete ids) =
      (s.withRows ns ((s.rows ns).without ids),
        .ok ((s.rows ns).length - ((s.rows ns).without ids).length)) := by
  obtain ⟨left, counted⟩ := foldl_deleteId ids (s.rows ns, 0) keyed.nodup
  have parts : applyParts (s.rows ns) (.ofDelete ids) =
      ⟨(ids.foldl deleteId (s.rows ns, 0)).1, 0 + (ids.foldl deleteId (s.rows ns, 0)).2, none⟩ :=
    rfl
  have given : ¬(WriteRequest.ofDelete ids).isEmpty = true := Bool.false_ne_true
  have count : 0 + (ids.foldl deleteId (s.rows ns, 0)).2 =
      (s.rows ns).length - ((s.rows ns).without ids).length := by
    rw [← left, Nat.zero_add]
    exact Nat.eq_sub_of_add_eq' counted
  rw [write, if_neg given, parts, left, count]

end Store

end DocQuery
