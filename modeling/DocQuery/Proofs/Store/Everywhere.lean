import DocQuery.Proofs.Store.Keyed

/-!
# What all rows of a namespace have in common

Rows come into a namespace in two ways only, as loaded documents and as documents of a table, and
they change in one, by an attribute that a patch sets. So what loaded documents have, what the
documents of the tables have, and what setting the attributes of the patches does not take away, all
rows have at any time.

* `Columns.forall_of_toDocuments` – what the documents of a table have in common;
* `WriteRequest.Keeps`, `Backend.Call.Keeps` – a write or a call that takes nothing away;
* `Store.forall_applyParts`, `Backend.forall_call` – one write, one call;
* `Backend.forall_callAll` – **all rows have it after every run of such calls.**
-/

namespace DocQuery

variable {P : Document → Prop}

/-! ### Tables -/

namespace Columns

theorem forall_setColumn {docs : List Document} {c : String × List Value}
    (set : ∀ v ∈ c.2, ∀ d, P d → P (d.set c.1 v)) (h : ∀ d ∈ docs, P d) :
    ∀ d ∈ setColumn true docs c, P d := by
  intro d hd
  rw [setColumn, ← List.map_uncurry_zip_eq_zipWith] at hd
  obtain ⟨⟨e, v⟩, hmem, rfl⟩ := List.mem_map.mp hd
  obtain ⟨he, hv⟩ := List.of_mem_zip hmem
  show P (setCell true c.1 e v)
  unfold setCell
  split
  · exact h e he
  · exact set v hv e (h e he)

/-- **What the documents of a table have in common**: what ids alone have and no cell takes away. -/
theorem forall_of_toDocuments {table : Columns} {docs : List Document}
    (ids : ∀ ids, table.get? "id" = some ids → ∀ id ∈ ids, P (.ofId id))
    (cells : ∀ c ∈ table, c.1 ≠ "id" → ∀ v ∈ c.2, ∀ d, P d → P (d.set c.1 v))
    (read : table.toDocuments true = .ok docs) : ∀ d ∈ docs, P d := by
  unfold toDocuments at read
  split at read
  case h_1 => cases read
  case h_2 =>
    obtain rfl := Except.ok.inj read
    refine List.foldlRecOn (motive := fun docs : List Document => ∀ d ∈ docs, P d) _ _ ?_
      fun docs h c hc => ?_
    · intro d hd
      obtain ⟨id, hid, rfl⟩ := List.mem_map.mp hd
      cases found : table.get? "id" with
      | none =>
        rw [found] at hid
        cases hid
      | some column =>
        rw [found] at hid
        exact ids column found id hid
    · obtain ⟨hc, other⟩ := List.mem_filter.mp hc
      exact forall_setColumn (cells c hc (bne_iff_ne.mp other)) h

end Columns

/-! ### Rows -/

namespace Rows

variable {rows : Rows}

/-- All rows have the property. -/
def All (P : Document → Prop) (rows : Rows) : Prop := ∀ e ∈ rows, P e.2

theorem All.modify (h : rows.All P) {key : String} {f : Document → Document}
    (keeps : ∀ d, P d → P (f d)) : (rows.modify key f).All P := by
  intro e he
  rcases mem_of_mem_modify he with mem | ⟨d, mem, rfl⟩
  · exact h e mem
  · exact keeps d (h _ mem)

theorem All.insert (h : rows.All P) {d : Document} (hd : P d) : (rows.insert d).All P := by
  unfold Rows.insert
  dsimp only
  split
  case isTrue => exact h.modify fun _ _ => hd
  case isFalse =>
    intro e he
    rcases List.mem_append.mp he with mem | last
    · exact h e mem
    · rw [List.mem_singleton.mp last]
      exact hd

theorem All.insertAll (h : rows.All P) {docs : List Document} (hdocs : ∀ d ∈ docs, P d) :
    (rows.insertAll docs).All P :=
  List.foldlRecOn docs Rows.insert h fun _ h d hd => h.insert (hdocs d hd)

theorem All.filter (h : rows.All P) (p : String × Document → Bool) : All P (rows.filter p) :=
  fun e he => h e (List.mem_of_mem_filter he)

end Rows

/-! ### Writes -/

/-- A write takes nothing away: its tables hold documents with the property, and no patch ends
it. -/
structure WriteRequest.Keeps (P : Document → Prop) (r : WriteRequest) : Prop where
  upsert : ∀ table ∈ r.upsert, ∀ docs, table.toDocuments true = .ok docs → ∀ d ∈ docs, P d
  patch : ∀ table ∈ r.patch, ∀ docs, table.toDocuments true = .ok docs →
    ∀ patch ∈ docs, ∀ e ∈ patch.bag, ∀ d, P d → P (d.set e.1 e.2)

namespace Store

/-- **A write that takes nothing away leaves all rows with the property**, also if it fails. -/
theorem forall_applyParts {rows : Rows} {r : WriteRequest} (keeps : r.Keeps P) (h : rows.All P) :
    (applyParts rows r).rows.All P := by
  refine applyParts_induction
    (fun table htable docs read d hd _ h => h.insert (keeps.upsert table htable docs read d hd))
    (fun table htable docs read patch hpatch _ h => h.modify fun d hd => ?_)
    (fun _ p h => h.filter p) h
  exact List.foldlRecOn (motive := P) patch.bag _ hd
    fun d hd e he => keeps.patch table htable docs read patch hpatch e he d hd

theorem forall_write {s : Store} {ns n : String} {r : WriteRequest}
    (keeps : n = ns → r.Keeps P) (h : (s.rows ns).All P) : ((s.write n r).1.rows ns).All P := by
  unfold Store.write
  split
  · exact h
  · show ((s.withRows n _).rows ns).All P
    rw [rows_withRows]
    split
    case isTrue same =>
      subst same
      exact forall_applyParts (keeps rfl) h
    case isFalse => exact h

theorem forall_insert {s : Store} {ns n : String} {docs : List Document}
    (keeps : n = ns → ∀ d ∈ docs, P d) (h : (s.rows ns).All P) :
    ((s.insert n docs).rows ns).All P := by
  rw [Store.insert, rows_withRows]
  split
  case isTrue same =>
    subst same
    exact h.insertAll (keeps rfl)
  case isFalse => exact h

end Store

/-! ### Runs of calls -/

namespace Backend

/-- A call takes nothing away from the rows of a namespace. -/
def Call.Keeps (P : Document → Prop) (ns : String) : Call → Prop
  | .insert n docs => n = ns → ∀ d ∈ docs, P d
  | .write n request => n = ns → request.Keeps P
  | _ => True

variable {b : Backend} {ns : String}

theorem forall_call {c : Call} (keeps : c.Keeps P ns) (h : (b.store.rows ns).All P) :
    ((b.call c).store.rows ns).All P := by
  cases c with
  | insert n docs => exact Store.forall_insert keeps h
  | write n request =>
    rw [call, store_answerWrite]
    split
    · exact Store.forall_write keeps h
    · exact h
  | query n request =>
    rw [call, store_answerQuery]
    exact h
  | fail failure => exact h

/-- **All rows have the property after every run** of calls that take nothing away. -/
theorem forall_callAll {calls : List Call} (keeps : ∀ c ∈ calls, c.Keeps P ns)
    (h : (b.store.rows ns).All P) : ((b.callAll calls).store.rows ns).All P :=
  List.foldlRecOn calls call (motive := fun b => (b.store.rows ns).All P) h
    fun _ h c hc => forall_call (keeps c hc) h

end Backend

/-! ### Answers -/

/-- The rows of an answer are rows of the namespace with the attributes that were asked for. -/
theorem Store.exists_of_mem_answer {s : Store} {ns : String} {request : QueryRequest}
    {r : QueryResponse} (answered : s.query ns request = .ok r) {d : Document} (hd : d ∈ r.rows) :
    ∃ e ∈ s.rows ns, d = e.2.project request.projection := by
  unfold Store.query at answered
  split at answered
  case h_1 => cases answered
  case h_2 rows there =>
    split at answered
    case h_1 => cases answered
    case h_2 p read =>
      obtain rfl := Except.ok.inj answered
      unfold answer at hd
      split at hd
      case h_1 => cases hd
      case h_2 =>
        obtain ⟨e, he, rfl⟩ := List.mem_map.mp hd
        have ranked := mem_stableSort.mp (List.mem_of_mem_take he)
        obtain ⟨row, hrow, rfl⟩ := List.mem_map.mp (List.mem_of_mem_filter ranked)
        rw [rows_of_get? there]
        exact ⟨row, hrow, rfl⟩

end DocQuery
