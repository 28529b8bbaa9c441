import DocQuery.Proofs.Store.Ranking

/-!
# Totals

A store answers a query for the total with a value, which a reader takes for a count again.

* `Store.matching` – the number of documents of a namespace that match a filter;
* `Store.query_count_iff` – the answer to a query for the total;
* `Store.exists_count` – **it is always read as a count**, and as the number of matches if that has
  63 bits (`Store.count_answer`, `Store.count_eq_matching`). A longer list would be counted in
  floating point.
-/

namespace DocQuery

/-! ### Numbers that are not negative -/

namespace Binary

variable {f : Format}

theorem zero_le_units_pack (m : Nat) (e : Int) :
    0 ≤ (pack false m e : Binary f).units ∧ (pack false m e : Binary f).isNaN = false := by
  rw [pack]
  split
  · exact ⟨Int.natCast_nonneg _, rfl⟩
  · split
    · exact ⟨Int.natCast_nonneg _, rfl⟩
    · exact ⟨Int.natCast_nonneg _, rfl⟩

/-- A natural number is not below zero, in whatever way it is rounded. -/
theorem zero_numLe_ofInt (n : Nat) : (zero false : Double).numLe (ofInt n) = true := by
  have hzero : (zero false : Double).units = 0 ∧ (zero false : Double).isNaN = false := by decide
  have hpositive : 0 ≤ (ofInt n : Double).units ∧ (ofInt n : Double).isNaN = false := by
    have hsign : decide ((n : Int) < 0) = false := by simp
    rw [ofInt, hsign, ofRatio]
    split
    · exact ⟨Int.le_of_eq hzero.1.symm, hzero.2⟩
    · exact zero_le_units_pack _ _
  rw [numLe, compare?, hzero.2, hpositive.2, hzero.1]
  exact Std.isLE_compare.mpr hpositive.1

end Binary

/-! ### The answer to a query for the total -/

namespace Store

variable {s : Store} {ns : String} {filter : Option Filter}

/-- The number of documents of a namespace that match a filter. -/
def matching (s : Store) (ns : String) (filter : Option Filter) : Nat :=
  match predicate? filter with
  | .ok p => ((s.rows ns).select p).length
  | .error _ => 0

theorem query_count_iff {r : QueryResponse} : s.query ns (.count filter) = .ok r ↔
    ∃ rows p, s.namespaces.get? ns = some rows ∧ predicate? filter = .ok p ∧
      r = answer (.count filter) (rows.select p) := by
  have hfilter : (QueryRequest.count filter).filter = filter := rfl
  rw [query, hfilter]
  cases hrows : s.namespaces.get? ns with
  | none => simp
  | some rows =>
    cases hp : predicate? filter with
    | error flaw => simp
    | ok p => simp [eq_comm]

/-- The value in the answer is the length of the list. -/
theorem aggregations_answer (docs : List Document) :
    ((answer (.count filter) docs).aggregations.bind fun a => a.get? QueryRequest.countName) =
      some (Value.ofInt docs.length) := by
  rfl

/-- A list whose length has 63 bits is counted as it is. -/
theorem count_answer {docs : List Document} (h : docs.length < 2 ^ 63) :
    (answer (.count filter) docs).count = .ok docs.length := by
  have hvalue : Value.ofInt docs.length = .int (Int64.ofInt docs.length) := by
    rw [Value.ofInt, if_pos (by omega)]
  have hlength : (Int64.ofInt docs.length).toInt = docs.length :=
    Int64.toInt_ofInt_of_le (by omega) (by omega)
  rw [QueryResponse.count, aggregations_answer, hvalue]
  dsimp only
  rw [hlength, if_pos (Int.natCast_nonneg _), Int.toNat_natCast]

/-- **The answer is read as a count.** -/
theorem exists_count (docs : List Document) : ∃ n, (answer (.count filter) docs).count = .ok n := by
  by_cases h : docs.length < 2 ^ 63
  · exact ⟨_, count_answer h⟩
  · have hvalue : Value.ofInt docs.length = .float (Binary.ofInt docs.length) := by
      rw [Value.ofInt, if_neg (by omega)]
    rw [QueryResponse.count, aggregations_answer, hvalue]
    dsimp only
    rw [if_pos (Binary.zero_numLe_ofInt _)]
    exact ⟨_, rfl⟩

/-- **The total in an answer is the number of documents that match.** -/
theorem count_eq_matching {counted : QueryResponse} (h : s.query ns (.count filter) = .ok counted)
    (hsize : s.size ns < 2 ^ 63) {total : Nat} (htotal : counted.count = .ok total) :
    total = s.matching ns filter := by
  obtain ⟨rows, p, hrows, hp, rfl⟩ := query_count_iff.mp h
  have hns : s.rows ns = rows := by rw [Store.rows, hrows, Option.getD_some]
  have hlength : (rows.select p).length < 2 ^ 63 := by
    refine Nat.lt_of_le_of_lt (Rows.length_select_le rows p) ?_
    rwa [size, hns] at hsize
  rw [count_answer hlength] at htotal
  rw [matching, hp, hns]
  exact (Except.ok.inj htotal).symm

end Store

end DocQuery
