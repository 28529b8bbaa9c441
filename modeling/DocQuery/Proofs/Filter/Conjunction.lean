import DocQuery.Filter.Active
import DocQuery.Proofs.Store.Ranking
import DocQuery.Proofs.Text

/-!
# Filters as conjunctions

Before a filter is applied its patterns are read, and it selects nothing where one of them is
ill-formed. Conditions are joined in several ways: a lone one stays as it is, several are put under
one conjunction, and what comes later is added inside of a conjunction or around anything else. All
of these mean the same.

* `Filter.Readable`, `Filter.Selects` – whether the patterns of a filter can be read, and whether it
  then holds of a document;
* `Filter.Conjunctive` – the properties that a conjunction has exactly if all of its parts have
  them, which both of these are. They cannot tell in which way conditions were joined
  (`Conjunctive.andWith`, `Conjunctive.all`, `Conjunctive.compile`);
* `compile_selects_iff` – **active filters, search text and cursor are one conjunction**, so that
  the order of the filters does not matter.
-/

namespace DocQuery

namespace Filter

variable {x y : Filter} {xs : List Filter} {d : Document}

/-- All patterns of the filter can be read. -/
def Readable (x : Filter) : Prop := ∃ p, Predicate.ofFilter x = .ok p

/-- The filter can be read and holds of the document. -/
def Selects (x : Filter) (d : Document) : Prop := ∃ p, Predicate.ofFilter x = .ok p ∧ p.test d

theorem Selects.readable (h : x.Selects d) : x.Readable := h.imp fun _ => And.left

theorem selects_iff_test {p : Predicate} (h : Predicate.ofFilter x = .ok p) :
    x.Selects d ↔ p.test d :=
  ⟨fun ⟨_, hq, holds⟩ => Except.ok.inj (h.symm.trans hq) ▸ holds, fun holds => ⟨p, h, holds⟩⟩

/-! ### Conjunctive properties -/

/-- A conjunction has the property exactly if all of its parts have it. -/
def Conjunctive (P : Filter → Prop) : Prop := ∀ xs, P (.and xs) ↔ ∀ x ∈ xs, P x

theorem exists_ofFilters_iff :
    (∃ ps, Predicate.ofFilters xs = .ok ps) ↔ ∀ x ∈ xs, x.Readable := by
  induction xs with
  | nil => simp [Predicate.ofFilters]
  | cons x xs ih =>
    rw [List.forall_mem_cons, ← ih]
    simp only [Predicate.ofFilters_cons_iff]
    constructor
    · rintro ⟨_, p, ps, hx, hxs, rfl⟩
      exact ⟨⟨p, hx⟩, ps, hxs⟩
    · rintro ⟨⟨p, hx⟩, ps, hxs⟩
      exact ⟨_, p, ps, hx, hxs, rfl⟩

theorem testAll_iff {ps : List Predicate} (h : Predicate.ofFilters xs = .ok ps) :
    Predicate.testAll ps d ↔ ∀ x ∈ xs, x.Selects d := by
  induction xs generalizing ps with
  | nil =>
    cases h
    simp [Predicate.testAll]
  | cons x xs ih =>
    obtain ⟨p, ps, hx, hxs, rfl⟩ := Predicate.ofFilters_cons_iff.mp h
    rw [Predicate.testAll, Bool.and_eq_true, List.forall_mem_cons, selects_iff_test hx, ih hxs]

theorem ofFilter_and {ps : List Predicate} (h : Predicate.ofFilters xs = .ok ps) :
    Predicate.ofFilter (.and xs) = .ok (.all ps) := by
  rw [Predicate.ofFilter, h]
  rfl

theorem conjunctive_readable : Conjunctive Readable := by
  intro xs
  rw [← exists_ofFilters_iff]
  constructor
  · rintro ⟨p, h⟩
    cases hxs : Predicate.ofFilters xs with
    | error flaw =>
      rw [Predicate.ofFilter, hxs] at h
      cases h
    | ok ps => exact ⟨ps, rfl⟩
  · rintro ⟨ps, hxs⟩
    exact ⟨_, ofFilter_and hxs⟩

theorem conjunctive_selects (d : Document) : Conjunctive (Selects · d) := by
  intro xs
  show (Filter.and xs).Selects d ↔ _
  by_cases readable : ∃ ps, Predicate.ofFilters xs = .ok ps
  · obtain ⟨ps, hxs⟩ := readable
    rw [← testAll_iff hxs, selects_iff_test (ofFilter_and hxs), Predicate.test]
  · -- where a part cannot be read, neither side holds
    have unread := exists_ofFilters_iff.not.mp readable
    refine iff_of_false (fun h => unread ((conjunctive_readable xs).mp h.readable)) fun h => ?_
    exact unread fun x member => (h x member).readable

section Joining

variable {P : Filter → Prop} (conj : Conjunctive P)
include conj

/-- A conjunct is added whatever the form of the filter. -/
theorem Conjunctive.andWith : P (x.andWith y) ↔ P x ∧ P y := by
  have pair (x : Filter) : P (.and [x, y]) ↔ P x ∧ P y := by simp [conj [x, y]]
  cases x with
  | and xs => simp [Filter.andWith, conj _, or_imp, forall_and]
  | or xs => exact pair _
  | not x => exact pair _
  | condition name op value => exact pair _

/-- A list is joined whatever its length. -/
theorem Conjunctive.all : (∀ x ∈ Filter.all xs, P x) ↔ ∀ x ∈ xs, P x := by
  match xs with
  | [] => simp [Filter.all]
  | [x] => simp [Filter.all]
  | x :: y :: xs => simp [Filter.all, conj (x :: y :: xs)]

end Joining

/-- Keeps what comes after a cursor, if there is one. -/
def withCursor? (filter : Option Filter) (bound : Option (Value × Direction)) : Option Filter :=
  match bound with
  | none => filter
  | some (cursor, direction) => some (withCursor filter cursor direction)

theorem Conjunctive.withCursor? {P : Filter → Prop} (conj : Conjunctive P)
    {filter : Option Filter} {bound : Option (Value × Direction)} :
    (∀ x ∈ withCursor? filter bound, P x) ↔
      (∀ x ∈ filter, P x) ∧ ∀ b ∈ bound, P (.condition "id" b.2.after b.1) := by
  cases bound with
  | none => simp [Filter.withCursor?]
  | some b =>
    cases filter with
    | none => simp [Filter.withCursor?, withCursor]
    | some x => simp [Filter.withCursor?, withCursor, conj.andWith]

theorem selects_bound_iff {cursor : Value} {dir : Direction} :
    (condition "id" dir.after cursor).Selects d ↔
      d.id.compare? cursor = some (dir.orient .gt) := by
  have read : Predicate.ofFilter (.condition "id" dir.after cursor) =
      .ok (.leaf "id" dir.after cursor none) := by
    cases dir <;> rfl
  rw [selects_iff_test read, ← Predicate.holds_after_iff]
  rfl

end Filter

/-! ### Active filters -/

/-- The filter is made of the search text and of every active filter. -/
theorem Filter.Conjunctive.compile {P : Filter → Prop} (conj : Conjunctive P)
    {filters : List ActiveFilter} {search : String} {types : Record FieldType} :
    (∀ x ∈ DocQuery.compile filters search types, P x) ↔
      (∀ x ∈ searchFilter search, P x) ∧
        ∀ f ∈ filters, P (f.compile (types.get? f.name)) := by
  rw [DocQuery.compile, conj.all]
  simp [or_imp, forall_and]

theorem compile_eq_none_iff {filters : List ActiveFilter} {search : String}
    {types : Record FieldType} :
    compile filters search types = none ↔ filters = [] ∧ ∀ c ∈ search.toList, isSpace c := by
  have none_iff (xs : List Filter) : Filter.all xs = none ↔ xs = [] := by
    match xs with
    | [] => simp [Filter.all]
    | [x] => simp [Filter.all]
    | x :: y :: xs => simp [Filter.all]
  rw [compile, none_iff, List.append_eq_nil_iff, List.map_eq_nil_iff, and_comm,
    ← trimString_isEmpty_iff, searchFilter]
  simp

namespace Store

variable {filter : Option Filter} {p : Option Predicate}

theorem exists_predicate?_iff : (∃ p, predicate? filter = .ok p) ↔ ∀ x ∈ filter, x.Readable := by
  cases filter with
  | none => simp [predicate?]
  | some x =>
    cases hx : Predicate.ofFilter x <;> simp [predicate?, Filter.Readable, hx, Except.map]

theorem all_test_iff (h : predicate? filter = .ok p) {d : Document} :
    (p.all fun p => p.test d) ↔ ∀ x ∈ filter, x.Selects d := by
  cases filter with
  | none =>
    cases h
    simp
  | some x =>
    cases hx : Predicate.ofFilter x with
    | error flaw => simp [predicate?, hx, Except.map] at h
    | ok q =>
      obtain rfl : some q = p := by simpa [predicate?, hx, Except.map] using h
      simp [Filter.selects_iff_test hx]

end Store

/-- **Active filters, search text and cursor are one conjunction.** Nothing is asked for exactly if
there are no filters and the search text is blank. A document matches what is asked for exactly if
its id matches the search text, every active filter by itself selects it, and its id stands behind
the cursor. So the filters can be listed in any order: if one listing can be read so can another,
and the same documents are selected. -/
theorem compile_selects_iff (filters : List ActiveFilter) (search : String)
    (types : Record FieldType) (bound : Option (Value × Direction)) :
    (compile filters search types = none ↔ filters = [] ∧ ∀ c ∈ search.toList, isSpace c) ∧
    ∀ p, Store.predicate? (Filter.withCursor? (compile filters search types) bound) = .ok p →
      (∀ d : Document, (p.all fun p => p.test d) ↔
        ((∀ c ∈ search.toList, isSpace c) ∨
          (Filter.condition "id" .glob (.string ("*" ++ trimString search ++ "*"))).Selects d) ∧
        (∀ f ∈ filters, ∃ x, compile [f] "" types = some x ∧ x.Selects d) ∧
        ∀ b ∈ bound, d.id.compare? b.1 = some (b.2.orient .gt)) ∧
      ∀ listed, filters.Perm listed →
        ∃ q, Store.predicate? (Filter.withCursor? (compile listed search types) bound) = .ok q ∧
          ∀ rows : Rows, rows.select q = rows.select p := by
  refine ⟨compile_eq_none_iff, fun p read => ⟨fun d => ?_, fun listed same => ?_⟩⟩
  · have found : (∀ x ∈ searchFilter search, x.Selects d) ↔
        (∀ c ∈ search.toList, isSpace c) ∨
          (Filter.condition "id" .glob (.string ("*" ++ trimString search ++ "*"))).Selects d := by
      rw [← trimString_isEmpty_iff, searchFilter]
      split_ifs with blank <;> simp [blank]
    have alone (f : ActiveFilter) : (∃ x, compile [f] "" types = some x ∧ x.Selects d) ↔
        (f.compile (types.get? f.name)).Selects d := by
      have lone : compile [f] "" types = some (f.compile (types.get? f.name)) := rfl
      simp [lone]
    have conj := Filter.conjunctive_selects d
    rw [Store.all_test_iff read, conj.withCursor?, conj.compile, found, and_assoc]
    simp only [alone, Filter.selects_bound_iff]
  · -- in a conjunction it is only asked whether a filter is on the list
    have regroup {P : Filter → Prop} (conj : Filter.Conjunctive P) :
        (∀ x ∈ Filter.withCursor? (compile listed search types) bound, P x) ↔
          ∀ x ∈ Filter.withCursor? (compile filters search types) bound, P x := by
      simp only [conj.withCursor?, conj.compile, same.mem_iff]
    obtain ⟨q, readListed⟩ := Store.exists_predicate?_iff.mpr
      ((regroup Filter.conjunctive_readable).mpr (Store.exists_predicate?_iff.mp ⟨p, read⟩))
    refine ⟨q, readListed, fun rows => List.filter_congr fun d _ => Bool.eq_iff_iff.mpr ?_⟩
    rw [Store.all_test_iff readListed, Store.all_test_iff read]
    exact regroup (Filter.conjunctive_selects d)

/-- Two filters, of which one is a negation and the other a choice. -/
def mixedFilters : List ActiveFilter :=
  [.make 1 "tags" .notEquals (.string "x") "x",
    .make 2 "name" .contains (.array [.string "a", .string "b"]) "a, b"]

/-- With a search text and a cursor they select a document, in either order. -/
theorem compile_selects_iff_mixed :
    ∃ p q, Store.predicate? (Filter.withCursor?
        (compile mixedFilters " k " [("tags", .array .string)]) (some (.string "z", .desc))) = .ok p ∧
      Store.predicate? (Filter.withCursor?
        (compile mixedFilters.reverse " k " [("tags", .array .string)])
          (some (.string "z", .desc))) = .ok q ∧
      (∀ rows : Rows, rows.select q = rows.select p) ∧
      p.all fun p => p.test
        ⟨.string "k1", none, none, none, [("name", .string "bc"), ("tags", .array [.string "y"])]⟩ := by
  obtain ⟨p, read⟩ : ∃ p, Store.predicate? (Filter.withCursor?
      (compile mixedFilters " k " [("tags", .array .string)]) (some (.string "z", .desc))) = .ok p :=
    ⟨_, rfl⟩
  obtain ⟨-, meaning⟩ := compile_selects_iff mixedFilters " k " [("tags", .array .string)]
    (some (.string "z", .desc))
  obtain ⟨parts, regroup⟩ := meaning p read
  obtain ⟨q, readReversed, same⟩ := regroup _ (List.reverse_perm _).symm
  refine ⟨p, q, read, readReversed, same, (parts _).mpr ⟨.inr ⟨_, rfl, by decide⟩, ?_, ?_⟩⟩
  · simp only [mixedFilters, List.forall_mem_cons]
    exact ⟨⟨_, rfl, _, rfl, by decide⟩, ⟨_, rfl, _, rfl, by decide⟩, nofun⟩
  · rintro _ ⟨rfl⟩
    decide

end DocQuery
