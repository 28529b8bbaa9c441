import DocQuery.Proofs.Discovery.Batch
import DocQuery.Proofs.Json.Decode

/-!
# Discovery with any sort

The distinct values of an attribute are sorted before they are listed. Numbers of both types may
stand in no order there: beyond `2 ^ 53` a floating-point number ties with several integers. What a
sort makes of such values is not promised, and it may stop without an answer. Whatever it does, the
reports are those of `discover`, but for the order of the values that are listed; and where the
comparison is transitive on the values of each attribute, it returns and the order is the same too.

* `Tally.summaryBy`, `DocQuery.discoverBy` – discovery with a given sort, which may stop;
  `discoverBy_standard` – with the sort that always returns it is `discover`;
* `forall₂_resorted_of_discoverBy` – what is reported is the same but for the order of the values;
  `discoverBy_eq_some` – **when discovery is sure to return**;
* `discover_perm` – the order of the documents does not matter, whatever the sort is;
* `discover_profiles` – **the profiles equal their definition on the whole sample**;
  `discover_misorders` – values that are listed out of order.
-/

namespace DocQuery

/-! ### Discovery with a given sort -/

/-- Sums up what was seen. Distinct values that are listed are sorted by a given sort. -/
def Tally.summaryBy (sorter : Sorter) (t : Tally) (name : String) (total : Nat)
    (options : DiscoveryOptions) : Option Attribute :=
  let report := t.summary name total options
  if report.uniqueValues.isSome then
    (sorter.sort Value.totalLe (t.distinct.map Prod.snd)).map fun us =>
      { report with uniqueValues := some us }
  else some report

/-- **The profiles of all attributes**, with a given sort of distinct values. -/
def discoverBy (sorter : Sorter) (docs : List Document) (options : DiscoveryOptions) :
    Option (List Attribute) :=
  let tallies := docs.foldl (tallyDocument options.detectPatterns) []
  (tallies.mapM fun e : String × Tally => e.2.summaryBy sorter e.1 docs.length options).map
    fun reports => reports.mergeSort fun a b => b.frequency ≤ a.frequency

namespace Attribute

/-- The comparison is transitive on the values that are listed. -/
def Sortable (a : Attribute) : Prop := ∀ us ∈ a.uniqueValues, TransOn Value.totalLe us

/-- The two reports are the same but for the order of the values that are listed, and that is the
same too if it is certain. -/
structure Resorted (a b : Attribute) : Prop where
  eq : b = { a with uniqueValues := b.uniqueValues }
  uniqueValues : Option.Rel List.Perm a.uniqueValues b.uniqueValues
  eq_of_sortable : a.Sortable → b = a

theorem Resorted.refl (a : Attribute) : a.Resorted a where
  eq := rfl
  uniqueValues := by
    cases a.uniqueValues with
    | none => exact .none
    | some us => exact .some (.refl us)
  eq_of_sortable _ := rfl

end Attribute

namespace Tally

variable {sorter : Sorter} {t : Tally} {name : String} {total : Nat} {options : DiscoveryOptions}

/-- The values that are listed are the sorted distinct ones. -/
theorem uniqueValues_of_isSome (h : (t.summary name total options).uniqueValues.isSome = true) :
    (t.summary name total options).uniqueValues =
      some (Value.sort (t.distinct.map Prod.snd)) := by
  simp only [summary] at h ⊢
  split
  case isTrue => rfl
  case isFalse other =>
    rw [if_neg other] at h
    cases h

/-- With the sort that always returns nothing is different. -/
theorem summaryBy_standard :
    t.summaryBy .standard name total options = some (t.summary name total options) := by
  rw [summaryBy]
  split
  case isFalse => rfl
  case isTrue listed =>
    have same : { t.summary name total options with
        uniqueValues := some (Value.sort (t.distinct.map Prod.snd)) } =
          t.summary name total options := by
      rw [← uniqueValues_of_isSome listed]
    exact congrArg some same

/-- **A sort that has to sort the values that are listed returns**, and the report is the same. -/
theorem summaryBy_eq (sorter : Sorter) (h : (t.summary name total options).Sortable) :
    t.summaryBy sorter name total options = some (t.summary name total options) := by
  rw [summaryBy]
  split
  case isFalse => rfl
  case isTrue listed =>
    have values := uniqueValues_of_isSome listed
    have trans : TransOn Value.totalLe (t.distinct.map Prod.snd) :=
      (h _ values).of_subset (perm_stableSort _).symm.subset
    have same : { t.summary name total options with
        uniqueValues := some (stableSort Value.totalLe (t.distinct.map Prod.snd)) } =
          t.summary name total options := by
      rw [← Value.sort, ← values]
    rw [sorter.sort_eq trans Value.totalLe_total, Option.map_some, same]

/-- Whatever the sort does, it changes only the order of the values that are listed. -/
theorem resorted_of_summaryBy {b : Attribute}
    (h : t.summaryBy sorter name total options = some b) :
    (t.summary name total options).Resorted b := by
  have certain (sortable : (t.summary name total options).Sortable) :
      b = t.summary name total options :=
    Option.some.inj (h.symm.trans (summaryBy_eq sorter sortable))
  rw [summaryBy] at h
  split at h
  case isFalse =>
    obtain rfl := Option.some.inj h
    exact .refl _
  case isTrue listed =>
    obtain ⟨us, sorted, rfl⟩ := Option.map_eq_some_iff.mp h
    refine ⟨rfl, ?_, certain⟩
    rw [uniqueValues_of_isSome listed]
    exact .some ((perm_stableSort _).trans (sorter.perm sorted).symm)

end Tally

section Discovery

variable {sorter : Sorter} {docs : List Document} {options : DiscoveryOptions}

theorem discoverBy_standard (docs : List Document) (options : DiscoveryOptions) :
    discoverBy .standard docs options = some (discover docs options) := by
  have reports (tallies : Record Tally) :
      (tallies.mapM fun e => e.2.summaryBy .standard e.1 docs.length options) =
        some (tallies.map fun e => e.2.summary e.1 docs.length options) := by
    rw [Json.mapM_eq_some_iff, List.forall₂_map_right_iff]
    exact List.forall₂_same.mpr fun e _ => Tally.summaryBy_standard
  rw [discoverBy, discover]
  rw [reports, Option.map_some]

/-- **Where the comparison is transitive on the values of each attribute, discovery returns**, and
what it returns does not depend on the sort. -/
theorem discoverBy_eq_some (sorter : Sorter) (h : ∀ a ∈ discover docs options, a.Sortable) :
    discoverBy sorter docs options = some (discover docs options) := by
  rw [discover] at h
  rw [discoverBy, discover]
  generalize docs.foldl (tallyDocument options.detectPatterns) [] = tallies at h ⊢
  have reports : (tallies.mapM fun e => e.2.summaryBy sorter e.1 docs.length options) =
      some (tallies.map fun e => e.2.summary e.1 docs.length options) := by
    rw [Json.mapM_eq_some_iff, List.forall₂_map_right_iff]
    refine List.forall₂_same.mpr fun e he => Tally.summaryBy_eq sorter (h _ ?_)
    exact List.mem_mergeSort.mpr (List.mem_map_of_mem he)
  rw [reports, Option.map_some]

/-- **Whatever the sort is**, the reports differ only in the order of the values that are listed. -/
theorem forall₂_resorted_of_discoverBy {as : List Attribute}
    (h : discoverBy sorter docs options = some as) :
    List.Forall₂ Attribute.Resorted (discover docs options) as := by
  rw [discoverBy] at h
  obtain ⟨reports, summed, rfl⟩ := Option.map_eq_some_iff.mp h
  rw [discover]
  refine forall₂_mergeSort (List.forall₂_map_left_iff.mpr
    ((Json.mapM_eq_some_iff.mp summed).imp fun e b same => ?_)) fun a b same a' b' same' => ?_
  · exact Tally.resorted_of_summaryBy same
  · rw [same.eq, same'.eq]

end Discovery

/-! ### The order of the documents -/

section Permuted

variable {us vs ws : Option (List Value)}

theorem permuted_symm (h : Option.Rel List.Perm us vs) : Option.Rel List.Perm vs us := by
  cases h with
  | none => exact .none
  | some h => exact .some h.symm

theorem permuted_trans (h : Option.Rel List.Perm us vs) (h' : Option.Rel List.Perm vs ws) :
    Option.Rel List.Perm us ws := by
  cases h with
  | none => exact h'
  | some h =>
    cases h' with
    | some h' => exact .some (h.trans h')

/-- What is listed by the one is listed by the other. -/
theorem exists_permuted (h : Option.Rel List.Perm us vs) {ys : List Value} (hys : ys ∈ vs) :
    ∃ xs ∈ us, xs.Perm ys := by
  cases h with
  | none => cases hys
  | some h =>
    cases hys
    exact ⟨_, rfl, h⟩

end Permuted

section Lists

variable {α β : Type} {R : α → β → Prop} {as : List α} {bs : List β}

theorem exists_left_of_forall₂ (h : List.Forall₂ R as bs) {b : β} (hb : b ∈ bs) :
    ∃ a ∈ as, R a b := by
  induction h with
  | nil => cases hb
  | @cons a c _ _ head _ ih =>
    rcases List.mem_cons.mp hb with rfl | hb
    · exact ⟨a, List.mem_cons_self, head⟩
    · obtain ⟨d, hd, found⟩ := ih hb
      exact ⟨d, List.mem_cons_of_mem a hd, found⟩

end Lists

namespace Attribute

variable {a a' b b' : Attribute}

theorem SameProfile.of_resorted (h : a.SameProfile a') (hb : a.Resorted b)
    (hb' : a'.Resorted b') : b.SameProfile b' := by
  have listed : Option.Rel List.Perm b.uniqueValues b'.uniqueValues :=
    permuted_trans (permuted_symm hb.uniqueValues) (permuted_trans h.uniqueValues hb'.uniqueValues)
  rw [hb.eq, hb'.eq]
  exact ⟨h.name, h.type, h.element, h.frequency, h.totalDocuments, h.isNullable, h.patterns,
    listed, h.sampleValues⟩

/-- The same values are listed, so that both are sure to be sorted or neither. -/
theorem SameProfile.sortable (h : a.SameProfile a') (sortable : a.Sortable) : a'.Sortable := by
  intro us' listed'
  obtain ⟨us, listed, perm⟩ := exists_permuted h.uniqueValues listed'
  exact (sortable us listed).of_subset perm.symm.subset

end Attribute

/-- A report tells of the values of its attribute in whatever order they are listed. -/
theorem Attribute.Profiles.of_resorted {a b : Attribute} {options : DiscoveryOptions} {total : Nat}
    {vs : List Value} (h : a.Profiles options total vs) (hb : a.Resorted b) :
    b.Profiles options total vs := by
  have sorted (us : List Value) (listed : us ∈ b.uniqueValues) :
      us.Perm (Value.distinctLeaves vs) ∧
        (TransOn Value.totalLe (Value.distinctLeaves vs) →
          us = Value.sort (Value.distinctLeaves vs) ∧
            us.Pairwise fun v w => Value.totalLe v w = true) := by
    obtain ⟨own, listedOwn, perm⟩ := exists_permuted hb.uniqueValues listed
    have all := (h.sorted own listedOwn).1
    refine ⟨perm.symm.trans all, fun trans => (h.sorted us ?_).2 trans⟩
    rw [← hb.eq_of_sortable fun ws listedToo =>
      trans.of_subset (h.sorted ws listedToo).1.subset]
    exact listed
  have isSome : b.uniqueValues.isSome = a.uniqueValues.isSome := by
    have both := hb.uniqueValues
    generalize a.uniqueValues = us at both
    generalize b.uniqueValues = us' at both
    cases both <;> rfl
  have counted := h.uniqueValues
  rw [← isSome] at counted
  rw [hb.eq]
  exact { h with uniqueValues := counted, sorted := sorted }

/-- **The discovered profiles equal their definition on the whole sample**, whatever the distinct
values are sorted by. Each attribute that some document has is reported once, the most frequent ones
first and those that are as frequent by their names; and each report tells of the values that the
attribute has in the sample. Discovery is sure to return if the comparison is transitive on the
values that are listed. -/
theorem discover_profiles (sorter : Sorter) {docs : List Document}
    (decoded : ∀ d ∈ docs, d.Decoded) (options : DiscoveryOptions) :
    ((∀ a ∈ discover docs options, a.Sortable) →
      discoverBy sorter docs options = some (discover docs options)) ∧
    ∀ as, discoverBy sorter docs options = some as →
      (∀ name, name ∈ as.map Attribute.name ↔ ∃ d ∈ docs, name ∈ d.bag.map Prod.fst) ∧
      (as.map Attribute.name).Nodup ∧ as.Pairwise Attribute.Before ∧
      ∀ a ∈ as, a.Profiles options docs.length (valuesOf a.name docs) := by
  refine ⟨discoverBy_eq_some sorter, fun as found => ?_⟩
  have resorted := forall₂_resorted_of_discoverBy found
  -- names and frequencies are those that are reported without the sort
  have ranks : as.map (fun a => (a.frequency, a.name)) =
      (discover docs options).map fun a => (a.frequency, a.name) := by
    rw [← List.forall₂_eq_eq_eq, List.forall₂_map_left_iff, List.forall₂_map_right_iff]
    refine resorted.flip.imp fun b a same => ?_
    rw [same.eq]
  have names : as.map Attribute.name = (discover docs options).map Attribute.name := by
    have second := congrArg (List.map Prod.snd) ranks
    rwa [List.map_map, List.map_map] at second
  refine ⟨fun name => names ▸ mem_names_discover_iff decoded options name,
    names ▸ discover_nodup docs options, ?_, fun b hb => ?_⟩
  · have ranked (bs : List Attribute) : bs.Pairwise Attribute.Before ↔
        (bs.map fun a => (a.frequency, a.name)).Pairwise fun p q =>
          q.1 < p.1 ∨ (q.1 = p.1 ∧ p.2 < q.2) := by
      rw [List.pairwise_map]
      rfl
    rw [ranked, ranks, ← ranked]
    exact pairwise_discover docs options
  · obtain ⟨a, ha, same⟩ := exists_left_of_forall₂ resorted hb
    have name : b.name = a.name := by rw [same.eq]
    rw [name]
    exact (profiles_of_mem_discover decoded ha).of_resorted same

/-- Documents with nulls, nested arrays and values of several types. -/
def medley : List Json :=
  [.object [("id", .int 1), ("n", .int 1),
      ("tags", .array [.string "b", .array [.string "a", .null]])],
    .object [("id", .int 2), ("attributes", .object [("n", .string "x"), ("tags", .null)])],
    .object [("id", .int 3), ("tags", .array [.array [], .string "a", .string "b", .string "c"])]]

theorem discover_profiles_medley : ∃ docs, medley.mapM Document.ofJson? = some docs ∧
    (∀ d ∈ docs, d.Decoded) ∧ (discover docs .default).Pairwise Attribute.Before ∧
    ∃ a ∈ discover docs .default, a.name = "tags" ∧ a.frequency = 3 ∧ a.totalDocuments = 3 ∧
      a.isNullable = true ∧ a.type = .array ∧ a.element = some .string ∧
      a.sampleValues = [.string "b", .string "a", .string "c"] ∧ a.range = none := by
  obtain ⟨docs, read⟩ : ∃ docs, medley.mapM Document.ofJson? = some docs := ⟨_, rfl⟩
  have decoded := Document.decoded_of_mapM read (by decide)
  have size : (medley.mapM Document.ofJson?).map List.length = some 3 := rfl
  have values : (medley.mapM Document.ofJson?).map (valuesOf "tags") =
      some [.array [.string "b", .array [.string "a", .null]], .null,
        .array [.array [], .string "a", .string "b", .string "c"]] := rfl
  rw [read, Option.map_some, Option.some.injEq] at size values
  obtain ⟨names, -, order, reports⟩ := (discover_profiles .standard decoded .default).2 _
    (discoverBy_standard _ _)
  obtain ⟨a, ha, name⟩ : ∃ a ∈ discover docs .default, a.name = "tags" := by
    have present : Value.null ∈ valuesOf "tags" docs := by simp [values]
    obtain ⟨d, hd, hv⟩ := List.mem_filterMap.mp present
    exact List.mem_map.mp ((names "tags").mpr ⟨d, hd, Record.mem_names_iff.mpr ⟨_, hv⟩⟩)
  have profile := reports a ha
  rw [name, values, size] at profile
  have type : a.type = .array := by
    refine (profile.type ⟨.array _, List.mem_cons_self, nofun⟩).unique ?_
    simp [AttributeType.ofValue?]
  have element : a.element = some .string := by
    refine (profile.element .string).mpr ⟨type, ?_⟩
    simp [Value.leavesOf, Value.leaves, ElementType.ofValue?]
  refine ⟨docs, read, decoded, order, a, ha, name, profile.frequency, profile.totalDocuments,
    profile.isNullable.mpr (.inl (by simp)), type, element, profile.sampleValues.trans rfl, ?_⟩
  simpa [type, element] using mt profile.hasRange.mp

/-- Two integers and the floating-point number that both are rounded to. -/
def tiedValues : List Value :=
  [.int 9007199254740993, .float (Binary.ofInt 9007199254740992), .int 9007199254740992]

/-- The three values are told apart by their keys. -/
theorem distinctLeaves_tiedValues : Value.distinctLeaves tiedValues = tiedValues := by
  have apart : tiedValues.Pairwise fun v w => Tally.sameKey w v = false := by decide +kernel
  have leaves : (Value.leavesOf tiedValues).filter (fun v => !v.isNull) = tiedValues := rfl
  rw [Value.distinctLeaves, Tally.distinctOf, leaves]
  rw [tiedValues] at apart ⊢
  simp_all [List.eraseDupsBy_cons]

/-- Each ties with the one before it, so that none is moved. -/
theorem sort_tiedValues : Value.sort tiedValues = tiedValues := by
  have first : Value.totalLe (.int 9007199254740993)
    (.float (Binary.ofInt 9007199254740992)) = true := by decide +kernel
  have second : Value.totalLe (.float (Binary.ofInt 9007199254740992))
    (.int 9007199254740992) = true := by decide +kernel
  simp [Value.sort, stableSort, insertionLimit, insertionSort, place, tiedValues, first, second]

/-- One document for each of them. -/
def tied : List Json :=
  [.object [("id", .int 1), ("n", .int 9007199254740993)],
    .object [("id", .int 2), ("n", .float (Binary.ofInt 9007199254740992))],
    .object [("id", .int 3), ("n", .int 9007199254740992)]]

/-- **The values are listed in the order in which they stand**, the greatest one first. -/
theorem discover_misorders : ∃ docs, tied.mapM Document.ofJson? = some docs ∧
    (∀ d ∈ docs, d.Decoded) ∧
    (∃ a ∈ discover docs .default, a.name = "n" ∧ a.uniqueValues = some tiedValues) ∧
    ¬ tiedValues.Pairwise fun v w => Value.totalLe v w = true := by
  obtain ⟨docs, read⟩ : ∃ docs, tied.mapM Document.ofJson? = some docs := ⟨_, rfl⟩
  have decoded := Document.decoded_of_mapM read (by decide +kernel)
  have values : (tied.mapM Document.ofJson?).map (valuesOf "n") = some tiedValues := rfl
  rw [read, Option.map_some, Option.some.injEq] at values
  have first : .int 9007199254740993 ∈ tiedValues := List.mem_cons_self
  obtain ⟨a, ha, name⟩ : ∃ a ∈ discover docs .default, a.name = "n" := by
    obtain ⟨d, hd, hv⟩ := List.mem_filterMap.mp (values.symm ▸ first)
    exact List.mem_map.mp ((mem_names_discover_iff decoded .default "n").mpr
      ⟨d, hd, Record.mem_names_iff.mpr ⟨_, hv⟩⟩)
  have profile := profiles_of_mem_discover decoded ha
  have listed := uniqueValues_of_mem_discover decoded ha
  rw [name, values] at profile listed
  have type : a.type = .number := by
    refine (profile.type ⟨_, first, by simp⟩).unique ?_
    simp [tiedValues, AttributeType.ofValue?]
  refine ⟨docs, read, decoded, ⟨a, ha, name, ?_⟩, by decide +kernel⟩
  rw [listed, type, distinctLeaves_tiedValues, sort_tiedValues]
  exact if_pos ⟨by decide, by decide⟩

end DocQuery
