import DocQuery.Proofs.Discovery.Joined
import DocQuery.Proofs.Numeric.Range
import DocQuery.Proofs.Sorting
import Mathlib

/-!
# Profiles from the whole sample at once

Attributes are profiled in one pass over the sample, which keeps a tally of each. What the tallies
report in the end is said here of the sample as a whole: of the values that an attribute has in it,
and of their leaves.

* `Tally.isLUB_type`, `Tally.element_eq_some_iff` – the types of a tally are the least ones above
  all that was seen;
* `Attribute.Profiles` – what a report says of the values of its attribute, and
  `Tally.summary_profiles`, that a tally is summed up to such a report;
* `mem_names_discover_iff`, `pairwise_discover`, `profiles_of_mem_discover` – **every attribute is
  reported once, in order, by its values in the sample**.
-/

namespace DocQuery

namespace Value

/-- Data has no not-a-number. -/
theorem isNaN_of_isData {v : Value} (h : v.isData = true) {x : Double}
    (hx : v.asDouble? = some x) : x.isNaN = false := by
  cases v with
  | int i =>
    cases hx
    exact Binary.isNaN_of_isFinite (Binary.isFinite_ofInt i)
  | float y =>
    cases hx
    exact Binary.isNaN_of_isFinite h
  | _ => cases hx

theorem leavesOf_eq_flatMap (vs : List Value) : leavesOf vs = vs.flatMap leaves := by
  induction vs with
  | nil => rfl
  | cons v vs ih => rw [leavesOf, ih, List.flatMap_cons]

end Value

namespace Tally

/-! ### Tallies of many values -/

variable {detect : Bool} {vs : List Value}

theorem present_foldl_observe : (vs.foldl (observe detect) .empty).present = vs.length := by
  rw [foldl_observe_sum present (fun _ => 1) (observe_present detect)]
  simp [Tally.empty]

theorem nulls_foldl_observe_pos :
    0 < (vs.foldl (observe detect) .empty).nulls ↔ .null ∈ vs := by
  have counted (v : Value) : v.isNull.toNat = 0 ↔ v ≠ .null := by
    cases v <;> simp [Value.isNull]
  rw [foldl_observe_sum nulls _ (observe_nulls detect), Nat.pos_iff_ne_zero]
  simp [Tally.empty, counted, List.sum_eq_zero_iff]

theorem type_foldl_observe : (vs.foldl (observe detect) .empty).type =
    (vs.map AttributeType.ofValue?).foldl (refine AttributeType.join) none := by
  rw [List.foldl_map]
  exact (List.foldl_hom Tally.type fun t v => (observe_type detect t v).symm).symm

theorem element_foldl_observe (t : Tally) : (vs.foldl (observe detect) t).element =
    ((vs.flatMap elements).map ElementType.ofValue?).foldl (refine ElementType.join) t.element := by
  induction vs generalizing t with
  | nil => rfl
  | cons v vs ih =>
    rw [List.foldl_cons, ih, observe_element, List.flatMap_cons, List.map_append,
      List.foldl_append]

theorem distinct_foldl_observe : ((vs.foldl (observe detect) .empty).distinct.map Prod.snd) =
    distinctOf (Value.leavesOf vs) := by
  rw [foldl_observe_distinct, ← Value.leavesOf_eq_flatMap, foldl_note_eq]
  simp [Tally.empty, Function.comp_def]

theorem range_foldl_observe : (vs.foldl (observe detect) .empty).range =
    ((Value.leavesOf vs).filterMap Value.asDouble?).foldl NumericRange.note none := by
  rw [List.foldl_filterMap, Value.leavesOf_eq_flatMap]
  exact foldl_observe_leaves (observe_leaves Tally.range _ (fun _ _ _ same => same)
    (fun t v => by cases v <;> rfl) detect) vs .empty

end Tally

/-! ### Reports -/

/-- The leaves of some values but nulls, of those with the same key the first one. -/
def Value.distinctLeaves (vs : List Value) : List Value := Tally.distinctOf (leavesOf vs)

/-- A report of an attribute tells of the values that it has in a sample of `total` documents. -/
structure Attribute.Profiles (a : Attribute) (options : DiscoveryOptions) (total : Nat)
    (vs : List Value) : Prop where
  frequency : a.frequency = vs.length
  totalDocuments : a.totalDocuments = total
  isNullable : a.isNullable = true ↔ .null ∈ vs ∨ vs.length < total
  /-- Nulls alone have no type. -/
  mixed : (∀ v ∈ vs, v = .null) → a.type = .mixed
  type : (∃ v ∈ vs, v ≠ .null) → IsLUB {k | ∃ v ∈ vs, AttributeType.ofValue? v = some k} a.type
  /-- Leaves that are all null have no type. -/
  element (e : ElementType) : a.element = some e ↔
    a.type = .array ∧ IsLUB {k | ∃ v ∈ Value.leavesOf vs, ElementType.ofValue? v = some k} e
  sampleValues : a.sampleValues = (Value.distinctLeaves vs).take options.maxSampleValues
  uniqueValues : a.uniqueValues.isSome = true ↔
    a.type ≠ .object ∧ (Value.distinctLeaves vs).length ≤ options.maxUniqueValues
  /-- The values that are listed are the distinct ones, and they are sorted where the comparison is
  transitive on them. -/
  sorted : ∀ us ∈ a.uniqueValues, us.Perm (Value.distinctLeaves vs) ∧
    (TransOn Value.totalLe (Value.distinctLeaves vs) →
      us = Value.sort (Value.distinctLeaves vs) ∧
        us.Pairwise fun v w => Value.totalLe v w = true)
  /-- Numbers and arrays of numbers have a range. -/
  hasRange : a.range.isSome = true ↔
    a.type = .number ∨ a.element = some .integer ∨ a.element = some .float
  range : ∀ r ∈ a.range, r.Spans ((Value.leavesOf vs).filterMap Value.asDouble?)

namespace Tally

theorem elements_subset_leaves (v : Value) : elements v ⊆ v.leaves := by
  cases v <;> first | exact List.Subset.refl _ | exact List.nil_subset _

/-- Numbers, and arrays of numbers. -/
theorem isNumeric_iff {type : Option AttributeType} {element : Option ElementType} :
    isNumeric (type.getD .mixed) element = true ↔ type = some .number ∨
      (type = some .array ∧ (element = some .integer ∨ element = some .float)) := by
  cases type with
  | none => simp [isNumeric]
  | some k => cases k <;> simp [isNumeric]

theorem summary_type_iff {t : Tally} {name : String} {total : Nat} {options : DiscoveryOptions}
    {k : AttributeType} (h : k ≠ .mixed) :
    (t.summary name total options).type = k ↔ t.type = some k := by
  simp only [summary]
  cases t.type with
  | none => exact iff_of_false (Ne.symm h) (Option.some_ne_none k).symm
  | some a => exact Option.some_inj.symm

/-- An element type is reported for arrays. -/
theorem summary_element_iff {t : Tally} {name : String} {total : Nat} {options : DiscoveryOptions}
    {e : ElementType} :
    (t.summary name total options).element = some e ↔ t.type = some .array ∧ t.element = some e := by
  have array : (t.summary name total options).type = .array ↔ t.type = some .array :=
    summary_type_iff (by decide)
  rw [← array]
  simp only [summary]
  split
  case isTrue arrays => exact (and_iff_right arrays).symm
  case isFalse other => exact iff_of_false (Option.some_ne_none e).symm fun h => other h.1

section Summary

variable {vs : List Value} {detect : Bool} {t : Tally}
  (observed : vs.foldl (observe detect) .empty = t)

include observed

theorem type_eq_none_iff : t.type = none ↔ ∀ v ∈ vs, v = .null := by
  rw [← observed, type_foldl_observe, foldl_refine_eq_none_iff]
  simp [AttributeType.ofValue?_eq_none_iff]

/-- **The type is the least** above those of all values. -/
theorem isLUB_type {a : AttributeType} (h : t.type = some a) :
    IsLUB {k | ∃ v ∈ vs, AttributeType.ofValue? v = some k} a := by
  rw [← observed, type_foldl_observe] at h
  simpa only [List.mem_map] using isLUB_foldl_refine AttributeType.join_le_iff h

/-- Some value has a type, and the type is above it. -/
theorem exists_kind_le {a : AttributeType} (h : t.type = some a) :
    ∃ v ∈ vs, ∃ k, AttributeType.ofValue? v = some k ∧ k ≤ a := by
  rw [← observed, type_foldl_observe] at h
  obtain ⟨k, hk, below⟩ := exists_observed_le AttributeType.join_le_iff h
  obtain ⟨v, hv, kind⟩ := List.mem_map.mp hk
  exact ⟨v, hv, k, kind, below⟩

/-- An attribute that is an array has nothing but arrays and nulls. -/
theorem eq_null_or_array (h : t.type = some .array) {v : Value} (hv : v ∈ vs) :
    v = .null ∨ ∃ items, v = .array items := by
  cases kind : AttributeType.ofValue? v with
  | none => exact .inl (AttributeType.ofValue?_eq_none_iff.mp kind)
  | some k =>
    obtain rfl := AttributeType.eq_array_of_le ((isLUB_type observed h).1 ⟨v, hv, kind⟩)
    exact .inr (AttributeType.exists_of_array kind)

/-- The kinds of the leaves of arrays are those that are joined. -/
theorem kinds_of_array (h : t.type = some .array) :
    {k | ∃ v ∈ Value.leavesOf vs, ElementType.ofValue? v = some k} =
      {k | some k ∈ (vs.flatMap elements).map ElementType.ofValue?} := by
  have each (v : Value) (hv : v ∈ vs) (k : ElementType) :
      (∃ w ∈ v.leaves, ElementType.ofValue? w = some k) ↔
        ∃ w ∈ elements v, ElementType.ofValue? w = some k := by
    rcases eq_null_or_array observed h hv with rfl | ⟨items, rfl⟩
    · simp [Value.leaves, elements, ElementType.ofValue?]
    · rfl
  ext k
  simp only [Value.leavesOf_eq_flatMap, List.mem_flatMap, List.mem_map, Set.mem_ofPred_eq]
  constructor
  · rintro ⟨w, ⟨v, hv, hw⟩, kind⟩
    obtain ⟨w, hw, kind⟩ := (each v hv k).mp ⟨w, hw, kind⟩
    exact ⟨w, ⟨v, hv, hw⟩, kind⟩
  · rintro ⟨w, ⟨v, hv, hw⟩, kind⟩
    obtain ⟨w, hw, kind⟩ := (each v hv k).mpr ⟨w, hw, kind⟩
    exact ⟨w, ⟨v, hv, hw⟩, kind⟩

/-- **The element type is the least** above those of all leaves, if some leaf has a type. -/
theorem element_eq_some_iff (h : t.type = some .array) (e : ElementType) :
    t.element = some e ↔
      IsLUB {k | ∃ v ∈ Value.leavesOf vs, ElementType.ofValue? v = some k} e := by
  rw [kinds_of_array observed h, ← observed, element_foldl_observe]
  constructor
  · exact isLUB_foldl_refine ElementType.join_le_iff
  · intro least
    cases joined : ((vs.flatMap elements).map ElementType.ofValue?).foldl
        (refine ElementType.join) none with
    | none =>
      have nothing : {k | some k ∈ (vs.flatMap elements).map ElementType.ofValue?} = ∅ :=
        Set.eq_empty_iff_forall_notMem.mpr fun k hk =>
          Option.some_ne_none k (foldl_refine_eq_none_iff.mp joined _ hk)
      exact absurd (nothing ▸ least) (ElementType.not_isLUB_empty e)
    | some e' =>
      have least' := isLUB_foldl_refine ElementType.join_le_iff joined
      exact joined.trans (congrArg some (least'.unique least))

/-- Where there is no range, no leaf is a number. -/
theorem asDouble?_eq_none (h : t.range = none) : ∀ v ∈ Value.leavesOf vs, v.asDouble? = none := by
  rw [← observed, range_foldl_observe, NumericRange.foldl_note_eq_none_iff] at h
  exact List.filterMap_eq_nil_iff.mp h

/-- Where the leaves are numbers, there is a range. -/
theorem range_ne_none (numeric : isNumeric (t.type.getD .mixed) t.element = true) :
    t.range ≠ none := by
  intro missing
  -- one of the numbers that were seen is a leaf
  obtain ⟨v, hv, w, hw, number⟩ : ∃ v ∈ vs, ∃ w ∈ v.leaves, w.asDouble?.isSome = true := by
    rcases isNumeric_iff.mp numeric with type | ⟨-, element⟩
    · obtain ⟨v, hv, k, kind, below⟩ := exists_kind_le observed type
      obtain rfl := AttributeType.eq_number_of_le below
      obtain ⟨itself, number⟩ := AttributeType.leaf_of_number kind
      exact ⟨v, hv, v, itself ▸ List.mem_singleton_self v, number⟩
    · obtain ⟨e, joined, numeric⟩ : ∃ e, t.element = some e ∧ (e = .integer ∨ e = .float) :=
        element.elim (fun h => ⟨_, h, .inl rfl⟩) fun h => ⟨_, h, .inr rfl⟩
      rw [← observed, element_foldl_observe] at joined
      obtain ⟨k, hk, below⟩ := exists_observed_le ElementType.join_le_iff joined
      obtain ⟨w, hw, kind⟩ := List.mem_map.mp hk
      obtain ⟨v, hv, hw⟩ := List.mem_flatMap.mp hw
      exact ⟨v, hv, w, elements_subset_leaves v hw, ElementType.isSome_asDouble? below numeric kind⟩
  have leaf : w ∈ Value.leavesOf vs := by
    rw [Value.leavesOf_eq_flatMap]
    exact List.mem_flatMap.mpr ⟨v, hv, hw⟩
  rw [asDouble?_eq_none observed missing w leaf] at number
  cases number

/-- A range is reported where the leaves are numbers. -/
theorem isSome_range_summary (name : String) (total : Nat) (options : DiscoveryOptions) :
    (t.summary name total options).range.isSome = true ↔
      isNumeric (t.type.getD .mixed) t.element = true := by
  simp only [summary]
  split
  case isTrue numeric =>
    exact iff_of_true (Option.isSome_iff_ne_none.mpr (range_ne_none observed numeric)) numeric
  case isFalse other => exact iff_of_false Bool.false_ne_true other

/-- The range leads from the least to the greatest number among the leaves. -/
theorem range_spans (hvs : ∀ v ∈ vs, v.isData = true) {r : NumericRange} (h : t.range = some r) :
    r.Spans ((Value.leavesOf vs).filterMap Value.asDouble?) := by
  rw [← observed, range_foldl_observe] at h
  refine NumericRange.spans_foldl_note (fun x hx => ?_) h
  obtain ⟨w, hw, number⟩ := List.mem_filterMap.mp hx
  rw [Value.leavesOf_eq_flatMap] at hw
  obtain ⟨v, hv, hw⟩ := List.mem_flatMap.mp hw
  exact Value.isNaN_of_isData (Value.isData_leaves v (hvs v hv) w hw) number

/-- The distinct leaves are listed, sorted, unless they are too many. -/
theorem uniqueValues_summary (name : String) (total : Nat) (options : DiscoveryOptions) :
    (t.summary name total options).uniqueValues =
      if (t.summary name total options).type ≠ .object ∧
          (Value.distinctLeaves vs).length ≤ options.maxUniqueValues then
        some (Value.sort (Value.distinctLeaves vs))
      else none := by
  have distinct : t.distinct.map Prod.snd = Value.distinctLeaves vs := by
    rw [← observed, distinct_foldl_observe, Value.distinctLeaves]
  simp only [summary, distinct]

end Summary

/-- **A tally is summed up to a report** of what was observed. -/
theorem summary_profiles {vs : List Value} (hvs : ∀ v ∈ vs, v.isData = true) (name : String)
    (total : Nat) (options : DiscoveryOptions) :
    ((vs.foldl (observe options.detectPatterns) .empty).summary name total options).Profiles
      options total vs := by
  generalize observed : vs.foldl (observe options.detectPatterns) .empty = t
  have present : t.present = vs.length := by rw [← observed, present_foldl_observe]
  have distinct : t.distinct.map Prod.snd = Value.distinctLeaves vs := by
    rw [← observed, distinct_foldl_observe, Value.distinctLeaves]
  have unique := uniqueValues_summary observed name total options
  constructor
  case frequency => exact present
  case totalDocuments => rfl
  case isNullable =>
    have nulls : 0 < t.nulls ↔ .null ∈ vs := by rw [← observed, nulls_foldl_observe_pos]
    simp [summary, present, nulls]
  case mixed =>
    intro nulls
    simp [summary, (type_eq_none_iff observed).mpr nulls]
  case type =>
    rintro ⟨v, hv, notNull⟩
    cases type : t.type with
    | none => exact absurd ((type_eq_none_iff observed).mp type v hv) notNull
    | some a =>
      have reported : (t.summary name total options).type = a := by simp [summary, type]
      exact reported ▸ isLUB_type observed type
  case element =>
    intro e
    rw [summary_element_iff, summary_type_iff (k := .array) (by decide)]
    exact and_congr_right fun arrays => element_eq_some_iff observed arrays e
  case sampleValues => simp only [summary, distinct]
  case uniqueValues =>
    rw [unique]
    split
    case isTrue listed => exact iff_of_true rfl listed
    case isFalse other => exact iff_of_false Bool.false_ne_true other
  case sorted =>
    intro us hus
    rw [Option.mem_def, unique, Option.ite_none_right_eq_some] at hus
    obtain ⟨-, hus⟩ := hus
    obtain rfl := Option.some.inj hus
    exact ⟨perm_stableSort _, fun trans => ⟨rfl, pairwise_stableSort Value.totalLe_total trans⟩⟩
  case hasRange =>
    rw [isSome_range_summary observed, isNumeric_iff, summary_type_iff (k := .number) (by decide),
      summary_element_iff, summary_element_iff, and_or_left]
  case range =>
    intro r hr
    simp only [summary] at hr
    rw [Option.mem_def, Option.ite_none_right_eq_some] at hr
    exact range_spans observed hvs hr.2

end Tally

/-! ### All reports -/

/-- The values of an attribute in a sample, in the order of the documents. -/
def valuesOf (name : String) (docs : List Document) : List Value :=
  docs.filterMap fun d => d.bag.get? name

/-- An attribute is reported before another one if it is more frequent, or as frequent and its name
comes first. -/
def Attribute.Before (a b : Attribute) : Prop :=
  b.frequency < a.frequency ∨ (b.frequency = a.frequency ∧ a.name < b.name)

/-- Reports are made of tallies and then sorted. -/
theorem discover_eq (docs : List Document) (options : DiscoveryOptions) :
    discover docs options =
      (((docs.flatMap Document.bag).foldl (tallyValue options.detectPatterns) []).map fun e =>
        e.2.summary e.1 docs.length options).mergeSort fun a b => b.frequency ≤ a.frequency := by
  rw [discover, foldl_tallyDocument]

/-- **The most frequent attributes are reported first**, and those that are as frequent by their
names. -/
theorem pairwise_discover (docs : List Document) (options : DiscoveryOptions) :
    (discover docs options).Pairwise Attribute.Before := by
  have byName : (((docs.flatMap Document.bag).foldl (tallyValue options.detectPatterns) []).map
      fun e => e.2.summary e.1 docs.length options).Pairwise fun a b => a.name < b.name :=
    List.pairwise_map.mpr (foldl_tallyValue_sorted _ _)
  rw [discover_eq]
  refine (pairwise_mergeSort_of_pairwise ?_ ?_ byName).imp fun {a b} h => ?_
  · simp only [decide_eq_true_iff]
    exact fun a b c hab hbc => hbc.trans hab
  · simp only [Bool.or_eq_true, decide_eq_true_iff]
    exact fun a b => le_total _ _
  · simp only [decide_eq_true_iff] at h
    rcases h.1.lt_or_eq with less | same
    · exact .inl less
    · exact .inr ⟨same, h.2 same.ge⟩

section Discover

variable {docs : List Document} (decoded : ∀ d ∈ docs, d.Decoded)

include decoded

theorem isData_valuesOf (name : String) : ∀ v ∈ valuesOf name docs, v.isData = true := by
  intro v hv
  obtain ⟨d, hd, hv⟩ := List.mem_filterMap.mp hv
  exact (decoded d hd).isData.bag _ (Record.mem_of_get? hv)

/-- The tally of an attribute is that of its values in the sample. -/
theorem get?_foldl_tallyValue_bag (detect : Bool) (name : String) :
    ((docs.flatMap Document.bag).foldl (tallyValue detect) []).get? name =
      if (valuesOf name docs).isEmpty then none
      else some ((valuesOf name docs).foldl (Tally.observe detect) .empty) := by
  have own : ((docs.flatMap Document.bag).filter fun e => e.1 == name).map Prod.snd =
      valuesOf name docs := by
    rw [List.filter_flatMap, List.map_flatMap, valuesOf, List.filterMap_eq_flatMap_toList]
    exact List.flatMap_congr fun d hd => (decoded d hd).isData.sorted_bag.map_filter_name name
  rw [get?_foldl_tallyValue, ← own, List.isEmpty_map]

/-- Every attribute that some document has is reported, and no other one. -/
theorem mem_names_discover_iff (options : DiscoveryOptions) (name : String) :
    name ∈ (discover docs options).map Attribute.name ↔ ∃ d ∈ docs, name ∈ d.bag.map Prod.fst := by
  have names : ((discover docs options).map Attribute.name).Perm
      (((docs.flatMap Document.bag).foldl (tallyValue options.detectPatterns) []).map
        Prod.fst) := by
    rw [discover_eq]
    refine ((List.mergeSort_perm _ _).map Attribute.name).trans (List.Perm.of_eq ?_)
    rw [List.map_map]
    rfl
  rw [names.mem_iff, Record.mem_names_iff, get?_foldl_tallyValue_bag decoded]
  simp [Record.mem_names_iff, valuesOf, List.filterMap_eq_nil_iff, Option.ne_none_iff_exists']

/-- A report sums up the tally of the values that its attribute has in the sample. -/
theorem summary_of_mem_discover {options : DiscoveryOptions} {a : Attribute}
    (ha : a ∈ discover docs options) :
    a = ((valuesOf a.name docs).foldl (Tally.observe options.detectPatterns) .empty).summary
      a.name docs.length options := by
  rw [discover_eq, List.mem_mergeSort] at ha
  obtain ⟨⟨name, t⟩, hmem, rfl⟩ := List.mem_map.mp ha
  have tally := (foldl_tallyValue_sorted _ _).get?_of_mem hmem
  rw [get?_foldl_tallyValue_bag decoded] at tally
  split at tally
  case isTrue => cases tally
  case isFalse =>
    obtain rfl := Option.some.inj tally
    rfl

/-- **A report tells of the values that its attribute has in the sample.** -/
theorem profiles_of_mem_discover {options : DiscoveryOptions} {a : Attribute}
    (ha : a ∈ discover docs options) :
    a.Profiles options docs.length (valuesOf a.name docs) := by
  have own := Tally.summary_profiles (isData_valuesOf decoded a.name) a.name docs.length options
  rwa [← summary_of_mem_discover decoded ha] at own

/-- The distinct leaves are listed as they are sorted, in order or not. -/
theorem uniqueValues_of_mem_discover {options : DiscoveryOptions} {a : Attribute}
    (ha : a ∈ discover docs options) :
    a.uniqueValues =
      if a.type ≠ .object ∧
          (Value.distinctLeaves (valuesOf a.name docs)).length ≤ options.maxUniqueValues then
        some (Value.sort (Value.distinctLeaves (valuesOf a.name docs)))
      else none := by
  have observed : (valuesOf a.name docs).foldl (Tally.observe options.detectPatterns) .empty = _ :=
    rfl
  have own := Tally.uniqueValues_summary observed a.name docs.length options
  rwa [← summary_of_mem_discover decoded ha] at own

end Discover

end DocQuery
