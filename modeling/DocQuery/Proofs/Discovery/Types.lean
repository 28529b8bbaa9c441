import DocQuery.Discovery.Profile
import DocQuery.Proofs.Record
import Mathlib.Data.List.Nodup

/-!
# Discovered types cover what was seen

* `AttributeType.Covers` – a type covers another one; a join covers both of its parts;
* `Tally.Covers` – a tally covers a value that it has observed, whatever else it observes
  (`Tally.Covers.observe`);
* `discover_covers` – **the type of a discovered attribute covers all its values in the sample**;
* `discover_nodup` – every attribute is reported once, so that it is found by its name
  (`find?_name`), and so is its type (`get?_typesOf`).
-/

namespace DocQuery

namespace AttributeType

/-- Values of the second type may occur where the first one was inferred. -/
def Covers (a b : AttributeType) : Prop := a = b ∨ (a = .string ∧ b = .date) ∨ a = .mixed

instance (a b : AttributeType) : Decidable (a.Covers b) :=
  inferInstanceAs (Decidable (_ ∨ (_ ∧ _) ∨ _))

theorem covers_refl (a : AttributeType) : a.Covers a := Or.inl rfl

theorem join_covers_right (a b : AttributeType) : (a.join b).Covers b := by
  cases a <;> cases b <;> decide

/-- Joining keeps what is covered. -/
theorem Covers.join {a b : AttributeType} (h : a.Covers b) (c : AttributeType) :
    (a.join c).Covers b := by
  revert h
  cases a <;> cases b <;> cases c <;> decide

end AttributeType

namespace Tally

/-- What was observed includes the type of a value. -/
def Covers (t : Tally) (v : Value) : Prop :=
  ∀ b, AttributeType.ofValue? v = some b → ∃ a, t.type = some a ∧ a.Covers b

@[simp]
theorem record_type (t : Tally) (v : Value) : (t.record v).type = t.type := by
  rw [record]
  split <;> rfl

theorem foldl_recordLeaf_type (vs : List Value) (t : Tally) :
    (vs.foldl recordLeaf t).type = t.type := by
  induction vs generalizing t with
  | nil => rfl
  | cons v vs ih =>
    rw [List.foldl_cons, ih, recordLeaf, record_type]

/-- An observation joins the type of the value to the type so far. -/
theorem observe_type (detect : Bool) (t : Tally) (v : Value) :
    (t.observe detect v).type = refine AttributeType.join t.type (AttributeType.ofValue? v) := by
  unfold observe
  dsimp only
  split
  · rw [foldl_recordLeaf_type]
  · rw [recordString, record_type]
  · rw [record_type]

theorem covers_observe (detect : Bool) (t : Tally) (v : Value) : (t.observe detect v).Covers v := by
  intro b hb
  rw [observe_type, hb]
  cases t.type with
  | none => exact ⟨b, rfl, b.covers_refl⟩
  | some a => exact ⟨a.join b, rfl, a.join_covers_right b⟩

theorem Covers.observe {t : Tally} {v : Value} (h : t.Covers v) (detect : Bool) (w : Value) :
    (t.observe detect w).Covers v := by
  intro b hb
  obtain ⟨a, ha, hcovers⟩ := h b hb
  rw [observe_type, ha]
  cases AttributeType.ofValue? w with
  | none => exact ⟨a, rfl, hcovers⟩
  | some c => exact ⟨a.join c, rfl, hcovers.join c⟩

end Tally

/-! ### All tallies -/

/-- Adds the value of an attribute to the tallies. -/
def tallyValue (detect : Bool) (tallies : Record Tally) (e : String × Value) : Record Tally :=
  tallies.insert e.1 (((tallies.get? e.1).getD .empty).observe detect e.2)

/-- The tallies of documents are those of their attributes, one after the other. -/
theorem foldl_tallyDocument (detect : Bool) (docs : List Document) (tallies : Record Tally) :
    docs.foldl (tallyDocument detect) tallies =
      (docs.flatMap Document.bag).foldl (tallyValue detect) tallies := by
  induction docs generalizing tallies with
  | nil => rfl
  | cons d docs ih =>
    rw [List.foldl_cons, ih, List.flatMap_cons, List.foldl_append]
    rfl

theorem foldl_tallyValue_sorted (detect : Bool) (entries : List (String × Value)) :
    (entries.foldl (tallyValue detect) []).Sorted := by
  induction entries using List.reverseRecOn with
  | nil => exact List.Pairwise.nil
  | append_singleton entries e ih =>
    rw [List.foldl_append]
    exact ih.insert _ _

/-- **Every value that was seen is covered by the tally of its attribute.** -/
theorem foldl_tallyValue_covers (detect : Bool) (entries : List (String × Value))
    {e : String × Value} (he : e ∈ entries) :
    ∃ t, (entries.foldl (tallyValue detect) []).get? e.1 = some t ∧ t.Covers e.2 := by
  induction entries using List.reverseRecOn with
  | nil => cases he
  | append_singleton entries last ih =>
    rw [List.foldl_append, List.foldl_cons, List.foldl_nil, tallyValue, Record.get?_insert]
    rcases List.mem_append.mp he with he | he
    · obtain ⟨t, hget, hcovers⟩ := ih he
      split
      case isTrue hname =>
        rw [← hname, hget]
        exact ⟨_, rfl, hcovers.observe detect last.2⟩
      case isFalse => exact ⟨t, hget, hcovers⟩
    · obtain rfl := List.mem_singleton.mp he
      rw [if_pos rfl]
      exact ⟨_, rfl, Tally.covers_observe detect _ _⟩

/-! ### Discovered attributes -/

variable {docs : List Document} {options : DiscoveryOptions}

/-- A discovered attribute sums up a tally. -/
theorem exists_tally_of_mem_discover {a : Attribute} (h : a ∈ discover docs options) :
    ∃ t, ((docs.flatMap Document.bag).foldl (tallyValue options.detectPatterns) []).get? a.name =
        some t ∧
      a.type = t.type.getD .mixed := by
  rw [discover, List.mem_mergeSort, foldl_tallyDocument] at h
  obtain ⟨⟨name, t⟩, hmem, rfl⟩ := List.mem_map.mp h
  exact ⟨t, (foldl_tallyValue_sorted _ _).get?_of_mem hmem, rfl⟩

/-- **The type of a discovered attribute covers all its values in the sample.** -/
theorem discover_covers {a : Attribute} (ha : a ∈ discover docs options) {d : Document}
    (hd : d ∈ docs) {v : Value} (hv : d.bag.get? a.name = some v) {b : AttributeType}
    (hb : AttributeType.ofValue? v = some b) : a.type.Covers b := by
  obtain ⟨t, hget, htype⟩ := exists_tally_of_mem_discover ha
  obtain ⟨t', hget', hcovers⟩ := foldl_tallyValue_covers options.detectPatterns
    (docs.flatMap Document.bag) (List.mem_flatMap.mpr ⟨d, hd, Record.mem_of_get? hv⟩)
  obtain rfl : t = t' := Option.some.inj (hget.symm.trans hget')
  obtain ⟨c, hc, hcover⟩ := hcovers b hb
  rw [htype, hc]
  exact hcover

/-- Every attribute is reported once. -/
theorem discover_nodup (docs : List Document) (options : DiscoveryOptions) :
    ((discover docs options).map Attribute.name).Nodup := by
  rw [discover, foldl_tallyDocument]
  refine (((List.mergeSort_perm _ _).map Attribute.name).nodup_iff).mpr ?_
  rw [List.map_map]
  exact (foldl_tallyValue_sorted _ _).nodup_names

section Names

variable {attributes : List Attribute} (hnodup : (attributes.map Attribute.name).Nodup)
  {a : Attribute} (ha : a ∈ attributes)

include hnodup ha

/-- An attribute that is reported once is found by its name. -/
theorem find?_name : (attributes.find? fun b => b.name == a.name) = some a := by
  obtain ⟨b, hb⟩ : ∃ b, (attributes.find? fun b => b.name == a.name) = some b :=
    Option.isSome_iff_exists.mp (List.find?_isSome.mpr ⟨a, ha, beq_self_eq_true a.name⟩)
  have hname : b.name = a.name := by simpa using List.find?_some hb
  rw [hb, List.inj_on_of_nodup_map hnodup (List.mem_of_find?_eq_some hb) ha hname]

/-- The type of an attribute that is reported once is found by its name. -/
theorem get?_typesOf {t : FieldType} (ht : a.fieldType? = some t) :
    (typesOf attributes).get? a.name = some t := by
  rw [typesOf, Record.get?_ofList]
  generalize hpairs : attributes.filterMap (fun a => a.fieldType?.map fun t => (a.name, t)) = pairs
  have hmem : (a.name, t) ∈ pairs.reverse := by
    rw [List.mem_reverse, ← hpairs]
    exact List.mem_filterMap.mpr ⟨a, ha, by rw [ht]; rfl⟩
  obtain ⟨e, he⟩ : ∃ e, (pairs.reverse.find? fun e => e.1 == a.name) = some e :=
    Option.isSome_iff_exists.mp (List.find?_isSome.mpr ⟨_, hmem, beq_self_eq_true a.name⟩)
  have hfound := List.mem_reverse.mp (List.mem_of_find?_eq_some he)
  rw [← hpairs] at hfound
  obtain ⟨b, hb, hpair⟩ := List.mem_filterMap.mp hfound
  obtain ⟨t', ht', rfl⟩ := Option.map_eq_some_iff.mp hpair
  have hname : b.name = a.name := by simpa using List.find?_some he
  obtain rfl := List.inj_on_of_nodup_map hnodup hb ha hname
  rw [he, Option.map_some, Option.some.inj (ht'.symm.trans ht)]

end Names

end DocQuery
