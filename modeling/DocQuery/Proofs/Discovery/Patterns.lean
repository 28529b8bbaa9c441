import DocQuery.Proofs.Discovery.Batch
import Mathlib.Algebra.BigOperators.Group.List.Lemmas

/-!
# Shapes of strings, and how they are counted

A shape is reported for an attribute when enough of its strings have it. All strings of the sample
are counted, and a string that several documents have is counted as often.

* `StringPattern.Common`, `StringPattern.report` – the shapes that enough of some strings have;
* `Tally.strings_foldl_observe`, `Tally.shaped_foldl_observe` – what a tally counts;
* `patterns_of_mem_discover` – **the report is about all strings of the attribute**;
* `StringPattern.common_dedup` – where every string occurs equally often, the distinct strings tell
  the same;
* `discover_patterns_iff` – **when the report agrees with that about the distinct strings**.
-/

namespace DocQuery

/-! ### Common shapes -/

namespace StringPattern

/-- Enough of the strings have the shape. -/
def Common (p : StringPattern) (ss : List String) : Prop :=
  p.tenths * ss.length ≤ 10 * ss.countP p.accepts

instance (p : StringPattern) (ss : List String) : Decidable (p.Common ss) :=
  inferInstanceAs (Decidable (_ ≤ _))

/-- The shapes that enough of the strings have, if there are any. -/
def report (ss : List String) : Option (List StringPattern) :=
  let ps := all.filter fun p => p.Common ss
  if ps.isEmpty then none else some ps

/-- Two lists of strings have the same report if the same shapes are common in them. -/
theorem report_eq_iff (ss ss' : List String) :
    report ss = report ss' ↔ ∀ p : StringPattern, p.Common ss ↔ p.Common ss' := by
  have listed (ss : List String) (p : StringPattern) : p ∈ (report ss).getD [] ↔ p.Common ss := by
    have every : p ∈ all := by cases p <;> decide
    have members : (report ss).getD [] = all.filter fun p => p.Common ss := by
      rw [report]
      cases all.filter fun p => p.Common ss <;> rfl
    simp [members, every]
  constructor
  · intro same p
    rw [← listed, same, listed]
  · intro same
    simp only [report, same]

/-- **Where every string occurs equally often, the distinct strings have the same common
shapes.** -/
theorem common_dedup {ss : List String} {k : Nat} (h : ∀ s ∈ ss, ss.count s = k)
    (p : StringPattern) : p.Common ss.dedup ↔ p.Common ss := by
  have counted (q : String → Bool) : ss.countP q = k * ss.dedup.countP q := by
    have each : (ss.dedup.filter q).map (fun s => ss.count s) =
        (ss.dedup.filter q).map fun _ => k :=
      List.map_congr_left fun s hs => h s (List.mem_dedup.mp (List.mem_of_mem_filter hs))
    rw [← List.sum_map_count_dedup_filter_eq_countP, each, List.map_const', List.sum_replicate,
      smul_eq_mul, ← List.countP_eq_length_filter, Nat.mul_comm]
  have size : ss.length = k * ss.dedup.length := by
    have all := counted fun _ => true
    rwa [List.countP_true] at all
  cases ss with
  | nil => rfl
  | cons s ss =>
    have pos : 0 < k := h s List.mem_cons_self ▸ List.count_pos_iff.mpr List.mem_cons_self
    rw [Common, Common, size, counted, Nat.mul_left_comm p.tenths, Nat.mul_left_comm 10]
    exact (Nat.mul_le_mul_left_iff pos).symm

end StringPattern

/-! ### What is counted -/

namespace Tally

variable {detect : Bool}

/-- A tally counts the strings. -/
theorem strings_foldl_observe (vs : List Value) :
    (vs.foldl (observe detect) .empty).strings = (vs.filterMap Value.asString?).length := by
  have added : (vs.map fun v => v.asString?.isSome.toNat).sum =
      (vs.filterMap Value.asString?).length := by
    induction vs with
    | nil => rfl
    | cons v vs ih =>
      rw [List.map_cons, List.sum_cons, ih, List.filterMap_cons]
      cases v.asString? with
      | none => exact Nat.zero_add _
      | some s => exact Nat.add_comm _ _
  rw [foldl_observe_sum strings _ (observe_strings detect), added]
  exact Nat.zero_add _

/-- A tally counts the strings of each shape, if it is asked to. -/
theorem shaped_foldl_observe (vs : List Value) (p : StringPattern) :
    (vs.foldl (observe true) .empty).shaped.get p =
      (vs.filterMap Value.asString?).countP p.accepts := by
  have added : (vs.map (shapes true p)).sum = (vs.filterMap Value.asString?).countP p.accepts := by
    induction vs with
    | nil => rfl
    | cons v vs ih =>
      rw [List.map_cons, List.sum_cons, ih, List.filterMap_cons, shapes]
      cases v.asString? with
      | none => exact Nat.zero_add _
      | some s =>
        rw [List.countP_cons, Nat.add_comm]
        cases accepted : p.accepts s <;> simp [accepted]
  rw [foldl_observe_sum (fun t => t.shaped.get p) _ (observe_shaped true p), added]
  cases p <;> exact Nat.zero_add _

/-- An attribute of strings has a string. -/
theorem strings_ne_nil {vs : List Value} {t : Tally}
    (observed : vs.foldl (observe detect) .empty = t) (h : t.type = some .string) :
    vs.filterMap Value.asString? ≠ [] := by
  obtain ⟨v, hv, k, kind, below⟩ := exists_kind_le observed h
  have textual : k = .string ∨ k = .date := by
    revert below
    cases k <;> decide
  obtain ⟨s, rfl⟩ : ∃ s, v = .string s := by
    cases v with
    | string s => exact ⟨s, rfl⟩
    | _ => rcases textual with rfl | rfl <;> cases kind
  exact List.ne_nil_of_mem (List.mem_filterMap.mpr ⟨_, hv, rfl⟩)

/-- **The shapes of an attribute of strings are those that are common in all its strings**, those
that occur again included. -/
theorem patterns_summary (vs : List Value) {options : DiscoveryOptions}
    (detects : options.detectPatterns = true) (name : String) (total : Nat)
    (type : (vs.foldl (observe true) .empty).type = some .string) :
    ((vs.foldl (observe true) .empty).summary name total options).patterns =
      StringPattern.report (vs.filterMap Value.asString?) := by
  have some_string := List.length_pos_iff.mpr (strings_ne_nil rfl type)
  have frequent : (vs.foldl (observe true) .empty).frequentPatterns =
      StringPattern.all.filter fun p => p.Common (vs.filterMap Value.asString?) := by
    simp only [frequentPatterns, strings_foldl_observe, shaped_foldl_observe]
    rfl
  simp only [summary, detects, type, Option.getD_some, strings_foldl_observe, some_string,
    decide_true, Bool.and_self, if_true, frequent]
  rfl

end Tally

/-! ### Reports -/

/-- The strings among the values of an attribute in a sample, in the order of the documents. -/
def stringsOf (name : String) (docs : List Document) : List String :=
  (docs.flatMap Document.bag).filterMap fun e => if e.1 = name then e.2.asString? else none

variable {docs : List Document} {options : DiscoveryOptions}

/-- **The shapes reported for an attribute of strings** are those that are common in all its strings
in the sample. -/
theorem patterns_of_mem_discover (detects : options.detectPatterns = true) {a : Attribute}
    (ha : a ∈ discover docs options) (string : a.type = .string) :
    a.patterns = StringPattern.report (stringsOf a.name docs) := by
  rw [discover_eq, List.mem_mergeSort, detects] at ha
  obtain ⟨⟨name, t⟩, hmem, rfl⟩ := List.mem_map.mp ha
  have tally := (foldl_tallyValue_sorted _ _).get?_of_mem hmem
  rw [get?_foldl_tallyValue] at tally
  split at tally
  case isTrue => cases tally
  case isFalse =>
    obtain rfl := Option.some.inj tally
    have own : stringsOf name docs = ((((docs.flatMap Document.bag).filter fun e =>
        e.1 == name).map Prod.snd).filterMap Value.asString?) := by
      rw [List.filterMap_map, List.filterMap_filter]
      simp only [stringsOf, beq_iff_eq, Function.comp_apply]
    have type := (Tally.summary_type_iff (k := .string) (by decide)).mp string
    exact own ▸ Tally.patterns_summary _ detects name docs.length type

/-- **When the report is about the distinct strings.** The shapes reported for an attribute of
strings are those that are common in all its strings, where a string counts as often as it occurs.
They are those that are common in its distinct strings exactly if no shape is common in the ones and
not in the others; so they are where every string occurs equally often. -/
theorem discover_patterns_iff (detects : options.detectPatterns = true) {a : Attribute}
    (ha : a ∈ discover docs options) (string : a.type = .string) :
    a.patterns = StringPattern.report (stringsOf a.name docs) ∧
      (a.patterns = StringPattern.report (stringsOf a.name docs).dedup ↔
        ∀ p : StringPattern, p.Common (stringsOf a.name docs) ↔
          p.Common (stringsOf a.name docs).dedup) ∧
      ((∃ k, ∀ s ∈ stringsOf a.name docs, (stringsOf a.name docs).count s = k) →
        a.patterns = StringPattern.report (stringsOf a.name docs).dedup) := by
  have all := patterns_of_mem_discover detects ha string
  refine ⟨all, ?_, ?_⟩
  · rw [all]
    exact StringPattern.report_eq_iff _ _
  · rintro ⟨k, equally⟩
    rw [all]
    exact (StringPattern.report_eq_iff _ _).mpr fun p => (StringPattern.common_dedup equally p).symm

/-! ### Samples of one attribute -/

/-- Documents of which the only attribute has the given strings. -/
def contacts (ss : List String) : List Document :=
  ss.map fun s => { Document.ofId (.string s) with fields := [("contact", .string s)] }

/-- Half of the strings are web addresses, and so are half of the distinct ones. -/
def paired : List Document := contacts ["https://x.io", "plain", "https://x.io", "plain"]

/-- Three of four strings are e-mail addresses, of the distinct ones one of two. -/
def crowded : List Document := contacts ["a@x.io", "a@x.io", "a@x.io", "plain"]

/-- A sample with one attribute has one report. -/
theorem discover_of_single {name : String} {t : Tally}
    (h : docs.foldl (tallyDocument options.detectPatterns) [] = [(name, t)]) :
    discover docs options = [t.summary name docs.length options] := by
  simp [discover, h]

theorem discover_patterns_iff_paired :
    DiscoveryOptions.default.detectPatterns = true ∧
      ∃ a ∈ discover paired .default, a.type = .string ∧ a.patterns = some [.url] ∧
        StringPattern.report (stringsOf a.name paired).dedup = some [.url] := by
  have detects : DiscoveryOptions.default.detectPatterns = true := rfl
  obtain ⟨a, reported, name, string⟩ : ∃ a, discover paired .default = [a] ∧
      a.name = "contact" ∧ a.type = .string := ⟨_, discover_of_single rfl, rfl, rfl⟩
  have ha : a ∈ discover paired .default := reported ▸ List.mem_singleton_self a
  have equally : ∃ k, ∀ s ∈ stringsOf a.name paired, (stringsOf a.name paired).count s = k := by
    rw [name]
    exact ⟨2, by decide⟩
  have distinct := (discover_patterns_iff detects ha string).2.2 equally
  have listed : StringPattern.report (stringsOf a.name paired).dedup = some [.url] := by
    rw [name]
    decide
  exact ⟨detects, a, ha, string, distinct.trans listed, listed⟩

/-- **A string counts as often as it occurs**: e-mail addresses are reported where most strings are
such addresses, although most of the distinct ones are not. -/
theorem discover_counts_repeats :
    ∃ a ∈ discover crowded .default, a.type = .string ∧ a.patterns = some [.email] ∧
      (stringsOf a.name crowded).dedup = ["a@x.io", "plain"] ∧
      StringPattern.report (stringsOf a.name crowded).dedup = none := by
  obtain ⟨a, reported, name, string, patterns⟩ : ∃ a, discover crowded .default = [a] ∧
      a.name = "contact" ∧ a.type = .string ∧ a.patterns = some [.email] :=
    ⟨_, discover_of_single rfl, rfl, rfl, rfl⟩
  refine ⟨a, reported ▸ List.mem_singleton_self a, string, patterns, ?_⟩
  rw [name]
  decide

end DocQuery
