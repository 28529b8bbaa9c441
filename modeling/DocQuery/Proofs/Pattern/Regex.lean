import DocQuery.Pattern.Regex
import Mathlib.Data.Nat.Basic

/-!
# What regular expressions match

The meaning of an expression is the relation between the two ends of its matches. The matcher works
on sets of positions instead, and cuts repetitions off once nothing new is reached.

* `Regex.Iterated` – a number of steps of a relation;
* `Regex.Spans` – **the matches of an expression**, constructor by constructor;
* `Regex.mem_closure` – what is reached in a limited number of rounds: a position that was reached
  before leads to nothing that is not in the current round;
* `Regex.Iterated.shorten` – steps that stand still can be left out, so that a text offers no more
  rounds than it has characters;
* `Regex.mem_advance`, `Regex.isMatch_iff` – **the matcher finds exactly the matches**.
-/

namespace DocQuery.Regex

/-- `n` steps of a relation lead from one position to another. -/
def Iterated (R : Nat → Nat → Prop) : Nat → Nat → Nat → Prop
  | 0, p, q => q = p
  | n + 1, p, q => ∃ m, R p m ∧ Iterated R n m q

/-- **The matches of an expression in a text**, given by their ends. A repetition whose bounds are
the wrong way round is made as often as the lower one says. -/
def Spans (text : Array Char) : Regex → Nat → Nat → Prop
  | .empty, p, q => q = p
  | .set s, p, q => (∃ c, text[p]? = some c ∧ s.contains c) ∧ q = p + 1
  | .anchor a, p, q => a.holds (before text p) text[p]? ∧ q = p
  | .seq a b, p, q => ∃ m, Spans text a p m ∧ Spans text b m q
  | .alt a b, p, q => Spans text a p q ∨ Spans text b p q
  | .rep a min max, p, q =>
    ∃ n, min ≤ n ∧ (∀ m ∈ max, n ≤ Nat.max min m) ∧ Iterated (Spans text a) n p q

variable {R : Nat → Nat → Prop} {text : Array Char} {n m p q : Nat}

theorem spans_seq {a b : Regex} :
    Spans text (.seq a b) p q ↔ ∃ m, Spans text a p m ∧ Spans text b m q := Iff.rfl

theorem spans_rep {a : Regex} {min : Nat} {max : Option Nat} : Spans text (.rep a min max) p q ↔
    ∃ n, min ≤ n ∧ (∀ m ∈ max, n ≤ Nat.max min m) ∧ Iterated (Spans text a) n p q := Iff.rfl

/-! ### Steps -/

theorem iterated_add : Iterated R (n + m) p q ↔ ∃ r, Iterated R n p r ∧ Iterated R m r q := by
  induction n generalizing p with
  | zero => simp [Iterated]
  | succ n ih =>
    rw [Nat.succ_add]
    simp only [Iterated, ih]
    constructor
    · rintro ⟨s, step, r, first, others⟩
      exact ⟨r, ⟨s, step, first⟩, others⟩
    · rintro ⟨r, ⟨s, step, first⟩, others⟩
      exact ⟨s, step, r, first, others⟩

/-- **Steps that stand still can be left out.** -/
theorem Iterated.shorten (forward : ∀ p q, R p q → p ≤ q) (course : Iterated R n p q) :
    p ≤ q ∧ ∃ k ≤ n, k ≤ q - p ∧ Iterated R k p q := by
  induction n generalizing p with
  | zero => exact ⟨Nat.le_of_eq course.symm, 0, le_rfl, Nat.zero_le _, course⟩
  | succ n ih =>
    obtain ⟨m, step, others⟩ := course
    obtain ⟨onward, k, fewer, short, others⟩ := ih others
    have ahead := forward p m step
    refine ⟨Nat.le_trans ahead onward, ?_⟩
    by_cases still : m = p
    · exact ⟨k, by omega, by omega, still ▸ others⟩
    · exact ⟨k + 1, by omega, by omega, m, step, others⟩

/-! ### Rounds -/

/-- A function on sets of positions that makes one step of a relation from each of them. -/
def Steps (R : Nat → Nat → Prop) (step : List Nat → List Nat) : Prop :=
  ∀ ps q, q ∈ step ps ↔ ∃ p ∈ ps, R p q

variable {step : List Nat → List Nat} {seen frontier ps : List Nat}

theorem mem_iterate (sound : Steps R step) :
    q ∈ iterate step n ps ↔ ∃ p ∈ ps, Iterated R n p q := by
  induction n generalizing ps with
  | zero => simp [iterate, Iterated]
  | succ n ih =>
    rw [iterate]
    split_ifs with none
    · simp [List.isEmpty_iff.mp none]
    · rw [ih]
      simp only [sound ps, Iterated]
      constructor
      · rintro ⟨m, ⟨p, member, first⟩, others⟩
        exact ⟨p, member, m, first, others⟩
      · rintro ⟨p, member, m, first, others⟩
        exact ⟨m, ⟨p, member, first⟩, others⟩

/-- Where every step from `seen` stays in it or enters `new`, longer courses do so as well. -/
theorem leaves_through {new : List Nat} (closed : ∀ p ∈ seen, ∀ q, R p q → q ∈ seen ∨ q ∈ new)
    (start : p ∈ seen) (course : Iterated R n p q) :
    q ∈ seen ∨ ∃ r ∈ new, ∃ k < n, Iterated R k r q := by
  induction n generalizing p with
  | zero => exact .inl (course ▸ start)
  | succ n ih =>
    obtain ⟨m, first, others⟩ := course
    rcases closed p start m first with inside | outside
    · refine (ih inside others).imp_right ?_
      rintro ⟨r, member, k, fewer, rest⟩
      exact ⟨r, member, k, Nat.lt_succ_of_lt fewer, rest⟩
    · exact .inr ⟨m, outside, n, Nat.lt_succ_self n, others⟩

/-- **What is reached in a number of rounds**, when all steps from positions before the last round
have been made. -/
theorem mem_closure (sound : Steps R step) (newest : ∀ p ∈ frontier, p ∈ seen)
    (closed : ∀ p ∈ seen, p ∉ frontier → ∀ q, R p q → q ∈ seen) :
    q ∈ closure step n seen frontier ↔ q ∈ seen ∨ ∃ p ∈ frontier, ∃ k ≤ n, Iterated R k p q := by
  induction n generalizing seen frontier with
  | zero =>
    refine ⟨.inl, fun reached => reached.elim id ?_⟩
    rintro ⟨p, member, k, none, course⟩
    obtain rfl := Nat.le_zero.mp none
    exact course ▸ newest p member
  | succ n ih =>
    rw [closure]
    let new := (step frontier).filter fun p => !seen.contains p
    have mem_new (q : Nat) : q ∈ new ↔ (∃ p ∈ frontier, R p q) ∧ q ∉ seen := by
      simp [new, sound frontier]
    have onward : ∀ p ∈ seen, ∀ q, R p q → q ∈ seen ∨ q ∈ new := by
      intro p member q first
      by_cases known : q ∈ seen
      · exact .inl known
      · by_cases last : p ∈ frontier
        · exact .inr ((mem_new q).mpr ⟨⟨p, last, first⟩, known⟩)
        · exact .inl (closed p member last q first)
    have reached : q ∈ seen ∨ (∃ p ∈ frontier, ∃ k ≤ n + 1, Iterated R k p q) ↔
        q ∈ seen ∨ ∃ r ∈ new, ∃ k ≤ n, Iterated R k r q := by
      constructor
      · rintro (known | ⟨p, member, k, few, course⟩)
        · exact .inl known
        · refine (leaves_through onward (newest p member) course).imp_right ?_
          rintro ⟨r, fresh, j, fewer, rest⟩
          exact ⟨r, fresh, j, by omega, rest⟩
      · refine Or.imp_right ?_
        rintro ⟨r, fresh, k, few, rest⟩
        obtain ⟨⟨p, member, first⟩, -⟩ := (mem_new r).mp fresh
        exact ⟨p, member, k + 1, Nat.succ_le_succ few, r, first, rest⟩
    rw [reached]
    show q ∈ (if new.isEmpty then seen else closure step n (seen ++ new) new) ↔ _
    split_ifs with nothing
    · simp [List.isEmpty_iff.mp nothing]
    · rw [ih (fun p fresh => List.mem_append_right seen fresh)]
      · rw [List.mem_append, or_assoc]
        refine or_congr_right ⟨fun found => found.elim ?_ id, .inr⟩
        exact fun fresh => ⟨q, fresh, 0, Nat.zero_le n, rfl⟩
      · intro p member notNew q first
        have old : p ∈ seen := (List.mem_append.mp member).resolve_right notNew
        exact List.mem_append.mpr (onward p old q first)

/-! ### The matcher -/

/-- A match does not end before it begins, and not behind the text unless it begins there. -/
theorem Spans.bounds {r : Regex} (found : Spans text r p q) : p ≤ q ∧ (q ≤ text.size ∨ q = p) := by
  induction r generalizing p q with
  | empty => exact ⟨Nat.le_of_eq found.symm, .inr found⟩
  | set s =>
    obtain ⟨⟨c, within, -⟩, rfl⟩ := found
    obtain ⟨inside, -⟩ := Array.getElem?_eq_some_iff.mp within
    exact ⟨Nat.le_succ p, .inl inside⟩
  | anchor a => exact ⟨Nat.le_of_eq found.2.symm, .inr found.2⟩
  | seq a b iha ihb =>
    obtain ⟨m, first, second⟩ := found
    have := iha first
    have := ihb second
    omega
  | alt a b iha ihb => exact found.elim iha ihb
  | rep a min max ih =>
    obtain ⟨n, -, -, course⟩ := found
    induction n generalizing p with
    | zero => exact ⟨Nat.le_of_eq course.symm, .inr course⟩
    | succ n rest =>
      obtain ⟨m, first, others⟩ := course
      have := ih first
      have := rest others
      omega

/-- As many rounds as the text has characters are enough for any number of steps. -/
theorem Iterated.within {a : Regex} (course : Iterated (Spans text a) n p q) :
    ∃ k ≤ n, k ≤ text.size ∧ Iterated (Spans text a) k p q := by
  have ends : p ≤ q ∧ (q ≤ text.size ∨ q = p) :=
    Spans.bounds (r := .rep a n (some n)) ⟨n, le_rfl, by simp, course⟩
  obtain ⟨-, k, fewer, short, course⟩ := course.shorten fun p q found => found.bounds.1
  exact ⟨k, fewer, by omega, course⟩

/-- A repetition is matched as its expression is: the least number of rounds, and then all further
ones that may be made and lead on. -/
theorem mem_advance_rep {a : Regex}
    (found : ∀ ps q, q ∈ advance text a ps ↔ ∃ p ∈ ps, Spans text a p q) (min : Nat)
    (max : Option Nat) :
    q ∈ advance text (.rep a min max) ps ↔ ∃ p ∈ ps, Spans text (.rep a min max) p q := by
  have sound : Steps (Spans text a) fun qs => (advance text a qs).eraseDups := by
    intro ps q
    rw [List.mem_eraseDups, found]
  simp only [advance, Spans]
  rw [mem_closure sound (fun _ member => member) fun p member fresh => absurd member fresh]
  simp only [mem_iterate sound]
  constructor
  · rintro (⟨p, member, least⟩ | ⟨m, ⟨p, member, least⟩, k, few, others⟩)
    · exact ⟨p, member, min, le_rfl, fun m _ => Nat.le_max_left min m, least⟩
    · refine ⟨p, member, min + k, Nat.le_add_right min k, ?_, iterated_add.mpr ⟨m, least, others⟩⟩
      rintro bound rfl
      have : k ≤ bound - min := Nat.le_trans few (Nat.min_le_left _ _)
      grind
  · rintro ⟨p, member, n, enough, bounded, course⟩
    obtain ⟨k, rfl⟩ := Nat.exists_eq_add_of_le enough
    obtain ⟨m, least, others⟩ := iterated_add.mp course
    obtain ⟨j, fewer, short, others⟩ := others.within
    refine .inr ⟨m, ⟨p, member, least⟩, j, ?_, others⟩
    cases max with
    | none => exact Nat.le_succ_of_le short
    | some bound =>
      have := bounded bound rfl
      exact Nat.le_min.mpr ⟨by grind, Nat.le_succ_of_le short⟩

/-- **The matcher finds exactly the ends of the matches** that begin at the given positions. -/
theorem mem_advance (r : Regex) : q ∈ advance text r ps ↔ ∃ p ∈ ps, Spans text r p q := by
  induction r generalizing ps q with
  | empty => simp [advance, Spans]
  | set s =>
    simp only [advance, Spans, List.mem_filterMap, Option.ite_none_right_eq_some, Option.some.injEq,
      Option.any_eq_true, @eq_comm _ _ q]
  | anchor a =>
    simp only [advance, Spans, List.mem_filter]
    constructor
    · rintro ⟨member, holds⟩
      exact ⟨q, member, holds, rfl⟩
    · rintro ⟨p, member, holds, rfl⟩
      exact ⟨member, holds⟩
  | seq a b iha ihb =>
    simp only [advance, Spans, iha, ihb]
    constructor
    · rintro ⟨m, ⟨p, member, first⟩, second⟩
      exact ⟨p, member, m, first, second⟩
    · rintro ⟨p, member, m, first, second⟩
      exact ⟨m, ⟨p, member, first⟩, second⟩
  | alt a b iha ihb =>
    simp only [advance, Spans, List.mem_eraseDups, List.mem_append, iha, ihb, ← exists_or,
      ← and_or_left]
  | rep a min max ih => exact mem_advance_rep (fun _ _ => ih) min max

/-- **An expression matches in a text exactly if it has a match there.** -/
theorem isMatch_iff (r : Regex) (text : List Char) :
    r.isMatch text ↔ ∃ p ≤ text.length, ∃ q, Spans text.toArray r p q := by
  simp only [isMatch, Bool.not_eq_true', List.isEmpty_eq_false_iff_exists_mem, mem_advance,
    List.mem_range, Nat.lt_succ_iff]
  exact ⟨fun ⟨q, p, start, found⟩ => ⟨p, start, q, found⟩,
    fun ⟨p, start, q, found⟩ => ⟨q, p, start, found⟩⟩

end DocQuery.Regex
