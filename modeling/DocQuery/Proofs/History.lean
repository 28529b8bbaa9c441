import DocQuery.History
import DocQuery.Proofs.Value.Equality
import Mathlib.Data.List.Forall2
import Mathlib.Data.List.Induction
import Mathlib.Data.List.SplitBy

/-!
# What a history remembers

What the history of a place shows can be told from the calls that were made, without going through
them one by one: take the entries recorded for this place since it was last forgotten, cut them into
maximal runs of one query, keep the newest entry of each run, and of these the newest ones up to the
limit. This works because a query is only ever compared with the newest entry that is kept, and
what the limit cuts off is never compared again.

* `HistoryEntry.sameQuery_trans` – being the same query can be chained;
* `HistoryEntry.Runs` – entries are cut into maximal runs of one query, in the only way there is
  (`HistoryEntry.runs_iff`);
* `HistoryEntry.collapse` – the newest entries of the runs (`HistoryEntry.Runs.heads`);
* `History.callAll` – the history after a sequence of calls (`History.Call`);
* `History.entries_call` – what one call does to what is shown;
* `History.entries_of_calls` – **what is shown after any sequence of calls**.
-/

namespace DocQuery

/-! ### Same queries -/

section Lists

variable {α : Type} {R : α → α → Prop} {as bs cs : List α}

/-- A comparison of two lists item by item. -/
theorem zipWith_all_iff {f : α → α → Bool} :
    (as.length == bs.length && (List.zipWith f as bs).all id) = true ↔
      List.Forall₂ (fun a b => f a b = true) as bs := by
  induction as generalizing bs with
  | nil => cases bs <;> simp
  | cons a as ih =>
    cases bs with
    | nil => simp
    | cons b bs =>
      rw [List.forall₂_cons, ← ih]
      simp [and_left_comm]

theorem forall₂_trans (trans : ∀ a b c, R a b → R b c → R a c) (h : List.Forall₂ R as bs)
    (h' : List.Forall₂ R bs cs) : List.Forall₂ R as cs := by
  induction h generalizing cs with
  | nil => exact h'
  | cons head _ ih =>
    obtain ⟨c, cs, head', rest', rfl⟩ := List.forall₂_cons_left_iff.mp h'
    exact .cons (trans _ _ _ head head') (ih rest')

end Lists

namespace ActiveFilter

theorem sameQuery_comm (f g : ActiveFilter) : f.sameQuery g = g.sameQuery f := by
  rw [sameQuery, sameQuery, Bool.beq_comm (a := f.name), Bool.beq_comm (a := f.operator)]
  exact congrArg _ (Value.same_comm f.value g.value)

theorem sameQuery_trans {f g h : ActiveFilter} (first : f.sameQuery g = true)
    (second : g.sameQuery h = true) : f.sameQuery h = true := by
  simp only [sameQuery, Bool.and_eq_true, beq_iff_eq] at first second ⊢
  obtain ⟨⟨name, operator⟩, value⟩ := first
  obtain ⟨⟨name', operator'⟩, value'⟩ := second
  exact ⟨⟨name.trans name', operator.trans operator'⟩, Value.same_trans _ _ _ value value'⟩

end ActiveFilter

namespace HistoryEntry

variable {a b c e : HistoryEntry} {es r s : List HistoryEntry} {runs : List (List HistoryEntry)}

theorem sameQuery_iff : a.sameQuery b = true ↔ a.search = b.search ∧
    List.Forall₂ (fun f g => f.sameQuery g = true) a.filters b.filters := by
  rw [← zipWith_all_iff, sameQuery, Bool.and_assoc, Bool.and_eq_true, beq_iff_eq]

theorem sameQuery_comm (a b : HistoryEntry) : a.sameQuery b = b.sameQuery a := by
  have turn {a b : HistoryEntry} (h : a.sameQuery b = true) : b.sameQuery a = true := by
    obtain ⟨search, filters⟩ := sameQuery_iff.mp h
    refine sameQuery_iff.mpr ⟨search.symm, List.Forall₂.flip (filters.imp fun f g same => ?_)⟩
    exact (ActiveFilter.sameQuery_comm g f).trans same
  exact Bool.eq_iff_iff.mpr ⟨turn, turn⟩

theorem sameQuery_trans (h : a.sameQuery b = true) (h' : b.sameQuery c = true) :
    a.sameQuery c = true := by
  obtain ⟨search, filters⟩ := sameQuery_iff.mp h
  obtain ⟨search', filters'⟩ := sameQuery_iff.mp h'
  exact sameQuery_iff.mpr ⟨search.trans search',
    forall₂_trans (fun _ _ _ => ActiveFilter.sameQuery_trans) filters filters'⟩

/-! ### Runs of one query -/

/-- Any two of the entries are the same query. -/
def OneQuery (es : List HistoryEntry) : Prop := es.Pairwise fun a b => a.sameQuery b = true

/-- Entries cut into their maximal runs of one query: two neighbouring runs are not one. -/
structure Runs (es : List HistoryEntry) (runs : List (List HistoryEntry)) : Prop where
  flatten : runs.flatten = es
  nonempty : [] ∉ runs
  oneQuery : ∀ run ∈ runs, OneQuery run
  maximal : runs.IsChain fun r s => ¬OneQuery (r ++ s)

/-- It is enough to compare neighbours. -/
theorem oneQuery_iff_isChain : OneQuery es ↔ es.IsChain fun a b => a.sameQuery b = true := by
  have : IsTrans HistoryEntry fun a b => a.sameQuery b = true := ⟨fun _ _ _ => sameQuery_trans⟩
  exact List.isChain_iff_pairwise.symm

theorem oneQuery_append_iff (hr : OneQuery r) (hs : OneQuery s) :
    OneQuery (r ++ s) ↔ ∀ a ∈ r.getLast?, ∀ b ∈ s.head?, a.sameQuery b = true := by
  rw [oneQuery_iff_isChain] at hr hs ⊢
  rw [List.isChain_append]
  exact ⟨fun h => h.2.2, fun h => ⟨hr, hs, h⟩⟩

/-- **There is one way to cut entries into runs.** -/
theorem runs_iff : Runs es runs ↔ es.splitBy sameQuery = runs := by
  have ends (nonempty : [] ∉ runs) (oneQuery : ∀ run ∈ runs, OneQuery run) :
      (runs.IsChain fun r s => ¬OneQuery (r ++ s)) ↔
        runs.IsChain fun r s => ∃ hr hs, sameQuery (r.getLast hr) (s.head hs) = false := by
    refine List.IsChain.iff_of_mem_imp fun r s hr hs => ?_
    have hr' : r ≠ [] := fun h => nonempty (h ▸ hr)
    have hs' : s ≠ [] := fun h => nonempty (h ▸ hs)
    rw [oneQuery_append_iff (oneQuery r hr) (oneQuery s hs), List.getLast?_eq_getLast_of_ne_nil hr',
      List.head?_eq_some_head hs']
    simp [hr', hs']
  rw [List.splitBy_eq_iff]
  constructor
  · rintro ⟨flatten, nonempty, oneQuery, maximal⟩
    exact ⟨flatten.symm, nonempty, fun run h => oneQuery_iff_isChain.mp (oneQuery run h),
      (ends nonempty oneQuery).mp maximal⟩
  · rintro ⟨flatten, nonempty, chains, distinct⟩
    have oneQuery : ∀ run ∈ runs, OneQuery run := fun run h => oneQuery_iff_isChain.mpr (chains run h)
    exact ⟨flatten.symm, nonempty, oneQuery, (ends nonempty oneQuery).mpr distinct⟩

/-! ### Collapsing entries -/

/-- An entry in front of others; it takes the place of the first one if that is the same query. -/
def front (e : HistoryEntry) : List HistoryEntry → List HistoryEntry
  | [] => [e]
  | latest :: rest => if latest.sameQuery e then e :: rest else e :: latest :: rest

/-- Entries without those that a later one of the same query took the place of, newest first. -/
def collapse (es : List HistoryEntry) : List HistoryEntry := es.foldr front []

@[simp] theorem collapse_nil : collapse [] = [] := rfl

@[simp]
theorem collapse_cons (e : HistoryEntry) (es : List HistoryEntry) :
    collapse (e :: es) = front e (collapse es) := rfl

/-- A run that starts with an entry of its own. -/
theorem Runs.drop_single {rs : List (List HistoryEntry)} (h : Runs (e :: es) ([e] :: rs)) :
    Runs es rs ∧ ∀ b ∈ rs.head?.bind List.head?, b.sameQuery e = false := by
  obtain ⟨flatten, nonempty, oneQuery, maximal⟩ := h
  refine ⟨⟨List.cons_injective flatten, fun h => nonempty (.tail _ h),
    fun run h => oneQuery run (.tail _ h), maximal.tail⟩, fun b hb => ?_⟩
  obtain ⟨s, hs, hb⟩ := Option.mem_bind_iff.mp hb
  have split : ¬OneQuery ([e] ++ s) := (List.isChain_cons.mp maximal).1 s hs
  have hs' : OneQuery s := oneQuery s (.tail _ (List.mem_of_mem_head? hs))
  rw [oneQuery_append_iff (List.pairwise_singleton _ _) hs'] at split
  rw [sameQuery_comm, Bool.eq_false_iff]
  refine fun same => split fun a ha b' hb' => ?_
  obtain rfl : e = a := Option.some_inj.mp ha
  obtain rfl : b = b' := Option.mem_unique hb hb'
  exact same

/-- A run without its first entry, if that is not the only one. -/
theorem Runs.drop_head {rs : List (List HistoryEntry)}
    (h : Runs (e :: es) ((e :: b :: r) :: rs)) :
    Runs es ((b :: r) :: rs) ∧ b.sameQuery e = true := by
  obtain ⟨flatten, nonempty, oneQuery, maximal⟩ := h
  have first : OneQuery (e :: b :: r) := oneQuery _ (.head _)
  have rest : OneQuery (b :: r) := first.tail
  refine ⟨⟨List.cons_injective flatten, ?_, ?_, ?_⟩, ?_⟩
  · rintro (_ | ⟨_, h⟩)
    exact nonempty (.tail _ h)
  · rintro run (_ | ⟨_, h⟩)
    exacts [rest, oneQuery run (.tail _ h)]
  · rw [List.isChain_cons] at maximal ⊢
    refine ⟨fun s hs => ?_, maximal.2⟩
    have hs' : OneQuery s := oneQuery s (.tail _ (List.mem_of_mem_head? hs))
    -- the last entry of the run stays, and only this one is compared
    have split := maximal.1 s hs
    rwa [oneQuery_append_iff first hs', List.getLast?_cons_cons, ← oneQuery_append_iff rest hs']
      at split
  · rw [sameQuery_comm]
    exact List.rel_of_pairwise_cons first (.head _)

/-- **What is left are the newest entries of the runs.** -/
theorem Runs.heads (h : Runs es runs) : runs.filterMap List.head? = collapse es := by
  induction es generalizing runs with
  | nil =>
    cases runs with
    | nil => rfl
    | cons run rs =>
      obtain rfl : run = [] := (List.append_eq_nil_iff.mp h.flatten).1
      exact absurd (.head _) h.nonempty
  | cons e es ih =>
    match runs, h with
    | [], h => cases h.flatten
    | [] :: rs, h => exact absurd (.head _) h.nonempty
    | [a] :: rs, h =>
      obtain rfl : a = e := (List.cons_eq_cons.mp h.flatten).1
      obtain ⟨rest, distinct⟩ := h.drop_single
      rw [collapse_cons, ← ih rest]
      match rs, rest with
      | [], _ => rfl
      | [] :: _, rest => exact absurd (.head _) rest.nonempty
      | (b :: s) :: rs, _ => simp [front, distinct b rfl]
    | (a :: b :: r) :: rs, h =>
      obtain rfl : a = e := (List.cons_eq_cons.mp h.flatten).1
      obtain ⟨rest, same⟩ := h.drop_head
      rw [collapse_cons, ← ih rest]
      simp [front, same]

theorem runs_heads (es : List HistoryEntry) :
    ∃ runs, (∀ cut, Runs es cut ↔ cut = runs) ∧ runs.filterMap List.head? = collapse es :=
  ⟨es.splitBy sameQuery, fun _ => runs_iff.trans eq_comm, (runs_iff.mpr rfl).heads⟩

/-- The same query is not left twice in a row. -/
theorem isChain_front (h : es.IsChain fun newer older => newer.sameQuery older = false) :
    (front e es).IsChain fun newer older => newer.sameQuery older = false := by
  cases es with
  | nil => exact List.isChain_singleton e
  | cons latest rest =>
    rw [front]
    split
    case isTrue same =>
      -- the entry is the same query as the one whose place it takes
      rw [List.isChain_cons] at h ⊢
      refine ⟨fun older ho => ?_, h.2⟩
      rw [Bool.eq_false_iff]
      exact fun same' => Bool.eq_false_iff.mp (h.1 older ho) (sameQuery_trans same same')
    case isFalse distinct =>
      refine List.isChain_cons_cons.mpr ⟨?_, h⟩
      rw [sameQuery_comm]
      exact Bool.eq_false_iff.mpr distinct

theorem isChain_collapse (es : List HistoryEntry) :
    (collapse es).IsChain fun newer older => newer.sameQuery older = false := by
  induction es with
  | nil => exact List.isChain_nil
  | cons e es ih => exact isChain_front ih

end HistoryEntry

namespace History

open HistoryEntry

/-! ### Sequences of calls -/

/-- A call that changes a history. -/
inductive Call where
  | record (place : Place) (entry : HistoryEntry)
  | clear (place : Place)

namespace Call

/-- The place that a call is about. -/
def place : Call → Place
  | record place _ => place
  | clear place => place

/-- The call forgets the place. -/
def clears (p : Place) : Call → Bool
  | record _ _ => false
  | clear place => place = p

/-- The entry that a call records for the place. -/
def entryFor? (p : Place) : Call → Option HistoryEntry
  | record place entry => if place = p then some entry else none
  | clear _ => none

end Call

variable {h : History} {limit : Nat} {place p : Place} {entry : HistoryEntry}
  {es : List HistoryEntry} {calls : List Call} {c : Call}

/-- The history after a call. -/
def call (h : History) : Call → History
  | .record place entry => h.record place entry
  | .clear place => h.clear place

/-- The history after a sequence of calls. -/
def callAll (h : History) (calls : List Call) : History := calls.foldl call h

@[simp] theorem callAll_nil (h : History) : h.callAll [] = h := rfl

@[simp]
theorem callAll_concat (h : History) (calls : List Call) (c : Call) :
    h.callAll (calls ++ [c]) = (h.callAll calls).call c := by
  rw [callAll, List.foldl_append]
  rfl

/-- The entries recorded for a place since it was last forgotten, newest first. -/
def recorded (place : Place) (calls : List Call) : List HistoryEntry :=
  (calls.reverse.takeWhile fun c => !c.clears place).filterMap (Call.entryFor? place)

@[simp] theorem recorded_nil (place : Place) : recorded place [] = [] := rfl

/-- What a call adds to the entries recorded for a place, or takes from them. -/
theorem recorded_concat (place : Place) (calls : List Call) (c : Call) :
    recorded place (calls ++ [c]) =
      if c.clears place then []
      else (c.entryFor? place).toList ++ recorded place calls := by
  rw [recorded, List.reverse_concat, List.takeWhile_cons]
  cases clears : c.clears place with
  | true => rfl
  | false =>
    simp only [Bool.not_false, if_true, List.filterMap_cons, recorded]
    cases c.entryFor? place <;> rfl

/-- A call about another place adds and takes nothing. -/
theorem recorded_concat_of_ne (hc : c.place ≠ place) :
    recorded place (calls ++ [c]) = recorded place calls := by
  rw [recorded_concat]
  cases c with
  | record p e => simp [Call.clears, Call.entryFor?, show p ≠ place from hc]
  | clear p => simp [Call.clears, Call.entryFor?, show p ≠ place from hc]

/-- Calls about other places do not matter. -/
theorem recorded_filter (place : Place) (calls : List Call) :
    recorded place (calls.filter fun c => c.place = place) = recorded place calls := by
  induction calls using List.reverseRecOn with
  | nil => rfl
  | append_singleton calls c ih =>
    rw [List.filter_append]
    by_cases hc : c.place = place
    · rw [List.filter_cons_of_pos (by simpa using hc), List.filter_nil, recorded_concat,
        recorded_concat, ih]
    · rw [List.filter_cons_of_neg (by simpa using hc), List.filter_nil, List.append_nil,
        recorded_concat_of_ne hc, ih]

/-! ### What is shown -/

@[simp]
theorem entries_empty (limit : Nat) (place : Place) : (empty limit).entries place = [] := rfl

@[simp]
theorem entries_clear (h : History) (place p : Place) :
    (h.clear place).entries p = if p = place then [] else h.entries p := by
  have keep : ∀ e : Place × List HistoryEntry, (e.1 ≠ place ∧ e.1 = p ↔ p ≠ place ∧ e.1 = p) := by
    rintro ⟨q, es⟩
    exact ⟨fun ⟨hq, h⟩ => ⟨h ▸ hq, h⟩, fun ⟨hp, h⟩ => ⟨h.trans_ne hp, h⟩⟩
  simp only [entries, clear, List.find?_filter]
  split
  case isTrue hp =>
    have none_left : h.places.find? (fun _ => false) = none := List.find?_eq_none.mpr (by simp)
    simp [hp, none_left]
  case isFalse hp => simp [keep, hp]

@[simp]
theorem entries_record (h : History) (place p : Place) (entry : HistoryEntry) :
    (h.record place entry).entries p =
      if p = place then push h.limit entry (h.entries place) else h.entries p := by
  by_cases hp : place = p
  · subst hp
    simp [entries, record]
  · have others := entries_clear h place p
    rw [if_neg (Ne.symm hp)] at others ⊢
    rw [← others]
    simp [entries, record, hp]

@[simp]
theorem limit_callAll (h : History) (calls : List Call) : (h.callAll calls).limit = h.limit := by
  induction calls using List.reverseRecOn with
  | nil => rfl
  | append_singleton calls c ih =>
    rw [callAll_concat, ← ih]
    cases c <;> rfl

/-- **What the limit cuts off makes no difference to what a new entry does.** Only the newest entry
is compared, and the limit leaves at least that. -/
theorem push_take (hl : 1 ≤ limit) (entry : HistoryEntry) (es : List HistoryEntry) :
    push limit entry (es.take limit) = (front entry es).take limit := by
  obtain ⟨l, rfl⟩ : ∃ l, limit = l + 1 := ⟨limit - 1, by omega⟩
  cases es with
  | nil => simp [push, front]
  | cons latest rest =>
    rw [List.take_succ_cons, push, front]
    split
    · rfl
    · have cut : (latest :: rest.take l).take l = (latest :: rest).take l := by
        rw [← List.take_succ_cons, List.take_take, Nat.min_eq_left l.le_succ]
      rw [List.take_succ_cons, cut, List.take_succ_cons]

/-- **What is shown after a call**, if before it the newest of the entries without repetition were
shown. -/
theorem entries_call (hl : 1 ≤ h.limit)
    (shown : h.entries place = (collapse (recorded place calls)).take h.limit) (c : Call) :
    (h.call c).entries place = (collapse (recorded place (calls ++ [c]))).take h.limit := by
  by_cases hc : c.place = place
  · rw [recorded_concat]
    cases c with
    | record p e =>
      obtain rfl : p = place := hc
      simp [call, Call.clears, Call.entryFor?, shown, push_take hl]
    | clear p =>
      obtain rfl : p = place := hc
      simp [call, Call.clears]
  · rw [recorded_concat_of_ne hc, ← shown]
    cases c with
    | record p e => simp [call, show place ≠ p from Ne.symm hc]
    | clear p => simp [call, show place ≠ p from Ne.symm hc]

theorem entries_callAll (limit : Nat) (calls : List Call) (place : Place) :
    ((empty limit).callAll calls).entries place =
      (collapse (recorded place calls)).take (max limit 1) := by
  induction calls using List.reverseRecOn with
  | nil => simp
  | append_singleton calls c ih =>
    have kept : ((empty limit).callAll calls).limit = max limit 1 := limit_callAll _ _
    rw [callAll_concat, ← kept]
    rw [← kept] at ih
    exact entries_call (by omega) ih c

/-- **What a history shows after any sequence of calls.** For each place it is the newest entries up
to the limit, from those recorded since the place was last forgotten, where of each maximal run of
one query only the newest one is kept. So no query is shown twice in a row, and the calls about other
places might as well not have been made. -/
theorem entries_of_calls (limit : Nat) (calls : List Call) (place : Place) :
    (∃ runs, (∀ cut, Runs (recorded place calls) cut ↔ cut = runs) ∧
      ((empty limit).callAll calls).entries place =
        (runs.filterMap List.head?).take (max limit 1)) ∧
    (((empty limit).callAll calls).entries place).IsChain
      (fun newer older => newer.sameQuery older = false) ∧
    ((empty limit).callAll (calls.filter fun c => c.place = place)).entries place =
      ((empty limit).callAll calls).entries place := by
  simp only [entries_callAll, recorded_filter]
  obtain ⟨runs, only, heads⟩ := runs_heads (recorded place calls)
  exact ⟨⟨runs, only, by rw [heads]⟩, (isChain_collapse _).take _, trivial⟩

end History

end DocQuery
