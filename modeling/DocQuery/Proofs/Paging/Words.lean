import DocQuery.Proofs.Paging.Boundaries

/-!
# Planning with words

Pages, sizes and limits are words of 64 bits, and so are all numbers that come up in between. Here
planning is written down once more, operation by operation, over any arithmetic of words. With one
that wraps around it is `Pagination.plan`, and with one that gives up it tells whether a sum, a
difference or a product on the way is no word.

* `WordArithmetic` – what is done with a result that is no word: `WordArithmetic.wrapping` and
  `WordArithmetic.checked`;
* `Pagination.planWith` – planning over an arithmetic, and `Pagination.planWith_wrapping`, that the
  arithmetic that wraps around gives `Pagination.plan`;
* `Pagination.FallsBack` – the pages that are cut from all rows up to their end;
* `Pagination.planWith_checked` – when nothing on the way overflows;
* `Pagination.plan_exact_iff` – **when planning is exact**. The number of rows up to the end of a
  page is held down to the greatest word, and a limit below it refuses what was held down. The
  greatest word itself is a limit that refuses nothing.
-/

namespace DocQuery

/-- Arithmetic with words of 64 bits, and what it does with a result that is no word. -/
structure WordArithmetic (m : Type → Type) where
  add : Nat → Nat → m Nat
  sub : Nat → Nat → m Nat
  mul : Nat → Nat → m Nat

namespace WordArithmetic

/-- A result that is no word wraps around. -/
def wrapping : WordArithmetic Id where
  add a b := (a + b) % 2 ^ 64
  sub a b := (a + (2 ^ 64 - b)) % 2 ^ 64
  mul a b := a * b % 2 ^ 64

/-- There is no result unless it is a word. -/
def checked : WordArithmetic Option where
  add a b := if a + b ≤ maxWord then some (a + b) else none
  sub a b := if b ≤ a then some (a - b) else none
  mul a b := if a * b ≤ maxWord then some (a * b) else none

variable {a b : Nat}

theorem checked_add (h : a + b ≤ maxWord) : checked.add a b = some (a + b) := if_pos h

theorem checked_sub (h : b ≤ a) : checked.sub a b = some (a - b) := if_pos h

theorem wrapping_sub (hb : b ≤ a) (ha : a ≤ maxWord) : wrapping.sub a b = pure (a - b) := by
  have hsum : a + (2 ^ 64 - b) = a - b + 2 ^ 64 := by
    rw [maxWord] at ha
    omega
  have hword : a - b < 2 ^ 64 := by
    rw [maxWord] at ha
    omega
  change (a + (2 ^ 64 - b)) % 2 ^ 64 = a - b
  rw [hsum, Nat.add_mod_right, Nat.mod_eq_of_lt hword]

end WordArithmetic

open WordArithmetic

namespace Pagination

/-! ### Planning over an arithmetic -/

section Planning

variable {m : Type → Type} [Monad m] (ops : WordArithmetic m) (p : Pagination) (page : Nat)

/-- The boundary in front of a page other than the first. -/
def boundaryWith : m (Except PlanFlaw (Option Value)) := do
  let i ← ops.sub page 2
  match p.previous[i]? with
  | some v => return .ok (some v)
  | none =>
    let behind ← ops.add p.page 1
    if page = behind then
      match p.next with
      | some v => return .ok (some v)
      | none => return .error .noMore
    else return .ok none

variable (keyset : Bool)

/-- The plan that cuts a page from all rows up to its end. The product that is held down to the
greatest word is one in every arithmetic. -/
def overfetchWith (limit : Nat) : m (Except PlanFlaw PagePlan) :=
  let topK := min (page * p.size) maxWord
  if limit < topK then return .error (.tooManyRows page topK limit)
  else do
    let before ← ops.sub page 1
    let skip ← ops.mul before p.size
    return .ok ⟨page, .overfetch topK skip, keyset⟩

/-- The plan for a page that may exist. -/
def fetchWith (limit : Nat) : m (Except PlanFlaw PagePlan) :=
  if keyset then
    if page = 1 then return .ok ⟨page, .cursor none, true⟩
    else do
      match ← p.boundaryWith ops page with
      | .error flaw => return .error flaw
      | .ok (some v) => return .ok ⟨page, .cursor (some v), true⟩
      | .ok none => p.overfetchWith ops page keyset limit
  else p.overfetchWith ops page keyset limit

/-- **How a page is to be fetched**, every operation on words being one of the arithmetic. -/
def planWith (pages : Option Nat) (limit : Nat) : m (Except PlanFlaw PagePlan) :=
  if page = 0 then return .error .pageZero
  else match pages with
    | some n =>
      if max n 1 < page then return .error (.pastEnd page n) else p.fetchWith ops page keyset limit
    | none => p.fetchWith ops page keyset limit

end Planning

variable {p : Pagination} {page limit : Nat} {keyset : Bool} {pages : Option Nat}

/-! ### Pages behind no known boundary -/

/-- No boundary shows where the page begins: the order is another one, or the page is neither the
first one nor behind a boundary on record nor behind the current page. -/
def Unmarked (p : Pagination) (page : Nat) (keyset : Bool) : Prop :=
  keyset = true → page ≠ 1 ∧ p.previous.length + 2 ≤ page ∧ page ≠ p.page + 1

/-- **The page is cut from all rows up to its end**, if so many may be fetched: as far as is known
it exists, and no boundary shows where it begins. -/
structure FallsBack (p : Pagination) (page : Nat) (keyset : Bool) (pages : Option Nat) : Prop where
  pos : 1 ≤ page
  inside : ∀ n ∈ pages, page ≤ max n 1
  unmarked : p.Unmarked page keyset

theorem boundary?_eq_ok_none_iff (htwo : 2 ≤ page) :
    p.boundary? page = .ok none ↔ p.previous.length + 2 ≤ page ∧ page ≠ p.page + 1 := by
  have hrecord : p.previous[page - 2]? = none ↔ p.previous.length + 2 ≤ page := by
    rw [List.getElem?_eq_none_iff]
    omega
  rw [boundary?]
  split
  case h_1 hv =>
    rw [← hrecord, hv]
    simp
  case h_2 hnone =>
    rw [← hrecord]
    split
    case isTrue hpage =>
      split <;> simp [hpage]
    case isFalse hpage => simp [hnone, hpage]

section Operations

variable {m : Type → Type} [Monad m] {ops : WordArithmetic m}

/-- The arithmetic finds the places around the page: the one in front of it, that of its boundary on
record, and whether it is behind the current page. -/
structure Places (ops : WordArithmetic m) (p : Pagination) (page : Nat) : Prop where
  before : 1 ≤ page → ops.sub page 1 = pure (page - 1)
  record : 2 ≤ page → ops.sub page 2 = pure (page - 2)
  behind : ∃ n, ops.add p.page 1 = pure n ∧ (page = n ↔ page = p.page + 1)

variable [LawfulMonad m]

theorem boundaryWith_eq (h : Places ops p page) (htwo : 2 ≤ page) :
    p.boundaryWith ops page = pure (p.boundary? page) := by
  obtain ⟨n, hadd, hn⟩ := h.behind
  rw [boundaryWith, h.record htwo, pure_bind, boundary?]
  cases p.previous[page - 2]? with
  | some v => rfl
  | none =>
    simp only [hadd, pure_bind, hn]
    split
    · cases p.next <;> rfl
    · rfl

theorem overfetchWith_eq (h : Places ops p page) (hpos : 1 ≤ page)
    (hmul : min (page * p.size) maxWord ≤ limit →
      ops.mul (page - 1) p.size = pure ((page - 1) * p.size % 2 ^ 64)) :
    p.overfetchWith ops page keyset limit = pure (p.overfetch page keyset limit) := by
  rw [overfetchWith, overfetch, h.before hpos, pure_bind]
  split
  case isTrue => rfl
  case isFalse hrows =>
    rw [hmul (Nat.not_lt.mp hrows), pure_bind]

/-- **Arithmetic matters only where the page is cut** from all rows up to its end. There it is what
is planned, and elsewhere what is planned is a boundary or a flaw, whatever the arithmetic. -/
def MattersIf (cut : Prop) (ops : WordArithmetic m) (p : Pagination) (page : Nat) (keyset : Bool)
    (limit : Nat) (planned : m (Except PlanFlaw PagePlan)) (r : Except PlanFlaw PagePlan) : Prop :=
  cut ∧ planned = p.overfetchWith ops page keyset limit ∧ r = p.overfetch page keyset limit ∨
    ¬cut ∧ planned = pure r ∧ ∀ plan, r = .ok plan → ∃ boundary, plan.strategy = .cursor boundary

theorem fetchWith_mattersIf (h : Places ops p page) (hpos : 1 ≤ page) :
    MattersIf (p.Unmarked page keyset) ops p page keyset limit
      (p.fetchWith ops page keyset limit) (plan.fetch p page keyset limit) := by
  cases keyset with
  | false => exact Or.inl ⟨fun hkeyset => (Bool.false_ne_true hkeyset).elim, rfl, rfl⟩
  | true =>
    rw [fetchWith, plan.fetch, if_pos rfl, if_pos rfl]
    by_cases hfirst : page = 1
    · rw [if_pos hfirst, if_pos hfirst]
      refine Or.inr ⟨fun hunmarked => (hunmarked rfl).1 hfirst, rfl, ?_⟩
      rintro plan ⟨⟩
      exact ⟨none, rfl⟩
    · have htwo : 2 ≤ page := by omega
      have hnone := boundary?_eq_ok_none_iff (p := p) htwo
      rw [if_neg hfirst, if_neg hfirst, boundaryWith_eq h htwo, pure_bind]
      cases hboundary : p.boundary? page with
      | error flaw =>
        refine Or.inr ⟨fun hunmarked => ?_, rfl, by rintro plan ⟨⟩⟩
        rw [hnone.mpr (hunmarked rfl).2] at hboundary
        cases hboundary
      | ok boundary =>
        cases boundary with
        | none => exact Or.inl ⟨fun _ => ⟨hfirst, hnone.mp hboundary⟩, rfl, rfl⟩
        | some v =>
          refine Or.inr ⟨fun hunmarked => ?_, rfl, ?_⟩
          · rw [hnone.mpr (hunmarked rfl).2] at hboundary
            cases hboundary
          · rintro plan ⟨⟩
            exact ⟨some v, rfl⟩

theorem planWith_mattersIf (h : Places ops p page) (keyset : Bool) (pages : Option Nat)
    (limit : Nat) :
    MattersIf (p.FallsBack page keyset pages) ops p page keyset limit
      (p.planWith ops page keyset pages limit) (p.plan page keyset pages limit) := by
  by_cases hzero : page = 0
  · rw [planWith.eq_def, Pagination.plan.eq_def, if_pos hzero, if_pos hzero]
    exact Or.inr ⟨fun hback => absurd hback.pos (by omega), rfl, by rintro plan ⟨⟩⟩
  · have hpos : 1 ≤ page := Nat.pos_of_ne_zero hzero
    -- a page that may exist is fetched
    have hfetched (hinside : ∀ n ∈ pages, page ≤ max n 1) :
        MattersIf (p.FallsBack page keyset pages) ops p page keyset limit
          (p.fetchWith ops page keyset limit) (plan.fetch p page keyset limit) := by
      rcases fetchWith_mattersIf h hpos with ⟨hunmarked, hcut⟩ | ⟨hmarked, hknown⟩
      · exact Or.inl ⟨⟨hpos, hinside, hunmarked⟩, hcut⟩
      · exact Or.inr ⟨fun hback => hmarked hback.unmarked, hknown⟩
    rw [planWith.eq_def, Pagination.plan.eq_def, if_neg hzero, if_neg hzero]
    cases pages with
    | none => exact hfetched (by simp)
    | some n =>
      dsimp only
      by_cases hend : max n 1 < page
      · rw [if_pos hend, if_pos hend]
        exact Or.inr ⟨fun hback => Nat.not_lt.mpr (hback.inside n rfl) hend, rfl,
          by rintro plan ⟨⟩⟩
      · rw [if_neg hend, if_neg hend]
        refine hfetched fun k hk => ?_
        rw [← Option.mem_some.mp hk]
        exact Nat.not_lt.mp hend

end Operations

/-! ### Words that wrap around -/

/-- Behind the last page of all there is none, also if its number wraps around. -/
theorem places_wrapping (hpage : page ≤ maxWord) (hcurrent : p.page ≤ maxWord) (hpos : 1 ≤ page) :
    Places wrapping p page := by
  refine ⟨fun hle => wrapping_sub hle hpage, fun hle => wrapping_sub hle hpage,
    (p.page + 1) % 2 ^ 64, rfl, ?_⟩
  rw [maxWord] at hpage hcurrent
  omega

/-- **Planning is planning with words that wrap around.** -/
theorem planWith_wrapping (hpage : page ≤ maxWord) (hcurrent : p.page ≤ maxWord) :
    p.planWith wrapping page keyset pages limit = pure (p.plan page keyset pages limit) := by
  rcases Nat.eq_zero_or_pos page with rfl | hpos
  · rfl
  · have hplaces := places_wrapping hpage hcurrent hpos
    rcases planWith_mattersIf hplaces keyset pages limit with ⟨-, hwith, hplan⟩ | ⟨-, hwith, -⟩
    · rw [hwith, hplan, overfetchWith_eq hplaces hpos fun _ => rfl]
    · exact hwith

/-! ### Overflow -/

theorem places_checked (page : Nat) (hcurrent : p.page < maxWord) : Places checked p page :=
  ⟨checked_sub, checked_sub, p.page + 1, checked_add hcurrent, Iff.rfl⟩

theorem plan_of_fallsBack (hcurrent : p.page < maxWord) (hback : p.FallsBack page keyset pages) :
    p.plan page keyset pages limit = p.overfetch page keyset limit := by
  rcases planWith_mattersIf (places_checked page hcurrent) keyset pages limit with
    ⟨-, -, hcut⟩ | ⟨hnot, -⟩
  · exact hcut
  · exact absurd hback hnot

/-- Cutting a page overflows only if any number of rows may be fetched. -/
theorem overfetchWith_checked (keyset : Bool) (hcurrent : p.page < maxWord) (hpos : 1 ≤ page)
    (hlimit : limit ≤ maxWord) :
    (limit = maxWord ∧ maxWord < (page - 1) * p.size ∧
        p.overfetchWith checked page keyset limit = none) ∨
      ¬(limit = maxWord ∧ maxWord < (page - 1) * p.size) ∧
        p.overfetchWith checked page keyset limit = some (p.overfetch page keyset limit) := by
  have hplaces := places_checked page hcurrent
  have hend : (page - 1) * p.size ≤ page * p.size := Nat.mul_le_mul_right p.size (Nat.sub_le page 1)
  by_cases hover : limit = maxWord ∧ maxWord < (page - 1) * p.size
  · refine Or.inl ⟨hover.1, hover.2, ?_⟩
    have hmul : checked.mul (page - 1) p.size = none := if_neg (Nat.not_le.mpr hover.2)
    rw [overfetchWith, hplaces.before hpos, pure_bind, hmul]
    exact if_neg (by omega)
  · refine Or.inr ⟨hover, overfetchWith_eq hplaces hpos fun hrows => ?_⟩
    -- below the greatest limit, what was not refused was not held down either
    have hskip : (page - 1) * p.size ≤ maxWord := by omega
    have hword : (page - 1) * p.size < 2 ^ 64 := by
      rw [maxWord] at hskip
      omega
    rw [Nat.mod_eq_of_lt hword]
    exact if_pos hskip

/-- **When planning overflows**: not unless any number of rows may be fetched. -/
theorem planWith_checked (page : Nat) (keyset : Bool) (pages : Option Nat)
    (hcurrent : p.page < maxWord) (hlimit : limit ≤ maxWord) :
    (p.FallsBack page keyset pages ∧ limit = maxWord ∧ maxWord < (page - 1) * p.size ∧
        p.planWith checked page keyset pages limit = none) ∨
      ¬(p.FallsBack page keyset pages ∧ limit = maxWord ∧ maxWord < (page - 1) * p.size) ∧
        p.planWith checked page keyset pages limit = some (p.plan page keyset pages limit) := by
  rcases planWith_mattersIf (places_checked page hcurrent) keyset pages limit with
    ⟨hback, hwith, hplan⟩ | ⟨hback, hwith, -⟩
  · rw [hwith, hplan]
    rcases overfetchWith_checked keyset hcurrent hback.pos hlimit with
      ⟨hany, hskip, hnone⟩ | ⟨hover, hsome⟩
    · exact Or.inl ⟨hback, hany, hskip, hnone⟩
    · exact Or.inr ⟨fun h => hover h.2, hsome⟩
  · exact Or.inr ⟨fun h => hback h.1, hwith⟩

/-! ### Exact plans -/

/-- **The plan cuts the page exactly**, if it cuts it at all: from the rows up to the end of the
page, which are not more than may be fetched, and so that one page of them is left. -/
def CutsExactly (page size limit : Nat) (plan : PagePlan) : Prop :=
  ∀ topK skip, plan.strategy = .overfetch topK skip →
    topK = page * size ∧ topK ≤ limit ∧ skip + size = topK

/-- A page is cut exactly if the number of rows up to its end is a word. -/
theorem overfetch_cutsExactly (hpos : 1 ≤ page) (hword : page * p.size ≤ maxWord) {plan : PagePlan}
    (h : p.overfetch page keyset limit = .ok plan) : CutsExactly page p.size limit plan := by
  obtain ⟨hrows, rfl⟩ := overfetch_eq_ok h
  rintro topK skip ⟨⟩
  have hend : (page - 1) * p.size + p.size = page * p.size := by
    rw [← Nat.succ_mul, Nat.succ_eq_add_one, Nat.sub_add_cancel hpos]
  have hskip : (page - 1) * p.size < 2 ^ 64 := by
    rw [maxWord] at hword
    omega
  rw [Nat.min_eq_left hword] at hrows ⊢
  rw [Nat.mod_eq_of_lt hskip]
  exact ⟨rfl, hrows, hend⟩

/-- If it is not, and any number of rows may be fetched, a page is cut all the same. -/
theorem overfetch_not_cutsExactly (keyset : Bool) (hword : maxWord < page * p.size) :
    ∃ plan, p.overfetch page keyset maxWord = .ok plan ∧ ¬CutsExactly page p.size maxWord plan := by
  have hmin : min (page * p.size) maxWord = maxWord := Nat.min_eq_right (Nat.le_of_lt hword)
  refine ⟨_, if_neg (by omega), fun hcuts => ?_⟩
  have htopK := (hcuts _ _ rfl).1
  omega

/-- A page is cut exactly unless a number of rows that was held down passes for the limit. -/
theorem plan_cutsExactly (hcurrent : p.page < maxWord) (hlimit : limit ≤ maxWord)
    (hsafe : ¬(p.FallsBack page keyset pages ∧ limit = maxWord ∧ maxWord < page * p.size))
    {plan : PagePlan} (hplan : p.plan page keyset pages limit = .ok plan) :
    CutsExactly page p.size limit plan := by
  rcases planWith_mattersIf (places_checked page hcurrent) keyset pages limit with
    ⟨hback, -, hcut⟩ | ⟨-, -, hcursor⟩
  · rw [hcut] at hplan
    have hrows := (overfetch_eq_ok hplan).1
    -- a number of rows that is no word was held down, and the limit did not refuse it
    refine overfetch_cutsExactly hback.pos (Nat.not_lt.mp fun hmore => ?_) hplan
    exact hsafe ⟨hback, by omega, hmore⟩
  · obtain ⟨boundary, hboundary⟩ := hcursor plan hplan
    intro topK skip hstrategy
    rw [hboundary] at hstrategy
    cases hstrategy

/-- **When planning is exact.** It is planning with words that wrap around, and one of them does so
exactly if any number of rows may be fetched, the page is cut from all rows up to its end, and those
in front of it are more than a word counts. For planning to go wrong it is enough that the rows up
to its end are more; otherwise nothing wraps around, and a page that is cut is cut exactly. -/
theorem plan_exact_iff (keyset : Bool) (pages : Option Nat) (hpage : page ≤ maxWord)
    (hcurrent : p.page < maxWord) (hlimit : limit ≤ maxWord) :
    p.planWith wrapping page keyset pages limit = pure (p.plan page keyset pages limit) ∧
    (p.planWith checked page keyset pages limit = none ↔
      p.FallsBack page keyset pages ∧ limit = maxWord ∧ maxWord < (page - 1) * p.size) ∧
    (p.planWith checked page keyset pages limit = some (p.plan page keyset pages limit) ∧
        (∀ plan, p.plan page keyset pages limit = .ok plan →
          CutsExactly page p.size limit plan) ↔
      ¬(p.FallsBack page keyset pages ∧ limit = maxWord ∧ maxWord < page * p.size)) := by
  have hchecked := planWith_checked page keyset pages hcurrent hlimit
  refine ⟨planWith_wrapping hpage (Nat.le_of_lt hcurrent), ?_, ?_,
    fun hsafe => ⟨?_, fun plan hplan => plan_cutsExactly hcurrent hlimit hsafe hplan⟩⟩
  · rcases hchecked with ⟨hback, hany, hskip, hnone⟩ | ⟨hover, hsome⟩
    · exact iff_of_true hnone ⟨hback, hany, hskip⟩
    · exact iff_of_false (by simp [hsome]) hover
  · rintro ⟨-, hexact⟩ ⟨hback, rfl, hrows⟩
    obtain ⟨plan, hcut, hnot⟩ := overfetch_not_cutsExactly keyset hrows
    exact hnot (hexact plan ((plan_of_fallsBack hcurrent hback).trans hcut))
  · rcases hchecked with ⟨hback, hany, hskip, -⟩ | ⟨-, hsome⟩
    · have hend : (page - 1) * p.size ≤ page * p.size :=
        Nat.mul_le_mul_right p.size (Nat.sub_le page 1)
      exact absurd ⟨hback, hany, Nat.lt_of_lt_of_le hskip hend⟩ hsafe
    · exact hsome

/-- Any number of rows may be fetched, and those up to the end of the page are just as many as a
word can count. -/
theorem plan_exact_lastWord :
    2 ^ 32 + 1 ≤ maxWord ∧ (start (2 ^ 32 - 1)).page < maxWord ∧
      (start (2 ^ 32 - 1)).plan (2 ^ 32 + 1) false none maxWord =
        .ok ⟨2 ^ 32 + 1, .overfetch maxWord (maxWord - (2 ^ 32 - 1)), false⟩ ∧
      (start (2 ^ 32 - 1)).planWith checked (2 ^ 32 + 1) false none maxWord =
        some ((start (2 ^ 32 - 1)).plan (2 ^ 32 + 1) false none maxWord) ∧
      CutsExactly (2 ^ 32 + 1) (2 ^ 32 - 1) maxWord
        ⟨2 ^ 32 + 1, .overfetch maxWord (maxWord - (2 ^ 32 - 1)), false⟩ := by
  have hpage : 2 ^ 32 + 1 ≤ maxWord := by decide
  have hcurrent : (start (2 ^ 32 - 1)).page < maxWord := by decide
  obtain ⟨hwords, hexact⟩ := (plan_exact_iff false none hpage hcurrent
    (Nat.le_refl maxWord)).2.2.mpr fun hmore => absurd hmore.2.2 (by decide)
  exact ⟨hpage, hcurrent, rfl, hwords, hexact _ rfl⟩

/-- Two pages of `2 ^ 63` rows are more rows than a word can count, and are not refused where any
number of rows may be fetched. For the third page, the rows in front of it wrap around to none. -/
theorem plan_not_exact :
    (start (2 ^ 63)).plan 2 false none maxWord = .ok ⟨2, .overfetch maxWord (2 ^ 63), false⟩ ∧
      maxWord ≠ 2 * 2 ^ 63 ∧ 2 ^ 63 + 2 ^ 63 ≠ maxWord ∧
      (start (2 ^ 63)).plan 3 false none maxWord = .ok ⟨3, .overfetch maxWord 0, false⟩ ∧
      (start (2 ^ 63)).planWith checked 3 false none maxWord = none :=
  ⟨rfl, by decide, by decide, rfl, rfl⟩

end Pagination

end DocQuery
