import DocQuery.Proofs.Paging.Boundaries

/-!
# Fetching the current page once more

A page that was fetched can be fetched again from where the reader stands, unless there are too few
rows by now: either the boundary in front of it is on record, or so few rows lead up to its end that
they may all be fetched. The record of boundaries has no gaps; so what has to be shown is that it is
long enough.

* `Pagination.Grounded` – the boundaries up to the current page are on record, or few rows lead up
  to its end; and a boundary behind the page is known in the first case only;
* `Grounded.commit` – **a page that is fetched leaves it so**, whatever the rows are;
* `Grounded.restore` – so does a cached page, unless its plan is to cut it from all rows up to its
  end. Such a page brings no boundaries, and the next step forward leaves a gap behind;
* `Pagination.OutOfReach` – no boundary in front of a page is on record, and too many rows lead up to
  its end; `Grounded.not_outOfReach` – this cannot be said of the pages up to the current one;
* `Pagination.plan_error_iff` – **when a page up to the current one cannot be planned**: it lies
  behind the last page, or it is out of reach.
-/

namespace DocQuery

namespace Pagination

variable {p : Pagination} {page limit : Nat} {pages : Option Nat} {plan : PagePlan} {v : Value}

/-! ### The length of the record -/

/-- A boundary that is not behind a gap is on record. -/
theorem le_length_record (hpage : 1 ≤ page) (h : page ≤ p.previous.length + 1) :
    page ≤ (p.record page v).previous.length := by
  rw [record]
  split
  case isTrue hlt =>
    simp only [List.length_set]
    omega
  case isFalse hge =>
    rw [if_pos (by omega)]
    simp only [List.length_append, List.length_singleton]
    omega

/-- So are all of consecutive boundaries. -/
theorem le_length_recordAll {vs : List Value} (hpage : 1 ≤ page)
    (h : page ≤ p.previous.length + 1) :
    page + vs.length ≤ (p.recordAll page vs).previous.length + 1 := by
  induction vs generalizing p page with
  | nil => exact h
  | cons v vs ih =>
    -- with the first boundary on record there is no gap in front of the second
    have hnext : page + 1 + vs.length ≤
        ((p.record page v).recordAll (page + 1) vs).previous.length + 1 :=
      ih (Nat.le_succ_of_le hpage) (Nat.succ_le_succ (le_length_record hpage h))
    rw [List.length_cons, recordAll]
    omega

/-- All rows up to the end of a page show all boundaries in front of it. -/
theorem le_length_recordAll_boundaries {rows : List Document} (hsize : 1 ≤ p.size)
    (hrows : page * p.size ≤ rows.length) :
    page ≤ (p.recordAll 1 (boundaries p.size (page - 1) rows)).previous.length + 1 := by
  have hfull : page ≤ rows.length / p.size := (Nat.le_div_iff_mul_le hsize).mpr hrows
  have hlength : (boundaries p.size (page - 1) rows).length = page - 1 := by
    rw [length_boundaries hsize]
    omega
  have hrecorded : 1 + (boundaries p.size (page - 1) rows).length ≤
      (p.recordAll 1 (boundaries p.size (page - 1) rows)).previous.length + 1 :=
    le_length_recordAll (Nat.le_refl 1) (Nat.le_add_left 1 _)
  omega

/-! ### Pages that can be fetched once more -/

/-- The boundaries in front of the current page are on record. -/
def Charted (p : Pagination) : Prop := p.page ≤ p.previous.length + 1

/-- **The current page can be fetched once more**: the boundaries in front of it are on record, or
so few rows lead up to its end that all of them may be fetched. A boundary behind it is known in the
first case only, unless any number of rows may be fetched. -/
structure Grounded (limit : Nat) (p : Pagination) : Prop where
  page_pos : 1 ≤ p.page
  size_pos : 1 ≤ p.size
  repeats : p.Charted ∨ min (p.page * p.size) maxWord ≤ limit
  next : p.next.isSome = true → p.Charted ∨ maxWord ≤ limit

/-- On the first page nothing has to be on record. -/
theorem grounded_of_first (hpage : p.page = 1) (hsize : 1 ≤ p.size) : p.Grounded limit := by
  have hcharted : p.Charted := by
    rw [Charted, hpage]
    exact Nat.le_add_left 1 _
  exact ⟨Nat.le_of_eq hpage.symm, hsize, Or.inl hcharted, fun _ => Or.inl hcharted⟩

/-- A reader that has gone to a page by its boundary has the boundary on record. -/
theorem Grounded.record (h : p.Grounded limit) (htwo : 2 ≤ page)
    (hv : p.previous[page - 2]? = some v ∨ page = p.page + 1 ∧ p.next = some v)
    (next : Option Value) :
    ({ ({ p with page } : Pagination).record (page - 1) v with next } : Pagination).Grounded
      limit := by
  -- a boundary on record has none missing in front of it, and neither has the one behind the page
  have hbefore : page - 1 ≤ p.previous.length + 1 ∨ maxWord ≤ limit := by
    rcases hv with hv | ⟨hpage, hnext⟩
    · have hlt := (List.getElem?_eq_some_iff.mp hv).1
      exact Or.inl (by omega)
    · have hcharted := h.next (by rw [hnext]; rfl)
      rw [Charted] at hcharted
      exact hcharted.imp_left fun hle => by omega
  have hpage : (({ p with page } : Pagination).record (page - 1) v).page = page := record_page
  have hsize : (({ p with page } : Pagination).record (page - 1) v).size = p.size := record_size
  have hcharted : ({ ({ p with page } : Pagination).record (page - 1) v with next } :
      Pagination).Charted ∨ maxWord ≤ limit := by
    refine hbefore.imp_left fun hle => ?_
    have hrecorded := le_length_record (p := { p with page }) (v := v) (by omega) hle
    rw [Charted]
    dsimp only
    omega
  refine ⟨?_, ?_, ?_, fun _ => hcharted⟩
  · dsimp only
    omega
  · dsimp only
    rw [hsize]
    exact h.size_pos
  · exact hcharted.imp_right fun hle => Nat.le_trans (Nat.min_le_right _ _) hle

/-- A reader that has cut a page from all rows up to its end has all boundaries on record, if the
page is full. -/
theorem charted_of_overfetch (hsize : 1 ≤ p.size) (htwo : 2 ≤ page)
    (hplan : plan = ⟨page, .overfetch (min (page * p.size) maxWord)
      ((page - 1) * p.size % 2 ^ 64), true⟩) (hlimit : page * p.size ≤ maxWord)
    {fetched : List Document} (hfull : p.size ≤ (rowsOf plan fetched).length) :
    (p.commit plan fetched).1.Charted := by
  subst hplan
  have hend : page * p.size = (page - 1) * p.size + p.size := by
    rw [← Nat.succ_mul, show (page - 1).succ = page by omega]
  rw [maxWord] at hlimit
  have hskip : (page - 1) * p.size % 2 ^ 64 = (page - 1) * p.size := Nat.mod_eq_of_lt (by omega)
  rw [rowsOf, hskip, List.length_drop] at hfull
  have hrows : page * p.size ≤ fetched.length := by omega
  have hrecorded := le_length_recordAll_boundaries (p := { p with page }) hsize hrows
  have hpage := commit_page (p := p) ⟨page, .overfetch (min (page * p.size) maxWord)
    ((page - 1) * p.size % 2 ^ 64), true⟩ fetched
  rw [Charted, hpage]
  exact hrecorded

/-- **A page that is fetched can be fetched once more**, whatever its rows are. -/
theorem Grounded.commit (h : p.Grounded limit) (hplan : p.plan page true pages limit = .ok plan)
    (fetched : List Document) : (p.commit plan fetched).1.Grounded limit := by
  rcases plan_keyset hplan with ⟨rfl, rfl⟩ | ⟨v, htwo, rfl, hv⟩ | ⟨htwo, hrows, hoverfetch⟩
  · exact grounded_of_first rfl h.size_pos
  · exact h.record htwo hv _
  · have hpage : (p.commit plan fetched).1.page = page := by rw [commit_page, plan_page hplan]
    have hsize : (p.commit plan fetched).1.size = p.size := commit_size plan fetched
    refine ⟨?_, ?_, Or.inr ?_, fun hnext => ?_⟩
    · omega
    · rw [hsize]
      exact h.size_pos
    · rwa [hpage, hsize]
    · -- only a full page has a boundary behind it, and its rows show all boundaries in front
      rw [commit_next] at hnext
      split at hnext
      case isTrue => cases hnext
      case isFalse hfull =>
        by_cases hword : page * p.size ≤ maxWord
        · exact Or.inl (charted_of_overfetch h.size_pos htwo hoverfetch hword (by omega))
        · exact Or.inr (by omega)

/-- **So can a cached page**, unless its plan is to cut it from all rows up to its end. -/
theorem Grounded.restore (h : p.Grounded limit) (hplan : p.plan page true pages limit = .ok plan)
    {boundary : Option Value} (hboundary : plan.strategy = .cursor boundary)
    (next : Option Value) : (p.restore plan next).Grounded limit := by
  rcases plan_keyset hplan with ⟨rfl, rfl⟩ | ⟨v, htwo, rfl, hv⟩ | ⟨htwo, hrows, rfl⟩
  · exact grounded_of_first rfl h.size_pos
  · exact h.record htwo hv next
  · cases hboundary

/-! ### Pages up to the current one -/

/-- **The page is out of reach**: no boundary in front of it is on record, and more rows lead up to
its end than may be fetched. -/
def OutOfReach (p : Pagination) (page limit : Nat) : Prop :=
  p.previous.length + 1 < page ∧ limit < min (page * p.size) maxWord

/-- What can be fetched once more is in reach, and so is what is in front of it. -/
theorem Grounded.not_outOfReach (h : p.Grounded limit) (hle : page ≤ p.page) :
    ¬p.OutOfReach page limit := by
  rintro ⟨hgap, hmany⟩
  have hend : page * p.size ≤ p.page * p.size := Nat.mul_le_mul_right p.size hle
  rcases h.repeats with hcharted | hrows
  · rw [Charted] at hcharted
    omega
  · omega

/-- Up to the current page, what is asked for is out of reach or can be fetched. -/
theorem fetch_of_le (limit : Nat) (hpos : 1 ≤ page) (hle : page ≤ p.page) :
    p.OutOfReach page limit ∧ Pagination.plan.fetch p page true limit =
        .error (.tooManyRows page (min (page * p.size) maxWord) limit) ∨
      ¬p.OutOfReach page limit ∧
        ∃ plan, Pagination.plan.fetch p page true limit = .ok plan := by
  rw [Pagination.plan.fetch, if_pos rfl]
  rcases Nat.eq_or_lt_of_le hpos with rfl | htwo
  · exact Or.inr ⟨fun hout => absurd hout.1 (by omega), _, rfl⟩
  rw [if_neg (by omega), boundary?]
  cases hrecord : p.previous[page - 2]? with
  | some v =>
    have hlt := (List.getElem?_eq_some_iff.mp hrecord).1
    exact Or.inr ⟨fun hout => absurd hout.1 (by omega), _, rfl⟩
  | none =>
    -- the page is not the one behind the current page, so it has to be cut from all rows
    have hgap := List.getElem?_eq_none_iff.mp hrecord
    dsimp only
    rw [if_neg (by omega)]
    dsimp only
    rw [overfetch]
    split
    case isTrue hmany => exact Or.inl ⟨⟨by omega, hmany⟩, rfl⟩
    case isFalse hfew => exact Or.inr ⟨fun hout => hfew hout.2, _, rfl⟩

/-- Behind the last page nothing is asked for. -/
theorem plan_of_pastEnd {keyset : Bool} {n : Nat} (hpos : 1 ≤ page) (hbehind : max n 1 < page) :
    p.plan page keyset (some n) limit = .error (.pastEnd page n) := by
  rw [Pagination.plan.eq_def, if_neg (by omega)]
  dsimp only
  rw [if_pos hbehind]

/-- A page that may exist is asked for. -/
theorem plan_eq_fetch {keyset : Bool} (hpos : 1 ≤ page)
    (hbefore : ∀ n, pages = some n → page ≤ max n 1) :
    p.plan page keyset pages limit = Pagination.plan.fetch p page keyset limit := by
  rw [Pagination.plan.eq_def, if_neg (by omega)]
  cases pages with
  | none => rfl
  | some n =>
    dsimp only
    rw [if_neg (Nat.not_lt_of_le (hbefore n rfl))]

/-- **When a page up to the current one cannot be planned**: it lies behind the last page, or it is
out of reach. -/
theorem plan_error_iff (hpos : 1 ≤ page) (hle : page ≤ p.page) {flaw : PlanFlaw} :
    p.plan page true pages limit = .error flaw ↔
      (∃ n, pages = some n ∧ max n 1 < page ∧ flaw = .pastEnd page n) ∨
        (∀ n, pages = some n → page ≤ max n 1) ∧ p.OutOfReach page limit ∧
          flaw = .tooManyRows page (min (page * p.size) maxWord) limit := by
  by_cases hpast : ∃ n, pages = some n ∧ max n 1 < page
  · obtain ⟨n, rfl, hbehind⟩ := hpast
    rw [plan_of_pastEnd hpos hbehind, Except.error.injEq]
    constructor
    · rintro rfl
      exact Or.inl ⟨n, rfl, hbehind, rfl⟩
    · rintro (⟨m, hm, -, rfl⟩ | ⟨hbefore, -, -⟩)
      · rw [Option.some.inj hm]
      · exact absurd hbehind (Nat.not_lt_of_le (hbefore n rfl))
  · have hbefore (n : Nat) (hn : pages = some n) : page ≤ max n 1 :=
      Nat.le_of_not_lt fun hbehind => hpast ⟨n, hn, hbehind⟩
    have hnot (h : ∃ n, pages = some n ∧ max n 1 < page ∧ flaw = .pastEnd page n) : False :=
      hpast (h.imp fun n hn => ⟨hn.1, hn.2.1⟩)
    rw [plan_eq_fetch hpos hbefore, or_iff_right hnot]
    rcases fetch_of_le limit hpos hle with ⟨hout, heq⟩ | ⟨hin, plan, heq⟩
    · rw [heq, Except.error.injEq]
      exact ⟨fun h => ⟨hbefore, hout, h.symm⟩, fun h => h.2.2.symm⟩
    · rw [heq]
      exact ⟨nofun, fun h => absurd h.2.1 hin⟩

/-- A page that can be planned is a page. -/
theorem page_pos_of_plan {keyset : Bool} (h : p.plan page keyset pages limit = .ok plan) :
    1 ≤ plan.page := by
  rw [plan_page h]
  exact (plan_eq_ok h).1

end Pagination

/-- Even no rows fill a page. -/
theorem one_le_pageCount (rows size : Nat) : 1 ≤ pageCount rows size := Nat.le_max_right _ 1

end DocQuery
