import DocQuery.Paging

/-!
# Boundaries of ranked rows

A reader of pages knows ranked rows by the boundaries between their pages. Here is what that
knowledge has to be worth: a boundary that is recorded is the last id of a page, and a page that is
cut behind a boundary is the page.

* `pageOf`, `boundaryBehind` – a page of ranked rows, and the last id of a full page;
* `Pagination.plan_keyset` – everything a plan for rows ranked by id can be;
* `Pagination.Follows` – **what a reader knows is true of the ranked rows**: the invariant of all
  that follows;
* `Pagination.StandsAt` – what it knows after a step to a page;
* `Pagination.commit_standsAt`, `Pagination.restore_standsAt` – a step keeps the invariant, whether
  its rows were fetched or remembered.

Nothing here says how rows are fetched. What a plan should fetch is `PagePlan.fetched`, and that a
store fetches it is another matter.
-/

namespace DocQuery

/-! ### Pages of ranked rows -/

section Pages

variable {ranked : List Document} {size page : Nat} {v : Value}

/-- A page of ranked rows. Pages are numbered from 1, and past the last row they are empty. -/
def pageOf (ranked : List Document) (size page : Nat) : List Document :=
  (ranked.drop ((page - 1) * size)).take size

/-- The last id of a page, if the page is full. -/
def boundaryBehind (ranked : List Document) (size page : Nat) : Option Value :=
  if (pageOf ranked size page).length < size then none
  else (pageOf ranked size page).getLast?.map Document.id

/-- The boundary behind a page is the id of the row that ends it. -/
theorem boundaryBehind_eq (hsize : 1 ≤ size) (hpage : 1 ≤ page) :
    boundaryBehind ranked size page = ranked[page * size - 1]?.map Document.id := by
  obtain ⟨n, rfl⟩ : ∃ n, page = n + 1 := ⟨page - 1, by omega⟩
  have hlength : (pageOf ranked size (n + 1)).length = min size (ranked.length - n * size) := by
    rw [pageOf, List.length_take, List.length_drop, Nat.add_sub_cancel]
  have hend : (n + 1) * size = n * size + size := Nat.succ_mul n size
  rw [boundaryBehind]
  split
  · -- a page that is not full ends behind the last row
    rw [List.getElem?_eq_none (by omega), Option.map_none]
  · rw [List.getLast?_eq_getElem?, hlength, Nat.min_eq_left (by omega), pageOf,
      List.getElem?_take_of_lt (by omega), List.getElem?_drop, Nat.add_sub_cancel]
    congr 2
    omega

/-- What a plan should fetch. -/
def PagePlan.fetched (ranked : List Document) (size : Nat) (plan : PagePlan) : List Document :=
  match plan.strategy with
  | .cursor _ => pageOf ranked size plan.page
  | .overfetch topK _ => ranked.take topK

end Pages

namespace Pagination

/-! ### Plans -/

section Plans

variable {p : Pagination} {page limit : Nat} {pages : Option Nat} {plan : PagePlan}

theorem boundary?_eq_ok {v : Value} (h : p.boundary? page = .ok (some v)) :
    p.previous[page - 2]? = some v ∨ page = p.page + 1 ∧ p.next = some v := by
  rw [boundary?] at h
  split at h
  case h_1 w hw =>
    cases h
    exact Or.inl hw
  case h_2 hnone =>
    split at h
    case isTrue hpage =>
      split at h
      case h_1 w hw =>
        cases h
        exact Or.inr ⟨hpage, hw⟩
      case h_2 => cases h
    case isFalse => cases h

theorem overfetch_eq_ok {keyset : Bool} (h : p.overfetch page keyset limit = .ok plan) :
    min (page * p.size) maxWord ≤ limit ∧
      plan = ⟨page, .overfetch (min (page * p.size) maxWord) ((page - 1) * p.size % 2 ^ 64),
        keyset⟩ := by
  rw [overfetch] at h
  split at h
  case isTrue => cases h
  case isFalse hle =>
    cases h
    exact ⟨Nat.le_of_not_lt hle, rfl⟩

/-- A plan is for a page that may exist. -/
theorem plan_eq_ok {keyset : Bool} (h : p.plan page keyset pages limit = .ok plan) :
    1 ≤ page ∧ Pagination.plan.fetch p page keyset limit = .ok plan := by
  rw [Pagination.plan.eq_def] at h
  split at h
  case isTrue => cases h
  case isFalse hpage =>
    refine ⟨Nat.pos_of_ne_zero hpage, ?_⟩
    split at h
    case h_1 n =>
      split at h
      case isTrue => cases h
      case isFalse => exact h
    case h_2 => exact h

/-- **What a plan can be**, for rows ranked by id: the first page, a page behind a boundary that is
known, or a page that is cut from all rows up to its end. -/
theorem plan_keyset (h : p.plan page true pages limit = .ok plan) :
    page = 1 ∧ plan = ⟨1, .cursor none, true⟩ ∨
      (∃ v, 2 ≤ page ∧ plan = ⟨page, .cursor (some v), true⟩ ∧
        (p.previous[page - 2]? = some v ∨ page = p.page + 1 ∧ p.next = some v)) ∨
      2 ≤ page ∧ min (page * p.size) maxWord ≤ limit ∧
        plan = ⟨page, .overfetch (min (page * p.size) maxWord) ((page - 1) * p.size % 2 ^ 64),
          true⟩ := by
  obtain ⟨hpage, h⟩ := plan_eq_ok h
  rw [Pagination.plan.fetch, if_pos rfl] at h
  split at h
  case isTrue hfirst =>
    cases h
    exact Or.inl ⟨hfirst, by rw [hfirst]⟩
  case isFalse hnot =>
    have htwo : 2 ≤ page := by omega
    split at h
    case h_1 => cases h
    case h_2 v hv =>
      cases h
      exact Or.inr (Or.inl ⟨v, htwo, rfl, boundary?_eq_ok hv⟩)
    case h_3 =>
      exact Or.inr (Or.inr ⟨htwo, overfetch_eq_ok h⟩)

/-- A plan is for the page that was asked for. -/
theorem plan_page {keyset : Bool} (h : p.plan page keyset pages limit = .ok plan) :
    plan.page = page := by
  obtain ⟨-, h⟩ := plan_eq_ok h
  rw [Pagination.plan.fetch] at h
  split at h
  case isTrue =>
    split at h
    case isTrue =>
      cases h
      rfl
    case isFalse =>
      split at h
      case h_1 => cases h
      case h_2 =>
        cases h
        rfl
      case h_3 => rw [(overfetch_eq_ok h).2]
  case isFalse => rw [(overfetch_eq_ok h).2]

/-- The first page never lies behind the last one. -/
theorem plan_one (keyset : Bool) (limit : Nat) :
    p.plan 1 keyset pages limit = Pagination.plan.fetch p 1 keyset limit := by
  rw [Pagination.plan.eq_def, if_neg Nat.one_ne_zero]
  cases pages with
  | none => rfl
  | some n =>
    dsimp only
    rw [if_neg (by omega)]

/-- The plan for the first page is the same whatever is known of other pages. -/
theorem plan_one_congr {q : Pagination} {pages' : Option Nat} (hsize : p.size = q.size)
    (keyset : Bool) (limit : Nat) : p.plan 1 keyset pages limit = q.plan 1 keyset pages' limit := by
  rw [plan_one, plan_one, Pagination.plan.fetch, Pagination.plan.fetch, overfetch, overfetch, hsize]
  rfl

end Plans

/-! ### Recording boundaries -/

section Recording

variable {p : Pagination} {page i : Nat} {v w : Value}

@[simp] theorem record_page : (p.record page v).page = p.page := by
  unfold record
  dsimp only
  split
  · rfl
  · split <;> rfl

@[simp] theorem record_size : (p.record page v).size = p.size := by
  unfold record
  dsimp only
  split
  · rfl
  · split <;> rfl

/-- A boundary that is known after another was recorded was known before, or is the other one. -/
theorem previous_record (h : (p.record page v).previous[i]? = some w) :
    p.previous[i]? = some w ∨ i = page - 1 ∧ w = v := by
  unfold record at h
  dsimp only at h
  split at h
  case isTrue hlt =>
    rw [List.getElem?_set] at h
    split at h
    case isTrue heq =>
      exact Or.inr ⟨heq.symm, (Option.some.inj h).symm⟩
    case isFalse => exact Or.inl h
  case isFalse =>
    split at h
    case isTrue heq =>
      -- the boundary is appended
      rcases Nat.lt_trichotomy i p.previous.length with hi | hi | hi
      · exact Or.inl (List.getElem?_append_left hi ▸ h)
      · rw [hi, List.getElem?_concat_length] at h
        exact Or.inr ⟨hi.trans heq.symm, (Option.some.inj h).symm⟩
      · rw [List.getElem?_eq_none (by rw [List.length_append, List.length_singleton]; omega)] at h
        cases h
    case isFalse => exact Or.inl h

@[simp] theorem recordAll_page (vs : List Value) : (p.recordAll page vs).page = p.page := by
  induction vs generalizing p page with
  | nil => rfl
  | cons v vs ih => rw [recordAll, ih, record_page]

@[simp] theorem recordAll_size (vs : List Value) : (p.recordAll page vs).size = p.size := by
  induction vs generalizing p page with
  | nil => rfl
  | cons v vs ih => rw [recordAll, ih, record_size]

/-- `previous_record` for boundaries behind consecutive pages. -/
theorem previous_recordAll {vs : List Value} (hpage : 1 ≤ page)
    (h : (p.recordAll page vs).previous[i]? = some w) :
    p.previous[i]? = some w ∨ ∃ j, vs[j]? = some w ∧ i = page - 1 + j := by
  induction vs generalizing p page with
  | nil => exact Or.inl h
  | cons v vs ih =>
    rcases ih (Nat.le_succ_of_le hpage) h with h | ⟨j, hj, rfl⟩
    · rcases previous_record h with h | ⟨rfl, rfl⟩
      · exact Or.inl h
      · exact Or.inr ⟨0, rfl, rfl⟩
    · exact Or.inr ⟨j + 1, hj, by omega⟩

@[simp] theorem learn_page (plan : PagePlan) (fetched : List Document) :
    (p.learn plan fetched).page = p.page := by
  unfold learn
  split
  · rfl
  · rw [record_page]
  · split
    · rw [recordAll_page]
    · rfl

@[simp] theorem learn_size (plan : PagePlan) (fetched : List Document) :
    (p.learn plan fetched).size = p.size := by
  unfold learn
  split
  · rfl
  · rw [record_size]
  · split
    · rw [recordAll_size]
    · rfl

@[simp] theorem commit_page (plan : PagePlan) (fetched : List Document) :
    (p.commit plan fetched).1.page = plan.page :=
  learn_page plan fetched

@[simp] theorem commit_size (plan : PagePlan) (fetched : List Document) :
    (p.commit plan fetched).1.size = p.size :=
  learn_size plan fetched

/-- The boundary behind a page depends on its rows and the page size. -/
theorem commit_next (plan : PagePlan) (fetched : List Document) :
    (p.commit plan fetched).1.next = if (rowsOf plan fetched).length < p.size then none
      else (rowsOf plan fetched).getLast?.map Document.id := by
  rw [commit]
  dsimp only
  rw [learn_size]

@[simp] theorem restore_page (plan : PagePlan) (next : Option Value) :
    (p.restore plan next).page = plan.page := by
  rw [restore]
  cases plan.cursor? with
  | none => rfl
  | some v => exact record_page

@[simp] theorem restore_size (plan : PagePlan) (next : Option Value) :
    (p.restore plan next).size = p.size := by
  rw [restore]
  cases plan.cursor? with
  | none => rfl
  | some v => exact record_size

/-- Where every position has a value, none is left out. -/
theorem map_some_filterMap_range {f : Nat → Option Value} {n : Nat} (hf : ∀ i < n, (f i).isSome) :
    ((List.range n).filterMap f).map some = (List.range n).map f := by
  rw [List.map_filterMap_some_eq_filter_map_isSome, List.filter_eq_self]
  intro o ho
  obtain ⟨i, hi, rfl⟩ := List.mem_map.mp ho
  exact hf i (List.mem_range.mp hi)

/-- Where every position has a value, the values stand at their positions. -/
theorem getElem?_filterMap_range {f : Nat → Option Value} {n j : Nat}
    (hf : ∀ i < n, (f i).isSome) (h : ((List.range n).filterMap f)[j]? = some w) :
    f j = some w := by
  have hj : ((List.range n).map f)[j]? = some (some w) := by
    rw [← map_some_filterMap_range hf, List.getElem?_map, h, Option.map_some]
  rw [List.getElem?_map, Option.map_eq_some_iff] at hj
  obtain ⟨i, hi, hfi⟩ := hj
  obtain ⟨hlt, rfl⟩ := List.getElem?_eq_some_iff.mp hi
  rwa [List.getElem_range] at hfi

/-- Every boundary that is looked for ends a full page, so none is missing. -/
theorem isSome_boundary {rows : List Document} {size n i : Nat} (hsize : 1 ≤ size)
    (hi : i < min n (rows.length / size)) :
    (rows[(i + 1) * size - 1]?.map Document.id).isSome := by
  have hend : (i + 1) * size ≤ rows.length := (Nat.le_div_iff_mul_le hsize).mp (by omega)
  have hpos : size ≤ (i + 1) * size := Nat.le_mul_of_pos_left size (Nat.succ_pos i)
  rw [Option.isSome_map, List.getElem?_eq_getElem (by omega), Option.isSome_some]

theorem length_boundaries {rows : List Document} {size n : Nat} (hsize : 1 ≤ size) :
    (boundaries size n rows).length = min n (rows.length / size) := by
  have hmap : (boundaries size n rows).map some = (List.range (min n (rows.length / size))).map
      fun i => rows[(i + 1) * size - 1]?.map Document.id :=
    map_some_filterMap_range fun _ hi => isSome_boundary hsize hi
  have hlength := congrArg List.length hmap
  rwa [List.length_map, List.length_map, List.length_range] at hlength

/-- The boundaries of the first rows are boundaries of all rows. -/
theorem boundaries_getElem? {ranked : List Document} {size n k j : Nat} (hsize : 1 ≤ size)
    (h : (boundaries size n (ranked.take k))[j]? = some w) :
    boundaryBehind ranked size (j + 1) = some w := by
  have hj := getElem?_filterMap_range (fun i hi => isSome_boundary hsize hi) h
  rw [Option.map_eq_some_iff] at hj
  obtain ⟨d, hd, hid⟩ := hj
  rw [List.getElem?_take] at hd
  split at hd
  case isTrue => rw [boundaryBehind_eq hsize (Nat.succ_pos j), hd, Option.map_some, hid]
  case isFalse => cases hd

end Recording

/-! ### What a reader knows -/

section Reader

variable {ranked : List Document} {p : Pagination} {page limit : Nat} {pages : Option Nat}
variable {plan : PagePlan}

/-- **What a reader knows is true of the ranked rows**: the boundary behind its page, if it has one,
and the boundaries that it has recorded. -/
structure Follows (ranked : List Document) (p : Pagination) : Prop where
  size_pos : 1 ≤ p.size
  page_pos : 1 ≤ p.page
  next : ∀ v, p.next = some v → boundaryBehind ranked p.size p.page = some v
  previous : ∀ i v, p.previous[i]? = some v → boundaryBehind ranked p.size (i + 1) = some v

/-- A reader stands at a page: it knows whether a boundary is behind it, and which. -/
structure StandsAt (ranked : List Document) (size page : Nat) (p : Pagination) : Prop where
  size_eq : p.size = size
  page_eq : p.page = page
  next : p.next = boundaryBehind ranked size page
  previous : ∀ i v, p.previous[i]? = some v → boundaryBehind ranked size (i + 1) = some v

theorem follows_start {size : Nat} : Follows ranked (start size) where
  size_pos := Nat.le_max_right size 1
  page_pos := Nat.le_refl 1
  next := fun v h => by cases h
  previous := fun i v h => by cases h

theorem StandsAt.follows {size : Nat} (h : StandsAt ranked size page p) (hsize : 1 ≤ size)
    (hpage : 1 ≤ page) : Follows ranked p where
  size_pos := by rwa [h.size_eq]
  page_pos := by rwa [h.page_eq]
  next := fun v hv => by rw [h.size_eq, h.page_eq, ← h.next, hv]
  previous := by rw [h.size_eq]; exact h.previous

/-- The boundary of a plan is the one in front of its page. -/
theorem Follows.boundary_of_plan (hf : Follows ranked p)
    (hplan : p.plan page true pages limit = .ok plan) {v : Value} (hv : plan.cursor? = some v) :
    2 ≤ page ∧ boundaryBehind ranked p.size (page - 1) = some v := by
  rcases plan_keyset hplan with ⟨-, rfl⟩ | ⟨w, htwo, rfl, hw⟩ | ⟨-, -, rfl⟩
  · cases hv
  · cases hv
    refine ⟨htwo, ?_⟩
    rcases hw with hw | ⟨hpage, hw⟩
    · -- it was recorded; otherwise it is the one behind the present page
      have h := hf.previous _ _ hw
      rwa [show page - 2 + 1 = page - 1 by omega] at h
    · rw [hpage, Nat.add_sub_cancel]
      exact hf.next _ hw
  · cases hv

/-- Recording the boundary in front of a page keeps what is recorded true. -/
theorem Follows.previous_record (hf : Follows ranked p) {v : Value} (htwo : 2 ≤ page)
    (hv : boundaryBehind ranked p.size (page - 1) = some v) (n : Nat) (next : Option Value)
    (i : Nat) (w : Value)
    (h : (({ p with page := n, next } : Pagination).record (page - 1) v).previous[i]? = some w) :
    boundaryBehind ranked p.size (i + 1) = some w := by
  rcases Pagination.previous_record h with h | ⟨rfl, rfl⟩
  · exact hf.previous i w h
  · rwa [show page - 1 - 1 + 1 = page - 1 by omega]

/-- A page is cut from all rows up to its end. The limit on rows keeps the end below the largest
word, so that no product of pages and sizes wraps around. -/
theorem drop_take_eq_pageOf {size : Nat} (hpage : 1 ≤ page)
    (hrows : min (page * size) maxWord ≤ limit) (hlimit : limit < maxWord) :
    (ranked.take (min (page * size) maxWord)).drop ((page - 1) * size % 2 ^ 64) =
      pageOf ranked size page := by
  have hend : page * size = (page - 1) * size + size := by
    rw [← Nat.succ_mul, show (page - 1).succ = page by omega]
  rw [maxWord] at hlimit hrows
  have hskip : (page - 1) * size % 2 ^ 64 = (page - 1) * size := Nat.mod_eq_of_lt (by omega)
  have htake : min (page * size) maxWord - (page - 1) * size = size := by
    rw [maxWord]
    omega
  rw [pageOf, hskip, List.drop_take, htake]

/-- The rows of a page are cut out of the rows that are fetched for it. -/
theorem rowsOf_fetched (hplan : p.plan page true pages limit = .ok plan)
    (hlimit : limit < maxWord) :
    rowsOf plan (plan.fetched ranked p.size) = pageOf ranked p.size page := by
  rcases plan_keyset hplan with ⟨rfl, rfl⟩ | ⟨v, -, rfl, -⟩ | ⟨htwo, hrows, rfl⟩
  · rfl
  · rfl
  · exact drop_take_eq_pageOf (Nat.le_of_succ_le htwo) hrows hlimit

/-- What is learned from a plan and its rows is true of the ranked rows. -/
theorem Follows.previous_learn (hf : Follows ranked p)
    (hplan : p.plan page true pages limit = .ok plan) (i : Nat) (w : Value)
    (h : (({ p with page := plan.page } : Pagination).learn plan
      (plan.fetched ranked p.size)).previous[i]? = some w) :
    boundaryBehind ranked p.size (i + 1) = some w := by
  have hboundary {v : Value} := hf.boundary_of_plan (v := v) hplan
  rcases plan_keyset hplan with ⟨rfl, rfl⟩ | ⟨v, -, rfl, -⟩ | ⟨-, -, rfl⟩
  · exact hf.previous i w h
  · obtain ⟨htwo, hv⟩ := hboundary rfl
    exact hf.previous_record htwo hv page p.next i w h
  · rcases previous_recordAll (Nat.le_refl 1) h with h | ⟨j, hj, rfl⟩
    · exact hf.previous i w h
    · rw [Nat.sub_self, Nat.zero_add]
      exact boundaries_getElem? hf.size_pos hj

/-- **A step to a page whose rows are fetched.** It returns the rows of the page. -/
theorem commit_standsAt (hf : Follows ranked p) (hplan : p.plan page true pages limit = .ok plan)
    (hlimit : limit < maxWord) :
    (p.commit plan (plan.fetched ranked p.size)).2 = pageOf ranked p.size page ∧
      StandsAt ranked p.size page (p.commit plan (plan.fetched ranked p.size)).1 := by
  have hrows : rowsOf plan (plan.fetched ranked p.size) = pageOf ranked p.size page :=
    rowsOf_fetched hplan hlimit
  refine ⟨hrows, commit_size _ _, ?_, ?_, hf.previous_learn hplan⟩
  · rw [commit_page, plan_page hplan]
  · rw [commit]
    dsimp only
    rw [learn_size, hrows]
    rfl

/-- **A step to a page whose rows are known**, and with them the boundary behind it. -/
theorem restore_standsAt (hf : Follows ranked p) (hplan : p.plan page true pages limit = .ok plan)
    {next : Option Value} (hnext : next = boundaryBehind ranked p.size page) :
    StandsAt ranked p.size page (p.restore plan next) := by
  have hboundary {v : Value} := hf.boundary_of_plan (v := v) hplan
  rcases plan_keyset hplan with ⟨rfl, rfl⟩ | ⟨v, -, rfl, -⟩ | ⟨-, -, rfl⟩
  · exact ⟨rfl, rfl, hnext, hf.previous⟩
  · obtain ⟨htwo, hv⟩ := hboundary rfl
    exact ⟨record_size, record_page, hnext, hf.previous_record htwo hv page p.next⟩
  · exact ⟨rfl, rfl, hnext, hf.previous⟩

end Reader

end Pagination

end DocQuery
