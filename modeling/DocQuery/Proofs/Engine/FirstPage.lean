import DocQuery.Proofs.Engine.Cached

/-!
# Planning the first page

Settings are checked once: no page may have more rows than may be asked for to cut a page from them.
Page sizes are set later, too, by themselves or with a load, and then they are only kept from being
zero. So the check is worth what the sizes that are set make of it.

* `Pagination.exists_plan_one_iff` – when the first page can be planned;
  `Pagination.exists_plan_one` – where it cannot, no page can;
* `Act.size?` – the page size that an act sets, and `Client.sizeAfter` – that of a run;
* `Client.Sized` – an idle client whose pages have a certain size. An act sets the size or keeps it
  (`Client.Sized.perform`), and so does a run (`Client.Sized.performAll`);
* `Client.plan_first_iff` – **when the first page can be planned after a run**;
* `Client.plan_first_fails` – settings that pass the check, and a run after which it cannot be.

A run may be made of any changes and calls, and calls to the backend may fail.
-/

namespace DocQuery

/-! ### When pages can be planned -/

namespace Pagination

variable {p : Pagination} {page limit : Nat} {pages : Option Nat} {keyset : Bool}
  {plan : PagePlan}

/-- **The first page can be planned** if rows are ranked by id, or if as many rows as a page has may
be asked for. -/
theorem exists_plan_one_iff : (∃ plan, p.plan 1 keyset pages limit = .ok plan) ↔
    keyset = true ∨ min p.size maxWord ≤ limit := by
  rw [plan_one, Pagination.plan.fetch]
  cases keyset with
  | true => exact ⟨fun _ => Or.inl rfl, fun _ => ⟨_, rfl⟩⟩
  | false =>
    rw [if_neg Bool.false_ne_true, overfetch, Nat.one_mul]
    constructor
    · rintro ⟨plan, hplan⟩
      split at hplan
      case isTrue => cases hplan
      case isFalse hrows => exact Or.inr (Nat.le_of_not_lt hrows)
    · rintro (hkeyset | hrows)
      · cases hkeyset
      · rw [if_neg (Nat.not_lt_of_le hrows)]
        exact ⟨_, rfl⟩

/-- A first page that cannot be planned has too many rows. -/
theorem plan_one_error (hkeyset : keyset = false) (hrows : limit < min p.size maxWord) :
    p.plan 1 keyset pages limit = .error (.tooManyRows 1 (min p.size maxWord) limit) := by
  rw [plan_one, Pagination.plan.fetch, hkeyset, if_neg Bool.false_ne_true, overfetch, Nat.one_mul,
    if_pos hrows]

/-- **Where any page can be planned, the first one can.** It has no more rows up to its end than
another page. -/
theorem exists_plan_one (hplan : p.plan page keyset pages limit = .ok plan) :
    ∃ plan, p.plan 1 keyset pages limit = .ok plan := by
  rw [exists_plan_one_iff]
  cases keyset with
  | true => exact Or.inl rfl
  | false =>
    have hpage := (plan_eq_ok hplan).1
    have hfetch := (plan_eq_ok hplan).2
    rw [Pagination.plan.fetch, if_neg Bool.false_ne_true] at hfetch
    have hrows := (overfetch_eq_ok hfetch).1
    have hfirst : p.size ≤ page * p.size := Nat.le_mul_of_pos_left p.size hpage
    exact Or.inr (by omega)

end Pagination

/-- The check of settings asks for pages that are not empty and within the limit on rows. -/
theorem EngineConfig.rows_of_check {config : EngineConfig} (h : config.check = .ok config) :
    1 ≤ config.pageSize ∧ config.pageSize ≤ config.maxOverfetch := by
  rw [EngineConfig.check] at h
  split at h
  case isTrue => cases h
  case isFalse hzero =>
    split at h
    case isTrue => cases h
    case isFalse hlimit => exact ⟨Nat.pos_of_ne_zero hzero, Nat.le_of_not_lt hlimit⟩

/-! ### Page sizes that are set -/

/-- The page size that a change sets. -/
def Change.size? : Change → Option Nat
  | .setPageSize size => some size
  | _ => none

/-- The page size that a call sets. -/
def Call.size? : Call → Option Nat
  | .load options => options.limit
  | _ => none

/-- The page size that an act sets. -/
def Act.size? : Act → Option Nat
  | .change ch => ch.size?
  | .call k => k.size?
  | .fail _ => none

/-- The page size after one was set, or none. A page has at least one row. -/
def resized (size : Nat) : Option Nat → Nat
  | some size => max size 1
  | none => size

/-- Only a call that loads with a size sets one. -/
theorem Call.limit_of_options {e : Engine} {k : Call} {options : LoadOptions}
    (h : k.options? e = some options) : options.limit = k.size? := by
  have hpage {f : Except EngineFault LoadOptions} (hf : f.toOption = some options)
      (hcases : (∃ page, f = .ok (.toPage page)) ∨ ∃ fault, f = .error fault) :
      options.limit = none := by
    rcases hcases with ⟨page, rfl⟩ | ⟨fault, rfl⟩
    · cases hf
      rfl
    · cases hf
  cases k with
  | load options' =>
    cases h
    rfl
  | next =>
    refine hpage h ?_
    unfold Engine.nextPage
    dsimp only
    split
    · exact Or.inl ⟨_, rfl⟩
    · exact Or.inr ⟨_, rfl⟩
  | previous =>
    refine hpage h ?_
    unfold Engine.previousPage
    dsimp only
    split
    · exact Or.inl ⟨_, rfl⟩
    · exact Or.inr ⟨_, rfl⟩
  | goTo page =>
    refine hpage h ?_
    rw [Engine.goToPage]
    split
    · exact Or.inr ⟨_, rfl⟩
    · exact Or.inl ⟨_, rfl⟩
  | more =>
    change e.more = some options at h
    rw [Engine.more] at h
    split at h
    · cases h
      rfl
    · cases h
  | _ => cases h

namespace EngineState

variable {s : EngineState} {a : Action}

theorem size_setPageSize (s : EngineState) (size : Nat) :
    (s.reduce (.setPageSize size)).query.pages.size = max size 1 := by
  rw [reduce]
  dsimp only
  split
  case isTrue hsize => exact hsize
  case isFalse => rfl

/-- Other inputs keep the page size. -/
theorem size_of_isInput (h : a.isInput = true) (hnot : ∀ size, a ≠ .setPageSize size) :
    (s.reduce a).query.pages.size = s.query.pages.size := by
  cases a with
  | setPageSize size => exact absurd rfl (hnot size)
  | addFilter f => rfl
  | restoreQuery search filters => rfl
  | setNamespace connection ns => rfl
  | updateFilter f =>
    rw [reduce]
    split <;> rfl
  | removeFilter id =>
    rw [reduce]
    dsimp only
    split <;> rfl
  | clearFilters =>
    rw [reduce]
    split <;> rfl
  | setSearch text =>
    rw [reduce]
    split <;> rfl
  | setSort sort =>
    rw [reduce]
    split <;> rfl
  | _ => cases h

end EngineState

namespace Engine

/-- A change sets the page size or keeps it. -/
theorem size_change (e : Engine) (ch : Change) :
    (e.change ch).state.query.pages.size = resized e.state.query.pages.size ch.size? := by
  have hinput {a : Action} (ha : a.isInput = true) (hnot : ∀ size, a ≠ .setPageSize size) :
      (e.dispatch a).state.query.pages.size = e.state.query.pages.size :=
    EngineState.size_of_isInput ha hnot
  cases ch with
  | setPageSize size => exact e.state.size_setPageSize size
  | updateFilter id op raw =>
    rw [change, updateFilter]
    cases e.state.query.filters.find? fun f => f.id = id with
    | none => rfl
    | some f => exact hinput rfl fun _ h => by cases h
  | addFilter name op raw => exact hinput rfl fun _ h => by cases h
  | removeFilter id => exact hinput rfl fun _ h => by cases h
  | clearFilters => exact hinput rfl fun _ h => by cases h
  | setSearch text => exact hinput rfl fun _ h => by cases h
  | setSort sort => exact hinput rfl fun _ h => by cases h
  | setNamespace ns => exact hinput rfl fun _ h => by cases h
  | restore entry => exact hinput rfl fun _ h => by cases h

/-- A load begins with the size that it sets. -/
theorem size_enterLoad (e : Engine) (options : LoadOptions) (mayRepeat : Bool) :
    (e.enterLoad options mayRepeat).2.snapshot.query.pages.size =
      resized e.state.query.pages.size options.limit := by
  rw [enterLoad]
  cases options.limit with
  | none => rfl
  | some size => exact e.state.size_setPageSize size

end Engine

namespace Client

/-! ### Runs -/

/-- The page size after a run. -/
def sizeAfter (size : Nat) (acts : List Act) : Nat :=
  acts.foldl (fun size a => resized size a.size?) size

theorem sizeAfter_cons (size : Nat) (a : Act) (acts : List Act) :
    sizeAfter size (a :: acts) = sizeAfter (resized size a.size?) acts := rfl

/-- Where no size that is set is above a bound, the page size is not. -/
theorem sizeAfter_le {size bound : Nat} {acts : List Act} (hone : 1 ≤ bound) (hsize : size ≤ bound)
    (hacts : ∀ a ∈ acts, ∀ n, a.size? = some n → n ≤ bound) : sizeAfter size acts ≤ bound := by
  induction acts generalizing size with
  | nil => exact hsize
  | cons a acts ih =>
    rw [sizeAfter_cons]
    refine ih ?_ fun a' ha' => hacts a' (List.mem_cons_of_mem a ha')
    cases ha : a.size? with
    | none => exact hsize
    | some n => exact Nat.max_le.mpr ⟨hacts a List.mem_cons_self n ha, hone⟩

/-- An idle client whose pages have a certain size. -/
structure Sized (size : Nat) (c : Client) : Prop where
  idle : c.engine.state.inFlight = 0
  size_eq : c.engine.state.query.pages.size = size

namespace Sized

variable {c : Client} {size : Nat}

theorem load (h : c.Sized size) (options : LoadOptions) :
    (c.load options).1.Sized (resized size options.limit) := by
  refine ⟨load_idle h.idle options, ?_⟩
  obtain ⟨e, s, henter⟩ : ∃ e s, c.engine.enterLoad options true = (e, s) := ⟨_, _, rfl⟩
  have hbegun : s.snapshot.query.pages.size = resized size options.limit := by
    have hentered := c.engine.size_enterLoad options true
    rwa [henter, h.size_eq] at hentered
  rcases load_left henter with ⟨-, -, hloading, -⟩ | ⟨e', result, b, hends, -, -, hleft⟩
  · rw [EngineState.isLoading_eq, h.idle] at hloading
    cases hloading
  · rw [← hbegun]
    rcases result with f | p
    · have hpages : (c.load options).1.engine.state.query.pages = s.snapshot.query.pages :=
        congrArg (fun q => q.2.2.pages) hleft
      rw [hpages]
    · obtain ⟨-, hpages, -⟩ := hleft
      rw [hpages]
      exact hends.pages_at.2

theorem invoke (h : c.Sized size) (k : Call) : (c.invoke k).Sized (resized size k.size?) := by
  cases hoptions : k.options? c.engine with
  | some options =>
    rw [invoke_load hoptions, ← Call.limit_of_options hoptions]
    exact h.load options
  | none =>
    have hsize : k.size? = none := by
      cases k with
      | load options => cases hoptions
      | _ => rfl
    obtain ⟨attributes, isDiscovering, error, hstate⟩ := invoke_of_none hoptions
    rw [hsize]
    refine ⟨?_, ?_⟩
    · rw [hstate]
      exact h.idle
    · rw [hstate]
      exact h.size_eq

/-- **An act sets the page size or keeps it**, and leaves the client idle. -/
theorem perform (h : c.Sized size) (a : Act) : (c.perform a).Sized (resized size a.size?) := by
  cases a with
  | change ch =>
    refine ⟨(c.engine.calm_change ch).inFlight.trans h.idle, ?_⟩
    have hsize := c.engine.size_change ch
    rwa [h.size_eq] at hsize
  | call k => exact h.invoke k
  | fail f => exact ⟨h.idle, h.size_eq⟩

/-- **The page size after a run** is the one that was set last. -/
theorem performAll (h : c.Sized size) (acts : List Act) :
    (c.performAll acts).Sized (sizeAfter size acts) := by
  induction acts generalizing c size with
  | nil => exact h
  | cons a acts ih => exact ih (h.perform a)

end Sized

/-- **When the first page can be planned.** After every run, with failing, skipped and cached loads,
the first page can be planned exactly if rows are ranked by id or the page size that was set last is
within the limit on rows. If the settings pass their check, then so it is as long as no size is set
that is above the limit. If it cannot be planned, the failure is that it has too many rows, and no
other page can be planned either. -/
theorem plan_first_iff {config : EngineConfig} {connection ns : String}
    {historyLimit : Option Nat} {b : Backend} {acts : List Act} {c : Client}
    (hrun : (opened config connection ns historyLimit b).performAll acts = c) :
    ((∃ plan, c.engine.planOf 1 = .ok plan) ↔
        c.engine.state.query.sort.name = "id" ∨
          min (sizeAfter (max config.pageSize 1) acts) maxWord ≤ config.maxOverfetch) ∧
      (config.check = .ok config →
        (∀ a ∈ acts, ∀ size, a.size? = some size → size ≤ config.maxOverfetch) →
          ∃ plan, c.engine.planOf 1 = .ok plan) ∧
      ((¬∃ plan, c.engine.planOf 1 = .ok plan) →
        c.engine.planOf 1 = .error (.tooManyRows 1
            (min (sizeAfter (max config.pageSize 1) acts) maxWord) config.maxOverfetch) ∧
          ∀ page, ¬∃ plan, c.engine.planOf page = .ok plan) := by
  have hopened : (opened config connection ns historyLimit b).Sized (max config.pageSize 1) :=
    ⟨rfl, rfl⟩
  have hsized : c.Sized (sizeAfter (max config.pageSize 1) acts) := hrun ▸ hopened.performAll acts
  have hconfig : c.engine.config = config := hrun ▸ (kept_performAll rfl acts).config
  have hplan : (∃ plan, c.engine.planOf 1 = .ok plan) ↔ c.engine.state.query.sort.name = "id" ∨
      min (sizeAfter (max config.pageSize 1) acts) maxWord ≤ config.maxOverfetch := by
    rw [Engine.planOf, Pagination.exists_plan_one_iff, hsized.size_eq, hconfig, QueryState.isKeyset,
      beq_iff_eq]
  refine ⟨hplan, fun hcheck hacts => hplan.mpr (Or.inr ?_), fun hnone => ⟨?_, ?_⟩⟩
  · obtain ⟨hone, hlimit⟩ := EngineConfig.rows_of_check hcheck
    have hbound : sizeAfter (max config.pageSize 1) acts ≤ config.maxOverfetch :=
      sizeAfter_le (Nat.le_trans hone hlimit)
        (Nat.max_le.mpr ⟨hlimit, Nat.le_trans hone hlimit⟩) hacts
    exact Nat.le_trans (Nat.min_le_left _ _) hbound
  · rw [hplan, not_or] at hnone
    obtain ⟨hsort, hrows⟩ := hnone
    rw [← hsized.size_eq, ← hconfig] at hrows ⊢
    exact Pagination.plan_one_error (beq_false_of_ne hsort) (Nat.lt_of_not_le hrows)
  · rintro page ⟨plan, hpage⟩
    exact hnone (Pagination.exists_plan_one hpage)

/-- Settings for pages of two rows that are cut from at most four. -/
def fourRows : EngineConfig := { EngineConfig.default with pageSize := 2, maxOverfetch := 4 }

/-- A client with these settings. -/
def fourClient : Client := opened fourRows "local" "docs" none Backend.empty

/-- Documents are ranked by a number, and pages get as many rows as may be asked for. -/
def wideEnough : List Act := [.change (.setSort ⟨"n", .asc⟩), .change (.setPageSize 4)]

theorem plan_first_iff_wideEnough :
    fourRows.check = .ok fourRows ∧
      (fourClient.performAll wideEnough).engine.state.query.sort.name = "n" ∧
      ∃ plan, (fourClient.performAll wideEnough).engine.planOf 1 = .ok plan := by
  have hrun : (opened fourRows "local" "docs" none Backend.empty).performAll wideEnough =
      fourClient.performAll wideEnough := rfl
  obtain ⟨-, hplan, -⟩ := plan_first_iff hrun
  refine ⟨rfl, by cbv, hplan rfl ?_⟩
  intro a ha size hsize
  rcases List.mem_pair.mp ha with rfl | rfl
  · cases hsize
  · cases hsize
    decide

/-- A load sets a page size above the limit, and then rows are ranked by a number. -/
def tooWide : List Act :=
  [.call (.load { LoadOptions.default with limit := some 5 }), .change (.setSort ⟨"n", .asc⟩)]

/-- **The settings pass their check, and the first page cannot be planned.** Its failure advises to
go there page by page. -/
theorem plan_first_fails :
    fourRows.check = .ok fourRows ∧
      (fourClient.performAll tooWide).engine.config = fourRows ∧
      (fourClient.performAll tooWide).engine.planOf 1 = .error (.tooManyRows 1 5 4) := by
  refine ⟨rfl, ?_, ?_⟩ <;> cbv

end Client

end DocQuery
