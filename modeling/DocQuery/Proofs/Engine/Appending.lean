import DocQuery.Proofs.Engine.Cached

/-!
# Appending rows

A load can append the rows of its page to those that are shown. The rows that are shown are kept
while the order, the page size and the page change, so it matters when a load appends: what is
appended is always the page that was asked for, but it continues the rows in front of it only if
these end right there, in the same order and with the same page size.

* `DocQuery.IsBlock` – consecutive rows that begin with a page and end with the last row of another;
* `Store.ranked` – the rows of a namespace in some order; `Client.shown_slice` – whatever the order,
  **a page that is shown without filters is a slice of them**, be it fetched or cached;
* `LoadStart.InStep` – a load that appends the page right behind the current one, and where rows are
  not ranked by id, a boundary behind the current page is known. So are all loads that a person asks
  for as the next rows (`Client.inStep_more`);
* `EngineState.Tidy` – the invariant: the rows that are shown are a block that ends with the current
  page, or the paging begins anew;
* `Client.load_block` – **what is shown after a load** of any run;
* `Client.load_not_block` – a load that appends rows in a new order to rows in the old one.

In the new order no boundary is known. Where rows are ranked by id, that alone keeps a page from
being appended, for it cannot be planned.
-/

namespace DocQuery

/-! ### Blocks of ranked rows -/

section Blocks

variable {ranked docs : List Document} {size page : Nat}

/-- Consecutive rows of whole pages, the last of which is the page in question. -/
def IsBlock (ranked : List Document) (size page : Nat) (docs : List Document) : Prop :=
  ∃ first, 1 ≤ first ∧ first ≤ page ∧
    docs = (ranked.drop ((first - 1) * size)).take ((page + 1 - first) * size)

/-- A page is a block by itself. -/
theorem isBlock_pageOf (hpage : 1 ≤ page) : IsBlock ranked size page (pageOf ranked size page) := by
  refine ⟨page, hpage, Nat.le_refl page, ?_⟩
  rw [Nat.add_sub_cancel_left, Nat.one_mul]
  rfl

/-- **The next page continues a block.** -/
theorem IsBlock.append (h : IsBlock ranked size page docs) :
    IsBlock ranked size (page + 1) (docs ++ pageOf ranked size (page + 1)) := by
  obtain ⟨first, hfirst, hle, rfl⟩ := h
  refine ⟨first, hfirst, Nat.le_succ_of_le hle, ?_⟩
  have hpages : (page + 1 + 1 - first) * size = (page + 1 - first) * size + size := by
    rw [← Nat.succ_mul, show page + 1 + 1 - first = (page + 1 - first).succ by omega]
  -- the rows in front of the block and those of the block lead up to the next page
  have hfront : (first - 1) * size + (page + 1 - first) * size = page * size := by
    rw [← Nat.add_mul, show first - 1 + (page + 1 - first) = page by omega]
  rw [hpages, List.take_add, List.drop_drop, hfront]
  rfl

end Blocks

/-! ### The rows of a namespace, ranked -/

namespace Store

/-- The documents of a namespace in an order. -/
def ranked (store : Store) (ns : String) (rank : RankBy) : List Document :=
  rank.sort (store.rows ns).documents

/-- The ids of a namespace tell its documents apart, and are of one type. -/
def Keyed (store : Store) (ns : String) : Prop :=
  SameTypeIds (store.rows ns).documents ∧ ((store.rows ns).documents.map Document.id).Nodup

/-- A query without a filter is answered by the first ranked rows. -/
theorem rows_of_query {store : Store} {ns : String} {rank : RankBy} {k : Nat} {r : QueryResponse}
    (h : store.query ns (.rows none rank k) = .ok r) :
    r.rows = (store.ranked ns rank).take k := by
  obtain ⟨rows, p, hrows, hp, rfl⟩ := query_rows_iff.mp h
  obtain rfl : none = p := Except.ok.inj hp
  have hselect : rows.select none = rows.documents := by simp [Rows.select]
  rw [hselect, ranked, Store.rows, hrows, Option.getD_some]

end Store

/-- The answer that holds every row holds the ranked rows. -/
theorem PageSource.Ranks.rows_eq {q : PageSource} {k : Nat} {full : QueryResponse}
    (h : q.Ranks k full) (hfilter : q.filter = none) :
    full.rows = q.store.ranked q.ns ⟨"id", q.direction⟩ := by
  have hquery := h.1
  rw [hfilter] at hquery
  rw [Store.rows_of_query hquery, List.take_of_length_le]
  have hlength : (q.store.ranked q.ns ⟨"id", q.direction⟩).length = q.store.size q.ns := by
    rw [Store.ranked, RankBy.sort_id, length_stableSort, Rows.documents, List.length_map,
      Store.size]
  rw [hlength]
  exact h.2

namespace LoadStart

/-- **A fetch that is not ranked by id returns a slice**: the page is cut from all rows. -/
theorem fetch_slice_unranked {store : Store} {config : EngineConfig} {s : LoadStart}
    {p : FetchedPage} (hfilter : s.filter = none) (hsort : s.snapshot.query.sort.name ≠ "id")
    (hlimit : config.maxOverfetch < maxWord) (hfetch : s.fetch store config = .ok p) :
    p.documents = pageOf (store.ranked s.snapshot.ns s.snapshot.query.sort)
      s.snapshot.query.pages.size s.page := by
  obtain ⟨plan, counted, total, r, hplan, -, -, hrows, rfl⟩ := fetch_eq_ok_iff.mp hfetch
  have hunranked : s.snapshot.query.isKeyset = false := beq_false_of_ne hsort
  rw [LoadStart.plan, hunranked] at hplan
  have hpage := (Pagination.plan_eq_ok hplan).1
  obtain ⟨hcut, hcursor⟩ := Pagination.plan_unranked hplan
  obtain ⟨hmany, rfl⟩ := Pagination.overfetch_eq_ok hcut
  rw [Load.rowsFilter, hcursor, hfilter] at hrows
  rw [Store.rows_of_query (Store.reply_eq_ok_iff.mp hrows)]
  exact Pagination.drop_take_eq_pageOf hpage hmany hlimit

end LoadStart

namespace Client

/-! ### Pages are slices -/

section Slices

variable {c : Client} {acts : List Act}
  (hnew : c.engine.cache.queries.entries = [])
  (hfirst : ∀ ranked topic direction, c.engine.state.Knows ranked topic direction)
  (hlimit : c.engine.config.maxOverfetch < maxWord)
  (hnone : ∀ earlier, earlier <+: acts → (c.performAll earlier).engine.state.filter = none)

include hnew hfirst hlimit hnone

/-- What a load of the run finds is a slice of the ranked rows. -/
theorem fetch_slice {earlier : List Act} (hearlier : earlier <+: acts) {options : LoadOptions}
    {p : FetchedPage} {s : LoadStart} (hs : (c.performAll earlier).startOf options = s)
    (hfetch : s.fetch c.backend.store c.engine.config = .ok p)
    (hsort : s.snapshot.query.sort.name ≠ "id" ∨ c.backend.store.Keyed s.snapshot.ns) :
    p.documents = pageOf (c.backend.store.ranked s.snapshot.ns s.snapshot.query.sort)
      s.snapshot.query.pages.size s.page := by
  obtain ⟨-, hstartFilter, -⟩ := (c.performAll earlier).startOf_eq options
  have hfilter : s.filter = none := hs ▸ hstartFilter.trans (hnone earlier hearlier)
  by_cases hid : s.snapshot.query.sort.name = "id"
  · obtain ⟨hids, hnodup⟩ := hsort.resolve_left fun hne => hne hid
    have hrank : s.snapshot.query.sort = ⟨"id", s.snapshot.query.sort.direction⟩ := by
      rw [← hid]
    -- the total was counted, so the rows can be ranked
    obtain ⟨-, counted, -, -, -, hcounted, -⟩ := LoadStart.fetch_eq_ok_iff.mp hfetch
    rw [hfilter] at hcounted
    obtain ⟨full, hranks⟩ := PageSource.exists_ranks hcounted s.snapshot.query.sort.direction
    obtain ⟨search, filters, htopic⟩ : ∃ search filters, s.snapshot.topic =
        (s.snapshot.connection, s.snapshot.ns, search, filters) := ⟨_, _, rfl⟩
    have hone : c.OneFilter acts (s.snapshot.connection, s.snapshot.ns, search, filters) none :=
      fun earlier hearlier _ => hnone earlier hearlier
    have hknows := hone.knows hids hnodup hranks rfl hlimit hnew (hfirst _ _ _)
    rw [hrank, ← hranks.rows_eq rfl]
    subst hs
    exact (hone.fetched hids hnodup hranks rfl hlimit hearlier (hknows earlier hearlier) htopic
      hrank hfetch).1
  · exact LoadStart.fetch_slice_unranked hfilter hid hlimit hfetch

/-- **A page that is shown is a slice of the ranked rows**, whether it was fetched or cached. -/
theorem shown_slice {options : LoadOptions} {e e' : Engine} {s : LoadStart} {p : FetchedPage}
    {b : Backend} (henter : (c.performAll acts).engine.enterLoad options true = (e, s))
    (hends : Ends (c.performAll acts) e s e' (.ok p) b)
    (hsort : s.snapshot.query.sort.name ≠ "id" ∨ c.backend.store.Keyed s.snapshot.ns) :
    p.documents = pageOf (c.backend.store.ranked s.snapshot.ns s.snapshot.query.sort)
      s.snapshot.query.pages.size s.page := by
  have hkept : c.Kept acts := kept_performAll hnew acts
  obtain ⟨-, -, hconfig, hcache⟩ := Engine.enterLoad_eq henter
  have hs : (c.performAll acts).startOf options = s := by rw [startOf, henter]
  cases hends with
  | hit plan page e' hforce hplan hcached =>
    -- some load of the run found the page under the same key
    obtain ⟨earlier, hearlier, options', q, hkey, hfetch, rfl⟩ : c.Sourced acts s.key page :=
      TtlCache.Holds.of_get (hcache ▸ hkept.sourced) (congrArg Prod.fst hcached)
    obtain ⟨hpage, -, hns, hrank, hsize, -⟩ := LoadStart.eq_of_key_eq hkey
    rw [← hrank, ← hns] at hsort ⊢
    rw [← hsize, ← hpage]
    have hslice := fetch_slice hnew hfirst hlimit hnone hearlier rfl hfetch hsort
    exact hslice
  | fetched plan e' result b hplan hlook hfinds =>
    have hfetch := hfinds.found p rfl
    rw [hkept.store, hconfig, hkept.config] at hfetch
    exact fetch_slice hnew hfirst hlimit hnone List.prefix_rfl hs hfetch hsort

end Slices

end Client

/-! ### What is shown -/

namespace EngineState

variable {s t : EngineState} {store : Store}

/-- **The rows that are shown are a block that ends with the current page**, or the paging begins
anew and nothing is said about them. -/
def Tidy (store : Store) (s : EngineState) : Prop :=
  s.query.sort.name ≠ "id" ∨ store.Keyed s.ns →
    (∃ p : Pagination, s.query.pages = p.reset) ∨
      IsBlock (store.ranked s.ns s.query.sort) s.query.pages.size s.query.pages.page s.documents

theorem tidy_start (connection ns : String) (size : Nat) :
    (start connection ns size).Tidy store :=
  fun _ => Or.inl ⟨.start size, rfl⟩

/-- What leaves the question and the rows leaves them tidy. -/
theorem Tidy.of_question (h : s.Tidy store) (hquestion : t.question = s.question)
    (hdocuments : t.documents = s.documents) : t.Tidy store := by
  have hns : t.ns = s.ns := congrArg (fun q => q.2.1) hquestion
  have hquery : t.query = s.query := congrArg (fun q => q.2.2) hquestion
  rw [Tidy, hquery, hns, hdocuments]
  exact h

/-- Whoever asks for something else starts anew. -/
theorem Tidy.input (h : s.Tidy store) {a : Action} (ha : a.isInput = true) :
    (s.reduce a).Tidy store := by
  rcases reduce_of_isInput (s := s) ha with heq | ⟨t, query, heq, -⟩
  · rwa [heq]
  · rw [heq]
    exact fun _ => Or.inl ⟨query.pages, rfl⟩

end EngineState

namespace Engine

variable {e e' : Engine} {s : LoadStart} {options : LoadOptions}

/-- A load begins with the rows that are shown, whatever size it sets. -/
theorem enterLoad_documents (henter : e.enterLoad options true = (e', s)) :
    s.snapshot.documents = e.state.documents := by
  obtain ⟨rfl, rfl⟩ := Prod.ext_iff.mp henter
  unfold enterLoad
  cases options.limit with
  | none => rfl
  | some size =>
    change (e.state.reduce (.setPageSize size)).documents = e.state.documents
    rw [EngineState.reduce]
    dsimp only
    split <;> rfl

theorem tidy_enterLoad {store : Store} (h : e.state.Tidy store)
    (henter : e.enterLoad options true = (e', s)) : s.snapshot.Tidy store := by
  obtain ⟨rfl, rfl⟩ := Prod.ext_iff.mp henter
  have hbegun {t : EngineState} (ht : t.Tidy store) : (t.reduce .loadStarted).Tidy store :=
    ht.of_question rfl rfl
  unfold enterLoad
  cases options.limit with
  | none => exact hbegun h
  | some size => exact hbegun (h.input (a := .setPageSize size) rfl)

theorem tidy_change {store : Store} (h : e.state.Tidy store) (ch : Change) :
    (e.change ch).state.Tidy store := by
  rcases e.change_cases ch with heq | ⟨a, ha, heq⟩
  · rwa [heq]
  · rw [heq]
    exact h.input ha

end Engine

/-! ### Loads in step -/

/-- A load that appends asks for the page right behind the current one; and where rows are not
ranked by id, a boundary behind the current page is known. -/
def LoadStart.InStep (s : LoadStart) : Prop :=
  s.options.append = true → s.page = s.snapshot.query.pages.page + 1 ∧
    (s.snapshot.query.isKeyset = true ∨ s.snapshot.query.pages.next.isSome = true)

/-- Where paging begins anew, no page behind the first one can be planned by a boundary. -/
theorem Pagination.not_plan_reset {p : Pagination} {pages : Option Nat} {limit : Nat}
    {plan : PagePlan} : p.reset.plan (p.reset.page + 1) true pages limit ≠ .ok plan := by
  have hfirst : p.reset.page = 1 := rfl
  rw [hfirst]
  intro h
  have hfetch := (plan_eq_ok h).2
  rw [Pagination.plan.fetch, if_pos rfl, if_neg (by decide)] at hfetch
  cases hfetch

namespace Client

/-- **Loads of the next rows are in step.** -/
theorem inStep_more {c : Client} {options : LoadOptions} (h : c.engine.more = some options) :
    (c.startOf options).InStep := by
  rw [Engine.more] at h
  split at h
  case isTrue hnext =>
    cases h
    rw [Pagination.hasNext, Bool.and_eq_true] at hnext
    exact fun _ => ⟨rfl, Or.inr hnext.1⟩
  case isFalse => cases h

/-- Every load of the run that appends the page it shows is in step. -/
def StaysInStep (c : Client) (acts : List Act) : Prop :=
  ∀ earlier k options, earlier ++ [.call k] <+: acts →
    k.options? (c.performAll earlier).engine = some options →
      ((c.performAll earlier).load options).2 = .loaded ∨
          ((c.performAll earlier).load options).2 = .cached →
        ((c.performAll earlier).startOf options).InStep

section Runs

variable {c : Client} {acts : List Act} {options : LoadOptions}

/-- **A load that shows no page** leaves the question as it was when the load began, and the
rows. -/
theorem load_unshown
    (hloaded : (c.load options).2 ≠ .loaded) (hcached : (c.load options).2 ≠ .cached) :
    (c.load options).1 = c ∨
      (c.load options).1.engine.state.question = (c.startOf options).snapshot.question ∧
        (c.load options).1.engine.state.documents = c.engine.state.documents := by
  obtain ⟨e, henter⟩ : ∃ e, c.engine.enterLoad options true = (e, c.startOf options) := ⟨_, rfl⟩
  obtain ⟨-, hsnapshot, -, -⟩ := Engine.enterLoad_eq henter
  rcases c.load_cases options henter with ⟨hload, -⟩ | ⟨e', result, b, -, hload, hstate, -⟩
  · rw [hload]
    exact Or.inl rfl
  have hsame : e'.state = (c.startOf options).snapshot := hstate.trans hsnapshot.symm
  have htimely := congrArg EngineState.generation hsame
  rw [hload, Engine.endLoad_of_timely htimely] at hloaded hcached
  rcases result with f | p
  · refine Or.inr ⟨?_, ?_⟩
    · rw [hload]
      exact Engine.endLoad_left hsame (.error f)
    · rw [hload, Engine.endLoad_of_timely htimely, ← Engine.enterLoad_documents henter, ← hsame]
      rfl
  · dsimp only at hloaded hcached
    split at hloaded
    case isTrue hfrom => exact absurd (if_pos hfrom) hcached
    case isFalse => exact absurd rfl hloaded

variable (hnew : c.engine.cache.queries.entries = [])
  (hfirst : ∀ ranked topic direction, c.engine.state.Knows ranked topic direction)
  (hlimit : c.engine.config.maxOverfetch < maxWord)
  (hnone : ∀ earlier, earlier <+: acts → (c.performAll earlier).engine.state.filter = none)

include hnew hfirst hlimit hnone

/-- **What a load shows**: the rows of its page, behind those that were shown before if it appends.
If it is in step, they are a block. -/
theorem load_shows
    (hshown : ((c.performAll acts).load options).2 = .loaded ∨
      ((c.performAll acts).load options).2 = .cached)
    {t : EngineState} (ht : ((c.performAll acts).load options).1.engine.state = t)
    (hsort : t.query.sort.name ≠ "id" ∨ c.backend.store.Keyed t.ns) :
    t.documents = (if options.append then (c.performAll acts).engine.state.documents else []) ++
        pageOf (c.backend.store.ranked t.ns t.query.sort) t.query.pages.size t.query.pages.page ∧
      ((c.performAll acts).engine.state.Tidy c.backend.store →
        ((c.performAll acts).startOf options).InStep →
          IsBlock (c.backend.store.ranked t.ns t.query.sort) t.query.pages.size t.query.pages.page
            t.documents) := by
  obtain ⟨e, s, henter⟩ :
      ∃ e s, (c.performAll acts).engine.enterLoad options true = (e, s) := ⟨_, _, rfl⟩
  obtain ⟨hoptions, -, -, -⟩ := Engine.enterLoad_eq henter
  have hs : (c.performAll acts).startOf options = s := by rw [startOf, henter]
  rw [hs]
  rcases load_left henter with ⟨-, hskipped, -⟩ | ⟨e', result, b, hends, -, houtcome, hleft⟩
  · rw [hskipped] at hshown
    rcases hshown with h | h <;> cases h
  rcases result with f | p
  · rw [houtcome] at hshown
    rcases hshown with h | h <;> cases h
  rw [ht] at hleft
  obtain ⟨hinputs, hpages, -, hdocuments⟩ := hleft
  obtain ⟨-, hns, -, -, hrank⟩ := EngineState.inputs_eq_iff.mp hinputs
  obtain ⟨hpage, hsize⟩ := hends.pages_at
  obtain ⟨plan, hplan⟩ := hends.exists_plan
  rw [LoadStart.plan] at hplan
  rw [hns, hrank] at hsort ⊢
  rw [hoptions, shown_slice hnew hfirst hlimit hnone henter hends hsort,
    Engine.enterLoad_documents henter] at hdocuments
  rw [hpages, hpage, hsize, hdocuments]
  cases happend : options.append with
  | false => exact ⟨rfl, fun _ _ => isBlock_pageOf (Pagination.plan_eq_ok hplan).1⟩
  | true =>
    refine ⟨rfl, fun htidy hstep => ?_⟩
    obtain ⟨hbehind, hknown⟩ := hstep (hoptions ▸ happend)
    rw [hbehind] at hplan ⊢
    rcases Engine.tidy_enterLoad htidy henter hsort with ⟨q, hreset⟩ | hblock
    · -- where paging begins anew there is no boundary, so the page cannot have been planned
      rw [hreset] at hplan hknown
      rcases hknown with hkeyset | hnext
      · rw [hkeyset] at hplan
        exact absurd hplan Pagination.not_plan_reset
      · cases hnext
    · rw [Engine.enterLoad_documents henter] at hblock
      exact hblock.append

/-- A load in step leaves the rows tidy. -/
theorem tidy_load (h : (c.performAll acts).engine.state.Tidy c.backend.store)
    (hstep : ((c.performAll acts).load options).2 = .loaded ∨
        ((c.performAll acts).load options).2 = .cached →
      ((c.performAll acts).startOf options).InStep) :
    ((c.performAll acts).load options).1.engine.state.Tidy c.backend.store := by
  by_cases hshown : ((c.performAll acts).load options).2 = .loaded ∨
      ((c.performAll acts).load options).2 = .cached
  · intro hsort
    have hshows := load_shows hnew hfirst hlimit hnone hshown rfl hsort
    exact Or.inr (hshows.2 h (hstep hshown))
  · rw [not_or] at hshown
    rcases load_unshown hshown.1 hshown.2 with hsame | ⟨hquestion, hdocuments⟩
    · rwa [hsame]
    · have henter : (c.performAll acts).engine.enterLoad options true =
          (_, (c.performAll acts).startOf options) := rfl
      refine (Engine.tidy_enterLoad h henter).of_question hquestion (hdocuments.trans ?_)
      exact (Engine.enterLoad_documents henter).symm

/-- **So does a run in which every load is in step.** -/
theorem tidy_performAll (h : c.engine.state.Tidy c.backend.store) (hsteps : c.StaysInStep acts) :
    (c.performAll acts).engine.state.Tidy c.backend.store := by
  induction acts using List.reverseRecOn with
  | nil => exact h
  | append_singleton acts a ih =>
    have hbefore {earlier : List Act} (hearlier : earlier <+: acts) : earlier <+: acts ++ [a] :=
      hearlier.trans (List.prefix_append acts [a])
    have hnone' : ∀ earlier, earlier <+: acts →
        (c.performAll earlier).engine.state.filter = none :=
      fun earlier hearlier => hnone earlier (hbefore hearlier)
    have ih := ih hnone' fun earlier k options hearlier =>
      hsteps earlier k options (hbefore hearlier)
    rw [performAll_concat]
    cases a with
    | change ch => exact Engine.tidy_change ih ch
    | fail f => exact ih
    | call k =>
      rw [perform]
      cases hoptions : k.options? (c.performAll acts).engine with
      | some options =>
        rw [invoke_load hoptions]
        exact tidy_load hnew hfirst hlimit hnone' ih
          (hsteps acts k options List.prefix_rfl hoptions)
      | none =>
        obtain ⟨attributes, isDiscovering, error, hstate⟩ := invoke_of_none hoptions
        rw [hstate]
        exact ih.of_question rfl rfl

end Runs

/-- **What is shown after a load.** After every run in which no filter and no text is asked for,
with failing, skipped and cached loads, a load that is not refused shows the rows of its page, and
in front of them, if it appends, the rows that were shown before. If it is in step and all loads of
the run were, then these are a block of the ranked rows that ends with the current page. Where rows
are ranked by id, the ids are different and of one type. -/
theorem load_block {config : EngineConfig} {connection ns : String} {historyLimit : Option Nat}
    {b : Backend} {acts : List Act} {c : Client}
    (hrun : (opened config connection ns historyLimit b).performAll acts = c)
    (hlimit : config.maxOverfetch < maxWord)
    (hnone : ∀ earlier, earlier <+: acts →
      ((opened config connection ns historyLimit b).performAll earlier).engine.state.filter = none)
    {options : LoadOptions}
    (hshown : (c.load options).2 = .loaded ∨ (c.load options).2 = .cached)
    {t : EngineState} (ht : (c.load options).1.engine.state = t)
    (hsort : t.query.sort.name ≠ "id" ∨ b.store.Keyed t.ns) :
    t.documents = (if options.append then c.engine.state.documents else []) ++
        pageOf (b.store.ranked t.ns t.query.sort) t.query.pages.size t.query.pages.page ∧
      ((opened config connection ns historyLimit b).StaysInStep acts →
        (c.startOf options).InStep →
          IsBlock (b.store.ranked t.ns t.query.sort) t.query.pages.size t.query.pages.page
            t.documents) := by
  subst hrun
  have hfirst (ranked : List Document) (topic : String × String × String × String)
      (direction : Direction) : (opened config connection ns historyLimit b).engine.state.Knows
        ranked topic direction :=
    ⟨Nat.le_max_right _ 1, fun _ _ => Pagination.follows_start⟩
  obtain ⟨hdocuments, hblock⟩ := load_shows rfl hfirst hlimit hnone hshown ht hsort
  refine ⟨hdocuments, fun hsteps hstep => hblock ?_ hstep⟩
  exact tidy_performAll rfl hfirst hlimit hnone (EngineState.tidy_start _ _ _) hsteps

/-- A document with a name. -/
def withName (id : Int64) (name : String) : Document :=
  { Document.ofId (.int id) with fields := [("name", .string name)] }

/-- A new client of a namespace with three documents. It shows one document on a page. -/
def namesClient : Client :=
  opened { EngineConfig.default with pageSize := 1 } "local" "docs" none
    { Backend.empty with
      store := Store.empty.insert "docs" [withName 1 "a", withName 2 "b", withName 3 "c"] }

/-- The documents are ranked by name, from the last one, and two of them are shown. -/
def shownByName : List Act :=
  [.change (.setSort ⟨"name", .desc⟩), .call (.load .default), .call .more]

theorem load_block_shownByName : ∃ options t,
    (namesClient.performAll shownByName).engine.more = some options ∧
      ((namesClient.performAll shownByName).load options).1.engine.state = t ∧
      t.query.pages.page = 3 ∧
      IsBlock (namesClient.backend.store.ranked "docs" ⟨"name", .desc⟩) 1 3 t.documents := by
  obtain ⟨options, hoptions⟩ : ∃ options, options = { LoadOptions.default with append := true } :=
    ⟨_, rfl⟩
  obtain ⟨t, ht⟩ : ∃ t,
      ((namesClient.performAll shownByName).load options).1.engine.state = t := ⟨_, rfl⟩
  have hrun : ((namesClient.performAll shownByName).engine.more,
      ((namesClient.performAll shownByName).load options).2,
      shownByName.inits.all fun earlier =>
        (namesClient.performAll earlier).engine.state.filter.isNone) =
          (some options, .loaded, true) := by
    subst hoptions
    cbv
  have hstate : (t.query.pages.page, t.query.pages.size, t.ns, t.query.sort) =
      (3, 1, "docs", ⟨"name", .desc⟩) := by
    subst ht hoptions
    cbv
  obtain ⟨hmore, hloaded, hnone⟩ : _ ∧ _ ∧ _ := by simpa only [Prod.mk.injEq] using hrun
  obtain ⟨hpage, hsize, hns, hsort⟩ : _ ∧ _ ∧ _ ∧ _ := by simpa only [Prod.mk.injEq] using hstate
  have hrunNone : ∀ earlier, earlier <+: shownByName →
      (namesClient.performAll earlier).engine.state.filter = none := fun earlier hearlier =>
    Option.isNone_iff_eq_none.mp
      (List.all_eq_true.mp hnone earlier ((List.mem_inits earlier shownByName).mpr hearlier))
  have hsteps : namesClient.StaysInStep shownByName := by
    intro earlier k options hearlier hoptions _
    have hmem : Act.call k ∈ shownByName := hearlier.subset (by simp)
    simp only [shownByName, List.mem_cons, reduceCtorEq, Act.call.injEq, List.not_mem_nil,
      or_false, false_or] at hmem
    rcases hmem with rfl | rfl
    · cases hoptions
      intro happend
      cases happend
    · exact inStep_more hoptions
  have hblock := load_block (b := namesClient.backend) rfl (by decide) hrunNone (Or.inl hloaded)
    ht (Or.inl (by rw [hsort]; decide))
  rw [hpage, hsize, hns, hsort] at hblock
  exact ⟨options, t, hmore, ht, hpage, hblock.2 hsteps (inStep_more hmore)⟩

/-- A document is shown, and then the documents are ranked by name, from the last one. -/
def reordered : List Act := [.call (.load .default), .change (.setSort ⟨"name", .desc⟩)]

/-- **Rows in a new order are appended to rows in the old one.** The first document by id is shown,
and the second one from the last name is appended to it. -/
theorem load_not_block :
    ((namesClient.performAll reordered).load { LoadOptions.default with append := true }).2 =
        .loaded ∧
      ¬ IsBlock (namesClient.backend.store.ranked "docs" ⟨"name", .desc⟩) 1 2
        ((namesClient.performAll reordered).load
          { LoadOptions.default with append := true }).1.engine.state.documents := by
  have hrun : (((namesClient.performAll reordered).load
        { LoadOptions.default with append := true }).2,
      ((namesClient.performAll reordered).load
        { LoadOptions.default with append := true }).1.engine.state.documents.map Document.id,
      (namesClient.backend.store.ranked "docs" ⟨"name", .desc⟩).map Document.id) =
        (.loaded, [.int 1, .int 2], [.int 3, .int 2, .int 1]) := by
    cbv
  obtain ⟨hloaded, hdocuments, hranked⟩ : _ ∧ _ ∧ _ := by simpa only [Prod.mk.injEq] using hrun
  refine ⟨hloaded, ?_⟩
  rintro ⟨first, hfirst, hle, hblock⟩
  have hids := congrArg (List.map Document.id) hblock
  rw [hdocuments, List.map_take, List.map_drop, hranked] at hids
  obtain rfl | rfl : first = 1 ∨ first = 2 := by omega
  · simp at hids
  · simp at hids

end Client

end DocQuery
