import DocQuery.Proofs.Engine.Cached
import DocQuery.Proofs.Engine.Keys
import DocQuery.Proofs.Store.Counting

/-!
# What the known total counts

A total is learned when a load shows a page, and it stays when something else is asked for. So it
counts the documents that matched at the last load that showed a page, which need not be those that
match now. **It belongs to the present query exactly as long as the filter is the one of that
load.**

* `Client.oneFilter_of_types` – as long as the types of the attributes stay the same, filters with
  the same key are compiled alike;
* `Client.load_shown` – what a load makes of the total that is known;
* `Client.Shows`, `Client.LastShown` – an act shows a page, and is the last one of a run to do so;
* `Client.Counts` – the invariant: the known total is that of the last page that was shown
  (`Client.counts_performAll`);
* `Client.total_of_lastShown` – what follows for the total and for the pages that are refused;
* `Client.total_outlives_filter` – a page of the present query that is refused.
-/

namespace DocQuery

/-! ### One filter -/

/-- States with the same topic and the same types have the same filter. -/
theorem EngineState.filter_of_topic {s t : EngineState} (htopic : s.topic = t.topic)
    (htypes : s.types = t.types) (hs : ∀ f ∈ s.query.filters, f.value.isData = true)
    (ht : ∀ f ∈ t.query.filters, f.value.isData = true) : s.filter = t.filter := by
  have hsearch : trimString s.query.search = trimString t.query.search :=
    congrArg (fun topic => topic.2.2.1) htopic
  have hcontents : s.query.filters.map ActiveFilter.content =
      t.query.filters.map ActiveFilter.content :=
    Engine.filtersKey_inj hs ht (congrArg (fun topic => topic.2.2.2) htopic)
  rw [filter, filter, htypes]
  exact compile_congr hcontents hsearch t.types

namespace Client

/-- **While the types of the attributes stay the same, filters with the same key are compiled
alike.** -/
theorem oneFilter_of_types {c : Client} {acts : List Act} {types : Record FieldType}
    (htypes : ∀ earlier, earlier <+: acts → (c.performAll earlier).engine.state.types = types)
    (hdata : ∀ earlier, earlier <+: acts →
      ∀ f ∈ (c.performAll earlier).engine.state.query.filters, f.value.isData = true)
    {present : List Act} (hpresent : present <+: acts) :
    c.OneFilter acts (c.performAll present).engine.state.topic
      (c.performAll present).engine.state.filter := by
  intro earlier hearlier htopic
  exact EngineState.filter_of_topic htopic
    ((htypes earlier hearlier).trans (htypes present hpresent).symm) (hdata earlier hearlier)
    (hdata present hpresent)

/-! ### What a load makes of the total -/

/-- **A load that is skipped or fails leaves the total**, and one that shows a page brings its
own. -/
theorem load_shown (c : Client) (options : LoadOptions) :
    ((c.load options).1.engine.state.total = c.engine.state.total ∧
        ((c.load options).2 = .skipped ∨ (c.load options).2 = .failed)) ∨
      ∃ e s e' p b, c.engine.enterLoad options true = (e, s) ∧ Ends c e s e' (.ok p) b ∧
        (c.load options).1.engine.state.total = some p.total ∧
        ((c.load options).2 = .loaded ∨ (c.load options).2 = .cached) := by
  obtain ⟨e, s, henter⟩ : ∃ e s, c.engine.enterLoad options true = (e, s) := ⟨_, _, rfl⟩
  have htotal : e.state.total = c.engine.state.total := by
    have heq : e = (c.engine.enterLoad options true).1 := (congrArg Prod.fst henter).symm
    rw [heq, Engine.enterLoad]
    rcases options.limit with _ | size
    · rfl
    · change (c.engine.state.reduce (.setPageSize size)).total = c.engine.state.total
      rw [EngineState.reduce]
      dsimp only
      split <;> rfl
  obtain ⟨-, hsnapshot, -, -⟩ := Engine.enterLoad_eq henter
  rcases c.load_cases options henter with ⟨hload, -⟩ | ⟨e', result, b, hends, hload, hstate, -⟩
  · rw [hload]
    exact Or.inl ⟨rfl, Or.inl rfl⟩
  have htimely : e'.state.generation = s.snapshot.generation :=
    congrArg EngineState.generation (hstate.trans hsnapshot.symm)
  rw [hload, Engine.endLoad_of_timely htimely]
  rcases result with f | p
  · have hsame : e'.state.total = c.engine.state.total := by rw [hstate, htotal]
    exact Or.inl ⟨hsame, Or.inr rfl⟩
  · refine Or.inr ⟨e, s, e', p, b, henter, hends, ?_, ?_⟩
    · obtain ⟨attributes, isDiscovering, happlied⟩ := e'.applyPage_state s.options p
      have hsettled : ((e'.applyPage s.options p).dispatch .loadSettled).state.total =
          (e'.applyPage s.options p).state.total := rfl
      dsimp only
      rw [hsettled, happlied]
      rfl
    · dsimp only
      split
      · exact Or.inr rfl
      · exact Or.inl rfl

/-- A call that does not load leaves the total. -/
theorem total_invoke {c : Client} {k : Call} (h : k.options? c.engine = none) :
    (c.invoke k).engine.state.total = c.engine.state.total := by
  obtain ⟨attributes, isDiscovering, error, hstate⟩ := invoke_of_none h
  rw [hstate]

/-- With a known total, a page is refused exactly if it lies behind the last one. -/
theorem refused_iff {e : Engine} {n page : Nat} (htotal : e.state.total = some n)
    (hpage : 1 ≤ page) : (∃ fault, e.goToPage page = .error fault) ↔
      pageCount n e.state.query.pages.size < page := by
  have hcount : e.state.pageCount? = some (pageCount n e.state.query.pages.size) := by
    rw [EngineState.pageCount?, htotal]
    rfl
  have hzero : page ≠ 0 := by omega
  rw [Engine.goToPage, hcount]
  by_cases hbehind : pageCount n e.state.query.pages.size < page
  · simp [hbehind]
  · simp [hbehind, hzero]

/-! ### The last page that was shown -/

/-- The act is a load that shows a page. -/
def Shows (c : Client) : Act → Prop
  | .call k => ∃ options, k.options? c.engine = some options ∧
      ((c.load options).2 = .loaded ∨ (c.load options).2 = .cached)
  | _ => False

/-- The act that follows `earlier` is the last one of the run to show a page. -/
def LastShown (c : Client) (acts earlier : List Act) : Prop :=
  (∃ a, earlier ++ [a] <+: acts ∧ (c.performAll earlier).Shows a) ∧
    ∀ later a, later ++ [a] <+: acts → earlier.length < later.length →
      ¬ (c.performAll later).Shows a

theorem lastShown_self {c : Client} {acts : List Act} {a : Act}
    (h : (c.performAll acts).Shows a) : c.LastShown (acts ++ [a]) acts := by
  refine ⟨⟨a, List.prefix_rfl, h⟩, fun later x hlater hlength => ?_⟩
  have hle := hlater.length_le
  rw [List.length_append, List.length_append, List.length_singleton, List.length_singleton] at hle
  omega

theorem LastShown.concat {c : Client} {acts earlier : List Act} (h : c.LastShown acts earlier)
    {a : Act} (ha : ¬ (c.performAll acts).Shows a) : c.LastShown (acts ++ [a]) earlier := by
  obtain ⟨⟨first, hfirst, hshows⟩, hlast⟩ := h
  refine ⟨⟨first, hfirst.trans (List.prefix_append acts [a]), hshows⟩, fun later x hlater => ?_⟩
  rcases List.prefix_concat_iff.mp hlater with hwhole | hlater
  · obtain ⟨rfl, hx⟩ := List.append_inj' hwhole rfl
    cases hx
    exact fun _ => ha
  · exact hlast later x hlater

/-! ### The invariant -/

/-- **The known total is that of the last page that was shown**: the documents that matched the
filter of that time, in a namespace that has not been left since. -/
def Counts (c : Client) (acts : List Act) : Prop :=
  ∀ n, (c.performAll acts).engine.state.total = some n → ∃ earlier, c.LastShown acts earlier ∧
    (c.performAll earlier).engine.state.ns = (c.performAll acts).engine.state.ns ∧
    n = c.backend.store.matching (c.performAll acts).engine.state.ns
      (c.performAll earlier).engine.state.filter

/-- An act that shows no page leaves the total, or there is none any more. -/
theorem Counts.concat {c : Client} {acts : List Act} (h : c.Counts acts) {a : Act}
    (ha : ¬ (c.performAll acts).Shows a)
    (htotal : ((c.performAll acts).perform a).engine.state.total = none ∨
      ((c.performAll acts).perform a).engine.state.total = (c.performAll acts).engine.state.total ∧
        ((c.performAll acts).perform a).engine.state.ns = (c.performAll acts).engine.state.ns) :
    c.Counts (acts ++ [a]) := by
  intro n hn
  rw [performAll_concat] at hn ⊢
  rcases htotal with hnone | ⟨hsame, hns⟩
  · rw [hnone] at hn
    cases hn
  · obtain ⟨earlier, hlast, hplace, hcount⟩ := h n (hsame ▸ hn)
    refine ⟨earlier, hlast.concat ha, ?_, ?_⟩
    · rw [hns, hplace]
    · rw [hns]
      exact hcount

/-- A change leaves the total, or it goes to another namespace, of which no total is known. -/
theorem Counts.change {c : Client} {acts : List Act} (h : c.Counts acts) (ch : Change) :
    c.Counts (acts ++ [.change ch]) := by
  refine h.concat (fun h => h) ?_
  change ((c.performAll acts).engine.change ch).state.total = none ∨
    ((c.performAll acts).engine.change ch).state.total = _ ∧
      ((c.performAll acts).engine.change ch).state.ns = _
  rcases (c.performAll acts).engine.change_cases ch with heq | ⟨a, ha, heq⟩
  · rw [heq]
    exact Or.inr ⟨rfl, rfl⟩
  · rw [heq]
    rcases EngineState.shown_of_isInput (s := (c.performAll acts).engine.state) ha with
      ⟨hns, -, htotal, -⟩ | ⟨-, htotal, -⟩
    · exact Or.inr ⟨htotal, hns⟩
    · exact Or.inl htotal

section Runs

variable {c : Client} (hsize : ∀ ns, c.backend.store.size ns < 2 ^ 63)

include hsize

/-- What a load finds brings the number of the documents that match its filter. -/
theorem total_of_fetch {s : LoadStart} {config : EngineConfig} {p : FetchedPage}
    (h : s.fetch c.backend.store config = .ok p) :
    p.total = c.backend.store.matching s.snapshot.ns s.filter := by
  obtain ⟨plan, counted, total, r, -, hcounted, htotal, -, rfl⟩ := LoadStart.fetch_eq_ok_iff.mp h
  exact Store.count_eq_matching (Store.reply_eq_ok_iff.mp hcounted) (hsize _) htotal

/-- **A page that is shown brings the number of the documents that match now**, if filters with the
same topic are compiled alike in the run. -/
theorem total_of_shown {acts : List Act} (hkept : c.Kept acts)
    (hone : c.OneFilter acts (c.performAll acts).engine.state.topic
      (c.performAll acts).engine.state.filter)
    {options : LoadOptions} {e e' : Engine} {s : LoadStart} {p : FetchedPage} {b : Backend}
    (henter : (c.performAll acts).engine.enterLoad options true = (e, s))
    (hends : Ends (c.performAll acts) e s e' (.ok p) b) :
    p.total = c.backend.store.matching (c.performAll acts).engine.state.ns
      (c.performAll acts).engine.state.filter := by
  have hstart : (c.performAll acts).startOf options = s := congrArg Prod.snd henter
  obtain ⟨hinputs, hfilter, -⟩ := (c.performAll acts).startOf_eq options
  rw [hstart] at hinputs hfilter
  have hns : s.snapshot.ns = (c.performAll acts).engine.state.ns :=
    congrArg (fun inputs => inputs.2.1) hinputs
  rw [← hns, ← hfilter]
  cases hends with
  | hit plan page e' hforce hplan hcached =>
    -- the page was found by a load with the same key, so with the same filter
    obtain ⟨-, -, -, hcache⟩ := Engine.enterLoad_eq henter
    have hsourced : c.Sourced acts s.key page :=
      TtlCache.Holds.of_get (hcache ▸ hkept.sourced) (congrArg Prod.fst hcached)
    obtain ⟨earlier, hearlier, options', q, hkey, hfetch, rfl⟩ := hsourced
    obtain ⟨-, hconnection, hplace, -, -, hsearch, hfilters⟩ := LoadStart.eq_of_key_eq hkey
    obtain ⟨hinputs', hfilter', -⟩ := (c.performAll earlier).startOf_eq options'
    have htopic : (c.performAll earlier).engine.state.topic =
        (c.performAll acts).engine.state.topic := by
      rw [← EngineState.topic_of_inputs hinputs', ← EngineState.topic_of_inputs hinputs,
        EngineState.topic, EngineState.topic, hconnection, hplace, hsearch, hfilters]
    rw [total_of_fetch hsize hfetch, hplace, hfilter', hfilter, hone earlier hearlier htopic]
  | fetched plan e' result b hplan hlook hfinds =>
    have hfetch := hfinds.found p rfl
    rw [hkept.store] at hfetch
    exact total_of_fetch hsize hfetch

/-- A call shows a page, with the total of the present filter, or it leaves the total. -/
theorem Counts.call {acts : List Act} (h : c.Counts acts) (hkept : c.Kept acts)
    (hone : c.OneFilter acts (c.performAll acts).engine.state.topic
      (c.performAll acts).engine.state.filter) (k : Call) : c.Counts (acts ++ [.call k]) := by
  have hns : ((c.performAll acts).invoke k).engine.state.ns =
      (c.performAll acts).engine.state.ns :=
    congrArg (fun inputs => inputs.2.1) ((c.performAll acts).inputs_invoke k)
  cases hoptions : k.options? (c.performAll acts).engine with
  | none =>
    refine h.concat ?_ (Or.inr ⟨total_invoke hoptions, hns⟩)
    rintro ⟨options, hload, -⟩
    rw [hoptions] at hload
    cases hload
  | some options =>
    rcases (c.performAll acts).load_shown options with ⟨htotal, houtcome⟩ |
      ⟨e, s, e', p, b, henter, hends, htotal, houtcome⟩
    · refine h.concat ?_ (Or.inr ⟨?_, hns⟩)
      · rintro ⟨options', hload, hshown⟩
        rw [hoptions] at hload
        cases hload
        rcases houtcome with houtcome | houtcome
        · simp [houtcome] at hshown
        · simp [houtcome] at hshown
      · rw [perform, invoke_load hoptions]
        exact htotal
    · intro n hn
      rw [performAll_concat, perform] at hn ⊢
      rw [invoke_load hoptions, htotal] at hn
      cases hn
      refine ⟨acts, lastShown_self ⟨options, hoptions, houtcome⟩, hns.symm, ?_⟩
      rw [hns]
      exact total_of_shown hsize hkept hone henter hends

/-- **The invariant of runs**, in which filters with the same topic are compiled alike. -/
theorem counts_performAll (hnew : c.engine.cache.queries.entries = [])
    (hfirst : c.engine.state.total = none) {acts : List Act}
    (hone : ∀ present, present <+: acts → c.OneFilter acts
      (c.performAll present).engine.state.topic (c.performAll present).engine.state.filter) :
    c.Counts acts := by
  induction acts using List.reverseRecOn with
  | nil =>
    intro n hn
    rw [performAll_nil, hfirst] at hn
    cases hn
  | append_singleton acts a ih =>
    have hbefore : ∀ present, present <+: acts → c.OneFilter acts
        (c.performAll present).engine.state.topic (c.performAll present).engine.state.filter :=
      fun present hpresent earlier hearlier =>
        hone present (hpresent.trans (List.prefix_append acts [a])) earlier
          (hearlier.trans (List.prefix_append acts [a]))
    have ih := ih hbefore
    cases a with
    | change ch => exact ih.change ch
    | fail f => exact ih.concat (fun h => h) (Or.inr ⟨rfl, rfl⟩)
    | call k =>
      exact ih.call hsize (kept_performAll hnew acts) (hbefore acts List.prefix_rfl) k

end Runs

/-! ### What follows for every run -/

/-- **A known total belongs to the last page that was shown.** In every run without writes, as long
as filters with the same key are compiled alike, the total counts the documents that matched when a
page was shown for the last time, in the namespace that is still shown. If the filter is the same
now, then the total is that of the present query, and a page is refused exactly if it lies behind
the last page of that. -/
theorem total_of_lastShown {config : EngineConfig} {connection ns : String}
    {historyLimit : Option Nat} {b : Backend} {acts : List Act} {c : Client}
    (hrun : (opened config connection ns historyLimit b).performAll acts = c)
    (hsize : ∀ ns, b.store.size ns < 2 ^ 63)
    (hone : ∀ present, present <+: acts →
      (opened config connection ns historyLimit b).OneFilter acts
      ((opened config connection ns historyLimit b).performAll present).engine.state.topic
      ((opened config connection ns historyLimit b).performAll present).engine.state.filter)
    {n : Nat} (htotal : c.engine.state.total = some n) :
    ∃ earlier t, (opened config connection ns historyLimit b).LastShown acts earlier ∧
      ((opened config connection ns historyLimit b).performAll earlier).engine.state = t ∧
      t.ns = c.engine.state.ns ∧ n = b.store.matching t.ns t.filter ∧
      (t.filter = c.engine.state.filter →
        n = b.store.matching c.engine.state.ns c.engine.state.filter ∧
        ∀ page, 1 ≤ page → ((∃ fault, c.engine.goToPage page = .error fault) ↔
          pageCount (b.store.matching c.engine.state.ns c.engine.state.filter)
            c.engine.state.query.pages.size < page)) := by
  have hcounts : (opened config connection ns historyLimit b).Counts acts :=
    counts_performAll hsize rfl rfl hone
  subst hrun
  obtain ⟨earlier, hlast, hns, hn⟩ := hcounts n htotal
  refine ⟨earlier, _, hlast, rfl, hns, ?_, fun hfilter => ?_⟩
  · rw [hns]
    exact hn
  · rw [hfilter] at hn
    have hn' : n = b.store.matching _ _ := hn
    refine ⟨hn, fun page hpage => ?_⟩
    rw [← hn']
    exact refused_iff htotal hpage

/-- A backend whose namespace holds three documents. -/
def lettersBackend : Backend :=
  { Backend.empty with
    store := Store.empty.insert "docs"
      [.ofId (.string "a"), .ofId (.string "b"), .ofId (.string "c")] }

/-- A new client of it, which shows one document on a page. -/
def lettersClient : Client :=
  opened { EngineConfig.default with pageSize := 1 } "local" "docs" none lettersBackend

/-- One document is asked for, and found. -/
def oneLetter : List Act := [.change (.addFilter "id" .equals "a"), .call (.load .default)]

/-- And after that all are asked for. -/
def oneLetterCleared : List Act := oneLetter ++ [.change .clearFilters]

theorem size_lettersBackend (ns : String) : lettersBackend.store.size ns < 2 ^ 63 := by
  have hrows : lettersBackend.store.rows ns =
      if ns = "docs" then lettersBackend.store.rows "docs" else [] := by
    by_cases hns : ns = "docs"
    · rw [if_pos hns, hns]
    · rw [if_neg hns]
      simp [lettersBackend, Store.rows, Store.insert, Store.withRows, Store.empty, Record.insert,
        Record.get?, hns]
  have hdocs : (lettersBackend.store.rows "docs").length = 3 := by decide +kernel
  rw [Store.size, hrows]
  split
  · rw [hdocs]
    decide
  · decide

theorem total_of_lastShown_oneLetter :
    (lettersClient.performAll oneLetter).engine.state.total = some 1 ∧
      ∃ earlier, lettersClient.LastShown oneLetter earlier ∧
        1 = lettersBackend.store.matching (lettersClient.performAll earlier).engine.state.ns
          (lettersClient.performAll earlier).engine.state.filter := by
  have htotal : (lettersClient.performAll oneLetter).engine.state.total = some 1 := by
    decide +kernel
  have htypes : ∀ earlier ∈ oneLetter.inits,
      (lettersClient.performAll earlier).engine.state.types = [] := by
    decide +kernel
  have hdata : ∀ earlier ∈ oneLetter.inits,
      ((lettersClient.performAll earlier).engine.state.query.filters.all fun f => f.value.isData) =
        true := by
    decide +kernel
  refine ⟨htotal, ?_⟩
  obtain ⟨earlier, t, hlast, rfl, -, hn, -⟩ := total_of_lastShown
    (c := lettersClient.performAll oneLetter) rfl size_lettersBackend
    (fun present hpresent => oneFilter_of_types
      (fun earlier hearlier => htypes earlier ((List.mem_inits earlier oneLetter).mpr hearlier))
      (fun earlier hearlier =>
        List.all_eq_true.mp (hdata earlier ((List.mem_inits earlier oneLetter).mpr hearlier)))
      hpresent) htotal
  exact ⟨earlier, hlast, hn⟩

/-- **A total can outlive its filter.** One document is found by its id, and all three are asked for
after that. The total is still one, and the last one of three pages is refused, although no type was
learned on the way. -/
theorem total_outlives_filter :
    (∀ earlier ∈ oneLetterCleared.inits,
        (lettersClient.performAll earlier).engine.state.types = []) ∧
      (lettersClient.performAll oneLetterCleared).engine.state.total = some 1 ∧
      lettersBackend.store.matching "docs"
        (lettersClient.performAll oneLetterCleared).engine.state.filter = 3 ∧
      (lettersClient.performAll oneLetterCleared).engine.state.query.pages.size = 1 ∧
      pageCount 3 1 = 3 ∧
      (lettersClient.performAll oneLetterCleared).engine.goToPage 3 =
        .error (.outOfRange 3 1) := by
  decide +kernel

end Client

end DocQuery
