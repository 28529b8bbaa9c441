import DocQuery.Proofs.Engine.Reload

/-!
# Turning back

A reader of rows ranked by id turns back to the page in front of its own. On the way there the
boundaries of all pages in front were put on record, or few rows lead up to the end of its page, and
fewer still to the end of the page in front. So the page can be planned, unless it lies behind the
last one. A reader can get there while the number of pages is not known.

One way leaves no boundaries behind. A page that would be cut from all rows up to its end may be
taken from the cache instead; then no boundary in front of it is on record, nor is any boundary of
the pages that follow, since the record has no gaps. Two pages further on, the page in front may be
out of reach.

* `Client.previous_failed_iff` – when turning back fails, and why;
* `Client.previous_fails` – a reader goes behind the end of the rows and cannot turn back;
  `Client.previous_fails_behindJump` – nor can one that read on behind a page from the cache.
-/

namespace DocQuery

namespace Client

/-- **When a reader cannot turn back.** After every run without failing calls, where rows are ranked
by id, the namespace exists and the filter compiles, a reader behind the first page may turn back.
That fails exactly if the page in front of its own lies behind the last page of the total that is
known, or no boundary in front of that page is on record and more rows lead up to its end than may
be fetched; and then the failure says so. Otherwise the page is fetched or taken from the cache. The
page is never out of reach if no page that would be cut from all rows up to its end was taken from
the cache since the reader was last on the first page. -/
theorem previous_failed_iff {config : EngineConfig} {connection ns : String}
    {historyLimit : Option Nat} {b : Backend} {deeds : List Deed} {c : Client} {page : Nat}
    (hrun : (opened config connection ns historyLimit b).workAll deeds = c)
    (hhealthy : b.failures = []) (hsort : c.engine.state.query.sort.name = "id") {rows : Rows}
    {p : Option Predicate}
    (hns : c.backend.store.namespaces.get? c.engine.state.ns = some rows)
    (hfilter : Store.predicate? c.engine.state.filter = .ok p)
    (hpage : c.engine.state.query.pages.page = page + 1) (hpos : 1 ≤ page) :
    c.engine.previousPage = .ok (.toPage page) ∧
      ((c.load (.toPage page)).2 = .failed ↔
        (∃ last, c.engine.state.pageCount? = some last ∧ last < page) ∨
          c.engine.state.query.pages.OutOfReach page config.maxOverfetch) ∧
      (∀ last, c.engine.state.pageCount? = some last → last < page →
        (c.load (.toPage page)).1.engine.state.error =
          some (PlanFlaw.pastEnd page last).failure.message) ∧
      ((∀ last, c.engine.state.pageCount? = some last → page ≤ last) →
        c.engine.state.query.pages.OutOfReach page config.maxOverfetch →
          (c.load (.toPage page)).1.engine.state.error =
            some (PlanFlaw.tooManyRows page
              (min (page * c.engine.state.query.pages.size) maxWord)
              config.maxOverfetch).failure.message) ∧
      ((c.load (.toPage page)).2 ≠ .failed →
        (c.load (.toPage page)).2 = .loaded ∨ (c.load (.toPage page)).2 = .cached) ∧
      ((opened config connection ns historyLimit b).walks true deeds = true →
        ¬c.engine.state.query.pages.OutOfReach page config.maxOverfetch) := by
  subst hrun
  have hsteady : ((opened config connection ns historyLimit b).workAll deeds).Steady config
      ((opened config connection ns historyLimit b).walks true deeds) :=
    (steady_opened hhealthy).workAll deeds
  generalize (opened config connection ns historyLimit b).workAll deeds = c at *
  have hle : page ≤ c.engine.state.query.pages.page := by omega
  have hwanted : 1 ≤ (c.startOf (.toPage page)).page := hpos
  obtain ⟨hfailed, hpast, hmany, hshown⟩ := hsteady.failed_iff hsort rfl hwanted hle hns hfilter
  refine ⟨?_, hfailed, hpast, hmany, hshown, fun hwalks => ?_⟩
  · have hprevious : c.engine.state.query.pages.hasPrevious = true := by
      rw [Pagination.hasPrevious, decide_eq_true_iff]
      omega
    rw [Engine.previousPage, hprevious, hpage]
    rfl
  · rw [hwalks] at hsteady
    exact hsteady.not_outOfReach hsort hle

/-- A person turns to the last page. -/
def turnedTwice : List Deed := [.call (.load .default), .call .next, .call .next]

theorem previous_failed_iff_turnedTwice :
    (numbersClient.workAll turnedTwice).engine.previousPage = .ok (.toPage 2) ∧
      (((numbersClient.workAll turnedTwice).load (.toPage 2)).2 = .loaded ∨
        ((numbersClient.workAll turnedTwice).load (.toPage 2)).2 = .cached) := by
  obtain ⟨hwalks, hpage, hpages, hns, hsort, hfilter, hsome⟩ :
      numbersClient.walks true turnedTwice = true ∧
        (numbersClient.workAll turnedTwice).engine.state.query.pages.page = 3 ∧
        (numbersClient.workAll turnedTwice).engine.state.pageCount? = some 3 ∧
        (numbersClient.workAll turnedTwice).engine.state.ns = "docs" ∧
        (numbersClient.workAll turnedTwice).engine.state.query.sort.name = "id" ∧
        (numbersClient.workAll turnedTwice).engine.state.filter = none ∧
        ((numbersClient.workAll turnedTwice).backend.store.namespaces.get? "docs").isSome =
          true := by
    cbv
  obtain ⟨rows, hrows⟩ := Option.isSome_iff_exists.mp hsome
  obtain ⟨hprevious, hfailed, -, -, hshown, hreach⟩ := previous_failed_iff (p := none)
    (c := numbersClient.workAll turnedTwice) rfl rfl hsort (hns ▸ hrows)
    (by rw [hfilter]; rfl) hpage (by decide)
  refine ⟨hprevious, hshown fun h => ?_⟩
  rcases hfailed.mp h with ⟨last, hlast, hbehind⟩ | hout
  · obtain rfl : 3 = last := Option.some.inj (hpages.symm.trans hlast)
    omega
  · exact hreach hwalks hout

/-- The number of pages is not known yet, and a person goes to the fifth of three. -/
def strayed : List Deed := [.call (.goTo 5)]

/-- **Behind the end a reader cannot turn back.** The settings pass their check, and no call fails.
The fifth page is loaded and is empty; it shows that there are three pages, and the fourth one lies
behind the last. -/
theorem previous_fails :
    numbersClient.engine.config.check = .ok numbersClient.engine.config ∧
      numbersBackend.failures = [] ∧ (numbersClient.load (.toPage 5)).2 = .loaded ∧
      (numbersClient.workAll strayed).engine.state.query.sort.name = "id" ∧
      (numbersClient.workAll strayed).engine.state.query.pages.page = 5 ∧
      (numbersClient.workAll strayed).engine.previousPage = .ok (.toPage 4) ∧
      ((numbersClient.workAll strayed).load (.toPage 4)).2 = .failed ∧
      ((numbersClient.workAll strayed).load (.toPage 4)).1.engine.state.error =
        some (PlanFlaw.pastEnd 4 3).failure.message := by
  cbv

/-- **Behind a page that jumped out of the cache a reader cannot turn back.** The settings pass their
check, no call fails, and nothing is written. The third page is taken from the cache, and the two
pages behind it are loaded one after the other. Then the page in front is out of reach: all four
rows up to its end would have to be fetched, and only three may be. -/
theorem previous_fails_behindJump :
    sixClient.engine.config.check = .ok sixClient.engine.config ∧
      sixClient.backend.failures = [] ∧
      ((sixClient.workAll (jumped.take 3)).load (.toPage 3)).2 = .cached ∧
      (sixClient.workAll jumped).engine.nextPage = .ok (.toPage 5) ∧
      ((sixClient.workAll jumped).load (.toPage 5)).2 = .loaded ∧
      (sixClient.workAll (jumped ++ [.call .next])).engine.state.query.sort.name = "id" ∧
      (sixClient.workAll (jumped ++ [.call .next])).engine.state.query.pages.page = 5 ∧
      (sixClient.workAll (jumped ++ [.call .next])).engine.state.pageCount? = some 6 ∧
      (sixClient.workAll (jumped ++ [.call .next])).engine.previousPage = .ok (.toPage 4) ∧
      ((sixClient.workAll (jumped ++ [.call .next])).load (.toPage 4)).2 = .failed ∧
      ((sixClient.workAll (jumped ++ [.call .next])).load (.toPage 4)).1.engine.state.error =
        some (PlanFlaw.tooManyRows 4 4 3).failure.message := by
  cbv

end Client

end DocQuery
