import DocQuery.Proofs.Engine.Session
import Mathlib

/-!
# The filters of what is sent

Between two changes of what is asked for, loads turn pages, append rows and begin again. Each of
them compiles the active filters anew, with the attributes that are known by then, and it is the
rows of the loads in front of it that teach attributes.

* `ActiveFilter.compile_eq_iff` – what a type does to a filter: some operators
  (`Operator.readsType`) ask whether the attribute holds arrays, and nothing else is asked;
* `EngineState.filter_eq_iff` – so two states compile the same filters alike exactly if they agree
  on that;
* `Client.sendsAll` – what the loads of a run of calls send, which the backend receives
  (`Client.load_backend`);
* `Client.one_filter_iff` – **all queries carry one filter exactly if all loads agree on which of
  those attributes hold arrays**.
-/

namespace DocQuery

/-! ### What a type does to a filter -/

namespace Operator

/-- Operators that mean something else on arrays. -/
def readsType : Operator → Bool
  | .equals | .notEquals | .contains => true
  | _ => false

end Operator

/-- Arrays are expected where the type is known. -/
def holdsArrays (type : Option FieldType) : Bool := (type.map FieldType.isArray).getD false

namespace ActiveFilter

/-- Two types make the same of a filter exactly if they agree on arrays, should its operator ask. -/
theorem compile_eq_iff (f : ActiveFilter) (type type' : Option FieldType) :
    f.compile type = f.compile type' ↔
      (f.operator.readsType = true → holdsArrays type = holdsArrays type') := by
  unfold compile holdsArrays
  generalize (type.map FieldType.isArray).getD false = isArray
  generalize (type'.map FieldType.isArray).getD false = isArray'
  cases hop : f.operator with
  | equals => cases isArray <;> cases isArray' <;> simp [Operator.readsType]
  | notEquals => cases isArray <;> cases isArray' <;> simp [Operator.readsType]
  | contains =>
    cases isArray <;> cases isArray' <;> simp [Operator.readsType] <;> split <;> simp
  | _ => simp [Operator.readsType]

end ActiveFilter

/-- Conjunctions of equally many filters are equal only if the filters are. -/
theorem Filter.all_inj {xs ys : List Filter} (hlength : xs.length = ys.length)
    (h : Filter.all xs = Filter.all ys) : xs = ys := by
  match xs, ys with
  | [], [] => rfl
  | [x], [y] =>
    cases h
    rfl
  | x :: x' :: xs, y :: y' :: ys =>
    cases h
    rfl

namespace EngineState

/-- The attribute is known to hold arrays. -/
def holdsArrays (s : EngineState) (name : String) : Bool := DocQuery.holdsArrays (s.types.get? name)

/-- **States that ask for the same compile the same filter exactly if they agree on arrays**, as far
as a filter asks. -/
theorem filter_eq_iff {s t : EngineState} (hfilters : s.query.filters = t.query.filters)
    (hsearch : s.query.search = t.query.search) :
    s.filter = t.filter ↔ ∀ f ∈ t.query.filters, f.operator.readsType = true →
      s.holdsArrays f.name = t.holdsArrays f.name := by
  have hconditions : s.filter = t.filter ↔
      t.query.filters.map (fun f => f.compile (s.types.get? f.name)) =
        t.query.filters.map fun f => f.compile (t.types.get? f.name) := by
    rw [filter, filter, DocQuery.compile, DocQuery.compile, hfilters, hsearch]
    refine ⟨fun h => ?_, fun h => by rw [h]⟩
    exact List.append_cancel_left (Filter.all_inj (by simp) h)
  rw [hconditions, List.map_inj_left]
  exact forall₂_congr fun f _ => f.compile_eq_iff _ _

end EngineState

/-! ### What is sent -/

/-- A query carries a filter: as it is or, for rows, with a bound on ids. -/
def QueryRequest.Carries (r : QueryRequest) (filter : Option Filter) : Prop :=
  r.filter = filter ∨
    r.aggregates = none ∧ ∃ v dir, r.filter = some (Filter.withCursor filter v dir)

namespace Engine

variable (config : EngineConfig) (request : QueryRequest)

/-- A consistency changes nothing else of a query. -/
@[simp] theorem consistent_filter : (consistent config request).filter = request.filter := by
  unfold consistent QueryRequest.withConsistency
  cases config.consistency <;> rfl

@[simp] theorem consistent_aggregates :
    (consistent config request).aggregates = request.aggregates := by
  unfold consistent QueryRequest.withConsistency
  cases config.consistency <;> rfl

end Engine

namespace Load

variable (s : LoadStart) (plan : PagePlan) (total : Nat) (config : EngineConfig)

theorem start_filter : s.filter = s.snapshot.filter := by
  rw [LoadStart.filter, EngineState.filter]

/-- The query for the total has the filter of the load. -/
theorem request_counting : (request ⟨s, plan, .counting⟩ config).filter = s.snapshot.filter ∧
    (request ⟨s, plan, .counting⟩ config).aggregates ≠ none := by
  unfold request
  dsimp only
  rw [Engine.consistent_filter, Engine.consistent_aggregates, QueryRequest.count]
  dsimp only
  exact ⟨start_filter s, Option.some_ne_none _⟩

/-- The query for the rows has the filter of the load, perhaps with a bound. -/
theorem carries_fetching :
    (request ⟨s, plan, .fetching total⟩ config).Carries s.snapshot.filter := by
  unfold request QueryRequest.Carries
  dsimp only
  rw [Engine.consistent_filter, Engine.consistent_aggregates, QueryRequest.rows, rowsFilter,
    start_filter]
  dsimp only
  cases plan.cursor? with
  | none => exact Or.inl rfl
  | some v => exact Or.inr ⟨rfl, v, _, rfl⟩

end Load

namespace Client

/-- The queries that the load of a call sends. -/
def callSends (c : Client) (k : Call) : List (LoadStart × QueryRequest) :=
  match k.options? c.engine with
  | some options => c.sends options
  | none => []

/-- The queries that the loads of some calls send, each with the beginning of its load. -/
def sendsAll (c : Client) : List Call → List (LoadStart × QueryRequest)
  | [] => []
  | k :: calls => c.callSends k ++ (c.invoke k).sendsAll calls

/-- A query of a load belongs to its beginning, and the query for the total comes first. -/
theorem mem_callSends {c : Client} {k : Call} {x : LoadStart × QueryRequest}
    (hx : x ∈ c.callSends k) : x.1.snapshot.inputs = c.engine.state.inputs ∧
      x.2.Carries x.1.snapshot.filter ∧
      ∃ r, (x.1, r) ∈ c.callSends k ∧ r.filter = x.1.snapshot.filter ∧ r.aggregates ≠ none := by
  unfold callSends at hx ⊢
  cases hoptions : k.options? c.engine with
  | none =>
    rw [hoptions] at hx
    cases hx
  | some options =>
    rw [hoptions] at hx
    dsimp only at hx ⊢
    obtain ⟨e, s, henter⟩ : ∃ e s, c.engine.enterLoad options true = (e, s) := ⟨_, _, rfl⟩
    obtain ⟨hinputs, -, -⟩ := Engine.enterLoad_restarts henter
    have hcounting (plan : PagePlan) := Load.request_counting s plan e.config
    rcases c.load_cases options henter with ⟨-, hsends, -⟩ | ⟨-, -, -, -, -, -, hsends⟩
    · rw [hsends] at hx
      cases hx
    rcases hsends with hsends | ⟨plan, -, hsends | ⟨total, hsends⟩⟩
    · rw [hsends] at hx
      cases hx
    · rw [hsends] at hx ⊢
      obtain rfl := List.mem_singleton.mp hx
      exact ⟨hinputs, Or.inl (hcounting plan).1, _, List.mem_singleton_self _, hcounting plan⟩
    · rw [hsends] at hx ⊢
      obtain rfl | hx := List.mem_cons.mp hx
      · exact ⟨hinputs, Or.inl (hcounting plan).1, _, List.mem_cons_self, hcounting plan⟩
      · obtain rfl := List.mem_singleton.mp hx
        exact ⟨hinputs, Load.carries_fetching s plan total e.config, _, List.mem_cons_self,
          hcounting plan⟩

/-- **All calls of a run ask for the same**, and each query belongs to the beginning of its load. -/
theorem mem_sendsAll {c : Client} {calls : List Call} {x : LoadStart × QueryRequest}
    (hx : x ∈ c.sendsAll calls) : x.1.snapshot.inputs = c.engine.state.inputs ∧
      x.2.Carries x.1.snapshot.filter ∧
      ∃ r, (x.1, r) ∈ c.sendsAll calls ∧ r.filter = x.1.snapshot.filter ∧ r.aggregates ≠ none := by
  induction calls generalizing c with
  | nil => cases hx
  | cons k calls ih =>
    rw [sendsAll] at hx ⊢
    rcases List.mem_append.mp hx with hx | hx
    · obtain ⟨hinputs, hcarries, r, hr, hfilter⟩ := mem_callSends hx
      exact ⟨hinputs, hcarries, r, List.mem_append_left _ hr, hfilter⟩
    · obtain ⟨hinputs, hcarries, r, hr, hfilter⟩ := ih hx
      exact ⟨hinputs.trans (c.inputs_invoke k), hcarries, r, List.mem_append_right _ hr, hfilter⟩

/-- **One question has one filter exactly if no load learns of arrays.** Between two changes of what
is asked for, all queries that loads send carry one filter, apart from bounds on ids, exactly if all
these loads agree, for every filter whose operator asks, on whether its attribute holds arrays. -/
theorem one_filter_iff (c : Client) (calls : List Call) :
    (∃ filter, ∀ x ∈ c.sendsAll calls, x.2.Carries filter) ↔
      ∀ x ∈ c.sendsAll calls, ∀ y ∈ c.sendsAll calls, ∀ f ∈ c.engine.state.query.filters,
        f.operator.readsType = true →
          x.1.snapshot.holdsArrays f.name = y.1.snapshot.holdsArrays f.name := by
  -- loads agree on arrays exactly if they compile the same filter
  have hagree : ∀ x ∈ c.sendsAll calls, ∀ y ∈ c.sendsAll calls,
      (x.1.snapshot.filter = y.1.snapshot.filter ↔
        ∀ f ∈ c.engine.state.query.filters, f.operator.readsType = true →
          x.1.snapshot.holdsArrays f.name = y.1.snapshot.holdsArrays f.name) := by
    intro x hx y hy
    obtain ⟨-, -, hxsearch, hxfilters, -⟩ := EngineState.inputs_eq_iff.mp (mem_sendsAll hx).1
    obtain ⟨-, -, hysearch, hyfilters, -⟩ := EngineState.inputs_eq_iff.mp (mem_sendsAll hy).1
    rw [← hyfilters]
    exact EngineState.filter_eq_iff (hxfilters.trans hyfilters.symm)
      (hxsearch.trans hysearch.symm)
  constructor
  · rintro ⟨filter, hall⟩ x hx y hy
    -- the query for the total of each load has the filter of the load
    have hone : ∀ x ∈ c.sendsAll calls, x.1.snapshot.filter = filter := by
      intro x hx
      obtain ⟨-, -, r, hr, hfilter, hcounts⟩ := mem_sendsAll hx
      rcases hall _ hr with h | ⟨h, -⟩
      · exact hfilter.symm.trans h
      · exact absurd h hcounts
    exact (hagree x hx y hy).mp ((hone x hx).trans (hone y hy).symm)
  · intro h
    cases hsends : c.sendsAll calls with
    | nil => exact ⟨none, fun x hx => by cases hx⟩
    | cons x rest =>
      have hfirst : x ∈ c.sendsAll calls := hsends ▸ List.mem_cons_self
      refine ⟨x.1.snapshot.filter, fun y hy => ?_⟩
      have hy : y ∈ c.sendsAll calls := hsends ▸ hy
      rw [(hagree x hfirst y hy).mpr (h x hfirst y hy)]
      exact (mem_sendsAll hy).2.1

/-- The filter is a negation. -/
def negates : Option Filter → Bool
  | some (.not _) => true
  | _ => false

/-- **A load can teach what a filter means.** Two loads in a row send filters that are not the same:
the first one compares tags with a text, and its rows show that tags are arrays. -/
theorem one_filter_untagged : ¬∃ filter, ∀ x ∈ (tagsClient.perform (.change untagged)).sendsAll
    [.load .default, .load .forced], x.2.Carries filter := by
  have hsends : ((tagsClient.perform (.change untagged)).sendsAll
      [.load .default, .load .forced]).map (fun x => (x.2.aggregates.isSome, negates x.2.filter)) =
        [(true, false), (false, false), (true, true), (false, true)] := by
    cbv
  rintro ⟨filter, hall⟩
  -- the queries for the totals have filters without bounds
  have hcount : ∀ b, (true, b) ∈ [(true, false), (false, false), (true, true), (false, true)] →
      b = negates filter := by
    intro b hb
    rw [← hsends] at hb
    obtain ⟨x, hx, heq⟩ := List.mem_map.mp hb
    obtain ⟨hcounts, rfl⟩ := Prod.ext_iff.mp heq
    rcases hall x hx with h | ⟨h, -⟩
    · exact congrArg negates h
    · rw [h] at hcounts
      cases hcounts
  have hfirst := hcount false List.mem_cons_self
  have hsecond := hcount true (by decide)
  rw [← hfirst] at hsecond
  cases hsecond

end Client

end DocQuery
