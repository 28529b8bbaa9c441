import DocQuery.Proofs.Engine.Session

/-!
# Runs of actions

A state is reached from a new one by actions alone. Some facts about states do not depend on who
sends the actions: they hold after every run, whatever the actions are and in whatever order.

* `EngineState.reduceAll` – the state after a run of actions;
* `EngineState.brought` – the filters that an action brings in. What an action does to the ids of
  filters is said once (`EngineState.ids_reduce`); so the ids of the active filters increase
  (`EngineState.Numbered`), and those of the filters that a run brings in are consecutive
  (`EngineState.broughtAll_ids`): **no id is given twice**;
* `EngineState.settlings` – the ends of loads that were under way, by which the loads in flight are
  counted (`EngineState.inFlight_reduceAll`);
* `EngineState.restarts_of_ne` – whatever changes what is asked for begins a new generation, on the
  first page;
* `EngineState.reduceAll_sound` – all of it, for every run.

One thing is asked of a run: a load that succeeds brings paging with the size that is set
(`Action.Fits`). The paging of a load is that of its snapshot, and it is applied in the generation
of the snapshot only.
-/

namespace DocQuery

namespace Action

/-- A load that succeeds brings paging with the size that is set. -/
def Fits (s : EngineState) : Action → Prop
  | .loadSucceeded _ _ pages _ => pages.size = s.query.pages.size
  | _ => True

/-- A load begins. -/
def isStart : Action → Bool
  | .loadStarted => true
  | _ => false

end Action

namespace EngineState

/-- The state after a run of actions. -/
def reduceAll (s : EngineState) (as : List Action) : EngineState := as.foldl reduce s

/-- Every load of a run that succeeds brings paging with the size that is set by then. -/
def AllFit (s : EngineState) : List Action → Prop
  | [] => True
  | a :: as => a.Fits s ∧ (s.reduce a).AllFit as

variable {s : EngineState} {a : Action} {as : List Action}

@[simp] theorem reduceAll_nil : s.reduceAll [] = s := rfl

@[simp] theorem reduceAll_cons : s.reduceAll (a :: as) = (s.reduce a).reduceAll as := rfl

/-! ### The ids of the filters -/

/-- The filters that an action brings in, as they stand in the state after it: the one behind the
filters that were there already, or those that replace them. -/
def brought (s : EngineState) (a : Action) : List ActiveFilter :=
  match a with
  | .addFilter _ => (s.reduce a).query.filters.drop s.query.filters.length
  | .restoreQuery _ _ => (s.reduce a).query.filters
  | _ => []

/-- The filters that a run brings in. -/
def broughtAll (s : EngineState) : List Action → List ActiveFilter
  | [] => []
  | a :: as => s.brought a ++ (s.reduce a).broughtAll as

/-- The ids of the active filters. -/
def filterIds (s : EngineState) : List Nat := s.query.filters.map ActiveFilter.id

theorem renumber_ids (id : Nat) (fs : List ActiveFilter) :
    (renumber id fs).map ActiveFilter.id = List.range' id fs.length := by
  induction fs generalizing id with
  | nil => rfl
  | cons f fs ih => rw [renumber, List.map_cons, ih, List.length_cons, List.range'_succ]

theorem length_renumber (id : Nat) (fs : List ActiveFilter) :
    (renumber id fs).length = fs.length := by
  rw [← List.length_map ActiveFilter.id, renumber_ids, List.length_range']

theorem replaceFilter_ids (f : ActiveFilter) (fs : List ActiveFilter) :
    (replaceFilter f fs).map ActiveFilter.id = fs.map ActiveFilter.id := by
  induction fs with
  | nil => rfl
  | cons g fs ih =>
    rw [replaceFilter]
    split
    case isTrue hid => rw [List.map_cons, List.map_cons, hid]
    case isFalse => rw [List.map_cons, List.map_cons, ih]

/-- **What an action does to the ids of the filters**: it keeps some, and the filters that it brings
in have the next ones and stand behind them. -/
theorem ids_reduce (s : EngineState) (a : Action) :
    (s.brought a).map ActiveFilter.id = List.range' s.nextFilterId (s.brought a).length ∧
      (s.reduce a).nextFilterId = s.nextFilterId + (s.brought a).length ∧
      ∃ kept, kept.Sublist s.filterIds ∧
        (s.reduce a).filterIds = kept ++ (s.brought a).map ActiveFilter.id := by
  -- most actions bring in nothing
  have hkeep {t : EngineState} (hids : t.filterIds.Sublist s.filterIds)
      (hnext : t.nextFilterId = s.nextFilterId) :
      ([] : List Nat) = List.range' s.nextFilterId 0 ∧ t.nextFilterId = s.nextFilterId + 0 ∧
        ∃ kept, kept.Sublist s.filterIds ∧ t.filterIds = kept ++ [] :=
    ⟨rfl, hnext, _, hids, (List.append_nil _).symm⟩
  cases a with
  | addFilter f =>
    have hbrought : s.brought (.addFilter f) = [{ f with id := s.nextFilterId }] :=
      List.drop_left
    rw [hbrought]
    exact ⟨rfl, rfl, s.filterIds, List.Sublist.refl _, List.map_append⟩
  | restoreQuery search filters =>
    have hbrought : s.brought (.restoreQuery search filters) =
        renumber s.nextFilterId filters := rfl
    rw [hbrought, length_renumber, renumber_ids]
    exact ⟨rfl, rfl, [], List.nil_sublist _, renumber_ids _ _⟩
  | updateFilter f =>
    rw [reduce]
    split
    case isTrue =>
      refine hkeep ?_ rfl
      change ((replaceFilter f s.query.filters).map ActiveFilter.id).Sublist _
      rw [replaceFilter_ids]
      exact List.Sublist.refl _
    case isFalse => exact hkeep (List.Sublist.refl _) rfl
  | removeFilter id =>
    rw [reduce]
    dsimp only
    split
    case isTrue => exact hkeep (List.filter_sublist.map _) rfl
    case isFalse => exact hkeep (List.Sublist.refl _) rfl
  | clearFilters =>
    rw [reduce]
    split
    case isTrue => exact hkeep (List.Sublist.refl _) rfl
    case isFalse => exact hkeep (List.nil_sublist _) rfl
  | setNamespace connection ns => exact hkeep (List.nil_sublist _) rfl
  | setSearch text =>
    rw [reduce]
    split <;> exact hkeep (List.Sublist.refl _) rfl
  | setSort sort =>
    rw [reduce]
    split <;> exact hkeep (List.Sublist.refl _) rfl
  | setPageSize size =>
    rw [reduce]
    dsimp only
    split <;> exact hkeep (List.Sublist.refl _) rfl
  | _ => exact hkeep (List.Sublist.refl _) rfl

/-- **The ids of the active filters increase**, and the next id is above them. -/
structure Numbered (s : EngineState) : Prop where
  increasing : s.filterIds.Pairwise (· < ·)
  below : ∀ id ∈ s.filterIds, id < s.nextFilterId

theorem numbered_start (connection ns : String) (size : Nat) :
    (start connection ns size).Numbered where
  increasing := List.Pairwise.nil
  below := fun id hid => by cases hid

/-- **An action keeps the filters numbered.** -/
theorem Numbered.reduce (h : s.Numbered) (a : Action) : (s.reduce a).Numbered := by
  obtain ⟨hbrought, hnext, kept, hkept, hids⟩ := s.ids_reduce a
  rw [hbrought] at hids
  constructor
  · rw [hids, List.pairwise_append]
    refine ⟨h.increasing.sublist hkept, List.pairwise_lt_range', fun old hold new hnew => ?_⟩
    exact Nat.lt_of_lt_of_le (h.below old (hkept.subset hold)) (List.mem_range'_1.mp hnew).1
  · intro id hid
    rw [hids, List.mem_append] at hid
    rw [hnext]
    rcases hid with hid | hid
    · exact Nat.lt_of_lt_of_le (h.below id (hkept.subset hid)) (Nat.le_add_right _ _)
    · exact (List.mem_range'_1.mp hid).2

/-- So does a run. -/
theorem Numbered.reduceAll (h : s.Numbered) (as : List Action) : (s.reduceAll as).Numbered := by
  induction as generalizing s with
  | nil => exact h
  | cons a as ih => exact ih (h.reduce a)

/-- **The filters that a run brings in have consecutive ids.** -/
theorem broughtAll_ids (s : EngineState) (as : List Action) :
    (s.broughtAll as).map ActiveFilter.id =
        List.range' s.nextFilterId (s.broughtAll as).length ∧
      (s.reduceAll as).nextFilterId = s.nextFilterId + (s.broughtAll as).length := by
  induction as generalizing s with
  | nil => exact ⟨rfl, rfl⟩
  | cons a as ih =>
    obtain ⟨hids, hnext, -⟩ := s.ids_reduce a
    obtain ⟨hrest, hlast⟩ := ih (s.reduce a)
    rw [broughtAll, List.map_append, List.length_append, hids, hrest, hnext, reduceAll_cons, hlast,
      hnext]
    exact ⟨List.range'_append_1, Nat.add_assoc _ _ _⟩

/-! ### Loads under way -/

/-- A load ends that was under way. -/
def settles (s : EngineState) : Action → Bool
  | .loadSettled => 0 < s.inFlight
  | _ => false

/-- The ends of loads in a run, as far as a load was under way. -/
def settlings (s : EngineState) : List Action → Nat
  | [] => 0
  | a :: as => (s.settles a).toNat + (s.reduce a).settlings as

theorem inFlight_reduce (s : EngineState) (a : Action) :
    (s.reduce a).inFlight + (s.settles a).toNat = s.inFlight + a.isStart.toNat := by
  cases hinput : a.isInput with
  | true =>
    have hsettles : s.settles a = false := by cases a <;> first | rfl | cases hinput
    have hstart : a.isStart = false := by cases a <;> first | rfl | cases hinput
    rw [hsettles, hstart, inFlight_of_isInput hinput]
  | false =>
    cases a with
    | loadStarted => rfl
    | loadSettled =>
      have hloading : (s.settles .loadSettled).toNat = if 0 < s.inFlight then 1 else 0 := by
        rw [settles]
        split
        case isTrue h => rw [decide_eq_true h, Bool.toNat_true]
        case isFalse h => rw [decide_eq_false h, Bool.toNat_false]
      have hsettled : (s.reduce .loadSettled).inFlight = s.inFlight - 1 := rfl
      have hstart : Action.loadSettled.isStart.toNat = 0 := rfl
      rw [hloading, hsettled, hstart]
      split <;> omega
    | loadSucceeded documents total pages append => rfl
    | loadFailed message => rfl
    | discoveryStarted => rfl
    | discoveryFinished attributes => rfl
    | clearError => rfl
    | _ => cases hinput

/-- **Loads that began are in flight until they end.** -/
theorem inFlight_reduceAll (s : EngineState) (as : List Action) :
    (s.reduceAll as).inFlight + s.settlings as = s.inFlight + as.countP Action.isStart := by
  induction as generalizing s with
  | nil => rfl
  | cons a as ih =>
    have hstep := s.inFlight_reduce a
    have hrest := ih (s.reduce a)
    rw [reduceAll_cons, settlings, List.countP_cons]
    cases hstart : a.isStart with
    | false =>
      rw [hstart, Bool.toNat_false] at hstep
      rw [if_neg Bool.false_ne_true]
      omega
    | true =>
      rw [hstart, Bool.toNat_true] at hstep
      rw [if_pos rfl]
      omega

/-! ### What is asked for -/

/-- An action that is no input leaves what is asked for, but for the paging. -/
theorem inputs_of_not_isInput (h : a.isInput = false) (hfits : a.Fits s) :
    (s.reduce a).inputs = s.inputs ∧ (s.reduce a).query.pages.size = s.query.pages.size := by
  cases a with
  | loadSucceeded documents total pages append => exact ⟨rfl, hfits⟩
  | loadStarted => exact ⟨rfl, rfl⟩
  | loadFailed message => exact ⟨rfl, rfl⟩
  | loadSettled => exact ⟨rfl, rfl⟩
  | discoveryStarted => exact ⟨rfl, rfl⟩
  | discoveryFinished attributes => exact ⟨rfl, rfl⟩
  | clearError => exact ⟨rfl, rfl⟩
  | _ => cases h

theorem size_reduce (hsize : 1 ≤ s.query.pages.size) (hfits : a.Fits s) :
    1 ≤ (s.reduce a).query.pages.size := by
  cases hinput : a.isInput with
  | true => exact (restarts_reduce hinput hsize).1
  | false => rwa [(inputs_of_not_isInput hinput hfits).2]

theorem size_reduceAll (hsize : 1 ≤ s.query.pages.size) (hfits : s.AllFit as) :
    1 ≤ (s.reduceAll as).query.pages.size := by
  induction as generalizing s with
  | nil => exact hsize
  | cons a as ih => exact ih (size_reduce hsize hfits.1) hfits.2

theorem generation_le_reduce (s : EngineState) (a : Action) :
    s.generation ≤ (s.reduce a).generation := by
  cases a with
  | loadSucceeded documents total pages append => exact Nat.le_refl _
  | _ => exact (orderly_reduce (by rintro _ _ _ _ ⟨⟩)).generation_le

/-- **Whatever changes what is asked for begins a new generation**, on the first page and with no
boundaries. -/
theorem restarts_of_ne (hfits : a.Fits s)
    (hne : (s.reduce a).inputs ≠ s.inputs ∨
      (s.reduce a).query.pages.size ≠ s.query.pages.size) :
    s.generation < (s.reduce a).generation ∧ (s.reduce a).query.pages.page = 1 ∧
      (s.reduce a).query.pages.next = none ∧ (s.reduce a).query.pages.previous = [] := by
  cases hinput : a.isInput with
  | false =>
    obtain ⟨hinputs, hsize⟩ := inputs_of_not_isInput hinput hfits
    rcases hne with hne | hne
    · exact absurd hinputs hne
    · exact absurd hsize hne
  | true =>
    rcases reduce_of_isInput (s := s) hinput with heq | ⟨t, query, heq, hgeneration, -⟩
    · rw [heq] at hne
      rcases hne with hne | hne <;> exact absurd rfl hne
    · rw [heq]
      refine ⟨?_, rfl, rfl, rfl⟩
      rw [← hgeneration]
      exact Nat.lt_succ_self _

/-! ### All of it -/

/-- **What holds after every run of actions** from a new state, if loads that succeed bring paging
with the size that is set. The ids of the active filters increase and are below the next id. No id
is given to two of the filters that were added or restored. Pages have at least one row. Loads are
under way exactly if more of them began than ended, not counting ends while none was under way.
Whatever comes next, neither the next id nor the generation becomes smaller; and if it changes the
place, the text, the filters, the order or the page size, then the generation grows and the paging
is that of the first page, with no boundaries. -/
theorem reduceAll_sound {connection ns : String} {size : Nat} {as : List Action} {s : EngineState}
    (hrun : (start connection ns size).reduceAll as = s)
    (hfits : (start connection ns size).AllFit as) :
    (s.query.filters.map ActiveFilter.id).Pairwise (· < ·) ∧
      (∀ f ∈ s.query.filters, f.id < s.nextFilterId) ∧
      (((start connection ns size).broughtAll as).map ActiveFilter.id).Pairwise (· < ·) ∧
      1 ≤ s.query.pages.size ∧
      (s.isLoading = true ↔
        (start connection ns size).settlings as < as.countP Action.isStart) ∧
      ∀ a : Action, a.Fits s →
        s.nextFilterId ≤ (s.reduce a).nextFilterId ∧ s.generation ≤ (s.reduce a).generation ∧
          ((s.reduce a).inputs ≠ s.inputs ∨
              (s.reduce a).query.pages.size ≠ s.query.pages.size →
            s.generation < (s.reduce a).generation ∧ (s.reduce a).query.pages.page = 1 ∧
              (s.reduce a).query.pages.next = none ∧
              (s.reduce a).query.pages.previous = []) := by
  subst hrun
  have hnumbered := (numbered_start connection ns size).reduceAll as
  have hloads := (start connection ns size).inFlight_reduceAll as
  have hnone : (start connection ns size).inFlight = 0 := rfl
  refine ⟨hnumbered.increasing, fun f hf => hnumbered.below _ (List.mem_map_of_mem hf), ?_,
    size_reduceAll (Nat.le_max_right size 1) hfits, ?_, fun a ha => ⟨?_, ?_, restarts_of_ne ha⟩⟩
  · rw [((start connection ns size).broughtAll_ids as).1]
    exact List.pairwise_lt_range'
  · rw [isLoading_eq, decide_eq_true_iff]
    omega
  · rw [(ids_reduce _ a).2.1]
    exact Nat.le_add_right _ _
  · exact generation_le_reduce _ a

/-- A filter is added, and a page that a load brings is shown; the filters of the past are restored
and one of them is dropped, while another load is under way. -/
def restoredRun : List Action :=
  [.addFilter (.make 0 "kind" .equals (.string "even") "even"), .loadStarted,
    .loadSucceeded [.ofId (.int 2)] 1 ⟨1, 5, some (.int 2), []⟩ false, .loadSettled, .loadSettled,
    .loadStarted,
    .restoreQuery "" [.make 0 "kind" .equals (.string "odd") "odd",
      .make 1 "n" .greater (.int 3) "3"],
    .removeFilter 2]

theorem reduceAll_sound_restored :
    ((start "local" "docs" 5).reduceAll restoredRun).query.filters.map ActiveFilter.id = [3] ∧
      ((start "local" "docs" 5).broughtAll restoredRun).map ActiveFilter.id = [1, 2, 3] ∧
      ((start "local" "docs" 5).reduceAll restoredRun).isLoading = true ∧
      (start "local" "docs" 5).settlings restoredRun = 1 ∧
      ((start "local" "docs" 5).reduceAll restoredRun).generation <
        (((start "local" "docs" 5).reduceAll restoredRun).reduce (.setPageSize 7)).generation := by
  have hsound := reduceAll_sound (s := (start "local" "docs" 5).reduceAll restoredRun) rfl
    ⟨trivial, trivial, rfl, trivial, trivial, trivial, trivial, trivial, trivial⟩
  obtain ⟨-, -, -, -, hloading, hnext⟩ := hsound
  obtain ⟨-, -, hrestarts⟩ := hnext (.setPageSize 7) trivial
  refine ⟨by decide, by decide, hloading.mpr (by decide), by decide, ?_⟩
  exact (hrestarts (Or.inr (by decide))).1

end EngineState

end DocQuery
