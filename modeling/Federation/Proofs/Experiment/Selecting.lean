import Federation.Proofs.Dataset.Resolution
import Federation.Proofs.Experiment.Retry
/-!
# Selecting the participants of a round

A strategy selects among the nodes of a dataset. Whatever dataset was resolved and whoever has become
unavailable since, a selection that is made has some nodes, all of them of the dataset. So a round that is
prepared finds the data of each, and its own check of this never fails.
-/

namespace Federation

variable {R σ : Type}

namespace Strategy

variable {d : FederatedDataset} {round : RoundNumber} {states : NodeStates R}

theorem select_allAvailable_eq_ok (h : d.Named) {selected : NameSet} :
    (allAvailable : Strategy R).select round d states = .ok selected ↔
      selected.keys ≠ [] ∧ ∀ node, node ∈ selected.keys ↔
        ∃ record, d.get? node = some record ∧ record.available = true := by
  rw [select_eq_ok, Strategy.selected, Except.ok.injEq, and_comm]
  refine and_congr_right fun _ => ⟨?_, fun hsame => ?_⟩
  · rintro rfl
    exact fun _ => mem_availableNodes h
  · exact SortedMap.ext_mem_keys fun node => (mem_availableNodes h).trans (hsame node).symm

theorem select_allAvailable_eq_error (h : d.Named) {e : SelectionError} :
    (allAvailable : Strategy R).select round d states = .error e ↔
      e = .empty ∧ ∀ node record, d.get? node = some record → record.available = false := by
  have hnobody : (availableNodes d).isEmpty = true ↔
      ∀ node record, d.get? node = some record → record.available = false := by
    simp only [SortedMap.isEmpty_iff, List.eq_nil_iff_forall_not_mem, mem_availableNodes h, not_exists,
      not_and, Bool.not_eq_true]
  show (if (availableNodes d).isEmpty = true then _ else _) = _ ↔ _
  rw [← hnobody]
  by_cases hempty : (availableNodes d).isEmpty = true
  · rw [if_pos hempty]
    exact ⟨fun he => ⟨(Except.error.inj he).symm, hempty⟩, fun ⟨he, _⟩ => he ▸ rfl⟩
  · rw [if_neg hempty]
    exact ⟨nofun, fun he => absurd he.2 hempty⟩

end Strategy

namespace Experiment

/-- Preparing a round fails of the selection only if a node that is selected is not part of the dataset. -/
theorem selection_of_prepareRound [Scalar R] (s : Surroundings R σ) {x : Experiment R} {selected : NameSet}
    {world : σ} {e : SelectionError}
    (h : (x.prepareRound s selected world).1 = .error (.failed (.selection e))) :
    ∃ node ∈ selected.keys, x.dataset.contains node = false := by
  rcases error_of_prepareRound s h with ⟨node, hnode, -, hmissing⟩ | ⟨_, _, he⟩ | ⟨_, _, he⟩
  · exact ⟨node, hnode, hmissing⟩
  · contradiction
  · contradiction

/-- An attempt fails of its selection only if the strategy refuses it. -/
theorem selection_of_executeRound [RootScalar R] (s : Surroundings R σ) {x : Experiment R}
    (hnamed : x.dataset.Named) {world : σ} {e : SelectionError}
    (h : (x.executeRound s world).1 = .error (.failed (.selection e))) :
    x.strategy.select x.roundCurrent x.dataset x.nodeStates = .error e := by
  have ha := attempt_executeRound s x world
  generalize x.executeRound s world = attempt at h ha
  cases ha with
  | inconsistent e' hd =>
    obtain ⟨_, rfl⟩ := error_of_checkData hd
    simp at h
  | unselected y e' hd hs =>
    obtain rfl : e' = e := by simpa using h
    rw [← (kept_of_checkData hd).select, hs]
  | interrupted => simp at h
  | unprepared x₁ y selected world' e' hr hp =>
    obtain rfl : e' = .selection e := by simpa using h
    have hkept := kept_of_checkData hr.checked
    obtain ⟨node, hnode, hmissing⟩ := selection_of_prepareRound s (congrArg Prod.fst hp)
    have hfound := Strategy.contains_of_select (hkept.dataset ▸ hnamed) hr.selection hnode
    rw [hmissing] at hfound
    contradiction
  | forsaken => simp at h
  | conducted c x₁ y world₁ world' r hp hc hr =>
    obtain rfl : r = .error (.failed (.selection e)) := h
    obtain ⟨_, hround, -⟩ := error_of_conduct s hc
    simp at hround
  | abandoned => simp at h

end Experiment

open FederatedDataset in
/-- A query is resolved to the nodes inside the filter that list one dataset, unless an error takes
precedence. Whatever availability is changed afterwards, exactly who is available is selected by default,
any selection that is made has some nodes, all of them of the dataset, and no round fails for its selection
when it is prepared: an attempt does so only if the strategy itself refuses. -/
theorem resolved_nodes_can_be_selected [RootScalar R] (catalog : Catalog) (query : DatasetQuery)
    (nodes : Option NameSet) :
    (∀ result, resolve catalog query nodes = result ↔ Resolution catalog nodes query result) ∧
    ∀ d, resolve catalog query nodes = .ok d → ∀ changes d', d' = d.withAvailabilities changes →
      (∀ node, d'.get? node = (d.get? node).map fun r =>
        { r with available := (changes.reverse.lookup node).getD true }) ∧
      (∀ round (states : NodeStates R),
        (∀ selected, (Strategy.allAvailable : Strategy R).select round d' states = .ok selected ↔
          selected.keys ≠ [] ∧ ∀ node, node ∈ selected.keys ↔
            ∃ record, d'.get? node = some record ∧ record.available = true) ∧
        (∀ e, (Strategy.allAvailable : Strategy R).select round d' states = .error e ↔
          e = .empty ∧ ∀ node record, d'.get? node = some record → record.available = false) ∧
        ∀ (strategy : Strategy R) selected, strategy.select round d' states = .ok selected →
          selected.keys ≠ [] ∧ (∀ node ∈ selected.keys, d'.contains node = true) ∧
          ∀ x : Experiment R, x.dataset = d' → ∀ {σ : Type} (s : Surroundings R σ) (world : σ) e,
            (x.prepareRound s selected world).1 ≠ .error (.failed (.selection e))) ∧
      ∀ x : Experiment R, x.dataset = d' → ∀ {σ : Type} (s : Surroundings R σ) (world : σ) e,
        (x.executeRound s world).1 = .error (.failed (.selection e)) →
          x.strategy.select x.roundCurrent d' x.nodeStates = .error e := by
  refine ⟨fun result => resolve_eq_iff, ?_⟩
  rintro d hd changes d' rfl
  have hnamed := (named_of_resolve hd).withAvailabilities changes
  refine ⟨fun node => ?_, fun round states => ⟨fun selected => Strategy.select_allAvailable_eq_ok hnamed,
    fun e => Strategy.select_allAvailable_eq_error hnamed, fun strategy selected hs => ?_⟩, ?_⟩
  · rw [get?_withAvailabilities]
    refine Option.map_congr fun r hr => ?_
    rw [available_of_resolve hd hr]
  · have hwithin : ∀ node ∈ selected.keys, _ := fun node => Strategy.contains_of_select hnamed hs
    refine ⟨(Strategy.select_eq_ok.1 hs).2, hwithin, fun x hx σ s world e he => ?_⟩
    obtain ⟨node, hnode, hmissing⟩ := Experiment.selection_of_prepareRound s he
    rw [hx, hwithin node hnode] at hmissing
    contradiction
  · rintro x hx σ s world e he
    rw [← hx] at hnamed ⊢
    exact Experiment.selection_of_executeRound s hnamed he

/-- A catalog that knows no filter. Of its nodes only one lists a single dataset. -/
def heedlessCatalog : Catalog := fun _ =>
  .ok (.ofList [("centre", []), ("left", [sampleData]), ("right", [sampleData, sampleData])])

/-- The dataset of that node. -/
def leftDataset : FederatedDataset := ⟨.ofList [("left", .ofMetadata "left" sampleData)]⟩

open FederatedDataset in
theorem resolved_nodes_can_be_selected_left :
    Resolution heedlessCatalog none (.tags (.setOf ["tag"])) (.error (.ambiguity "right" ["data", "data"])) ∧
    resolve heedlessCatalog (.tags (.setOf ["tag"])) (some (.setOf ["centre", "left"])) = .ok leftDataset ∧
    (Strategy.allAvailable : Strategy ℚ).select 0 (leftDataset.withAvailabilities [("left", false)]) .empty =
      .error .empty ∧
    (∀ e, (Experiment.prepareRound (pairSurroundings true 1) { pairExperiment with dataset := leftDataset }
      (.setOf ["left"]) ()).1 ≠ .error (.failed (.selection e))) ∧
    (Experiment.executeRound (pairSurroundings true 1)
      { pairExperiment with dataset := leftDataset.withAvailabilities [("left", false)] } ()).1 =
        .error (.failed (.selection .empty)) := by
  have hresolved : resolve heedlessCatalog (.tags (.setOf ["tag"])) (some (.setOf ["centre", "left"])) =
      .ok leftDataset := by decide +kernel
  obtain ⟨hanswer, -⟩ := resolved_nodes_can_be_selected (R := ℚ) heedlessCatalog (.tags (.setOf ["tag"])) none
  obtain ⟨-, hdatasets⟩ := resolved_nodes_can_be_selected (R := ℚ) heedlessCatalog (.tags (.setOf ["tag"]))
    (some (.setOf ["centre", "left"]))
  obtain ⟨-, hall, -⟩ := hdatasets _ hresolved [] _ rfl
  obtain ⟨-, -, hattempt⟩ := hdatasets _ hresolved [("left", false)] _ rfl
  have hfailed : (Experiment.executeRound (pairSurroundings true 1)
      { pairExperiment with dataset := leftDataset.withAvailabilities [("left", false)] } ()).1 =
        .error (.failed (.selection .empty)) := rfl
  refine ⟨(hanswer _).1 (by decide +kernel), hresolved, ?_, ?_, hfailed⟩
  · exact hattempt _ rfl _ _ _ hfailed
  · exact ((hall 0 .empty).2.2 .allAvailable _ (by decide +kernel)).2.2 _ rfl _ _

end Federation
