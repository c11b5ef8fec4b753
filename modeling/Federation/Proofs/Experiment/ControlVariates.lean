import Federation.Proofs.Aggregation.Scaffold
import Federation.Proofs.Experiment.Configuration
import Federation.Proofs.Experiment.Resume
/-!
# The global control variate

With controlled averaging the aggregator keeps the global control variate and the states of the nodes
keep theirs. A round that completes replaces both at once, so the global one stays the mean of those of
all nodes, whichever of them take part.
-/

namespace Federation

variable {σ : Type}

/-- A change that keeps the nodes of the dataset and the aggregator. -/
def Change.KeepsFederation {R : Type} : Change R → Prop
  | tags .. => False
  | nodes .. => False
  | trainingData .. => False
  | aggregator _ => False
  | _ => True

theorem Change.KeepsFederation.not_resolves {R : Type} {change : Change R} (h : change.KeepsFederation) :
    ¬change.Resolves := by
  intro hresolves
  cases change with
  | tags | nodes | trainingData => exact h
  | _ => exact hresolves

def Action.KeepsFederation {R : Type} : Action R → Prop
  | configure change => change.KeepsFederation
  | _ => True

namespace Experiment

/-- An experiment that actions lead to from a new one with controlled averaging, while its dataset has the
given nodes. The surroundings may change between the actions in any way. -/
inductive Controlled : List NodeId → Experiment ℚ → Prop where
  | built {σ : Type} (s : Surroundings ℚ σ) (catalog : Catalog) (d : Draft ℚ) (hd : d.IsNew)
    (serverLr : ℚ) (hrule : d.aggregator = .scaffold { serverLr }) {x : Experiment ℚ} {world world' : σ}
    (h : d.build s catalog world = (.ok x, world')) : Controlled x.dataset.nodeIds x
  | performed {σ : Type} (s : Surroundings ℚ σ) (action : Action ℚ) (hkeeps : action.KeepsFederation)
    {nodes : List NodeId} {x : Experiment ℚ} (world : σ) (h : Controlled nodes x) :
    Controlled nodes (action.perform s x world).2.1

/-- The dataset has the given nodes and their control variates are balanced. Nodes that never took part
have none, so that they count with zero. -/
structure Balanced (nodes : List NodeId) (x : Experiment ℚ) : Prop where
  listed : x.dataset.nodeIds = nodes
  absent : ∀ node, (x.nodeStates.stateFor node).lastRound = none →
    (x.nodeStates.stateFor node).controlVariate = none
  rule : ∃ rule, x.aggregator = .scaffold rule ∧ rule.Balanced x.nodeStates x.global nodes

/-- The corrections which the nodes would be sent sum to zero. -/
def CorrectionsCancel (nodes : List NodeId) (x : Experiment ℚ) : Prop :=
  ∃ corrections : NodeId → Parameters ℚ,
    (∀ node, x.aggregator.auxVarsFor node x.nodeStates x.global =
      .ok (.ofList [(Scaffold.correction, corrections node)])) ∧
    ∀ k, (nodes.map fun node => (corrections node).coordinate k).sum = 0

variable {x y : Experiment ℚ} {nodes : List NodeId}

theorem Balanced.correctionsCancel (h : Balanced nodes x) : CorrectionsCancel nodes x := by
  obtain ⟨rule, hrule, hbalanced⟩ := h.rule
  rw [CorrectionsCancel, hrule]
  exact hbalanced.corrections

/-! ## 1. Building and configuring -/

theorem balanced_of_build (s : Surroundings ℚ σ) {catalog : Catalog} {d : Draft ℚ} (hd : d.IsNew)
    {serverLr : ℚ} (hrule : d.aggregator = .scaffold { serverLr }) {world world' : σ}
    (h : d.build s catalog world = (.ok x, world')) : Balanced x.dataset.nodeIds x := by
  obtain ⟨e, p, id, -, hp, rfl⟩ := essentials_of_build s h
  obtain ⟨-, dataset, rfl⟩ := start_of_new hd.progress hp
  exact ⟨rfl, fun _ _ => rfl, _, hrule, Scaffold.balanced_start serverLr _ _⟩

/-- What matters to the control variates does not depend on the rest of the configuration. -/
theorem Balanced.congr (h : Balanced nodes x) (hlisted : y.dataset.nodeIds = x.dataset.nodeIds)
    (haggregator : y.aggregator = x.aggregator) (hstates : y.nodeStates = x.nodeStates)
    (hglobal : y.global = x.global) : Balanced nodes y where
  listed := hlisted.trans h.listed
  absent := hstates ▸ h.absent
  rule := by
    rw [haggregator, hstates, hglobal]
    exact h.rule

theorem Balanced.apply (h : Balanced nodes x) {change : Change ℚ} (hkeeps : change.KeepsFederation)
    (hy : change.apply x = .ok y) : Balanced nodes y := by
  have hframe := frame_of_apply hy
  obtain ⟨hlisted, hstates⟩ := hframe.nodes.resolve_left hkeeps.not_resolves
  have haggregator : y.aggregator = x.aggregator := hframe.aggregator.resolve_right fun heq => by
    rw [heq] at hkeeps
    exact hkeeps
  exact h.congr hlisted haggregator hstates (changed_of_apply hy).reconfigured.global

/-! ## 2. Rounds -/

/-- Only plain rounds complete with controlled averaging. -/
theorem moved_of_aggregate {c : RoundContext ℚ} {collecting : Collecting ℚ} {r : Aggregated ℚ}
    {rule : Scaffold ℚ} (hc : c.aggregator = .scaffold rule) (h : collecting.aggregate c = .ok r) :
    ∃ rule' new results, r.aggregator = .scaffold rule' ∧
      Scaffold.Moved rule rule' ⟨results, c.global, c.nodeStates, c.trainingArgs, c.federationSize⟩ new
        ⟨r.global, r.nodeStates⟩ ∧ results.keys ⊆ collecting.received.keys := by
  unfold Collecting.aggregate at h
  rw [hc] at h
  split at h
  · obtain ⟨mean, -, h⟩ := bind_eq_ok.1 h
    contradiction
  · simp only [mapError_eq_ok, Aggregator.aggregate, guard_eq_ok, bind_eq_ok, pure, Except.pure,
      Except.ok.injEq] at h
    obtain ⟨-, r', hcombine, -, rfl⟩ := h
    obtain ⟨⟨combined, rule'⟩, haggregate, rfl⟩ := map_eq_ok.1 hcombine
    obtain ⟨new, hmoved⟩ := Scaffold.moved_of_aggregate haggregate
    refine ⟨rule', new, _, rfl, hmoved, fun node hn => ?_⟩
    obtain ⟨u, hu⟩ := SortedMap.mem_keys.1 hn
    rw [SortedMap.find?_filterMap, Option.bind_eq_some_iff] at hu
    obtain ⟨e, he, -⟩ := hu
    exact SortedMap.mem_keys.2 ⟨e, he⟩

section

variable {completed : CompletedRound ℚ} {states : NodeStates ℚ}

/-- A participant has the control variate that the aggregator gave it, all other nodes keep theirs. -/
theorem controlVariate_statesAfter {new : NameMap (Parameters ℚ)}
    (hnew : ∀ node, completed.aggregated.nodeStates.find? node =
      (new.find? node).map (Scaffold.renewed states node))
    (hkeys : new.keys ⊆ completed.stateIds.keys) (node : NodeId) :
    ((statesAfter completed states).stateFor node).controlVariate =
      (new.find? node).or (states.stateFor node).controlVariate := by
  rw [stateFor_statesAfter]
  cases hproduced : completed.stateIds.find? node with
  | some produced =>
    show ((completed.aggregated.nodeStates.find? node).getD (states.stateFor node)).controlVariate = _
    rw [hnew]
    cases new.find? node <;> rfl
  | none =>
    cases hn : new.find? node with
    | none => rfl
    | some c =>
      obtain ⟨produced, hp⟩ := SortedMap.mem_keys.1 (hkeys (SortedMap.mem_keys.2 ⟨c, hn⟩))
      rw [hproduced] at hp
      contradiction

theorem lastRound_statesAfter (node : NodeId) :
    ((statesAfter completed states).stateFor node).lastRound =
      ((completed.stateIds.find? node).map fun _ => completed.roundNumber).or
        (states.stateFor node).lastRound := by
  rw [stateFor_statesAfter]
  cases completed.stateIds.find? node <;> rfl

end

theorem Balanced.commit (h : Balanced nodes x) {s : Surroundings ℚ σ} {world world' : σ}
    {completed : CompletedRound ℚ} (hx : x.executeRound s world = (.ok completed, y, world'))
    (now : Timestamp) : Balanced nodes (y.commit completed now) := by
  obtain ⟨rule, hrule, hbalanced⟩ := h.rule
  obtain ⟨participants, secagg, requestId, collecting, hcomplete⟩ := complete_of_completed s hx
  obtain ⟨aggregated, global, optimizer, haggregated, hstep, hcompleted⟩ :=
    Collecting.complete_eq_ok.1 hcomplete
  obtain ⟨rule', new, results, hrule', hmoved, hresults⟩ :=
    moved_of_aggregate (c := x.context participants secagg requestId) hrule haggregated
  -- the nodes with new control variates produced a state, and they are nodes of the dataset
  have hproduced : new.keys ⊆ completed.stateIds.keys := by
    rw [hcompleted, SortedMap.keys_map, hmoved.keys]
    exact hresults
  have hkeys : new.keys ⊆ nodes := by
    intro node hn
    rw [← h.listed]
    exact SortedMap.mem_keys_iff_isSome.2 (contains_of_completed s hx (hproduced hn))
  have hvariates : ∀ node, ((statesAfter completed x.nodeStates).stateFor node).controlVariate =
      (new.find? node).or (x.nodeStates.stateFor node).controlVariate :=
    controlVariate_statesAfter (by rw [hcompleted]; exact hmoved.nodeStates) hproduced
  have hlayout : completed.aggregated.global.layout = x.global.layout := by
    rw [hcompleted]
    exact (Optimizer.follow_eq_ok (Optimizer.step_eq_ok.1 hstep).1).2.1
  have hsize : x.dataset.size = nodes.length := by
    rw [← h.listed, FederatedDataset.nodeIds, SortedMap.keys, List.length_map]
    rfl
  obtain ⟨_, _, _, _, rfl⟩ := sameTraining_of_executeRound s hx
  refine ⟨h.listed, fun node hn => ?_, rule', ?_, ?_⟩
  · have hlast : ((statesAfter completed x.nodeStates).stateFor node).lastRound = none := hn
    rw [lastRound_statesAfter, Option.or_eq_none_iff, Option.map_eq_none_iff] at hlast
    show ((statesAfter completed x.nodeStates).stateFor node).controlVariate = none
    rw [hvariates, h.absent node hlast.2, Option.or_none, ← Option.not_isSome_iff_eq_none,
      ← SortedMap.mem_keys_iff_isSome]
    intro hnew
    obtain ⟨produced, hp⟩ := SortedMap.mem_keys.1 (hproduced hnew)
    rw [hlast.1] at hp
    contradiction
  · show completed.aggregated.aggregator = .scaffold rule'
    rw [hcompleted]
    exact hrule'
  · exact hbalanced.moved hmoved (h.listed ▸ x.dataset.records.nodup_keys) hkeys hsize hvariates hlayout

theorem Balanced.runRound (h : Balanced nodes x) (s : Surroundings ℚ σ) (world : σ) :
    Balanced nodes (x.runRound s world).2.1 := by
  refine runRound_preserve s (fun _ _ _ hy => ?_) fun _ _ _ now hy => h.commit hy now
  obtain ⟨_, _, _, _, rfl⟩ := sameTraining_of_executeRound s hy
  exact h.congr rfl rfl rfl rfl

/-! ## 3. Actions -/

theorem Balanced.perform (h : Balanced nodes x) (s : Surroundings ℚ σ) {action : Action ℚ}
    (hkeeps : action.KeepsFederation) (world : σ) :
    Balanced nodes (action.perform s x world).2.1 ∧
      ∀ a ∈ action.attempts s x world, Balanced nodes a.1 := by
  refine action.perform_preserve s (fun _ _ h => h.congr rfl rfl rfl rfl)
    (fun _ world h => h.runRound s world) (fun change y heq hy => ?_) h world
  subst heq
  exact h.apply hkeeps hy

theorem Controlled.balanced (h : Controlled nodes x) : Balanced nodes x := by
  induction h with
  | built s catalog d hd serverLr hrule h => exact balanced_of_build s hd hrule h
  | performed s action hkeeps world h ih => exact (ih.perform s hkeeps world).1

end Experiment

open Experiment in
/-- Controlled averaging keeps the global control variate at the mean of the control variates of all
nodes, so that their corrections sum to zero. This holds of a new experiment, however it is run and
reconfigured afterwards while its nodes and its aggregator stay, and it holds at the end of each round,
whether the round completes or fails. -/
theorem control_variates_stay_balanced {nodes : List NodeId} {x : Experiment ℚ}
    (h : Controlled nodes x) :
    (Balanced nodes x ∧ CorrectionsCancel nodes x) ∧
      ∀ {σ : Type} (s : Surroundings ℚ σ) (rounds : UInt64) (increase : Bool) (world : σ),
        ∀ a ∈ (Action.run rounds increase).attempts s x world,
          Balanced nodes (a.1.runRound s a.2).2.1 ∧
          CorrectionsCancel nodes (a.1.runRound s a.2).2.1 := by
  refine ⟨⟨h.balanced, h.balanced.correctionsCancel⟩, fun s rounds increase world a ha => ?_⟩
  have hkeeps : (Action.run (R := ℚ) rounds increase).KeepsFederation := trivial
  have hbegin := (h.balanced.perform s hkeeps world).2 a ha
  have hend := hbegin.runRound s a.2
  exact ⟨hend, hend.correctionsCancel⟩

/-- A draft of an experiment with controlled averaging and three nodes. -/
def trioDraft : Draft ℚ :=
  { pairDraft with
    query := some (.explicit (.ofList [("centre", sampleData), ("left", sampleData), ("right", sampleData)]))
    aggregator := .scaffold { serverLr := 1 }
    trainingArgs := { numUpdates := some 1, learningRate := some 1 } }

/-- The experiment that is built from the draft. -/
def trioBuilt : Experiment ℚ :=
  trioDraft.experiment
    ⟨.explicit (.ofList [("centre", sampleData), ("left", sampleData), ("right", sampleData)]),
      .ofLayers [("layer", [0])]⟩
    { dataset := ⟨.ofList [("centre", .ofMetadata "centre" sampleData),
        ("left", .ofMetadata "left" sampleData), ("right", .ofMetadata "right" sampleData)]⟩ }
    "experiment"

/-- The experiment without one of its nodes, which is not available. -/
def trioReduced : Experiment ℚ :=
  (Action.perform (pairSurroundings true 1) trioBuilt () (.configure (.availability "centre" false))).2.1

/-- The experiment after a round of the other nodes. -/
def trioTrained : Experiment ℚ :=
  (Action.perform (pairSurroundings true 1) trioReduced () (.run 1 false)).2.1

open Experiment in
theorem control_variates_stay_balanced_trio :
    Controlled ["centre", "left", "right"] trioTrained ∧ trioTrained.roundCurrent = 1 ∧
      (["centre", "left", "right"].map fun node =>
        (trioTrained.nodeStates.control trioTrained.global node).coordinate 0) = [0, -1, -3] ∧
      Balanced ["centre", "left", "right"] trioTrained ∧
      CorrectionsCancel ["centre", "left", "right"] trioTrained := by
  have hbuilt : trioDraft.build (pairSurroundings true 1) (fun _ => .error "") () = (.ok trioBuilt, ()) :=
    rfl
  have hcontrolled : Controlled ["centre", "left", "right"] trioTrained :=
    .performed _ (.run 1 false) trivial ()
      (.performed _ (.configure (.availability "centre" false)) trivial ()
        (.built _ _ trioDraft ⟨rfl, rfl⟩ 1 rfl hbuilt))
  exact ⟨hcontrolled, by decide +kernel, by decide +kernel,
    (control_variates_stay_balanced hcontrolled).1⟩

end Federation
