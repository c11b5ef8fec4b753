import Federation.Proofs.Experiment.Configuration
/-!
# The training data of an experiment

A change of the configuration is made in place: what can be refused is checked before any field is
given, so a change that is refused leaves the experiment as it was. A change of the training data
replaces the dataset as a whole, and with it all that was known of the old one. So the dataset of an
experiment is what its query and its filter were last resolved to, up to who is available.
-/

namespace Federation

variable {R σ : Type}

/-! ## 1. Changes in place -/

/-- Updates an experiment in place. What was updated before an error stays. -/
abbrev Update (R : Type) := ExceptT (ExperimentError R) (StateM (Experiment R))

namespace Update

def refuse (c : Prop) [Decidable c] (fault : ConfigurationFault) : Update R Unit :=
  if c then throw (.configuration fault) else pure ()

/-- Refuses what violates a precondition. -/
def require (met : Except PreconditionError Unit) : Update R Unit :=
  MonadExcept.ofExcept (met.mapError ExperimentError.precondition)

/-- Resolves the training data anew. The fields that depend on it are given one after the other. -/
def resolve (catalog : Catalog) (query : DatasetQuery) (nodes : Option NameSet) : Update R Unit := do
  let dataset ← MonadExcept.ofExcept
    ((FederatedDataset.resolve catalog query nodes).mapError ExperimentError.dataset)
  modify fun x => { x with nodeStates := x.nodeStates.retain dataset.contains }
  modify fun x => { x with secagg := x.secagg.clear }
  modify fun x => { x with query }
  modify fun x => { x with nodes }
  modify fun x => { x with dataset }
  modify fun x => { x with dataChecked := false }

end Update

/-- The steps of a change in place. -/
def Change.update [Scalar R] : Change R → Update R Unit
  | tags catalog names => do
    Update.resolve catalog (.tags names) (← get).nodes
  | nodes catalog names => do
    Update.resolve catalog (← get).query names
  | trainingData catalog data => do
    Update.resolve catalog (.explicit data) (← get).nodes
  | availability node available => do
    Update.refuse ((← get).dataset.contains node = false) (.unknownNode node)
    modify fun x => { x with dataset := x.dataset.withAvailability node available }
  | roundLimit limit => do
    let x ← get
    Update.refuse (limit < x.roundCurrent) (.limitBelow limit x.roundCurrent)
    modify fun x => { x with roundLimit := limit }
  | roundTimeout timeout => do
    Update.refuse (timeout = Duration.zero) .zeroTimeout
    modify fun x => { x with roundTimeout := timeout }
  | strategy chosen => modify fun x => { x with strategy := chosen }
  | trainingArgs args => do
    let x ← get
    Update.require (x.aggregator.checkPreconditions args x.secagg.enabled)
    modify fun x => { x with trainingArgs := args }
  | modelArgs args => modify fun x => { x with modelArgs := args }
  | aggregator rule => do
    let x ← get
    Update.require (rule.checkPreconditions x.trainingArgs x.secagg.enabled)
    modify fun x => { x with aggregator := rule }
  | optimizer rule => do
    Update.require rule.checkPreconditions
    modify fun x => { x with optimizer := rule }
  | secureAggregation enabled => do
    let x ← get
    Update.require (x.aggregator.checkPreconditions x.trainingArgs enabled)
    modify fun x => { x with secagg := x.secagg.setEnabled enabled }

/-- What a change in place answers, and what it leaves of an experiment. -/
def Change.inPlace [Scalar R] (change : Change R) (x : Experiment R) :
    Except (ExperimentError R) Unit × Experiment R :=
  change.update.run.run x

namespace Experiment

/-- The answer to a change that gives a new experiment or none, and the experiment from then on. -/
def settled (x : Experiment R) (result : Except (ExperimentError R) (Experiment R)) :
    Except (ExperimentError R) Unit × Experiment R :=
  match result with
  | .error e => (.error e, x)
  | .ok y => (.ok (), y)

theorem run_refuse (x : Experiment R) {c : Prop} [Decidable c] (fault : ConfigurationFault)
    (give : Experiment R → Experiment R) :
    (do Update.refuse c fault; modify give : Update R Unit).run.run x =
      x.settled (if c then .error (.configuration fault) else .ok (give x)) := by
  unfold Update.refuse
  split
  · rfl
  · rfl

theorem run_require (x : Experiment R) (met : Except PreconditionError Unit)
    (give : Experiment R → Experiment R) :
    (do Update.require met; modify give : Update R Unit).run.run x =
      x.settled (match met with
        | .error e => .error (.precondition e)
        | .ok () => .ok (give x)) := by
  cases met with
  | error e => rfl
  | ok u => rfl

theorem run_resolve (x : Experiment R) (catalog : Catalog) (query : DatasetQuery)
    (nodes : Option NameSet) :
    (Update.resolve catalog query nodes).run.run x = x.settled (x.resolve catalog query nodes) := by
  unfold Update.resolve Experiment.resolve
  cases FederatedDataset.resolve catalog query nodes with
  | error e => rfl
  | ok dataset => rfl

/-- A change in place gives every field or none. -/
theorem inPlace_eq [Scalar R] (x : Experiment R) (change : Change R) :
    change.inPlace x = x.settled (change.apply x) := by
  cases change with
  | tags catalog names => exact run_resolve x catalog (.tags names) x.nodes
  | nodes catalog names => exact run_resolve x catalog x.query names
  | trainingData catalog data => exact run_resolve x catalog (.explicit data) x.nodes
  | availability node available =>
    refine (run_refuse x _ _).trans ?_
    simp only [Change.apply, setAvailability]
    cases x.dataset.contains node with
    | true => rfl
    | false => rfl
  | roundLimit limit => exact run_refuse x _ _
  | roundTimeout timeout => exact run_refuse x _ _
  | strategy chosen => rfl
  | trainingArgs args => exact run_require x _ _
  | modelArgs args => rfl
  | aggregator rule => exact run_require x _ _
  | optimizer rule => exact run_require x _ _
  | secureAggregation enabled => exact run_require x _ _

/-- A change answers and leaves what it does in place. -/
theorem perform_configure [RootScalar R] (s : Surroundings R σ) (x : Experiment R) (change : Change R)
    (world : σ) : (Action.configure change).perform s x world =
      (.configured (change.inPlace x).1, (change.inPlace x).2, world) := by
  rw [inPlace_eq, Action.perform]
  cases change.apply x with
  | error e => rfl
  | ok y => rfl

/-! ## 2. Changes of the training data -/

/-- What training data is resolved from. -/
structure Selection where
  catalog : Catalog
  query : DatasetQuery
  nodes : Option NameSet

def Selection.resolve (selection : Selection) : Except DatasetError FederatedDataset :=
  FederatedDataset.resolve selection.catalog selection.query selection.nodes

/-- What a change of the training data resolves. The query or the filter that it is not about stays. -/
def selection? (x : Experiment R) : Change R → Option Selection
  | .tags catalog names => some ⟨catalog, .tags names, x.nodes⟩
  | .nodes catalog names => some ⟨catalog, x.query, names⟩
  | .trainingData catalog data => some ⟨catalog, .explicit data, x.nodes⟩
  | _ => none

/-- The experiment `y` is `x` with another dataset, of which nothing is known but what `x` knows of its
nodes. -/
structure Reselected (x : Experiment R) (selection : Selection) (dataset : FederatedDataset)
    (y : Experiment R) : Prop where
  available : ∀ node record, y.dataset.get? node = some record → record.available = true
  nodeStates : ∀ node, y.nodeStates.states.find? node =
    if dataset.contains node then x.nodeStates.states.find? node else none
  rest : ∃ nodeStates, y = { x with
    query := selection.query
    nodes := selection.nodes
    dataset
    dataChecked := false
    nodeStates
    secagg := { x.secagg with session := none } }

theorem reselected_withDataset (x : Experiment R) {selection : Selection} {dataset : FederatedDataset}
    (h : selection.resolve = .ok dataset) :
    Reselected x selection dataset (x.withDataset selection.query selection.nodes dataset) where
  available _ _ hr := FederatedDataset.available_of_resolve h hr
  nodeStates node := by
    show (x.nodeStates.states.filter _).find? node = _
    rw [SortedMap.find?_filter]
    cases hc : dataset.contains node with
    | true => cases x.nodeStates.states.find? node <;> rfl
    | false => cases x.nodeStates.states.find? node <;> rfl
  rest := ⟨_, rfl⟩

section

variable [Scalar R] {x y : Experiment R} {change : Change R}

theorem apply_of_selection? {selection : Selection} (h : selection? x change = some selection) :
    change.apply x = x.resolve selection.catalog selection.query selection.nodes := by
  cases change with
  | tags catalog names | nodes catalog names | trainingData catalog data =>
    obtain rfl := Option.some.inj h
    rfl
  | _ => contradiction

/-- A change that is not about the training data changes nothing of it but who is available. -/
theorem data_of_apply (h : selection? x change = none) (hy : change.apply x = .ok y) :
    y.query = x.query ∧ y.nodes = x.nodes ∧ y.dataset.allAvailable = x.dataset.allAvailable := by
  cases change with
  | tags catalog names | nodes catalog names | trainingData catalog data => contradiction
  | availability node available =>
    simp only [Change.apply, setAvailability] at hy
    split at hy
    · obtain rfl := Except.ok.inj hy
      exact ⟨rfl, rfl, FederatedDataset.allAvailable_withAvailability _ _ _⟩
    · contradiction
  | strategy | modelArgs =>
    obtain rfl := Except.ok.inj hy
    exact ⟨rfl, rfl, rfl⟩
  | roundLimit | roundTimeout | trainingArgs | aggregator | optimizer | secureAggregation =>
    simp only [Change.apply, setRoundLimit, setRoundTimeout, setTrainingArgs, setAggregator, setOptimizer,
      setSecureAggregation] at hy
    split at hy
    · contradiction
    · obtain rfl := Except.ok.inj hy
      exact ⟨rfl, rfl, rfl⟩

end

/-! ## 3. The data of an experiment at any time -/

/-- The dataset is what the query and the filter are resolved to by a catalog, up to who is available. -/
def ResolvedBy (x : Experiment R) (catalog : Catalog) : Prop :=
  FederatedDataset.resolve catalog x.query x.nodes = .ok x.dataset.allAvailable

/-- The catalog that the data is resolved from after a change. -/
def catalogAfter [Scalar R] (x : Experiment R) (catalog : Catalog) (change : Change R) : Catalog :=
  match change.apply x, selection? x change with
  | .ok _, some selection => selection.catalog
  | _, _ => catalog

end Experiment

/-- The catalog that the data is resolved from after an action. -/
def Action.catalogAfter [Scalar R] (x : Experiment R) (catalog : Catalog) : Action R → Catalog
  | run _ _ => catalog
  | save => catalog
  | configure change => x.catalogAfter catalog change

namespace Experiment

/-- An experiment that actions lead to from a fresh one, with the catalog that its data was last
resolved from, as that catalog answered then. -/
inductive LastResolved [RootScalar R] : Catalog → Experiment R → Prop where
  | built {σ : Type} (s : Surroundings R σ) (catalog : Catalog) (d : Draft R) (hd : d.progress = none)
    {x : Experiment R} {world world' : σ} (h : d.build s catalog world = (.ok x, world')) :
    LastResolved catalog x
  | performed {σ : Type} (s : Surroundings R σ) (action : Action R) {catalog : Catalog}
    {x : Experiment R} (world : σ) (h : LastResolved catalog x) :
    LastResolved (action.catalogAfter x catalog) (action.perform s x world).2.1

variable {x y : Experiment R} {catalog : Catalog}

theorem resolvedBy_of_build [Scalar R] (s : Surroundings R σ) {d : Draft R} (hd : d.progress = none)
    {world world' : σ} (h : d.build s catalog world = (.ok x, world')) : x.ResolvedBy catalog := by
  obtain ⟨e, p, id, -, hp, rfl⟩ := essentials_of_build s h
  have hresolved := resolved_of_start hd hp
  exact hresolved.trans (congrArg Except.ok (FederatedDataset.allAvailable_of_resolve hresolved).symm)

theorem resolvedBy_withDataset (x : Experiment R) {query : DatasetQuery} {nodes : Option NameSet}
    {dataset : FederatedDataset} (h : FederatedDataset.resolve catalog query nodes = .ok dataset) :
    (x.withDataset query nodes dataset).ResolvedBy catalog :=
  h.trans (congrArg Except.ok (FederatedDataset.allAvailable_of_resolve h).symm)

/-- What leaves the query and the filter, and the dataset but for who is available. -/
theorem ResolvedBy.of_data (h : x.ResolvedBy catalog)
    (hy : y.query = x.query ∧ y.nodes = x.nodes ∧ y.dataset.allAvailable = x.dataset.allAvailable) :
    y.ResolvedBy catalog := by
  obtain ⟨hquery, hnodes, hdataset⟩ := hy
  rw [ResolvedBy, hquery, hnodes, hdataset]
  exact h

theorem ResolvedBy.apply [Scalar R] (h : x.ResolvedBy catalog) {change : Change R}
    (hy : change.apply x = .ok y) : y.ResolvedBy (x.catalogAfter catalog change) := by
  unfold catalogAfter
  rw [hy]
  cases hs : selection? x change with
  | none => exact h.of_data (data_of_apply hs hy)
  | some selection =>
    rw [apply_of_selection? hs, resolve] at hy
    split at hy
    · contradiction
    next dataset hd =>
      obtain rfl := Except.ok.inj hy
      exact x.resolvedBy_withDataset hd

variable [RootScalar R]

theorem ResolvedBy.runRound (h : x.ResolvedBy catalog) (s : Surroundings R σ) (world : σ) :
    (x.runRound s world).2.1.ResolvedBy catalog := by
  obtain ⟨_, _, _, _, _, _, _, _, _, _, hy⟩ := runRound_settings s x world
  rw [hy]
  exact h

theorem ResolvedBy.perform (h : x.ResolvedBy catalog) (s : Surroundings R σ) (action : Action R)
    (world : σ) : (action.perform s x world).2.1.ResolvedBy (action.catalogAfter x catalog) ∧
      ∀ a ∈ action.attempts s x world, a.1.ResolvedBy catalog := by
  cases action with
  | run rounds increase =>
    exact Action.perform_preserve s (P := fun x => x.ResolvedBy catalog) (fun _ _ h => h)
      (fun _ world h => h.runRound s world) (by rintro _ _ ⟨⟩) h world
  | save => exact ⟨h, List.forall_mem_nil _⟩
  | configure change =>
    refine ⟨?_, List.forall_mem_nil _⟩
    rw [perform_configure, inPlace_eq]
    cases hy : change.apply x with
    | error e =>
      have hkept : (Action.configure change).catalogAfter x catalog = catalog := by
        simp only [Action.catalogAfter, catalogAfter, hy]
      rw [hkept]
      exact h
    | ok y => exact h.apply hy

theorem LastResolved.resolvedBy (h : LastResolved catalog x) : x.ResolvedBy catalog := by
  induction h with
  | built s catalog d hd h => exact resolvedBy_of_build s hd h
  | performed s action world h ih => exact (ih.perform s action world).1

end Experiment

open Experiment in
/-- A change of the configuration is made in place, and one that is refused leaves the experiment as it
was. A change of the training data takes over exactly what is resolved, and nothing else changes. So from
a fresh build on, the data is what the stored query and filter were last resolved to, up to who is
available: after every action and at the beginning of each of its attempts. -/
theorem training_data_is_resolved_anew [RootScalar R] :
    (∀ (x : Experiment R) (change : Change R),
      (∀ {σ : Type} (s : Surroundings R σ) (world : σ), (Action.configure change).perform s x world =
        (.configured (change.inPlace x).1, (change.inPlace x).2, world)) ∧
      ∀ e, (change.inPlace x).1 = .error e → (change.inPlace x).2 = x) ∧
    (∀ (x : Experiment R) (change : Change R) selection, selection? x change = some selection →
      (∀ e, selection.resolve = .error e → change.inPlace x = (.error (.dataset e), x)) ∧
      ∀ dataset, selection.resolve = .ok dataset →
        ∃ y, change.inPlace x = (.ok (), y) ∧ x.Reselected selection dataset y) ∧
    ∀ (catalog : Catalog) (x : Experiment R), LastResolved catalog x →
      x.ResolvedBy catalog ∧
      ∀ {σ : Type} (s : Surroundings R σ) (action : Action R) (world : σ),
        ∀ a ∈ action.attempts s x world, a.1.ResolvedBy catalog := by
  refine ⟨fun x change => ⟨fun s world => perform_configure s x change world, fun e he => ?_⟩,
    fun x change selection hs => ⟨fun e he => ?_, fun dataset hd => ?_⟩,
    fun catalog x h => ⟨h.resolvedBy, fun s action world => (h.resolvedBy.perform s action world).2⟩⟩
  · rw [inPlace_eq] at he ⊢
    cases hy : change.apply x with
    | error e' => rfl
    | ok y =>
      rw [hy] at he
      contradiction
  · rw [Selection.resolve] at he
    rw [inPlace_eq, apply_of_selection? hs, Experiment.resolve, he]
    rfl
  · refine ⟨_, ?_, x.reselected_withDataset hd⟩
    rw [Selection.resolve] at hd
    rw [inPlace_eq, apply_of_selection? hs, Experiment.resolve, hd]
    rfl

/-- A catalog in which one of two nodes holds data. -/
def soloCatalog : Catalog := fun _ => .ok (.ofList [("left", [sampleData]), ("right", [])])

open Experiment in
theorem training_data_is_resolved_anew_pair :
    LastResolved (fun _ => .error "") pairTrained ∧
      pairTrained.nodeStates.states.keys = ["left", "right"] ∧
      (Change.inPlace (.tags soloCatalog .empty) pairTrained).2 = pairTrained ∧
      ∃ y, Change.inPlace (.tags soloCatalog (.setOf ["tag"])) pairTrained = (.ok (), y) ∧
        y.dataset.nodeIds = ["left"] ∧ y.nodeStates.states.find? "right" = none ∧
        y.ResolvedBy soloCatalog := by
  have hbuilt : pairDraft.build (pairSurroundings true 1) (fun _ => .error "") () = (.ok pairBuilt, ()) :=
    rfl
  have htrained : LastResolved (fun _ => .error "") pairTrained :=
    (LastResolved.built _ _ pairDraft rfl hbuilt).performed (pairSurroundings true 1) (.run 1 false) ()
  have hresolves : FederatedDataset.resolve soloCatalog (.tags (.setOf ["tag"])) none =
      .ok ⟨.ofList [("left", .ofMetadata "left" sampleData)]⟩ := by decide +kernel
  obtain ⟨hrefused, hselected, hresolved⟩ := training_data_is_resolved_anew (R := ℚ)
  obtain ⟨y, hy, hre⟩ := (hselected pairTrained (.tags soloCatalog (.setOf ["tag"])) _ rfl).2 _ hresolves
  have hnext := htrained.performed (pairSurroundings true 1)
    (.configure (.tags soloCatalog (.setOf ["tag"]))) ()
  refine ⟨htrained, by decide +kernel, (hrefused pairTrained _).2 (.dataset .undefinedQuery) rfl, y, hy,
    ?_, hre.nodeStates "right", ?_⟩
  · obtain ⟨_, rfl⟩ := hre.rest
    rfl
  · rw [perform_configure, hy] at hnext
    exact (hresolved _ y hnext).1

end Federation
