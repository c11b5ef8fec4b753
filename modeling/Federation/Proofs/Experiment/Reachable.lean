import Federation.Experiment.Draft
import Federation.Proofs.Experiment.Commit
import Federation.Proofs.Experiment.History
import Federation.Proofs.Optimizer
/-!
# Experiments that can be reached

A new experiment is built from a draft; then it is run, saved and reconfigured. Whatever the order, the
experiment stays one that could be built: its global parameters are those of its last record, and its
aggregator and optimizer suit its configuration.
-/

namespace Federation

variable {R σ : Type}

/-- A change of the configuration of an experiment. The answers of a catalog come with the changes that
ask it. -/
inductive Change (R : Type) where
  | tags (catalog : Catalog) (names : NameSet)
  | nodes (catalog : Catalog) (names : Option NameSet)
  | trainingData (catalog : Catalog) (data : NameMap DatasetMetadata)
  | availability (node : NodeId) (available : Bool)
  | roundLimit (limit : RoundNumber)
  | roundTimeout (timeout : Duration)
  | strategy (chosen : Strategy R)
  | trainingArgs (args : TrainingArgs R)
  | modelArgs (args : ModelArgs)
  | aggregator (rule : Aggregator R)
  | optimizer (rule : Optimizer R)
  | secureAggregation (enabled : Bool)

def Change.apply [Scalar R] (x : Experiment R) :
    Change R → Except (ExperimentError R) (Experiment R)
  | tags catalog names => x.setTags catalog names
  | nodes catalog names => x.setNodes catalog names
  | trainingData catalog data => x.setTrainingData catalog data
  | availability node available => x.setAvailability node available
  | roundLimit limit => x.setRoundLimit limit
  | roundTimeout timeout => x.setRoundTimeout timeout
  | strategy chosen => .ok (x.setStrategy chosen)
  | trainingArgs args => x.setTrainingArgs args
  | modelArgs args => .ok (x.setModelArgs args)
  | aggregator rule => x.setAggregator rule
  | optimizer rule => x.setOptimizer rule
  | secureAggregation enabled => x.setSecureAggregation enabled

/-- What is done with an experiment. -/
inductive Action (R : Type) where
  | run (rounds : UInt64) (increase : Bool)
  | save
  | configure (change : Change R)

/-- What an action answers. -/
inductive Response (R : Type) where
  | report (report : RunReport R)
  | saved (result : Except (ExperimentError R) CheckpointId)
  | configured (result : Except (ExperimentError R) Unit)

/-- A run that was abandoned, so that it gave no report. -/
def Response.IsAbandoned : Response R → Prop
  | report r => r.failure = some .abandoned
  | _ => False

def Action.perform [RootScalar R] (s : Surroundings R σ) (x : Experiment R) (world : σ) :
    Action R → Response R × Experiment R × σ
  | run rounds increase =>
    let (report, x, world) := x.run s rounds increase world
    (.report report, x, world)
  | save =>
    let (result, world) := x.saveCheckpoint s world
    (.saved result, x, world)
  | configure change =>
    match change.apply x with
    | .error e => (.configured (.error e), x, world)
    | .ok x => (.configured (.ok ()), x, world)

/-- Performs actions one after the other. Gives their responses. -/
def Action.performAll [RootScalar R] (s : Surroundings R σ) :
    List (Action R) → Experiment R → σ → List (Response R) × Experiment R × σ
  | [], x, world => ([], x, world)
  | action :: rest, x, world =>
    let (response, x, world) := action.perform s x world
    let (responses, x, world) := performAll s rest x world
    (response :: responses, x, world)

/-- A draft of a new experiment, which takes up neither the progress nor the session of another one. -/
structure Draft.IsNew (d : Draft R) : Prop where
  progress : d.progress = none
  session : d.secagg.session = none

/-- A draft that takes up a checkpoint. Whatever it says besides the progress may be set anew. -/
def Draft.TakesUp [Scalar R] (d : Draft R) (c : Checkpoint R) : Prop :=
  ∃ d₀ d₁ : Draft R, d₀.resume c = .ok d₁ ∧ d.progress = d₁.progress

/-- What is retained is known as before, of the nodes that are kept. -/
theorem NodeStates.find?_retain {states : NodeStates R} {keep : NodeId → Bool} {node : NodeId}
    {state : NodeState R} : (states.retain keep).states.find? node = some state ↔
      states.states.find? node = some state ∧ keep node = true := by
  rw [retain, SortedMap.find?_filter, Option.filter_eq_some_iff]

namespace Experiment

/-- An experiment that actions lead to from a new one, with their responses. The surroundings may
change between the actions in any way. -/
inductive Reached [RootScalar R] : List (Response R) → Experiment R → Prop where
  | built {σ : Type} (s : Surroundings R σ) (catalog : Catalog) (d : Draft R) (hd : d.IsNew)
    {x : Experiment R} {world world' : σ} (h : d.build s catalog world = (.ok x, world')) :
    Reached [] x
  | performed {σ : Type} (s : Surroundings R σ) (action : Action R) {l : List (Response R)}
    {x : Experiment R} (world : σ) (h : Reached l x) :
    Reached (l ++ [(action.perform s x world).1]) (action.perform s x world).2.1

/-- An experiment that permitted actions lead to from one that is built from a suitable draft. The
surroundings may change between the actions in any way. -/
inductive LedTo [RootScalar R] (suits : Draft R → Prop) (permits : Experiment R → Action R → Prop) :
    Experiment R → Prop where
  | built {σ : Type} (s : Surroundings R σ) (catalog : Catalog) (d : Draft R) (hd : suits d)
    {x : Experiment R} {world world' : σ} (h : d.build s catalog world = (.ok x, world')) :
    LedTo suits permits x
  | performed {σ : Type} (s : Surroundings R σ) (action : Action R) {x : Experiment R}
    (hpermitted : permits x action) (world : σ) (h : LedTo suits permits x) :
    LedTo suits permits (action.perform s x world).2.1

theorem LedTo.performAll [RootScalar R] {suits : Draft R → Prop} {permits : Experiment R → Action R → Prop}
    (s : Surroundings R σ) {actions : List (Action R)}
    (hpermitted : ∀ action ∈ actions, ∀ x, permits x action) {x : Experiment R} (world : σ)
    (h : LedTo suits permits x) : LedTo suits permits (Action.performAll s actions x world).2.1 := by
  induction actions generalizing x world with
  | nil => exact h
  | cons action rest ih =>
    exact ih (fun a ha => hpermitted a (List.mem_cons_of_mem action ha)) _
      (.performed s action (hpermitted action List.mem_cons_self x) world h)

/-- What a draft needs to be built holds of the experiment. -/
structure Buildable [Scalar R] (x : Experiment R) : Prop where
  global : x.global = latestParams x.initialParams x.history
  hasLayers : x.initialParams.hasNoLayers = false
  isFinite : x.initialParams.isFinite = true
  timeout : x.roundTimeout ≠ Duration.zero
  aggregator : x.aggregator.checkPreconditions x.trainingArgs x.secagg.enabled = .ok ()
  optimizer : x.optimizer.checkPreconditions = .ok ()
  -- Without secure aggregation there is no session that a checkpoint would lose.
  session : x.secagg.enabled = false → x.secagg.session = none

/-! ## 1. New experiments -/

section

variable [Scalar R] (s : Surroundings R σ)

theorem checkEssentials_eq_ok {d : Draft R} {e : Draft.Essentials R} :
    d.checkEssentials = .ok e ↔
      d.isConnected = true ∧ d.query = some e.query ∧ d.initialParams = some e.initialParams ∧
        e.initialParams.hasNoLayers = false ∧ e.initialParams.isFinite = true ∧
        d.roundTimeout ≠ Duration.zero ∧
        d.aggregator.checkPreconditions d.trainingArgs d.secagg.enabled = .ok () ∧
        d.optimizer.checkPreconditions = .ok () := by
  obtain ⟨query, initialParams⟩ := e
  unfold Draft.checkEssentials
  cases hq : d.query with
  | none => simp [guard_eq_ok, throw_eq_ok]
  | some q =>
    cases hi : d.initialParams with
    | none => simp [guard_eq_ok, throw_eq_ok]
    | some p =>
      simp only [guard_eq_ok, bind_eq_ok, mapError_eq_ok, pure, Except.pure, Except.ok.injEq,
        Draft.Essentials.mk.injEq, Option.some.injEq]
      constructor
      · rintro ⟨hc, hp, ht, ⟨⟩, ha, ⟨⟩, ho, rfl, rfl⟩
        simp only [Bool.or_eq_true, not_or] at hp
        exact ⟨by simpa using hc, rfl, rfl, by simpa using hp.1, by simpa using hp.2, ht, ha, ho⟩
      · rintro ⟨hc, rfl, rfl, hl, hf, ht, ha, ho⟩
        exact ⟨by simp [hc], by simp [hl, hf], ht, (), ha, (), ho, rfl, rfl⟩

/-- Only drafts that have all essentials are built. -/
theorem essentials_of_build {catalog : Catalog} {d : Draft R} {x : Experiment R} {world world' : σ}
    (h : d.build s catalog world = (.ok x, world')) :
    ∃ e p id, d.checkEssentials = .ok e ∧ d.start catalog e.query = .ok p ∧
      x = d.experiment e p id := by
  unfold Draft.build at h
  cases he : d.checkEssentials with
  | error e => simp [he] at h
  | ok e =>
    cases hp : d.start catalog e.query with
    | error e' => simp [he, hp] at h
    | ok p =>
      simp only [he, hp] at h
      split at h
      · simp at h
      · split at h
        · exact ⟨e, p, _, rfl, hp, (Except.ok.inj (Prod.mk.inj h).1).symm⟩
        · exact ⟨e, p, _, rfl, hp, (Except.ok.inj (Prod.mk.inj h).1).symm⟩

omit [Scalar R] in
/-- A draft without progress starts afresh. -/
theorem start_of_new {catalog : Catalog} {d : Draft R} (hd : d.progress = none) {query : DatasetQuery}
    {p : Progress R} (h : d.start catalog query = .ok p) :
    ¬d.roundLimit < p.roundCurrent ∧ ∃ dataset, p = { dataset } := by
  simp only [Draft.start, hd, bind_eq_ok, map_eq_ok, guard_eq_ok, pure, Except.pure, Except.ok.injEq] at h
  obtain ⟨_, ⟨dataset, -, rfl⟩, hlimit, rfl⟩ := h
  exact ⟨hlimit, dataset, rfl⟩

/-- A draft that takes up a checkpoint goes on from its progress. -/
theorem start_of_takesUp {catalog : Catalog} {d : Draft R} {c : Checkpoint R} (hd : d.TakesUp c)
    {query : DatasetQuery} {p : Progress R} (h : d.start catalog query = .ok p) :
    c.validate = .ok () ∧ ¬d.roundLimit < p.roundCurrent ∧ p.roundCurrent = c.roundCurrent ∧
      p.history = c.history ∧ p.nodeStates = c.nodeStates := by
  obtain ⟨d₀, d₁, hresume, hprogress⟩ := hd
  unfold Draft.resume at hresume
  split at hresume
  · contradiction
  next hvalid =>
    obtain rfl := Except.ok.inj hresume
    simp only [Draft.start, hprogress, bind_eq_ok, guard_eq_ok, pure, Except.pure, Except.ok.injEq] at h
    obtain ⟨_, rfl, hlimit, rfl⟩ := h
    exact ⟨hvalid, hlimit, rfl, rfl, rfl⟩

theorem buildable_of_build {catalog : Catalog} {d : Draft R} (hd : d.IsNew) {x : Experiment R}
    {world world' : σ} (h : d.build s catalog world = (.ok x, world')) : Buildable x := by
  obtain ⟨e, p, id, he, hp, rfl⟩ := essentials_of_build s h
  obtain ⟨-, -, -, hlayers, hfinite, htimeout, haggregator, hoptimizer⟩ := checkEssentials_eq_ok.1 he
  exact ⟨rfl, hlayers, hfinite, htimeout, haggregator, hoptimizer, fun _ => hd.session⟩

end

/-! ## 2. Changes of the configuration -/

/-- All that can come of a change of the configuration. -/
inductive Changed [Scalar R] (x : Experiment R) : Experiment R → Prop where
  | data (catalog : Catalog) (query : DatasetQuery) (nodes : Option NameSet)
    (dataset : FederatedDataset) (h : FederatedDataset.resolve catalog query nodes = .ok dataset) :
    Changed x (x.withDataset query nodes dataset)
  | availability (node : NodeId) (available : Bool) (h : x.dataset.contains node = true) :
    Changed x { x with dataset := x.dataset.withAvailability node available }
  | roundLimit (limit : RoundNumber) (h : ¬limit < x.roundCurrent) :
    Changed x { x with roundLimit := limit }
  | roundTimeout (timeout : Duration) (h : timeout ≠ Duration.zero) :
    Changed x { x with roundTimeout := timeout }
  | strategy (chosen : Strategy R) : Changed x { x with strategy := chosen }
  | trainingArgs (args : TrainingArgs R)
    (h : x.aggregator.checkPreconditions args x.secagg.enabled = .ok ()) :
    Changed x { x with trainingArgs := args }
  | modelArgs (args : ModelArgs) : Changed x { x with modelArgs := args }
  | aggregator (rule : Aggregator R) (h : rule.checkPreconditions x.trainingArgs x.secagg.enabled = .ok ()) :
    Changed x { x with aggregator := rule }
  | optimizer (rule : Optimizer R) (h : rule.checkPreconditions = .ok ()) :
    Changed x { x with optimizer := rule }
  | secureAggregation (enabled : Bool)
    (h : x.aggregator.checkPreconditions x.trainingArgs enabled = .ok ()) :
    Changed x { x with secagg := x.secagg.setEnabled enabled }

section

variable [Scalar R] {x y : Experiment R}

theorem changed_of_resolve {catalog : Catalog} {query : DatasetQuery} {nodes : Option NameSet}
    (hy : x.resolve catalog query nodes = .ok y) : Changed x y := by
  unfold Experiment.resolve at hy
  split at hy
  · contradiction
  next dataset hd =>
    obtain rfl := Except.ok.inj hy
    exact .data catalog query nodes dataset hd

theorem changed_of_apply {change : Change R} (hy : change.apply x = .ok y) : Changed x y := by
  cases change with
  | tags catalog names => exact changed_of_resolve hy
  | nodes catalog names => exact changed_of_resolve hy
  | trainingData catalog data => exact changed_of_resolve hy
  | availability node available =>
    simp only [Change.apply, setAvailability] at hy
    split at hy
    next hc =>
      obtain rfl := Except.ok.inj hy
      exact .availability node available hc
    next => contradiction
  | roundLimit limit =>
    simp only [Change.apply, setRoundLimit] at hy
    split at hy
    · contradiction
    next hl =>
      obtain rfl := Except.ok.inj hy
      exact .roundLimit limit hl
  | roundTimeout timeout =>
    simp only [Change.apply, setRoundTimeout] at hy
    split at hy
    · contradiction
    next ht =>
      obtain rfl := Except.ok.inj hy
      exact .roundTimeout timeout ht
  | strategy chosen =>
    obtain rfl := Except.ok.inj hy
    exact .strategy chosen
  | trainingArgs args =>
    simp only [Change.apply, setTrainingArgs] at hy
    split at hy
    · contradiction
    next ha =>
      obtain rfl := Except.ok.inj hy
      exact .trainingArgs args ha
  | modelArgs args =>
    obtain rfl := Except.ok.inj hy
    exact .modelArgs args
  | aggregator rule =>
    simp only [Change.apply, setAggregator] at hy
    split at hy
    · contradiction
    next ha =>
      obtain rfl := Except.ok.inj hy
      exact .aggregator rule ha
  | optimizer rule =>
    simp only [Change.apply, setOptimizer] at hy
    split at hy
    · contradiction
    next ho =>
      obtain rfl := Except.ok.inj hy
      exact .optimizer rule ho
  | secureAggregation enabled =>
    simp only [Change.apply, setSecureAggregation] at hy
    split at hy
    · contradiction
    next ha =>
      obtain rfl := Except.ok.inj hy
      exact .secureAggregation enabled ha

theorem Buildable.changed (h : Buildable x) (hy : Changed x y) : Buildable y := by
  cases hy with
  | data => exact { h with session := fun _ => rfl }
  | availability => exact { h with }
  | roundLimit => exact { h with }
  | roundTimeout _ ht => exact { h with timeout := ht }
  | strategy => exact { h with }
  | trainingArgs _ ha => exact { h with aggregator := ha }
  | modelArgs => exact { h with }
  | aggregator _ ha => exact { h with aggregator := ha }
  | optimizer _ ho => exact { h with optimizer := ho }
  | secureAggregation enabled ha =>
    -- the session is dropped when secure aggregation is switched off
    cases enabled with
    | true =>
      exact { h with
        aggregator := ha
        session := fun he => by simp [SecureAggregation.setEnabled] at he }
    | false => exact { h with aggregator := ha, session := fun _ => rfl }

/-- What a change of the configuration leaves of the progress: at most, what is known of some nodes is
forgotten. -/
structure Reconfigured (x y : Experiment R) : Prop where
  roundCurrent : y.roundCurrent = x.roundCurrent
  initialParams : y.initialParams = x.initialParams
  global : y.global = x.global
  history : y.history = x.history
  limit : ¬x.roundLimit < x.roundCurrent → ¬y.roundLimit < y.roundCurrent
  nodeStates : y.nodeStates = x.nodeStates ∨ ∃ keep, y.nodeStates = x.nodeStates.retain keep

theorem Changed.reconfigured (h : Changed x y) : Reconfigured x y := by
  cases h with
  | data => exact ⟨rfl, rfl, rfl, rfl, id, Or.inr ⟨_, rfl⟩⟩
  | roundLimit limit hl => exact ⟨rfl, rfl, rfl, rfl, fun _ => hl, Or.inl rfl⟩
  | availability => exact ⟨rfl, rfl, rfl, rfl, id, Or.inl rfl⟩
  | roundTimeout => exact ⟨rfl, rfl, rfl, rfl, id, Or.inl rfl⟩
  | strategy => exact ⟨rfl, rfl, rfl, rfl, id, Or.inl rfl⟩
  | trainingArgs => exact ⟨rfl, rfl, rfl, rfl, id, Or.inl rfl⟩
  | modelArgs => exact ⟨rfl, rfl, rfl, rfl, id, Or.inl rfl⟩
  | aggregator => exact ⟨rfl, rfl, rfl, rfl, id, Or.inl rfl⟩
  | optimizer => exact ⟨rfl, rfl, rfl, rfl, id, Or.inl rfl⟩
  | secureAggregation => exact ⟨rfl, rfl, rfl, rfl, id, Or.inl rfl⟩

end

/-- A change of the configuration neither reads nor changes the latest events and the connection. -/
theorem apply_detached [Scalar R] (change : Change R) (x : Experiment R) (events : Events R)
    (isConnected : Bool) :
    change.apply { x with events, isConnected } =
      (change.apply x).map fun y => { y with events, isConnected } := by
  have resolved : ∀ catalog query nodes,
      Experiment.resolve catalog { x with events, isConnected } query nodes =
        (x.resolve catalog query nodes).map fun y => { y with events, isConnected } := by
    intro catalog query nodes
    unfold Experiment.resolve
    split <;> rfl
  cases change with
  | tags catalog names => exact resolved _ _ _
  | nodes catalog names => exact resolved _ _ _
  | trainingData catalog data => exact resolved _ _ _
  | availability node available =>
    simp only [Change.apply, setAvailability]
    split <;> rfl
  | roundLimit limit =>
    simp only [Change.apply, setRoundLimit]
    split <;> rfl
  | roundTimeout timeout =>
    simp only [Change.apply, setRoundTimeout]
    split <;> rfl
  | strategy chosen => rfl
  | trainingArgs args =>
    simp only [Change.apply, setTrainingArgs]
    split <;> rfl
  | modelArgs args => rfl
  | aggregator rule =>
    simp only [Change.apply, setAggregator]
    split <;> rfl
  | optimizer rule =>
    simp only [Change.apply, setOptimizer]
    split <;> rfl
  | secureAggregation enabled =>
    simp only [Change.apply, setSecureAggregation]
    split <;> rfl

theorem isConnected_of_apply [Scalar R] {x y : Experiment R} {change : Change R}
    (h : change.apply x = .ok y) : y.isConnected = x.isConnected := by
  cases changed_of_apply h <;> rfl

/-! ## 3. Rounds -/

/-- What an aggregation makes of an aggregator demands the same. -/
theorem checkPreconditions_of_combine [Scalar R] {a : Aggregator R} {i : AggregationInput R}
    {r : Aggregated R} (h : a.combine i = .ok r) (args : TrainingArgs R) (secure : Bool) :
    r.aggregator.checkPreconditions args secure = a.checkPreconditions args secure := by
  cases a with
  | fedAverage =>
    obtain ⟨c, -, rfl⟩ := map_eq_ok.1 h
    rfl
  | scaffold rule =>
    obtain ⟨⟨c, rule'⟩, -, rfl⟩ := map_eq_ok.1 h
    rfl

theorem checkPreconditions_of_aggregate [Scalar R] {c : RoundContext R} {collecting : Collecting R}
    {r : Aggregated R} (h : collecting.aggregate c = .ok r) (args : TrainingArgs R) (secure : Bool) :
    r.aggregator.checkPreconditions args secure = c.aggregator.checkPreconditions args secure := by
  unfold Collecting.aggregate at h
  split at h
  · obtain ⟨mean, -, h⟩ := bind_eq_ok.1 h
    rw [mapError_eq_ok] at h
    -- only the aggregator without state completes a secure round
    cases ha : c.aggregator with
    | fedAverage =>
      rw [ha] at h
      obtain rfl := Except.ok.inj h
      rfl
    | scaffold rule =>
      rw [ha] at h
      contradiction
  · simp only [mapError_eq_ok, Aggregator.aggregate, guard_eq_ok, bind_eq_ok, pure, Except.pure,
      Except.ok.injEq] at h
    obtain ⟨-, r', hr, -, rfl⟩ := h
    exact checkPreconditions_of_combine hr args secure

variable [RootScalar R]

variable (s : Surroundings R σ)

/-- A completed round leaves an aggregator and an optimizer that suit the experiment as before. -/
theorem suited_of_completed {x y : Experiment R} {world world' : σ} {completed : CompletedRound R}
    (h : x.executeRound s world = (.ok completed, y, world')) :
    (∀ args secure, completed.aggregated.aggregator.checkPreconditions args secure =
        x.aggregator.checkPreconditions args secure) ∧
      (x.optimizer.checkPreconditions = .ok () → completed.optimizer.checkPreconditions = .ok ()) := by
  obtain ⟨c, collecting, aggregated, hc, -, haggregated, hnext, hstep⟩ := combined_of_completed s h
  have hsuited := checkPreconditions_of_aggregate haggregated
  rw [hnext, hc] at hsuited
  exact ⟨hsuited, Optimizer.checkPreconditions_of_step hstep⟩

/-- Without secure aggregation an attempt leaves the session alone. -/
theorem secagg_of_executeRound {x y : Experiment R} {world world' : σ}
    {r : Except (Stop (ExperimentError R)) (CompletedRound R)} (hoff : x.secagg.enabled = false)
    (h : x.executeRound s world = (r, y, world')) : y.secagg = x.secagg := by
  -- up to the round itself nothing but the mark that the data was checked can have changed
  have checked : ∀ {x₁}, x.checkData = .ok x₁ → x₁.secagg = x.secagg := by
    intro x₁ hx₁
    rw [(checkData_eq_ok.1 hx₁).2]
  have prepared : ∀ {x₁ x₂ selected world r world'}, x.checkData = .ok x₁ →
      x₁.prepareRound s selected world = (r, x₂, world') → x₂.secagg = x.secagg := by
    intro x₁ x₂ selected world r world' hx₁ hp
    have hsame := prepareRound_of_disabled s (x := x₁) (by rw [checked hx₁, hoff]) selected world
    rw [hp] at hsame
    rw [show x₂ = x₁ from hsame, checked hx₁]
  have conducted : ∀ {x₁ x₂ : Experiment R} {c world r world'},
      x₁.conduct s c world = (r, x₂, world') → x₂.secagg = x₁.secagg := by
    intro x₁ x₂ c world r world' hc
    rw [conduct_eq] at hc
    exact (congrArg (·.2.1.secagg) hc).symm
  have ha := attempt_executeRound s x world
  rw [h] at ha
  cases ha with
  | inconsistent e hd => rfl
  | unselected _ e hd hs => exact checked hd
  | interrupted _ hd hc => exact checked hd
  | unprepared x₁ _ selected _ e hr hp => exact prepared hr.checked hp
  | forsaken x₁ y' selected _ hr hp =>
    show y'.secagg = x.secagg
    exact prepared hr.checked hp
  | conducted c x₁ _ world₁ _ _ hp hc =>
    obtain ⟨x₀, selected, hr, hp⟩ := hp
    exact (conducted hc).trans (prepared hr.checked hp)
  | abandoned c x₁ y' world₁ _ hp hc =>
    obtain ⟨x₀, selected, hr, hp⟩ := hp
    show y'.secagg = x.secagg
    exact (conducted hc).trans (prepared hr.checked hp)

theorem Buildable.executeRound {x y : Experiment R} {world world' : σ}
    {r : Except (Stop (ExperimentError R)) (CompletedRound R)} (hb : Buildable x)
    (h : x.executeRound s world = (r, y, world')) : Buildable y := by
  have hoff := secagg_of_executeRound s (h := h)
  obtain ⟨_, session, _, _, rfl⟩ := sameTraining_of_executeRound s h
  refine { hb with session := fun he => ?_ }
  rw [hoff he]
  exact hb.session he

theorem Buildable.commit {x y : Experiment R} {world world' : σ} {completed : CompletedRound R}
    (hb : Buildable x) (h : x.executeRound s world = (.ok completed, y, world')) (now : Timestamp) :
    Buildable (y.commit completed now) := by
  have hy := hb.executeRound s h
  obtain ⟨haggregator, hoptimizer⟩ := suited_of_completed s h
  obtain ⟨_, session, _, _, rfl⟩ := sameTraining_of_executeRound s h
  refine { hy with global := ?_, aggregator := ?_, optimizer := hoptimizer hb.optimizer }
  · simp [Experiment.commit, latestParams, RoundRecord.ofCompleted]
  · exact (haggregator _ _).trans hb.aggregator

theorem Buildable.runRound {x : Experiment R} (hb : Buildable x) (world : σ) :
    Buildable (x.runRound s world).2.1 :=
  runRound_preserve s (fun _ _ _ hy => hb.executeRound s hy) fun _ _ _ now hy => hb.commit s hy now

theorem Buildable.runRounds {n : Nat} {x : Experiment R} (hb : Buildable x) (world : σ) :
    Buildable (runRounds s n x world).2.1 :=
  (runRounds_preserve s (P := fun x _ => Buildable x) (fun _ world h => h.runRound s world) hb).1

theorem Buildable.makeRoom {x : Experiment R} (hb : Buildable x) (rounds : UInt64) :
    Buildable (x.makeRoom rounds) := by
  unfold Experiment.makeRoom
  split
  · exact { hb with }
  · exact hb

theorem Buildable.perform {x : Experiment R} (hb : Buildable x) (action : Action R) (world : σ) :
    Buildable (action.perform s x world).2.1 := by
  cases action with
  | run rounds increase =>
    cases increase with
    | false => exact hb.runRounds s world
    | true => exact (hb.makeRoom rounds).runRounds s world
  | save => exact hb
  | configure change =>
    simp only [Action.perform]
    split
    · exact hb
    next y hy => exact hb.changed (changed_of_apply hy)

theorem Reached.buildable {l : List (Response R)} {x : Experiment R} (h : Reached l x) :
    Buildable x := by
  induction h with
  | built s catalog d hd h => exact buildable_of_build s hd h
  | performed s action world h ih => exact ih.perform s action world

/-! ## 4. The connection to the nodes -/

/-- Only an attempt that is abandoned loses the connection. -/
theorem isConnected_of_executeRound {x y : Experiment R} {world world' : σ}
    {r : Except (Stop (ExperimentError R)) (CompletedRound R)}
    (h : x.executeRound s world = (r, y, world')) (hr : r ≠ .error .abandoned) :
    y.isConnected = x.isConnected := by
  have ha := attempt_executeRound s x world
  rw [h] at ha
  cases ha with
  | inconsistent e hd => rfl
  | unselected _ e hd hs => exact (kept_of_checkData hd).isConnected
  | interrupted _ hd hc => exact (kept_of_checkData hd).isConnected
  | unprepared x₁ _ selected _ e hready hp => exact (kept_of_executeRound s h).isConnected
  | forsaken => contradiction
  | abandoned => contradiction
  | conducted c x₁ _ world₁ _ _ hp hc =>
    rw [conduct_eq] at hc
    exact (congrArg (·.2.1.isConnected) hc).symm.trans (kept_of_prepares s hp).isConnected

theorem isConnected_of_runRound {x : Experiment R} {world : σ}
    (h : (x.runRound s world).1 ≠ .error .abandoned) :
    (x.runRound s world).2.1.isConnected = x.isConnected := by
  have hround := roundRun_runRound s x world
  generalize x.runRound s world = result at h hround ⊢
  cases hround with
  | failed stop y world' hx =>
    exact isConnected_of_executeRound s hx fun he => h (by rw [Except.error.inj he])
  | committed completed y world' hx hc =>
    show y.isConnected = x.isConnected
    exact isConnected_of_executeRound s hx (by simp)
  | saved completed y world₁ world' id hx hc hs =>
    show y.isConnected = x.isConnected
    exact isConnected_of_executeRound s hx (by simp)
  | unsaved completed y world₁ world' e hx hc hs =>
    show y.isConnected = x.isConnected
    exact isConnected_of_executeRound s hx (by simp)

theorem isConnected_of_runRounds {n : Nat} {x : Experiment R} {world : σ}
    (h : (runRounds s n x world).1.2 ≠ some .abandoned) :
    (runRounds s n x world).2.1.isConnected = x.isConnected := by
  induction n generalizing x world with
  | zero => rfl
  | succ n ih =>
    have hround : (x.runRound s world).1 ≠ .error .abandoned →
        (x.runRound s world).2.1.isConnected = x.isConnected := isConnected_of_runRound s
    rcases hr : x.runRound s world with ⟨stop | _, y, world₁⟩
    · simp only [runRounds, hr] at h ⊢
      rw [hr] at hround
      exact hround fun he => h (by rw [Except.error.inj he])
    · simp only [runRounds, hr] at h ⊢
      rw [hr] at hround
      exact (ih h).trans (hround (by simp))

theorem isConnected_of_perform {x : Experiment R} {action : Action R} {world : σ}
    (h : ¬(action.perform s x world).1.IsAbandoned) :
    (action.perform s x world).2.1.isConnected = x.isConnected := by
  cases action with
  | run rounds increase =>
    cases increase with
    | false => exact isConnected_of_runRounds s h
    | true =>
      refine (isConnected_of_runRounds s h).trans ?_
      show (x.makeRoom rounds).isConnected = x.isConnected
      unfold makeRoom
      split <;> rfl
  | save => rfl
  | configure change =>
    simp only [Action.perform]
    split
    · rfl
    next y hy => exact isConnected_of_apply hy

/-- The connection is there unless a run was abandoned. -/
theorem Reached.isConnected {l : List (Response R)} {x : Experiment R} (h : Reached l x)
    (hl : ∀ r ∈ l, ¬r.IsAbandoned) : x.isConnected = true := by
  induction h with
  | built s catalog d hd h =>
    obtain ⟨e, p, id, -, -, rfl⟩ := essentials_of_build s h
    rfl
  | performed s action world h ih =>
    rw [isConnected_of_perform s (hl _ (by simp))]
    exact ih fun r hr => hl r (by simp [hr])

end Experiment

end Federation
