import Federation.Proofs.Dataset.Resolution
import Federation.Proofs.Experiment.Dispatch
import Federation.Proofs.Experiment.Resume
import Federation.Proofs.Secagg.Setup
/-!
# Configurations in order

Whatever is done with an experiment, its parts keep fitting together: the aggregator and the optimizer
suit the rest, nothing is remembered of nodes outside the dataset, a mark that data was checked is right,
and a session belongs to parties that hold data. So every request goes out from a configuration that is
in order, to a node that holds data.
-/

namespace Federation

variable {R σ : Type}

/-- A session of nodes of a dataset, in ascending order, with a public key of each and of nobody else. -/
structure SecaggSession.Fits (session : SecaggSession) (d : FederatedDataset) : Prop where
  ascending : session.parties.Pairwise fun a b => compare a b = .lt
  held : ∀ party ∈ session.parties, d.contains party = true
  keyed : session.publicKeys.keys = session.parties

/-- A change that asks the catalog anew which nodes hold data. -/
def Change.Resolves : Change R → Prop
  | tags .. => True
  | nodes .. => True
  | trainingData .. => True
  | _ => False

/-- What is known is known of nodes of a dataset. -/
def NodeStates.Within (states : NodeStates R) (d : FederatedDataset) : Prop :=
  ∀ node ∈ states.states.keys, d.contains node = true

namespace Experiment

/-- The parts of the configuration fit together. -/
structure InOrder [Scalar R] (x : Experiment R) : Prop where
  aggregator : x.aggregator.checkPreconditions x.trainingArgs x.secagg.enabled = .ok ()
  optimizer : x.optimizer.checkPreconditions = .ok ()
  timeout : x.roundTimeout ≠ Duration.zero
  nodeStates : x.nodeStates.Within x.dataset
  checked : x.dataChecked = true → x.dataset.checkQuality = .ok ()
  session : ∀ session, x.secagg.session = some session →
    x.secagg.enabled = true ∧ session.Fits x.dataset
  named : x.dataset.Named

/-! ## 1. New experiments -/

section

variable [Scalar R] {x y : Experiment R}

omit [Scalar R] in
theorem resolved_of_start {catalog : Catalog} {d : Draft R} (hd : d.progress = none)
    {query : DatasetQuery} {p : Progress R} (h : d.start catalog query = .ok p) :
    FederatedDataset.resolve catalog query d.nodes = .ok p.dataset := by
  simp only [Draft.start, hd, bind_eq_ok, map_eq_ok, mapError_eq_ok, guard_eq_ok, pure, Except.pure,
    Except.ok.injEq] at h
  obtain ⟨_, ⟨dataset, hdataset, rfl⟩, -, rfl⟩ := h
  exact hdataset

theorem inOrder_of_build (s : Surroundings R σ) {catalog : Catalog} {d : Draft R} (hd : d.IsNew)
    {world world' : σ} (h : d.build s catalog world = (.ok x, world')) : InOrder x := by
  obtain ⟨e, p, id, he, hp, rfl⟩ := essentials_of_build s h
  obtain ⟨-, -, -, -, -, htimeout, haggregator, hoptimizer⟩ := checkEssentials_eq_ok.1 he
  have hnamed := FederatedDataset.named_of_resolve (resolved_of_start hd.progress hp)
  obtain ⟨-, dataset, rfl⟩ := start_of_new hd.progress hp
  refine ⟨haggregator, hoptimizer, htimeout, nofun, nofun, fun session hsession => ?_, hnamed⟩
  have hnone : d.secagg.session = some session := hsession
  rw [hd.session] at hnone
  contradiction

/-! ## 2. Changes of the configuration -/

theorem InOrder.withAvailability (h : InOrder x) (node : NodeId) (available : Bool) :
    InOrder { x with dataset := x.dataset.withAvailability node available } where
  aggregator := h.aggregator
  optimizer := h.optimizer
  timeout := h.timeout
  nodeStates party hp := by
    rw [FederatedDataset.contains_withAvailability]
    exact h.nodeStates party hp
  checked hc := by
    rw [FederatedDataset.checkQuality_withAvailability]
    exact h.checked hc
  session session hs := by
    obtain ⟨henabled, hfits⟩ := h.session session hs
    refine ⟨henabled, hfits.ascending, fun party hp => ?_, hfits.keyed⟩
    rw [FederatedDataset.contains_withAvailability]
    exact hfits.held party hp
  named := h.named.withAvailability node available

theorem InOrder.withDataset (h : InOrder x) (query : DatasetQuery) (nodes : Option NameSet)
    {dataset : FederatedDataset} (hd : dataset.Named) : InOrder (x.withDataset query nodes dataset) where
  aggregator := h.aggregator
  optimizer := h.optimizer
  timeout := h.timeout
  nodeStates party hp := by
    -- what is retained is known of nodes of the new dataset
    obtain ⟨state, hstate⟩ := SortedMap.mem_keys.1 hp
    exact (NodeStates.find?_retain.1 hstate).2
  checked := nofun
  session := nofun
  named := hd

theorem InOrder.changed (h : InOrder x) (hy : Changed x y) : InOrder y := by
  cases hy with
  | data catalog query nodes dataset hd =>
    exact h.withDataset query nodes (FederatedDataset.named_of_resolve hd)
  | availability node available => exact h.withAvailability node available
  | roundLimit => exact { h with }
  | roundTimeout _ ht => exact { h with timeout := ht }
  | strategy => exact { h with }
  | trainingArgs _ ha => exact { h with aggregator := ha }
  | modelArgs => exact { h with }
  | aggregator _ ha => exact { h with aggregator := ha }
  | optimizer _ ho => exact { h with optimizer := ho }
  | secureAggregation enabled ha =>
    cases enabled with
    | true =>
      -- a session that is kept was there before, and then nothing is switched
      exact { h with aggregator := ha, session := fun session hs => ⟨rfl, (h.session session hs).2⟩ }
    | false => exact { h with aggregator := ha, session := nofun }

/-- What a change of the configuration leaves unless it is about it. -/
structure Frame (change : Change R) (x y : Experiment R) : Prop where
  aggregator : y.aggregator = x.aggregator ∨ change = .aggregator y.aggregator
  optimizer : y.optimizer = x.optimizer ∨ change = .optimizer y.optimizer
  nodes : change.Resolves ∨ y.dataset.nodeIds = x.dataset.nodeIds ∧ y.nodeStates = x.nodeStates

omit [Scalar R] in
theorem frame_of_resolve {change : Change R} (hresolves : change.Resolves) {catalog : Catalog}
    {query : DatasetQuery} {nodes : Option NameSet} (hy : x.resolve catalog query nodes = .ok y) :
    Frame change x y := by
  unfold resolve at hy
  split at hy
  · contradiction
  · obtain rfl := Except.ok.inj hy
    exact ⟨Or.inl rfl, Or.inl rfl, Or.inl hresolves⟩

theorem frame_of_apply {change : Change R} (hy : change.apply x = .ok y) : Frame change x y := by
  cases change with
  | tags | nodes | trainingData => exact frame_of_resolve trivial hy
  | availability node available =>
    simp only [Change.apply, setAvailability] at hy
    split at hy
    · obtain rfl := Except.ok.inj hy
      exact ⟨Or.inl rfl, Or.inl rfl, Or.inr ⟨FederatedDataset.nodeIds_withAvailability _ _ _, rfl⟩⟩
    · contradiction
  | aggregator rule =>
    simp only [Change.apply, setAggregator] at hy
    split at hy
    · contradiction
    · obtain rfl := Except.ok.inj hy
      exact ⟨Or.inr rfl, Or.inl rfl, Or.inr ⟨rfl, rfl⟩⟩
  | optimizer rule =>
    simp only [Change.apply, setOptimizer] at hy
    split at hy
    · contradiction
    · obtain rfl := Except.ok.inj hy
      exact ⟨Or.inl rfl, Or.inr rfl, Or.inr ⟨rfl, rfl⟩⟩
  | strategy | modelArgs =>
    obtain rfl := Except.ok.inj hy
    exact ⟨Or.inl rfl, Or.inl rfl, Or.inr ⟨rfl, rfl⟩⟩
  | roundLimit | roundTimeout | trainingArgs | secureAggregation =>
    simp only [Change.apply, setRoundLimit, setRoundTimeout, setTrainingArgs, setSecureAggregation] at hy
    split at hy
    · contradiction
    · obtain rfl := Except.ok.inj hy
      exact ⟨Or.inl rfl, Or.inl rfl, Or.inr ⟨rfl, rfl⟩⟩

end

/-! ## 3. Attempts -/

section

variable [Scalar R] {x y : Experiment R} (s : Surroundings R σ)

theorem InOrder.checkData (h : InOrder x) (hy : x.checkData = .ok y) :
    InOrder y ∧ y.dataset.checkQuality = .ok () := by
  obtain ⟨hq, rfl⟩ := checkData_eq_ok.1 hy
  have hquality : x.dataset.checkQuality = .ok () := hq.elim h.checked id
  exact ⟨{ h with checked := fun _ => hquality }, hquality⟩

/-- What a setup leaves fits the dataset if the selected nodes belong to it. -/
theorem InOrder.setupOf (h : InOrder x) (henabled : x.secagg.enabled = true) {selected : NameSet}
    (hselected : ∀ node ∈ selected.keys, x.dataset.contains node = true) {world world' : σ}
    {joined : Except (Stop (SecaggError R)) SecaggSession} {secagg : SecureAggregation R}
    (hs : setupOf s x selected world = (joined, secagg, world')) : InOrder { x with secagg } := by
  have hsecagg : secagg = (Experiment.setupOf s x selected world).2.1 := by rw [hs]
  obtain ⟨kept, hkept⟩ := setup_session s.link x.secagg x.researcherId x.experimentId
    (s.drawName world).1 selected (s.drawName world).2
  have hsame : secagg = { x.secagg with session := kept } := hsecagg.trans hkept
  refine { h with aggregator := ?_, session := fun session hsession => ?_ }
  · rw [hsame]
    exact h.aggregator
  · refine ⟨by rw [hsame]; exact henabled, ?_⟩
    rw [hsecagg] at hsession
    rcases Invitation.whole_of_setup (i := ⟨x.experimentId, (s.drawName world).1, selected⟩) hsession with
      hold | hwhole
    · exact (h.session session hold).2
    · refine ⟨hwhole.ascending, fun party hp => ?_, hwhole.keyed⟩
      rw [hwhole.parties] at hp
      exact hselected party hp

theorem InOrder.prepareSecagg (h : InOrder x) {selected : NameSet}
    (hselected : ∀ node ∈ selected.keys, x.dataset.contains node = true) (world : σ) :
    InOrder (x.prepareSecagg s selected world).2.1 := by
  cases he : x.secagg.enabled with
  | false =>
    rw [prepareSecagg_of_disabled s he]
    exact h
  | true =>
    have hsec := secured_prepareSecagg s x selected world
    generalize x.prepareSecagg s selected world = secured at hsec ⊢
    cases hsec with
    | plain => exact h
    | failed e secagg world' hs => exact h.setupOf s he hselected hs
    | abandoned secagg world' hs => exact h.setupOf s he hselected hs
    | secure session secagg world' hs => exact h.setupOf s he hselected hs

theorem InOrder.prepareRound (h : InOrder x) {selected : NameSet}
    (hselected : ∀ node ∈ selected.keys, x.dataset.contains node = true) (world : σ) :
    InOrder (x.prepareRound s selected world).2.1 := by
  have hsec := h.prepareSecagg s hselected world
  have hprep := prepared_prepareRound s x selected world
  generalize x.prepareRound s selected world = prepared at hprep ⊢
  cases hprep with
  | unsecured stop y world' hs => rwa [hs] at hsec
  | unsuited secagg y world' e hs hp => rwa [hs] at hsec
  | ready secagg y world₁ participants hs hp => rwa [hs] at hsec

/-- An attempt that is ready has checked its data and selected nodes of its dataset. -/
theorem InOrder.ready (h : InOrder x) {selected : NameSet} (hr : x.Ready y selected) :
    InOrder y ∧ y.dataset.checkQuality = .ok () ∧
      ∀ node ∈ selected.keys, y.dataset.contains node = true := by
  obtain ⟨hy, hquality⟩ := h.checkData hr.checked
  exact ⟨hy, hquality, fun node hn => Strategy.contains_of_select hy.named hr.selection hn⟩

end

variable [RootScalar R] {x y : Experiment R} (s : Surroundings R σ)

theorem InOrder.conduct (h : InOrder x) {c : RoundContext R} {world world' : σ}
    {r : Except (Stop (ExperimentError R)) (CompletedRound R)}
    (hy : x.conduct s c world = (r, y, world')) : InOrder y := by
  rw [conduct_eq] at hy
  obtain ⟨-, rfl, -⟩ := by simpa only [Prod.mk.injEq] using hy
  exact { h with }

theorem InOrder.executeRound (h : InOrder x) {world world' : σ}
    {r : Except (Stop (ExperimentError R)) (CompletedRound R)}
    (hy : x.executeRound s world = (r, y, world')) : InOrder y := by
  have hprepare : ∀ {x₁ y selected r world'}, x.Ready x₁ selected →
      x₁.prepareRound s selected world = (r, y, world') → InOrder y := by
    intro x₁ y selected r world' hr hp
    obtain ⟨hx₁, -, hselected⟩ := h.ready hr
    have hprepared := hx₁.prepareRound s hselected world
    rwa [hp] at hprepared
  have ha := attempt_executeRound s x world
  rw [hy] at ha
  cases ha with
  | inconsistent => exact h
  | unselected _ e hd => exact (h.checkData hd).1
  | interrupted _ hd => exact (h.checkData hd).1
  | unprepared x₁ _ selected _ e hr hp => exact hprepare hr hp
  | forsaken x₁ y' selected _ hr hp => exact { hprepare hr hp with }
  | conducted c x₁ _ world₁ _ _ hp hc =>
    obtain ⟨x₀, selected, hr, hp⟩ := hp
    exact (hprepare hr hp).conduct s hc
  | abandoned c x₁ y' world₁ _ hp hc =>
    obtain ⟨x₀, selected, hr, hp⟩ := hp
    exact { (hprepare hr hp).conduct s hc with }

/-! ## 4. Rounds -/

/-- The participants of a round are nodes of the dataset. -/
theorem contains_of_participant {selected : NameSet} {participants : NameMap (Participant R)}
    (h : x.participants selected = .ok participants) {node : NodeId} (hn : node ∈ participants.keys) :
    x.dataset.contains node = true := by
  obtain ⟨p, hp⟩ := SortedMap.mem_keys.1 hn
  have hpart := participant_of_participants h hp
  rw [participant] at hpart
  split at hpart
  · contradiction
  next record hrecord => exact FederatedDataset.contains_iff.2 ⟨record, hrecord⟩

/-- Only participants produce states. -/
theorem participant_of_stateIds {c : RoundContext R} {world : σ} {completed : CompletedRound R}
    (h : (c.run s.link world).1.result = .ok completed) {node : NodeId}
    (hn : node ∈ completed.stateIds.keys) : node ∈ c.participants.keys := by
  obtain ⟨replies, -, -, -, hcomplete⟩ := (RoundContext.run_result_eq_ok s.link c world completed).1 h
  obtain ⟨aggregated, global, optimizer, -, -, rfl⟩ := Collecting.complete_eq_ok.1 hcomplete
  rw [SortedMap.keys_map] at hn
  obtain ⟨e, he⟩ := SortedMap.mem_keys.1 hn
  rw [Collecting.find?_received] at he
  obtain ⟨first, hfirst, -⟩ := Option.map_eq_some_iff.1 he
  exact Collecting.mem_participants_of_firstMatch? hfirst

theorem contains_of_completed {world world' : σ} {completed : CompletedRound R}
    (h : x.executeRound s world = (.ok completed, y, world')) {node : NodeId}
    (hn : node ∈ completed.stateIds.keys) : x.dataset.contains node = true := by
  obtain ⟨c, x₁, world₁, hp, hc⟩ := (executeRound_eq_ok s).1 h
  obtain ⟨⟨_, _, _, rfl⟩, -⟩ := kept_of_prepares s hp
  obtain ⟨x₀, selected, -, hp⟩ := hp
  obtain ⟨secagg, world₂, participants, -, hparts, rfl, -⟩ := prepareRound_eq_ok s hp
  obtain ⟨hrun, -, -⟩ := (conduct_eq_ok s).1 hc
  exact contains_of_participant hparts (participant_of_stateIds s hrun hn)

theorem InOrder.commit (h : InOrder x) {world world' : σ} {completed : CompletedRound R}
    (hy : x.executeRound s world = (.ok completed, y, world')) (now : Timestamp) :
    InOrder (y.commit completed now) := by
  have hafter := h.executeRound s hy
  obtain ⟨haggregator, hoptimizer⟩ := suited_of_completed s hy
  have hproduced : ∀ node ∈ completed.stateIds.keys, x.dataset.contains node = true :=
    fun node hn => contains_of_completed s hy hn
  obtain ⟨_, session, _, _, rfl⟩ := sameTraining_of_executeRound s hy
  refine { hafter with
    aggregator := (haggregator _ _).trans h.aggregator
    optimizer := hoptimizer h.optimizer
    nodeStates := fun node hn => ?_ }
  obtain ⟨state, hstate⟩ := SortedMap.mem_keys.1 hn
  have hfound : (statesAfter completed x.nodeStates).states.find? node = some state := hstate
  rw [find?_statesAfter, Option.or_eq_some_iff] at hfound
  rcases hfound with hfound | ⟨-, hfound⟩
  · obtain ⟨produced, hproduct, -⟩ := Option.map_eq_some_iff.1 hfound
    exact hproduced node (SortedMap.mem_keys.2 ⟨produced, hproduct⟩)
  · exact h.nodeStates node (SortedMap.mem_keys.2 ⟨state, hfound⟩)

theorem InOrder.runRound (h : InOrder x) (world : σ) : InOrder (x.runRound s world).2.1 :=
  runRound_preserve s (fun _ _ _ hy => h.executeRound s hy) fun _ _ _ now hy => h.commit s hy now

end Experiment

/-- The attempts of an action. -/
def Action.attempts [RootScalar R] (s : Surroundings R σ) (x : Experiment R) (world : σ) :
    Action R → List (Experiment R × σ)
  | run rounds increase => Operation.attempts s (.run rounds increase) x world
  | save => []
  | configure _ => []

/-- What a new limit, a round and a change of the configuration preserve holds after an action and at the
beginning of each of its attempts. -/
theorem Action.perform_preserve [RootScalar R] (s : Surroundings R σ) {P : Experiment R → Prop}
    (hlimit : ∀ (x : Experiment R) roundLimit, P x → P { x with roundLimit })
    (hround : ∀ x world, P x → P (x.runRound s world).2.1) {action : Action R} {x : Experiment R}
    (hchange : ∀ change y, action = .configure change → change.apply x = .ok y → P y) (h : P x)
    (world : σ) :
    P (action.perform s x world).2.1 ∧ ∀ a ∈ action.attempts s x world, P a.1 := by
  cases action with
  | run rounds increase =>
    have htaken : P (Operation.takeUp x rounds increase) := by
      obtain ⟨roundLimit, heq⟩ := Operation.takeUp_eq x rounds increase
      rw [heq]
      exact hlimit x roundLimit h
    exact Experiment.runRounds_preserve s (P := fun x _ => P x) hround htaken
  | save => exact ⟨h, List.forall_mem_nil _⟩
  | configure change =>
    refine ⟨?_, List.forall_mem_nil _⟩
    simp only [Action.perform]
    split
    · exact h
    next y hy => exact hchange change y rfl hy

namespace Experiment

variable [RootScalar R] {x : Experiment R}

theorem InOrder.perform (h : InOrder x) (s : Surroundings R σ) (action : Action R) (world : σ) :
    InOrder (action.perform s x world).2.1 ∧ ∀ a ∈ action.attempts s x world, InOrder a.1 :=
  action.perform_preserve s (fun _ _ h => { h with }) (fun _ world h => h.runRound s world)
    (fun _ _ _ hy => h.changed (changed_of_apply hy)) h world

theorem Reached.inOrder {l : List (Response R)} (h : Reached l x) : InOrder x := by
  induction h with
  | built s catalog d hd h => exact inOrder_of_build s hd h
  | performed s action world h ih => exact (ih.perform s action world).1

/-! ## 5. Requests -/

/-- A request may go out: no precondition is violated, the data goes together, and the node is one of
the dataset. -/
structure Permits [Scalar R] (x : Experiment R) (q : Request R) : Prop where
  aggregator : x.aggregator.checkPreconditions x.trainingArgs x.secagg.enabled = .ok ()
  optimizer : x.optimizer.checkPreconditions = .ok ()
  quality : x.dataset.checkQuality = .ok ()
  held : x.dataset.contains q.nodeId = true

theorem InOrder.permits (h : InOrder x) {s : Surroundings R σ} {world : σ} {q : Request R}
    (hq : x.Asks s world q) : x.Permits q := by
  have hnode : x.dataset.checkQuality = .ok () ∧ x.dataset.contains q.nodeId = true := by
    cases hq with
    | join x₁ selected hr hinvites =>
      obtain ⟨-, hquality, hselected⟩ := h.ready hr
      obtain ⟨-, rfl⟩ := checkData_eq_ok.1 hr.checked
      obtain ⟨node, hn, rfl⟩ := List.mem_map.1 hinvites.invitation
      exact ⟨hquality, hselected node hn⟩
    | train c y world' hp hmem =>
      obtain ⟨x₁, selected, hr, hprep⟩ := hp
      obtain ⟨-, hquality, -⟩ := h.ready hr
      obtain ⟨⟨_, _, _, rfl⟩, -⟩ := kept_of_prepares s ⟨x₁, selected, hr, hprep⟩
      obtain ⟨-, rfl⟩ := checkData_eq_ok.1 hr.checked
      obtain ⟨secagg, world₂, participants, -, hparts, rfl, -⟩ := prepareRound_eq_ok s hprep
      obtain ⟨e, he, rfl⟩ := List.mem_map.1 hmem
      exact ⟨hquality, contains_of_participant hparts (List.mem_map.2 ⟨e, he, rfl⟩)⟩
  exact ⟨h.aggregator, h.optimizer, hnode.1, hnode.2⟩

end Experiment

/-- A log of all requests that surroundings were ever given to send. -/
structure Log (s : Surroundings R σ) where
  sent : σ → List (Request R)
  send : ∀ q world, sent (s.link.send q world).2 = sent world ++ [q]
  advance : ∀ t n world, sent (s.link.advance t n world) = sent world
  purge : ∀ world, sent (s.link.purge world).2 = sent world
  arm : ∀ world, sent (s.link.arm world) = sent world
  drawName : ∀ world, sent (s.drawName world).2 = sent world
  drawWord : ∀ world, sent (s.drawWord world).2 = sent world
  drawFraction : ∀ world, sent (s.drawFraction world).2 = sent world
  save : ∀ c world, sent (s.save c world).2 = sent world

namespace Log

/-- A log only grows, by some of the requests that an activity can send. -/
theorem dispatch {s : Surroundings R σ} (log : Log s) :
    Dispatch s fun requests world world' =>
      ∃ sent, sent ⊆ requests ∧ log.sent world' = log.sent world ++ sent where
  refl world := ⟨[], List.nil_subset _, by simp⟩
  mono := by
    rintro sent sent' a b ⟨l, hl, h⟩ hs
    exact ⟨l, List.Subset.trans hl hs, h⟩
  trans := by
    rintro sent sent' a b c ⟨l, hl, h⟩ ⟨l', hl', h'⟩
    refine ⟨l ++ l', List.append_subset.2 ⟨?_, ?_⟩, by rw [h', h, List.append_assoc]⟩
    · exact List.subset_append_of_subset_left _ hl
    · exact List.subset_append_of_subset_right _ hl'
  send q world := ⟨[q], List.Subset.refl _, log.send q world⟩
  advance t n world := ⟨[], List.Subset.refl _, by rw [log.advance, List.append_nil]⟩
  purge world := ⟨[], List.Subset.refl _, by rw [log.purge, List.append_nil]⟩
  arm world := ⟨[], List.Subset.refl _, by rw [log.arm, List.append_nil]⟩
  drawName world := ⟨[], List.Subset.refl _, by rw [log.drawName, List.append_nil]⟩
  drawWord world := ⟨[], List.Subset.refl _, by rw [log.drawWord, List.append_nil]⟩
  drawFraction world := ⟨[], List.Subset.refl _, by rw [log.drawFraction, List.append_nil]⟩
  save c world := ⟨[], List.Subset.refl _, by rw [log.save, List.append_nil]⟩

end Log

/-- Surroundings that keep a journal of the requests besides their own state. -/
def Surroundings.journaled (s : Surroundings R σ) : Surroundings R (List (Request R) × σ) where
  link :=
    { send := fun q world => ((s.link.send q world.2).1, world.1 ++ [q], (s.link.send q world.2).2)
      watch := fun t world => s.link.watch t world.2
      advance := fun t n world => (world.1, s.link.advance t n world.2)
      purge := fun world => ((s.link.purge world.2).1, world.1, (s.link.purge world.2).2)
      arm := fun world => (world.1, s.link.arm world.2) }
  drawName world := ((s.drawName world.2).1, world.1, (s.drawName world.2).2)
  drawWord world := ((s.drawWord world.2).1, world.1, (s.drawWord world.2).2)
  drawFraction world := ((s.drawFraction world.2).1, world.1, (s.drawFraction world.2).2)
  now world := s.now world.2
  save c world := ((s.save c world.2).1, world.1, (s.save c world.2).2)
  prepare world := ((s.prepare world.2).1, world.1, (s.prepare world.2).2)

/-- The journal is a log. -/
def Log.journal (s : Surroundings R σ) : Log s.journaled where
  sent := Prod.fst
  send _ _ := rfl
  advance _ _ _ := rfl
  purge _ := rfl
  arm _ := rfl
  drawName _ := rfl
  drawWord _ := rfl
  drawFraction _ := rfl
  save _ _ := rfl

namespace Experiment

variable [RootScalar R] {x : Experiment R}

/-- An action sends nothing but what its attempts may send. -/
theorem InOrder.sent_of_perform (h : InOrder x) {s : Surroundings R σ} (log : Log s)
    (action : Action R) (world : σ) :
    ∃ sent, log.sent (action.perform s x world).2.2 = log.sent world ++ sent ∧
      ∀ q ∈ sent, ∃ a ∈ action.attempts s x world, a.1.Permits q := by
  have hnothing : ∀ world', log.sent world' = log.sent world → action.attempts s x world = [] →
      ∃ sent, log.sent world' = log.sent world ++ sent ∧
        ∀ q ∈ sent, ∃ a ∈ action.attempts s x world, a.1.Permits q :=
    fun world' hsame _ => ⟨[], by rw [hsame, List.append_nil], List.forall_mem_nil _⟩
  cases action with
  | run rounds increase =>
    obtain ⟨requests, ⟨sent, hsub, hsent⟩, hasked⟩ := log.dispatch.perform (.run rounds increase) x world
    refine ⟨sent, hsent, fun q hq => ?_⟩
    obtain ⟨a, ha, hask⟩ := hasked q (hsub hq)
    exact ⟨a, ha, ((h.perform s (.run rounds increase) world).2 a ha).permits hask⟩
  | save => exact hnothing _ (log.save _ world) rfl
  | configure change =>
    refine hnothing _ ?_ rfl
    simp only [Action.perform]
    split
    · rfl
    · rfl

end Experiment

open Experiment in
/-- However a new experiment is run and reconfigured, its configuration is in order, at the end of every
action and at the beginning of each of its attempts. So every request that is ever sent goes out from a
configuration that violates no precondition, for data that goes together, to a node of the dataset. -/
theorem configuration_stays_in_order [RootScalar R] {responses : List (Response R)}
    {x : Experiment R} (h : Reached responses x) :
    x.InOrder ∧ ∀ {σ : Type} (s : Surroundings R σ) (action : Action R) (world : σ),
      (∀ a ∈ action.attempts s x world, a.1.InOrder) ∧
      ∀ log : Log s, ∃ sent, log.sent (action.perform s x world).2.2 = log.sent world ++ sent ∧
        ∀ q ∈ sent, ∃ a ∈ action.attempts s x world, a.1.Permits q :=
  ⟨h.inOrder, fun s action world => ⟨(h.inOrder.perform s action world).2,
    fun log => h.inOrder.sent_of_perform log action world⟩⟩

open Experiment in
theorem configuration_stays_in_order_pair :
    Reached [] pairBuilt ∧ ∃ sent : List (Request ℚ), sent.map Request.nodeId = ["left", "right"] ∧
      (Action.perform (pairSurroundings true 1).journaled pairBuilt ([], ()) (.run 1 false)).2.2.1 =
        sent ∧ ∀ q ∈ sent, ∃ y : Experiment ℚ, y.Permits q := by
  have hbuild : pairDraft.build (pairSurroundings true 1) (fun _ => .error "") () =
      (.ok pairBuilt, ()) := rfl
  have hreached : Reached [] pairBuilt := .built _ _ pairDraft ⟨rfl, rfl⟩ hbuild
  have hnodes : (Action.perform (pairSurroundings true 1).journaled pairBuilt ([], ())
      (.run 1 false)).2.2.1.map Request.nodeId = ["left", "right"] := by decide +kernel
  obtain ⟨sent, hsent, hpermitted⟩ := ((configuration_stays_in_order hreached).2
    (pairSurroundings true 1).journaled (.run 1 false) ([], ())).2 (Log.journal _)
  refine ⟨hreached, sent, ?_, hsent, fun q hq => ?_⟩
  · have hlog : (Action.perform (pairSurroundings true 1).journaled pairBuilt ([], ())
        (.run 1 false)).2.2.1 = sent := hsent
    rw [← hlog]
    exact hnodes
  · obtain ⟨a, -, ha⟩ := hpermitted q hq
    exact ⟨a.1, ha⟩

end Federation
