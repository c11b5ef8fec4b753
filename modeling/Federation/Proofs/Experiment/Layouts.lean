import Federation.Proofs.Experiment.Configuration
import Federation.Proofs.Experiment.Resume
import Federation.Proofs.Round.Layouts
/-!
# The layout of an experiment

The global parameters, the records of the history, the control variates and the moments of an experiment
keep the layout of its initial parameters, if none of them came from elsewhere. Then the only layout that
fails a round is one of parameters which a participant returned.
-/

namespace Federation

variable {R σ : Type}

/-- A change that brings neither control variates nor moments along. -/
def Change.BringsNoState : Change R → Prop
  | aggregator rule => rule.state = []
  | optimizer rule => rule.state = []
  | _ => True

def Action.BringsNoState : Action R → Prop
  | configure change => change.BringsNoState
  | _ => True

/-- What an experiment may fail of: if a round blames a layout, then that of parameters which the named
node returned and which differ from a reference. -/
def ExperimentError.Justified (returned : NodeId → Parameters R → Prop) (reference : Parameters R) :
    ExperimentError R → Prop
  | round _ e => e.Justified returned reference
  | _ => True

/-- What is known of nodes still has a layout if some of it is forgotten. -/
theorem NodeStates.Uniform.retain {states : NodeStates R} {layout : NameMap Nat}
    (h : states.Uniform layout) (keep : NodeId → Bool) : (states.retain keep).Uniform layout := by
  refine uniform_of_find? fun node state hstate => ?_
  have hnode := h node
  rwa [stateFor, (find?_retain.1 hstate).1] at hnode

/-- A draft of a new experiment with some parameters, without any control variates and moments. -/
structure Draft.BringsNoState (initial : Parameters R) (d : Draft R) : Prop where
  progress : d.progress = none
  initialParams : d.initialParams = some initial
  aggregator : d.aggregator.state = []
  optimizer : d.optimizer.state = []

namespace Experiment

/-- An experiment with some initial parameters, all of whose control variates and moments come from its own
rounds. -/
def SelfMade [RootScalar R] (initial : Parameters R) : Experiment R → Prop :=
  LedTo (·.BringsNoState initial) fun _ action => action.BringsNoState

/-- All that has a layout has the given one. -/
structure Uniform (x : Experiment R) (layout : NameMap Nat) : Prop where
  initial : x.initialParams.layout = layout
  global : x.global.layout = layout
  history : ∀ record ∈ x.history, record.params.layout = layout
  aggregator : ∀ control ∈ x.aggregator.state, control.layout = layout
  nodeStates : x.nodeStates.Uniform layout
  optimizer : ∀ moment ∈ x.optimizer.state, moment.layout = layout

/-- In an attempt a participant of the round is heard to return some parameters. -/
def Returned [Scalar R] (s : Surroundings R σ) (x : Experiment R) (world : σ) (node : NodeId)
    (p : Parameters R) : Prop :=
  ∃ c y world', x.Prepares s world c y world' ∧ node ∈ c.participants.keys ∧
    c.Returned s.link world' node p

variable {x y : Experiment R} {layout : NameMap Nat}

/-! ## 1. Building and configuring -/

theorem uniform_of_build [Scalar R] (s : Surroundings R σ) {catalog : Catalog} {d : Draft R}
    {initial : Parameters R} (hd : d.BringsNoState initial) {world world' : σ}
    (h : d.build s catalog world = (.ok x, world')) : Uniform x initial.layout := by
  obtain ⟨e, p, id, he, hp, rfl⟩ := essentials_of_build s h
  obtain ⟨-, dataset, rfl⟩ := start_of_new hd.progress hp
  obtain ⟨-, -, hparams, -⟩ := checkEssentials_eq_ok.1 he
  obtain rfl := Option.some.inj (hd.initialParams.symm.trans hparams)
  refine ⟨rfl, rfl, List.forall_mem_nil _, ?_, fun _ => nofun, ?_⟩
  · show ∀ control ∈ d.aggregator.state, _
    rw [hd.aggregator]
    exact List.forall_mem_nil _
  · show ∀ moment ∈ d.optimizer.state, _
    rw [hd.optimizer]
    exact List.forall_mem_nil _

theorem Uniform.apply [Scalar R] (h : Uniform x layout) {change : Change R} (hstate : change.BringsNoState)
    (hy : change.apply x = .ok y) : Uniform y layout := by
  have hkept := (changed_of_apply hy).reconfigured
  have hframe := frame_of_apply hy
  refine ⟨?_, ?_, ?_, ?_, ?_, ?_⟩
  · rw [hkept.initialParams]
    exact h.initial
  · rw [hkept.global]
    exact h.global
  · rw [hkept.history]
    exact h.history
  · rcases hframe.aggregator with haggregator | rfl
    · rw [haggregator]
      exact h.aggregator
    · rw [show y.aggregator.state = [] from hstate]
      exact List.forall_mem_nil _
  · rcases hkept.nodeStates with hstates | ⟨keep, hstates⟩
    · rw [hstates]
      exact h.nodeStates
    · rw [hstates]
      exact h.nodeStates.retain keep
  · rcases hframe.optimizer with hoptimizer | rfl
    · rw [hoptimizer]
      exact h.optimizer
    · rw [show y.optimizer.state = [] from hstate]
      exact List.forall_mem_nil _

theorem Uniform.sameTraining (h : Uniform x layout) (hy : SameTraining x y) : Uniform y layout := by
  obtain ⟨_, _, _, _, rfl⟩ := hy
  exact { h with }

/-! ## 2. Attempts -/

theorem Uniform.auxVarsFor [Scalar R] (h : Uniform x layout) (node : NodeId) :
    ∃ aux, x.aggregator.auxVarsFor node x.nodeStates x.global = .ok aux :=
  x.aggregator.auxVarsFor_of_layout h.global h.aggregator h.nodeStates node

/-- A setup is not about layouts. -/
theorem justified_of_setup {l : Link R σ} {a a' : SecureAggregation R} {researcher : ResearcherId}
    {experiment : ExperimentId} {name : String} {parties : NameSet} {world world' : σ} {e : SecaggError R}
    (h : a.setup l researcher experiment name parties world = (.error (.failed e), a', world')) :
    e.Justified := by
  have hsetup := setUp_setup l a researcher experiment name parties world
  rw [h] at hsetup
  cases hsetup with
  | undelivered => trivial
  | unjoined stop n world₁ hr hs hj =>
    have hwait := Invitation.settled_wait ⟨experiment, name, parties⟩ (l.watch a.clear.timeout world₁)
    rw [show Invitation.wait ⟨experiment, name, parties⟩ (l.watch a.clear.timeout world₁) =
      .error (.failed e) from congrArg Prod.fst hj] at hwait
    cases hwait with
    | timeout => trivial
    | closed => trivial
    | refused before rest r t hw hj hr hk =>
      unfold SetupReply.refusal
      split <;> trivial

/-- A round that cannot be prepared fails of something else than a layout. -/
theorem Uniform.justified_of_prepareRound [Scalar R] (h : Uniform x layout) (s : Surroundings R σ)
    {selected : NameSet} {world world' : σ} {e : ExperimentError R}
    (hp : x.prepareRound s selected world = (.error (.failed e), y, world'))
    (returned : NodeId → Parameters R → Prop) (reference : Parameters R) :
    e.Justified returned reference := by
  have hprepared := prepared_prepareRound s x selected world
  rw [hp] at hprepared
  cases hprepared with
  | unsecured stop _ _ hs =>
    have hsecured := secured_prepareSecagg s x selected world
    rw [hs] at hsecured
    cases hsecured with
    | failed e' secagg _ hs => exact justified_of_setup hs
  | unsuited secagg _ _ _ hs hparts =>
    have hkept := kept_of_prepareSecagg s x selected world
    rw [hs] at hkept
    obtain ⟨node, -, hnode⟩ := participant_of_error hparts
    obtain ⟨aux, haux⟩ := (h.sameTraining hkept.sameTraining).auxVarsFor node
    rw [participant] at hnode
    split at hnode
    · obtain rfl := Except.error.inj hnode
      trivial
    · rw [haux] at hnode
      contradiction

variable [RootScalar R] (s : Surroundings R σ)

omit [RootScalar R] in
theorem Uniform.context [Scalar R] (h : Uniform x layout) (participants : NameMap (Participant R))
    (secagg : Option (SecaggRound R)) (requestId : UInt64) :
    (x.context participants secagg requestId).Uniform layout :=
  ⟨h.global, h.aggregator, h.optimizer, h.nodeStates⟩

theorem Uniform.yields_executeRound (h : Uniform x layout) (world : σ) :
    Yields (·.Uniform layout) (Stop.Holds (ExperimentError.Justified (x.Returned s world) x.global))
      (x.executeRound s world).1 := by
  have hattempt := attempt_executeRound s x world
  generalize x.executeRound s world = result at hattempt ⊢
  cases hattempt with
  | inconsistent e hd =>
    obtain ⟨e', rfl⟩ := error_of_checkData hd
    trivial
  | unselected => trivial
  | interrupted => trivial
  | unprepared x₁ _ selected _ e hr hp =>
    exact (h.sameTraining (kept_of_checkData hr.checked).sameTraining).justified_of_prepareRound s hp _ _
  | forsaken => trivial
  | abandoned => trivial
  | conducted c x₁ _ world₁ world' r hp hc hr =>
    obtain ⟨participants, secagg, requestId, rfl⟩ := context_of_prepares s hp
    have hrun := RoundContext.yields_run (h.context participants secagg requestId) s.link world₁
    rw [conduct_eq] at hc
    obtain ⟨rfl, -⟩ := Prod.mk.inj hc
    refine Yields.mapError (hrun.mono (fun _ hcompleted => hcompleted) fun stop hstop => ?_)
    cases stop with
    | abandoned => trivial
    | failed e =>
      refine RoundError.Justified.mono hstop fun node p hreturned => ⟨_, x₁, world₁, hp, ?_, hreturned⟩
      obtain ⟨replies, r, t, -, hfirst, -⟩ := hreturned
      exact Collecting.mem_participants_of_firstMatch? hfirst

/-! ## 3. Rounds -/

omit [RootScalar R] in
theorem Uniform.commit (h : Uniform x layout) {completed : CompletedRound R}
    (hcompleted : completed.Uniform layout) (now : Timestamp) : Uniform (x.commit completed now) layout where
  initial := h.initial
  global := hcompleted.aggregated.global
  history := List.forall_mem_append.2 ⟨h.history, List.forall_mem_singleton.2 hcompleted.aggregated.global⟩
  aggregator := hcompleted.aggregated.aggregator
  optimizer := hcompleted.optimizer
  nodeStates node := by
    show ((statesAfter completed x.nodeStates).stateFor node).Uniform layout
    rw [stateFor_statesAfter]
    cases completed.stateIds.find? node with
    | none => exact h.nodeStates node
    | some produced =>
      -- a participant has the control variate that the aggregator gave it, or else the one before
      show ((completed.aggregated.nodeStates.find? node).getD (x.nodeStates.stateFor node)).Uniform layout
      cases hnew : completed.aggregated.nodeStates.find? node with
      | none => exact h.nodeStates node
      | some state => exact hcompleted.aggregated.nodeStates node state hnew

theorem Uniform.runRound (h : Uniform x layout) (world : σ) : Uniform (x.runRound s world).2.1 layout := by
  refine runRound_preserve s (P := (·.Uniform layout))
    (fun _ _ _ hy => h.sameTraining (sameTraining_of_executeRound s hy)) fun completed y world' now hy => ?_
  have hcompleted := (h.yields_executeRound s world).of_eq_ok (congrArg Prod.fst hy)
  exact (h.sameTraining (sameTraining_of_executeRound s hy)).commit hcompleted now

theorem Uniform.justified_of_runRound (h : Uniform x layout) {world : σ} {e : ExperimentError R}
    (he : (x.runRound s world).1 = .error (.failed e)) : e.Justified (x.Returned s world) x.global := by
  have hround := roundRun_runRound s x world
  generalize x.runRound s world = result at he hround
  cases hround with
  | failed stop y world' hy =>
    obtain rfl := Except.error.inj he
    exact (h.yields_executeRound s world).of_eq_error (congrArg Prod.fst hy)
  | committed => contradiction
  | saved => contradiction
  | unsaved completed y world₁ world' e' =>
    obtain rfl := Stop.failed.inj (Except.error.inj he)
    trivial

theorem Uniform.perform (h : Uniform x layout) {action : Action R} (hstate : action.BringsNoState)
    (world : σ) : Uniform (action.perform s x world).2.1 layout ∧
      ∀ a ∈ action.attempts s x world, Uniform a.1 layout := by
  refine action.perform_preserve s (P := (·.Uniform layout)) (fun _ _ h => { h with })
    (fun _ world h => h.runRound s world) (fun change y heq hy => ?_) h world
  subst heq
  exact h.apply hstate hy

theorem SelfMade.uniform {initial : Parameters R} (h : SelfMade initial x) : Uniform x initial.layout := by
  induction h with
  | built s catalog d hd h => exact uniform_of_build s hd h
  | performed s action hstate world h ih => exact (ih.perform s hstate world).1

end Experiment

open Experiment in
/-- All that has a layout keeps the one of the initial parameters, at the beginning and at the end of every
round, however an experiment is run and reconfigured, if its control variates and moments come from its own
rounds. So every participant can be sent its correction, no optimizer and no secure round refuses its
parameters, and a round fails of a layout only if a participant returned parameters of another one. -/
theorem parameters_keep_initial_layout [RootScalar R] {initial : Parameters R} {x : Experiment R}
    (h : SelfMade initial x) :
    (Uniform x initial.layout ∧
      ∀ node, ∃ aux, x.aggregator.auxVarsFor node x.nodeStates x.global = .ok aux) ∧
    ∀ {σ : Type} (s : Surroundings R σ) (rounds : UInt64) (increase : Bool) (world : σ),
      ∀ a ∈ (Action.run rounds increase).attempts s x world,
        (Uniform a.1 initial.layout ∧
          ∀ node, ∃ aux, a.1.aggregator.auxVarsFor node a.1.nodeStates a.1.global = .ok aux) ∧
        Uniform (a.1.runRound s a.2).2.1 initial.layout ∧
        ∀ number e, (a.1.runRound s a.2).1 = .error (.failed (.round number e)) →
          (∀ e', e ≠ .aggregation (.optimizerState e')) ∧
          (∀ e', e ≠ .secureAggregation (.layout e')) ∧
          ∀ node e', e = .aggregation (.shapeMismatch node e') →
            ∃ p, a.1.Returned s a.2 node p ∧ a.1.global.mismatch? p = some e' ∧
              p.layout ≠ initial.layout := by
  have huniform := h.uniform
  refine ⟨⟨huniform, huniform.auxVarsFor⟩, fun s rounds increase world a ha => ?_⟩
  have hstate : (Action.run (R := R) rounds increase).BringsNoState := trivial
  have hbegin := (huniform.perform s hstate world).2 a ha
  refine ⟨⟨hbegin, hbegin.auxVarsFor⟩, hbegin.runRound s a.2, fun number e he => ?_⟩
  have hjustified := hbegin.justified_of_runRound s he
  refine ⟨?_, ?_, ?_⟩
  · rintro e' rfl
    exact hjustified
  · rintro e' rfl
    exact hjustified
  · rintro node e' rfl
    obtain ⟨p, hreturned, hmismatch⟩ := hjustified
    refine ⟨p, hreturned, hmismatch, fun hlayout => ?_⟩
    rw [Parameters.mismatch?_eq_none.2 (hbegin.global.trans hlayout.symm)] at hmismatch
    contradiction

/-- The experiment after a round with controlled averaging and momentum. Then both are replaced, but the
nodes keep their control variates. -/
def pairRestored : Experiment ℚ :=
  (Action.performAll (pairSurroundings true 1)
    [.configure (.trainingArgs { numUpdates := some 1, learningRate := some 1 }),
      .configure (.aggregator (.scaffold { serverLr := 1 })),
      .configure (.optimizer (.momentum { learningRate := 1, beta := 0 })),
      .run 1 false,
      .configure (.optimizer (.sgd 1)),
      .configure (.aggregator .fedAverage)] pairBuilt ()).2.1

open Experiment in
theorem parameters_keep_initial_layout_pair :
    SelfMade (.ofLayers [("layer", [0])]) pairRestored ∧ pairRestored.roundCurrent = 1 ∧
      pairRestored.aggregator.state.isEmpty = true ∧
      (pairRestored.nodeStates.stateFor "left").controlVariate.map (·.flatten) = some [-1] ∧
      Uniform pairRestored (Parameters.ofLayers [("layer", [(0 : ℚ)])]).layout := by
  have hbuilt : pairDraft.build (pairSurroundings true 1) (fun _ => .error "") () = (.ok pairBuilt, ()) :=
    rfl
  have hselfMade : SelfMade (.ofLayers [("layer", [0])]) pairRestored :=
    (LedTo.built _ _ pairDraft ⟨rfl, rfl, rfl, rfl⟩ hbuilt).performAll (pairSurroundings true 1)
      (by simp [Action.BringsNoState, Change.BringsNoState, Aggregator.state, Optimizer.state]) ()
  exact ⟨hselfMade, by decide +kernel, by decide +kernel, by decide +kernel,
    (parameters_keep_initial_layout hselfMade).1.1⟩

end Federation
