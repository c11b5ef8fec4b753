import Mathlib.Algebra.Field.Rat
import Federation.Proofs.Checkpoint.Validation
import Federation.Proofs.Experiment.Frame
import Federation.Proofs.Experiment.Reachable
import Federation.Proofs.Experiment.Retry
/-!
# Resumed experiments

A checkpoint holds everything of an experiment but its session, its latest events and its connection to
the nodes. So an experiment that is resumed from one goes on as the original would have.
-/

namespace Federation

variable {R σ : Type}

namespace Experiment

/-! ## 1. Experiments that differ in their latest events -/

/-- Another activity with the same result, in the same surroundings. Only the latest events of the
experiment that it leaves may differ. -/
def Alike {α : Type} (r r' : α × Experiment R × σ) : Prop :=
  ∃ events, r' = (r.1, { r.2.1 with events }, r.2.2)

variable [RootScalar R] (s : Surroundings R σ)

theorem runRound_alike (x : Experiment R) (events : Events R) (world : σ) :
    Alike (x.runRound s world) (Experiment.runRound s { x with events } world) := by
  obtain ⟨events₁, hround⟩ := executeRound_withEvents s x events world
  unfold runRound
  rw [hround]
  rcases x.executeRound s world with ⟨_ | completed, x₁, world₁⟩
  · exact ⟨events₁, rfl⟩
  · have hcheckpoint : ∀ now, checkpoint (commit { x₁ with events := events₁ } completed now) now =
        (x₁.commit completed now).checkpoint now := fun _ => rfl
    have hsaves : ∀ (x : Experiment R) now,
        (x.commit completed now).savesCheckpoints = x.savesCheckpoints := fun _ _ => rfl
    dsimp only [saveCheckpoint]
    rw [hcheckpoint, hsaves, hsaves]
    dsimp only
    by_cases hc : x₁.savesCheckpoints = true
    · rw [if_pos hc, if_pos hc]
      split <;> exact ⟨events₁, rfl⟩
    · rw [if_neg hc, if_neg hc]
      exact ⟨events₁, rfl⟩

theorem runRounds_alike (n : Nat) (x : Experiment R) (events : Events R) (world : σ) :
    Alike (runRounds s n x world) (runRounds s n { x with events } world) := by
  induction n generalizing x events world with
  | zero => exact ⟨events, rfl⟩
  | succ n ih =>
    obtain ⟨events₁, hround⟩ := runRound_alike s x events world
    unfold runRounds
    rw [hround]
    rcases x.runRound s world with ⟨_ | _, x₁, world₁⟩
    · exact ⟨events₁, rfl⟩
    · obtain ⟨events₂, hrest⟩ := ih x₁ events₁ world₁
      dsimp only
      rw [hrest]
      exact ⟨events₂, rfl⟩

omit [RootScalar R] in
theorem makeRoom_alike (x : Experiment R) (events : Events R) (rounds : UInt64) :
    Experiment.makeRoom { x with events } rounds = { x.makeRoom rounds with events } := by
  have hleft : Experiment.roundsLeft { x with events } = x.roundsLeft := rfl
  unfold makeRoom
  rw [hleft]
  by_cases h : x.roundsLeft < rounds.toNat
  · rw [if_pos h, if_pos h]
  · rw [if_neg h, if_neg h]

theorem run_alike (x : Experiment R) (events : Events R) (rounds : UInt64) (increase : Bool)
    (world : σ) :
    Alike (x.run s rounds increase world) (Experiment.run s { x with events } rounds increase world) := by
  have htaken : (if increase then Experiment.makeRoom { x with events } rounds else { x with events }) =
      { (if increase then x.makeRoom rounds else x) with events } := by
    cases increase with
    | false => rfl
    | true => exact makeRoom_alike x events rounds
  unfold run
  rw [htaken]
  generalize (if increase then x.makeRoom rounds else x) = x₁
  obtain ⟨events₁, hrounds⟩ := runRounds_alike s (min rounds.toNat x₁.roundsLeft) x₁ events world
  have hleft : Experiment.roundsLeft { x₁ with events } = x₁.roundsLeft := rfl
  dsimp only
  rw [hleft, hrounds]
  exact ⟨events₁, rfl⟩

theorem perform_alike (action : Action R) (x : Experiment R) (events : Events R) (world : σ) :
    Alike (action.perform s x world) (action.perform s { x with events } world) := by
  cases action with
  | run rounds increase =>
    obtain ⟨events₁, hrun⟩ := run_alike s x events rounds increase world
    simp only [Action.perform]
    rw [hrun]
    exact ⟨events₁, rfl⟩
  | save => exact ⟨events, rfl⟩
  | configure change =>
    simp only [Action.perform]
    rw [apply_detached change x events x.isConnected]
    cases hy : change.apply x with
    | error e => exact ⟨events, rfl⟩
    | ok y =>
      refine ⟨events, ?_⟩
      rw [← isConnected_of_apply hy]
      rfl

theorem performAll_alike (actions : List (Action R)) (x : Experiment R) (events : Events R) (world : σ) :
    Alike (Action.performAll s actions x world) (Action.performAll s actions { x with events } world) := by
  induction actions generalizing x events world with
  | nil => exact ⟨events, rfl⟩
  | cons action rest ih =>
    obtain ⟨events₁, hfirst⟩ := perform_alike s action x events world
    unfold Action.performAll
    rw [hfirst]
    obtain ⟨events₂, hrest⟩ := ih (action.perform s x world).2.1 events₁ (action.perform s x world).2.2
    dsimp only
    rw [hrest]
    exact ⟨events₂, rfl⟩

/-! ## 2. Experiments from checkpoints -/

/-- An experiment as it is resumed from a checkpoint. -/
def resumed (x : Experiment R) (savesCheckpoints : Bool) : Experiment R :=
  { x with
    secagg := x.secagg.clear
    isConnected := true
    events := .start x.roundCurrent (if x.history.isEmpty then none else some x.global)
    savesCheckpoints }

/-- The checkpoint of an experiment that can be built is resumed as the experiment. -/
theorem Buildable.resume {x : Experiment R} (hx : Buildable x) (hall : x.strategy = .allAvailable)
    {now : Timestamp} (hvalid : (x.checkpoint now).validate = .ok ()) {d : Draft R}
    (hconnected : d.isConnected = true) (catalog : Catalog) {world : σ}
    (hready : d.savesCheckpoints = true → (s.prepare world).1 = .ok ()) :
    ∃ draft world', d.resume (x.checkpoint now) = .ok draft ∧
      draft.build s catalog world = (.ok (x.resumed d.savesCheckpoints), world') := by
  have hlimit : ¬x.roundLimit < x.roundCurrent := (Checkpoint.validate_eq_ok.1 hvalid).limit
  obtain ⟨draft, hdraft⟩ : ∃ draft, d.resume (x.checkpoint now) = .ok draft := by
    rw [Draft.resume, hvalid]
    exact ⟨_, rfl⟩
  have hfields := hdraft
  rw [Draft.resume, hvalid] at hfields
  have hessentials : draft.checkEssentials = .ok ⟨x.query, x.initialParams⟩ := by
    obtain rfl := Except.ok.inj hfields
    exact checkEssentials_eq_ok.2
      ⟨hconnected, rfl, rfl, hx.hasLayers, hx.isFinite, hx.timeout, hx.aggregator, hx.optimizer⟩
  have hstart : draft.start catalog x.query =
      .ok ⟨x.roundCurrent, x.history, x.nodeStates, x.dataset, x.dataChecked⟩ := by
    obtain rfl := Except.ok.inj hfields
    simp only [Draft.start, guard_eq_ok, bind_eq_ok]
    exact ⟨_, rfl, hlimit, rfl⟩
  have hexperiment : draft.experiment ⟨x.query, x.initialParams⟩
      ⟨x.roundCurrent, x.history, x.nodeStates, x.dataset, x.dataChecked⟩ x.experimentId =
      x.resumed d.savesCheckpoints := by
    obtain rfl := Except.ok.inj hfields
    -- the global parameters and the strategy are not taken over, yet they are those of the original
    rw [Draft.experiment, resumed, hall, hx.global]
    rfl
  have hid : draft.experimentId = some x.experimentId := by
    obtain rfl := Except.ok.inj hfields
    rfl
  have hsaves : draft.savesCheckpoints = d.savesCheckpoints := by
    obtain rfl := Except.ok.inj hfields
    rfl
  refine ⟨draft, (if d.savesCheckpoints then s.prepare world else (.ok (), world)).2, hdraft, ?_⟩
  unfold Draft.build
  rw [hessentials]
  dsimp only
  rw [hstart, hid, hsaves]
  dsimp only
  rw [hexperiment]
  cases hd : d.savesCheckpoints with
  | false => rfl
  | true =>
    rcases hp : s.prepare world with ⟨ready, world'⟩
    have hok := hready hd
    rw [hp] at hok
    obtain rfl : ready = .ok () := hok
    rfl

end Experiment

open Experiment in
/-- An experiment that is resumed from a valid checkpoint of an experiment is the same but for its
session, its latest events and its connection. Unless it was secure or had lost its connection, it
answers all further actions as the original does, and both stay the same. -/
theorem resumed_experiment_continues_alike [RootScalar R] {responses : List (Response R)}
    {x : Experiment R} (hx : Reached responses x) (hall : x.strategy = .allAvailable) {now : Timestamp}
    (hvalid : (x.checkpoint now).validate = .ok ()) (s : Surroundings R σ) {d : Draft R}
    (hconnected : d.isConnected = true) (catalog : Catalog) {world : σ}
    (hready : d.savesCheckpoints = true → (s.prepare world).1 = .ok ()) :
    ∃ draft y world', d.resume (x.checkpoint now) = .ok draft ∧
      draft.build s catalog world = (.ok y, world') ∧
      y = { x with
        secagg := x.secagg.clear
        isConnected := true
        events := .start x.roundCurrent (if x.history.isEmpty then none else some x.global)
        savesCheckpoints := d.savesCheckpoints } ∧
      (x.secagg.enabled = false → (∀ r ∈ responses, ¬r.IsAbandoned) →
        d.savesCheckpoints = x.savesCheckpoints →
        ∀ {σ' : Type} (s' : Surroundings R σ') (actions : List (Action R)) (world : σ'),
          Alike (Action.performAll s' actions x world) (Action.performAll s' actions y world)) := by
  obtain ⟨draft, world', hdraft, hbuild⟩ :=
    hx.buildable.resume s hall hvalid hconnected catalog hready
  refine ⟨draft, _, world', hdraft, hbuild, rfl, ?_⟩
  intro hoff hreturned hsaves σ' s' actions world
  have hconn := hx.isConnected hreturned
  -- nothing but the latest events is left that could differ
  have htwin : x.resumed d.savesCheckpoints =
      { x with events := .start x.roundCurrent (if x.history.isEmpty then none else some x.global) } := by
    have hclear : x.secagg.clear = x.secagg := by
      rw [SecureAggregation.clear, ← hx.buildable.session hoff]
    rw [resumed, hclear, hsaves, ← hconn]
  rw [htwin]
  exact performAll_alike s' actions x _ world

/-- A draft of an experiment with two nodes. -/
def pairDraft : Draft ℚ where
  researcherId := "researcher"
  experimentId := some "experiment"
  isConnected := true
  query := some (.explicit (.ofList [("left", sampleData), ("right", sampleData)]))
  initialParams := some (.ofLayers [("layer", [0])])
  optimizer := .identity
  secagg := ⟨false, ⟨1, 16⟩, .zero, none⟩
  roundLimit := 2

/-- The experiment that is built from the draft. -/
def pairBuilt : Experiment ℚ :=
  pairDraft.experiment
    ⟨.explicit (.ofList [("left", sampleData), ("right", sampleData)]), .ofLayers [("layer", [0])]⟩
    { dataset := pairExperiment.dataset } "experiment"

/-- The experiment after its first round. -/
def pairTrained : Experiment ℚ :=
  (Action.perform (pairSurroundings true 1) pairBuilt () (.run 1 false)).2.1

theorem resumed_experiment_continues_alike_pair :
    pairTrained.roundCurrent = 1 ∧
      ∃ draft y, pairDraft.resume (pairTrained.checkpoint ⟨0, 0⟩) = .ok draft ∧
        draft.build (pairSurroundings true 2) (fun _ => .error "") () = (.ok y, ()) ∧
        y.global = pairTrained.global ∧ y.history = pairTrained.history ∧
        Experiment.Alike
          (Action.performAll (pairSurroundings true 2) [.run 1 false] pairTrained ())
          (Action.performAll (pairSurroundings true 2) [.run 1 false] y ()) := by
  have hbuilt : pairDraft.build (pairSurroundings true 1) (fun _ => .error "") () = (.ok pairBuilt, ()) :=
    rfl
  have hreached := (Experiment.Reached.built _ _ pairDraft ⟨rfl, rfl⟩ hbuilt).performed
    (pairSurroundings true 1) (.run 1 false) ()
  have hvalid : (pairTrained.checkpoint ⟨0, 0⟩).validate = .ok () := by decide +kernel
  have hreturned :
      ¬(Action.perform (pairSurroundings true 1) pairBuilt () (.run 1 false)).1.IsAbandoned := by
    have hnone : (pairBuilt.run (pairSurroundings true 1) 1 false ()).1.failure.isNone = true := by
      decide +kernel
    intro habandoned
    change (pairBuilt.run (pairSurroundings true 1) 1 false ()).1.failure = some .abandoned
      at habandoned
    rw [habandoned] at hnone
    contradiction
  have hready : pairDraft.savesCheckpoints = true → ((pairSurroundings true 2).prepare ()).1 = .ok () :=
    fun _ => rfl
  obtain ⟨draft, y, world', hdraft, hy, rfl, halike⟩ :=
    resumed_experiment_continues_alike hreached rfl hvalid (pairSurroundings true 2) rfl
      (fun _ => .error "") hready
  refine ⟨by decide +kernel, draft, _, hdraft, hy, rfl, rfl, halike rfl ?_ rfl _ _ _⟩
  intro r hr
  obtain rfl := List.mem_singleton.1 hr
  exact hreturned

end Federation
