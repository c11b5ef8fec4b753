import Federation.Proofs.Checkpoint.Saving
import Federation.Proofs.Experiment.History
import Federation.Proofs.Experiment.Reachable
import Federation.Proofs.Experiment.Report
import Federation.Proofs.Network
/-!
# Snapshots of completed rounds

What validation demands of a checkpoint holds of an experiment whenever a round was just completed. In
between a new optimizer may bring moments that do not fit, but then no round completes with it: a step
succeeds only among parameters of one layout.
-/

namespace Federation

variable {R σ : Type}

/-! ## 1. Records and node states -/

theorem Recorded.latest [Scalar R] {initial : Parameters R} {history : List (RoundRecord R)}
    (h : Recorded initial history) : (latestParams initial history).layout = initial.layout := by
  unfold latestParams
  cases hlast : history.getLast? with
  | none => rfl
  | some record => exact (h.params (List.mem_of_getLast? hlast)).1

theorem Recorded.append [Scalar R] {initial : Parameters R} {history : List (RoundRecord R)}
    (h : Recorded initial history) {record : RoundRecord R}
    (hnumber : record.roundNumber.toNat = history.length)
    (hlayout : record.params.layout = initial.layout) (hfinite : record.params.isFinite = true) :
    Recorded initial (history ++ [record]) := by
  intro i r hi
  rw [List.getElem?_append] at hi
  split at hi
  · exact h i r hi
  next hlength =>
    have hzero : i - history.length = 0 := by
      by_contra hne
      rw [List.getElem?_eq_none (by simp; omega)] at hi
      contradiction
    rw [hzero] at hi
    obtain rfl := Option.some.inj hi
    exact ⟨by omega, hlayout, hfinite⟩

namespace NodeStates

theorem precede_empty (current : RoundNumber) : (empty : NodeStates R).Precede current :=
  fun _ _ _ hfind _ => by contradiction

theorem Precede.retain {states : NodeStates R} {current : RoundNumber} (h : states.Precede current)
    (keep : NodeId → Bool) : (states.retain keep).Precede current := by
  intro node state round hfind hround
  exact h node state round (find?_retain.1 hfind).1 hround

/-- After a round its number is the last one of its participants, and the others stay behind. -/
theorem Precede.statesAfter {states : NodeStates R} {current next : RoundNumber}
    (h : states.Precede current) {completed : CompletedRound R} (hnumber : completed.roundNumber = current)
    (hnext : current < next) : (Experiment.statesAfter completed states).Precede next := by
  intro node state round hfind hround
  rw [Experiment.find?_statesAfter, Option.or_eq_some_iff] at hfind
  rcases hfind with hfind | ⟨-, hfind⟩
  · obtain ⟨produced, -, rfl⟩ := Option.map_eq_some_iff.1 hfind
    obtain rfl := Option.some.inj hround
    rwa [hnumber]
  · exact UInt64.lt_trans (h node state round hfind hround) hnext

end NodeStates

namespace Experiment

/-! ## 2. Experiments between their rounds -/

/-- What holds of an experiment at all times. -/
structure Standing [Scalar R] (x : Experiment R) : Prop where
  count : x.history.length = x.roundCurrent.toNat
  recorded : Recorded x.initialParams x.history
  limit : ¬x.roundLimit < x.roundCurrent
  global : x.global = latestParams x.initialParams x.history
  isFinite : x.initialParams.isFinite = true
  nodeStates : x.nodeStates.Precede x.roundCurrent

/-- What holds of an experiment right after a completed round. -/
structure Settled [Scalar R] (x : Experiment R) : Prop extends Standing x where
  last : ∃ record, x.history.getLast? = some record ∧ x.global = record.params
  moments : ∀ moment ∈ x.optimizer.state, moment.layout = x.initialParams.layout

theorem Settled.validate [Scalar R] {x : Experiment R} (h : x.Settled) (createdAt : Timestamp) :
    (x.checkpoint createdAt).validate = .ok () :=
  Checkpoint.validate_eq_ok.2
    ⟨rfl, h.count, h.limit, h.isFinite, h.recorded, h.moments, h.nodeStates⟩

section

variable [Scalar R] {s : Surroundings R σ} {catalog : Catalog} {d : Draft R} {x y : Experiment R}
  {world world' : σ}

theorem standing_of_new (hd : d.progress = none) (h : d.build s catalog world = (.ok x, world')) :
    Standing x := by
  obtain ⟨e, p, id, he, hp, rfl⟩ := essentials_of_build s h
  obtain ⟨-, -, -, -, hfinite, -⟩ := checkEssentials_eq_ok.1 he
  obtain ⟨hlimit, dataset, rfl⟩ := start_of_new hd hp
  exact ⟨rfl, nofun, hlimit, rfl, hfinite, NodeStates.precede_empty 0⟩

theorem standing_of_takesUp {c : Checkpoint R} (hd : d.TakesUp c)
    (hinitial : d.initialParams = some c.initialParams) (h : d.build s catalog world = (.ok x, world')) :
    Standing x := by
  obtain ⟨e, p, id, he, hp, rfl⟩ := essentials_of_build s h
  obtain ⟨-, -, hparams, -⟩ := checkEssentials_eq_ok.1 he
  obtain ⟨hvalid, hlimit, hcurrent, hhistory, hstates⟩ := start_of_takesUp hd hp
  have hcoherent := Checkpoint.validate_eq_ok.1 hvalid
  have hsame : e.initialParams = c.initialParams := Option.some.inj (hparams.symm.trans hinitial)
  -- the progress and the initial parameters are those of the checkpoint
  constructor
  · show p.history.length = p.roundCurrent.toNat
    rw [hhistory, hcurrent, hcoherent.count]
  · show Recorded e.initialParams p.history
    rw [hsame, hhistory]
    exact hcoherent.recorded
  · exact hlimit
  · rfl
  · show e.initialParams.isFinite = true
    rw [hsame, hcoherent.initialParams]
  · show p.nodeStates.Precede p.roundCurrent
    rw [hstates, hcurrent]
    exact hcoherent.nodeStates

theorem Standing.reconfigured (hx : Standing x) (h : Reconfigured x y) : Standing y where
  count := by rw [h.history, h.roundCurrent, hx.count]
  recorded := by
    rw [h.initialParams, h.history]
    exact hx.recorded
  limit := h.limit hx.limit
  global := by rw [h.global, h.initialParams, h.history, hx.global]
  isFinite := by rw [h.initialParams, hx.isFinite]
  nodeStates := by
    rw [h.roundCurrent]
    rcases h.nodeStates with hsame | ⟨keep, hretain⟩
    · rw [hsame]
      exact hx.nodeStates
    · rw [hretain]
      exact hx.nodeStates.retain keep

theorem Standing.sameTraining (hx : Standing x) (h : SameTraining x y) : Standing y := by
  obtain ⟨_, _, _, _, rfl⟩ := h
  exact { hx with }

end

/-- A limit that is raised within the range of words stays above the completed rounds. -/
theorem Standing.makeRoom [Scalar R] {x : Experiment R} (hx : Standing x) {rounds : UInt64}
    (hfits : x.roundCurrent.toNat + rounds.toNat < 2 ^ 64) : Standing (x.makeRoom rounds) := by
  unfold Experiment.makeRoom
  split
  · refine { hx with limit := ?_ }
    show ¬x.roundCurrent + rounds < x.roundCurrent
    rw [UInt64.lt_iff_toNat_lt, UInt64.toNat_add, Nat.mod_eq_of_lt hfits]
    omega
  · exact hx

variable [RootScalar R] {s : Surroundings R σ} {x y : Experiment R} {world world' : σ}

/-! ## 3. Completed rounds -/

theorem toNat_next {current limit : RoundNumber} (h : current < limit) :
    (current + 1).toNat = current.toNat + 1 := by
  rw [UInt64.lt_iff_toNat_lt] at h
  have hlimit := limit.toNat_lt
  rw [UInt64.toNat_add]
  exact Nat.mod_eq_of_lt (show current.toNat + 1 < 2 ^ 64 by omega)

/-- Whatever the moments of the optimizer were before, they fit the parameters after a completed round. -/
theorem Standing.fitting (hx : Standing x) {completed : CompletedRound R}
    (h : x.executeRound s world = (.ok completed, y, world')) :
    completed.aggregated.global.layout = x.initialParams.layout ∧
      completed.aggregated.global.isFinite = true ∧
      ∀ moment ∈ completed.optimizer.state, moment.layout = x.initialParams.layout := by
  obtain ⟨c, collecting, aggregated, -, -, -, -, hstep⟩ := combined_of_completed s h
  obtain ⟨hfollow, hfinite⟩ := Optimizer.step_eq_ok.1 hstep
  obtain ⟨-, hlayout, hmoments⟩ := Optimizer.follow_eq_ok hfollow
  have hglobal : x.global.layout = x.initialParams.layout := by rw [hx.global, hx.recorded.latest]
  exact ⟨hlayout.trans hglobal, hfinite, fun moment hm => (hmoments moment hm).trans hglobal⟩

theorem Standing.commit (hx : Standing x) (hroom : x.roundCurrent < x.roundLimit)
    {completed : CompletedRound R} (h : x.executeRound s world = (.ok completed, y, world'))
    (now : Timestamp) : Settled (y.commit completed now) := by
  obtain ⟨c, collecting, aggregated, -, hnumber, -, -, -⟩ := combined_of_completed s h
  obtain ⟨hlayout, hfinite, hmoments⟩ := hx.fitting h
  have hnext := toNat_next hroom
  obtain ⟨_, _, _, _, rfl⟩ := sameTraining_of_executeRound s h
  constructor
  · constructor
    · show (x.history ++ [RoundRecord.ofCompleted completed now]).length = (x.roundCurrent + 1).toNat
      rw [List.length_append, hx.count, hnext]
      rfl
    · refine hx.recorded.append ?_ hlayout hfinite
      show completed.roundNumber.toNat = x.history.length
      rw [hnumber, hx.count]
    · show ¬x.roundLimit < x.roundCurrent + 1
      rw [UInt64.lt_iff_toNat_lt] at hroom ⊢
      omega
    · simp [Experiment.commit, latestParams, RoundRecord.ofCompleted]
    · exact hx.isFinite
    · refine hx.nodeStates.statesAfter hnumber ?_
      show x.roundCurrent < x.roundCurrent + 1
      rw [UInt64.lt_iff_toNat_lt, hnext]
      exact Nat.lt_succ_self _
  · exact ⟨RoundRecord.ofCompleted completed now, List.getLast?_concat, rfl⟩
  · exact hmoments

theorem Standing.runRound (hx : Standing x) (hroom : x.roundCurrent < x.roundLimit) (world : σ) :
    Standing (x.runRound s world).2.1 :=
  runRound_preserve s (fun _ _ _ hy => hx.sameTraining (sameTraining_of_executeRound s hy))
    fun _ _ _ now hy => (hx.commit hroom hy now).toStanding

/-- While rounds are left each attempt starts from an experiment that stands below its limit, and so do
the rounds leave it. -/
theorem Standing.runRounds {n : Nat} (hx : Standing x) (hn : n ≤ x.roundsLeft) (world : σ) :
    Standing (runRounds s n x world).2.1 ∧
      ∀ a ∈ x.attempts s n world, Standing a.1 ∧ a.1.roundCurrent < a.1.roundLimit := by
  induction n generalizing x world with
  | zero => exact ⟨hx, List.forall_mem_nil _⟩
  | succ n ih =>
    have hroom : x.roundCurrent < x.roundLimit := by
      rw [UInt64.lt_iff_toNat_lt]
      unfold roundsLeft at hn
      omega
    have hround := hx.runRound (s := s) hroom world
    rcases hr : x.runRound s world with ⟨stop | _, y, world₁⟩
    · rw [hr] at hround
      simp only [Experiment.runRounds, Experiment.attempts, hr]
      exact ⟨hround, List.forall_mem_singleton.2 ⟨hx, hroom⟩⟩
    · rw [hr] at hround
      have hadvanced := advanced_of_runRound_ok s hr
      have hleft : n ≤ y.roundsLeft := by
        have hcurrent : y.history.length = y.roundCurrent.toNat := hround.count
        rw [hadvanced.history, hx.count] at hcurrent
        unfold roundsLeft at hn ⊢
        rw [hadvanced.roundLimit]
        omega
      obtain ⟨hlast, hattempts⟩ := ih hround hleft world₁
      simp only [Experiment.runRounds, Experiment.attempts, hr]
      exact ⟨hlast, List.forall_mem_cons.2 ⟨⟨hx, hroom⟩, hattempts⟩⟩

/-! ## 4. Experiments in use -/

/-- A run does not raise the limit beyond the range of words. -/
def Fits (x : Experiment R) : Action R → Prop
  | .run rounds increase => increase = true → x.roundCurrent.toNat + rounds.toNat < 2 ^ 64
  | _ => True

/-- An experiment in use. It is built anew, or taken up from a valid checkpoint together with its initial
parameters; then it is run, saved and reconfigured in any surroundings. -/
inductive Underway : Experiment R → Prop where
  | built {σ : Type} (s : Surroundings R σ) (catalog : Catalog) (d : Draft R) (hd : d.progress = none)
    {x : Experiment R} {world world' : σ} (h : d.build s catalog world = (.ok x, world')) : Underway x
  | takenUp {σ : Type} (s : Surroundings R σ) (catalog : Catalog) (d : Draft R) (c : Checkpoint R)
    (hd : d.TakesUp c) (hinitial : d.initialParams = some c.initialParams) {x : Experiment R}
    {world world' : σ} (h : d.build s catalog world = (.ok x, world')) : Underway x
  | performed {σ : Type} (s : Surroundings R σ) (action : Action R) {x : Experiment R} (world : σ)
    (h : Underway x) (hfits : x.Fits action) : Underway (action.perform s x world).2.1

/-- The limit that a run raises leaves room for all of its attempts. -/
theorem Standing.run (hx : Standing x) {rounds : UInt64} {increase : Bool}
    (hfits : x.Fits (.run rounds increase)) (world : σ) :
    Standing (x.run s rounds increase world).2.1 ∧
      ∀ a ∈ Operation.attempts s (.run rounds increase) x world,
        Standing a.1 ∧ a.1.roundCurrent < a.1.roundLimit := by
  have htaken : Standing (Operation.takeUp x rounds increase) := by
    cases increase with
    | false => exact hx
    | true => exact hx.makeRoom (hfits rfl)
  exact htaken.runRounds (Nat.min_le_right _ _) world

theorem Standing.perform (hx : Standing x) {action : Action R} (hfits : x.Fits action) (world : σ) :
    Standing (action.perform s x world).2.1 := by
  cases action with
  | run rounds increase => exact (hx.run hfits world).1
  | save => exact hx
  | configure change =>
    simp only [Action.perform]
    split
    · exact hx
    next y hy => exact hx.reconfigured (changed_of_apply hy).reconfigured

theorem Underway.standing (h : x.Underway) : Standing x := by
  induction h with
  | built s catalog d hd h => exact standing_of_new hd h
  | takenUp s catalog d c hd hinitial h => exact standing_of_takesUp hd hinitial h
  | performed s action world h hfits ih => exact ih.perform hfits world

end Experiment

/-! ## 5. Saving -/

/-- A store refused the document of a checkpoint. -/
def Store.Refuses {τ : Type} (store : Store τ) (c : Checkpoint Float) (t : τ) (e : CheckpointError) : Prop :=
  ∃ e', e = .storage e' ∧ (store.set c.id c.encode t).1 = .error e'

/-- A valid checkpoint fails to be saved only if the store refuses it. -/
theorem Checkpoint.refuses_of_save {τ : Type} {store : Store τ} {c : Checkpoint Float} {t : τ}
    (h : c.validate = .ok ()) {e : CheckpointError} (he : (c.save store t).1 = .error e) :
    store.Refuses c t e := by
  rw [save, h] at he
  cases hset : (store.set c.id c.encode t).1 with
  | ok u => simp [hset, Except.mapError, Except.map] at he
  | error e' =>
    have hstorage : .storage e' = e := by simpa [hset, Except.mapError, Except.map] using he
    exact ⟨e', hstorage.symm, hset⟩

/-- Surroundings that save checkpoints in a store. -/
def Surroundings.SavesIn {τ : Type} (s : Surroundings Float σ) (store : Store τ) (stored : σ → τ) :
    Prop :=
  ∀ c world, (s.save c world).1 = (c.save store (stored world)).1

open Experiment in
/-- Whenever a round of an experiment in use was completed, what validation demands holds of the
experiment, so its checkpoint is valid and is saved unless the store refuses it. -/
theorem completed_round_leaves_valid_snapshot {x : Experiment Float} (hx : x.Underway)
    (s : Surroundings Float σ) {rounds : UInt64} {increase : Bool}
    (hfits : x.Fits (.run rounds increase)) (world : σ) :
    (∀ a ∈ Operation.attempts s (.run rounds increase) x world, ∀ completed y world',
      a.1.executeRound s a.2 = (.ok completed, y, world') → ∀ now, Settled (y.commit completed now) ∧
        ∀ createdAt, ((y.commit completed now).checkpoint createdAt).validate = .ok () ∧
          ∀ {τ : Type} (store : Store τ) (t : τ) (e : CheckpointError),
            (((y.commit completed now).checkpoint createdAt).save store t).1 = .error e →
              store.Refuses ((y.commit completed now).checkpoint createdAt) t e) ∧
      ∀ {τ : Type} (store : Store τ) (stored : σ → τ), s.SavesIn store stored → ∀ e,
        (x.run s rounds increase world).1.failure = some (.failed (.checkpoint e)) →
          ∃ c world', store.Refuses c (stored world') e := by
  have hattempts := (hx.standing.run (s := s) hfits world).2
  constructor
  · intro a ha completed y world' hok now
    have hsettled := (hattempts a ha).1.commit (hattempts a ha).2 hok now
    exact ⟨hsettled, fun createdAt => ⟨hsettled.validate createdAt, fun store t e he =>
      Checkpoint.refuses_of_save (hsettled.validate createdAt) he⟩⟩
  · intro τ store stored hsaves e he
    obtain ⟨a, ha, hstop⟩ := attempt_of_failure s he
    have hround := roundRun_runRound s a.1 a.2
    generalize a.1.runRound s a.2 = result at hstop hround
    cases hround with
    | failed stop y world' h =>
      obtain rfl := Except.error.inj hstop
      exact absurd rfl (ne_checkpoint_of_executeRound s h e)
    | committed => contradiction
    | saved => contradiction
    | unsaved completed y world₁ world' e₁ h hc hs =>
      obtain rfl : e₁ = e := by simpa using hstop
      have hsettled := (hattempts a ha).1.commit (hattempts a ha).2 h (s.now world₁)
      have hsave := hsaves ((y.commit completed (s.now world₁)).checkpoint (s.now world₁)) world₁
      rw [hs] at hsave
      exact ⟨_, world₁, Checkpoint.refuses_of_save (hsettled.validate _) hsave.symm⟩

/-- Nodes that answer every request, and a store in memory. -/
structure Desk where
  asked : List (WorkRequest Float) := []
  memory : Memory := {}

namespace Desk

def surroundings : Surroundings Float Desk where
  link :=
    { send := fun q d => (none, { d with asked := d.asked ++ q.work?.toList })
      watch := fun _ d =>
        ⟨d.asked.map fun q => .reply
          (.train (.ofSuccess q (.plain (.ofLayers [("layer", [1.0])])) 10 .empty .zero)) .zero, .deadline⟩
      advance := fun _ _ d => d
      purge := fun d => (true, d)
      arm := fun d => d }
  drawName d := ("session", d)
  drawWord d := (1, d)
  drawFraction d := (0.0, d)
  now _ := ⟨0, 0⟩
  save c d := ((c.save Memory.store d.memory).1, { d with memory := (c.save Memory.store d.memory).2 })
  prepare d := (.ok (), d)

/-- A draft of an experiment whose optimizer has a momentum. -/
def draft : Draft Float :=
  { Draft.initial "researcher" with
    experimentId := some "experiment"
    isConnected := true
    query := some (.explicit (.ofList [("left", sampleData), ("right", sampleData)]))
    initialParams := some (.ofLayers [("layer", [0.5])])
    optimizer := .momentum { learningRate := 0.5, beta := 0.5 }
    roundLimit := 3
    savesCheckpoints := true }

/-- An optimizer whose momentum fits no parameters of the experiment. -/
def unfit : Optimizer Float :=
  .momentum { learningRate := 0.5, beta := 0.5, velocity := some (.ofLayers [("other", [1.0])]) }

/-- The experiment and the surroundings after an action. -/
def after (a : Experiment Float × Desk) (action : Action Float) : Experiment Float × Desk :=
  (action.perform surroundings a.1 a.2).2

/-- The experiment that is built from the draft. -/
def built : Experiment Float :=
  draft.experiment
    ⟨.explicit (.ofList [("left", sampleData), ("right", sampleData)]), .ofLayers [("layer", [0.5])]⟩
    { dataset := pairExperiment.dataset } "experiment"

/-- The experiment after its first round, and after a run with an unfit optimizer, which is replaced
then. -/
def mended : Experiment Float × Desk :=
  after (after (after (after (built, {}) (.run 1 false)) (.configure (.optimizer unfit))) (.run 1 false))
    (.configure (.optimizer draft.optimizer))

theorem underway_after {a : Experiment Float × Desk} (h : a.1.Underway) (action : Action Float)
    (hfits : a.1.Fits action) : (after a action).1.Underway :=
  h.performed surroundings action a.2 hfits

theorem underway_mended : mended.1.Underway := by
  have hbuild : draft.build surroundings (fun _ => .error "") {} = (.ok built, {}) := rfl
  have hfits : ∀ x : Experiment Float, x.Fits (.run 1 false) := fun x h => by contradiction
  have hbuilt : (built, ({} : Desk)).1.Underway := .built surroundings _ draft rfl hbuild
  have htrained := underway_after hbuilt (.run 1 false) (hfits _)
  have hunfit := underway_after htrained (.configure (.optimizer unfit)) trivial
  have hstuck := underway_after hunfit (.run 1 false) (hfits _)
  exact underway_after hstuck (.configure (.optimizer draft.optimizer)) trivial

end Desk

/-- With the unfit optimizer no round completes. After it was replaced one does. -/
theorem completed_round_leaves_valid_snapshot_mended :
    Desk.mended.1.roundCurrent = 1 ∧
      ∃ completed y world,
        Desk.mended.1.executeRound Desk.surroundings Desk.mended.2 = (.ok completed, y, world) ∧
          (y.commit completed ⟨0, 0⟩).Settled ∧
          ((y.commit completed ⟨0, 0⟩).checkpoint ⟨0, 0⟩).validate = .ok () := by
  have hok : (Desk.mended.1.executeRound Desk.surroundings Desk.mended.2).1.isOk = true := by
    decide +kernel
  have hone : min 1 Desk.mended.1.roundsLeft = 1 := by decide +kernel
  have hunderway := Desk.underway_mended
  refine ⟨by decide +kernel, ?_⟩
  -- the experiment need not be evaluated any further
  generalize Desk.mended = a at hok hone hunderway ⊢
  have hmem : a ∈ Operation.attempts Desk.surroundings (.run 1 false) a.1 a.2 := by
    show a ∈ a.1.attempts Desk.surroundings (min 1 a.1.roundsLeft) a.2
    rw [hone]
    exact List.mem_cons_self
  have hfits : a.1.Fits (.run 1 false) := fun h => by contradiction
  have hround := (completed_round_leaves_valid_snapshot hunderway Desk.surroundings hfits a.2).1 a hmem
  rcases hrun : a.1.executeRound Desk.surroundings a.2 with ⟨stop | completed, y, world⟩
  · rw [hrun] at hok
    contradiction
  · obtain ⟨hsettled, hvalid⟩ := hround completed y world hrun ⟨0, 0⟩
    exact ⟨completed, y, world, rfl, hsettled, (hvalid ⟨0, 0⟩).1⟩

end Federation
