import Federation.Experiment.Basic
import Federation.Experiment.Surroundings
import Federation.Round.Run
import Federation.Secagg.Setup
/-!
# Running an experiment

Rounds run one after the other. Each one checks the data if that has not been done, selects its
participants, sets up a session if the round is secure, runs, and is committed. A run stops at its
first failure, which leaves the experiment at its last completed round.
-/

namespace Federation

structure RunReport (R : Type) where
  -- The number of rounds that completed.
  roundsExecuted : UInt64
  -- Whether the experiment has reached its limit.
  limitReached : Bool
  -- Why the run ended early, if it did.
  failure : Option (Stop (ExperimentError R))

namespace Experiment

variable {R σ : Type}

/-- What came of an activity, the experiment after it and the surroundings after it. -/
abbrev Result (R σ α : Type) := Except (Stop (ExperimentError R)) α × Experiment R × σ

/-! ## Preparing a round -/

/-- Refuses data of different kinds. Data that has been checked is not checked again. -/
def checkData (x : Experiment R) : Except (ExperimentError R) (Experiment R) :=
  if x.dataChecked then .ok x
  else
    match x.dataset.checkQuality with
    | .error e => .error (.dataset e)
    | .ok () => .ok { x with dataChecked := true }

def participant [Scalar R] (x : Experiment R) (node : NodeId) :
    Except (ExperimentError R) (Participant R) :=
  match x.dataset.get? node with
  | none => .error (.selection (.invalidSelection node))
  | some record =>
    match x.aggregator.auxVarsFor node x.nodeStates x.global with
    | .error e => .error (.round x.roundCurrent (.aggregation e))
    | .ok auxVars => .ok ⟨record.datasetId, x.nodeStates.expectedStateId node, auxVars⟩

/-- What the selected nodes need for the round, or the error of the first one that has none. -/
def participants [Scalar R] (x : Experiment R) (selected : NameSet) :
    Except (ExperimentError R) (NameMap (Participant R)) :=
  (selected.keys.mapM fun node => (x.participant node).map fun p => (node, p)).map .ofList

def context (x : Experiment R) (participants : NameMap (Participant R))
    (secagg : Option (SecaggRound R)) (requestId : UInt64) : RoundContext R where
  researcherId := x.researcherId
  experimentId := x.experimentId
  roundNumber := x.roundCurrent
  requestId := requestId
  participants := participants
  global := x.global
  trainingArgs := x.trainingArgs
  modelArgs := x.modelArgs
  aggregator := x.aggregator
  optimizer := x.optimizer
  nodeStates := x.nodeStates
  federationSize := x.dataset.size
  timeout := x.roundTimeout
  secagg := secagg

/-- Makes the next round secure, if the experiment is. -/
def prepareSecagg (s : Surroundings R σ) (x : Experiment R) (selected : NameSet) (world : σ) :
    Result R σ (Option (SecaggRound R)) :=
  if !x.secagg.enabled then (.ok none, x, world)
  else
    let (name, world) := s.drawName world
    let (session, secagg, world) :=
      x.secagg.setup s.link x.researcherId x.experimentId name selected world
    let x := { x with secagg }
    match session with
    | .error .abandoned => (.error .abandoned, x, world)
    | .error (.failed e) =>
      (.error (.failed (.round x.roundCurrent (.secureAggregation e))), x, world)
    | .ok session =>
      let (nonce, world) := s.drawWord world
      let (random, world) := s.drawFraction world
      (.ok (some ⟨session, x.secagg.config, nonce, random⟩), x, world)

def prepareRound [Scalar R] (s : Surroundings R σ) (x : Experiment R) (selected : NameSet) (world : σ) :
    Result R σ (RoundContext R) :=
  match x.prepareSecagg s selected world with
  | (.error e, x, world) => (.error e, x, world)
  | (.ok secagg, x, world) =>
    match x.participants selected with
    | .error e => (.error (.failed e), x, world)
    | .ok participants =>
      let (requestId, world) := s.drawWord world
      (.ok (x.context participants secagg requestId), x, world)

/-! ## Running rounds -/

variable [RootScalar R]

def conduct (s : Surroundings R σ) (x : Experiment R) (c : RoundContext R) (world : σ) :
    Result R σ (CompletedRound R) :=
  let (outcome, world) := c.run s.link world
  let x := { x with events := x.events.publishAll c.roundNumber outcome.published }
  match outcome.result with
  | .error .abandoned => (.error .abandoned, x, world)
  | .error (.failed e) => (.error (.failed (.round c.roundNumber e)), x, world)
  | .ok completed => (.ok completed, x, world)

/-- Runs the next round without committing it. If the round is abandoned the connection to the nodes
goes with it. -/
def executeRound (s : Surroundings R σ) (x : Experiment R) (world : σ) :
    Result R σ (CompletedRound R) :=
  match x.checkData with
  | .error e => (.error (.failed e), x, world)
  | .ok x =>
    match x.strategy.select x.roundCurrent x.dataset x.nodeStates with
    | .error e => (.error (.failed (.selection e)), x, world)
    | .ok selected =>
      if !x.isConnected then (.error (.failed .interrupted), x, world)
      else
        match x.prepareRound s selected world with
        | (.error .abandoned, x, world) => (.error .abandoned, { x with isConnected := false }, world)
        | (.error e, x, world) => (.error e, x, world)
        | (.ok c, x, world) =>
          match x.conduct s c world with
          | (.error .abandoned, x, world) => (.error .abandoned, { x with isConnected := false }, world)
          | r => r

/-- Saves a checkpoint of the last completed round. -/
def saveCheckpoint {R : Type} (s : Surroundings R σ) (x : Experiment R) (world : σ) :
    Except (ExperimentError R) CheckpointId × σ :=
  let (r, world) := s.save (x.checkpoint (s.now world)) world
  (r.mapError .checkpoint, world)

/-- Runs the next round, commits it and saves a checkpoint if that is wanted. A round stays committed
if its checkpoint cannot be saved. -/
def runRound (s : Surroundings R σ) (x : Experiment R) (world : σ) : Result R σ Unit :=
  match x.executeRound s world with
  | (.error e, x, world) => (.error e, x, world)
  | (.ok completed, x, world) =>
    let x := x.commit completed (s.now world)
    if x.savesCheckpoints then
      match x.saveCheckpoint s world with
      | (.error e, world) => (.error (.failed e), x, world)
      | (.ok _, world) => (.ok (), x, world)
    else (.ok (), x, world)

/-- Runs rounds until one fails. Gives the number of those that completed and the failure. -/
def runRounds (s : Surroundings R σ) : Nat → Experiment R → σ →
    (Nat × Option (Stop (ExperimentError R))) × Experiment R × σ
  | 0, x, world => ((0, none), x, world)
  | n + 1, x, world =>
    match x.runRound s world with
    | (.error e, x, world) => ((0, some e), x, world)
    | (.ok (), x, world) =>
      let ((executed, failure), x, world) := runRounds s n x world
      ((executed + 1, failure), x, world)

def roundsLeft {R : Type} (x : Experiment R) : Nat := x.roundLimit.toNat - x.roundCurrent.toNat

/-- Raises the limit if it leaves no room for a number of rounds. -/
def makeRoom {R : Type} (x : Experiment R) (rounds : UInt64) : Experiment R :=
  if x.roundsLeft < rounds.toNat then { x with roundLimit := x.roundCurrent + rounds } else x

/-- Runs rounds up to the limit, which is raised first if that is wanted. -/
def run (s : Surroundings R σ) (x : Experiment R) (rounds : UInt64) (increase : Bool) (world : σ) :
    RunReport R × Experiment R × σ :=
  let x := if increase then x.makeRoom rounds else x
  let ((executed, failure), x, world) := runRounds s (min rounds.toNat x.roundsLeft) x world
  (⟨UInt64.ofNat executed, decide (x.roundLimit ≤ x.roundCurrent), failure⟩, x, world)

def runOnce (s : Surroundings R σ) (x : Experiment R) (increase : Bool) (world : σ) :
    RunReport R × Experiment R × σ :=
  x.run s 1 increase world

end Experiment

end Federation
