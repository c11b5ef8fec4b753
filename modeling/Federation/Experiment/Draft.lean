import Federation.Experiment.Configuration
import Federation.Experiment.Surroundings
import Federation.Settings.Basic
/-!
# Starting an experiment

A draft says what an experiment is to be. It starts from defaults or from settings, is completed field
by field, and may take up an experiment from a checkpoint. Building checks the draft as a whole and
resolves the dataset, before anything is sent to a node.
-/

namespace Federation

structure Progress (R : Type) where
  roundCurrent : RoundNumber := 0
  history : List (RoundRecord R) := []
  nodeStates : NodeStates R := .empty
  dataset : FederatedDataset
  dataChecked : Bool := false

structure Draft (R : Type) where
  researcherId : ResearcherId
  -- The name of the experiment. One is drawn if it is missing.
  experimentId : Option ExperimentId := none
  -- Whether there is a connection to the nodes.
  isConnected : Bool := false
  query : Option DatasetQuery := none
  nodes : Option NameSet := none
  initialParams : Option (Parameters R) := none
  trainingArgs : TrainingArgs R := {}
  modelArgs : ModelArgs := .empty
  aggregator : Aggregator R := .fedAverage
  optimizer : Optimizer R
  strategy : Strategy R := .allAvailable
  secagg : SecureAggregation R
  roundLimit : RoundNumber := 0
  roundTimeout : Duration := .ofSeconds 600
  -- The progress of an experiment that is taken up.
  progress : Option (Progress R) := none
  savesCheckpoints : Bool := false

namespace Draft

/-! ## Beginnings -/

def secaggOff : SecureAggregation Float where
  enabled := false
  config := .standard
  timeout := .ofSeconds 30

def initial (researcherId : ResearcherId) : Draft Float :=
  { researcherId, optimizer := .identity, secagg := secaggOff }

/-- A set of names from a list in settings, which means nothing if it is empty. -/
def namesOf (l : List String) : Option NameSet := if l.isEmpty then none else some (.setOf l)

def ofSettings (s : Settings) : Draft Float where
  researcherId := s.experiment.researcherId
  experimentId := s.experiment.experimentId
  query := (namesOf s.experiment.tags).map .tags
  nodes := namesOf s.experiment.nodes
  trainingArgs := s.training
  aggregator := s.aggregator.toAggregator
  optimizer := s.optimizer.toOptimizer
  secagg := s.secagg.toSecureAggregation
  roundLimit := s.experiment.roundLimit
  roundTimeout := .ofSeconds s.round.timeout
  savesCheckpoints := s.checkpoint.enable

variable {R σ : Type}

/-- Takes up the experiment of a checkpoint. The nodes may have left the session meanwhile, so it is
dropped; a strategy of its own has to be set again. -/
def resume [Scalar R] (d : Draft R) (c : Checkpoint R) : Except (ExperimentError R) (Draft R) :=
  match c.validate with
  | .error e => .error (.checkpoint e)
  | .ok () => .ok { d with
      researcherId := c.researcherId
      experimentId := some c.experimentId
      query := some c.query
      nodes := c.nodes
      initialParams := some c.initialParams
      trainingArgs := c.trainingArgs
      modelArgs := c.modelArgs
      aggregator := c.aggregator
      optimizer := c.optimizer
      strategy := .allAvailable
      secagg := c.secagg.clear
      roundLimit := c.roundLimit
      roundTimeout := c.roundTimeout
      progress := some {
        roundCurrent := c.roundCurrent
        history := c.history
        nodeStates := c.nodeStates
        dataset := c.dataset
        dataChecked := c.dataChecked } }

/-! ## Building -/

structure Essentials (R : Type) where
  query : DatasetQuery
  initialParams : Parameters R

def checkEssentials [Scalar R] (d : Draft R) : Except (ExperimentError R) (Essentials R) := do
  if !d.isConnected then throw (.configuration .noTransport)
  let some query := d.query | throw (.configuration .noTrainingData)
  let some initialParams := d.initialParams | throw (.configuration .noInitialParams)
  if initialParams.hasNoLayers || !initialParams.isFinite then
    throw (.configuration .unusableInitialParams)
  if d.roundTimeout = Duration.zero then throw (.configuration .zeroTimeout)
  (d.aggregator.checkPreconditions d.trainingArgs d.secagg.enabled).mapError .precondition
  d.optimizer.checkPreconditions.mapError .precondition
  return ⟨query, initialParams⟩

/-- The progress from which the experiment goes on. A new one begins with a dataset that is resolved
from its query. -/
def start (catalog : Catalog) (d : Draft R) (query : DatasetQuery) :
    Except (ExperimentError R) (Progress R) := do
  let p ← match d.progress with
    | some p => pure p
    | none =>
      (FederatedDataset.resolve catalog query d.nodes).mapError .dataset |>.map fun dataset => { dataset }
  if d.roundLimit < p.roundCurrent then
    throw (.configuration (.limitBelow d.roundLimit p.roundCurrent))
  return p

def experiment (d : Draft R) (e : Essentials R) (p : Progress R) (experimentId : ExperimentId) :
    Experiment R :=
  let global := latestParams e.initialParams p.history
  { researcherId := d.researcherId
    experimentId
    query := e.query
    nodes := d.nodes
    dataset := p.dataset
    dataChecked := p.dataChecked
    trainingArgs := d.trainingArgs
    modelArgs := d.modelArgs
    aggregator := d.aggregator
    optimizer := d.optimizer
    strategy := d.strategy
    nodeStates := p.nodeStates
    secagg := d.secagg
    roundCurrent := p.roundCurrent
    roundLimit := d.roundLimit
    roundTimeout := d.roundTimeout
    initialParams := e.initialParams
    global
    history := p.history
    isConnected := true
    events := .start p.roundCurrent (if p.history.isEmpty then none else some global)
    savesCheckpoints := d.savesCheckpoints }

def build [Scalar R] (s : Surroundings R σ) (catalog : Catalog) (d : Draft R) (world : σ) :
    Except (ExperimentError R) (Experiment R) × σ :=
  match d.checkEssentials with
  | .error e => (.error e, world)
  | .ok essentials =>
    match d.start catalog essentials.query with
    | .error e => (.error e, world)
    | .ok p =>
      let (ready, world) := if d.savesCheckpoints then s.prepare world else (.ok (), world)
      match ready with
      | .error e => (.error (.checkpoint e), world)
      | .ok () =>
        match d.experimentId with
        | some id => (.ok (d.experiment essentials p id), world)
        | none =>
          let (id, world) := s.drawName world
          (.ok (d.experiment essentials p id), world)

end Draft

end Federation
