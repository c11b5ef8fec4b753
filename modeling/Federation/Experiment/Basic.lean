import Federation.Checkpoint.Basic
import Federation.Round.Events
import Federation.Selection
/-!
# Experiments

An experiment drives the rounds of a federated training. It owns the global parameters, the node
states, the aggregator and the optimizer, and it is the only one to change them: a completed round is
committed as a whole, and a failed one not at all. So an experiment always stands right after its last
completed round.

The operations of an experiment are functions from experiments to experiments. This module holds the
state, the errors, and what a completed round and a snapshot are to the state.
-/

namespace Federation

/-! ## Errors -/

inductive ConfigurationFault where
  | noTransport
  | noTrainingData
  | noInitialParams
  | unusableInitialParams
  | zeroTimeout
  | limitBelow (limit completed : RoundNumber)
  | unknownNode (node : NodeId)
  deriving DecidableEq

def ConfigurationFault.text : ConfigurationFault → String
  | noTransport => "no transport to the nodes"
  | noTrainingData => "no training data selected"
  | noInitialParams => "no initial parameters"
  | unusableInitialParams => "the initial parameters are empty or not finite"
  | zeroTimeout => "the round timeout is zero"
  | limitBelow limit completed => s!"round limit {limit} is below the {completed} completed rounds"
  | unknownNode node => s!"{node} is not part of the federated dataset"

inductive ExperimentError (R : Type) where
  | round (number : RoundNumber) (e : RoundError R)
  | selection (e : SelectionError)
  | dataset (e : DatasetError)
  | precondition (e : PreconditionError)
  | checkpoint (e : CheckpointError)
  | configuration (fault : ConfigurationFault)
  -- An earlier round was abandoned, and with it the connection to the nodes.
  | interrupted

instance : Failure (ExperimentError Float) where
  kind
    | .round _ e => "Round/" ++ Failure.kind e
    | .selection e => "Selection/" ++ Failure.kind e
    | .dataset e => "Dataset/" ++ Failure.kind e
    | .precondition e => "Precondition/" ++ Failure.kind e
    | .checkpoint e => "Checkpoint/" ++ Failure.kind e
    | .configuration _ => "Configuration"
    | .interrupted => "Interrupted"
  message?
    | .round number e => (Failure.message? e).map fun m => s!"Round {number} failed: {m}."
    | .selection e => s!"The selection of the participants failed: {Failure.message e}."
    | .dataset e => s!"The training data is invalid: {Failure.message e}."
    | .precondition e =>
      s!"The configuration doesn't meet the preconditions of the aggregator: {Failure.message e}."
    | .checkpoint e => (Failure.message? e).map fun m => s!"Checkpointing failed: {m}."
    | .configuration fault => s!"Invalid configuration: {fault.text}."
    | .interrupted => "A previous round was interrupted and the connection to the nodes was lost."

/-! ## State -/

structure Experiment (R : Type) where
  researcherId : ResearcherId
  experimentId : ExperimentId
  -- What the dataset was resolved from.
  query : DatasetQuery
  nodes : Option NameSet
  dataset : FederatedDataset
  -- Whether the datasets are known to go together.
  dataChecked : Bool
  trainingArgs : TrainingArgs R
  modelArgs : ModelArgs
  aggregator : Aggregator R
  optimizer : Optimizer R
  strategy : Strategy R
  nodeStates : NodeStates R
  secagg : SecureAggregation R
  -- The number of completed rounds, which is also the number of the next one.
  roundCurrent : RoundNumber
  roundLimit : RoundNumber
  roundTimeout : Duration
  initialParams : Parameters R
  -- The parameters from which the next round starts.
  global : Parameters R
  -- One record per completed round, in order.
  history : List (RoundRecord R)
  -- Whether the connection to the nodes is there. A round that is abandoned loses it.
  isConnected : Bool
  -- The latest events that were published.
  events : Events R
  -- Whether a checkpoint is saved after every completed round.
  savesCheckpoints : Bool

namespace Experiment

variable {R : Type}

/-- The state of a participant after a round: the one that the aggregator left, or else the one
before, with the state that the node produced and the number of the round. -/
def stateAfter (c : CompletedRound R) (states : NodeStates R) (node : NodeId) (produced : StateId) :
    NodeState R :=
  { (c.aggregated.nodeStates.find? node).getD (states.stateFor node) with
    stateId := produced
    lastRound := some c.roundNumber }

def statesAfter (c : CompletedRound R) (states : NodeStates R) : NodeStates R :=
  c.stateIds.toList.foldl (fun s e => s.update e.1 (stateAfter c states e.1 e.2)) states

def commit (x : Experiment R) (c : CompletedRound R) (completedAt : Timestamp) : Experiment R :=
  { x with
    nodeStates := statesAfter c x.nodeStates
    aggregator := c.aggregated.aggregator
    optimizer := c.optimizer
    global := c.aggregated.global
    history := x.history ++ [.ofCompleted c completedAt]
    roundCurrent := x.roundCurrent + 1 }

/-- A snapshot, taken at a point in time. -/
def checkpoint (x : Experiment R) (createdAt : Timestamp) : Checkpoint R where
  version := Checkpoint.currentVersion
  experimentId := x.experimentId
  researcherId := x.researcherId
  createdAt := createdAt
  roundCurrent := x.roundCurrent
  roundLimit := x.roundLimit
  initialParams := x.initialParams
  history := x.history
  nodeStates := x.nodeStates
  aggregator := x.aggregator
  optimizer := x.optimizer
  trainingArgs := x.trainingArgs
  modelArgs := x.modelArgs
  query := x.query
  nodes := x.nodes
  dataset := x.dataset
  dataChecked := x.dataChecked
  secagg := x.secagg
  roundTimeout := x.roundTimeout
  selection := x.strategy.name

end Experiment

end Federation
