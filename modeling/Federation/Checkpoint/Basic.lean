import Federation.Aggregation.Aggregator
import Federation.Dataset
import Federation.History
import Federation.Optimizer
import Federation.Storage.Basic
/-!
# Checkpoints

A checkpoint holds all that is needed to resume an experiment after its last completed round. One
that contradicts itself is neither saved nor restored.
-/

namespace Federation

structure Checkpoint (R : Type) where
  version : UInt32
  experimentId : ExperimentId
  researcherId : ResearcherId
  createdAt : Timestamp
  -- The number of completed rounds.
  roundCurrent : RoundNumber
  roundLimit : RoundNumber
  -- The global parameters before the first round.
  initialParams : Parameters R
  -- One record per completed round, in order.
  history : List (RoundRecord R)
  nodeStates : NodeStates R
  aggregator : Aggregator R
  optimizer : Optimizer R
  trainingArgs : TrainingArgs R
  modelArgs : ModelArgs
  -- What the dataset was resolved from.
  query : DatasetQuery
  nodes : Option NameSet
  dataset : FederatedDataset
  -- Whether the datasets are known to go together.
  dataChecked : Bool
  secagg : SecureAggregation R
  roundTimeout : Duration
  -- The name of the strategy that selects participants.
  selection : String

/-- How a checkpoint contradicts itself or the name under which it is stored. -/
inductive Inconsistency where
  | roundCount (completed : RoundNumber) (recorded : Nat)
  | beyondLimit (completed limit : RoundNumber)
  | initialNotFinite
  | position (recorded : RoundNumber) (position : Nat)
  | layout (round : Nat) (e : ShapeError)
  | notFinite (round : Nat)
  | optimizerState (name : String) (e : ShapeError)
  | unfinishedRound (node : NodeId) (round : RoundNumber)
  | misplaced (id stored : CheckpointId)
  deriving DecidableEq

def Inconsistency.text : Inconsistency → String
  | .roundCount completed recorded => s!"{completed} rounds completed but {recorded} recorded"
  | .beyondLimit completed limit => s!"round {completed} exceeds the round limit {limit}"
  | .initialNotFinite => "the initial parameters are not finite"
  | .position recorded expected => s!"round {recorded} recorded at position {expected}"
  | .layout round e => s!"parameters of round {round}: {Failure.message e}"
  | .notFinite round => s!"the parameters of round {round} are not finite"
  | .optimizerState name e => s!"state of the {name} optimizer: {Failure.message e}"
  | .unfinishedRound node round => s!"{node} took part in round {round} which is not completed"
  | .misplaced id stored => s!"{id.label} stored under {stored.label}"

inductive CheckpointError where
  | storage (e : StorageError)
  | inconsistent (reason : Inconsistency)
  -- The document is none of a checkpoint.
  | unreadable
  | version (v : UInt32)
  | notFound (name : String)
  deriving DecidableEq

instance : Failure CheckpointError where
  kind
    | .storage _ => "Storage"
    | .inconsistent _ | .unreadable => "Corruption"
    | .version _ => "Version"
    | .notFound _ => "NotFound"
  message?
    | .storage e => (Failure.message? e).map fun m => s!"The checkpoint storage failed: {m}."
    | .inconsistent reason => s!"The checkpoint is corrupted: {reason.text}."
    | .unreadable => none
    | .version v => s!"The checkpoint format version {v} is not supported."
    | .notFound name => s!"No checkpoint found for {name}."

namespace Checkpoint

def currentVersion : UInt32 := 1

variable {R : Type}

def id (c : Checkpoint R) : CheckpointId := ⟨c.experimentId, c.roundCurrent⟩

/-- The global parameters after the last completed round. -/
def globalParams (c : Checkpoint R) : Parameters R := latestParams c.initialParams c.history

variable [Scalar R]

def recordsFault? (initial : Parameters R) : Nat → List (RoundRecord R) → Option Inconsistency
  | _, [] => none
  | n, r :: rest =>
    if r.roundNumber.toNat ≠ n then some (.position r.roundNumber n)
    else
      match initial.mismatch? r.params with
      | some e => some (.layout n e)
      | none => if !r.params.isFinite then some (.notFinite n) else recordsFault? initial (n + 1) rest

def inconsistency? (c : Checkpoint R) : Option Inconsistency :=
  if c.history.length ≠ c.roundCurrent.toNat then some (.roundCount c.roundCurrent c.history.length)
  else if c.roundLimit < c.roundCurrent then some (.beyondLimit c.roundCurrent c.roundLimit)
  else if !c.initialParams.isFinite then some .initialNotFinite
  else
    ((recordsFault? c.initialParams 0 c.history).or
      ((c.optimizer.state.findSome? c.initialParams.mismatch?).map
        (.optimizerState c.optimizer.name))).or
      (c.nodeStates.states.toList.findSome? fun (node, s) =>
        (s.lastRound.filter (c.roundCurrent ≤ ·)).map (.unfinishedRound node))

def validate (c : Checkpoint R) : Except CheckpointError Unit :=
  if c.version ≠ currentVersion then .error (.version c.version)
  else
    match c.inconsistency? with
    | some reason => .error (.inconsistent reason)
    | none => .ok ()

end Checkpoint

end Federation
