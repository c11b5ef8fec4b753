import Federation.Aggregation.Aggregator
import Federation.Optimizer
import Federation.Secagg.Basic
/-!
# Rounds

A round works on a context that is fixed when it is created and changes nothing outside: if it
completes, its result holds all that the experiment takes over.
-/

namespace Federation

structure Participant (R : Type) where
  datasetId : String
  -- The state from which the node continues.
  stateId : StateId
  auxVars : AuxVars R

structure RoundContext (R : Type) where
  researcherId : ResearcherId
  experimentId : ExperimentId
  roundNumber : RoundNumber
  -- The attempt of the round. Replies to other ones are discarded.
  requestId : UInt64
  participants : NameMap (Participant R)
  -- The parameters from which the participants start.
  global : Parameters R
  trainingArgs : TrainingArgs R
  modelArgs : ModelArgs
  aggregator : Aggregator R
  optimizer : Optimizer R
  nodeStates : NodeStates R
  federationSize : Nat
  -- How long the round waits for replies.
  timeout : Duration
  secagg : Option (SecaggRound R)

/-- The work request of every participant, in ascending order of the nodes. -/
def RoundContext.requests {R : Type} (c : RoundContext R) : List (Request R) :=
  c.participants.toList.map fun (node, p) => .train
    { researcherId := c.researcherId
      experimentId := c.experimentId
      roundNumber := c.roundNumber
      requestId := c.requestId
      nodeId := node
      datasetId := p.datasetId
      stateId := p.stateId
      params := c.global
      trainingArgs := c.trainingArgs
      modelArgs := c.modelArgs
      auxVars := p.auxVars
      secagg := c.secagg.map SecaggRound.arguments }

structure ReplySummary (R : Type) where
  sampleCount : UInt64
  timing : Timing R
  -- The seconds from sending the request to the arrival of the reply.
  rtimeTotal : R
  -- The finite metrics.
  metrics : Metrics R

structure CompletedRound (R : Type) where
  roundNumber : RoundNumber
  -- The aggregated results, with the global parameters after the step of the optimizer.
  aggregated : Aggregated R
  optimizer : Optimizer R
  participants : NameMap (ReplySummary R)
  -- The state that every participant produced.
  stateIds : NameMap StateId

inductive RoundError (R : Type) where
  | nodeTimeout (missing : List NodeId)
  | nodeTraining (node : NodeId) (message : String)
  | stateMismatch (node : NodeId) (message : String)
  | protocolMismatch (node : NodeId) (reason : String)
  | transport (node : NodeId) (reason : String)
  | aggregation (e : AggregationError)
  | secureAggregation (e : SecaggError R)
  | cancelled
  | replyChannel

instance : Failure (RoundError Float) where
  kind
    | .nodeTimeout _ => "NodeTimeout"
    | .nodeTraining .. => "NodeTraining"
    | .stateMismatch .. => "StateMismatch"
    | .protocolMismatch .. => "ProtocolMismatch"
    | .transport .. => "Transport"
    | .aggregation e => "Aggregation/" ++ Failure.kind e
    | .secureAggregation e => "SecureAggregation/" ++ Failure.kind e
    | .cancelled => "Cancelled"
    | .replyChannel => "ReplyChannel"
  message?
    | .nodeTimeout missing =>
      s!"The nodes {Text.nodeList missing} did not reply before the round timeout."
    | .nodeTraining node message => s!"{node} failed to train: {message}."
    | .stateMismatch node message =>
      s!"{node} refused the round because of a state mismatch: {message}."
    | .protocolMismatch node reason => s!"{node} sent an invalid reply: {reason}."
    | .transport node reason => s!"The request to {node} could not be sent: {reason}."
    | .aggregation e => s!"Aggregation failed: {Failure.message e}."
    | .secureAggregation e => s!"Secure aggregation failed: {Failure.message e}."
    | .cancelled => "The round was cancelled."
    | .replyChannel => "The reply channel is closed."

end Federation
