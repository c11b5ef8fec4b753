import Federation.Crypto.KeyAgreement
import Federation.Json.Basic
import Federation.Parameters
import Federation.StateLedger
/-!
# Messages

The controller sends requests and the nodes send replies. A work request asks a node to train from
the global parameters; its reply carries the new parameters, plain or masked, or an error. A setup
request asks a node to join a session of secure aggregation; its reply carries a public key.
-/

namespace Federation

/-- The auxiliary variables of an aggregator, by name. -/
abbrev AuxVars (R : Type) := NameMap (Parameters R)

/-- The metrics a node reports, by name. -/
abbrev Metrics (R : Type) := NameMap R

/-- Arguments of the model in free form, by name. -/
abbrev ModelArgs := NameMap FreeForm

/-- How every node trains. -/
structure TrainingArgs (R : Type) where
  -- The fixed number of local updates.
  numUpdates : Option UInt64 := none
  -- The number of local epochs.
  epochs : Option UInt64 := none
  learningRate : Option R := none
  batchSize : Option UInt64 := none

structure SecaggArguments (R : Type) where
  sessionId : String
  -- The parties over which the masks cancel.
  parties : List NodeId
  -- The public keys with which the parties joined the session.
  publicKeys : NameMap Crypto.Key
  -- The nonce for which all masks of the round are derived.
  nonce : UInt64
  -- The value of the verification element.
  random : R
  clippingRange : R
  fixedPointBits : UInt8

namespace SecaggArguments

variable {R : Type}

def maskConfig (a : SecaggArguments R) : MaskConfig R := ⟨a.clippingRange, a.fixedPointBits⟩

/-- The masker of a party that joined the session with a key pair. -/
def masker (a : SecaggArguments R) (me : NodeId) (pair : KeyPair) :
    Except MaskingError (Masker R Crypto.Key) := do
  let keys ← (pair.sessionKeys me a.parties a.publicKeys).mapError .keyAgreement
  Masker.create a.maskConfig me a.parties keys

def mask [Scalar R] (a : SecaggArguments R) (me : NodeId) (pair : KeyPair) (weight : UInt64)
    (values : List R) : Except MaskingError MaskedVector := do
  let m ← a.masker me pair
  return m.mask Crypto.ChaCha20.words a.nonce weight values a.random

end SecaggArguments

structure WorkRequest (R : Type) where
  researcherId : ResearcherId
  experimentId : ExperimentId
  roundNumber : RoundNumber
  -- The attempt of the round. A repeated round gets a new one.
  requestId : UInt64
  nodeId : NodeId
  datasetId : String
  -- The state the node continues from.
  stateId : StateId
  params : Parameters R
  trainingArgs : TrainingArgs R
  modelArgs : ModelArgs
  auxVars : AuxVars R
  secagg : Option (SecaggArguments R)

inductive ReplyParams (R : Type) where
  | plain (params : Parameters R)
  | masked (vector : MaskedVector)

/-- The time a node spent training, in seconds. -/
structure Timing (R : Type) where
  -- Wall clock time.
  rtimeTraining : R
  -- Processor time.
  ptimeTraining : R

def Timing.zero {R : Type} [Zero R] : Timing R := ⟨0, 0⟩

inductive NodeErrorKind where
  | training
  | stateMismatch
  | setup
  | other
  deriving DecidableEq

structure NodeError where
  kind : NodeErrorKind
  message : String
  deriving DecidableEq

structure WorkReply (R : Type) where
  experimentId : ExperimentId
  roundNumber : RoundNumber
  requestId : UInt64
  nodeId : NodeId
  stateId : StateId
  success : Bool
  params : Option (ReplyParams R)
  sampleCount : UInt64
  auxVars : AuxVars R
  timing : Timing R
  metrics : Metrics R
  error : Option NodeError

inductive ReplyError where
  | missingParams
  | unexpectedError
  | missingError
  | unexpectedParams
  deriving DecidableEq

instance : Failure ReplyError where
  kind
    | .missingParams => "MissingParams"
    | .unexpectedError => "UnexpectedError"
    | .missingError => "MissingError"
    | .unexpectedParams => "UnexpectedParams"
  message?
    | .missingParams => "a successful reply carries no parameters"
    | .unexpectedError => "a successful reply carries an error"
    | .missingError => "a failed reply carries no error"
    | .unexpectedParams => "a failed reply carries parameters"

namespace WorkReply

variable {R : Type}

def ofSuccess (q : WorkRequest R) (params : ReplyParams R) (sampleCount : UInt64) (auxVars : AuxVars R)
    (timing : Timing R) : WorkReply R where
  experimentId := q.experimentId
  roundNumber := q.roundNumber
  requestId := q.requestId
  nodeId := q.nodeId
  stateId := q.stateId
  success := true
  params := some params
  sampleCount := sampleCount
  auxVars := auxVars
  timing := timing
  metrics := .empty
  error := none

def ofFailure [Zero R] (q : WorkRequest R) (error : NodeError) : WorkReply R where
  experimentId := q.experimentId
  roundNumber := q.roundNumber
  requestId := q.requestId
  nodeId := q.nodeId
  stateId := q.stateId
  success := false
  params := none
  sampleCount := 0
  auxVars := .empty
  timing := .zero
  metrics := .empty
  error := some error

/-- Refuses a reply whose success flag disagrees with its content. -/
def validate (r : WorkReply R) : Except ReplyError Unit :=
  match r.success, r.params, r.error with
  | true, none, _ => .error .missingParams
  | true, some _, some _ => .error .unexpectedError
  | true, some _, none => .ok ()
  | false, _, none => .error .missingError
  | false, some _, some _ => .error .unexpectedParams
  | false, none, some _ => .ok ()

end WorkReply

structure SetupRequest where
  researcherId : ResearcherId
  experimentId : ExperimentId
  sessionId : String
  nodeId : NodeId
  parties : List NodeId
  deriving DecidableEq

structure SetupReply where
  experimentId : ExperimentId
  sessionId : String
  nodeId : NodeId
  success : Bool
  -- The public key of the node, which a successful reply needs.
  publicKey : Option Crypto.Key
  error : Option NodeError
  deriving DecidableEq

namespace SetupReply

def ofKey (q : SetupRequest) (publicKey : Crypto.Key) : SetupReply :=
  ⟨q.experimentId, q.sessionId, q.nodeId, true, some publicKey, none⟩

def ofRefusal (q : SetupRequest) (error : NodeError) : SetupReply :=
  ⟨q.experimentId, q.sessionId, q.nodeId, false, none, some error⟩

end SetupReply

inductive Request (R : Type) where
  | train (q : WorkRequest R)
  | setup (q : SetupRequest)

def Request.nodeId {R : Type} : Request R → NodeId
  | .train q => q.nodeId
  | .setup q => q.nodeId

inductive Reply (R : Type) where
  | train (r : WorkReply R)
  | setup (r : SetupReply)

namespace Reply

variable {R : Type}

def nodeId : Reply R → NodeId
  | .train r => r.nodeId
  | .setup r => r.nodeId

def experimentId : Reply R → ExperimentId
  | .train r => r.experimentId
  | .setup r => r.experimentId

end Reply

end Federation
