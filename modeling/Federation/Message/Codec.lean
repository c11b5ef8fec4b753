import Federation.Json.Reader
import Federation.Json.Schema
import Federation.Json.Writer
import Federation.Message.Basic
/-!
# Messages as JSON

Each message is an object with a `command` and a `payload`. `toJson` writes a message and `ofJson?`
reads one; a payload of a reply is closed, so a field it does not know makes it unreadable.

A payload behind its command is decoded in the course of reading. One that stands before its command is
kept as a whole until it is known. Documents are read to a depth of `maxDepth` levels, which only free-form
arguments and kept payloads can reach.
-/

namespace Federation

/-- The greatest depth to which the parts of a document that are read may be nested. -/
def Json.maxDepth : Nat := 127

def Parameters.toJson (p : Parameters Float) : Json := Json.map (Json.list Json.float) p.layers

def Parameters.ofJson? (j : Json) : Option (Parameters Float) :=
  (j.asMap? (Json.asList? Json.asFloat?)).map Parameters.mk

namespace Json

def key (k : Crypto.Key) : Json := list (fun b => word b.toUInt64) k.bytes

/-- Reads a key from an array of at most 32 bytes. In the course of reading, a text of 32 bytes is one
as well. -/
def asKey? (d : Decoding) (j : Json) : Option Crypto.Key :=
  match j.textBytes? with
  | some bytes => if d = .direct then Crypto.Key.ofBytes? bytes else none
  | none => (j.asList? asByte?).bind Crypto.Key.ofLeading?

def auxVars (v : AuxVars Float) : Json := map Parameters.toJson v

def modelArgs (a : ModelArgs) : Json := map FreeForm.json a

/-- Reads free-form arguments which stand `level` levels deep in their document. -/
def asModelArgs? (level : Nat) : Json → Option ModelArgs :=
  asMap? fun j => if level + j.depth ≤ maxDepth then FreeForm.ofJson? j else none

end Json

namespace TrainingArgs

def toJson (a : TrainingArgs Float) : Json :=
  .obj [("num_updates", .option .word a.numUpdates), ("epochs", .option .word a.epochs),
    ("learning_rate", .option .float a.learningRate), ("batch_size", .option .word a.batchSize)]

def ofJson? (j : Json) : Option (TrainingArgs Float) := do
  let r ← j.asRecord? ["num_updates", "epochs", "learning_rate", "batch_size"] false
  return {
    numUpdates := ← r.optional "num_updates" Json.asWord?
    epochs := ← r.optional "epochs" Json.asWord?
    learningRate := ← r.optional "learning_rate" Json.asFloat?
    batchSize := ← r.optional "batch_size" Json.asWord? }

end TrainingArgs

namespace SecaggArguments

def toJson (a : SecaggArguments Float) : Json :=
  .obj [("session_id", .str a.sessionId), ("parties", .list .str a.parties),
    ("public_keys", .map .key a.publicKeys), ("nonce", .word a.nonce), ("random", .float a.random),
    ("clipping_range", .float a.clippingRange), ("fixed_point_bits", .word a.fixedPointBits.toUInt64)]

def ofJson? (d : Json.Decoding) (j : Json) : Option (SecaggArguments Float) := do
  let r ← j.asRecord? ["session_id", "parties", "public_keys", "nonce", "random", "clipping_range",
    "fixed_point_bits"] false
  return {
    sessionId := ← r.required "session_id" Json.asString?
    parties := ← r.required "parties" (Json.asList? Json.asString?)
    publicKeys := ← r.required "public_keys" (Json.asMap? (Json.asKey? d))
    nonce := ← r.required "nonce" Json.asWord?
    random := ← r.required "random" Json.asFloat?
    clippingRange := ← r.required "clipping_range" Json.asFloat?
    fixedPointBits := ← r.required "fixed_point_bits" Json.asByte? }

end SecaggArguments

namespace WorkRequest

def toJson (q : WorkRequest Float) : Json :=
  .obj [("researcher_id", .str q.researcherId), ("experiment_id", .str q.experimentId),
    ("round_number", .word q.roundNumber), ("request_id", .word q.requestId),
    ("node_id", .str q.nodeId), ("dataset_id", .str q.datasetId), ("state_id", .word q.stateId),
    ("params", q.params.toJson), ("training_args", q.trainingArgs.toJson),
    ("model_args", .modelArgs q.modelArgs), ("aux_vars", .auxVars q.auxVars),
    ("secagg", .option SecaggArguments.toJson q.secagg)]

def ofJson? (d : Json.Decoding) (j : Json) : Option (WorkRequest Float) := do
  let r ← j.asRecord? ["researcher_id", "experiment_id", "round_number", "request_id", "node_id",
    "dataset_id", "state_id", "params", "training_args", "model_args", "aux_vars", "secagg"] false
  return {
    researcherId := ← r.required "researcher_id" Json.asString?
    experimentId := ← r.required "experiment_id" Json.asString?
    roundNumber := ← r.required "round_number" Json.asWord?
    requestId := ← r.required "request_id" Json.asWord?
    nodeId := ← r.required "node_id" Json.asString?
    datasetId := ← r.required "dataset_id" Json.asString?
    stateId := ← r.required "state_id" Json.asWord?
    params := ← r.required "params" Parameters.ofJson?
    trainingArgs := ← r.required "training_args" TrainingArgs.ofJson?
    modelArgs := ← r.withDefault "model_args" .empty (Json.asModelArgs? 3)
    auxVars := ← r.withDefault "aux_vars" .empty (Json.asMap? Parameters.ofJson?)
    secagg := ← r.optional "secagg" (SecaggArguments.ofJson? d) }

end WorkRequest

namespace ReplyParams

/-- The parameters of a reply, named by their kind. -/
def toJson : ReplyParams Float → Json
  | .plain p => .case "plain" p.toJson
  | .masked v => .case "masked" (.obj [("data", .list .word v.data)])

def maskedOfJson? (j : Json) : Option MaskedVector := do
  let r ← j.asRecord? ["data"] false
  return ⟨← r.required "data" (Json.asList? Json.asWord?)⟩

def ofJson? (j : Json) : Option (ReplyParams Float) := do
  let (name, content) ← j.asChoice?
  let content ← content
  if name = "plain" then return .plain (← Parameters.ofJson? content)
  else if name = "masked" then return .masked (← maskedOfJson? content)
  else none

end ReplyParams

namespace Timing

def toJson (t : Timing Float) : Json :=
  .obj [("rtime_training", .float t.rtimeTraining), ("ptime_training", .float t.ptimeTraining)]

def ofJson? (j : Json) : Option (Timing Float) := do
  let r ← j.asRecord? ["rtime_training", "ptime_training"] false
  return ⟨← r.withDefault "rtime_training" 0.0 Json.asFloat?,
    ← r.withDefault "ptime_training" 0.0 Json.asFloat?⟩

end Timing

namespace NodeErrorKind

def name : NodeErrorKind → String
  | .training => "training"
  | .stateMismatch => "state_mismatch"
  | .setup => "setup"
  | .other => "other"

def all : List NodeErrorKind := [.training, .stateMismatch, .setup, .other]

def ofJson? (d : Json.Decoding) (j : Json) : Option NodeErrorKind :=
  (j.asCase? d).bind fun name => all.find? fun k => k.name == name

end NodeErrorKind

namespace NodeError

def toJson (e : NodeError) : Json := .obj [("kind", .str e.kind.name), ("message", .str e.message)]

def read? (d : Json.Decoding) (j : Json) : Option NodeError := do
  let r ← j.asRecord? ["kind", "message"] false
  return ⟨← r.required "kind" (NodeErrorKind.ofJson? d), ← r.required "message" Json.asString?⟩

/-- An error which is a document by itself. -/
def ofJson? : Json → Option NodeError := read? .direct

end NodeError

namespace WorkReply

def toJson (w : WorkReply Float) : Json :=
  .obj [("experiment_id", .str w.experimentId), ("round_number", .word w.roundNumber),
    ("request_id", .word w.requestId), ("node_id", .str w.nodeId), ("state_id", .word w.stateId),
    ("success", .bool w.success), ("params", .option ReplyParams.toJson w.params),
    ("sample_count", .word w.sampleCount), ("aux_vars", .auxVars w.auxVars),
    ("timing", w.timing.toJson), ("metrics", .map .float w.metrics),
    ("error", .option NodeError.toJson w.error)]

def ofJson? (d : Json.Decoding) (j : Json) : Option (WorkReply Float) := do
  let r ← j.asRecord? ["experiment_id", "round_number", "request_id", "node_id", "state_id",
    "success", "params", "sample_count", "aux_vars", "timing", "metrics", "error"] true
  return {
    experimentId := ← r.required "experiment_id" Json.asString?
    roundNumber := ← r.required "round_number" Json.asWord?
    requestId := ← r.required "request_id" Json.asWord?
    nodeId := ← r.required "node_id" Json.asString?
    stateId := ← r.required "state_id" Json.asWord?
    success := ← r.required "success" Json.asBool?
    params := ← r.optional "params" ReplyParams.ofJson?
    sampleCount := ← r.withDefault "sample_count" 0 Json.asWord?
    auxVars := ← r.withDefault "aux_vars" .empty (Json.asMap? Parameters.ofJson?)
    timing := ← r.withDefault "timing" .zero Timing.ofJson?
    metrics := ← r.withDefault "metrics" .empty (Json.asMap? Json.asFloat?)
    error := ← r.optional "error" (NodeError.read? d) }

end WorkReply

namespace SetupRequest

def toJson (q : SetupRequest) : Json :=
  .obj [("researcher_id", .str q.researcherId), ("experiment_id", .str q.experimentId),
    ("session_id", .str q.sessionId), ("node_id", .str q.nodeId), ("parties", .list .str q.parties)]

def ofJson? (j : Json) : Option SetupRequest := do
  let r ← j.asRecord? ["researcher_id", "experiment_id", "session_id", "node_id", "parties"] false
  return {
    researcherId := ← r.required "researcher_id" Json.asString?
    experimentId := ← r.required "experiment_id" Json.asString?
    sessionId := ← r.required "session_id" Json.asString?
    nodeId := ← r.required "node_id" Json.asString?
    parties := ← r.required "parties" (Json.asList? Json.asString?) }

end SetupRequest

namespace SetupReply

def toJson (w : SetupReply) : Json :=
  .obj [("experiment_id", .str w.experimentId), ("session_id", .str w.sessionId),
    ("node_id", .str w.nodeId), ("success", .bool w.success), ("public_key", .option .key w.publicKey),
    ("error", .option NodeError.toJson w.error)]

def ofJson? (d : Json.Decoding) (j : Json) : Option SetupReply := do
  let r ← j.asRecord? ["experiment_id", "session_id", "node_id", "success", "public_key", "error"] true
  return {
    experimentId := ← r.required "experiment_id" Json.asString?
    sessionId := ← r.required "session_id" Json.asString?
    nodeId := ← r.required "node_id" Json.asString?
    success := ← r.required "success" Json.asBool?
    publicKey := ← r.optional "public_key" (Json.asKey? d)
    error := ← r.optional "error" (NodeError.read? d) }

end SetupReply

/-! ## Envelopes -/

namespace Json

def envelope (command : String) (payload : Json) : Json :=
  .obj [("command", .str command), ("payload", payload)]

/-- The parts of a message. -/
structure Envelope where
  command : String
  payload : Json
  decoding : Decoding

/-- The command and the payload of a message. Other fields are skipped. A payload that stands before
its command must be readable throughout and within the depth to which documents are read. -/
def asEnvelope? : Json → Option Envelope
  | .obj fields =>
    match fields.filter fun e => e.1 == "command" || e.1 == "payload" with
    | [("command", command), ("payload", payload)] =>
      (command.asCase? .direct).map (⟨·, payload, .direct⟩)
    | [("payload", payload), ("command", command)] =>
      if payload.isReadable && 1 + payload.depth ≤ maxDepth then
        (command.asCase? .direct).map (⟨·, payload, .kept⟩)
      else none
    | _ => none
  | .arr [command, payload] => (command.asCase? .direct).map (⟨·, payload, .direct⟩)
  | _ => none

end Json

namespace Request

def toJson : Request Float → Json
  | .train q => Json.envelope "train" q.toJson
  | .setup q => Json.envelope "secagg_setup" q.toJson

def ofJson? (j : Json) : Option (Request Float) := do
  let e ← j.asEnvelope?
  if e.command = "train" then return .train (← WorkRequest.ofJson? e.decoding e.payload)
  else if e.command = "secagg_setup" then return .setup (← SetupRequest.ofJson? e.payload)
  else none

def encode (q : Request Float) : String := q.toJson.compress

def decode (text : String) : Option (Request Float) := (Json.parse text).bind ofJson?

end Request

namespace Reply

def toJson : Reply Float → Json
  | .train r => Json.envelope "train" r.toJson
  | .setup r => Json.envelope "secagg_setup" r.toJson

def ofJson? (j : Json) : Option (Reply Float) := do
  let e ← j.asEnvelope?
  if e.command = "train" then return .train (← WorkReply.ofJson? e.decoding e.payload)
  else if e.command = "secagg_setup" then return .setup (← SetupReply.ofJson? e.decoding e.payload)
  else none

def encode (r : Reply Float) : String := r.toJson.compress

def decode (text : String) : Option (Reply Float) := (Json.parse text).bind ofJson?

end Reply

end Federation
