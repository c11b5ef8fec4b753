import Federation.Aggregation.Codec
import Federation.Checkpoint.Basic
import Federation.Dataset.Codec
import Federation.NodeStates.Codec
import Federation.Secagg.Codec
/-!
# Checkpoints as documents

A checkpoint is stored as a JSON object, a line per value. Reading looks at the version first, so a
document of another version is told from a damaged one.
-/

namespace Federation

namespace ReplySummary

def toJson (s : ReplySummary Float) : Json :=
  .obj [("sample_count", .word s.sampleCount), ("timing", s.timing.toJson),
    ("rtime_total", .float s.rtimeTotal), ("metrics", .map .float s.metrics)]

def ofJson? (j : Json) : Option (ReplySummary Float) := do
  let r ← j.asRecord? ["sample_count", "timing", "rtime_total", "metrics"] false
  return {
    sampleCount := ← r.required "sample_count" Json.asWord?
    timing := ← r.required "timing" Timing.ofJson?
    rtimeTotal := ← r.required "rtime_total" Json.asFloat?
    metrics := ← r.withDefault "metrics" .empty (Json.asMap? Json.asFloat?) }

end ReplySummary

namespace RoundRecord

def toJson (r : RoundRecord Float) : Json :=
  .obj [("round_number", .word r.roundNumber), ("params", r.params.toJson),
    ("participants", .map ReplySummary.toJson r.participants), ("completed_at", r.completedAt.toJson)]

def ofJson? (j : Json) : Option (RoundRecord Float) := do
  let r ← j.asRecord? ["round_number", "params", "participants", "completed_at"] false
  return {
    roundNumber := ← r.required "round_number" Json.asWord?
    params := ← r.required "params" Parameters.ofJson?
    participants := ← r.required "participants" (Json.asMap? ReplySummary.ofJson?)
    completedAt := ← r.required "completed_at" Timestamp.ofJson? }

end RoundRecord

namespace Checkpoint

/-- The names of the fields, in order. -/
def fieldNames : List String :=
  ["version", "experiment_id", "researcher_id", "created_at", "round_current", "round_limit",
    "initial_params", "history", "node_states", "aggregator", "optimizer", "training_args",
    "model_args", "query", "nodes", "dataset", "data_checked", "secagg", "round_timeout", "selection"]

def toJson (c : Checkpoint Float) : Json :=
  .obj [("version", .count c.version.toNat), ("experiment_id", .str c.experimentId),
    ("researcher_id", .str c.researcherId), ("created_at", c.createdAt.toJson),
    ("round_current", .word c.roundCurrent), ("round_limit", .word c.roundLimit),
    ("initial_params", c.initialParams.toJson), ("history", .list RoundRecord.toJson c.history),
    ("node_states", c.nodeStates.toJson), ("aggregator", c.aggregator.toJson),
    ("optimizer", c.optimizer.toJson), ("training_args", c.trainingArgs.toJson),
    ("model_args", .modelArgs c.modelArgs), ("query", c.query.toJson),
    ("nodes", .option .names c.nodes), ("dataset", c.dataset.toJson),
    ("data_checked", .bool c.dataChecked), ("secagg", c.secagg.toJson),
    ("round_timeout", c.roundTimeout.toJson), ("selection", .str c.selection)]

def ofJson? (j : Json) : Option (Checkpoint Float) := do
  let r ← j.asRecord? fieldNames false
  return {
    version := ← r.required "version" Json.asWord32?
    experimentId := ← r.required "experiment_id" Json.asString?
    researcherId := ← r.required "researcher_id" Json.asString?
    createdAt := ← r.required "created_at" Timestamp.ofJson?
    roundCurrent := ← r.required "round_current" Json.asWord?
    roundLimit := ← r.required "round_limit" Json.asWord?
    initialParams := ← r.required "initial_params" Parameters.ofJson?
    history := ← r.required "history" (Json.asList? RoundRecord.ofJson?)
    nodeStates := ← r.required "node_states" NodeStates.ofJson?
    aggregator := ← r.required "aggregator" Aggregator.ofJson?
    optimizer := ← r.withDefault "optimizer" .identity Optimizer.ofJson?
    trainingArgs := ← r.required "training_args" TrainingArgs.ofJson?
    modelArgs := ← r.withDefault "model_args" .empty (Json.asModelArgs? 2)
    query := ← r.required "query" DatasetQuery.ofJson?
    nodes := ← r.optional "nodes" Json.asNames?
    dataset := ← r.required "dataset" FederatedDataset.ofJson?
    dataChecked := ← r.withDefault "data_checked" false Json.asBool?
    secagg := ← r.required "secagg" SecureAggregation.ofJson?
    roundTimeout := ← r.required "round_timeout" Duration.ofJson?
    selection := ← r.required "selection" Json.asString? }

def versionOf? (j : Json) : Option UInt32 := do
  let r ← j.asRecord? ["version"] false
  r.required "version" Json.asWord32?

def ofDocument? (j : Json) : Except CheckpointError (Checkpoint Float) :=
  match versionOf? j with
  | none => .error .unreadable
  | some v =>
    if v ≠ currentVersion then .error (.version v)
    else (ofJson? j).elim (.error .unreadable) .ok

def encode (c : Checkpoint Float) : String := c.toJson.pretty

def decode (document : String) : Except CheckpointError (Checkpoint Float) :=
  (Json.parse document).elim (.error .unreadable) ofDocument?

end Checkpoint

end Federation
