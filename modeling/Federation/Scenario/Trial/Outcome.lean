import Federation.Experiment.Run
import Federation.Scenario.Trial.Basic
/-!
# Outcomes of trials

What the outcomes of a trial show: the state of the experiment and its surroundings, the requests that
a node received, the history and a checkpoint.
-/

namespace Federation.Scenario

/-! ## State -/

/-- The names of the checkpoints in the store. Of an experiment whose name was drawn only their number
is shown. -/
def checkpointsShown (t : Trial) : Json :=
  let ids := t.world.stored.ids t.frame.store
  if t.frame.isNamed then .list .str ids else .count ids.length

def isTraining : Request Float → Bool
  | .train _ => true
  | .setup _ => false

/-- A node and the numbers of requests to train and to join that it received. -/
def requestCounts (e : NodeId × Node) : Json :=
  let (training, joining) := e.2.received.partition isTraining
  .arr [.str e.1, .count training.length, .count joining.length]

def recordInShort (r : NodeRecord) : Json :=
  .arr [.str r.nodeId, .str r.datasetId, .word r.sampleCount, .bool r.available]

def trialState (t : Trial) : List (String × Json) :=
  let x := t.experiment
  [("aggregator", aggregatorBits x.aggregator),
    ("checkpoints", checkpointsShown t),
    ("dataset", .list recordInShort x.dataset.records.values),
    ("events", eventsBits x.events),
    ("experiment_id", if t.frame.isNamed then .str x.experimentId else .null),
    ("global", paramsBits x.global),
    ("history", .count x.history.length),
    ("node_states", nodeStatesBits x.nodeStates),
    ("optimizer", optimizerBits x.optimizer),
    ("requests", .list requestCounts t.world.nodes.toList),
    ("researcher_id", .str x.researcherId),
    ("round", .arr [.word x.roundCurrent, .word x.roundLimit]),
    ("secagg", secaggBits x.secagg),
    ("strategy", .str x.strategy.name),
    ("training_args", trainingArgsBits x.trainingArgs)]

def changes (before after : List (String × Json)) : List (String × Json) :=
  after.filter fun e => (before.lookup e.1).map Json.compress != some e.2.compress

/-! ## Runs -/

/-- The report of a run, and of one that was stopped from outside only that. -/
def runOutcome (r : RunReport Float) : Json :=
  let report (failure : Json) : Json :=
    .obj [("rounds_executed", .word r.roundsExecuted), ("limit_reached", .bool r.limitReached),
      ("failure", failure)]
  match r.failure with
  | none => report .null
  | some (.failed e) => report (experimentFailure e)
  | some .abandoned => .str "interrupted"

/-! ## Requests, history and checkpoints -/

def secaggShown (a : SecaggArguments Float) : Json :=
  .arr [.list .str a.parties, .list .str a.publicKeys.keys, maskConfigBits a.maskConfig]

def requestShown : Request Float → Json
  | .setup q => .obj [("setup", .list .str q.parties)]
  | .train q =>
    .obj [("round_number", .word q.roundNumber), ("researcher_id", .str q.researcherId),
      ("dataset_id", .str q.datasetId), ("state_id", .word q.stateId), ("params", paramsBits q.params),
      ("training_args", trainingArgsBits q.trainingArgs),
      ("model_args", .str (Json.modelArgs q.modelArgs).compress), ("aux_vars", auxVarsBits q.auxVars),
      ("secagg", .option secaggShown q.secagg)]

def recordShown (r : RoundRecord Float) : Json :=
  .obj [("round_number", .word r.roundNumber), ("params", paramsBits r.params),
    ("participants", .map summaryBits r.participants), ("sample_count", .word r.sampleCount)]

def checkpointIdShown (id : CheckpointId) : Json :=
  .obj [("experiment_id", .str id.experimentId), ("round", .word id.round)]

/-- A checkpoint, whose name may be kept back. -/
def checkpointShown (anonymous : Bool) (c : Checkpoint Float) : Json :=
  .obj [("version", .word c.version.toUInt64),
    ("id", if anonymous then .null else checkpointIdShown c.id),
    ("researcher_id", .str c.researcherId), ("round_limit", .word c.roundLimit),
    ("initial_params", paramsBits c.initialParams), ("global", paramsBits c.globalParams),
    ("history", .count c.history.length), ("training_args", trainingArgsBits c.trainingArgs),
    ("model_args", .str (Json.modelArgs c.modelArgs).compress), ("query", c.query.toJson),
    ("nodes", .option .names c.nodes), ("dataset", c.dataset.toJson),
    ("data_checked", .bool c.dataChecked),
    ("round_timeout_ms", .count (c.roundTimeout.toNanos / 1000000)), ("selection", .str c.selection),
    ("valid", verdict c.validate)]

end Federation.Scenario
