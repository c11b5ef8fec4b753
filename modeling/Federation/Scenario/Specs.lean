import Federation.Aggregation.Codec
import Federation.Dataset.Codec
import Federation.NodeStates.Codec
import Federation.Round.Context
import Federation.Round.Events
import Federation.Scenario.Values
import Federation.Secagg.Codec
import Federation.Selection
/-!
# Domain values of scenarios

How scenarios describe aggregators, optimizers, node states, datasets, catalogs and strategies, and
how outcomes show them.
-/

namespace Federation.Scenario

/-! ## Aggregators and optimizers -/

def aggregator (j : Json) : Aggregator Float :=
  match textAt j "kind" with
  | "Scaffold" => .scaffold ⟨floatAt j "server_lr", optional j "global_control" params⟩
  | _ => .fedAverage

/-- The bits of a learning rate, missing if it is not finite. -/
def finiteBits (x : Float) : Json := if x.isFinite then bits x else .null

def aggregatorBits : Aggregator Float → Json
  | .fedAverage => .obj [("kind", .str FedAverage.name)]
  | .scaffold s =>
    .obj [("kind", .str Scaffold.name), ("server_lr", finiteBits s.serverLr),
      ("global_control", .option paramsBits s.globalControl)]

def adaptive (j : Json) : Adaptive Float where
  learningRate := floatOr 1.0 j "learning_rate"
  beta1 := floatAt j "beta1"
  beta2 := floatAt j "beta2"
  epsilon := floatAt j "epsilon"
  step := wordAt j "step"
  firstMoment := optional j "first_moment" params
  secondMoment := optional j "second_moment" params

def optimizer (j : Json) : Optimizer Float :=
  let lr := floatOr 1.0 j "learning_rate"
  match textAt j "kind" with
  | "Momentum" => .momentum ⟨lr, floatAt j "beta", optional j "velocity" params⟩
  | "Adam" => .adam (adaptive j)
  | "Yogi" => .yogi (adaptive j)
  | _ => .sgd lr

def optimizerBits (o : Optimizer Float) : Json :=
  .obj (("kind", .str o.name) :: match o with
    | .sgd lr => [("learning_rate", bits lr)]
    | .momentum m =>
      [("learning_rate", bits m.learningRate), ("beta", bits m.beta),
        ("velocity", .option paramsBits m.velocity)]
    | .adam a | .yogi a =>
      [("learning_rate", bits a.learningRate), ("beta1", bits a.beta1), ("beta2", bits a.beta2),
        ("epsilon", bits a.epsilon), ("step", .word a.step),
        ("first_moment", .option paramsBits a.firstMoment),
        ("second_moment", .option paramsBits a.secondMoment)])

/-! ## Node states -/

def nodeState (j : Json) : NodeState Float where
  stateId := wordAt j "state_id"
  lastRound := optional j "last_round" word
  controlVariate := optional j "control_variate" params

def nodeStateBits (s : NodeState Float) : Json :=
  .obj [("state_id", .word s.stateId), ("last_round", .option .word s.lastRound),
    ("control_variate", .option paramsBits s.controlVariate)]

def nodeStates (j : Json) : NodeStates Float := ⟨map nodeState j⟩

def nodeStatesBits (s : NodeStates Float) : Json := .map nodeStateBits s.states

/-! ## Datasets -/

def metadata (j : Json) : DatasetMetadata := (DatasetMetadata.ofJson? j).getD ⟨"", [], 0, "", [], []⟩

def names (j : Json) : NameSet := .setOf (texts j)

/-- A catalog with a fixed listing. It may fail with a given reason, and it may ignore the nodes of a
query. -/
def catalog (j : Json) : Catalog :=
  let listing : Listing := map (fun l => (items l).map metadata) (get j "listing")
  fun q =>
    match optional j "fail" text with
    | some reason => .error reason
    | none =>
      let asked := if flagAt j "ignore_filter" then none else q.nodes
      .ok ((listing.filter fun node _ => FederatedDataset.admits asked node).map fun _ l =>
        l.filter fun m => q.tags.keys.all m.tags.contains)

/-- A query: an explicit mapping if there is one, or else tags. -/
def query (j : Json) : DatasetQuery :=
  match optional j "explicit" (map metadata) with
  | some data => .explicit data
  | none => .tags (names (get j "tags"))

def resolve (j : Json) : Except DatasetError FederatedDataset :=
  FederatedDataset.resolve (catalog (get j "catalog")) (query j) (optional j "nodes" names)

/-! ## Selection -/

/-- A strategy that lists nodes for rounds, or the default one. -/
def strategy (custom : Json) : Strategy Float :=
  match custom with
  | .null => .allAvailable
  | j =>
    .custom (textAt j "name") fun round _ states =>
      let nodes := match get (get j "rounds") (toString round.toNat) with
        | .null => texts (get j "default")
        | l => texts l
      if flagAt j "seen_before" then
        nodes.filter fun node => (states.stateFor node).lastRound.isSome
      else nodes

/-! ## Rounds and sessions -/

def summaryBits (s : ReplySummary Float) : Json :=
  .obj [("metrics", .map bits s.metrics), ("ptime_training", bits s.timing.ptimeTraining),
    ("rtime_training", bits s.timing.rtimeTraining),
    ("rtime_ms", .word (s.rtimeTotal * 1000.0).round.toUInt64), ("sample_count", .word s.sampleCount)]

def session (j : Json) : SecaggSession :=
  ⟨textAt j "session_id", texts (get j "parties"), map key (get j "public_keys")⟩

def secaggRound (j : Json) : SecaggRound Float :=
  ⟨session j, maskConfig (get j "config"), wordAt j "nonce", floatAt j "random"⟩

def roundContext (j : Json) : RoundContext Float :=
  let participants := map (fun p =>
    (⟨textAt p "dataset_id", wordAt p "state_id", auxVars (get p "aux_vars")⟩ : Participant Float))
    (get j "participants")
  { researcherId := textAt j "researcher_id"
    experimentId := textAt j "experiment_id"
    roundNumber := wordAt j "round_number"
    requestId := wordAt j "request_id"
    participants
    global := params (get j "global")
    trainingArgs := trainingArgs (get j "training_args")
    modelArgs := modelArgs (get j "model_args")
    aggregator := aggregator (get j "aggregator")
    optimizer := optimizer (get j "optimizer")
    nodeStates := nodeStates (get j "node_states")
    federationSize := (optional j "federation_size" word).elim participants.size UInt64.toNat
    timeout := .ofMillis (wordAt j "timeout_ms").toNat
    secagg := optional j "secagg" secaggRound }

def completedBits (c : CompletedRound Float) : Json :=
  .obj [("round_number", .word c.roundNumber), ("global", paramsBits c.aggregated.global),
    ("node_states", .map nodeStateBits c.aggregated.nodeStates),
    ("aggregator", aggregatorBits c.aggregated.aggregator), ("optimizer", optimizerBits c.optimizer),
    ("participants", .map summaryBits c.participants),
    ("state_ids", .list (fun e => .arr [.str e.1, .word e.2]) c.stateIds.toList)]

def secaggBits (s : SecureAggregation Float) : Json :=
  .obj [("enabled", .bool s.enabled), ("config", maskConfigBits s.config),
    ("parties", .option (fun s => .list .str s.parties) s.session)]

def phaseBits (e : Event Phase) : Json := .arr [.word e.round, .str e.event.name]

def eventsBits (e : Events Float) : Json :=
  .obj [("phase", phaseBits e.phase),
    ("model", .arr [.word e.model.round, .option paramsBits e.model.event])]

/-- The phases that published something, each with the latest events after it. -/
def traceBits (round : RoundNumber) : Events Float → List (Publication Float) → List Json
  | _, [] => []
  | e, .phase p :: .model m :: rest =>
    let e := (e.publish round (.phase p)).publish round (.model m)
    .obj [("ran", .str p.name), ("events", eventsBits e)] :: traceBits round e rest
  | e, .phase p :: rest =>
    let e := e.publish round (.phase p)
    .obj [("ran", .str p.name), ("events", eventsBits e)] :: traceBits round e rest
  | e, .model m :: rest => traceBits round (e.publish round (.model m)) rest

end Federation.Scenario
