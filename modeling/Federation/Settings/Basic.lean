import Federation.Aggregation.Aggregator
import Federation.Optimizer
import Federation.Secagg.Basic
import Federation.Settings.Filter
import Federation.Settings.Overrides
import Federation.Toml.Document
/-!
# Settings

The settings of a controller, section by section. They are loaded from a document and from variables
which override it. What is missing takes its default, where there is one; fields that are not known
are ignored. Settings that were loaded are then validated as a whole, and all that is wrong with them
is reported.
-/

namespace Federation

structure ExperimentSettings where
  researcherId : ResearcherId
  -- The name of the experiment. It gets a random one if none is given.
  experimentId : Option ExperimentId
  roundLimit : RoundNumber
  -- The tags of the datasets to train on.
  tags : List String
  -- The nodes that may take part. If there is none, all of them may.
  nodes : List NodeId

structure RoundSettings where
  -- How many seconds a round waits for the replies.
  timeout : UInt64

inductive AggregatorKind where
  | fedAverage | scaffold
  deriving DecidableEq

structure AggregatorSettings where
  kind : AggregatorKind
  serverLr : Float

inductive OptimizerKind where
  | sgd | momentum | adam | yogi
  deriving DecidableEq

/-- The server optimizer of an experiment. Each kind of optimizer uses some of the numbers. -/
structure OptimizerSettings where
  kind : OptimizerKind := .sgd
  learningRate : Float := 1.0
  beta : Float := 0.9
  beta1 : Float := 0.9
  beta2 : Float := 0.99
  epsilon : Float := 1e-3

structure SecaggSettings where
  enable : Bool := false
  clippingRange : Float := 3.0
  fixedPointBits : UInt8 := 20
  -- How many seconds a setup waits for the parties.
  timeout : UInt64 := 30

structure CheckpointSettings where
  -- Whether one is saved after every completed round.
  enable : Bool := false
  -- The directory that holds them.
  path : String := "./checkpoints"

structure LogSettings where
  filter : LogFilter
  -- The filter as it was given.
  text : String

structure Settings where
  experiment : ExperimentSettings
  round : RoundSettings
  aggregator : AggregatorSettings
  optimizer : OptimizerSettings := {}
  training : TrainingArgs Float := {}
  secagg : SecaggSettings := {}
  checkpoint : CheckpointSettings := {}
  log : LogSettings

/-! ## What sections stand for -/

def AggregatorSettings.toAggregator (s : AggregatorSettings) : Aggregator Float :=
  match s.kind with
  | .fedAverage => .fedAverage
  | .scaffold => .scaffold ⟨s.serverLr, none⟩

/-- The optimizer that settings ask for, without state. -/
def OptimizerSettings.toOptimizer (s : OptimizerSettings) : Optimizer Float :=
  let adaptive : Adaptive Float :=
    { learningRate := s.learningRate, beta1 := s.beta1, beta2 := s.beta2, epsilon := s.epsilon }
  match s.kind with
  | .sgd => .sgd s.learningRate
  | .momentum => .momentum { learningRate := s.learningRate, beta := s.beta }
  | .adam => .adam adaptive
  | .yogi => .yogi adaptive

def SecaggSettings.maskConfig (s : SecaggSettings) : MaskConfig Float :=
  ⟨s.clippingRange, s.fixedPointBits⟩

def SecaggSettings.toSecureAggregation (s : SecaggSettings) : SecureAggregation Float where
  enabled := s.enable
  config := s.maskConfig
  timeout := .ofSeconds s.timeout

/-! ## Loading -/

namespace Settings

/-- The fields of a section, as they were given. -/
abbrev Fields := List (String × Setting)

def required {α : Type} (f : Fields) (name : String) (read : Setting → Option α) : Option α :=
  (f.lookup name).bind read

def defaulted {α : Type} (f : Fields) (name : String) (default : α) (read : Setting → Option α) :
    Option α :=
  match f.lookup name with
  | some s => read s
  | none => some default

def readExperiment (s : Setting) : Option ExperimentSettings := do
  let f ← s.asSection? ["researcher_id", "experiment_id", "round_limit", "tags", "nodes"]
  return { researcherId := ← required f "researcher_id" Setting.asText?
           experimentId := ← defaulted f "experiment_id" none (Setting.asOption? Setting.asText?)
           roundLimit := ← required f "round_limit" Setting.asWord?
           tags := ← defaulted f "tags" [] (Setting.asList? Setting.asText?)
           nodes := ← defaulted f "nodes" [] (Setting.asList? Setting.asText?) }

def readRound (s : Setting) : Option RoundSettings := do
  let f ← s.asSection? ["timeout"]
  return { timeout := ← required f "timeout" Setting.asWord? }

def aggregatorKinds : List (String × AggregatorKind) :=
  [("FedAverage", .fedAverage), ("Scaffold", .scaffold)]

def readAggregator (s : Setting) : Option AggregatorSettings := do
  let f ← s.asSection? ["kind", "server_lr"]
  return { kind := ← required f "kind" (Setting.asChoice? aggregatorKinds)
           serverLr := ← defaulted f "server_lr" 1.0 Setting.asFloat? }

def optimizerKinds : List (String × OptimizerKind) :=
  [("Sgd", .sgd), ("Momentum", .momentum), ("Adam", .adam), ("Yogi", .yogi)]

def readOptimizer (s : Setting) : Option OptimizerSettings := do
  let f ← s.asSection? ["kind", "learning_rate", "beta", "beta1", "beta2", "epsilon"]
  let standard : OptimizerSettings := {}
  return { kind := ← required f "kind" (Setting.asChoice? optimizerKinds)
           learningRate := ← defaulted f "learning_rate" standard.learningRate Setting.asFloat?
           beta := ← defaulted f "beta" standard.beta Setting.asFloat?
           beta1 := ← defaulted f "beta1" standard.beta1 Setting.asFloat?
           beta2 := ← defaulted f "beta2" standard.beta2 Setting.asFloat?
           epsilon := ← defaulted f "epsilon" standard.epsilon Setting.asFloat? }

def readTraining (s : Setting) : Option (TrainingArgs Float) := do
  let f ← s.asSection? ["num_updates", "epochs", "learning_rate", "batch_size"]
  return { numUpdates := ← defaulted f "num_updates" none (Setting.asOption? Setting.asWord?)
           epochs := ← defaulted f "epochs" none (Setting.asOption? Setting.asWord?)
           learningRate := ← defaulted f "learning_rate" none (Setting.asOption? Setting.asFloat?)
           batchSize := ← defaulted f "batch_size" none (Setting.asOption? Setting.asWord?) }

def readSecagg (s : Setting) : Option SecaggSettings := do
  let f ← s.asSection? ["enable", "clipping_range", "fixed_point_bits", "timeout"]
  let standard : SecaggSettings := {}
  return { enable := ← defaulted f "enable" standard.enable Setting.asFlag?
           clippingRange := ← defaulted f "clipping_range" standard.clippingRange Setting.asFloat?
           fixedPointBits := ← defaulted f "fixed_point_bits" standard.fixedPointBits Setting.asByte?
           timeout := ← defaulted f "timeout" standard.timeout Setting.asWord? }

def readCheckpoint (s : Setting) : Option CheckpointSettings := do
  let f ← s.asSection? ["enable", "path"]
  let standard : CheckpointSettings := {}
  return { enable := ← defaulted f "enable" standard.enable Setting.asFlag?
           path := ← defaulted f "path" standard.path Setting.asText? }

def readLog (s : Setting) : Option LogSettings := do
  let f ← s.asSection? ["filter"]
  let text ← required f "filter" Setting.asText?
  return ⟨← LogFilter.read? text, text⟩

def read (s : Setting) : Option Settings := do
  let f ← s.asSection? ["experiment", "round", "aggregator", "optimizer", "training", "secagg",
    "checkpoint", "log"]
  return { experiment := ← required f "experiment" readExperiment
           round := ← required f "round" readRound
           aggregator := ← required f "aggregator" readAggregator
           optimizer := ← defaulted f "optimizer" {} readOptimizer
           training := ← defaulted f "training" {} readTraining
           secagg := ← defaulted f "secagg" {} readSecagg
           checkpoint := ← defaulted f "checkpoint" {} readCheckpoint
           log := ← required f "log" readLog }

end Settings

/-! ## Validation -/

inductive SettingsFault where
  | aggregatorPreconditions
  | serverLearningRate
  | researcherId
  | optimizerParameters
  | roundTimeout
  | maskConfig
  | setupTimeout
  deriving DecidableEq

def SettingsFault.text : SettingsFault → String
  | aggregatorPreconditions => "__all__: aggregator preconditions not met"
  | serverLearningRate => "aggregator.__all__: invalid server learning rate"
  | researcherId => "experiment.researcher_id: length"
  | optimizerParameters => "optimizer.__all__: invalid optimizer hyperparameters"
  | roundTimeout => "round.timeout: range"
  | maskConfig => "secagg.__all__: invalid masking configuration"
  | setupTimeout => "secagg.__all__: invalid setup timeout"

inductive SettingsError where
  -- They cannot be read.
  | loading
  -- They contradict the rules, with all faults in the order of their places.
  | validation (faults : List SettingsFault)
  deriving DecidableEq

namespace Settings

def passes {ε : Type} (r : Except ε Unit) : Bool := r.toOption.isSome

/-- All faults of settings, in the order of their places. Of the two of secure aggregation the first
one hides the second. -/
def faults (s : Settings) : List SettingsFault :=
  let maskOk := passes s.secagg.maskConfig.validate
  let checks : List (Bool × SettingsFault) :=
    [(passes (s.aggregator.toAggregator.checkPreconditions s.training s.secagg.enable),
        .aggregatorPreconditions),
      (Scalar.isPositive s.aggregator.serverLr, .serverLearningRate),
      (!s.experiment.researcherId.isEmpty, .researcherId),
      (passes s.optimizer.toOptimizer.checkPreconditions, .optimizerParameters),
      (s.round.timeout != 0, .roundTimeout),
      (maskOk, .maskConfig),
      (!maskOk || s.secagg.timeout != 0, .setupTimeout)]
  (checks.filter fun c => !c.1).map Prod.snd

/-- Loads settings from a document, if there is one, and from variables, and validates them. -/
def load (document : Option String) (assigned : List (String × String)) :
    Except SettingsError Settings :=
  match (document.bind Toml.parse).bind fun t => read (Setting.layered t assigned) with
  | none => .error .loading
  | some s => if s.faults.isEmpty then .ok s else .error (.validation s.faults)

end Settings

end Federation
