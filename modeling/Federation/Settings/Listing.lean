import Federation.Settings.Basic
/-!
# Listings of settings

A listing shows settings as they count after defaults and variables, one field a line, nested parts
further to the right.
-/

namespace Federation

inductive Listed where
  | word (text : String)
  | record (name : String) (fields : List (String × Listed))
  | list (items : List Listed)
  -- A value that might be missing but is there.
  | present (v : Listed)

namespace Listed

def indent (lines : List String) : List String := lines.map ("    " ++ ·)

/-- Ends the last line with a comma. -/
def withComma : List String → List String
  | [] => []
  | [l] => [l ++ ","]
  | l :: rest => l :: withComma rest

/-- Puts a text in front of the first line. -/
def withLabel (label : String) : List String → List String
  | [] => []
  | l :: rest => (label ++ l) :: rest

mutual

def lines : Listed → List String
  | word text => [text]
  | record name fields => [name ++ " \x7b"] ++ indent (fieldLines fields) ++ ["\x7d"]
  | list [] => ["[]"]
  | list items => ["["] ++ indent (itemLines items) ++ ["]"]
  | present v => ["Some("] ++ indent (withComma (lines v)) ++ [")"]

def fieldLines : List (String × Listed) → List String
  | [] => []
  | e :: rest => fieldLine e ++ fieldLines rest

def fieldLine : String × Listed → List String
  | (name, v) => withComma (withLabel (name ++ ": ") (lines v))

def itemLines : List Listed → List String
  | [] => []
  | v :: rest => withComma (lines v) ++ itemLines rest

end

def text (s : String) : Listed := .word (Text.quoted s)

def float (x : Float) : Listed := .word (Binary64.text .listing x)

def number (n : UInt64) : Listed := .word (toString n)

def flag (b : Bool) : Listed := .word (if b then "true" else "false")

def option {α : Type} (f : α → Listed) (v : Option α) : Listed :=
  v.elim (.word "None") fun v => .present (f v)

end Listed

def AggregatorKind.label : AggregatorKind → String
  | fedAverage => "FedAverage"
  | scaffold => "Scaffold"

def OptimizerKind.label : OptimizerKind → String
  | sgd => "Sgd"
  | momentum => "Momentum"
  | adam => "Adam"
  | yogi => "Yogi"

namespace Settings

open Listed in
def listed (s : Settings) : Listed :=
  .record "Settings" [
    ("experiment", .record "ExperimentSettings" [
      ("researcher_id", text s.experiment.researcherId),
      ("experiment_id", option text s.experiment.experimentId),
      ("round_limit", number s.experiment.roundLimit),
      ("tags", .list (s.experiment.tags.map text)),
      ("nodes", .list (s.experiment.nodes.map text))]),
    ("round", .record "RoundSettings" [("timeout", number s.round.timeout)]),
    ("aggregator", .record "AggregatorSettings" [
      ("kind", .word s.aggregator.kind.label),
      ("server_lr", float s.aggregator.serverLr)]),
    ("optimizer", .record "OptimizerSettings" [
      ("kind", .word s.optimizer.kind.label),
      ("learning_rate", float s.optimizer.learningRate),
      ("beta", float s.optimizer.beta),
      ("beta1", float s.optimizer.beta1),
      ("beta2", float s.optimizer.beta2),
      ("epsilon", float s.optimizer.epsilon)]),
    ("training", .record "TrainingSettings" [
      ("num_updates", option number s.training.numUpdates),
      ("epochs", option number s.training.epochs),
      ("learning_rate", option float s.training.learningRate),
      ("batch_size", option number s.training.batchSize)]),
    ("secagg", .record "SecaggSettings" [
      ("enable", flag s.secagg.enable),
      ("clipping_range", float s.secagg.clippingRange),
      ("fixed_point_bits", number s.secagg.fixedPointBits.toUInt64),
      ("timeout", number s.secagg.timeout)]),
    ("checkpoint", .record "CheckpointSettings" [
      ("enable", flag s.checkpoint.enable),
      ("path", text s.checkpoint.path)]),
    ("log", .record "LoggingSettings" [("filter", text s.log.text)])]

def listing (s : Settings) : List String := s.listed.lines

end Settings

end Federation
