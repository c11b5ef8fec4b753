import Federation.Scenario.Specs
import Federation.Settings.Basic
/-!
# Settings of scenarios

How scenarios give settings, and how outcomes show them.
-/

namespace Federation.Scenario

/-- The settings of a scenario: the text of a document, if there is one, and variables. -/
def settings (j : Json) : Except SettingsError Settings :=
  Settings.load (optional j "toml" text) ((fields (get j "env")).map fun e => (e.1, text e.2))

def settingsFailure : SettingsError → Json
  | .loading => .obj [("error", .str "Loading")]
  | .validation faults =>
    .obj [("error", .str "Validation"), ("fields", .list (fun f => .str f.text) faults)]

def settingsBits (s : Settings) : Json :=
  .obj [("researcher_id", .str s.experiment.researcherId),
    ("experiment_id", .option .str s.experiment.experimentId),
    ("round_limit", .word s.experiment.roundLimit),
    ("tags", .list .str s.experiment.tags),
    ("nodes", .list .str s.experiment.nodes),
    ("round_timeout", .word s.round.timeout),
    ("server_lr", bits s.aggregator.serverLr),
    ("aggregator", aggregatorBits s.aggregator.toAggregator),
    ("beta", bits s.optimizer.beta),
    ("beta1", bits s.optimizer.beta1),
    ("beta2", bits s.optimizer.beta2),
    ("epsilon", bits s.optimizer.epsilon),
    ("optimizer", optimizerBits s.optimizer.toOptimizer),
    ("training", trainingArgsBits s.training),
    ("secagg", secaggBits s.secagg.toSecureAggregation),
    ("secagg_timeout", .word s.secagg.timeout),
    ("checkpoint_enable", .bool s.checkpoint.enable),
    ("checkpoint_path", .str s.checkpoint.path)]

def settingsOutcome (j : Json) : Json :=
  match settings j with
  | .ok s => settingsBits s
  | .error e => settingsFailure e

end Federation.Scenario
