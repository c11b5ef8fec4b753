import Federation.Experiment.Draft
import Federation.Scenario.Settings
import Federation.Scenario.Simulation
/-!
# Trials

A trial is an experiment in a simulated federation. Its configuration describes the surroundings and
the draft of the experiment; a configuration of the same form describes how the experiment is taken up
again from a checkpoint.
-/

namespace Federation.Scenario

structure TrialFrame where
  catalog : Catalog
  -- The kind of the store.
  store : String
  -- Whether the name of the experiment is known beforehand.
  isNamed : Bool

structure Trial where
  frame : TrialFrame
  experiment : Experiment Float
  world : Simulation

def trialFrame (config : Json) : TrialFrame where
  catalog := catalog (get config "catalog")
  store := textOr "memory" config "store"
  isNamed := has config "experiment_id" || has config "settings"

def TrialFrame.surroundings (f : TrialFrame) : Surroundings Float Simulation :=
  Simulation.surroundings f.store

/-- The report of a failed experiment. The wording of a mask mismatch contains a value that is drawn
at random, so it is left out. -/
def experimentFailure (e : ExperimentError Float) : Json :=
  match e with
  | .round _ (.secureAggregation (.maskMismatch ..)) => .obj [("error", .str (Failure.kind e))]
  | e => failure e

/-! ## Drafts -/

/-- The draft with which a configuration begins: that of settings, or else the default one. -/
def beginning (config : Json) : Except Json (Draft Float) := do
  let draft ← match optional config "settings" settings with
    | some r => (r.map Draft.ofSettings).mapError settingsFailure
    | none => pure (Draft.initial (textOr "researcher-0" config "researcher_id"))
  return { draft with
    savesCheckpoints := flagAt config "save"
    isConnected := !flagAt config "no_transport" }

def secureAggregation (j : Json) : Except (SecaggError Float) (SecureAggregation Float) :=
  SecureAggregation.create (flagOr true j "enabled") ((optional j "config" maskConfig).getD .standard)
    (.ofMillis (wordOr 30000 j "timeout_ms").toNat)

/-- The query of a configuration, if it has one. An explicit mapping goes before tags. -/
def configuredQuery (config : Json) : Option DatasetQuery :=
  (optional config "training_data" fun j => .explicit (map metadata j)).or
    (optional config "tags" fun j => .tags (names j))

def complete (config : Json) (d : Draft Float) : Except Json (Draft Float) := do
  let secagg ← match optional config "secagg" secureAggregation with
    | some r => r.mapError failure
    | none => pure d.secagg
  return { d with
    secagg
    experimentId := (optional config "experiment_id" text).or d.experimentId
    query := (configuredQuery config).or d.query
    nodes := (optional config "nodes_filter" names).or d.nodes
    initialParams := (optional config "initial_params" params).or d.initialParams
    trainingArgs := (optional config "training_args" trainingArgs).getD d.trainingArgs
    modelArgs := (optional config "model_args" modelArgs).getD d.modelArgs
    aggregator := (optional config "aggregator" aggregator).getD d.aggregator
    optimizer := (optional config "optimizer" optimizer).getD d.optimizer
    strategy := (optional config "strategy" fun j => strategy (get j "custom")).getD d.strategy
    roundLimit := wordOr d.roundLimit config "round_limit"
    roundTimeout := (optional config "timeout_ms" fun j => .ofMillis (word j).toNat).getD
      d.roundTimeout }

/-! ## Starting and taking up -/

namespace Trial

def build (f : TrialFrame) (d : Draft Float) (world : Simulation) : Except Json Trial :=
  let (built, world) := d.build f.surroundings f.catalog world
  match built with
  | .error e => .error (experimentFailure e)
  | .ok experiment => .ok ⟨f, experiment, world.connect⟩

def start (config : Json) : Except Json Trial := do
  let draft ← complete config (← beginning config)
  build (trialFrame config) draft
    { nodes := map (fun j => ⟨behaviour j, {}, .empty, []⟩) (get config "nodes") }

/-- The checkpoint that a step names: a text, or else one in the store. -/
def checkpoint (t : Trial) (step : Json) : Except Json (Checkpoint Float) :=
  match optional step "checkpoint" text with
  | some document => ((Json.parse document).bind Checkpoint.ofJson?).elim (.error unreadable) .ok
  | none =>
    (Checkpoint.load (Stored.ofKind t.frame.store)
      (textOr t.experiment.experimentId step "experiment") (optional step "round" word)
      t.world.stored).mapError fun e => experimentFailure (.checkpoint e)

/-- Takes the experiment up again from a checkpoint, as a configuration describes it. -/
def restore (t : Trial) (step : Json) : Except Json Trial := do
  let config := get step "config"
  let draft ← beginning config
  let draft ← (draft.resume (← t.checkpoint step)).mapError experimentFailure
  build t.frame (← complete config draft) t.world

end Trial

end Federation.Scenario
