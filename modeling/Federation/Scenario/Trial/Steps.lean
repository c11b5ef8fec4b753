import Federation.Experiment.Configuration
import Federation.Scenario.Trial.Outcome
/-!
# Playing trials

A trial goes on step by step: the experiment runs, is configured, is saved and taken up again, and the
nodes change their behaviour. The outcome of each step shows its result and what it changed.
-/

namespace Federation.Scenario

namespace Trial

/-! ## Running -/

/-- Runs an experiment while a cancellation or an end from outside may be set down. -/
def run (t : Trial) (rounds : UInt64) (increase : Bool) (cancelAfter abandonAfter : Option Nat) :
    Json × Trial :=
  let world := { t.world with
    cancelAfter, abandonAt := abandonAfter.map (t.world.now + ·) }
  let (report, experiment, world) := t.experiment.run t.frame.surroundings rounds increase world
  let world := { world with cancelAfter := none, cancelAt := none, abandonAt := none }
  (runOutcome report, { t with experiment, world })

/-! ## Configuring -/

/-- The experiment after a step that configures it, or nothing if the step does something else. -/
def configure? (t : Trial) (step : Json) : Option (Except (ExperimentError Float) (Experiment Float)) :=
  let x := t.experiment
  let catalog := t.frame.catalog
  match textAt step "do" with
  | "set_tags" => some (x.setTags catalog (names (get step "tags")))
  | "set_nodes" => some (x.setNodes catalog (optional step "nodes" names))
  | "set_training_data" => some (x.setTrainingData catalog (map metadata (get step "data")))
  | "availability" => some (x.setAvailability (textAt step "node") (flagAt step "available"))
  | "set_round_limit" => some (x.setRoundLimit (wordAt step "limit"))
  | "set_timeout" => some (x.setRoundTimeout (.ofMillis (wordAt step "timeout_ms").toNat))
  | "set_training_args" => some (x.setTrainingArgs (trainingArgs (get step "training_args")))
  | "set_model_args" => some (.ok (x.setModelArgs (modelArgs (get step "model_args"))))
  | "set_aggregator" => some (x.setAggregator (aggregator (get step "aggregator")))
  | "set_optimizer" => some (x.setOptimizer (optimizer (get step "optimizer")))
  | "set_strategy" => some (.ok (x.setStrategy (strategy (get step "custom"))))
  | "set_secagg" => some (x.setSecureAggregation (flagAt step "enabled"))
  | _ => none

/-! ## Steps -/

def modifyNode (t : Trial) (step : Json) (f : Node → Node) : Json × Trial :=
  (.null, { t with world := t.world.modify (textAt step "node") f })

def received (t : Trial) (step : Json) : Json :=
  .list requestShown (((t.world.nodes.find? (textAt step "node")).map (·.received.reverse)).getD [])

def save (t : Trial) : Json × Trial :=
  let (r, world) := t.experiment.saveCheckpoint t.frame.surroundings t.world
  (match r with
    | .ok id => .word id.round
    | .error e => experimentFailure e, { t with world })

/-- The result of a step, and the trial after it. -/
def advance (t : Trial) (step : Json) : Json × Trial :=
  let rounds := wordAt step "rounds"
  let increase := flagAt step "increase"
  let after := some (wordAt step "after_ms").toNat
  match textAt step "do" with
  | "run" => t.run rounds increase none none
  | "run_once" => t.run 1 increase none none
  | "run_cancelled" => t.run rounds increase after none
  | "run_interrupted" => t.run rounds increase none after
  | "behave" => t.modifyNode step fun n => { n with behaviour := behaviour (get step "behaviour") }
  | "leave_sessions" => t.modifyNode step fun n => { n with sessions := .empty }
  | "reset_ledger" => t.modifyNode step fun n => { n with ledger := {} }
  | "received" => (t.received step, t)
  | "history" => (.list recordShown t.experiment.history, t)
  | "checkpoint" =>
    (checkpointShown (flagAt step "anonymous")
      (t.experiment.checkpoint (t.frame.surroundings.now t.world)), t)
  | "save" => t.save
  | "restore" =>
    match t.restore step with
    | .ok t => (.null, t)
    | .error e => (e, t)
  | _ =>
    match t.configure? step with
    | some (.ok experiment) => (.null, { t with experiment })
    | some (.error e) => (experimentFailure e, t)
    | none => (.null, t)

def step (t : Trial) (j : Json) : Json × Trial :=
  let (result, after) := t.advance j
  (.obj [("result", result), ("state", .obj (changes (trialState t) (trialState after)))], after)

end Trial

/-- The outcome of a trial. If the experiment cannot be built that is all. -/
def trial (j : Json) : Json :=
  match Trial.start (get j "config") with
  | .error e => e
  | .ok t =>
    let built := Json.obj [("result", .str "built"), ("state", .obj (trialState t))]
    .obj [("steps", .arr (built :: play Trial.step t (listAt j "steps")))]

end Federation.Scenario
