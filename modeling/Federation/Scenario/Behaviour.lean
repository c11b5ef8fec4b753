import Federation.Scenario.Values
/-!
# Behaviour of simulated nodes

A scenario says how each node trains, how long it takes, how it joins sessions, and which of the
things that an honest node never does it does nevertheless.
-/

namespace Federation.Scenario

inductive Training where
  -- It never replies.
  | silent
  | failing (e : NodeError)
  -- All its values become the same.
  | constant (x : Float)
  -- A number is added to every value.
  | shift (x : Float)
  | fixed (p : Parameters Float)

/-- The parameters that a node trains from the given ones, if it trains at all. -/
def Training.result? (global : Parameters Float) : Training → Option (Parameters Float)
  | .silent | .failing _ => none
  | .constant x => some (global.map fun _ => x)
  | .shift x => some (global.map (· + x))
  | .fixed p => some p

inductive Attendance where
  | joins
  -- It joins but keeps its public key to itself.
  | withoutKey
  | refuses
  -- It never replies.
  | ignores

/-- What a node changes in a reply before it sends it. -/
structure Alteration where
  -- Whether the reply belongs to another attempt of the round.
  staleRequest : Bool
  stateId : Option StateId
  roundNumber : Option RoundNumber
  experimentId : Option ExperimentId
  dropsParams : Bool
  addsError : Bool
  deniesSuccess : Bool

namespace Alteration

def addedError : NodeError := ⟨.other, "odd"⟩

def apply (a : Alteration) (r : WorkReply Float) : WorkReply Float :=
  { r with
    requestId := if a.staleRequest then r.requestId + 1 else r.requestId
    stateId := a.stateId.getD r.stateId
    roundNumber := a.roundNumber.getD r.roundNumber
    experimentId := a.experimentId.getD r.experimentId
    params := if a.dropsParams then none else r.params
    error := if a.addsError then some addedError else r.error
    success := r.success && !a.deniesSuccess }

end Alteration

structure Behaviour where
  training : Training
  -- The milliseconds it takes to train.
  delay : Nat
  attendance : Attendance
  -- The milliseconds it takes to join a session.
  joiningDelay : Nat
  sampleCount : UInt64
  -- The weight with which the node masks its parameters.
  maskWeight : UInt64
  -- Whether the node sends plain parameters in secure rounds.
  neverMasks : Bool
  -- Whether the node sends a masked vector in plain rounds.
  alwaysMasks : Bool
  auxVars : AuxVars Float
  timing : Timing Float
  metrics : Metrics Float
  alteration : Alteration
  -- Whether a channel that is built now reaches the node.
  isReachable : Bool

/-! ## Behaviours in documents -/

def training (j : Json) : Training :=
  match textAt j "kind" with
  | "silent" => .silent
  | "fail" =>
    .failing ⟨(optional j "error" (NodeErrorKind.ofJson? .direct)).join.getD .training,
      textOr "simulated failure" j "message"⟩
  | "constant" => .constant (floatAt j "value")
  | "params" => .fixed (params (get j "params"))
  | _ => .shift (floatAt j "value")

def attendance (j : Json) : Attendance :=
  match textAt j "setup" with
  | "no_key" => .withoutKey
  | "refuse" => .refuses
  | "silent" => .ignores
  | _ => .joins

def alteration (j : Json) : Alteration where
  staleRequest := flagAt j "stale_request"
  stateId := optional j "reply_state" word
  roundNumber := optional j "reply_round" word
  experimentId := optional j "reply_experiment" text
  dropsParams := flagAt j "drop_params"
  addsError := flagAt j "add_error"
  deniesSuccess := flagAt j "unsuccessful"

def behaviour (j : Json) : Behaviour where
  training := training j
  delay := (wordAt j "delay_ms").toNat
  attendance := attendance j
  joiningDelay := (wordAt j "setup_delay_ms").toNat
  sampleCount := wordAt j "samples"
  maskWeight := wordOr (wordAt j "samples") j "mask_samples"
  neverMasks := flagAt j "plain"
  alwaysMasks := flagAt j "masked"
  auxVars := auxVars (get j "aux_vars")
  timing := ⟨floatAt j "rtime", floatAt j "ptime"⟩
  metrics := map float (get j "metrics")
  alteration := alteration j
  isReachable := !flagAt j "unreachable"

end Federation.Scenario
