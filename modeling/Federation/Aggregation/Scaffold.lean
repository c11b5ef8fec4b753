import Federation.Aggregation.Basic
/-!
# Stochastic controlled averaging

Each node `i` has a control variate `c_i` and the controller has the global one, `c`. With `x` the
global parameters before a round, `y_i` the parameters which node `i` returns after `K` local updates
at the learning rate `lr`, `w_i` its share of the samples and `N` the size of the federation, a round
sets

```text
x   := x + server_lr * sum_i w_i (y_i - x)
c_i := c_i - c + (x - y_i) / (K * lr)
c   := c + sum_i (c_i' - c_i) / N
```

where the sums run over the participants. Every node receives the correction `c - c_i` with its
request. Control variates are zero at first.
-/

namespace Federation

structure Scaffold (R : Type) where
  -- The global learning rate.
  serverLr : R
  -- The global control variate, missing until the first round completes.
  globalControl : Option (Parameters R) := none

namespace Scaffold

def name : String := "Scaffold"

def correction : String := "correction"

variable {R : Type} [Scalar R]

/-- Requires plain aggregation, a fixed number of local updates and a positive learning rate. -/
def checkPreconditions (args : TrainingArgs R) (secure : Bool) : Except PreconditionError Unit :=
  if secure then .error (.secureAggregation name)
  else if !args.numUpdates.any (0 < ·) then .error (.fixedIterations name)
  else if !args.learningRate.any Scalar.isPositive then .error (.learningRate name)
  else .ok ()

/-- A control variate, zero if it is missing. -/
def controlOrZero (control : Option (Parameters R)) (global : Parameters R) : Parameters R :=
  control.getD global.zerosLike

def auxVarsFor (s : Scaffold R) (node : NodeId) (states : NodeStates R) (global : Parameters R) :
    Except AggregationError (AuxVars R) := do
  let c := controlOrZero s.globalControl global
  let ci := controlOrZero (states.stateFor node).controlVariate global
  let d ← (c.zipWith ci fun a b => a - b).mapError (.shapeMismatch node)
  return SortedMap.empty.insert correction d

/-- The quantities that a round fixes before it visits the nodes. -/
structure Step (R : Type) where
  total : UInt64
  -- The parameters before the round.
  x : Parameters R
  -- The global control variate before the round.
  c : Parameters R
  -- The product of the local learning rate and the number of local updates.
  localStep : R
  serverLr : R
  -- The part of a change of control variates that counts for the global one.
  part : R
  states : NodeStates R

structure Progress (R : Type) where
  global : Parameters R
  controlChange : Parameters R
  -- The new states of the nodes visited, the latest one first.
  states : List (NodeId × NodeState R)

def visit (t : Step R) (p : Progress R) (node : NodeId) (u : NodeUpdate R) :
    Except ShapeError (Progress R) := do
  let delta ← u.params.zipWith t.x fun y x => y - x
  let global ← p.global.addScaled (t.serverLr * u.share t.total) delta
  let prior := t.states.stateFor node
  let ci := controlOrZero prior.controlVariate t.x
  let drift ← t.x.zipWith u.params fun x y => (x - y) / t.localStep
  let difference ← ci.zipWith t.c fun ci c => ci - c
  let new ← difference.zipWith drift fun a b => a + b
  let change ← new.zipWith ci fun new old => new - old
  let controlChange ← p.controlChange.addScaled t.part change
  return ⟨global, controlChange, (node, { prior with controlVariate := some new }) :: p.states⟩

def visitAll (t : Step R) : List (NodeId × NodeUpdate R) → Progress R →
    Except AggregationError (Progress R)
  | [], p => .ok p
  | (node, u) :: rest, p => do
    let p ← (visit t p node u).mapError (.shapeMismatch node)
    visitAll t rest p

def aggregate (s : Scaffold R) (i : AggregationInput R) :
    Except AggregationError (Combined R × Scaffold R) := do
  let some updates := i.trainingArgs.numUpdates.filter (0 < ·)
    | throw (.missingTrainingArg "num_updates")
  let some lr := i.trainingArgs.learningRate | throw (.missingTrainingArg "learning_rate")
  let total ← totalSamples i.results
  checkShapes i.results i.previous
  let c := controlOrZero s.globalControl i.previous
  let size := max i.federationSize i.results.size
  let t : Step R :=
    { total, x := i.previous, c, localStep := Scalar.ofCount updates * lr, serverLr := s.serverLr
      part := 1 / Scalar.ofInt size, states := i.nodeStates }
  let p ← visitAll t i.results.toList ⟨i.previous, i.previous.zerosLike, []⟩
  let control ← (c.zipWith p.controlChange fun c d => c + d).mapError (.shapeMismatch "controller")
  return (⟨p.global, .ofList p.states⟩, { s with globalControl := some control })

end Scaffold

end Federation
