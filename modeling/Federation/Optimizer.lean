import Federation.Aggregation.Basic
/-!
# Server optimizers

A server optimizer takes the difference between the global parameters before a round and the
aggregated ones as a gradient and applies it to the former. The moments of an optimizer are part of
it, and a step returns its successor. Plain descent at the rate one keeps the aggregated parameters.
-/

namespace Federation

structure Momentum (R : Type) where
  learningRate : R
  beta : R
  -- The accumulated gradients, missing before the first step.
  velocity : Option (Parameters R) := none

/-- Descent at rates that adapt to the second moment of the gradients. -/
structure Adaptive (R : Type) where
  learningRate : R
  beta1 : R
  beta2 : R
  epsilon : R
  -- The number of steps taken.
  step : UInt64 := 0
  firstMoment : Option (Parameters R) := none
  secondMoment : Option (Parameters R) := none

inductive Optimizer (R : Type) where
  | sgd (learningRate : R)
  | momentum (m : Momentum R)
  | adam (a : Adaptive R)
  | yogi (a : Adaptive R)

/-- How the second moment of an adaptive optimizer follows the squared gradients. -/
inductive SecondMomentRule where
  -- Exponential decay towards them.
  | decay
  -- Steps in the direction of them, of a size that does not depend on the distance.
  | signed
  deriving DecidableEq

variable {R : Type}

def Scalar.sign [Scalar R] (x : R) : R := if 0 < x then 1 else if x < 0 then -1 else 0

namespace Momentum

def apply [Scalar R] (m : Momentum R) (previous gradient : Parameters R) :
    Except ShapeError (Parameters R × Momentum R) := do
  let velocity ← match m.velocity with
    | some v => v.zipWith gradient fun v g => m.beta * v + g
    | none => pure gradient
  let global ← previous.zipWith velocity fun p v => p - m.learningRate * v
  return (global, { m with velocity := some velocity })

end Momentum

namespace Adaptive

/-- The first moment after a gradient. -/
def nextFirst [Scalar R] (a : Adaptive R) (gradient : Parameters R) :
    Except ShapeError (Parameters R) :=
  match a.firstMoment with
  | some m => m.zipWith gradient fun m g => a.beta1 * m + (1 - a.beta1) * g
  | none => .ok (gradient.map fun g => (1 - a.beta1) * g)

def nextSecond [Scalar R] (a : Adaptive R) (rule : SecondMomentRule) (gradient : Parameters R) :
    Except ShapeError (Parameters R) :=
  let squared := gradient.map fun g => g * g
  match a.secondMoment, rule with
  | some v, .signed =>
    v.zipWith squared fun v g => v - (1 - a.beta2) * g * Scalar.sign (v - g)
  | some v, .decay => v.zipWith squared fun v g => a.beta2 * v + (1 - a.beta2) * g
  | none, _ => .ok (squared.map fun g => (1 - a.beta2) * g)

/-- The number of the next step, which stops at the greatest word. -/
def nextStep (a : Adaptive R) : UInt64 := if a.step.toNat + 1 < UInt64.size then a.step + 1 else a.step

/-- What is subtracted from a parameter, from the moments and the corrections of their bias. -/
def change [RootScalar R] (a : Adaptive R) (correction1 correction2 m v : R) : R :=
  a.learningRate * (m / correction1) / (RootScalar.sqrt (v / correction2) + a.epsilon)

/-- Updates both moments with a gradient and follows the first one, scaled by the second one. -/
def apply [RootScalar R] (a : Adaptive R) (rule : SecondMomentRule) (previous gradient : Parameters R) :
    Except ShapeError (Parameters R × Adaptive R) := do
  let step := a.nextStep
  let first ← a.nextFirst gradient
  let second ← a.nextSecond rule gradient
  let correction1 := 1 - RootScalar.power a.beta1 step
  let correction2 := 1 - RootScalar.power a.beta2 step
  let update ← first.zipWith second (a.change correction1 correction2)
  let global ← previous.zipWith update fun p u => p - u
  return (global, { a with step, firstMoment := some first, secondMoment := some second })

end Adaptive

namespace Optimizer

def name : Optimizer R → String
  | .sgd _ => "Sgd"
  | .momentum _ => "Momentum"
  | .adam _ => "Adam"
  | .yogi _ => "Yogi"

def state : Optimizer R → List (Parameters R)
  | .sgd _ => []
  | .momentum m => m.velocity.toList
  | .adam a | .yogi a => a.firstMoment.toList ++ a.secondMoment.toList

def identity [One R] : Optimizer R := .sgd 1

def isRate [Scalar R] (x : R) : Bool := !decide (x < 0) && decide (x < 1)

/-- Whether the hyperparameters are in range: a positive learning rate, decay rates from zero to below
one, and a positive epsilon. -/
def isValid [Scalar R] : Optimizer R → Bool
  | .sgd lr => Scalar.isPositive lr
  | .momentum m => Scalar.isPositive m.learningRate && isRate m.beta
  | .adam a | .yogi a =>
    Scalar.isPositive a.learningRate && isRate a.beta1 && isRate a.beta2 && Scalar.isPositive a.epsilon

def checkPreconditions [Scalar R] (o : Optimizer R) : Except PreconditionError Unit :=
  if o.isValid then .ok () else .error (.optimizer o.name)

/-- A step of plain descent. At the rate one it does not compute the difference. -/
def descend [Scalar R] (lr : R) (previous aggregated : Parameters R) :
    Except ShapeError (Parameters R) :=
  if lr == 1 then (previous.checkShape aggregated).map fun _ => aggregated
  else previous.zipWith aggregated fun p a => p - lr * (p - a)

/-- A step without the check of its result. -/
def follow [RootScalar R] (o : Optimizer R) (previous aggregated : Parameters R) :
    Except ShapeError (Parameters R × Optimizer R) :=
  let gradient := previous.zipWith aggregated fun p a => p - a
  match o with
  | .sgd lr => (descend lr previous aggregated).map (·, o)
  | .momentum m => do
    let (global, m) ← m.apply previous (← gradient)
    return (global, .momentum m)
  | .adam a => do
    let (global, a) ← a.apply .decay previous (← gradient)
    return (global, .adam a)
  | .yogi a => do
    let (global, a) ← a.apply .signed previous (← gradient)
    return (global, .yogi a)

/-- Applies the aggregated parameters of a round. The new parameters are finite. -/
def step [RootScalar R] (o : Optimizer R) (previous aggregated : Parameters R) :
    Except AggregationError (Parameters R × Optimizer R) := do
  let (global, next) ← (o.follow previous aggregated).mapError .optimizerState
  if !global.isFinite then throw .nonFinite
  return (global, next)

end Optimizer

end Federation
