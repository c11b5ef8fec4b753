import Federation.Aggregation.Aggregator
import Federation.Message.Codec
import Federation.Optimizer
/-!
# Aggregators and optimizers as JSON

Both are named by their kind and carry their state.
-/

namespace Federation

namespace Aggregator

def toJson : Aggregator Float → Json
  | .fedAverage => .case "FedAverage" .null
  | .scaffold s =>
    .case "Scaffold" (.obj [("server_lr", .float s.serverLr),
      ("global_control", .option Parameters.toJson s.globalControl)])

def scaffoldOfJson? (j : Json) : Option (Scaffold Float) := do
  let r ← j.asRecord? ["server_lr", "global_control"] false
  return {
    serverLr := ← r.required "server_lr" Json.asFloat?
    globalControl := ← r.nullable "global_control" Parameters.ofJson? }

def ofJson? (j : Json) : Option (Aggregator Float) := do
  let (name, content) ← j.asChoice?
  let content ← content
  if name = "FedAverage" then
    match content with
    | .null => return .fedAverage
    | _ => none
  else if name = "Scaffold" then return .scaffold (← scaffoldOfJson? content)
  else none

end Aggregator

namespace Momentum

def toJson (m : Momentum Float) : Json :=
  .obj [("learning_rate", .float m.learningRate), ("beta", .float m.beta),
    ("velocity", .option Parameters.toJson m.velocity)]

def ofJson? (j : Json) : Option (Momentum Float) := do
  let r ← j.asRecord? ["learning_rate", "beta", "velocity"] false
  return {
    learningRate := ← r.required "learning_rate" Json.asFloat?
    beta := ← r.required "beta" Json.asFloat?
    velocity := ← r.optional "velocity" Parameters.ofJson? }

end Momentum

namespace Adaptive

def toJson (a : Adaptive Float) : Json :=
  .obj [("learning_rate", .float a.learningRate), ("beta1", .float a.beta1),
    ("beta2", .float a.beta2), ("epsilon", .float a.epsilon), ("step", .word a.step),
    ("first_moment", .option Parameters.toJson a.firstMoment),
    ("second_moment", .option Parameters.toJson a.secondMoment)]

def ofJson? (j : Json) : Option (Adaptive Float) := do
  let r ← j.asRecord? ["learning_rate", "beta1", "beta2", "epsilon", "step", "first_moment",
    "second_moment"] false
  return {
    learningRate := ← r.required "learning_rate" Json.asFloat?
    beta1 := ← r.required "beta1" Json.asFloat?
    beta2 := ← r.required "beta2" Json.asFloat?
    epsilon := ← r.required "epsilon" Json.asFloat?
    step := ← r.withDefault "step" 0 Json.asWord?
    firstMoment := ← r.optional "first_moment" Parameters.ofJson?
    secondMoment := ← r.optional "second_moment" Parameters.ofJson? }

end Adaptive

namespace Optimizer

def toJson (o : Optimizer Float) : Json :=
  .case o.name (match o with
    | .sgd lr => .obj [("learning_rate", .float lr)]
    | .momentum m => m.toJson
    | .adam a | .yogi a => a.toJson)

def sgdOfJson? (j : Json) : Option Float := do
  let r ← j.asRecord? ["learning_rate"] false
  r.required "learning_rate" Json.asFloat?

def ofJson? (j : Json) : Option (Optimizer Float) := do
  let (name, content) ← j.asChoice?
  let content ← content
  if name = "Sgd" then return .sgd (← sgdOfJson? content)
  else if name = "Momentum" then return .momentum (← Momentum.ofJson? content)
  else if name = "Adam" then return .adam (← Adaptive.ofJson? content)
  else if name = "Yogi" then return .yogi (← Adaptive.ofJson? content)
  else none

end Optimizer

end Federation
