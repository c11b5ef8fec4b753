import Federation.Aggregation.Basic
/-!
# Federated averaging

The new global parameters are the mean of the returned parameters, weighted by the sample counts.
-/

namespace Federation.FedAverage

def name : String := "FedAverage"

variable {R : Type} [Scalar R]

/-- Adds the weighted parameters of the nodes to a sum, one node after the other. -/
def accumulate (total : UInt64) : List (NodeId × NodeUpdate R) → Parameters R →
    Except AggregationError (Parameters R)
  | [], sum => .ok sum
  | (node, u) :: rest, sum => do
    let sum ← (sum.addScaled (u.share total) u.params).mapError (.shapeMismatch node)
    accumulate total rest sum

def aggregate (i : AggregationInput R) : Except AggregationError (Combined R) := do
  let total ← totalSamples i.results
  checkShapes i.results i.previous
  let global ← accumulate total i.results.toList i.previous.zerosLike
  return ⟨global, carryOver i.results.keys i.nodeStates⟩

end Federation.FedAverage
