import Federation.Experiment.Basic
/-!
# Configuring an experiment

An experiment can be reconfigured between its rounds. Each change is checked first; one that is
refused gives no experiment, so the old one stays as it was.
-/

namespace Federation

namespace Experiment

variable {R : Type}

/-! ## Training data -/

/-- Takes over a dataset that was resolved from a query and a filter. What is known of other nodes is
forgotten, and the new data has to be checked. -/
def withDataset (x : Experiment R) (query : DatasetQuery) (nodes : Option NameSet)
    (dataset : FederatedDataset) : Experiment R :=
  { x with
    query, nodes, dataset
    dataChecked := false
    nodeStates := x.nodeStates.retain dataset.contains
    secagg := x.secagg.clear }

def resolve (catalog : Catalog) (x : Experiment R) (query : DatasetQuery) (nodes : Option NameSet) :
    Except (ExperimentError R) (Experiment R) :=
  match FederatedDataset.resolve catalog query nodes with
  | .error e => .error (.dataset e)
  | .ok dataset => .ok (x.withDataset query nodes dataset)

def setTags (catalog : Catalog) (x : Experiment R) (tags : NameSet) :
    Except (ExperimentError R) (Experiment R) :=
  x.resolve catalog (.tags tags) x.nodes

/-- Restricts the experiment to some nodes, or to none. -/
def setNodes (catalog : Catalog) (x : Experiment R) (nodes : Option NameSet) :
    Except (ExperimentError R) (Experiment R) :=
  x.resolve catalog x.query nodes

/-- Gives the dataset of each node explicitly. -/
def setTrainingData (catalog : Catalog) (x : Experiment R) (data : NameMap DatasetMetadata) :
    Except (ExperimentError R) (Experiment R) :=
  x.resolve catalog (.explicit data) x.nodes

def setAvailability (x : Experiment R) (node : NodeId) (available : Bool) :
    Except (ExperimentError R) (Experiment R) :=
  if x.dataset.contains node then
    .ok { x with dataset := x.dataset.withAvailability node available }
  else .error (.configuration (.unknownNode node))

/-! ## Rounds -/

def setRoundLimit (x : Experiment R) (limit : RoundNumber) :
    Except (ExperimentError R) (Experiment R) :=
  if limit < x.roundCurrent then .error (.configuration (.limitBelow limit x.roundCurrent))
  else .ok { x with roundLimit := limit }

def setRoundTimeout (x : Experiment R) (timeout : Duration) :
    Except (ExperimentError R) (Experiment R) :=
  if timeout = Duration.zero then .error (.configuration .zeroTimeout)
  else .ok { x with roundTimeout := timeout }

def setStrategy (x : Experiment R) (strategy : Strategy R) : Experiment R := { x with strategy }

/-! ## Training and aggregation -/

section

variable [Scalar R]

def setTrainingArgs (x : Experiment R) (args : TrainingArgs R) :
    Except (ExperimentError R) (Experiment R) :=
  match x.aggregator.checkPreconditions args x.secagg.enabled with
  | .error e => .error (.precondition e)
  | .ok () => .ok { x with trainingArgs := args }

def setAggregator (x : Experiment R) (aggregator : Aggregator R) :
    Except (ExperimentError R) (Experiment R) :=
  match aggregator.checkPreconditions x.trainingArgs x.secagg.enabled with
  | .error e => .error (.precondition e)
  | .ok () => .ok { x with aggregator }

def setOptimizer (x : Experiment R) (optimizer : Optimizer R) :
    Except (ExperimentError R) (Experiment R) :=
  match optimizer.checkPreconditions with
  | .error e => .error (.precondition e)
  | .ok () => .ok { x with optimizer }

def setSecureAggregation (x : Experiment R) (enabled : Bool) :
    Except (ExperimentError R) (Experiment R) :=
  match x.aggregator.checkPreconditions x.trainingArgs enabled with
  | .error e => .error (.precondition e)
  | .ok () => .ok { x with secagg := x.secagg.setEnabled enabled }

end

def setModelArgs (x : Experiment R) (args : ModelArgs) : Experiment R := { x with modelArgs := args }

end Experiment

end Federation
