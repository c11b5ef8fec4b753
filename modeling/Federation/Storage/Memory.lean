import Federation.Storage.Basic
/-!
# Stores without files

A store in memory, and a store that keeps nothing.
-/

namespace Federation

/-- The documents of each experiment by the number of rounds. -/
structure Memory where
  documents : NameMap (SortedMap RoundNumber String) := .empty

namespace Memory

def ofExperiment (m : Memory) (experiment : ExperimentId) : SortedMap RoundNumber String :=
  (m.documents.find? experiment).getD .empty

/-- The names of all documents in ascending order. -/
def ids (m : Memory) : List CheckpointId :=
  m.documents.toList.flatMap fun (experiment, l) => l.keys.map fun round => ⟨experiment, round⟩

def set (m : Memory) (id : CheckpointId) (document : String) : Memory :=
  ⟨m.documents.insert id.experimentId ((m.ofExperiment id.experimentId).insert id.round document)⟩

def get (m : Memory) (id : CheckpointId) : Option String :=
  (m.ofExperiment id.experimentId).find? id.round

def latest (m : Memory) (experiment : ExperimentId) : Option CheckpointId :=
  (m.ofExperiment experiment).last?.map fun e => ⟨experiment, e.1⟩

/-- The store in memory. It never fails. -/
def store : Store Memory where
  set id document m := (.ok (), m.set id document)
  get id m := .ok (m.get id)
  latest experiment m := .ok (m.latest experiment)
  prepare m := (.ok (), m)

end Memory

/-- A store that accepts every document and keeps none. -/
def Store.discarding {σ : Type} : Store σ where
  set _ _ s := (.ok (), s)
  get _ _ := .error (.refused "No-op checkpoint store")
  latest _ _ := .ok none
  prepare s := (.ok (), s)

end Federation
