import Federation.Checkpoint.Codec
/-!
# Saving and loading checkpoints

What a store keeps are documents. A checkpoint is checked before it is written and after it is read,
and a document that was put under another name is refused.
-/

namespace Federation

namespace Checkpoint

def save {σ : Type} (store : Store σ) (c : Checkpoint Float) (s : σ) :
    Except CheckpointError CheckpointId × σ :=
  match c.validate with
  | .error e => (.error e, s)
  | .ok () =>
    let (r, s) := store.set c.id c.encode s
    (r.mapError CheckpointError.storage |>.map fun () => c.id, s)

/-- The name under which a checkpoint is looked up: that of the given round, or of the latest one. -/
def find {σ : Type} (store : Store σ) (experiment : ExperimentId) (round : Option RoundNumber) (s : σ) :
    Except CheckpointError CheckpointId :=
  match round with
  | some round => .ok ⟨experiment, round⟩
  | none => do
    match ← (store.latest experiment s).mapError .storage with
    | some id => return id
    | none => throw (.notFound experiment)

def ofStored (id : CheckpointId) (document : String) : Except CheckpointError (Checkpoint Float) := do
  let c ← decode document
  c.validate
  if c.id ≠ id then throw (.inconsistent (.misplaced c.id id))
  return c

/-- Loads the checkpoint of an experiment after the given number of rounds, or the latest one. -/
def load {σ : Type} (store : Store σ) (experiment : ExperimentId) (round : Option RoundNumber) (s : σ) :
    Except CheckpointError (Checkpoint Float) := do
  let id ← find store experiment round s
  match ← (store.get id s).mapError .storage with
  | some document => ofStored id document
  | none => throw (.notFound id.label)

end Checkpoint

end Federation
