import Federation.Failure
import Federation.SortedMap
/-!
# Stores of checkpoints

A store keeps the documents of checkpoints under the identifier of an experiment and the number of
rounds it had completed. It may fail at any call.
-/

namespace Federation

structure CheckpointId where
  experimentId : ExperimentId
  -- The number of completed rounds.
  round : RoundNumber
  deriving DecidableEq

def CheckpointId.label (id : CheckpointId) : String :=
  s!"{id.experimentId}/round_{id.round}"

inductive SystemError where
  | notFound
  | alreadyExists
  | notADirectory
  | isADirectory
  | nameTooLong
  | invalidName
  deriving DecidableEq

def SystemError.text : SystemError → String
  | .notFound => "No such file or directory (os error 2)"
  | .alreadyExists => "File exists (os error 17)"
  | .notADirectory => "Not a directory (os error 20)"
  | .isADirectory => "Is a directory (os error 21)"
  | .nameTooLong => "File name too long (os error 36)"
  | .invalidName => "file name contained an unexpected NUL byte"

inductive StorageError where
  -- For a reason of its own.
  | refused (reason : String)
  -- Because the operating system failed. The context says what was attempted.
  | system (context : String) (e : SystemError)
  deriving DecidableEq

instance : Failure StorageError where
  kind _ := "Storage"
  message?
    | .refused reason => some reason
    | .system .. => none

namespace StorageError

/-- The wording of an error and of its cause, the cause last. -/
def causes : StorageError → List String
  | .refused reason => [reason]
  | .system context e => [context, e.text]

end StorageError

/-- A store whose content is part of a state. -/
structure Store (σ : Type) where
  -- Stores a document, replacing an earlier one of the same name.
  set : CheckpointId → String → σ → Except StorageError Unit × σ
  -- The document of a checkpoint.
  get : CheckpointId → σ → Except StorageError (Option String)
  -- The checkpoint of an experiment with the most rounds.
  latest : ExperimentId → σ → Except StorageError (Option CheckpointId)
  -- Makes sure that the store can be used.
  prepare : σ → Except StorageError Unit × σ

end Federation
