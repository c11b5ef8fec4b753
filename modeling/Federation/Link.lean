import Federation.Duration
import Federation.Message.Basic
/-!
# The link to the nodes

A controller sends requests and then watches for replies until a deadline. All it learns of its
surroundings meanwhile is the list of its observations, in the order in which it takes them: a reply,
that no reply can arrive any more, or that the round was cancelled. If nothing it observes ends the
wait, the deadline does.

A `Link` is what a controller needs of its surroundings to do so. The surroundings are a state of any
type; the controller says how many observations it took, and the link gives the state after them.
-/

namespace Federation

inductive Observation (R : Type) where
  -- A reply, with the time since the requests were sent.
  | reply (r : Reply R) (elapsed : Duration)
  -- No reply can arrive any more.
  | closed
  -- The round was cancelled.
  | cancelled

/-- How a wait ends if no observation ends it. -/
inductive Ending where
  | deadline
  -- The controller is stopped from outside and never goes on.
  | abandoned
  deriving DecidableEq

/-- What a controller observes in a wait, and how the wait ends. -/
structure Watch (R : Type) where
  observed : List (Observation R)
  ending : Ending := .deadline

inductive Stop (ε : Type) where
  | failed (e : ε)
  -- It was stopped from outside.
  | abandoned

/-- The connection of a controller to its nodes, in surroundings of type `σ`. -/
structure Link (R σ : Type) where
  -- Sends a request, or gives the reason why it cannot be sent.
  send : Request R → σ → Option String × σ
  -- What will be observed within a time from now on.
  watch : Duration → σ → Watch R
  -- The surroundings after the given number of observations of that watch, or after its end if the
  -- number exceeds them.
  advance : Duration → Nat → σ → σ
  -- Discards the replies that have arrived, and tells whether more can arrive.
  purge : σ → Bool × σ
  -- From now on a cancellation is observed. An earlier one is not.
  arm : σ → σ

namespace Link

variable {R σ : Type}

/-- Sends requests one after the other, a failed one as well as all others. The failures are listed
in the order of the requests. -/
def sendAll (l : Link R σ) : List (Request R) → σ → List (NodeId × String) × σ
  | [], s => ([], s)
  | q :: rest, s =>
    let (failure, s) := l.send q s
    let (failures, s) := l.sendAll rest s
    (match failure with
      | some reason => (q.nodeId, reason) :: failures
      | none => failures, s)

/-- The first failure of the smallest node. -/
def firstFailure : List (NodeId × String) → Option (NodeId × String)
  | [] => none
  | f :: rest =>
    match firstFailure rest with
    | some g => if g.1 < f.1 then some g else some f
    | none => some f

def broadcast (l : Link R σ) (requests : List (Request R)) (s : σ) : Option (NodeId × String) × σ :=
  let (failures, s) := l.sendAll requests s
  (firstFailure failures, s)

end Link

end Federation
