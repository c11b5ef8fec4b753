import Federation.Link
import Federation.Secagg.Basic
/-!
# Setup of a session

To set up a session the controller asks every party to join and waits until all of them have, each
with a public key. Whatever does not belong to the setup is skipped. A refusal, a reply without key
or the deadline fail it, and then there is no session.
-/

namespace Federation

structure Joining where
  experimentId : ExperimentId
  sessionId : String
  -- The parties that have not joined yet.
  pending : NameSet
  publicKeys : NameMap Crypto.Key

namespace Joining

variable {R : Type}

/-- Takes a setup reply. One of another session, or of a node that is not awaited, is skipped. -/
def take (j : Joining) (r : SetupReply) : Except (SecaggError R) Joining :=
  if r.experimentId ≠ j.experimentId ∨ r.sessionId ≠ j.sessionId ∨ !j.pending.contains r.nodeId then
    .ok j
  else if !r.success then
    .error (.setupRefused r.nodeId ((r.error.map (·.message)).getD ""))
  else
    match r.publicKey with
    | none => .error (.missingPublicKey r.nodeId)
    | some key =>
      .ok { j with
        pending := j.pending.erase r.nodeId, publicKeys := j.publicKeys.insert r.nodeId key }

/-- Takes observations until all parties have joined, and counts those it took. -/
def run (ending : Ending) : List (Observation R) → Joining →
    Except (Stop (SecaggError R)) Joining × Nat
  | observed, j =>
    if j.pending.isEmpty then (.ok j, 0)
    else
      match observed with
      | [] =>
        (.error (match ending with
          | .deadline => .failed (.setupTimeout j.pending.keys)
          | .abandoned => .abandoned), 1)
      | .closed :: _ => (.error (.failed .replyChannel), 1)
      | .reply (.setup r) _ :: rest =>
        match j.take r with
        | .error e => (.error (.failed e), 1)
        | .ok j =>
          let (result, n) := run ending rest j
          (result, n + 1)
      | .reply (.train _) _ :: rest | .cancelled :: rest =>
        let (result, n) := run ending rest j
        (result, n + 1)

end Joining

namespace SecureAggregation

variable {R σ : Type}

/-- The requests that ask the parties to join a session, in ascending order of the parties. -/
def setupRequests (researcher : ResearcherId) (experiment : ExperimentId) (sessionId : String)
    (parties : NameSet) : List (Request R) :=
  parties.keys.map fun node => .setup ⟨researcher, experiment, sessionId, node, parties.keys⟩

/-- Makes sure that there is a session of exactly the given parties. The name is for a new one. -/
def setup (l : Link R σ) (s : SecureAggregation R) (researcher : ResearcherId)
    (experiment : ExperimentId) (sessionId : String) (parties : NameSet) (world : σ) :
    Except (Stop (SecaggError R)) SecaggSession × SecureAggregation R × σ :=
  match s.reusable? parties with
  | some session => (.ok session, s, world)
  | none =>
    let s := s.clear
    let (failure, world) := l.broadcast (setupRequests researcher experiment sessionId parties) world
    match failure with
    | some (node, reason) => (.error (.failed (.setupDispatch node reason)), s, world)
    | none =>
      let w := l.watch s.timeout world
      let (result, n) := Joining.run w.ending w.observed ⟨experiment, sessionId, parties, .empty⟩
      let world := l.advance s.timeout n world
      match result with
      | .error e => (.error e, s, world)
      | .ok j =>
        let session : SecaggSession := ⟨sessionId, parties.keys, j.publicKeys⟩
        (.ok session, { s with session := some session }, world)

end SecureAggregation

end Federation
