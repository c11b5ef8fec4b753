import Federation.Link
import Federation.Round.Context
/-!
# Collecting the replies of a round

A round awaits one reply of each participant. It discards what does not belong to it: setup replies,
replies of other experiments, rounds and attempts, of nodes that are not awaited, and for other
states. The first other reply of a node is accepted or fails the round. Once every participant has
replied the results are aggregated.
-/

namespace Federation

structure Collecting (R : Type) where
  -- The participants that have not replied yet, with the states they continue from.
  pending : NameMap StateId
  -- The accepted replies and the seconds they took.
  received : NameMap (WorkReply R × R)

namespace Collecting

variable {R : Type}

def start (c : RoundContext R) : Collecting R :=
  ⟨c.participants.map fun _ p => p.stateId, .empty⟩

def awaits (c : RoundContext R) (s : Collecting R) (r : WorkReply R) : Bool :=
  r.experimentId == c.experimentId && r.roundNumber == c.roundNumber && r.requestId == c.requestId
    && s.pending.find? r.nodeId == some r.stateId

def nodeFailure (secure : Bool) (node : NodeId) (e : NodeError) : RoundError R :=
  if secure then .secureAggregation (.quorumNotMet [node])
  else if e.kind = .stateMismatch then .stateMismatch node e.message
  else .nodeTraining node e.message

/-- Refuses an awaited reply that is inconsistent, that reports a failure, or whose parameters are
masked in a plain round or plain in a secure one. -/
def check (secure : Bool) (r : WorkReply R) : Except (RoundError R) Unit :=
  match r.validate with
  | .error e => .error (.protocolMismatch r.nodeId (Failure.message e))
  | .ok () =>
    if !r.success then .error (nodeFailure secure r.nodeId (r.error.getD ⟨.other, ""⟩))
    else
      match secure, r.params with
      | false, some (.plain _) => .ok ()
      | true, some (.masked _) => .ok ()
      | false, _ => .error (.protocolMismatch r.nodeId "expected plain parameters")
      | true, _ => .error (.protocolMismatch r.nodeId "expected masked parameters")

variable [Scalar R]

def handle (c : RoundContext R) (s : Collecting R) (r : Reply R) (elapsed : Duration) :
    Except (RoundError R) (Collecting R) :=
  match r with
  | .setup _ => .ok s
  | .train r =>
    if !awaits c s r then .ok s
    else
      (check c.secagg.isSome r).map fun () =>
        { pending := s.pending.erase r.nodeId
          received := s.received.insert r.nodeId (r, elapsed.toSeconds) }

/-- How the deadline fails the round. The masks of a secure round cancel only over all parties. -/
def expired (c : RoundContext R) (s : Collecting R) : RoundError R :=
  if c.secagg.isSome then .secureAggregation (.quorumNotMet s.pending.keys)
  else .nodeTimeout s.pending.keys

/-- Takes observations until every participant has replied, and counts those it took. -/
def run (c : RoundContext R) (ending : Ending) : List (Observation R) → Collecting R →
    Except (Stop (RoundError R)) (Collecting R) × Nat
  | observed, s =>
    if s.pending.isEmpty then (.ok s, 0)
    else
      match observed with
      | [] =>
        (.error (match ending with
          | .deadline => .failed (s.expired c)
          | .abandoned => .abandoned), 1)
      | .cancelled :: _ => (.error (.failed .cancelled), 1)
      | .closed :: _ => (.error (.failed .replyChannel), 1)
      | .reply r elapsed :: rest =>
        match handle c s r elapsed with
        | .error e => (.error (.failed e), 1)
        | .ok s =>
          let (result, n) := run c ending rest s
          (result, n + 1)

/-- The summary of a reply. Metrics that are not finite are left out. -/
def summary (r : WorkReply R) (rtimeTotal : R) : ReplySummary R :=
  ⟨r.sampleCount, r.timing, rtimeTotal, r.metrics.filter fun _ x => Scalar.isFinite x⟩

def plainUpdate (r : WorkReply R) : Option (NodeUpdate R) :=
  match r.params with
  | some (.plain p) => some ⟨p, r.sampleCount, r.auxVars⟩
  | _ => none

def maskedVector (r : WorkReply R) : Option (MaskedVector × UInt64) :=
  match r.params with
  | some (.masked v) => some (v, r.sampleCount)
  | _ => none

def aggregate (c : RoundContext R) (s : Collecting R) : Except (RoundError R) (Aggregated R) :=
  match c.secagg with
  | some secagg => do
    let mean ← (secagg.aggregate (s.received.filterMap fun _ e => maskedVector e.1) c.global).mapError
      .secureAggregation
    (c.aggregator.aggregateSecure mean s.received.keys c.nodeStates).mapError .aggregation
  | none =>
    (c.aggregator.aggregate
      { results := s.received.filterMap fun _ e => plainUpdate e.1
        previous := c.global
        nodeStates := c.nodeStates
        trainingArgs := c.trainingArgs
        federationSize := c.federationSize }).mapError .aggregation

def complete {R : Type} [RootScalar R] (c : RoundContext R) (s : Collecting R) :
    Except (RoundError R) (CompletedRound R) := do
  let aggregated ← s.aggregate c
  let (global, optimizer) ← (c.optimizer.step c.global aggregated.global).mapError .aggregation
  return {
    roundNumber := c.roundNumber
    aggregated := { aggregated with global }
    optimizer
    participants := s.received.map fun _ e => summary e.1 e.2
    stateIds := s.received.map fun _ e => StateId.successor e.1.stateId }

end Collecting

end Federation
