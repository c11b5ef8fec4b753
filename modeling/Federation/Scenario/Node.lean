import Federation.Scenario.Behaviour
/-!
# Simulated nodes

A simulated node keeps what a real one keeps: the ledger of the states it produced, the key pairs of
the sessions it joined, and here also the requests it received. It takes up a request with the
behaviour of that moment and answers it when the time this takes has passed.
-/

namespace Federation.Scenario

structure Node where
  behaviour : Behaviour
  ledger : StateLedger := {}
  -- The key pairs of the sessions the node joined.
  sessions : NameMap KeyPair := .empty
  -- The requests received, the latest one first.
  received : List (Request Float) := []

namespace Node

/-! ## Training -/

/-- What a node that trained replies: its parameters, masked if the round is secure. -/
def replyParams (n : Node) (b : Behaviour) (q : WorkRequest Float) (p : Parameters Float) :
    Except NodeError (ReplyParams Float) :=
  match q.secagg.filter fun _ => !b.neverMasks with
  | some a =>
    match n.sessions.find? a.sessionId with
    | none => .error ⟨.setup, "unknown session"⟩
    | some pair =>
      match a.mask q.nodeId pair b.maskWeight p.flatten with
      | .error e => .error ⟨.setup, Failure.message e⟩
      | .ok v => .ok (.masked v)
  | none =>
    .ok (if b.alwaysMasks then .masked ⟨List.replicate (p.length + 1) 0⟩ else .plain p)

def success (b : Behaviour) (q : WorkRequest Float) (p : ReplyParams Float) : WorkReply Float :=
  b.alteration.apply { WorkReply.ofSuccess q p b.sampleCount b.auxVars b.timing with
    metrics := b.metrics }

/-- Trains from a state the node holds, which produces the next one. -/
def train (n : Node) (b : Behaviour) (q : WorkRequest Float) : Option (WorkReply Float) × Node :=
  match b.training with
  | .silent => (none, n)
  | .failing e => (some (.ofFailure q e), n)
  | how =>
    match n.ledger.check q.stateId with
    | .error e => (some (.ofFailure q ⟨.stateMismatch, Failure.message e⟩), n)
    | .ok () =>
      let n := { n with ledger := (n.ledger.record q.stateId).1 }
      (how.result? q.params |>.map fun p =>
        match n.replyParams b q p with
        | .error e => .ofFailure q e
        | .ok p => success b q p, n)

/-! ## Sessions -/

/-- The key pair of a node for a session. No two nodes and no two sessions share one. -/
def keyPairFor (node : NodeId) (sessionId : String) : KeyPair :=
  let digest := Crypto.Blake2b.hash (sessionId ++ "/" ++ node).toUTF8.toList
  .ofSecret (.ofNat (Crypto.ofLittleEndian (digest.take 32)))

def join (n : Node) (b : Behaviour) (q : SetupRequest) : Option SetupReply × Node :=
  let pair := keyPairFor q.nodeId q.sessionId
  let joined := { n with sessions := n.sessions.insert q.sessionId pair }
  let reply := SetupReply.ofKey q pair.publicKey
  match b.attendance with
  | .joins => (some reply, joined)
  | .withoutKey => (some { reply with publicKey := none }, joined)
  | .refuses => (some (.ofRefusal q ⟨.setup, "simulated refusal"⟩), n)
  | .ignores => (none, n)

/-! ## Requests -/

def delay (b : Behaviour) : Request Float → Nat
  | .train _ => b.delay
  | .setup _ => b.joiningDelay

/-- Answers a request. The reply travels as text, so one that no text can express never arrives. -/
def answer (n : Node) (b : Behaviour) (q : Request Float) : Option (Reply Float) × Node :=
  let (reply, n) : Option (Reply Float) × Node :=
    match q with
    | .train q => let (r, n) := n.train b q; (r.map .train, n)
    | .setup q => let (r, n) := n.join b q; (r.map .setup, n)
  (reply.bind fun r => Reply.decode r.encode, n)

end Node

end Federation.Scenario
