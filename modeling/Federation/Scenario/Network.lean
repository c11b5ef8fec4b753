import Federation.Link
import Federation.Message.Codec
import Federation.Scenario.Values
/-!
# A scripted network

A `Network` stands in for the nodes: a script says which replies arrive and when the round is
cancelled or the channel of the replies closes. Its clock counts milliseconds and only moves while a
controller waits. The script starts when the wait begins; what it sets down for one instant happens
before the controller reacts, and what it sets down for the deadline or later does not happen.
-/

namespace Federation.Scenario

inductive Action where
  -- The text of a reply arrives.
  | deliver (text : String)
  -- The round is cancelled.
  | cancel
  -- The channel of the replies closes.
  | close
  deriving DecidableEq

structure Network where
  now : Nat := 0
  -- Whether replies can still arrive.
  isOpen : Bool := true
  cancelled : Bool := false
  -- The replies that have arrived and that the controller has not taken.
  queue : List (Reply Float) := []
  unreachable : NameSet := .empty
  -- The requests sent, the latest one first.
  sent : List (Request Float) := []
  -- What became of each delivery, the latest one first.
  deliveries : List String := []
  -- What happens right after the controller begins to heed cancellations.
  onArming : List Action := []
  -- What happens during the next wait, with the milliseconds since it began.
  script : List (Nat × Action) := []

namespace Network

/-- The session of the last setup request, which scripts do not know beforehand. -/
def sessionId (n : Network) : String :=
  (n.sent.findSome? fun
    | .setup q => some q.sessionId
    | .train _ => none).getD ""

/-- Performs an action. In a text that arrives the session is filled in. -/
def perform (n : Network) : Action → Network
  | .cancel => { n with cancelled := true }
  | .close => { n with isOpen := false }
  | .deliver text =>
    if !n.isOpen then { n with deliveries := "NoSender" :: n.deliveries }
    else
      match Reply.decode (text.replace "$SESSION" n.sessionId) with
      | none => { n with deliveries := "Invalid" :: n.deliveries }
      | some r => { n with deliveries := "ok" :: n.deliveries, queue := n.queue ++ [r] }

def performAll (n : Network) (l : List Action) : Network := l.foldl perform n

/-- The observations of the replies in the queue, each with the network after it. -/
def drain (elapsed : Nat) : List (Reply Float) → Network → List (Observation Float × Network)
  | [], _ => []
  | r :: rest, n =>
    (.reply r (.ofMillis elapsed), { n with queue := rest }) :: drain elapsed rest n

/-- What the controller observes at an instant, with the network after each observation: first a
cancellation, then the replies, at last that the channel is closed. -/
def react (elapsed : Nat) (n : Network) : List (Observation Float × Network) :=
  (if n.cancelled then [(.cancelled, n)] else []) ++ drain elapsed n.queue n ++
    (if n.isOpen then [] else [(.closed, { n with queue := [] })])

/-- The actions of each instant before the deadline. One that is set down for an earlier instant than
its predecessor happens right after it. -/
def instants (deadline : Nat) : Nat → List Action → List (Nat × Action) → List (Nat × List Action)
  | at_, l, [] => [(at_, l)]
  | at_, l, (t, a) :: rest =>
    if t ≤ at_ then instants deadline at_ (l ++ [a]) rest
    else if deadline ≤ t then [(at_, l)]
    else (at_, l) :: instants deadline t [a] rest

/-- The observations of a wait that began at `start`, and the network at the deadline. -/
def course (start deadline : Nat) : List (Nat × List Action) → Network →
    List (Observation Float × Network) × Network
  | [], n => ([], { n with now := start + deadline })
  | (t, l) :: rest, n =>
    let n := { n with now := start + t }.performAll l
    let (later, final) := course start deadline rest { n with queue := [] }
    (react t n ++ later, final)

/-- The observations of a wait from now on. At the instant of the deadline only a cancellation goes
before it. -/
def wait (timeout : Duration) (n : Network) : List (Observation Float × Network) × Network :=
  let deadline := timeout.ceilMillis
  if deadline = 0 then (if n.cancelled then [(.cancelled, n)] else [], n)
  else course n.now deadline (instants deadline 0 [] n.script) { n with script := [] }

def unreachableReason (node : NodeId) : String := s!"{node} is unreachable"

def link : Link Float Network where
  send q n :=
    if n.unreachable.contains q.nodeId then (some (unreachableReason q.nodeId), n)
    else (none, { n with sent := q :: n.sent })
  watch timeout n := { observed := (n.wait timeout).1.map Prod.fst }
  advance timeout count n :=
    if count = 0 then n
    else (((n.wait timeout).1[count - 1]?).map Prod.snd).getD (n.wait timeout).2
  purge n := (n.isOpen, { n with queue := [] })
  arm n := { n with cancelled := false }.performAll n.onArming

end Network

/-! ## Scripts in documents -/

/-- An action. A reply that is given as a document arrives as its text with sorted fields. -/
def action (j : Json) : Action :=
  match textAt j "do" with
  | "cancel" => .cancel
  | "close" => .close
  | _ => .deliver (match optional j "reply" id with
    | some r => r.normalize.compress
    | none => textAt j "text")

def actions (j : Json) : List Action := (items j).map action

def script (j : Json) : List (Nat × Action) :=
  (items j).map fun a => ((wordAt a "at").toNat, action a)

end Federation.Scenario
