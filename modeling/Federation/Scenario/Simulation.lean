import Federation.Checkpoint.Saving
import Federation.Experiment.Surroundings
import Federation.Scenario.Node
import Federation.Scenario.Stores
/-!
# A simulated federation

A `Simulation` is what surrounds an experiment: nodes, the channel that connects them, a clock and a
store. The clock counts milliseconds and moves only while the experiment waits. A request that was
sent is taken up by its node when the experiment begins to wait, and is answered after the delay of
the node. What is due at one instant happens before the experiment reacts, in ascending order of the
nodes; what is due at the end of a wait or later is left to the next one. A cancellation is observed
before the replies of its instant.

An experiment that is taken up again gets a channel of its own. Nodes still finish what they were
asked to do over an earlier one, but nobody hears of it.
-/

namespace Federation.Scenario

structure Job where
  due : Nat
  node : NodeId
  -- The channel over which the request came.
  channel : Nat
  request : Request Float
  -- The behaviour of the node when it took up the request.
  behaviour : Behaviour

structure Simulation where
  now : Nat := 0
  nodes : NameMap Node
  -- The nodes that the current channel reaches.
  reachable : NameSet := .empty
  -- The number of the current channel.
  channel : Nat := 0
  -- The requests that no node has taken up, in the order in which they were sent.
  sent : List (Nat × Request Float) := []
  -- What the nodes are working on, in the order in which it was taken up.
  jobs : List Job := []
  -- The number of values that were drawn.
  drawn : Nat := 0
  -- A cancellation this long after the next round begins to wait.
  cancelAfter : Option Nat := none
  -- The instant of a cancellation.
  cancelAt : Option Nat := none
  -- The instant at which the experiment is stopped from outside.
  abandonAt : Option Nat := none
  stored : Stored := {}

namespace Simulation

/-! ## Nodes -/

def modify (s : Simulation) (node : NodeId) (f : Node → Node) : Simulation :=
  match s.nodes.find? node with
  | none => s
  | some n => { s with nodes := s.nodes.insert node (f n) }

/-- A new channel is built, to the nodes that can be reached now. -/
def connect (s : Simulation) : Simulation :=
  { s with
    channel := s.channel + 1
    reachable := (s.nodes.filter fun _ n => n.behaviour.isReachable).keySet }

def takeUp (s : Simulation) (sent : Nat × Request Float) : Simulation :=
  let (channel, q) := sent
  match s.nodes.find? q.nodeId with
  | none => s
  | some n =>
    let job : Job := ⟨s.now + Node.delay n.behaviour q, q.nodeId, channel, q, n.behaviour⟩
    { s with
      nodes := s.nodes.insert q.nodeId { n with received := q :: n.received }
      jobs := s.jobs ++ [job] }

def takeUpAll (s : Simulation) : Simulation := s.sent.foldl takeUp { s with sent := [] }

/-- A node finishes a job. Its reply is heard if the channel is the current one. -/
def finish (s : Simulation) (j : Job) : Option (Reply Float) × Simulation :=
  match s.nodes.find? j.node with
  | none => (none, s)
  | some n =>
    let (reply, n) := n.answer j.behaviour j.request
    (reply.filter fun _ => j.channel == s.channel, { s with nodes := s.nodes.insert j.node n })

def finishAll : List Job → Simulation → List (Reply Float) × Simulation
  | [], s => ([], s)
  | j :: rest, s =>
    let (reply, s) := s.finish j
    let (replies, s) := finishAll rest s
    (reply.toList ++ replies, s)

/-- Whether a job comes before another one. -/
def isBefore (a b : Job) : Bool :=
  a.due < b.due || (a.due == b.due && decide (a.node ≤ b.node))

/-- The clock moves on to an instant, and the nodes finish what is due by then. -/
def moveTo (s : Simulation) (t : Nat) : List (Reply Float) × Simulation :=
  let (due, later) := s.jobs.partition fun j => j.due ≤ t
  finishAll (due.mergeSort isBefore) { s with now := t, jobs := later }

/-! ## Waiting -/

/-- The instants from the current one on and before the end at which something happens. -/
def instants (s : Simulation) (stop : Nat) : List Nat :=
  let times := s.jobs.map (fun j => max s.now j.due) ++ s.cancelAt.toList.filter (s.now ≤ ·)
  ((SortedMap.setOf times).keys).filter (· < stop)

/-- The observations of a wait that began at `start`, each with the simulation after it, and the
simulation after the last instant. -/
def course (start : Nat) : List Nat → Simulation →
    List (Observation Float × Simulation) × Simulation
  | [], s => ([], s)
  | t :: rest, s =>
    let cancelled := s.cancelAt == some t
    let (replies, s) := s.moveTo t
    let observed := (if cancelled then [Observation.cancelled] else []) ++
      replies.map fun r => .reply r (.ofMillis (t - start))
    let (later, final) := course start rest s
    (observed.map (fun o => (o, s)) ++ later, final)

/-- The end of a wait, and whether it is the deadline or the experiment is stopped before it. -/
def endOf (s : Simulation) (timeout : Duration) : Nat × Ending :=
  let deadline := s.now + timeout.ceilMillis
  match s.abandonAt with
  | some t => if t < deadline then (t, .abandoned) else (deadline, .deadline)
  | none => (deadline, .deadline)

/-- The observations of a wait from now on, each with the simulation after it, and the simulation at
the end of the wait. -/
def wait (timeout : Duration) (s : Simulation) : List (Observation Float × Simulation) × Simulation :=
  let stop := (s.endOf timeout).1
  if stop ≤ s.now then ([], s)
  else
    let s := s.takeUpAll
    let (observed, final) := course s.now (s.instants stop) s
    (observed, { final with now := stop })

/-! ## Surroundings of an experiment -/

def unreachableReason (node : NodeId) : String := s!"node {node} is unreachable"

/-- From now on cancellations are observed. One that was set down for the next round gets its
instant. -/
def heed (s : Simulation) : Simulation :=
  match s.cancelAfter with
  | some t => { s with cancelAfter := none, cancelAt := some (s.now + t) }
  | none => { s with cancelAt := s.cancelAt.filter (s.now < ·) }

def link : Link Float Simulation where
  send q s :=
    if s.reachable.contains q.nodeId then (none, { s with sent := s.sent ++ [(s.channel, q)] })
    else (some (unreachableReason q.nodeId), s)
  watch timeout s := ⟨(s.wait timeout).1.map Prod.fst, (s.endOf timeout).2⟩
  advance timeout count s :=
    if count = 0 then s
    else (((s.wait timeout).1[count - 1]?).map Prod.snd).getD (s.wait timeout).2
  purge s := (true, s)
  arm := heed

def spread (n : Nat) : UInt64 := UInt64.ofNat (n * 6364136223846793005 + 1442695040888963407)

/-- The instant at which every simulation begins. -/
def epoch : Timestamp := ⟨1609459200, 0⟩

def surroundings (kind : String) : Surroundings Float Simulation where
  link
  drawName s := (s!"00000000-0000-4000-8000-{Text.hex 12 s.drawn}", { s with drawn := s.drawn + 1 })
  drawWord s := (spread s.drawn, { s with drawn := s.drawn + 1 })
  drawFraction s :=
    ((spread s.drawn >>> 11).toFloat / 9007199254740992.0, { s with drawn := s.drawn + 1 })
  now s := { epoch with secs := epoch.secs + (s.now / 1000 : Nat), nanos := s.now % 1000 * 1000000 }
  save c s :=
    let (r, stored) := c.save (Stored.ofKind kind) s.stored
    (r, { s with stored })
  prepare s :=
    let (r, stored) := (Stored.ofKind kind).prepare s.stored
    (r.mapError .storage, { s with stored })

end Simulation

end Federation.Scenario
