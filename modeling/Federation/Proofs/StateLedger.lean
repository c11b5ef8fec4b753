import Federation.Proofs.Network
import Mathlib.Logic.Function.Basic
import Mathlib.Logic.Relation
/-!
# Nodes that keep ledgers

Each node checks the state that a work request names against its ledger. If it never had that state it
refuses the request, otherwise it may train and note the successor. It notes the state before it
replies, so whoever hears of a state finds it in the ledger, however late the reply arrives.
-/

namespace Federation

variable {R σ : Type}

/-! ## 1. Ledgers -/

theorem StateId.toNat_successor (s : StateId) :
    s.successor.toNat = min (s.toNat + 1) (UInt64.size - 1) := by
  have hs : s.toNat < UInt64.size := UInt64.toNat_lt_size s
  unfold successor
  split
  next h =>
    rw [UInt64.toNat_add, UInt64.toNat_one, Nat.mod_eq_of_lt (show s.toNat + 1 < 2 ^ 64 from h)]
    exact (Nat.min_eq_left (Nat.le_sub_one_of_lt h)).symm
  next h => omega

namespace StateLedger

theorem holds_initial (l : StateLedger) : l.holds StateId.initial = true := by
  simp [holds]

theorem check_eq_ok {l : StateLedger} {s : StateId} : l.check s = .ok () ↔ l.holds s = true := by
  rw [check]
  split
  next h => exact ⟨fun _ => h, fun _ => rfl⟩
  next h => exact ⟨nofun, fun hs => absurd hs h⟩

theorem holds_record (l : StateLedger) (source s : StateId) :
    (l.record source).1.holds s = true ↔ s = source.successor ∨ l.holds s = true := by
  simp only [record, holds, Bool.or_eq_true, beq_iff_eq, List.contains_cons]
  exact or_left_comm

end StateLedger

/-- The nodes with their ledgers, and the messages between them and the controller. -/
structure Nodes (R : Type) where
  ledger : NodeId → StateLedger
  requests : List (WorkRequest R)
  replies : List (WorkReply R)

namespace Nodes

def post (n : Nodes R) (q : WorkRequest R) : Nodes R := { n with requests := q :: n.requests }

def reply (n : Nodes R) (r : WorkReply R) : Nodes R := { n with replies := r :: n.replies }

/-- The node of a request notes the state that the request leads to. -/
def note (n : Nodes R) (q : WorkRequest R) : Nodes R :=
  { n with ledger := Function.update n.ledger q.nodeId ((n.ledger q.nodeId).record q.stateId).1 }

theorem holds_note {n : Nodes R} {q : WorkRequest R} {node : NodeId} {s : StateId}
    (h : (n.ledger node).holds s = true) : ((n.note q).ledger node).holds s = true := by
  show (Function.update n.ledger q.nodeId _ node).holds s = true
  by_cases hn : node = q.nodeId
  · subst hn
    rw [Function.update_self, StateLedger.holds_record]
    exact Or.inr h
  · rwa [Function.update_of_ne hn]

theorem holds_successor (n : Nodes R) (q : WorkRequest R) :
    ((n.note q).ledger q.nodeId).holds q.stateId.successor = true := by
  show (Function.update n.ledger q.nodeId _ q.nodeId).holds _ = true
  rw [Function.update_self, StateLedger.holds_record]
  exact Or.inl rfl

/-! ## 2. Messages that agree with the ledgers -/

/-- All requests name states that their nodes hold, all successful replies lead to such states, and
nobody has refused a request. -/
structure Consistent (n : Nodes R) : Prop where
  requested : ∀ q ∈ n.requests, (n.ledger q.nodeId).holds q.stateId = true
  produced : ∀ r ∈ n.replies, r.success = true →
    (n.ledger r.nodeId).holds (StateId.successor r.stateId) = true
  unrefused : ∀ r ∈ n.replies, ∀ e, r.error = some e → e.kind ≠ .stateMismatch

theorem Consistent.reply {n : Nodes R} (h : Consistent n) {r : WorkReply R}
    (hproduced : r.success = true → (n.ledger r.nodeId).holds (StateId.successor r.stateId) = true)
    (hunrefused : ∀ e, r.error = some e → e.kind ≠ .stateMismatch) : Consistent (n.reply r) where
  requested := h.requested
  produced := List.forall_mem_cons.2 ⟨hproduced, h.produced⟩
  unrefused := List.forall_mem_cons.2 ⟨hunrefused, h.unrefused⟩

theorem Consistent.note {n : Nodes R} (h : Consistent n) (q : WorkRequest R) :
    Consistent (n.note q) where
  requested q' hq' := holds_note (h.requested q' hq')
  produced r hr hs := holds_note (h.produced r hr hs)
  unrefused := h.unrefused

theorem Consistent.post {n : Nodes R} (h : Consistent n) {q : WorkRequest R}
    (hq : (n.ledger q.nodeId).holds q.stateId = true) : Consistent (n.post q) where
  requested := List.forall_mem_cons.2 ⟨hq, h.requested⟩
  produced := h.produced
  unrefused := h.unrefused

/-! ## 3. Steps of nodes and network -/

variable [Zero R]

/-- What happens without the controller. A message stays under way until it is lost, so it may arrive
at any time, in any order and any number of times. -/
inductive Step (n : Nodes R) : Nodes R → Prop where
  | refuse (q : WorkRequest R) (hq : q ∈ n.requests) (e : StateMismatch)
    (hc : (n.ledger q.nodeId).check q.stateId = .error e) :
    Step n (n.reply (.ofFailure q ⟨.stateMismatch, Failure.message e⟩))
  | fail (q : WorkRequest R) (hq : q ∈ n.requests) (hc : (n.ledger q.nodeId).check q.stateId = .ok ())
    (error : NodeError) (hk : error.kind ≠ .stateMismatch) : Step n (n.reply (.ofFailure q error))
  -- A node may note the state and never reply.
  | train (q : WorkRequest R) (hq : q ∈ n.requests)
    (hc : (n.ledger q.nodeId).check q.stateId = .ok ()) : Step n (n.note q)
  | succeed (q : WorkRequest R) (hq : q ∈ n.requests)
    (hc : (n.ledger q.nodeId).check q.stateId = .ok ()) (params : ReplyParams R) (sampleCount : UInt64)
    (auxVars : AuxVars R) (timing : Timing R) (metrics : Metrics R) :
    Step n ((n.note q).reply { WorkReply.ofSuccess q params sampleCount auxVars timing with metrics })
  | lose (requests : List (WorkRequest R)) (replies : List (WorkReply R))
    (hq : requests ⊆ n.requests) (hr : replies ⊆ n.replies) :
    Step n { n with requests, replies }

/-- A node never forgets a state. -/
theorem Step.holds {n n' : Nodes R} (h : Step n n') {node : NodeId} {s : StateId}
    (hs : (n.ledger node).holds s = true) : (n'.ledger node).holds s = true := by
  cases h with
  | refuse => exact hs
  | fail => exact hs
  | train q => exact holds_note hs
  | succeed q => exact holds_note (q := q) hs
  | lose => exact hs

theorem Consistent.step {n n' : Nodes R} (h : Consistent n) (hstep : Step n n') : Consistent n' := by
  cases hstep with
  | refuse q hq e hc =>
    -- the state is in the ledger, so the check does not fail
    rw [StateLedger.check_eq_ok.2 (h.requested q hq)] at hc
    contradiction
  | fail q hq hc error hk =>
    refine h.reply (fun hs => by contradiction) ?_
    intro e he
    obtain rfl := Option.some.inj he
    exact hk
  | train q hq hc => exact h.note q
  | succeed q hq hc => exact (h.note q).reply (fun _ => holds_successor n q) fun e he => by contradiction
  | lose requests replies hq hr =>
    exact ⟨fun q h' => h.requested q (hq h'), fun r h' => h.produced r (hr h'),
      fun r h' => h.unrefused r (hr h')⟩

/-- What happens while the controller sends some requests. -/
def Evolves (sent : List (WorkRequest R)) : Nodes R → Nodes R → Prop :=
  Relation.ReflTransGen fun n n' => Step n n' ∨ ∃ q ∈ sent, n' = n.post q

theorem Evolves.mono {sent sent' : List (WorkRequest R)} {n n' : Nodes R} (h : Evolves sent n n')
    (hs : sent ⊆ sent') : Evolves sent' n n' :=
  Relation.ReflTransGen.mono (fun _ _ h => h.imp_right fun ⟨q, hq, heq⟩ => ⟨q, hs hq, heq⟩) _ _ h

theorem Evolves.trans {sent sent' : List (WorkRequest R)} {n₁ n₂ n₃ : Nodes R}
    (h : Evolves sent n₁ n₂) (h' : Evolves sent' n₂ n₃) : Evolves (sent ++ sent') n₁ n₃ :=
  Relation.ReflTransGen.trans (h.mono (List.subset_append_left _ _))
    (h'.mono (List.subset_append_right _ _))

theorem Evolves.holds {sent : List (WorkRequest R)} {n n' : Nodes R} (h : Evolves sent n n')
    {node : NodeId} {s : StateId} (hs : (n.ledger node).holds s = true) :
    (n'.ledger node).holds s = true := by
  induction h with
  | refl => exact hs
  | tail _ hstep ih =>
    rcases hstep with hstep | ⟨q, -, rfl⟩
    · exact hstep.holds ih
    · exact ih

/-- Requests may be sent if they name states that their nodes hold. -/
theorem Consistent.evolves {sent : List (WorkRequest R)} {n n' : Nodes R} (h : Consistent n)
    (ht : Evolves sent n n') (hs : ∀ q ∈ sent, (n.ledger q.nodeId).holds q.stateId = true) :
    Consistent n' := by
  induction ht with
  | refl => exact h
  | tail ht hstep ih =>
    rcases hstep with hstep | ⟨q, hq, rfl⟩
    · exact ih.step hstep
    · exact ih.post (Evolves.holds ht (hs q hq))

end Nodes

/-- Surroundings whose network connects the controller to nodes that keep ledgers. Every step of the
surroundings gives nodes and network time to proceed. -/
structure LedgerNetwork [Zero R] (s : Surroundings R σ) where
  nodes : σ → Nodes R
  send : ∀ q world, Nodes.Evolves q.work?.toList (nodes world) (nodes (s.link.send q world).2)
  advance : ∀ t n world, Nodes.Evolves [] (nodes world) (nodes (s.link.advance t n world))
  purge : ∀ world, Nodes.Evolves [] (nodes world) (nodes (s.link.purge world).2)
  arm : ∀ world, Nodes.Evolves [] (nodes world) (nodes (s.link.arm world))
  drawName : ∀ world, Nodes.Evolves [] (nodes world) (nodes (s.drawName world).2)
  drawWord : ∀ world, Nodes.Evolves [] (nodes world) (nodes (s.drawWord world).2)
  drawFraction : ∀ world, Nodes.Evolves [] (nodes world) (nodes (s.drawFraction world).2)
  save : ∀ c world, Nodes.Evolves [] (nodes world) (nodes (s.save c world).2)
  prepare : ∀ world, Nodes.Evolves [] (nodes world) (nodes (s.prepare world).2)
  -- A training reply that the controller takes in a wait was under way at some moment of it.
  watch : ∀ t n world r elapsed,
    .reply (.train r) elapsed ∈ (s.link.watch t world).observed.take n →
      ∃ m, Nodes.Evolves [] (nodes world) m ∧ r ∈ m.replies ∧
        Nodes.Evolves [] m (nodes (s.link.advance t n world))

end Federation
