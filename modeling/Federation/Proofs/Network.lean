import Federation.Experiment.Surroundings
/-!
# Networks of honest nodes

A network may delay, reorder, duplicate and drop requests and replies. What it never does is to make
them up: a request in flight was sent, and a reply in flight was made by a node, from a request that was
in flight. So whatever holds of all requests ever sent holds of the requests that the replies answer.
-/

namespace Federation

variable {R σ : Type}

/-- A node answers a request with a success, to which it may attach metrics, or with a failure. -/
inductive Answers [Zero R] (q : WorkRequest R) : WorkReply R → Prop where
  | success (params : ReplyParams R) (sampleCount : UInt64) (auxVars : AuxVars R) (timing : Timing R)
    (metrics : Metrics R) :
    Answers q { WorkReply.ofSuccess q params sampleCount auxVars timing with metrics }
  | failure (error : NodeError) : Answers q (.ofFailure q error)

section

variable [Zero R] {q : WorkRequest R} {r : WorkReply R} (h : Answers q r)
include h

theorem Answers.requestId : r.requestId = q.requestId := by
  cases h <;> rfl

theorem Answers.nodeId : r.nodeId = q.nodeId := by
  cases h <;> rfl

end

/-- What is in flight. The same message may arrive any number of times. -/
structure Traffic (R σ : Type) where
  requests : σ → List (WorkRequest R)
  replies : σ → List (WorkReply R)

namespace Traffic

variable [Zero R] (t : Traffic R σ)

/-- All that is in flight later was in flight, or is one of the requests sent meanwhile, or was made by
a node from one of these. -/
structure Flows (sent : List (WorkRequest R)) (world world' : σ) : Prop where
  requests : ∀ q ∈ t.requests world', q ∈ sent ∨ q ∈ t.requests world
  replies : ∀ r ∈ t.replies world', r ∈ t.replies world ∨
    ∃ q, (q ∈ sent ∨ q ∈ t.requests world) ∧ Answers q r

/-- All that is in flight goes back to requests of a kind. -/
structure Origin (kind : WorkRequest R → Prop) (world : σ) : Prop where
  requests : ∀ q ∈ t.requests world, kind q
  replies : ∀ r ∈ t.replies world, ∃ q, kind q ∧ Answers q r

variable {t}

theorem Flows.refl (world : σ) : t.Flows [] world world :=
  ⟨fun _ hq => Or.inr hq, fun _ hr => Or.inl hr⟩

theorem Flows.mono {sent sent' : List (WorkRequest R)} {a b : σ} (h : t.Flows sent a b)
    (hs : sent ⊆ sent') : t.Flows sent' a b where
  requests q hq := (h.requests q hq).imp_left fun hq => hs hq
  replies r hr := by
    rcases h.replies r hr with hr | ⟨q, hq, ha⟩
    · exact Or.inl hr
    · exact Or.inr ⟨q, hq.imp_left fun hq => hs hq, ha⟩

theorem Flows.trans {sent sent' : List (WorkRequest R)} {a b c : σ} (h : t.Flows sent a b)
    (h' : t.Flows sent' b c) : t.Flows (sent ++ sent') a c := by
  have hrequests : ∀ q, q ∈ sent' ∨ q ∈ t.requests b → q ∈ sent ++ sent' ∨ q ∈ t.requests a := by
    intro q hq
    rcases hq with hq | hq
    · exact Or.inl (List.mem_append_right _ hq)
    · exact (h.requests q hq).imp_left (List.mem_append_left _)
  constructor
  · intro q hq
    exact hrequests q (h'.requests q hq)
  · intro r hr
    rcases h'.replies r hr with hr | ⟨q, hq, ha⟩
    · rcases h.replies r hr with hr | ⟨q, hq, ha⟩
      · exact Or.inl hr
      · exact Or.inr ⟨q, hq.imp_left (List.mem_append_left _), ha⟩
    · exact Or.inr ⟨q, hrequests q hq, ha⟩

/-- What flows keeps its origin if the requests sent meanwhile are of the same kind. -/
theorem Origin.of_flows {kind : WorkRequest R → Prop} {sent : List (WorkRequest R)} {a b : σ}
    (h : t.Origin kind a) (hf : t.Flows sent a b) (hs : ∀ q ∈ sent, kind q) : t.Origin kind b := by
  have hkind : ∀ q, q ∈ sent ∨ q ∈ t.requests a → kind q := by
    intro q hq
    rcases hq with hq | hq
    · exact hs q hq
    · exact h.requests q hq
  constructor
  · intro q hq
    exact hkind q (hf.requests q hq)
  · intro r hr
    rcases hf.replies r hr with hr | ⟨q, hq, ha⟩
    · exact h.replies r hr
    · exact ⟨q, hkind q hq, ha⟩

theorem Origin.mono {kind kind' : WorkRequest R → Prop} {world : σ} (h : t.Origin kind world)
    (hk : ∀ q, kind q → kind' q) : t.Origin kind' world where
  requests q hq := hk q (h.requests q hq)
  replies r hr := by
    obtain ⟨q, hq, ha⟩ := h.replies r hr
    exact ⟨q, hk q hq, ha⟩

end Traffic

/-- The training requests among some requests. -/
def Request.work? : Request R → Option (WorkRequest R)
  | .train q => some q
  | .setup _ => none

/-- Surroundings of which the network carries only what was sent and what honest nodes made of it. -/
structure HonestNetwork [Zero R] (s : Surroundings R σ) extends Traffic R σ where
  send : ∀ q world, toTraffic.Flows q.work?.toList world (s.link.send q world).2
  advance : ∀ t n world, toTraffic.Flows [] world (s.link.advance t n world)
  purge : ∀ world, toTraffic.Flows [] world (s.link.purge world).2
  arm : ∀ world, toTraffic.Flows [] world (s.link.arm world)
  drawName : ∀ world, toTraffic.Flows [] world (s.drawName world).2
  drawWord : ∀ world, toTraffic.Flows [] world (s.drawWord world).2
  drawFraction : ∀ world, toTraffic.Flows [] world (s.drawFraction world).2
  save : ∀ c world, toTraffic.Flows [] world (s.save c world).2
  -- A training reply that is heard was in flight, or made meanwhile from a request in flight.
  watch : ∀ t world r elapsed, .reply (.train r) elapsed ∈ (s.link.watch t world).observed →
    r ∈ replies world ∨ ∃ q ∈ requests world, Answers q r

namespace HonestNetwork

variable [Zero R] {s : Surroundings R σ} (net : HonestNetwork s)

/-- A training reply that is heard answers a request of the kind to which all that is in flight goes
back. -/
theorem origin_of_heard {kind : WorkRequest R → Prop} {world : σ} (h : net.Origin kind world)
    {t elapsed : Duration} {r : WorkReply R}
    (hr : .reply (.train r) elapsed ∈ (s.link.watch t world).observed) :
    ∃ q, kind q ∧ Answers q r := by
  rcases net.watch t world r elapsed hr with hr | ⟨q, hq, ha⟩
  · exact h.replies r hr
  · exact ⟨q, h.requests q hq, ha⟩

end HonestNetwork

end Federation
