import Federation.Proofs.Experiment.Retry
import Federation.Proofs.Experiment.Transit
/-!
# Where the replies of a round come from

Among honest nodes a round completes from answers to its own requests: whatever else is in flight
belongs to attempts with other numbers, and those replies do not match.
-/

namespace Federation

variable {R σ : Type}

/-! ## 1. The traffic of an attempt -/

/-- What flows in the network composes, and every step of the surroundings lets it flow. -/
theorem HonestNetwork.transit [Zero R] {s : Surroundings R σ} (net : HonestNetwork s) :
    Transit s net.Flows where
  refl := Traffic.Flows.refl
  mono h hs := h.mono hs
  trans h h' := h.trans h'
  send := net.send
  advance := net.advance
  purge := net.purge
  arm := net.arm
  drawName := net.drawName
  drawWord := net.drawWord
  drawFraction := net.drawFraction
  save := net.save

/-! ## 2. Requests and the replies to them -/

variable [RootScalar R] {s : Surroundings R σ} (net : HonestNetwork s)

/-- If all that is in flight goes back to other attempts, every matching reply that a round hears answers
the request that the round sent to the node. -/
theorem HonestNetwork.request_of_matching {c : RoundContext R} {world : σ}
    (h : net.Origin (fun q => q.requestId ≠ c.requestId) world) {replies : Replies R}
    (hh : c.hears? s.link world = some replies) {node : NodeId} {r : WorkReply R} {t : Duration}
    (hr : Collecting.firstMatch? c node replies = some (r, t)) :
    ∃ q, .train q ∈ c.requests ∧ q.nodeId = node ∧ Answers q r := by
  obtain ⟨hmem, hm, rfl⟩ := Collecting.firstMatch?_eq_some hr
  have hcourse := RoundContext.course_run s.link c world
  rw [hh] at hcourse
  generalize c.run s.link world = outcome at hcourse
  cases hcourse with
  | listening world₁ world₂ hp hs =>
    -- all that is in flight now goes back to other attempts or to this one
    have hold : net.Origin (fun q => q.requestId ≠ c.requestId ∨ .train q ∈ c.requests) world :=
      h.mono fun q hq => Or.inl hq
    have horigin := hold.of_flows (net.transit.dispatch hp hs)
      fun q hq => Or.inr (mem_filterMap_work? hq)
    obtain ⟨q, hq, ha⟩ := net.origin_of_heard horigin (mem_heard_ofObservations hmem)
    have hid : q.requestId = c.requestId := by
      rw [← ha.requestId]
      simp only [RoundContext.isMatching, Bool.and_eq_true, beq_iff_eq] at hm
      exact hm.1.2
    -- a matching reply has the number of this attempt, which excludes the others
    rcases hq with hq | hq
    · exact absurd hid hq
    · exact ⟨q, hq, ha.nodeId.symm, ha⟩

end Federation
