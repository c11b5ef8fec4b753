import Federation.Proofs.Except
import Federation.Proofs.Round.Course
/-!
# What a round takes

A round that waits for replies takes some of its observations and leaves the rest. What it accepts, and
the refusal that fails it, are among those it took.
-/

namespace Federation

variable {R σ : Type}

namespace Collecting

/-! ## 1. One reply -/

theorem accepted_of_check {secure : Bool} {r : WorkReply R} (h : check secure r = .ok ()) :
    Accepted secure r := by
  rcases accepted_or_refused secure r with ha | ⟨e, he⟩
  · exact ha
  · rw [check_of_refused he] at h
    contradiction

theorem refused_of_check {secure : Bool} {r : WorkReply R} {e : RoundError R}
    (h : check secure r = .error e) : Refused secure r e := by
  rcases accepted_or_refused secure r with ha | ⟨e', he⟩
  · rw [check_of_accepted ha] at h
    contradiction
  · rw [check_of_refused he] at h
    obtain rfl := Except.error.inj h
    exact he

variable {c : RoundContext R}

section

variable [Scalar R]

/-- A round that goes on after a reply has discarded or received it. -/
theorem handle_eq_ok {s s' : Collecting R} {reply : Reply R} {t : Duration}
    (h : handle c s reply t = .ok s') : s' = s ∨ ∃ r, reply = .train r ∧
      Accepted c.secagg.isSome r ∧ s'.received = s.received.insert r.nodeId (r, t.toSeconds) := by
  cases reply with
  | setup r => exact Or.inl (Except.ok.inj h).symm
  | train r =>
    rw [handle] at h
    split at h
    · exact Or.inl (Except.ok.inj h).symm
    · obtain ⟨_, hcheck, rfl⟩ := map_eq_ok.1 h
      exact Or.inr ⟨r, rfl, accepted_of_check hcheck, rfl⟩

theorem handle_eq_error {s : Collecting R} {reply : Reply R} {t : Duration} {e : RoundError R}
    (h : handle c s reply t = .error e) :
    ∃ r, reply = .train r ∧ Refused c.secagg.isSome r e := by
  cases reply with
  | setup r => contradiction
  | train r =>
    rw [handle] at h
    split at h
    · contradiction
    · cases hcheck : check c.secagg.isSome r with
      | ok u =>
        rw [hcheck] at h
        contradiction
      | error e' =>
        rw [hcheck] at h
        obtain rfl := Except.error.inj h
        exact ⟨r, rfl, refused_of_check hcheck⟩

/-! ## 2. A whole wait -/

/-- What a round has received was received before or is acceptable and among what it took. -/
theorem taken_of_received {ending : Ending} {observed : List (Observation R)} {s s' : Collecting R}
    {n : Nat} (h : run c ending observed s = (.ok s', n)) {node : NodeId} {r : WorkReply R} {t : R}
    (hr : s'.received.find? node = some (r, t)) :
    s.received.find? node = some (r, t) ∨ (r.nodeId = node ∧ Accepted c.secagg.isSome r ∧
      ∃ elapsed, .reply (.train r) elapsed ∈ observed.take n) := by
  induction observed generalizing s n with
  | nil =>
    cases hp : s.pending.isEmpty with
    | true =>
      rw [run_of_isEmpty hp] at h
      obtain rfl := Except.ok.inj (Prod.mk.inj h).1
      exact Or.inl hr
    | false =>
      cases ending with
      | deadline => simp [run_deadline hp] at h
      | abandoned => simp [run_abandoned hp] at h
  | cons o observed ih =>
    cases hp : s.pending.isEmpty with
    | true =>
      rw [run_of_isEmpty hp] at h
      obtain rfl := Except.ok.inj (Prod.mk.inj h).1
      exact Or.inl hr
    | false =>
      cases o with
      | cancelled => simp [run_cancelled hp] at h
      | closed => simp [run_closed hp] at h
      | reply reply elapsed =>
        cases hh : handle c s reply elapsed with
        | error e => simp [run_reply_error hp c ending observed hh] at h
        | ok s₁ =>
          rw [run_reply_ok hp c ending observed hh] at h
          obtain ⟨hrun, rfl⟩ := Prod.mk.inj h
          rcases ih (Prod.ext hrun rfl) with hs₁ | ⟨hnode, ha, elapsed', hmem⟩
          · rcases handle_eq_ok hh with rfl | ⟨r', rfl, ha, hreceived⟩
            · exact Or.inl hs₁
            · rw [hreceived, SortedMap.find?_insert] at hs₁
              split at hs₁
              next hn =>
                obtain ⟨rfl, -⟩ := Prod.mk.inj (Option.some.inj hs₁)
                exact Or.inr ⟨hn.symm, ha, elapsed, by simp⟩
              next => exact Or.inl hs₁
          · exact Or.inr ⟨hnode, ha, elapsed', by simp [hmem]⟩

/-- A round that fails of a refused state has taken the refusal. -/
theorem taken_of_stateMismatch {ending : Ending} {observed : List (Observation R)} {s : Collecting R}
    {n : Nat} {node : NodeId} {message : String}
    (h : run c ending observed s = (.error (.failed (.stateMismatch node message)), n)) :
    ∃ r elapsed e, .reply (.train r) elapsed ∈ observed.take n ∧ r.error = some e ∧
      e.kind = .stateMismatch := by
  induction observed generalizing s n with
  | nil =>
    cases hp : s.pending.isEmpty with
    | true => simp [run_of_isEmpty hp] at h
    | false =>
      cases ending with
      | deadline =>
        rw [run_deadline hp, expired] at h
        split at h <;> simp at h
      | abandoned => simp [run_abandoned hp] at h
  | cons o observed ih =>
    cases hp : s.pending.isEmpty with
    | true => simp [run_of_isEmpty hp] at h
    | false =>
      cases o with
      | cancelled => simp [run_cancelled hp] at h
      | closed => simp [run_closed hp] at h
      | reply reply elapsed =>
        cases hh : handle c s reply elapsed with
        | error e =>
          rw [run_reply_error hp c ending observed hh] at h
          obtain ⟨he, rfl⟩ := Prod.mk.inj h
          obtain rfl := Stop.failed.inj (Except.error.inj he)
          obtain ⟨r, rfl, hrefused⟩ := handle_eq_error hh
          cases hrefused with
          | lostState e hv herror hs hsecure hk => exact ⟨r, elapsed, e, by simp, herror, hk⟩
        | ok s₁ =>
          rw [run_reply_ok hp c ending observed hh] at h
          obtain ⟨hrun, rfl⟩ := Prod.mk.inj h
          obtain ⟨r, elapsed', e, hmem, he⟩ := ih (Prod.ext hrun rfl)
          exact ⟨r, elapsed', e, by simp [hmem], he⟩

end

/-! ## 3. The completed round -/

theorem complete_eq_ok [RootScalar R] {s : Collecting R} {completed : CompletedRound R} :
    s.complete c = .ok completed ↔ ∃ aggregated global optimizer, s.aggregate c = .ok aggregated ∧
      c.optimizer.step c.global aggregated.global = .ok (global, optimizer) ∧
      completed =
        { roundNumber := c.roundNumber
          aggregated := { aggregated with global }
          optimizer
          participants := s.received.map fun _ e => summary e.1 e.2
          stateIds := s.received.map fun _ e => StateId.successor e.1.stateId } := by
  simp only [complete, bind_eq_ok, mapError_eq_ok, pure, Except.pure, Except.ok.injEq, Prod.exists]
  constructor
  · rintro ⟨aggregated, ha, global, optimizer, hstep, rfl⟩
    exact ⟨aggregated, global, optimizer, ha, hstep, rfl⟩
  · rintro ⟨aggregated, global, optimizer, ha, hstep, rfl⟩
    exact ⟨aggregated, ha, global, optimizer, hstep, rfl⟩

/-- Accepted replies that cannot be combined fail the round for no other reason. -/
theorem complete_eq_error [RootScalar R] {s : Collecting R} {e : RoundError R}
    (h : s.complete c = .error e) : (∃ e', e = .aggregation e') ∨ ∃ e', e = .secureAggregation e' := by
  rcases bind_eq_error.1 h with ha | ⟨aggregated, -, h⟩
  · unfold aggregate at ha
    split at ha
    · rcases bind_eq_error.1 ha with hm | ⟨mean, -, ha⟩
      · obtain ⟨e', -, rfl⟩ := mapError_eq_error.1 hm
        exact Or.inr ⟨e', rfl⟩
      · obtain ⟨e', -, rfl⟩ := mapError_eq_error.1 ha
        exact Or.inl ⟨e', rfl⟩
    · obtain ⟨e', -, rfl⟩ := mapError_eq_error.1 ha
      exact Or.inl ⟨e', rfl⟩
  · rcases bind_eq_error.1 h with hstep | ⟨next, -, h⟩
    · obtain ⟨e', -, rfl⟩ := mapError_eq_error.1 hstep
      exact Or.inl ⟨e', rfl⟩
    · contradiction

end Collecting

end Federation
