import Federation.Proofs.Rational
import Federation.Proofs.Round.Collecting
import Federation.Round.Run
import Mathlib.Data.List.Induction
/-!
# Completion of a round

A round completes if the first matching reply of every participant is heard in time and is acceptable,
and it fails at the first moment that rules this out.
-/

namespace Federation

variable {R : Type}

namespace Collecting

/-! ## 1. The first event that breaks a round -/

/-- The round still waits after some moments: none of them ended the wait, and their replies are sound
and leave somebody out. -/
structure Waiting (c : RoundContext R) (moments : List (Moment R)) : Prop where
  quiet : ∀ m ∈ moments, m.isQuiet = true
  sound : Sound c (heard moments)
  incomplete : ¬Complete c (heard moments)

/-- How a moment fails a round that has heard some replies and still waits. A cancellation goes before
the deadline, and the deadline before an arrival. -/
inductive Breaks (c : RoundContext R) (l : Replies R) (m : Moment R) : RoundError R → Prop where
  | cancelled (hc : m.cancelled = true) : Breaks c l m .cancelled
  | timeout (hc : m.cancelled = false) (he : m.expired = true) (hs : c.secagg = none) :
    Breaks c l m (.nodeTimeout (missing c l))
  | quorum (hc : m.cancelled = false) (he : m.expired = true) (hs : c.secagg ≠ none) :
    Breaks c l m (.secureAggregation (.quorumNotMet (missing c l)))
  | closed (hc : m.cancelled = false) (he : m.expired = false) (ha : m.arrival = .closed) :
    Breaks c l m .replyChannel
  | refused (hc : m.cancelled = false) (he : m.expired = false) (r : WorkReply R) (t : Duration)
    (ha : m.arrival = .reply (.train r) t) (hm : c.isMatching r = true)
    (hl : firstMatch? c r.nodeId l = none) (e : RoundError R) (hr : Refused c.secagg.isSome r e) :
    Breaks c l m e

/-- A moment that is not quiet breaks a round that waits. -/
theorem breaks_of_not_quiet (c : RoundContext R) (l : Replies R) {m : Moment R}
    (h : m.isQuiet = false) : ∃ e, Breaks c l m e := by
  cases hc : m.cancelled with
  | true => exact ⟨_, .cancelled hc⟩
  | false =>
    cases he : m.expired with
    | true =>
      by_cases hs : c.secagg = none
      · exact ⟨_, .timeout hc he hs⟩
      · exact ⟨_, .quorum hc he hs⟩
    | false =>
      cases ha : m.arrival with
      | closed => exact ⟨_, .closed hc he ha⟩
      | nothing => simp [Moment.isQuiet, hc, he, ha] at h
      | reply r t => simp [Moment.isQuiet, hc, he, ha] at h

/-- A reply that the replies before it leave sound, and that does not, is the first matching one of its
node and is refused. -/
theorem refused_of_not_sound {c : RoundContext R} {l : Replies R} {reply : Reply R} {t : Duration}
    (h : Sound c l) (hn : ¬Sound c (l ++ [(reply, t)])) :
    ∃ r e, reply = .train r ∧ c.isMatching r = true ∧ firstMatch? c r.nodeId l = none ∧
      Refused c.secagg.isSome r e := by
  simp only [Sound, not_forall] at hn
  obtain ⟨node, r, t', hfirst, hna⟩ := hn
  -- an earlier match of the node would still be its first one, and that was accepted
  have hl : firstMatch? c node l = none := by
    cases hl : firstMatch? c node l with
    | none => rfl
    | some e =>
      have hsame := firstMatch?_append_of_some hl [(reply, t)]
      rw [hfirst] at hsame
      exact absurd (h node r t' (hl.trans hsame.symm)) hna
  rw [firstMatch?_append, hl, Option.none_or, firstMatch?_singleton] at hfirst
  obtain ⟨heq, hm, rfl⟩ := matching?_eq_some hfirst
  obtain ⟨rfl, rfl⟩ := Prod.mk.inj heq
  obtain ha | ⟨e, he⟩ := accepted_or_refused c.secagg.isSome r
  · exact absurd ha hna
  · exact ⟨r, e, rfl, hm, hl, he⟩

/-- The next moment of a round that waits completes it, lets it wait on, or breaks it. -/
theorem Waiting.step {c : RoundContext R} {moments : List (Moment R)} (h : Waiting c moments)
    (m : Moment R) :
    (Sound c (heard (moments ++ [m])) ∧ Complete c (heard (moments ++ [m]))) ∨
      Waiting c (moments ++ [m]) ∨ ∃ e, Breaks c (heard moments) m e := by
  cases hq : m.isQuiet with
  | false => exact Or.inr (Or.inr (breaks_of_not_quiet c _ hq))
  | true =>
    have hquiet : ∀ m' ∈ moments ++ [m], m'.isQuiet = true := by
      intro m' hm'
      rcases List.mem_append.1 hm' with hm' | hm'
      · exact h.quiet m' hm'
      · rw [List.mem_singleton.1 hm']
        exact hq
    have hheard := heard_append h.quiet [m]
    by_cases hs : Sound c (heard (moments ++ [m]))
    · by_cases hc : Complete c (heard (moments ++ [m]))
      · exact Or.inl ⟨hs, hc⟩
      · exact Or.inr (Or.inl ⟨hquiet, hs, hc⟩)
    · rcases Moment.eq_of_isQuiet hq with rfl | ⟨reply, t, rfl⟩
      · have hnil : heard [({} : Moment R)] = [] := rfl
        rw [hheard, hnil, List.append_nil] at hs
        exact absurd h.sound hs
      · have hone : heard [({ arrival := .reply reply t } : Moment R)] = [(reply, t)] := rfl
        rw [hheard, hone] at hs
        obtain ⟨r, e, rfl, hm, hl, he⟩ := refused_of_not_sound h.sound hs
        exact Or.inr (Or.inr ⟨e, .refused rfl rfl r t rfl hm hl e he⟩)

/-- Moments complete a round soundly, leave it waiting, or contain the first one that breaks it. -/
theorem complete_or_waiting_or_breaks (c : RoundContext R) (moments : List (Moment R)) :
    (Sound c (heard moments) ∧ Complete c (heard moments)) ∨ Waiting c moments ∨
      ∃ before m rest e, moments = before ++ m :: rest ∧ Waiting c before ∧
        Breaks c (heard before) m e := by
  -- moments are added at the end, so that the first one that breaks the round stays the first
  induction moments using List.reverseRecOn with
  | nil =>
    have hs : Sound c (heard []) := fun node r t h => by contradiction
    by_cases hc : Complete c (heard [])
    · exact Or.inl ⟨hs, hc⟩
    · exact Or.inr (Or.inl ⟨fun m hm => by contradiction, hs, hc⟩)
  | append_singleton moments m ih =>
    rcases ih with ⟨hs, hc⟩ | hw | ⟨before, m', rest, e, rfl, hw, hb⟩
    · -- what is heard after the round is complete changes no verdict
      obtain ⟨l, hl⟩ := heard_append_prefix moments [m]
      refine Or.inl ⟨fun node r t h => ?_, ?_⟩
      · rw [hl, hc.firstMatch?_append] at h
        exact hs node r t h
      · rw [hl]
        exact hc.append l
    · rcases hw.step m with hc | hw' | ⟨e, hb⟩
      · exact Or.inl hc
      · exact Or.inr (Or.inl hw')
      · exact Or.inr (Or.inr ⟨moments, m, [], e, rfl, hw, hb⟩)
    · refine Or.inr (Or.inr ⟨before, m', rest ++ [m], e, ?_, hw, hb⟩)
      rw [List.append_assoc, List.cons_append]

/-! ## 2. The outcome of a wait -/

variable [Scalar R]

theorem expired_after (c : RoundContext R) (l : Replies R) :
    (after c l).expired c =
      if c.secagg = none then .nodeTimeout (missing c l)
      else .secureAggregation (.quorumNotMet (missing c l)) := by
  rw [expired, keys_pending]
  cases c.secagg <;> simp

/-- The outcome of the wait of a round over moments. -/
def outcome (c : RoundContext R) (moments : List (Moment R)) :
    Except (Stop (RoundError R)) (Collecting R) :=
  (run c (Watch.ofMoments moments).ending (Watch.ofMoments moments).observed (start c)).1

theorem outcome_of_complete {c : RoundContext R} {moments : List (Moment R)}
    (hs : Sound c (heard moments)) (hc : Complete c (heard moments)) :
    outcome c moments = .ok (after c (heard moments)) := by
  obtain ⟨rest, hrest⟩ := observed_ofMoments moments
  have hrun := run_of_complete (l := []) hs hc (Watch.ofMoments moments).ending rest
  rw [outcome, hrest, ← after_nil]
  exact hrun

/-- A round that waits through some moments goes on with the state after their replies. -/
theorem outcome_append {c : RoundContext R} {before : List (Moment R)} (h : Waiting c before)
    (rest : List (Moment R)) :
    outcome c (before ++ rest) =
      (run c (Watch.ofMoments rest).ending (Watch.ofMoments rest).observed
        (after c (heard before))).1 := by
  have hrun := run_of_incomplete (l := []) h.sound h.incomplete (Watch.ofMoments rest).ending
    (Watch.ofMoments rest).observed
  rw [outcome, ofMoments_append h.quiet, ← after_nil]
  rw [hrun]
  rfl

theorem outcome_of_waiting {c : RoundContext R} {moments : List (Moment R)} (h : Waiting c moments) :
    outcome c moments = .error .abandoned := by
  have happ := outcome_append h []
  rw [List.append_nil] at happ
  rw [happ]
  show (run c .abandoned [] (after c (heard moments))).1 = _
  rw [run_abandoned (pending_of_incomplete h.incomplete)]

theorem outcome_of_breaks {c : RoundContext R} {before : List (Moment R)} {m : Moment R}
    {e : RoundError R} (h : Waiting c before) (hm : Breaks c (heard before) m e)
    (rest : List (Moment R)) : outcome c (before ++ m :: rest) = .error (.failed e) := by
  have hp := pending_of_incomplete h.incomplete
  rw [outcome_append h]
  cases hm with
  | cancelled hc =>
    rw [Watch.ofMoments, if_pos hc]
    show (run c .abandoned [.cancelled] (after c (heard before))).1 = _
    rw [run_cancelled hp]
  | timeout hc he hs =>
    rw [Watch.ofMoments, hc, he]
    show (run c .deadline [] (after c (heard before))).1 = _
    rw [run_deadline hp, expired_after, if_pos hs]
  | quorum hc he hs =>
    rw [Watch.ofMoments, hc, he]
    show (run c .deadline [] (after c (heard before))).1 = _
    rw [run_deadline hp, expired_after, if_neg hs]
  | closed hc he ha =>
    rw [Watch.ofMoments, hc, he, ha]
    show (run c .abandoned [.closed] (after c (heard before))).1 = _
    rw [run_closed hp]
  | refused hc he r t ha hmatch hl e hr =>
    rw [Watch.ofMoments, hc, he, ha]
    show (run c _ (.reply (.train r) t :: _) (after c (heard before))).1 = _
    rw [run_reply_error hp c _ _ (handle_of_refused hmatch hl hr t)]

theorem outcome_eq_ok {c : RoundContext R} {moments : List (Moment R)} {s : Collecting R} :
    outcome c moments = .ok s ↔
      Sound c (heard moments) ∧ Complete c (heard moments) ∧ s = after c (heard moments) := by
  constructor
  · intro h
    rcases complete_or_waiting_or_breaks c moments with
      ⟨hs, hc⟩ | hw | ⟨before, m, rest, e, rfl, hw, hb⟩
    · rw [outcome_of_complete hs hc] at h
      exact ⟨hs, hc, (Except.ok.inj h).symm⟩
    · rw [outcome_of_waiting hw] at h
      contradiction
    · rw [outcome_of_breaks hw hb rest] at h
      contradiction
  · rintro ⟨hs, hc, rfl⟩
    exact outcome_of_complete hs hc

theorem outcome_eq_failed {c : RoundContext R} {moments : List (Moment R)} {e : RoundError R} :
    outcome c moments = .error (.failed e) ↔
      ∃ before m rest, moments = before ++ m :: rest ∧ Waiting c before ∧
        Breaks c (heard before) m e := by
  constructor
  · intro h
    rcases complete_or_waiting_or_breaks c moments with
      ⟨hs, hc⟩ | hw | ⟨before, m, rest, e', rfl, hw, hb⟩
    · rw [outcome_of_complete hs hc] at h
      contradiction
    · rw [outcome_of_waiting hw] at h
      simp at h
    · rw [outcome_of_breaks hw hb rest] at h
      obtain rfl := Stop.failed.inj (Except.error.inj h)
      exact ⟨before, m, rest, rfl, hw, hb⟩
  · rintro ⟨before, m, rest, rfl, hw, hb⟩
    exact outcome_of_breaks hw hb rest

theorem outcome_eq_abandoned {c : RoundContext R} {moments : List (Moment R)} :
    outcome c moments = .error .abandoned ↔ Waiting c moments := by
  constructor
  · intro h
    rcases complete_or_waiting_or_breaks c moments with
      ⟨hs, hc⟩ | hw | ⟨before, m, rest, e, rfl, hw, hb⟩
    · rw [outcome_of_complete hs hc] at h
      contradiction
    · exact hw
    · rw [outcome_of_breaks hw hb rest] at h
      simp at h
  · exact outcome_of_waiting

/-- A round takes from moments that bring the observations of a watch what it takes from the watch. -/
theorem run_ofObservations (c : RoundContext R) (ending : Ending) (observed : List (Observation R))
    (s : Collecting R) :
    (run c (Watch.ofMoments (Moment.ofObservations ending observed)).ending
      (Watch.ofMoments (Moment.ofObservations ending observed)).observed s).1 =
      (run c ending observed s).1 := by
  induction observed generalizing s with
  | nil =>
    cases ending with
    | deadline => rfl
    | abandoned => rfl
  | cons o observed ih =>
    cases hp : s.pending.isEmpty with
    | true => rw [run_of_isEmpty hp, run_of_isEmpty hp]
    | false =>
      cases o with
      | cancelled =>
        show (run c .abandoned [.cancelled] s).1 = _
        rw [run_cancelled hp, run_cancelled hp]
      | closed =>
        show (run c .abandoned [.closed] s).1 = _
        rw [run_closed hp, run_closed hp]
      | reply r t =>
        show (run c _ (.reply r t :: _) s).1 = _
        cases hr : handle c s r t with
        | error e => rw [run_reply_error hp c _ _ hr, run_reply_error hp c _ _ hr]
        | ok s' =>
          rw [run_reply_ok hp c _ _ hr, run_reply_ok hp c _ _ hr]
          exact ih s'

end Collecting

/-! ## 3. Completion -/

/-- What becomes of a round that waits for its replies and combines them. -/
inductive RoundContext.Collected {σ : Type} [RootScalar R] (l : Link R σ) (c : RoundContext R)
    (world : σ) : Except (Stop (RoundError R)) (Collecting R) × Nat → RoundOutcome R × σ → Prop where
  | abandoned (n : Nat) :
    Collected l c world (.error .abandoned, n)
      (⟨.error .abandoned, [.phase .created, .phase .requestsSent, .phase .collecting]⟩,
        l.advance c.timeout n world)
  | failed (e : RoundError R) (n : Nat) :
    Collected l c world (.error (.failed e), n)
      (.failed [.created, .requestsSent, .collecting] e, l.advance c.timeout n world)
  | uncombined (s : Collecting R) (e : RoundError R) (n : Nat) (hs : s.complete c = .error e) :
    Collected l c world (.ok s, n)
      (.failed [.created, .requestsSent, .collecting] e, l.advance c.timeout n world)
  | completed (s : Collecting R) (completed : CompletedRound R) (n : Nat)
    (hs : s.complete c = .ok completed) :
    Collected l c world (.ok s, n)
      (⟨.ok completed, [.phase .created, .phase .requestsSent, .phase .collecting, .phase .complete,
        .model (some completed.aggregated.global)]⟩, l.advance c.timeout n world)

theorem RoundContext.collected_collect {σ : Type} [RootScalar R] (l : Link R σ) (c : RoundContext R)
    (world : σ) :
    Collected l c world
      (Collecting.run c (l.watch c.timeout world).ending (l.watch c.timeout world).observed (.start c))
      (c.collect l world) := by
  rw [collect]
  rcases Collecting.run c (l.watch c.timeout world).ending (l.watch c.timeout world).observed
    (.start c) with ⟨result, n⟩
  rcases result with (e | _) | s
  · exact .failed e n
  · exact .abandoned n
  · cases hs : s.complete c with
    | error e => simpa only [hs] using .uncombined s e n hs
    | ok completed => simpa only [hs] using .completed s completed n hs

/-- A round that has heard all its participants is completed from their replies. -/
theorem RoundContext.collect_result {σ : Type} [RootScalar R] (l : Link R σ) (c : RoundContext R)
    (world : σ) :
    (c.collect l world).1.result =
      (Collecting.run c (l.watch c.timeout world).ending (l.watch c.timeout world).observed
        (.start c)).1.bind fun s => (s.complete c).mapError .failed := by
  have h := collected_collect l c world
  generalize Collecting.run c _ _ _ = taken at h ⊢
  generalize c.collect l world = outcome at h ⊢
  cases h with
  | abandoned n => rfl
  | failed e n => rfl
  | uncombined s e n hs => simp [RoundOutcome.failed, Except.bind, Except.mapError, hs]
  | completed s completed n hs => simp [Except.bind, Except.mapError, hs]

open Collecting in
/-- A round reaches the aggregation if and only if of every participant a matching reply is heard in
time and the first one is acceptable. Otherwise it fails at the first moment that rules this out, or is
still waiting after the last one. -/
theorem collecting_completes_or_fails [RootScalar R] (c : RoundContext R)
    (moments : List (Moment R)) :
    ((∃ s, outcome c moments = .ok s) ↔
        ∀ node ∈ c.participants.keys, ∃ r t,
          firstMatch? c node (heard moments) = some (r, t) ∧ Accepted c.secagg.isSome r) ∧
      (∀ s, outcome c moments = .ok s → s.pending.keys = [] ∧
        ∀ node, s.received.find? node =
          (firstMatch? c node (heard moments)).map fun e => (e.1, e.2.toSeconds)) ∧
      (∀ e, outcome c moments = .error (.failed e) ↔
        ∃ before m rest, moments = before ++ m :: rest ∧ Waiting c before ∧
          Breaks c (heard before) m e) ∧
      (outcome c moments = .error .abandoned ↔ Waiting c moments) ∧
      (∀ l : Replies R, (missing c l).Pairwise (· < ·) ∧
        ∀ node, node ∈ missing c l ↔ node ∈ c.participants.keys ∧ firstMatch? c node l = none) ∧
      (∀ {σ : Type} (l : Link R σ) (world : σ),
        l.watch c.timeout world = Watch.ofMoments moments →
          (c.collect l world).1.result =
            (outcome c moments).bind fun s => (s.complete c).mapError .failed) := by
  refine ⟨?_, ?_, fun e => outcome_eq_failed, outcome_eq_abandoned, ?_, ?_⟩
  · rw [← sound_and_complete_iff]
    constructor
    · rintro ⟨s, hs⟩
      obtain ⟨hsound, hc, -⟩ := outcome_eq_ok.1 hs
      exact ⟨hsound, hc⟩
    · rintro ⟨hsound, hc⟩
      exact ⟨_, outcome_of_complete hsound hc⟩
  · intro s hs
    obtain ⟨-, hc, rfl⟩ := outcome_eq_ok.1 hs
    exact ⟨SortedMap.isEmpty_iff.1 (isEmpty_pending.2 hc), find?_received c _⟩
  · intro l
    constructor
    · have hasc := c.participants.ascending_keys.imp compareOfLessAndEq_eq_lt.1
      exact hasc.filter _
    · intro node
      rw [missing, List.mem_filter, Option.isNone_iff_eq_none]
  · intro σ l world hw
    rw [RoundContext.collect_result, hw, outcome]

/-- An attempt of a plain round of two nodes. -/
def pairRound (requestId : UInt64) : RoundContext ℚ where
  researcherId := "researcher"
  experimentId := "experiment"
  roundNumber := 0
  requestId := requestId
  participants := .ofList
    [("left", ⟨"data", StateId.initial, .empty⟩), ("right", ⟨"data", StateId.initial, .empty⟩)]
  global := .ofLayers [("layer", [0])]
  trainingArgs := {}
  modelArgs := .empty
  aggregator := .fedAverage
  optimizer := .identity
  nodeStates := .empty
  federationSize := 2
  timeout := .zero
  secagg := none

/-- An acceptable reply of a node to an attempt of the round. -/
def pairReply (requestId : UInt64) (node : NodeId) (value : ℚ) : WorkReply ℚ where
  experimentId := "experiment"
  roundNumber := 0
  requestId := requestId
  nodeId := node
  stateId := StateId.initial
  success := true
  params := some (.plain (.ofLayers [("layer", [value])]))
  sampleCount := 1
  auxVars := .empty
  timing := .zero
  metrics := .empty
  error := none

/-- A reply to an earlier attempt, a reply, and a reply that is ready no sooner than the deadline. -/
def pairMoments : List (Moment ℚ) :=
  [{ arrival := .reply (.train (pairReply 6 "right" 5)) .zero },
    { arrival := .reply (.train (pairReply 7 "left" 1)) .zero },
    { expired := true, arrival := .reply (.train (pairReply 7 "right" 3)) .zero }]

theorem waiting_pairRound : Collecting.Waiting (pairRound 7) (pairMoments.take 2) where
  quiet := by decide
  incomplete h := by
    have hright := h "right" (by decide)
    exact absurd hright (by decide)
  sound := by
    intro node r t h
    obtain ⟨hmem, hm, -⟩ := Collecting.firstMatch?_eq_some h
    have hr : (r = pairReply 6 "right" 5 ∧ t = .zero) ∨ (r = pairReply 7 "left" 1 ∧ t = .zero) := by
      simpa [heard, pairMoments] using hmem
    rcases hr with ⟨rfl, rfl⟩ | ⟨rfl, rfl⟩
    · exact absurd hm (by decide)
    · exact ⟨rfl, rfl, by simp [pairReply, pairRound]⟩

theorem collecting_completes_or_fails_pair :
    Collecting.outcome (pairRound 7) pairMoments = .error (.failed (.nodeTimeout ["right"])) := by
  have hmissing : Collecting.missing (pairRound 7) (heard (pairMoments.take 2)) = ["right"] := by
    decide
  have hcases := collecting_completes_or_fails (pairRound 7) pairMoments
  refine (hcases.2.2.1 _).2 ⟨pairMoments.take 2, _, [], rfl, waiting_pairRound, ?_⟩
  rw [← hmissing]
  exact .timeout rfl rfl rfl

end Federation
