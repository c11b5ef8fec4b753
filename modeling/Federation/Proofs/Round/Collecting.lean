import Federation.Proofs.Moments
import Federation.Proofs.SortedMap
import Federation.Round.Collecting
/-!
# The state of a round that collects

While a round collects, its state is determined by the replies heard so far: of each participant the
first matching reply counts and everything else is discarded.
-/

namespace Federation

variable {R : Type}

/-! ## 1. Matching replies -/

/-- Whether a reply belongs to the round and continues from the state that its node was given. -/
def RoundContext.isMatching (c : RoundContext R) (r : WorkReply R) : Bool :=
  r.experimentId == c.experimentId && r.roundNumber == c.roundNumber && r.requestId == c.requestId
    && (c.participants.find? r.nodeId).map Participant.stateId == some r.stateId

namespace Collecting

/-- What a reply is to a node: a matching reply, or nothing. -/
def matching? (c : RoundContext R) (node : NodeId) : Reply R × Duration → Option (WorkReply R × Duration)
  | (.train r, t) => if c.isMatching r ∧ r.nodeId = node then some (r, t) else none
  | (.setup _, _) => none

/-- The first matching reply of a node. -/
def firstMatch? (c : RoundContext R) (node : NodeId) (l : Replies R) : Option (WorkReply R × Duration) :=
  l.findSome? (matching? c node)

theorem matching?_eq_some {c : RoundContext R} {node : NodeId} {e : Reply R × Duration}
    {r : WorkReply R} {t : Duration} (h : matching? c node e = some (r, t)) :
    e = (.train r, t) ∧ c.isMatching r = true ∧ r.nodeId = node := by
  obtain ⟨reply, t'⟩ := e
  cases reply with
  | setup r' => simp [matching?] at h
  | train r' =>
    simp only [matching?] at h
    split at h
    next hm =>
      obtain ⟨rfl, rfl⟩ := Prod.mk.inj (Option.some.inj h)
      exact ⟨rfl, hm⟩
    next => contradiction

theorem firstMatch?_eq_some {c : RoundContext R} {node : NodeId} {l : Replies R}
    {r : WorkReply R} {t : Duration} (h : firstMatch? c node l = some (r, t)) :
    (.train r, t) ∈ l ∧ c.isMatching r = true ∧ r.nodeId = node := by
  obtain ⟨e, he, hm⟩ := List.exists_of_findSome?_eq_some h
  obtain ⟨rfl, hmatch⟩ := matching?_eq_some hm
  exact ⟨he, hmatch⟩

theorem firstMatch?_append (c : RoundContext R) (node : NodeId) (l l' : Replies R) :
    firstMatch? c node (l ++ l') = (firstMatch? c node l).or (firstMatch? c node l') :=
  List.findSome?_append

theorem firstMatch?_singleton (c : RoundContext R) (node : NodeId) (e : Reply R × Duration) :
    firstMatch? c node [e] = matching? c node e := by
  simp [firstMatch?]

/-- A matching reply comes from a participant and continues from its state. -/
theorem find?_participants_of_isMatching {c : RoundContext R} {r : WorkReply R}
    (h : c.isMatching r = true) : ∃ p, c.participants.find? r.nodeId = some p ∧ p.stateId = r.stateId := by
  simp only [RoundContext.isMatching, Bool.and_eq_true, beq_iff_eq] at h
  exact Option.map_eq_some_iff.1 h.2

/-- The verdict on the first matching reply of a node is not changed by what is heard later. -/
theorem firstMatch?_append_of_some {c : RoundContext R} {node : NodeId} {l : Replies R}
    {e : WorkReply R × Duration} (h : firstMatch? c node l = some e) (l' : Replies R) :
    firstMatch? c node (l ++ l') = some e := by
  rw [firstMatch?_append, h, Option.some_or]

/-- Only participants have matching replies. -/
theorem mem_participants_of_firstMatch? {c : RoundContext R} {node : NodeId} {l : Replies R}
    {e : WorkReply R × Duration} (h : firstMatch? c node l = some e) :
    node ∈ c.participants.keys := by
  obtain ⟨-, hm, rfl⟩ := firstMatch?_eq_some h
  obtain ⟨p, hp, -⟩ := find?_participants_of_isMatching hm
  exact SortedMap.mem_keys.2 ⟨p, hp⟩

/-! ## 2. Acceptable replies -/

/-- An acceptable reply is consistent, reports success, and is masked exactly in a secure round. -/
structure Accepted (secure : Bool) (r : WorkReply R) : Prop where
  valid : r.validate = .ok ()
  success : r.success = true
  masked : (∃ v, r.params = some (.masked v)) ↔ secure = true

/-- How a matching reply that is not acceptable fails the round. An inconsistent reply goes before a
reported failure, and a reported failure before parameters of the wrong kind. -/
inductive Refused (secure : Bool) (r : WorkReply R) : RoundError R → Prop where
  | inconsistent (e : ReplyError) (h : r.validate = .error e) :
    Refused secure r (.protocolMismatch r.nodeId (Failure.message e))
  | lostParty (hv : r.validate = .ok ()) (hs : r.success = false) (hsecure : secure = true) :
    Refused secure r (.secureAggregation (.quorumNotMet [r.nodeId]))
  | lostState (e : NodeError) (hv : r.validate = .ok ()) (he : r.error = some e)
    (hs : r.success = false) (hsecure : secure = false) (hk : e.kind = .stateMismatch) :
    Refused secure r (.stateMismatch r.nodeId e.message)
  | untrained (e : NodeError) (hv : r.validate = .ok ()) (he : r.error = some e)
    (hs : r.success = false) (hsecure : secure = false) (hk : e.kind ≠ .stateMismatch) :
    Refused secure r (.nodeTraining r.nodeId e.message)
  | unexpectedMask (hv : r.validate = .ok ()) (hs : r.success = true) (hsecure : secure = false)
    (v : MaskedVector) (hp : r.params = some (.masked v)) :
    Refused secure r (.protocolMismatch r.nodeId "expected plain parameters")
  | missingMask (hv : r.validate = .ok ()) (hs : r.success = true) (hsecure : secure = true)
    (p : Parameters R) (hp : r.params = some (.plain p)) :
    Refused secure r (.protocolMismatch r.nodeId "expected masked parameters")

/-- A consistent reply carries parameters if it reports success and an error if it does not. -/
theorem validate_eq_ok {r : WorkReply R} (h : r.validate = .ok ()) :
    (r.success = true ∧ (∃ p, r.params = some p) ∧ r.error = none) ∨
      (r.success = false ∧ r.params = none ∧ ∃ e, r.error = some e) := by
  rw [WorkReply.validate] at h
  split at h <;> simp_all

theorem check_of_accepted {secure : Bool} {r : WorkReply R} (h : Accepted secure r) :
    check secure r = .ok () := by
  obtain ⟨-, ⟨p, hp⟩, -⟩ | ⟨hs, -⟩ := validate_eq_ok h.valid
  · have hm := h.masked
    unfold check
    rw [h.valid]
    cases p <;> cases secure <;> simp_all [h.success]
  · rw [h.success] at hs
    contradiction

theorem check_of_refused {secure : Bool} {r : WorkReply R} {e : RoundError R}
    (h : Refused secure r e) : check secure r = .error e := by
  cases h with
  | inconsistent e h =>
    unfold check
    rw [h]
  | lostParty hv hs hsecure => simp [check, nodeFailure, hv, hs, hsecure]
  | lostState e hv he hs hsecure hk => simp [check, nodeFailure, hv, he, hs, hsecure, hk]
  | untrained e hv he hs hsecure hk => simp [check, nodeFailure, hv, he, hs, hsecure, hk]
  | unexpectedMask hv hs hsecure v hp => simp [check, hv, hs, hsecure, hp]
  | missingMask hv hs hsecure p hp => simp [check, hv, hs, hsecure, hp]

theorem accepted_or_refused (secure : Bool) (r : WorkReply R) :
    Accepted secure r ∨ ∃ e, Refused secure r e := by
  cases hv : r.validate with
  | error e => exact Or.inr ⟨_, .inconsistent e hv⟩
  | ok u =>
    obtain ⟨hs, ⟨p, hp⟩, -⟩ | ⟨hs, -, ⟨e, he⟩⟩ := validate_eq_ok hv
    · cases p with
      | plain p =>
        cases secure with
        | false => exact Or.inl ⟨hv, hs, by simp [hp]⟩
        | true => exact Or.inr ⟨_, .missingMask hv hs rfl p hp⟩
      | masked v =>
        cases secure with
        | false => exact Or.inr ⟨_, .unexpectedMask hv hs rfl v hp⟩
        | true => exact Or.inl ⟨hv, hs, by simp [hp]⟩
    · cases secure with
      | true => exact Or.inr ⟨_, .lostParty hv hs rfl⟩
      | false =>
        by_cases hk : e.kind = .stateMismatch
        · exact Or.inr ⟨_, .lostState e hv he hs rfl hk⟩
        · exact Or.inr ⟨_, .untrained e hv he hs rfl hk⟩

/-! ## 3. Sound and complete replies -/

/-- Every first matching reply is acceptable. -/
def Sound (c : RoundContext R) (l : Replies R) : Prop :=
  ∀ node r t, firstMatch? c node l = some (r, t) → Accepted c.secagg.isSome r

/-- Every participant has a matching reply. -/
def Complete (c : RoundContext R) (l : Replies R) : Prop :=
  ∀ node ∈ c.participants.keys, (firstMatch? c node l).isSome

/-- The participants without a matching reply, in ascending order. -/
def missing (c : RoundContext R) (l : Replies R) : List NodeId :=
  c.participants.keys.filter fun node => (firstMatch? c node l).isNone

theorem Sound.of_append {c : RoundContext R} {l l' : Replies R} (h : Sound c (l ++ l')) : Sound c l :=
  fun node r t hm => h node r t (firstMatch?_append_of_some hm l')

theorem Complete.append {c : RoundContext R} {l : Replies R} (h : Complete c l) (l' : Replies R) :
    Complete c (l ++ l') := by
  intro node hn
  obtain ⟨e, he⟩ := Option.isSome_iff_exists.1 (h node hn)
  rw [firstMatch?_append_of_some he l']
  rfl

theorem sound_and_complete_iff {c : RoundContext R} {l : Replies R} :
    Sound c l ∧ Complete c l ↔ ∀ node ∈ c.participants.keys, ∃ r t,
      firstMatch? c node l = some (r, t) ∧ Accepted c.secagg.isSome r := by
  constructor
  · rintro ⟨hs, hc⟩ node hn
    obtain ⟨⟨r, t⟩, hfirst⟩ := Option.isSome_iff_exists.1 (hc node hn)
    exact ⟨r, t, hfirst, hs node r t hfirst⟩
  · intro h
    constructor
    · intro node r t hfirst
      obtain ⟨r', t', hfirst', ha⟩ := h node (mem_participants_of_firstMatch? hfirst)
      rw [hfirst] at hfirst'
      obtain ⟨rfl, rfl⟩ := Prod.mk.inj (Option.some.inj hfirst')
      exact ha
    · intro node hn
      obtain ⟨r, t, hfirst, -⟩ := h node hn
      rw [hfirst]
      rfl

/-- After all participants have replied no reply is the first matching one of anybody. -/
theorem Complete.firstMatch?_append {c : RoundContext R} {l : Replies R} (h : Complete c l)
    (l' : Replies R) (node : NodeId) : firstMatch? c node (l ++ l') = firstMatch? c node l := by
  cases hl : firstMatch? c node l with
  | some e => exact firstMatch?_append_of_some hl l'
  | none =>
    -- a node with a later match is a participant, so it would have an earlier one
    cases hl' : firstMatch? c node (l ++ l') with
    | none => rfl
    | some e =>
      have hsome := h node (mem_participants_of_firstMatch? hl')
      rw [hl] at hsome
      contradiction

/-! ## 4. The state after a list of replies -/

theorem ext_find? {s s' : Collecting R} (hp : ∀ node, s.pending.find? node = s'.pending.find? node)
    (hr : ∀ node, s.received.find? node = s'.received.find? node) : s = s' := by
  obtain ⟨pending, received⟩ := s
  obtain ⟨pending', received'⟩ := s'
  rw [Collecting.mk.injEq]
  exact ⟨SortedMap.ext_find? hp, SortedMap.ext_find? hr⟩

variable [Scalar R]

/-- The state of the round after it has heard some replies, none of which failed it. -/
def after (c : RoundContext R) (l : Replies R) : Collecting R where
  pending := c.participants.filterMap fun node p =>
    if (firstMatch? c node l).isNone then some p.stateId else none
  received := c.participants.filterMap fun node _ =>
    (firstMatch? c node l).map fun e => (e.1, e.2.toSeconds)

theorem find?_pending (c : RoundContext R) (l : Replies R) (node : NodeId) :
    (after c l).pending.find? node =
      if (firstMatch? c node l).isNone then (c.participants.find? node).map Participant.stateId
      else none := by
  rw [after, SortedMap.find?_filterMap]
  cases c.participants.find? node <;> simp

theorem find?_received (c : RoundContext R) (l : Replies R) (node : NodeId) :
    (after c l).received.find? node =
      (firstMatch? c node l).map fun e => (e.1, e.2.toSeconds) := by
  rw [after, SortedMap.find?_filterMap]
  cases h : firstMatch? c node l with
  | none => simp
  | some e =>
    obtain ⟨-, hm, rfl⟩ := firstMatch?_eq_some h
    obtain ⟨p, hp, -⟩ := find?_participants_of_isMatching hm
    simp [hp]

theorem after_nil (c : RoundContext R) : after c [] = start c := by
  apply ext_find?
  · intro node
    rw [find?_pending, start, SortedMap.find?_map]
    simp [firstMatch?]
  · intro node
    rw [find?_received, start]
    simp [firstMatch?]

/-- The round awaits a reply if it is the first matching one of its node. -/
theorem awaits_after (c : RoundContext R) (l : Replies R) (r : WorkReply R) :
    awaits c (after c l) r = (c.isMatching r && (firstMatch? c r.nodeId l).isNone) := by
  rw [awaits, find?_pending, RoundContext.isMatching]
  cases firstMatch? c r.nodeId l <;> simp

/-- A reply that the round does not await leaves its state. -/
theorem after_append_of_not_awaited {c : RoundContext R} {l : Replies R} {e : Reply R × Duration}
    (h : ∀ node r t, matching? c node e = some (r, t) → firstMatch? c node l ≠ none) :
    after c (l ++ [e]) = after c l := by
  have hfirst : ∀ node, firstMatch? c node (l ++ [e]) = firstMatch? c node l := by
    intro node
    rw [firstMatch?_append, firstMatch?_singleton]
    cases hl : firstMatch? c node l with
    | some x => rfl
    | none =>
      cases hm : matching? c node e with
      | none => rfl
      | some x => exact absurd hl (h node x.1 x.2 hm)
  apply ext_find?
  · intro node
    rw [find?_pending, find?_pending, hfirst]
  · intro node
    rw [find?_received, find?_received, hfirst]

/-- A reply that the round awaits counts for its node. -/
theorem after_append_of_awaited {c : RoundContext R} {l : Replies R} {r : WorkReply R} {t : Duration}
    (hm : c.isMatching r = true) (hl : firstMatch? c r.nodeId l = none) :
    after c (l ++ [(.train r, t)]) =
      { pending := (after c l).pending.erase r.nodeId
        received := (after c l).received.insert r.nodeId (r, t.toSeconds) } := by
  have hfirst : ∀ node, firstMatch? c node (l ++ [(.train r, t)]) =
      if node = r.nodeId then some (r, t) else firstMatch? c node l := by
    intro node
    rw [firstMatch?_append, firstMatch?_singleton]
    by_cases hn : node = r.nodeId
    · rw [if_pos hn, hn, hl, Option.none_or, matching?, if_pos ⟨hm, rfl⟩]
    · rw [if_neg hn, matching?, if_neg (fun h => hn h.2.symm), Option.or_none]
  apply ext_find?
  · intro node
    rw [find?_pending, hfirst, SortedMap.find?_erase, find?_pending]
    by_cases hn : node = r.nodeId
    · simp [hn]
    · simp [hn]
  · intro node
    rw [find?_received, hfirst, SortedMap.find?_insert, find?_received]
    by_cases hn : node = r.nodeId
    · simp [hn]
    · simp [hn]

theorem keys_pending (c : RoundContext R) (l : Replies R) : (after c l).pending.keys = missing c l := by
  apply SortedMap.keys_filterMap
  intro node p
  cases firstMatch? c node l <;> rfl

theorem isEmpty_pending {c : RoundContext R} {l : Replies R} :
    (after c l).pending.isEmpty = true ↔ Complete c l := by
  rw [SortedMap.isEmpty_iff, keys_pending, missing, List.filter_eq_nil_iff]
  simp [Complete, Option.isSome_iff_ne_none]

theorem Complete.after_append {c : RoundContext R} {l : Replies R} (h : Complete c l)
    (l' : Replies R) : after c (l ++ l') = after c l := by
  apply ext_find?
  · intro node
    rw [find?_pending, find?_pending, h.firstMatch?_append]
  · intro node
    rw [find?_received, find?_received, h.firstMatch?_append]

/-! ## 5. Runs over replies -/

/-- A reply that leaves the round sound takes it to the state after that reply. -/
theorem handle_of_sound {c : RoundContext R} {l : Replies R} {e : Reply R × Duration}
    (h : Sound c (l ++ [e])) : handle c (after c l) e.1 e.2 = .ok (after c (l ++ [e])) := by
  obtain ⟨reply, t⟩ := e
  cases reply with
  | setup r =>
    rw [handle, after_append_of_not_awaited fun node r t hm => by simp [matching?] at hm]
  | train r =>
    have ha := awaits_after c l r
    -- the reply is either the first matching one of its node or discarded
    by_cases hm : c.isMatching r = true ∧ firstMatch? c r.nodeId l = none
    · obtain ⟨hm, hl⟩ := hm
      have hfirst : firstMatch? c r.nodeId (l ++ [(.train r, t)]) = some (r, t) := by
        rw [firstMatch?_append, hl, Option.none_or, firstMatch?_singleton, matching?, if_pos ⟨hm, rfl⟩]
      have hok := check_of_accepted (h _ _ _ hfirst)
      rw [hm, hl] at ha
      rw [handle, ha, after_append_of_awaited hm hl, hok]
      rfl
    · have hna : awaits c (after c l) r = false := by
        rw [ha, Bool.and_eq_false_iff, Option.isNone_eq_false_iff, Option.isSome_iff_ne_none]
        by_cases hm' : c.isMatching r = true
        · exact Or.inr fun hl => hm ⟨hm', hl⟩
        · exact Or.inl (by simpa using hm')
      rw [handle, hna, after_append_of_not_awaited]
      · rfl
      · intro node r' t' hmatch hl
        obtain ⟨heq, hm', rfl⟩ := matching?_eq_some hmatch
        cases heq
        exact hm ⟨hm', hl⟩

/-- An awaited reply that is not acceptable fails the round. -/
theorem handle_of_refused {c : RoundContext R} {l : Replies R} {r : WorkReply R} {e : RoundError R}
    (hm : c.isMatching r = true) (hl : firstMatch? c r.nodeId l = none)
    (h : Refused c.secagg.isSome r e) (t : Duration) :
    handle c (after c l) (.train r) t = .error e := by
  have ha := awaits_after c l r
  rw [hm, hl] at ha
  rw [handle, ha, check_of_refused h]
  rfl

theorem run_of_isEmpty {s : Collecting R} (h : s.pending.isEmpty = true) (c : RoundContext R)
    (ending : Ending) (observed : List (Observation R)) : run c ending observed s = (.ok s, 0) := by
  simp [run.eq_def, h]

section

variable {s : Collecting R} (h : s.pending.isEmpty = false) (c : RoundContext R) (ending : Ending)
  (rest : List (Observation R))
include h

theorem run_deadline : run c .deadline [] s = (.error (.failed (s.expired c)), 1) := by
  simp [run.eq_def, h]

theorem run_abandoned : run c .abandoned [] s = (.error .abandoned, 1) := by
  simp [run.eq_def, h]

theorem run_cancelled : run c ending (.cancelled :: rest) s = (.error (.failed .cancelled), 1) := by
  simp [run.eq_def, h]

theorem run_closed : run c ending (.closed :: rest) s = (.error (.failed .replyChannel), 1) := by
  simp [run.eq_def, h]

theorem run_reply_error {r : Reply R} {t : Duration} {e : RoundError R}
    (hr : handle c s r t = .error e) :
    run c ending (.reply r t :: rest) s = (.error (.failed e), 1) := by
  rw [run.eq_def]
  simp [h, hr]

theorem run_reply_ok {r : Reply R} {t : Duration} {s' : Collecting R}
    (hr : handle c s r t = .ok s') :
    run c ending (.reply r t :: rest) s =
      ((run c ending rest s').1, (run c ending rest s').2 + 1) := by
  rw [run.eq_def]
  simp [h, hr]

end

theorem pending_of_incomplete {c : RoundContext R} {l : Replies R} (h : ¬Complete c l) :
    (after c l).pending.isEmpty = false := by
  rw [← Bool.not_eq_true, isEmpty_pending]
  exact h

/-- While the replies are sound and do not complete the round, they are taken one after the other. -/
theorem run_of_incomplete {c : RoundContext R} {l l' : Replies R} (hs : Sound c (l ++ l'))
    (hi : ¬Complete c (l ++ l')) (ending : Ending) (rest : List (Observation R)) :
    run c ending (l'.map observation ++ rest) (after c l) =
      ((run c ending rest (after c (l ++ l'))).1,
        (run c ending rest (after c (l ++ l'))).2 + l'.length) := by
  -- the replies already taken are a variable, so that they can take up the next one
  induction l' generalizing l with
  | nil => simp
  | cons e l' ih =>
    have happ : l ++ e :: l' = (l ++ [e]) ++ l' := by simp
    rw [happ] at hs hi ⊢
    have hl : ¬Complete c l := fun h => hi ((h.append [e]).append l')
    rw [List.map_cons, List.cons_append, observation,
      run_reply_ok (pending_of_incomplete hl) c ending _ (handle_of_sound hs.of_append), ih hs hi]
    simp only [List.length_cons, Nat.add_assoc]

/-- Sound replies that complete the round lead to the state after them, whatever follows. -/
theorem run_of_complete {c : RoundContext R} {l l' : Replies R} (hs : Sound c (l ++ l'))
    (hc : Complete c (l ++ l')) (ending : Ending) (rest : List (Observation R)) :
    (run c ending (l'.map observation ++ rest) (after c l)).1 = .ok (after c (l ++ l')) := by
  induction l' generalizing l with
  | nil =>
    rw [List.append_nil] at hc ⊢
    rw [run_of_isEmpty (isEmpty_pending.2 hc)]
  | cons e l' ih =>
    by_cases hl : Complete c l
    · -- the loop ends before the next reply, which would not have changed its state
      rw [run_of_isEmpty (isEmpty_pending.2 hl), hl.after_append]
    · have happ : l ++ e :: l' = (l ++ [e]) ++ l' := by simp
      rw [happ] at hs hc ⊢
      rw [List.map_cons, List.cons_append, observation,
        run_reply_ok (pending_of_incomplete hl) c ending _ (handle_of_sound hs.of_append)]
      exact ih hs hc

end Collecting

end Federation
