import Federation.Proofs.SortedMap
import Federation.Secagg.Setup
/-!
# The state of a setup that waits

While a setup waits, its state is determined by what it has observed: the first answer of every party
counts and everything else is skipped. The setup waits on as long as every first answer joins the
session, and it ends at the first observation that rules out a session.
-/

namespace Federation

variable {R : Type}

/-! ## 1. Answers -/

namespace SetupReply

/-- The key with which a reply joins the session. A refusal joins with none. -/
def key? (r : SetupReply) : Option Crypto.Key := if r.success then r.publicKey else none

/-- How a reply that does not join the session fails the setup. -/
def refusal (r : SetupReply) : SecaggError R :=
  if r.success then .missingPublicKey r.nodeId
  else .setupRefused r.nodeId ((r.error.map (·.message)).getD "")

end SetupReply

/-- What the parties of a session are asked to join. -/
structure Invitation where
  experimentId : ExperimentId
  sessionId : String
  parties : NameSet

namespace Invitation

variable (i : Invitation)

/-- What an observation is to a party: its answer to the invitation, or nothing. -/
def answer? (party : NodeId) : Observation R → Option SetupReply
  | .reply (.setup r) _ =>
    if r.experimentId = i.experimentId ∧ r.sessionId = i.sessionId ∧ r.nodeId = party then some r
    else none
  | _ => none

/-- The first answer of a party. -/
def firstAnswer? (party : NodeId) (l : List (Observation R)) : Option SetupReply :=
  l.findSome? (i.answer? party)

/-- The parties without an answer, in ascending order. -/
def missing (l : List (Observation R)) : List NodeId :=
  i.parties.keys.filter fun party => (i.firstAnswer? party l).isNone

/-- Nothing that was observed rules out a session: replies can still arrive, and the first answer of
every party that has answered joins the session. -/
structure Unhindered (l : List (Observation R)) : Prop where
  fed : .closed ∉ l
  joining : ∀ party ∈ i.parties.keys, ∀ r, i.firstAnswer? party l = some r → r.key?.isSome

/-- Every party has answered. -/
def Complete (l : List (Observation R)) : Prop :=
  ∀ party ∈ i.parties.keys, (i.firstAnswer? party l).isSome

variable {i} {l l' : List (Observation R)} {party : NodeId}

theorem firstAnswer?_append (l l' : List (Observation R)) :
    i.firstAnswer? party (l ++ l') = (i.firstAnswer? party l).or (i.firstAnswer? party l') :=
  List.findSome?_append

theorem firstAnswer?_singleton (o : Observation R) : i.firstAnswer? party [o] = i.answer? party o := by
  simp [firstAnswer?]

theorem firstAnswer?_append_of_some {r : SetupReply} (h : i.firstAnswer? party l = some r)
    (l' : List (Observation R)) : i.firstAnswer? party (l ++ l') = some r := by
  rw [firstAnswer?_append, h, Option.some_or]

theorem answer?_setup {r : SetupReply} {t : Duration} :
    i.answer? party (.reply (.setup r) t : Observation R) =
      if r.experimentId = i.experimentId ∧ r.sessionId = i.sessionId ∧ r.nodeId = party then some r
      else none :=
  rfl

theorem Unhindered.of_append (h : i.Unhindered (l ++ l')) : i.Unhindered l where
  fed hm := h.fed (List.mem_append_left _ hm)
  joining party hp r hr := h.joining party hp r (firstAnswer?_append_of_some hr l')

theorem Complete.append (h : i.Complete l) (l' : List (Observation R)) : i.Complete (l ++ l') := by
  intro party hp
  obtain ⟨r, hr⟩ := Option.isSome_iff_exists.1 (h party hp)
  rw [firstAnswer?_append_of_some hr l']
  rfl

/-- After all parties have answered nothing is the first answer of a party. -/
theorem Complete.firstAnswer?_append (h : i.Complete l) (l' : List (Observation R))
    (hp : party ∈ i.parties.keys) : i.firstAnswer? party (l ++ l') = i.firstAnswer? party l := by
  obtain ⟨r, hr⟩ := Option.isSome_iff_exists.1 (h party hp)
  rw [firstAnswer?_append_of_some hr l', hr]

/-! ## 2. The state after a list of observations -/

/-- The keys with which the parties have joined. -/
def publicKeys (i : Invitation) (l : List (Observation R)) : NameMap Crypto.Key :=
  i.parties.filterMap fun party _ => (i.firstAnswer? party l).bind SetupReply.key?

/-- The state of the setup after some observations that rule out no session. -/
def after (i : Invitation) (l : List (Observation R)) : Joining where
  experimentId := i.experimentId
  sessionId := i.sessionId
  pending := i.parties.filter fun party _ => (i.firstAnswer? party l).isNone
  publicKeys := i.publicKeys l

theorem find?_publicKeys (l : List (Observation R)) (hp : party ∈ i.parties.keys) :
    (i.publicKeys l).find? party = (i.firstAnswer? party l).bind SetupReply.key? := by
  obtain ⟨u, hu⟩ := SortedMap.mem_keys.1 hp
  rw [publicKeys, SortedMap.find?_filterMap, hu, Option.bind_some]

theorem keys_publicKeys (hj : i.Unhindered l) (hc : i.Complete l) :
    (i.publicKeys l).keys = i.parties.keys := by
  rw [publicKeys, SortedMap.keys_filterMap (p := fun party => ((i.firstAnswer? party l).bind
    SetupReply.key?).isSome) fun _ _ => rfl, List.filter_eq_self]
  intro party hp
  obtain ⟨r, hr⟩ := Option.isSome_iff_exists.1 (hc party hp)
  rw [hr, Option.bind_some]
  exact hj.joining party hp r hr

theorem find?_pending (l : List (Observation R)) (party : NodeId) :
    (i.after l).pending.find? party =
      (i.parties.find? party).filter fun _ => (i.firstAnswer? party l).isNone := by
  rw [after, SortedMap.find?_filter]

theorem contains_pending (l : List (Observation R)) (party : NodeId) :
    (i.after l).pending.contains party = true ↔
      party ∈ i.parties.keys ∧ i.firstAnswer? party l = none := by
  rw [SortedMap.contains, find?_pending, SortedMap.mem_keys_iff_isSome]
  cases i.parties.find? party <;> cases i.firstAnswer? party l <;> simp

theorem keys_pending (l : List (Observation R)) : (i.after l).pending.keys = i.missing l := by
  simp only [after, missing, SortedMap.keys, SortedMap.filter, List.filter_map]
  rfl

theorem isEmpty_pending : (i.after l).pending.isEmpty = true ↔ i.Complete l := by
  rw [SortedMap.isEmpty_iff, keys_pending, missing, List.filter_eq_nil_iff]
  simp [Complete, Option.isSome_iff_ne_none]

/-- Nobody has joined yet. -/
def start (i : Invitation) : Joining := ⟨i.experimentId, i.sessionId, i.parties, .empty⟩

theorem after_nil : i.after ([] : List (Observation R)) = i.start := by
  simp only [after, start, publicKeys, firstAnswer?, List.findSome?_nil, Joining.mk.injEq, true_and]
  constructor
  · apply SortedMap.ext_find?
    intro party
    rw [SortedMap.find?_filter]
    cases i.parties.find? party <;> rfl
  · apply SortedMap.ext_find?
    intro party
    rw [SortedMap.find?_filterMap]
    cases i.parties.find? party <;> rfl

/-- An observation that is the first answer of no party leaves the state. -/
theorem after_append_of_skipped {o : Observation R}
    (h : ∀ party ∈ i.parties.keys, i.firstAnswer? party l = none → i.answer? party o = none) :
    i.after (l ++ [o]) = i.after l := by
  have hfirst : ∀ party u, i.parties.find? party = some u →
      i.firstAnswer? party (l ++ [o]) = i.firstAnswer? party l := by
    intro party u hu
    rw [firstAnswer?_append, firstAnswer?_singleton]
    cases hl : i.firstAnswer? party l with
    | some r => rfl
    | none => rw [h party (SortedMap.mem_keys.2 ⟨u, hu⟩) hl, Option.none_or]
  simp only [after, publicKeys, Joining.mk.injEq, true_and]
  constructor
  · apply SortedMap.ext_find?
    intro party
    rw [SortedMap.find?_filter, SortedMap.find?_filter]
    cases hu : i.parties.find? party with
    | none => rfl
    | some u => rw [hfirst party u hu]
  · apply SortedMap.ext_find?
    intro party
    rw [SortedMap.find?_filterMap, SortedMap.find?_filterMap]
    cases hu : i.parties.find? party with
    | none => rfl
    | some u => rw [hfirst party u hu]

/-- The first answer of a party that joins the session moves the party over. -/
theorem after_append_of_joined {r : SetupReply} {t : Duration} {key : Crypto.Key}
    (he : r.experimentId = i.experimentId) (hs : r.sessionId = i.sessionId)
    (hp : r.nodeId ∈ i.parties.keys) (hl : i.firstAnswer? r.nodeId l = none)
    (hkey : r.key? = some key) :
    i.after (l ++ [.reply (.setup r) t]) =
      { i.after l with
        pending := (i.after l).pending.erase r.nodeId
        publicKeys := (i.after l).publicKeys.insert r.nodeId key } := by
  have hfirst : ∀ party, i.firstAnswer? party (l ++ [.reply (.setup r) t]) =
      if party = r.nodeId then some r else i.firstAnswer? party l := by
    intro party
    rw [firstAnswer?_append, firstAnswer?_singleton, answer?_setup]
    by_cases hn : party = r.nodeId
    · rw [if_pos hn, hn, hl, if_pos ⟨he, hs, rfl⟩, Option.none_or]
    · rw [if_neg hn, if_neg (fun h => hn h.2.2.symm), Option.or_none]
  obtain ⟨u, hu⟩ := SortedMap.mem_keys.1 hp
  simp only [after, publicKeys, Joining.mk.injEq, true_and]
  constructor
  · apply SortedMap.ext_find?
    intro party
    rw [SortedMap.find?_erase, SortedMap.find?_filter, SortedMap.find?_filter, hfirst]
    by_cases hn : party = r.nodeId
    · rw [if_pos hn, if_pos hn]
      exact Option.filter_eq_none_iff.2 (by simp)
    · simp [hn]
  · apply SortedMap.ext_find?
    intro party
    rw [SortedMap.find?_insert, SortedMap.find?_filterMap, SortedMap.find?_filterMap, hfirst]
    by_cases hn : party = r.nodeId
    · simp [hn, hu, hkey]
    · simp [hn]

end Invitation

namespace Joining

/-! ## 3. The loop -/

variable {j : Joining} (ending : Ending) (rest : List (Observation R))

theorem run_of_isEmpty (h : j.pending.isEmpty = true) (observed : List (Observation R)) :
    run ending observed j = (.ok j, 0) := by
  simp [run.eq_def, h]

section

variable (h : j.pending.isEmpty = false)
include h

theorem run_deadline : (run .deadline ([] : List (Observation R)) j).1 =
    .error (.failed (.setupTimeout j.pending.keys)) := by
  simp [run.eq_def, h]

theorem run_abandoned : (run .abandoned ([] : List (Observation R)) j).1 = .error .abandoned := by
  simp [run.eq_def, h]

theorem run_closed : (run ending (.closed :: rest) j).1 = .error (.failed .replyChannel) := by
  simp [run.eq_def, h]

theorem run_cancelled : (run ending (.cancelled :: rest) j).1 = (run ending rest j).1 := by
  rw [run.eq_def]
  simp [h]

theorem run_train (r : WorkReply R) (t : Duration) :
    (run ending (.reply (.train r) t :: rest) j).1 = (run ending rest j).1 := by
  rw [run.eq_def]
  simp [h]

theorem run_setup_error {r : SetupReply} {e : SecaggError R} (hr : j.take r = .error e)
    (t : Duration) : (run ending (.reply (.setup r) t :: rest) j).1 = .error (.failed e) := by
  rw [run.eq_def]
  simp [h, hr]

theorem run_setup_ok {r : SetupReply} {j' : Joining}
    (hr : (j.take r : Except (SecaggError R) Joining) = .ok j') (t : Duration) :
    (run ending (.reply (.setup r) t :: rest) j).1 = (run ending rest j').1 := by
  rw [run.eq_def]
  simp [h, hr]

end

end Joining

namespace Invitation

variable {i : Invitation} {l l' : List (Observation R)} {party : NodeId}

/-! ## 4. One observation -/

/-- The reply is the first answer of one of the parties. -/
structure IsFirst (i : Invitation) (l : List (Observation R)) (r : SetupReply) : Prop where
  experiment : r.experimentId = i.experimentId
  session : r.sessionId = i.sessionId
  party : r.nodeId ∈ i.parties.keys
  first : i.firstAnswer? r.nodeId l = none

theorem isFirst_iff {r : SetupReply} : i.IsFirst l r ↔
    ¬(r.experimentId ≠ i.experimentId ∨ r.sessionId ≠ i.sessionId ∨
      !(i.after l).pending.contains r.nodeId) := by
  rw [not_or, not_or, Decidable.not_not, Decidable.not_not, Bool.not_eq_true', Bool.not_eq_false,
    contains_pending]
  exact ⟨fun h => ⟨h.1, h.2, h.3, h.4⟩, fun h => ⟨h.1, h.2.1, h.2.2.1, h.2.2.2⟩⟩

theorem take_of_not_first {r : SetupReply} (h : ¬i.IsFirst l r) :
    (i.after l).take r = (.ok (i.after l) : Except (SecaggError R) Joining) := by
  rw [isFirst_iff, Decidable.not_not] at h
  exact if_pos h

theorem take_of_first {r : SetupReply} (h : i.IsFirst l r) :
    (i.after l).take r = (match r.key? with
      | none => .error r.refusal
      | some key => .ok { i.after l with
          pending := (i.after l).pending.erase r.nodeId
          publicKeys := (i.after l).publicKeys.insert r.nodeId key } :
        Except (SecaggError R) Joining) := by
  have hskip := isFirst_iff.1 h
  refine (if_neg hskip).trans ?_
  cases hs : r.success with
  | false => simp [SetupReply.key?, SetupReply.refusal, hs]
  | true => cases hk : r.publicKey <;> simp [SetupReply.key?, SetupReply.refusal, hs, hk]

/-- What is no first answer is skipped. -/
theorem answer?_of_not_first {r : SetupReply} {t : Duration} (h : ¬i.IsFirst l r) :
    ∀ party ∈ i.parties.keys, i.firstAnswer? party l = none →
      i.answer? party (.reply (.setup r) t : Observation R) = none := by
  intro party hp hl
  rw [answer?_setup, if_neg]
  rintro ⟨he, hs, rfl⟩
  exact h ⟨he, hs, hp, hl⟩

theorem Unhindered.append_of_skipped {o : Observation R} (hl : i.Unhindered l) (ho : o ≠ .closed)
    (h : ∀ party ∈ i.parties.keys, i.firstAnswer? party l = none → i.answer? party o = none) :
    i.Unhindered (l ++ [o]) where
  fed hm := by
    rcases List.mem_append.1 hm with hm | hm
    · exact hl.fed hm
    · exact ho (List.mem_singleton.1 hm).symm
  joining party hp r hr := by
    rw [firstAnswer?_append, firstAnswer?_singleton] at hr
    cases hfirst : i.firstAnswer? party l with
    | none =>
      rw [hfirst, h party hp hfirst] at hr
      contradiction
    | some r' =>
      rw [hfirst, Option.some_or] at hr
      exact hl.joining party hp r (hfirst.trans hr)

theorem Unhindered.append_of_joined {r : SetupReply} {t : Duration} (hl : i.Unhindered l)
    (hr : r.key?.isSome) : i.Unhindered (l ++ [.reply (.setup r) t]) where
  fed hm := by
    rcases List.mem_append.1 hm with hm | hm
    · exact hl.fed hm
    · cases List.mem_singleton.1 hm
  joining party hp r' hr' := by
    rw [firstAnswer?_append, firstAnswer?_singleton, answer?_setup] at hr'
    cases hfirst : i.firstAnswer? party l with
    | some r'' =>
      rw [hfirst, Option.some_or] at hr'
      exact hl.joining party hp r' (hfirst.trans hr')
    | none =>
      rw [hfirst, Option.none_or] at hr'
      split at hr'
      next =>
        obtain rfl := Option.some.inj hr'
        exact hr
      next => contradiction

/-! ## 5. The wait -/

/-- The result of a wait for the parties. -/
def wait (i : Invitation) (w : Watch R) : Except (Stop (SecaggError R)) Joining :=
  (Joining.run w.ending w.observed i.start).1

/-- How a wait for the parties turns out. The observations before the one that decides hinder no
session. -/
inductive Settled (i : Invitation) (w : Watch R) : Except (Stop (SecaggError R)) Joining → Prop where
  | joined (before rest : List (Observation R)) (hw : w.observed = before ++ rest)
    (hj : i.Unhindered before) (hc : i.Complete before) : Settled i w (.ok (i.after before))
  | timeout (hj : i.Unhindered w.observed) (hc : ¬i.Complete w.observed) (he : w.ending = .deadline) :
    Settled i w (.error (.failed (.setupTimeout (i.missing w.observed))))
  | abandoned (hj : i.Unhindered w.observed) (hc : ¬i.Complete w.observed)
    (he : w.ending = .abandoned) : Settled i w (.error .abandoned)
  | closed (before rest : List (Observation R)) (hw : w.observed = before ++ .closed :: rest)
    (hj : i.Unhindered before) (hc : ¬i.Complete before) :
    Settled i w (.error (.failed .replyChannel))
  | refused (before rest : List (Observation R)) (r : SetupReply) (t : Duration)
    (hw : w.observed = before ++ .reply (.setup r) t :: rest) (hj : i.Unhindered before)
    (hr : i.IsFirst before r) (hk : r.key? = none) : Settled i w (.error (.failed r.refusal))

/-- All that an observation can do to a setup that waits. -/
inductive Taken (i : Invitation) (ending : Ending) (l : List (Observation R)) (o : Observation R) :
    Prop where
  | closed (ho : o = .closed)
    (h : ∀ rest, (Joining.run ending (o :: rest) (i.after l)).1 = .error (.failed .replyChannel))
  | refused (r : SetupReply) (t : Duration) (ho : o = .reply (.setup r) t) (hr : i.IsFirst l r)
    (hk : r.key? = none)
    (h : ∀ rest, (Joining.run ending (o :: rest) (i.after l)).1 = .error (.failed r.refusal))
  | passed (hl : i.Unhindered (l ++ [o]))
    (h : ∀ rest, (Joining.run ending (o :: rest) (i.after l)).1 =
      (Joining.run ending rest (i.after (l ++ [o]))).1)

theorem run_of_complete (hc : i.Complete l) (ending : Ending) (rest : List (Observation R)) :
    Joining.run ending rest (i.after l) = (.ok (i.after l), 0) :=
  Joining.run_of_isEmpty ending (isEmpty_pending.2 hc) rest

theorem pending_of_incomplete (hc : ¬i.Complete l) : (i.after l).pending.isEmpty = false := by
  rw [← Bool.not_eq_true, isEmpty_pending]
  exact hc

theorem taken_of_waiting (hl : i.Unhindered l) (hc : ¬i.Complete l) (ending : Ending)
    (o : Observation R) : i.Taken ending l o := by
  have hp := pending_of_incomplete hc
  -- what is skipped leaves the state
  have hskip : o ≠ .closed →
      (∀ party ∈ i.parties.keys, i.firstAnswer? party l = none → i.answer? party o = none) →
      (∀ rest, (Joining.run ending (o :: rest) (i.after l)).1 =
        (Joining.run ending rest (i.after l)).1) → i.Taken ending l o := by
    intro ho hnone h
    refine .passed (hl.append_of_skipped ho hnone) ?_
    rwa [after_append_of_skipped hnone]
  cases o with
  | closed => exact .closed rfl fun rest => Joining.run_closed ending rest hp
  | cancelled =>
    exact hskip nofun (fun _ _ _ => rfl) fun rest => Joining.run_cancelled ending rest hp
  | reply reply t =>
    cases reply with
    | train r => exact hskip nofun (fun _ _ _ => rfl) fun rest => Joining.run_train ending rest hp r t
    | setup r =>
      by_cases hr : i.IsFirst l r
      · have htake := take_of_first (R := R) hr
        cases hk : r.key? with
        | none =>
          rw [hk] at htake
          exact .refused r t rfl hr hk fun rest => Joining.run_setup_error ending rest hp htake t
        | some key =>
          rw [hk] at htake
          refine .passed (hl.append_of_joined (by rw [hk]; rfl)) fun rest => ?_
          rw [after_append_of_joined hr.experiment hr.session hr.party hr.first hk]
          exact Joining.run_setup_ok ending rest hp htake t
      · exact hskip nofun (answer?_of_not_first hr) fun rest =>
          Joining.run_setup_ok ending rest hp (take_of_not_first hr) t

theorem settled_of_run (ending : Ending) (rest : List (Observation R)) (hl : i.Unhindered l) :
    Settled i ⟨l ++ rest, ending⟩ (Joining.run ending rest (i.after l)).1 := by
  -- the observations already taken are a variable, so that they can take up the next one
  induction rest generalizing l with
  | nil =>
    by_cases hc : i.Complete l
    · rw [run_of_complete hc]
      exact .joined l [] rfl hl hc
    · have hp := pending_of_incomplete hc
      rw [List.append_nil]
      cases ending with
      | deadline =>
        rw [Joining.run_deadline hp, keys_pending]
        exact .timeout hl hc rfl
      | abandoned =>
        rw [Joining.run_abandoned hp]
        exact .abandoned hl hc rfl
  | cons o rest ih =>
    by_cases hc : i.Complete l
    · rw [run_of_complete hc]
      exact .joined l (o :: rest) rfl hl hc
    · cases taken_of_waiting hl hc ending o with
      | closed ho h =>
        rw [h]
        exact .closed l rest (by rw [ho]) hl hc
      | refused r t ho hr hk h =>
        rw [h]
        exact .refused l rest r t (by rw [ho]) hl hr hk
      | passed hl' h =>
        have hnext := ih hl'
        rwa [← h, List.append_assoc, List.singleton_append] at hnext

theorem unhindered_nil : i.Unhindered ([] : List (Observation R)) where
  fed := List.not_mem_nil
  joining _ _ _ hr := by contradiction

/-- A wait for the parties turns out in one of these ways. -/
theorem settled_wait (i : Invitation) (w : Watch R) : Settled i w (i.wait w) := by
  rw [wait, ← after_nil (R := R)]
  exact settled_of_run w.ending w.observed unhindered_nil

/-- What precedes a hindrance lies before every list of observations without one. -/
theorem prefix_of_unhindered {before rest known : List (Observation R)} {o : Observation R}
    (h : known ++ rest = before ++ o :: l') (hk : i.Unhindered known)
    (ho : ¬i.Unhindered (before ++ [o])) : known <+: before := by
  rcases List.prefix_or_prefix_of_prefix (List.prefix_append known rest)
    (h ▸ List.prefix_append before (o :: l')) with hp | hp
  · exact hp
  · obtain ⟨tail, rfl⟩ := hp
    cases tail with
    | nil => exact ⟨[], by simp⟩
    | cons o' tail =>
      rw [List.append_assoc, List.append_cancel_left_eq, List.cons_append, List.cons.injEq] at h
      obtain ⟨rfl, -⟩ := h
      rw [← List.singleton_append, ← List.append_assoc] at hk
      exact absurd hk.of_append ho

theorem hindered_of_closed (before : List (Observation R)) : ¬i.Unhindered (before ++ [.closed]) :=
  fun h => h.fed (List.mem_append_right _ List.mem_cons_self)

theorem hindered_of_refused {before : List (Observation R)} {r : SetupReply} {t : Duration}
    (hr : i.IsFirst before r) (hk : r.key? = none) :
    ¬i.Unhindered (before ++ [.reply (.setup r) t]) := by
  intro h
  have hfirst : i.firstAnswer? r.nodeId (before ++ [.reply (.setup r) t]) = some r := by
    rw [firstAnswer?_append, hr.first, Option.none_or, firstAnswer?_singleton, answer?_setup,
      if_pos ⟨hr.experiment, hr.session, rfl⟩]
  have hjoin := h.joining r.nodeId hr.party r hfirst
  rw [hk] at hjoin
  contradiction

/-- Observations that complete the session lie before those that rule it out. -/
theorem complete_of_hindered {before rest known : List (Observation R)} {o : Observation R}
    (h : known ++ rest = before ++ o :: l') (hj : i.Unhindered known) (hc : i.Complete known)
    (ho : ¬i.Unhindered (before ++ [o])) : i.Complete before := by
  obtain ⟨tail, rfl⟩ := prefix_of_unhindered h hj ho
  exact hc.append tail

/-- A wait gives a session if and only if all parties join it before anything rules it out. -/
theorem wait_isOk_iff (w : Watch R) :
    (∃ j, i.wait w = .ok j) ↔
      ∃ before rest, w.observed = before ++ rest ∧ i.Unhindered before ∧ i.Complete before := by
  have hset := settled_wait i w
  generalize i.wait w = result at hset
  constructor
  · rintro ⟨j, rfl⟩
    cases hset with
    | joined before rest hw hj hc => exact ⟨before, rest, hw, hj, hc⟩
  · rintro ⟨known, rest, hknown, hj, hc⟩
    cases hset with
    | joined before _ _ _ _ => exact ⟨_, rfl⟩
    | timeout _ hnc _ => exact absurd (hknown ▸ hc.append rest) hnc
    | abandoned _ hnc _ => exact absurd (hknown ▸ hc.append rest) hnc
    | closed before _ hw _ hnc =>
      exact absurd (complete_of_hindered (hknown.symm.trans hw) hj hc (hindered_of_closed before)) hnc
    | refused before _ r t hw _ hr hk =>
      have hcomplete := complete_of_hindered (hknown.symm.trans hw) hj hc (hindered_of_refused hr hk)
        r.nodeId hr.party
      rw [hr.first] at hcomplete
      contradiction

/-- A wait that nothing hinders and that leaves a party out ends at the deadline. -/
theorem wait_of_deadline (hj : i.Unhindered l) (hc : ¬i.Complete l) :
    i.wait ⟨l, .deadline⟩ = .error (.failed (.setupTimeout (i.missing l))) := by
  have hset := settled_wait i (⟨l, .deadline⟩ : Watch R)
  generalize i.wait (⟨l, .deadline⟩ : Watch R) = result at hset
  cases hset with
  | joined before rest hw _ hcomplete =>
    obtain rfl : l = before ++ rest := hw
    exact absurd (hcomplete.append rest) hc
  | timeout => rfl
  | abandoned _ _ he => contradiction
  | closed before rest hw _ _ =>
    obtain rfl : l = before ++ .closed :: rest := hw
    rw [← List.singleton_append, ← List.append_assoc] at hj
    exact absurd hj.of_append (hindered_of_closed before)
  | refused before rest r t hw _ hr hk =>
    obtain rfl : l = before ++ .reply (.setup r) t :: rest := hw
    rw [← List.singleton_append, ← List.append_assoc] at hj
    exact absurd hj.of_append (hindered_of_refused hr hk)

/-! ## 6. What is discarded -/

/-- The observation answers the invitation of nobody who has not answered before: a training reply, a
reply to another experiment or session, a reply of a node that is no party, or a repeated answer. -/
structure Discarded (i : Invitation) (before : List (Observation R)) (o : Observation R) : Prop where
  fed : o ≠ .closed
  answered : ∀ party ∈ i.parties.keys, i.answer? party o ≠ none → (i.firstAnswer? party before).isSome

theorem run_append_of_discarded {before : List (Observation R)} {o : Observation R}
    (hl : i.Unhindered l) (h : i.Discarded (l ++ before) o) (ending : Ending)
    (rest : List (Observation R)) :
    (Joining.run ending (before ++ o :: rest) (i.after l)).1 =
      (Joining.run ending (before ++ rest) (i.after l)).1 := by
  induction before generalizing l with
  | nil =>
    rw [List.append_nil] at h
    by_cases hc : i.Complete l
    · rw [run_of_complete hc, run_of_complete hc]
    · have hnone : ∀ party ∈ i.parties.keys, i.firstAnswer? party l = none →
          i.answer? party o = none := by
        intro party hp hfirst
        refine Decidable.byContradiction fun hne => ?_
        have hsome := h.answered party hp hne
        rw [hfirst] at hsome
        contradiction
      cases taken_of_waiting hl hc ending o with
      | closed ho _ => exact absurd ho h.fed
      | refused r t ho hr _ _ =>
        have hans := hnone r.nodeId hr.party hr.first
        rw [ho, answer?_setup, if_pos ⟨hr.experiment, hr.session, rfl⟩] at hans
        contradiction
      | passed _ hrun =>
        rw [List.nil_append, hrun, after_append_of_skipped hnone, List.nil_append]
  | cons o' before ih =>
    by_cases hc : i.Complete l
    · rw [run_of_complete hc, run_of_complete hc]
    · rw [List.cons_append, List.cons_append]
      cases taken_of_waiting hl hc ending o' with
      | closed _ hrun => rw [hrun, hrun]
      | refused _ _ _ _ _ hrun => rw [hrun, hrun]
      | passed hl' hrun =>
        rw [hrun, hrun]
        exact ih hl' (by rwa [List.append_assoc, List.singleton_append])

/-- What is discarded has no effect on how a wait turns out, wherever it comes. -/
theorem wait_of_discarded {before : List (Observation R)} {o : Observation R}
    (h : i.Discarded before o) (rest : List (Observation R)) (ending : Ending) :
    i.wait ⟨before ++ o :: rest, ending⟩ = i.wait ⟨before ++ rest, ending⟩ := by
  rw [wait, wait, ← after_nil (R := R)]
  exact run_append_of_discarded unhindered_nil h ending rest

end Invitation

end Federation
