import Federation.Checkpoint.Basic
import Federation.Proofs.Parameters
/-!
# What validation demands

A checkpoint is valid if its records are those of the rounds that were completed, if all parameters have
one layout and those of the model are finite, and if no node took part in a later round.
-/

namespace Federation

variable {R : Type}

/-- Records of consecutive rounds from the first one on, with finite parameters of the layout of the
initial ones. -/
def Recorded [Scalar R] (initial : Parameters R) (history : List (RoundRecord R)) : Prop :=
  ∀ (i : Nat) (record : RoundRecord R), history[i]? = some record →
    record.roundNumber.toNat = i ∧ record.params.layout = initial.layout ∧ record.params.isFinite = true

/-- All rounds in which nodes took part come before a round. -/
def NodeStates.Precede (states : NodeStates R) (current : RoundNumber) : Prop :=
  ∀ node state round, states.states.find? node = some state → state.lastRound = some round →
    round < current

theorem Recorded.params [Scalar R] {initial : Parameters R} {history : List (RoundRecord R)}
    (h : Recorded initial history) {record : RoundRecord R} (hr : record ∈ history) :
    record.params.layout = initial.layout ∧ record.params.isFinite = true := by
  obtain ⟨i, hi⟩ := List.mem_iff_getElem?.1 hr
  exact (h i record hi).2

namespace Checkpoint

variable [Scalar R]

/-- What validation demands of a checkpoint. -/
structure Coherent (c : Checkpoint R) : Prop where
  version : c.version = currentVersion
  count : c.history.length = c.roundCurrent.toNat
  limit : ¬c.roundLimit < c.roundCurrent
  initialParams : c.initialParams.isFinite = true
  recorded : Recorded c.initialParams c.history
  moments : ∀ moment ∈ c.optimizer.state, moment.layout = c.initialParams.layout
  nodeStates : c.nodeStates.Precede c.roundCurrent

theorem recordsFault?_eq_none {initial : Parameters R} {n : Nat} {l : List (RoundRecord R)} :
    recordsFault? initial n l = none ↔
      ∀ (i : Nat) (record : RoundRecord R), l[i]? = some record →
        record.roundNumber.toNat = n + i ∧ record.params.layout = initial.layout ∧
          record.params.isFinite = true := by
  induction l generalizing n with
  | nil => simp [recordsFault?]
  | cons r l ih =>
    have hhead : recordsFault? initial n (r :: l) = none ↔
        (r.roundNumber.toNat = n ∧ r.params.layout = initial.layout ∧ r.params.isFinite = true) ∧
          recordsFault? initial (n + 1) l = none := by
      rw [recordsFault?, eq_comm (a := r.params.layout), ← Parameters.mismatch?_eq_none]
      split
      next hn => simp [hn]
      next hn =>
        split
        next e he => simp [he]
        next hm =>
          cases hf : r.params.isFinite
          · simp
          · simpa [hm] using fun _ => not_not.1 hn
    rw [hhead, ih]
    constructor
    · rintro ⟨hr, hl⟩ i record hi
      cases i with
      | zero =>
        obtain rfl := Option.some.inj hi
        exact hr
      | succ i =>
        obtain ⟨hnumber, hrest⟩ := hl i record hi
        exact ⟨by omega, hrest⟩
    · intro h
      refine ⟨h 0 r rfl, fun i record hi => ?_⟩
      obtain ⟨hnumber, hrest⟩ := h (i + 1) record hi
      exact ⟨by omega, hrest⟩

theorem recordsFault?_zero {initial : Parameters R} {l : List (RoundRecord R)} :
    recordsFault? initial 0 l = none ↔ Recorded initial l := by
  rw [recordsFault?_eq_none, Recorded]
  simp only [Nat.zero_add]

omit [Scalar R] in
theorem unfinishedRound_eq_none {states : NodeStates R} {current : RoundNumber} :
    (states.states.toList.findSome? fun (node, s) =>
      (s.lastRound.filter (current ≤ ·)).map (Inconsistency.unfinishedRound node)) = none ↔
      states.Precede current := by
  rw [List.findSome?_eq_none_iff]
  constructor
  · intro h node state round hfind hround
    have hnode := h _ (SortedMap.find?_eq_some_iff.1 hfind)
    simpa [hround, Option.filter] using hnode
  · rintro h ⟨node, state⟩ hmem
    have hnode := fun round => h node state round (SortedMap.find?_eq_some_iff.2 hmem)
    cases hround : state.lastRound with
    | none => simp [hround]
    | some round => simpa [hround, Option.filter] using hnode round

/-- Exactly the coherent checkpoints are valid. -/
theorem validate_eq_ok {c : Checkpoint R} : c.validate = .ok () ↔ c.Coherent := by
  have hinconsistency : c.validate = .ok () ↔
      c.version = currentVersion ∧ c.inconsistency? = none := by
    unfold validate
    split
    next hv => simp [hv]
    next hv =>
      cases c.inconsistency? with
      | none => simpa using hv
      | some reason => simp
  rw [hinconsistency, inconsistency?]
  constructor
  · rintro ⟨hversion, h⟩
    split at h
    · contradiction
    next hcount =>
      split at h
      · contradiction
      next hlimit =>
        split at h
        · contradiction
        next hfinite =>
          rw [Option.or_eq_none_iff, Option.or_eq_none_iff, recordsFault?_zero,
            unfinishedRound_eq_none, Option.map_eq_none_iff, List.findSome?_eq_none_iff] at h
          obtain ⟨⟨hrecords, hmoments⟩, hstates⟩ := h
          exact ⟨hversion, not_not.1 hcount, hlimit, by simpa using hfinite, hrecords,
            fun moment hm => (Parameters.mismatch?_eq_none.1 (hmoments moment hm)).symm, hstates⟩
  · intro h
    rw [if_neg (not_not.2 h.count), if_neg h.limit, if_neg (by simp [h.initialParams]),
      Option.or_eq_none_iff, Option.or_eq_none_iff, recordsFault?_zero, unfinishedRound_eq_none,
      Option.map_eq_none_iff, List.findSome?_eq_none_iff]
    refine ⟨h.version, ⟨h.recorded, fun moment hm => ?_⟩, h.nodeStates⟩
    exact Parameters.mismatch?_eq_none.2 (h.moments moment hm).symm

end Checkpoint

end Federation
