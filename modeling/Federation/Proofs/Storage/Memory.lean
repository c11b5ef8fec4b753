import Federation.Proofs.SortedMap
import Federation.Storage.Files
import Federation.Storage.Memory
/-!
# Checkpoints in memory

The memory keeps what was stored last under each name. The latest checkpoint of an experiment is the
one with the most rounds.
-/

namespace Federation

namespace FileStore

theorem greatest_eq_none {l : List RoundNumber} : greatest l = none ↔ l = [] := by
  cases l with
  | nil => simp [greatest]
  | cons round l => simp [greatest]

theorem greatest_eq_some {l : List RoundNumber} {round : RoundNumber} (h : greatest l = some round) :
    round ∈ l ∧ ∀ round' ∈ l, round' ≤ round := by
  induction l generalizing round with
  | nil => contradiction
  | cons first l ih =>
    rw [greatest, Option.some.injEq] at h
    subst h
    cases hl : greatest l with
    | none =>
      rw [greatest_eq_none.1 hl]
      simp
    | some last =>
      obtain ⟨hmem, hmax⟩ := ih hl
      have hdef : max first last = if first ≤ last then last else first := rfl
      simp only [Option.elim, List.mem_cons, hdef]
      split
      next hle =>
        refine ⟨Or.inr hmem, ?_⟩
        rintro round' (rfl | hround')
        · exact hle
        · exact hmax round' hround'
      next hlt =>
        refine ⟨Or.inl rfl, ?_⟩
        rintro round' (rfl | hround')
        · exact UInt64.le_refl round'
        · exact UInt64.le_of_lt (UInt64.lt_of_le_of_lt (hmax round' hround') (UInt64.not_le.1 hlt))

end FileStore

namespace Memory

theorem get_set (m : Memory) (id id' : CheckpointId) (document : String) :
    (m.set id document).get id' = if id' = id then some document else m.get id' := by
  obtain ⟨experiment, round⟩ := id
  obtain ⟨experiment', round'⟩ := id'
  simp only [get, set, ofExperiment, SortedMap.find?_insert, CheckpointId.mk.injEq]
  by_cases hexperiment : experiment' = experiment
  · subst hexperiment
    simp only [if_true, Option.getD_some, SortedMap.find?_insert, true_and]
  · simp only [hexperiment, false_and, if_false]

/-- The latest checkpoint of an experiment is the one with the most rounds. -/
theorem latest_eq {m : Memory} {experiment : ExperimentId} {rounds : List RoundNumber}
    (h : ∀ round, round ∈ rounds ↔ m.get ⟨experiment, round⟩ ≠ none) :
    m.latest experiment = (FileStore.greatest rounds).map (⟨experiment, ·⟩) := by
  have hkeys : ∀ round, round ∈ rounds ↔ round ∈ (m.ofExperiment experiment).keys := by
    intro round
    rw [h, SortedMap.mem_keys_iff_isSome, ← Option.isSome_iff_ne_none]
    rfl
  rw [latest]
  cases hlast : (m.ofExperiment experiment).last? with
  | none =>
    have hnil : rounds = [] := by
      apply List.eq_nil_iff_forall_not_mem.2
      intro round hround
      have hmem := (hkeys round).1 hround
      rw [SortedMap.last?_eq_none.1 hlast] at hmem
      contradiction
    rw [hnil]
    rfl
  | some entry =>
    obtain ⟨hfound, hlate⟩ := SortedMap.find?_of_last? hlast
    have hmem : entry.1 ∈ rounds := (hkeys entry.1).2 (SortedMap.mem_keys.2 ⟨entry.2, hfound⟩)
    cases hgreatest : FileStore.greatest rounds with
    | none =>
      rw [FileStore.greatest_eq_none.1 hgreatest] at hmem
      contradiction
    | some round =>
      obtain ⟨hround, hmax⟩ := FileStore.greatest_eq_some hgreatest
      have hle : round ≤ entry.1 := by
        rcases hlate round ((hkeys round).1 hround) with heq | hlt
        · exact heq ▸ UInt64.le_refl round
        · exact UInt64.le_of_lt (Std.compare_eq_lt.1 hlt)
      rw [Option.map_some, Option.map_some, UInt64.le_antisymm hle (hmax entry.1 hmem)]

end Memory

end Federation
