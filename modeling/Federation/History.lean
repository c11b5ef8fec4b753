import Federation.Round.Context
import Federation.Timestamp
/-!
# The history of an experiment

One record per completed round: the global parameters it led to, and who took part.
-/

namespace Federation

structure RoundRecord (R : Type) where
  roundNumber : RoundNumber
  -- The global parameters after the round.
  params : Parameters R
  participants : NameMap (ReplySummary R)
  completedAt : Timestamp

namespace RoundRecord

variable {R : Type}

/-- The record of a round that completed at a point in time. -/
def ofCompleted (c : CompletedRound R) (completedAt : Timestamp) : RoundRecord R :=
  ⟨c.roundNumber, c.aggregated.global, c.participants, completedAt⟩

/-- The number of samples of all participants, at most the greatest word. -/
def sampleCount (r : RoundRecord R) : UInt64 :=
  UInt64.ofNat
    (min ((r.participants.values.map fun s => s.sampleCount.toNat).foldr (· + ·) 0) (UInt64.size - 1))

end RoundRecord

/-- The parameters after the last recorded round, or the initial ones. -/
def latestParams {R : Type} (initial : Parameters R) (history : List (RoundRecord R)) : Parameters R :=
  history.getLast?.elim initial RoundRecord.params

end Federation
