import Federation.Checkpoint.Basic
import Federation.Link
/-!
# Surroundings of an experiment

What an experiment needs besides the link to its nodes: values that are drawn at random, the time, and
a place to save checkpoints. As with a link the surroundings are a state of any type.
-/

namespace Federation

/-- The surroundings of an experiment, as a state of type `σ`. -/
structure Surroundings (R σ : Type) where
  link : Link R σ
  -- Draws a name that was not used before.
  drawName : σ → String × σ
  -- Draws a word.
  drawWord : σ → UInt64 × σ
  -- Draws a number from zero to below one.
  drawFraction : σ → R × σ
  now : σ → Timestamp
  save : Checkpoint R → σ → Except CheckpointError CheckpointId × σ
  -- Makes sure that checkpoints can be saved.
  prepare : σ → Except CheckpointError Unit × σ

end Federation
