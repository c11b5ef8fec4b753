import Federation.Proofs.Checkpoint.Codec
/-!
# The texts of checkpoints

Every value that a checkpoint is made of has a text that reads back: floats that are not finite are
written as `null`, and free-form values are canonical. So the document of every checkpoint is found
again in its text, whether or not the checkpoint is found again in the document.
-/

namespace Federation

open Json

/-! ## 1. Parts of checkpoints -/

theorem Duration.writable_toJson (d : Duration) : Writable d.toJson := by simp [toJson]

theorem NodeState.writable_toJson (s : NodeState Float) : Writable s.toJson := by
  simp [toJson, writable_option writable_word, writable_option Parameters.writable_toJson]

theorem Aggregator.writable_toJson (a : Aggregator Float) : Writable a.toJson := by
  cases a <;> simp [toJson, case, writable_option Parameters.writable_toJson]

theorem Momentum.writable_toJson (m : Momentum Float) : Writable m.toJson := by
  simp [toJson, writable_option Parameters.writable_toJson]

theorem Adaptive.writable_toJson (a : Adaptive Float) : Writable a.toJson := by
  simp [toJson, writable_option Parameters.writable_toJson]

theorem Optimizer.writable_toJson (o : Optimizer Float) : Writable o.toJson := by
  cases o <;> simp [toJson, case, Momentum.writable_toJson, Adaptive.writable_toJson]

theorem DatasetMetadata.writable_toJson (m : DatasetMetadata) : Writable m.toJson := by
  simp [toJson, writable_list Writable.str, writable_list writable_word]

theorem NodeRecord.writable_toJson (r : NodeRecord) : Writable r.toJson := by
  simp [toJson, DatasetMetadata.writable_toJson]

theorem DatasetQuery.writable_toJson (q : DatasetQuery) : Writable q.toJson := by
  cases q <;> simp [toJson, case, writable_names, writable_map DatasetMetadata.writable_toJson]

theorem MaskConfig.writable_toJson (c : MaskConfig Float) : Writable c.toJson := by simp [toJson]

theorem SecaggSession.writable_toJson (s : SecaggSession) : Writable s.toJson := by
  simp [toJson, writable_list Writable.str, writable_map writable_key]

theorem SecureAggregation.writable_toJson (s : SecureAggregation Float) : Writable s.toJson := by
  simp [toJson, MaskConfig.writable_toJson, Duration.writable_toJson,
    writable_option SecaggSession.writable_toJson]

theorem ReplySummary.writable_toJson (s : ReplySummary Float) : Writable s.toJson := by
  simp [toJson, Timing.writable_toJson, writable_map writable_float]

theorem RoundRecord.writable_toJson (r : RoundRecord Float) : Writable r.toJson := by
  simp [toJson, Timestamp.toJson, Parameters.writable_toJson, writable_map ReplySummary.writable_toJson]

/-! ## 2. Checkpoints -/

namespace Checkpoint

theorem writable_toJson (c : Checkpoint Float) : Writable c.toJson := by
  simp [toJson, Timestamp.toJson, NodeStates.toJson, FederatedDataset.toJson, Parameters.writable_toJson,
    writable_list RoundRecord.writable_toJson, writable_map NodeState.writable_toJson,
    Aggregator.writable_toJson, Optimizer.writable_toJson, TrainingArgs.writable_toJson,
    writable_modelArgs, DatasetQuery.writable_toJson, writable_option writable_names,
    writable_map NodeRecord.writable_toJson, SecureAggregation.writable_toJson, Duration.writable_toJson]

/-- Decoding finds the document of a checkpoint in its text. -/
theorem decode_encode (c : Checkpoint Float) : decode c.encode = ofDocument? c.toJson := by
  rw [decode, encode, parse_pretty c.writable_toJson, Option.elim_some]

theorem versionOf?_toJson (c : Checkpoint Float) : versionOf? c.toJson = some c.version := by
  have hversion : asWord32? (count c.version.toNat) = some c.version := by
    rw [asWord32?_count c.version.toNat_lt, UInt32.ofNat_toNat]
  have hrecord : asRecord? ["version"] false c.toJson =
      some ⟨[("version", count c.version.toNat)], false⟩ := rfl
  rw [versionOf?, hrecord]
  exact hversion

end Checkpoint

end Federation
