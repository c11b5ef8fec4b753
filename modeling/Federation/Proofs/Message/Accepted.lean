import Federation.Proofs.Json.Range
import Federation.Proofs.Message.Codec
/-!
# Messages that were accepted

A message that was read from a text has finite floats, since a text has no others, and its free-form
arguments are within the depth to which it was read. So it can be written and is read back as it was.
-/

namespace Federation

open Json

/-! ## 1. Parameters and arguments -/

theorem Parameters.finds : Finds ofJson? fun p => ∀ x ∈ p.floats, x.isFinite = true := by
  intro j hj
  exact Returns.map fun layers hlayers =>
    forall_mem_floats.2 (finds_float.list.map j hj layers hlayers)

theorem AuxVars.finds :
    Finds (asMap? Parameters.ofJson?) fun v => ∀ x ∈ AuxVars.floats v, x.isFinite = true := by
  intro j hj v hv
  rw [AuxVars.floats, List.forall_mem_flatMap, SortedMap.forall_mem_values]
  exact Parameters.finds.map j hj v hv

theorem TrainingArgs.finds : Finds ofJson? fun a => ∀ x ∈ a.floats, x.isFinite = true := by
  intro j hj
  refine (inRange_asRecord? hj).bind fun r hr => ?_
  refine returns_bind fun numUpdates => returns_bind fun epochs => ?_
  refine (hr.optional finds_float _).bind fun rate hrate => ?_
  exact returns_bind fun batchSize => returns_some (forall_mem_toList.2 hrate)

theorem SecaggArguments.finds (d : Decoding) :
    Finds (ofJson? d) fun a => ∀ x ∈ a.floats, x.isFinite = true := by
  intro j hj
  refine (inRange_asRecord? hj).bind fun r hr => ?_
  refine returns_bind fun sessionId => returns_bind fun parties => returns_bind fun publicKeys =>
    returns_bind fun nonce => ?_
  refine (hr.required finds_float _).bind fun random hrandom => ?_
  refine (hr.required finds_float _).bind fun clippingRange hrange => ?_
  refine returns_bind fun fixedPointBits => returns_some ?_
  simp [floats, hrandom, hrange]

/-! ## 2. Requests -/

theorem WorkRequest.finds (d : Decoding) : Finds (ofJson? d) Encodable := by
  intro j hj
  refine (inRange_asRecord? hj).bind fun r hr => ?_
  refine returns_bind fun researcherId => returns_bind fun experimentId => returns_bind fun roundNumber =>
    returns_bind fun requestId => returns_bind fun nodeId => returns_bind fun datasetId =>
    returns_bind fun stateId => ?_
  refine (hr.required Parameters.finds _).bind fun params hparams => ?_
  refine (hr.required TrainingArgs.finds _).bind fun trainingArgs hargs => ?_
  refine (hr.withDefault (finds_modelArgs 3) _ (List.forall_mem_nil _)).bind fun modelArgs hmodel => ?_
  refine (hr.withDefault AuxVars.finds _ (List.forall_mem_nil _)).bind fun auxVars haux => ?_
  refine (hr.optional (SecaggArguments.finds d) _).bind fun secagg hsecagg => returns_some ?_
  refine ⟨?_, hmodel⟩
  simp only [floats, List.forall_mem_append, List.forall_mem_flatMap, forall_mem_toList]
  exact ⟨⟨⟨hparams, hargs⟩, haux⟩, hsecagg⟩

theorem Request.finds : Finds ofJson? Encodable := by
  intro j hj
  refine (inRange_asEnvelope? hj).bind fun e hpayload => ?_
  split
  · exact (WorkRequest.finds e.decoding _ hpayload).bind fun q hq => returns_some hq
  split
  · exact returns_bind fun q => returns_some trivial
  · exact returns_none

theorem Request.encodable_of_decode {text : String} {q : Request Float} (h : decode text = some q) :
    q.Encodable := by
  obtain ⟨j, hj, hq⟩ := Option.bind_eq_some_iff.1 h
  exact Request.finds j (inRange_of_parse hj) q hq

/-! ## 3. Replies -/

theorem ReplyParams.finds : Finds ofJson? fun p => ∀ x ∈ p.floats, x.isFinite = true := by
  intro j hj
  refine (inRange_asChoice? hj).bind fun c hc => ?_
  dsimp only
  refine Returns.bind (P := InRange) hc fun content hcontent => ?_
  split
  · exact (Parameters.finds content hcontent).bind fun p hp => returns_some hp
  split
  · exact returns_bind fun v => returns_some (List.forall_mem_nil _)
  · exact returns_none

theorem Timing.finds : Finds ofJson? fun t => ∀ x ∈ t.floats, x.isFinite = true := by
  have hzero : (0.0 : Float).isFinite = true := by decide +kernel
  intro j hj
  refine (inRange_asRecord? hj).bind fun r hr => ?_
  refine (hr.withDefault finds_float _ hzero).bind fun rtime hrtime => ?_
  refine (hr.withDefault finds_float _ hzero).bind fun ptime hptime => returns_some ?_
  simp [floats, hrtime, hptime]

theorem WorkReply.finds (d : Decoding) : Finds (ofJson? d) fun w => ∀ x ∈ w.floats, x.isFinite = true := by
  have hzero : ∀ x ∈ (Timing.zero : Timing Float).floats, x.isFinite = true := by decide +kernel
  intro j hj
  refine (inRange_asRecord? hj).bind fun r hr => ?_
  refine returns_bind fun experimentId => returns_bind fun roundNumber => returns_bind fun requestId =>
    returns_bind fun nodeId => returns_bind fun stateId => returns_bind fun success => ?_
  refine (hr.optional ReplyParams.finds _).bind fun params hparams => ?_
  refine returns_bind fun sampleCount => ?_
  refine (hr.withDefault AuxVars.finds _ (List.forall_mem_nil _)).bind fun auxVars haux => ?_
  refine (hr.withDefault Timing.finds _ hzero).bind fun timing htiming => ?_
  refine (hr.withDefault finds_float.map _ (List.forall_mem_nil _)).bind fun metrics hmetrics => ?_
  refine returns_bind fun error => returns_some ?_
  simp only [floats, List.forall_mem_append, List.forall_mem_flatMap, forall_mem_toList,
    SortedMap.forall_mem_values]
  exact ⟨⟨⟨hparams, haux⟩, htiming⟩, hmetrics⟩

theorem Reply.finds : Finds ofJson? fun w => ∀ x ∈ w.floats, x.isFinite = true := by
  intro j hj
  refine (inRange_asEnvelope? hj).bind fun e hpayload => ?_
  split
  · exact (WorkReply.finds e.decoding _ hpayload).bind fun w hw => returns_some hw
  split
  · exact returns_bind fun w => returns_some (List.forall_mem_nil _)
  · exact returns_none

theorem Reply.finite_of_decode {text : String} {w : Reply Float} (h : decode text = some w) :
    ∀ x ∈ w.floats, x.isFinite = true := by
  obtain ⟨j, hj, hw⟩ := Option.bind_eq_some_iff.1 h
  exact Reply.finds j (inRange_of_parse hj) w hw

end Federation
