import Federation.Checkpoint.Codec
import Federation.Proofs.Message.Codec
import Federation.Proofs.Timestamp
/-!
# Checkpoints out of their documents

A checkpoint is read out of its document as it was, provided that its floats are finite, its times
are valid and its free-form arguments are not nested too deeply.
-/

namespace Federation

open Json

/-! ## 1. Replies and times -/

namespace ReplySummary

def floats (s : ReplySummary Float) : List Float := s.timing.floats ++ s.rtimeTotal :: s.metrics.values

theorem ofJson?_toJson {s : ReplySummary Float} (h : ∀ x ∈ s.floats, x.isFinite = true) :
    ofJson? s.toJson = some s := by
  simp only [floats, List.forall_mem_append, List.forall_mem_cons, SortedMap.forall_mem_values] at h
  have hmetrics : asMap? asFloat? (map float s.metrics) = some s.metrics :=
    asMap?_map fun e he => asFloat?_float (h.2.2 e he)
  refine asRecord?_then rfl (by decide) ?_
  refine Record.required_then rfl (asWord?_word s.sampleCount) ?_
  refine Record.required_then rfl (Timing.ofJson?_toJson h.1) ?_
  refine Record.required_then rfl (asFloat?_float h.2.1) ?_
  exact Record.withDefault_then rfl hmetrics rfl

end ReplySummary

namespace Duration

theorem ofJson?_toJson (d : Duration) : ofJson? d.toJson = some d := by
  have hnanos : asWord32? (count d.nanos) = some (UInt32.ofNat d.nanos) :=
    asWord32?_count (Nat.lt_trans d.nanos_lt (by decide))
  have hback : (UInt32.ofNat d.nanos).toNat = d.nanos :=
    UInt32.toNat_ofNat_of_lt' (Nat.lt_trans d.nanos_lt (by decide))
  have hdiv : d.nanos / 1000000000 = 0 := Nat.div_eq_of_lt d.nanos_lt
  have hmod : d.nanos % 1000000000 = d.nanos := Nat.mod_eq_of_lt d.nanos_lt
  have hsecs : d.secs.toNat < UInt64.size := d.secs.toNat_lt
  refine asRecord?_then rfl (by decide) ?_
  refine Record.required_then rfl (asWord?_word d.secs) ?_
  refine Record.required_then rfl hnanos ?_
  simp only [hback, hdiv, hmod, Nat.add_zero, hsecs, if_true, UInt64.ofNat_toNat]

end Duration

/-! ## 2. Node states, aggregators and optimizers -/

namespace NodeState

def floats (s : NodeState Float) : List Float := Parameters.optionalFloats s.controlVariate

theorem ofJson?_toJson {s : NodeState Float} (h : ∀ x ∈ s.floats, x.isFinite = true) :
    ofJson? s.toJson = some s := by
  refine asRecord?_then rfl (by decide) ?_
  refine Record.required_then rfl (asWord?_word s.stateId) ?_
  refine Record.optional_then rfl (asOption?_word s.lastRound) ?_
  exact Record.optional_then rfl (Parameters.asOption?_toJson h) rfl

end NodeState

namespace NodeStates

def floats (s : NodeStates Float) : List Float := s.states.values.flatMap NodeState.floats

theorem ofJson?_toJson {s : NodeStates Float} (h : ∀ x ∈ s.floats, x.isFinite = true) :
    ofJson? s.toJson = some s := by
  rw [floats, List.forall_mem_flatMap, SortedMap.forall_mem_values] at h
  have hstates : asMap? NodeState.ofJson? s.toJson = some s.states :=
    asMap?_map fun e he => NodeState.ofJson?_toJson (h e he)
  rw [ofJson?, hstates]
  rfl

end NodeStates

namespace Aggregator

def floats : Aggregator Float → List Float
  | .fedAverage => []
  | .scaffold s => s.serverLr :: Parameters.optionalFloats s.globalControl

theorem ofJson?_toJson {a : Aggregator Float} (h : ∀ x ∈ a.floats, x.isFinite = true) :
    ofJson? a.toJson = some a := by
  cases a with
  | fedAverage => rfl
  | scaffold s =>
    rw [floats, List.forall_mem_cons] at h
    have hscaffold : scaffoldOfJson? (.obj [("server_lr", float s.serverLr),
        ("global_control", option Parameters.toJson s.globalControl)]) = some s := by
      refine asRecord?_then rfl (by decide) ?_
      refine Record.required_then rfl (asFloat?_float h.1) ?_
      exact Record.nullable_then rfl (Parameters.asOption?_toJson h.2) rfl
    show (scaffoldOfJson? _).bind (fun s => some (scaffold s)) = _
    rw [hscaffold, Option.bind_some]

end Aggregator

namespace Momentum

def floats (m : Momentum Float) : List Float :=
  m.learningRate :: m.beta :: Parameters.optionalFloats m.velocity

theorem ofJson?_toJson {m : Momentum Float} (h : ∀ x ∈ m.floats, x.isFinite = true) :
    ofJson? m.toJson = some m := by
  simp only [floats, List.forall_mem_cons] at h
  refine asRecord?_then rfl (by decide) ?_
  refine Record.required_then rfl (asFloat?_float h.1) ?_
  refine Record.required_then rfl (asFloat?_float h.2.1) ?_
  exact Record.optional_then rfl (Parameters.asOption?_toJson h.2.2) rfl

end Momentum

namespace Adaptive

def floats (a : Adaptive Float) : List Float :=
  [a.learningRate, a.beta1, a.beta2, a.epsilon] ++
    (Parameters.optionalFloats a.firstMoment ++ Parameters.optionalFloats a.secondMoment)

theorem ofJson?_toJson {a : Adaptive Float} (h : ∀ x ∈ a.floats, x.isFinite = true) :
    ofJson? a.toJson = some a := by
  simp only [floats, List.forall_mem_append, List.forall_mem_cons] at h
  obtain ⟨⟨hrate, hbeta1, hbeta2, hepsilon, -⟩, hfirst, hsecond⟩ := h
  refine asRecord?_then rfl (by decide) ?_
  refine Record.required_then rfl (asFloat?_float hrate) ?_
  refine Record.required_then rfl (asFloat?_float hbeta1) ?_
  refine Record.required_then rfl (asFloat?_float hbeta2) ?_
  refine Record.required_then rfl (asFloat?_float hepsilon) ?_
  refine Record.withDefault_then rfl (asWord?_word a.step) ?_
  refine Record.optional_then rfl (Parameters.asOption?_toJson hfirst) ?_
  exact Record.optional_then rfl (Parameters.asOption?_toJson hsecond) rfl

end Adaptive

namespace Optimizer

def floats : Optimizer Float → List Float
  | .sgd lr => [lr]
  | .momentum m => m.floats
  | .adam a | .yogi a => a.floats

/-- An optimizer is read as its kind says. -/
theorem ofJson?_momentum (m : Momentum Float) :
    ofJson? (toJson (.momentum m)) = (Momentum.ofJson? m.toJson).bind fun m => some (momentum m) := rfl

theorem ofJson?_adam (a : Adaptive Float) :
    ofJson? (toJson (.adam a)) = (Adaptive.ofJson? a.toJson).bind fun a => some (adam a) := rfl

theorem ofJson?_yogi (a : Adaptive Float) :
    ofJson? (toJson (.yogi a)) = (Adaptive.ofJson? a.toJson).bind fun a => some (yogi a) := rfl

theorem ofJson?_toJson {o : Optimizer Float} (h : ∀ x ∈ o.floats, x.isFinite = true) :
    ofJson? o.toJson = some o := by
  cases o with
  | sgd lr =>
    have hrate : asFloat? (float lr) = some lr := asFloat?_float (h lr List.mem_cons_self)
    show ((asFloat? (float lr)).bind fun lr => some (sgd lr)) = _
    rw [hrate, Option.bind_some]
  | momentum m => rw [ofJson?_momentum, Momentum.ofJson?_toJson h, Option.bind_some]
  | adam a => rw [ofJson?_adam, Adaptive.ofJson?_toJson h, Option.bind_some]
  | yogi a => rw [ofJson?_yogi, Adaptive.ofJson?_toJson h, Option.bind_some]

end Optimizer

/-! ## 3. Datasets -/

theorem DatasetMetadata.ofJson?_toJson (m : DatasetMetadata) : ofJson? m.toJson = some m := by
  have htexts : ∀ l : List String, asList? asString? (list .str l) = some l := fun _ =>
    asList?_list fun _ _ => rfl
  have hshape : asList? asWord? (list word m.shape) = some m.shape := asList?_list fun _ _ => rfl
  refine asRecord?_then rfl (by decide) ?_
  refine Record.required_then rfl (asString?_str m.datasetId) ?_
  refine Record.withDefault_then rfl (htexts m.tags) ?_
  refine Record.required_then rfl (asWord?_word m.sampleCount) ?_
  refine Record.withDefault_then rfl (asString?_str m.dataType) ?_
  refine Record.withDefault_then rfl hshape ?_
  exact Record.withDefault_then rfl (htexts m.dtypes) rfl

theorem NodeRecord.ofJson?_toJson (r : NodeRecord) : ofJson? r.toJson = some r := by
  refine asRecord?_then rfl (by decide) ?_
  refine Record.required_then rfl (asString?_str r.nodeId) ?_
  refine Record.required_then rfl (asString?_str r.datasetId) ?_
  refine Record.required_then rfl (asWord?_word r.sampleCount) ?_
  refine Record.required_then rfl (asBool?_bool r.available) ?_
  exact Record.required_then rfl (DatasetMetadata.ofJson?_toJson r.metadata) rfl

theorem DatasetQuery.ofJson?_toJson (q : DatasetQuery) : ofJson? q.toJson = some q := by
  cases q with
  | tags l =>
    show ((asNames? (names l)).bind fun l => some (tags l)) = _
    rw [asNames?_names, Option.bind_some]
  | explicit data =>
    have hdata : asMap? DatasetMetadata.ofJson? (map DatasetMetadata.toJson data) = some data :=
      asMap?_map fun e _ => DatasetMetadata.ofJson?_toJson e.2
    show ((asMap? DatasetMetadata.ofJson? (map DatasetMetadata.toJson data)).bind fun data =>
      some (explicit data)) = _
    rw [hdata, Option.bind_some]

theorem FederatedDataset.ofJson?_toJson (d : FederatedDataset) : ofJson? d.toJson = some d := by
  have hrecords : asMap? NodeRecord.ofJson? d.toJson = some d.records :=
    asMap?_map fun e _ => NodeRecord.ofJson?_toJson e.2
  rw [ofJson?, hrecords]
  rfl

/-! ## 4. Secure aggregation -/

namespace MaskConfig

def floats (c : MaskConfig Float) : List Float := [c.clippingRange]

theorem ofJson?_toJson {c : MaskConfig Float} (h : ∀ x ∈ c.floats, x.isFinite = true) :
    ofJson? c.toJson = some c := by
  have hrange : asFloat? (float c.clippingRange) = some c.clippingRange :=
    asFloat?_float (h c.clippingRange List.mem_cons_self)
  refine asRecord?_then rfl (by decide) ?_
  refine Record.required_then rfl hrange ?_
  exact Record.required_then rfl (asByte?_word c.fixedPointBits) rfl

end MaskConfig

theorem SecaggSession.ofJson?_toJson (s : SecaggSession) : ofJson? s.toJson = some s := by
  have hparties : asList? asString? (list .str s.parties) = some s.parties :=
    asList?_list fun _ _ => rfl
  have hkeys : asMap? (asKey? .direct) (map key s.publicKeys) = some s.publicKeys :=
    asMap?_map fun e _ => asKey?_key .direct e.2
  refine asRecord?_then rfl (by decide) ?_
  refine Record.required_then rfl (asString?_str s.sessionId) ?_
  refine Record.required_then rfl hparties ?_
  exact Record.required_then rfl hkeys rfl

theorem SecureAggregation.ofJson?_toJson {s : SecureAggregation Float}
    (h : ∀ x ∈ s.config.floats, x.isFinite = true) : ofJson? s.toJson = some s := by
  have hsession : asOption? SecaggSession.ofJson? (option SecaggSession.toJson s.session) =
      some s.session :=
    asOption?_option fun session _ => ⟨nofun, SecaggSession.ofJson?_toJson session⟩
  refine asRecord?_then rfl (by decide) ?_
  refine Record.required_then rfl (asBool?_bool s.enabled) ?_
  refine Record.required_then rfl (MaskConfig.ofJson?_toJson h) ?_
  refine Record.required_then rfl (Duration.ofJson?_toJson s.timeout) ?_
  exact Record.nullable_then rfl hsession rfl

/-! ## 5. Checkpoints -/

theorem Timestamp.ofJson?_toJson {t : Timestamp} (h : t.Valid) : ofJson? t.toJson = some t := by
  rw [ofJson?, toJson, asString?_str, Option.bind_some, read_text h]

namespace RoundRecord

def floats (r : RoundRecord Float) : List Float :=
  r.params.floats ++ r.participants.values.flatMap ReplySummary.floats

theorem ofJson?_toJson {r : RoundRecord Float} (h : ∀ x ∈ r.floats, x.isFinite = true)
    (htime : r.completedAt.Valid) : ofJson? r.toJson = some r := by
  rw [floats, List.forall_mem_append, List.forall_mem_flatMap, SortedMap.forall_mem_values] at h
  have hparticipants : asMap? ReplySummary.ofJson? (map ReplySummary.toJson r.participants) =
      some r.participants :=
    asMap?_map fun e he => ReplySummary.ofJson?_toJson (h.2 e he)
  refine asRecord?_then rfl (by decide) ?_
  refine Record.required_then rfl (asWord?_word r.roundNumber) ?_
  refine Record.required_then rfl (Parameters.ofJson?_toJson h.1) ?_
  refine Record.required_then rfl hparticipants ?_
  exact Record.required_then rfl (Timestamp.ofJson?_toJson htime) rfl

end RoundRecord

namespace Checkpoint

/-- All floats of a checkpoint. -/
def floats (c : Checkpoint Float) : List Float :=
  c.initialParams.floats ++ c.history.flatMap RoundRecord.floats ++ c.nodeStates.floats ++
    c.aggregator.floats ++ c.optimizer.floats ++ c.trainingArgs.floats ++ c.secagg.config.floats

def timestamps (c : Checkpoint Float) : List Timestamp :=
  c.createdAt :: c.history.map RoundRecord.completedAt

/-- A checkpoint whose floats are finite, whose times are valid and whose free-form arguments are within
the depth to which documents are read. -/
structure Encodable (c : Checkpoint Float) : Prop where
  floats : ∀ x ∈ c.floats, x.isFinite = true
  timestamps : ∀ t ∈ c.timestamps, t.Valid
  modelArgs : ∀ e ∈ c.modelArgs.toList, 2 + e.2.json.depth ≤ Json.maxDepth

theorem ofJson?_toJson {c : Checkpoint Float} (h : c.Encodable) : ofJson? c.toJson = some c := by
  have hfloats := h.floats
  simp only [floats, List.forall_mem_append, List.forall_mem_flatMap] at hfloats
  obtain ⟨⟨⟨⟨⟨⟨hinitial, hrecords⟩, hstates⟩, haggregator⟩, hoptimizer⟩, hargs⟩, hmask⟩ := hfloats
  have hversion : asWord32? (count c.version.toNat) = some c.version := by
    rw [asWord32?_count c.version.toNat_lt, UInt32.ofNat_toNat]
  have hcreated : Timestamp.ofJson? c.createdAt.toJson = some c.createdAt :=
    Timestamp.ofJson?_toJson (h.timestamps c.createdAt List.mem_cons_self)
  have hhistory : asList? RoundRecord.ofJson? (list RoundRecord.toJson c.history) = some c.history := by
    refine asList?_list fun r hr => RoundRecord.ofJson?_toJson (hrecords r hr) ?_
    exact h.timestamps r.completedAt (List.mem_cons_of_mem _ (List.mem_map.2 ⟨r, hr, rfl⟩))
  have hmodel : asModelArgs? 2 (Json.modelArgs c.modelArgs) = some c.modelArgs :=
    asModelArgs?_modelArgs h.modelArgs
  have hnodes : asOption? asNames? (option names c.nodes) = some c.nodes :=
    asOption?_option fun s _ => ⟨nofun, asNames?_names s⟩
  refine asRecord?_then rfl (by decide) ?_
  refine Record.required_then rfl hversion ?_
  refine Record.required_then rfl (asString?_str c.experimentId) ?_
  refine Record.required_then rfl (asString?_str c.researcherId) ?_
  refine Record.required_then rfl hcreated ?_
  refine Record.required_then rfl (asWord?_word c.roundCurrent) ?_
  refine Record.required_then rfl (asWord?_word c.roundLimit) ?_
  refine Record.required_then rfl (Parameters.ofJson?_toJson hinitial) ?_
  refine Record.required_then rfl hhistory ?_
  refine Record.required_then rfl (NodeStates.ofJson?_toJson hstates) ?_
  refine Record.required_then rfl (Aggregator.ofJson?_toJson haggregator) ?_
  refine Record.withDefault_then rfl (Optimizer.ofJson?_toJson hoptimizer) ?_
  refine Record.required_then rfl (TrainingArgs.ofJson?_toJson hargs) ?_
  refine Record.withDefault_then rfl hmodel ?_
  refine Record.required_then rfl (DatasetQuery.ofJson?_toJson c.query) ?_
  refine Record.optional_then rfl hnodes ?_
  refine Record.required_then rfl (FederatedDataset.ofJson?_toJson c.dataset) ?_
  refine Record.withDefault_then rfl (asBool?_bool c.dataChecked) ?_
  refine Record.required_then rfl (SecureAggregation.ofJson?_toJson hmask) ?_
  refine Record.required_then rfl (Duration.ofJson?_toJson c.roundTimeout) ?_
  exact Record.required_then rfl (asString?_str c.selection) rfl

end Checkpoint

end Federation
