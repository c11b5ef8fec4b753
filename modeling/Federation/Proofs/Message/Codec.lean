import Federation.Message.Codec
import Federation.Proofs.Json.Writable
/-!
# Messages out of their documents

A message is read out of its document as it was, provided that its floats are finite and that its
free-form arguments are not nested too deeply. Its document is found again in its text in any case.
-/

namespace Federation

open Json

/-! ## 1. Parameters and arguments -/

namespace Parameters

def floats (p : Parameters Float) : List Float := p.flatten

def optionalFloats (o : Option (Parameters Float)) : List Float := o.toList.flatMap floats

theorem forall_mem_floats {p : Parameters Float} {P : Float → Prop} :
    (∀ x ∈ p.floats, P x) ↔ ∀ e ∈ p.layers.toList, ∀ x ∈ e.2, P x := by
  rw [floats, flatten, ← List.flatMap_id, List.forall_mem_flatMap, SortedMap.forall_mem_values]
  rfl

theorem ofJson?_toJson {p : Parameters Float} (h : ∀ x ∈ p.floats, x.isFinite = true) :
    ofJson? p.toJson = some p := by
  rw [forall_mem_floats] at h
  have hlayers : asMap? (asList? asFloat?) p.toJson = some p.layers :=
    asMap?_map fun e he => asList?_list fun x hx => asFloat?_float (h e he x hx)
  rw [ofJson?, hlayers]
  rfl

theorem asOption?_toJson {o : Option (Parameters Float)} (h : ∀ x ∈ optionalFloats o, x.isFinite = true) :
    asOption? ofJson? (option toJson o) = some o := by
  rw [optionalFloats, List.forall_mem_flatMap, forall_mem_toList] at h
  exact asOption?_option fun p hp => ⟨nofun, ofJson?_toJson (h p hp)⟩

theorem writable_toJson (p : Parameters Float) : Writable p.toJson :=
  writable_map (writable_list writable_float) p.layers

end Parameters

namespace TrainingArgs

def floats (a : TrainingArgs Float) : List Float := a.learningRate.toList

theorem ofJson?_toJson {a : TrainingArgs Float} (h : ∀ x ∈ a.floats, x.isFinite = true) :
    ofJson? a.toJson = some a := by
  have hrate : asOption? asFloat? (option float a.learningRate) = some a.learningRate :=
    asOption?_float fun x hx => h x (Option.mem_toList.2 hx)
  refine asRecord?_then rfl (by decide) ?_
  refine Record.optional_then rfl (asOption?_word a.numUpdates) ?_
  refine Record.optional_then rfl (asOption?_word a.epochs) ?_
  refine Record.optional_then rfl hrate ?_
  exact Record.optional_then rfl (asOption?_word a.batchSize) rfl

theorem writable_toJson (a : TrainingArgs Float) : Writable a.toJson := by
  simp [toJson, writable_option writable_word, writable_option writable_float]

end TrainingArgs

namespace AuxVars

def floats (v : AuxVars Float) : List Float := v.values.flatMap Parameters.floats

theorem asMap?_toJson {v : AuxVars Float} (h : ∀ x ∈ floats v, x.isFinite = true) :
    asMap? Parameters.ofJson? (auxVars v) = some v := by
  rw [floats, List.forall_mem_flatMap, SortedMap.forall_mem_values] at h
  exact asMap?_map fun e he => Parameters.ofJson?_toJson (h e he)

theorem writable_toJson (v : AuxVars Float) : Writable (auxVars v) :=
  writable_map Parameters.writable_toJson v

end AuxVars

namespace SecaggArguments

def floats (a : SecaggArguments Float) : List Float := [a.random, a.clippingRange]

theorem ofJson?_toJson (d : Decoding) {a : SecaggArguments Float} (h : ∀ x ∈ a.floats, x.isFinite = true) :
    ofJson? d a.toJson = some a := by
  simp only [floats, List.forall_mem_cons] at h
  have hparties : asList? asString? (list .str a.parties) = some a.parties :=
    asList?_list fun _ _ => rfl
  have hkeys : asMap? (asKey? d) (map key a.publicKeys) = some a.publicKeys :=
    asMap?_map fun e _ => asKey?_key d e.2
  refine asRecord?_then rfl (by decide) ?_
  refine Record.required_then rfl (asString?_str a.sessionId) ?_
  refine Record.required_then rfl hparties ?_
  refine Record.required_then rfl hkeys ?_
  refine Record.required_then rfl (asWord?_word a.nonce) ?_
  refine Record.required_then rfl (asFloat?_float h.1) ?_
  refine Record.required_then rfl (asFloat?_float h.2.1) ?_
  exact Record.required_then rfl (asByte?_word a.fixedPointBits) rfl

theorem writable_toJson (a : SecaggArguments Float) : Writable a.toJson := by
  simp [toJson, writable_list Writable.str, writable_map writable_key]

end SecaggArguments

/-! ## 2. Requests -/

namespace WorkRequest

def floats (q : WorkRequest Float) : List Float :=
  q.params.floats ++ q.trainingArgs.floats ++ AuxVars.floats q.auxVars ++
    q.secagg.toList.flatMap SecaggArguments.floats

/-- A request whose floats are finite and whose free-form arguments are within the depth to which
documents are read. -/
structure Encodable (q : WorkRequest Float) : Prop where
  floats : ∀ x ∈ q.floats, x.isFinite = true
  modelArgs : ∀ e ∈ q.modelArgs.toList, 3 + e.2.json.depth ≤ maxDepth

theorem ofJson?_toJson (d : Decoding) {q : WorkRequest Float} (h : q.Encodable) :
    ofJson? d q.toJson = some q := by
  have hfloats := h.floats
  simp only [floats, List.forall_mem_append, List.forall_mem_flatMap, forall_mem_toList] at hfloats
  obtain ⟨⟨⟨hparams, hargs⟩, haux⟩, hsecagg⟩ := hfloats
  have hsecagg : asOption? (SecaggArguments.ofJson? d) (option SecaggArguments.toJson q.secagg) =
      some q.secagg :=
    asOption?_option fun a ha => ⟨nofun, SecaggArguments.ofJson?_toJson d (hsecagg a ha)⟩
  refine asRecord?_then rfl (by decide) ?_
  refine Record.required_then rfl (asString?_str q.researcherId) ?_
  refine Record.required_then rfl (asString?_str q.experimentId) ?_
  refine Record.required_then rfl (asWord?_word q.roundNumber) ?_
  refine Record.required_then rfl (asWord?_word q.requestId) ?_
  refine Record.required_then rfl (asString?_str q.nodeId) ?_
  refine Record.required_then rfl (asString?_str q.datasetId) ?_
  refine Record.required_then rfl (asWord?_word q.stateId) ?_
  refine Record.required_then rfl (Parameters.ofJson?_toJson hparams) ?_
  refine Record.required_then rfl (TrainingArgs.ofJson?_toJson hargs) ?_
  refine Record.withDefault_then rfl (asModelArgs?_modelArgs h.modelArgs) ?_
  refine Record.withDefault_then rfl (AuxVars.asMap?_toJson haux) ?_
  exact Record.optional_then rfl hsecagg rfl

theorem writable_toJson (q : WorkRequest Float) : Writable q.toJson := by
  simp [toJson, Parameters.writable_toJson, TrainingArgs.writable_toJson, writable_modelArgs,
    AuxVars.writable_toJson, writable_option SecaggArguments.writable_toJson]

end WorkRequest

theorem SetupRequest.ofJson?_toJson (q : SetupRequest) : ofJson? q.toJson = some q := by
  have hparties : asList? asString? (list .str q.parties) = some q.parties :=
    asList?_list fun _ _ => rfl
  refine asRecord?_then rfl (by decide) ?_
  refine Record.required_then rfl (asString?_str q.researcherId) ?_
  refine Record.required_then rfl (asString?_str q.experimentId) ?_
  refine Record.required_then rfl (asString?_str q.sessionId) ?_
  refine Record.required_then rfl (asString?_str q.nodeId) ?_
  exact Record.required_then rfl hparties rfl

theorem SetupRequest.writable_toJson (q : SetupRequest) : Writable q.toJson := by
  simp [toJson, writable_list Writable.str]

/-! ## 3. Replies -/

namespace ReplyParams

def floats : ReplyParams Float → List Float
  | .plain p => p.floats
  | .masked _ => []

theorem ofJson?_plain (p : Parameters Float) :
    ofJson? (toJson (.plain p)) = (Parameters.ofJson? p.toJson).bind fun p => some (plain p) := rfl

theorem ofJson?_masked (v : MaskedVector) :
    ofJson? (toJson (.masked v)) =
      (maskedOfJson? (.obj [("data", list word v.data)])).bind fun v => some (masked v) := rfl

theorem ofJson?_toJson {p : ReplyParams Float} (h : ∀ x ∈ p.floats, x.isFinite = true) :
    ofJson? p.toJson = some p := by
  cases p with
  | plain p => rw [ofJson?_plain, Parameters.ofJson?_toJson h, Option.bind_some]
  | masked v =>
    have hdata : asList? asWord? (list word v.data) = some v.data := asList?_list fun _ _ => rfl
    have hvector : maskedOfJson? (.obj [("data", list word v.data)]) = some v :=
      asRecord?_then rfl (by decide) (Record.required_then rfl hdata rfl)
    rw [ofJson?_masked, hvector, Option.bind_some]

theorem writable_toJson (p : ReplyParams Float) : Writable p.toJson := by
  cases p <;> simp [toJson, case, Parameters.writable_toJson, writable_list writable_word]

end ReplyParams

namespace Timing

def floats (t : Timing Float) : List Float := [t.rtimeTraining, t.ptimeTraining]

theorem ofJson?_toJson {t : Timing Float} (h : ∀ x ∈ t.floats, x.isFinite = true) :
    ofJson? t.toJson = some t := by
  simp only [floats, List.forall_mem_cons] at h
  refine asRecord?_then rfl (by decide) ?_
  refine Record.withDefault_then rfl (asFloat?_float h.1) ?_
  exact Record.withDefault_then rfl (asFloat?_float h.2.1) rfl

theorem writable_toJson (t : Timing Float) : Writable t.toJson := by simp [toJson]

end Timing

theorem NodeErrorKind.ofJson?_name (d : Decoding) (k : NodeErrorKind) :
    ofJson? d (.str k.name) = some k := by
  cases k <;> rfl

theorem NodeError.read?_toJson (d : Decoding) (e : NodeError) : read? d e.toJson = some e := by
  refine asRecord?_then rfl (by decide) ?_
  refine Record.required_then rfl (NodeErrorKind.ofJson?_name d e.kind) ?_
  exact Record.required_then rfl (asString?_str e.message) rfl

theorem NodeError.asOption?_toJson (d : Decoding) (o : Option NodeError) :
    asOption? (read? d) (option toJson o) = some o :=
  asOption?_option fun e _ => ⟨nofun, read?_toJson d e⟩

theorem NodeError.writable_toJson (e : NodeError) : Writable e.toJson := by simp [toJson]

namespace WorkReply

def floats (w : WorkReply Float) : List Float :=
  w.params.toList.flatMap ReplyParams.floats ++ AuxVars.floats w.auxVars ++ w.timing.floats ++
    w.metrics.values

theorem ofJson?_toJson (d : Decoding) {w : WorkReply Float} (h : ∀ x ∈ w.floats, x.isFinite = true) :
    ofJson? d w.toJson = some w := by
  simp only [floats, List.forall_mem_append, List.forall_mem_flatMap, forall_mem_toList,
    SortedMap.forall_mem_values] at h
  obtain ⟨⟨⟨hparams, haux⟩, htiming⟩, hmetrics⟩ := h
  have hparams : asOption? ReplyParams.ofJson? (option ReplyParams.toJson w.params) = some w.params := by
    refine asOption?_option fun p hp => ⟨?_, ReplyParams.ofJson?_toJson (hparams p hp)⟩
    cases p <;> nofun
  have hmetrics : asMap? asFloat? (map float w.metrics) = some w.metrics :=
    asMap?_map fun e he => asFloat?_float (hmetrics e he)
  refine asRecord?_then rfl (by decide) ?_
  refine Record.required_then rfl (asString?_str w.experimentId) ?_
  refine Record.required_then rfl (asWord?_word w.roundNumber) ?_
  refine Record.required_then rfl (asWord?_word w.requestId) ?_
  refine Record.required_then rfl (asString?_str w.nodeId) ?_
  refine Record.required_then rfl (asWord?_word w.stateId) ?_
  refine Record.required_then rfl (asBool?_bool w.success) ?_
  refine Record.optional_then rfl hparams ?_
  refine Record.withDefault_then rfl (asWord?_word w.sampleCount) ?_
  refine Record.withDefault_then rfl (AuxVars.asMap?_toJson haux) ?_
  refine Record.withDefault_then rfl (Timing.ofJson?_toJson htiming) ?_
  refine Record.withDefault_then rfl hmetrics ?_
  exact Record.optional_then rfl (NodeError.asOption?_toJson d w.error) rfl

theorem writable_toJson (w : WorkReply Float) : Writable w.toJson := by
  simp [toJson, writable_option ReplyParams.writable_toJson, AuxVars.writable_toJson,
    Timing.writable_toJson, writable_map writable_float, writable_option NodeError.writable_toJson]

end WorkReply

theorem SetupReply.ofJson?_toJson (d : Decoding) (w : SetupReply) : ofJson? d w.toJson = some w := by
  have hkey : asOption? (asKey? d) (option key w.publicKey) = some w.publicKey :=
    asOption?_option fun k _ => ⟨nofun, asKey?_key d k⟩
  refine asRecord?_then rfl (by decide) ?_
  refine Record.required_then rfl (asString?_str w.experimentId) ?_
  refine Record.required_then rfl (asString?_str w.sessionId) ?_
  refine Record.required_then rfl (asString?_str w.nodeId) ?_
  refine Record.required_then rfl (asBool?_bool w.success) ?_
  refine Record.optional_then rfl hkey ?_
  exact Record.optional_then rfl (NodeError.asOption?_toJson d w.error) rfl

theorem SetupReply.writable_toJson (w : SetupReply) : Writable w.toJson := by
  simp [toJson, writable_option writable_key, writable_option NodeError.writable_toJson]

/-! ## 4. Messages -/

theorem Json.writable_envelope {command : String} {payload : Json} (h : Writable payload) :
    Writable (envelope command payload) := by
  simp [envelope, h]

namespace Request

def floats : Request Float → List Float
  | .train q => q.floats
  | .setup _ => []

/-- A request is read as its command says. -/
theorem ofJson?_train (q : WorkRequest Float) :
    ofJson? (toJson (.train q)) = (WorkRequest.ofJson? .direct q.toJson).bind fun q => some (train q) := rfl

theorem ofJson?_setup (q : SetupRequest) :
    ofJson? (toJson (.setup q)) = (SetupRequest.ofJson? q.toJson).bind fun q => some (setup q) := rfl

/-- A setup request is always encodable. -/
def Encodable : Request Float → Prop
  | .train q => q.Encodable
  | .setup _ => True

theorem ofJson?_toJson {q : Request Float} (h : q.Encodable) : ofJson? q.toJson = some q := by
  cases q with
  | train q => rw [ofJson?_train, WorkRequest.ofJson?_toJson .direct h, Option.bind_some]
  | setup q => rw [ofJson?_setup, SetupRequest.ofJson?_toJson, Option.bind_some]

theorem writable_toJson (q : Request Float) : Writable q.toJson := by
  cases q with
  | train q => exact writable_envelope q.writable_toJson
  | setup q => exact writable_envelope q.writable_toJson

theorem decode_encode {q : Request Float} (h : q.Encodable) : decode q.encode = some q := by
  rw [decode, encode, parse_compress q.writable_toJson, Option.bind_some, ofJson?_toJson h]

/-- A request is encodable as soon as its whole document is within the depth. -/
theorem encodable_of_depth {q : Request Float} (hfloats : ∀ x ∈ q.floats, x.isFinite = true)
    (hdepth : q.toJson.depth ≤ maxDepth) : q.Encodable := by
  cases q with
  | setup q => trivial
  | train q =>
    refine ⟨hfloats, fun e he => ?_⟩
    have harg : e.2.json.depth < (modelArgs q.modelArgs).depth := depth_map_lt he
    have hargs : (modelArgs q.modelArgs).depth < q.toJson.depth :=
      depth_lt_of_mem (e := ("model_args", modelArgs q.modelArgs)) (by simp)
    have hpayload : q.toJson.depth < (toJson (.train q)).depth :=
      depth_lt_of_mem (e := ("payload", q.toJson)) (by simp)
    omega

end Request

namespace Reply

def floats : Reply Float → List Float
  | .train w => w.floats
  | .setup _ => []

theorem ofJson?_train (w : WorkReply Float) :
    ofJson? (toJson (.train w)) = (WorkReply.ofJson? .direct w.toJson).bind fun w => some (train w) := rfl

theorem ofJson?_setup (w : SetupReply) :
    ofJson? (toJson (.setup w)) = (SetupReply.ofJson? .direct w.toJson).bind fun w => some (setup w) := rfl

theorem ofJson?_toJson {w : Reply Float} (h : ∀ x ∈ w.floats, x.isFinite = true) :
    ofJson? w.toJson = some w := by
  cases w with
  | train w => rw [ofJson?_train, WorkReply.ofJson?_toJson .direct h, Option.bind_some]
  | setup w => rw [ofJson?_setup, SetupReply.ofJson?_toJson .direct, Option.bind_some]

theorem writable_toJson (w : Reply Float) : Writable w.toJson := by
  cases w with
  | train w => exact writable_envelope w.writable_toJson
  | setup w => exact writable_envelope w.writable_toJson

theorem decode_encode {w : Reply Float} (h : ∀ x ∈ w.floats, x.isFinite = true) :
    decode w.encode = some w := by
  rw [decode, encode, parse_compress w.writable_toJson, Option.bind_some, ofJson?_toJson h]

end Reply

end Federation
