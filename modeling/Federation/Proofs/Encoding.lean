import Federation.Proofs.Checkpoint.Saving
import Federation.Proofs.Message.Accepted
/-!
# What is written is read back

Messages and checkpoints are read back from their texts as they were, as long as their floats are finite
and their free-form arguments keep the document within the depth to which documents are read. Messages
that were read from a text are always of this kind.
-/

namespace Federation

namespace Checkpoint

theorem encodable_of_depth {c : Checkpoint Float} (hfloats : ∀ x ∈ c.floats, x.isFinite = true)
    (htimes : ∀ t ∈ c.timestamps, t.Valid) (hdepth : c.toJson.depth ≤ Json.maxDepth) : c.Encodable := by
  refine ⟨hfloats, htimes, fun e he => ?_⟩
  have harg : e.2.json.depth < (Json.modelArgs c.modelArgs).depth := Json.depth_map_lt he
  have hargs : (Json.modelArgs c.modelArgs).depth < c.toJson.depth :=
    Json.depth_lt_of_mem (e := ("model_args", Json.modelArgs c.modelArgs)) (by simp)
  omega

/-- Whatever its version, a checkpoint is found again in its text. -/
theorem ofJson?_parse_encode {c : Checkpoint Float} (h : c.Encodable) :
    (Json.parse c.encode).bind ofJson? = some c := by
  rw [encode, Json.parse_pretty c.writable_toJson, Option.bind_some, ofJson?_toJson h]

end Checkpoint

/-- Requests, replies and checkpoints are read back as they were written, and so is every message that
was accepted, however it was written then. Decoding refuses checkpoints of other versions, which are
never encoded. -/
theorem documents_are_read_back :
    (∀ q : Request Float, (∀ x ∈ q.floats, x.isFinite = true) → q.toJson.depth ≤ Json.maxDepth →
      Request.decode q.encode = some q) ∧
    (∀ w : Reply Float, (∀ x ∈ w.floats, x.isFinite = true) → Reply.decode w.encode = some w) ∧
    (∀ c : Checkpoint Float, (∀ x ∈ c.floats, x.isFinite = true) → (∀ t ∈ c.timestamps, t.Valid) →
      c.toJson.depth ≤ Json.maxDepth →
      (Json.parse c.encode).bind Checkpoint.ofJson? = some c ∧
        (c.version = Checkpoint.currentVersion → Checkpoint.decode c.encode = .ok c)) ∧
    (∀ text q, Request.decode text = some q → Request.decode q.encode = some q) ∧
    ∀ text w, Reply.decode text = some w → Reply.decode w.encode = some w := by
  refine ⟨fun q hfloats hdepth => ?_, fun w hfloats => Reply.decode_encode hfloats,
    fun c hfloats htimes hdepth => ?_, fun text q h => ?_, fun text w h => ?_⟩
  · exact Request.decode_encode (Request.encodable_of_depth hfloats hdepth)
  · have hc := Checkpoint.encodable_of_depth hfloats htimes hdepth
    exact ⟨Checkpoint.ofJson?_parse_encode hc, fun hversion =>
      Checkpoint.decode_encode_of_encodable hversion hc⟩
  · exact Request.decode_encode (Request.encodable_of_decode h)
  · exact Reply.decode_encode (Reply.finite_of_decode h)

/-- A request with every optional part. -/
def WorkRequest.full : WorkRequest Float where
  researcherId := "researcher-1"
  experimentId := "experiment-1"
  roundNumber := 2
  requestId := 5
  nodeId := "node-a"
  datasetId := "images"
  stateId := 7
  params := .ofLayers [("w", [0.5, -1.0])]
  trainingArgs := { epochs := some 1, learningRate := some 0.1 }
  modelArgs := .ofList [("bias", ⟨.bool true, rfl⟩)]
  auxVars := .ofList [("correction", .ofLayers [("w", [0.25, 0.0])])]
  secagg := some {
    sessionId := "session-1"
    parties := ["node-a"]
    publicKeys := .ofList [("node-a", ⟨List.replicate 32 9, rfl⟩)]
    nonce := 11
    random := 0.125
    clippingRange := 3.0
    fixedPointBits := 20 }

/-- A reply with masked parameters. -/
def WorkReply.maskedTo (q : WorkRequest Float) : WorkReply Float :=
  { WorkReply.ofSuccess q (.masked ⟨[1, 2, 3]⟩) 10 .empty ⟨1.5, 1.25⟩ with
    metrics := .ofList [("loss", 0.125)] }

theorem documents_are_read_back_full :
    Request.decode (Request.train .full).encode = some (.train .full) ∧
      Reply.decode (Reply.train (.maskedTo .full)).encode = some (.train (.maskedTo .full)) ∧
      Checkpoint.decode (Checkpoint.withSecondMoment 0.25).encode =
        .ok (Checkpoint.withSecondMoment 0.25) ∧
      (∃ q, Request.decode "[\"train\", [\"r\", \"e\", 2, 5, \"a\", \"d\", 7, \x7b\"w\": [1, 5e-1]\x7d, []]]" =
        some q ∧ Request.decode q.encode = some q) ∧
      ∃ w, Reply.decode "[\"secagg_setup\", [\"e\", \"s\", \"a\", false]]" = some w ∧
        Reply.decode w.encode = some w := by
  obtain ⟨hrequest, hreply, hcheckpoint, haccepted, hacceptedReply⟩ := documents_are_read_back
  have htimes : ∀ t ∈ (Checkpoint.withSecondMoment 0.25).timestamps, t.Valid :=
    List.forall_mem_cons.2 ⟨⟨by decide, by decide, by decide⟩,
      List.forall_mem_singleton.2 ⟨by decide, by decide, by decide⟩⟩
  refine ⟨hrequest _ (by decide +kernel) (by decide +kernel), hreply _ (by decide +kernel),
    (hcheckpoint _ (by decide +kernel) htimes (by decide +kernel)).2 rfl, ?_, ?_⟩
  -- both are accepted as lists of their fields
  · obtain ⟨q, hq⟩ := Option.isSome_iff_exists.1 (by decide +kernel : (Request.decode
      "[\"train\", [\"r\", \"e\", 2, 5, \"a\", \"d\", 7, \x7b\"w\": [1, 5e-1]\x7d, []]]").isSome = true)
    exact ⟨q, hq, haccepted _ q hq⟩
  · obtain ⟨w, hw⟩ := Option.isSome_iff_exists.1 (by decide +kernel : (Reply.decode
      "[\"secagg_setup\", [\"e\", \"s\", \"a\", false]]").isSome = true)
    exact ⟨w, hw, hacceptedReply _ w hw⟩

end Federation
