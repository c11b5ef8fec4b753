import Federation.Proofs.Message.Decodings
import Federation.Proofs.Round.Channels
/-!
# Replies by their fields

Which replies are accepted: a document of a command and a payload, in either order and among other fields,
with a payload that has the fields of its schema and no others. A payload that stands before its command is
decoded after it was kept. So it must be readable throughout and within the depth to which documents are
read, and each of the two decodings has a form of its own for a part that the other one refuses.
-/

namespace Federation

open Json

/-! ## 1. Payloads -/

theorem Timing.ofJson?_zero : ofJson? (zero : Timing Float).toJson = some zero :=
  ofJson?_toJson (by decide +kernel)

namespace WorkReply

/-- The fields of the reply to a work request. -/
def schema (d : Decoding) : Schema (WorkReply Float) where
  fields := [
    .required "experiment_id" asString? experimentId,
    .required "round_number" asWord? roundNumber,
    .required "request_id" asWord? requestId,
    .required "node_id" asString? nodeId,
    .required "state_id" asWord? stateId,
    .required "success" asBool? success,
    .defaulted "params" .null (asOption? ReplyParams.ofJson?) params rfl,
    .defaulted "sample_count" (word 0) asWord? sampleCount rfl,
    .defaulted "aux_vars" (Json.auxVars .empty) (asMap? Parameters.ofJson?) auxVars rfl,
    .defaulted "timing" Timing.zero.toJson Timing.ofJson? timing
      (Option.isSome_of_eq_some Timing.ofJson?_zero),
    .defaulted "metrics" (map float .empty) (asMap? asFloat?) metrics rfl,
    .defaulted "error" .null (asOption? (NodeError.read? d)) error rfl]
  distinct := by cases d <;> decide

theorem follows_schema (d : Decoding) : (schema d).Follows (ofJson? d) := by
  refine Schema.follows_of_collects (fun _ => rfl) fun fields => ?_
  refine Schema.Collects.required fun experimentId => ?_
  refine Schema.Collects.required fun roundNumber => ?_
  refine Schema.Collects.required fun requestId => ?_
  refine Schema.Collects.required fun nodeId => ?_
  refine Schema.Collects.required fun stateId => ?_
  refine Schema.Collects.required fun success => ?_
  refine Schema.Collects.optional fun params => ?_
  refine Schema.Collects.defaulted rfl fun sampleCount => ?_
  refine Schema.Collects.defaulted rfl fun auxVars => ?_
  refine Schema.Collects.defaulted Timing.ofJson?_zero fun timing => ?_
  refine Schema.Collects.defaulted rfl fun metrics => ?_
  refine Schema.Collects.optional fun error => ?_
  refine Schema.collects_some fun w => ?_
  cases w
  simp [and_assoc, eq_comm]

end WorkReply

namespace SetupReply

/-- The fields of the reply to a setup request. -/
def schema (d : Decoding) : Schema SetupReply where
  fields := [
    .required "experiment_id" asString? experimentId,
    .required "session_id" asString? sessionId,
    .required "node_id" asString? nodeId,
    .required "success" asBool? success,
    .defaulted "public_key" .null (asOption? (asKey? d)) publicKey rfl,
    .defaulted "error" .null (asOption? (NodeError.read? d)) error rfl]
  distinct := by cases d <;> decide

theorem follows_schema (d : Decoding) : (schema d).Follows (ofJson? d) := by
  refine Schema.follows_of_collects (fun _ => rfl) fun fields => ?_
  refine Schema.Collects.required fun experimentId => ?_
  refine Schema.Collects.required fun sessionId => ?_
  refine Schema.Collects.required fun nodeId => ?_
  refine Schema.Collects.required fun success => ?_
  refine Schema.Collects.optional fun publicKey => ?_
  refine Schema.Collects.optional fun error => ?_
  refine Schema.collects_some fun w => ?_
  cases w
  simp [and_assoc, eq_comm]

end SetupReply

/-! ## 2. Envelopes -/

namespace Json

/-- The command stands before the payload. -/
def CommandFirst (outer : List (String × Json)) : Prop :=
  ["command", "payload"].Sublist (outer.map Prod.fst)

instance (outer : List (String × Json)) : Decidable (CommandFirst outer) :=
  inferInstanceAs (Decidable (List.Sublist _ _))

/-- How the payload of a message is decoded. -/
def decodingOf (outer : List (String × Json)) : Decoding := if CommandFirst outer then .direct else .kept

/-- A payload that can be kept until its command is known. -/
def Keepable (payload : Json) : Prop := payload.isReadable = true ∧ 1 + payload.depth ≤ maxDepth

/-- A part with which a payload can be kept. -/
def KeepablePart (j : Json) : Prop := j.isReadable = true ∧ j.depth ≤ maxDepth - 2

/-- A payload that can be decoded at all. -/
def Decoding.Takes (d : Decoding) (payload : Json) : Prop := d = .kept → Keepable payload

instance (payload : Json) : Decidable (Keepable payload) := inferInstanceAs (Decidable (_ ∧ _))

instance (d : Decoding) (payload : Json) : Decidable (d.Takes payload) :=
  inferInstanceAs (Decidable (_ → Keepable payload))

/-- A command and a payload in either order, among any number of other fields. -/
def Encloses (outer : List (String × Json)) (command payload : Json) : Prop :=
  ∃ others, (∀ e ∈ others, e.1 ≠ "command" ∧ e.1 ≠ "payload") ∧
    outer.Perm (("command", command) :: ("payload", payload) :: others)

theorem keepable_iff {fields : List (String × Json)} : Keepable (.obj fields) ↔
    ∀ e ∈ fields, KeepablePart e.2 := by
  have hdepth : 1 + depth (.obj fields) ≤ maxDepth ↔ depthFields fields ≤ maxDepth - 2 := by
    rw [depth, maxDepth]
    omega
  rw [Keepable, hdepth, isReadable, fieldsReadable_iff, depthFields_le_iff]
  exact forall₂_and.symm

theorem keepable_perm {fields fields' : List (String × Json)} (h : fields.Perm fields') :
    Keepable (.obj fields) ↔ Keepable (.obj fields') := by
  rw [keepable_iff, keepable_iff]
  exact forall_congr' fun e => by rw [h.mem_iff]

theorem keepable_cons {fields : List (String × Json)} {name : String} {j : Json}
    (h : KeepablePart j) :
    Keepable (.obj ((name, j) :: fields)) ↔ Keepable (.obj fields) := by
  rw [keepable_iff, keepable_iff, List.forall_mem_cons]
  exact and_iff_right h

/-- A field which is not skipped. -/
def isPart (e : String × Json) : Bool := e.1 == "command" || e.1 == "payload"

theorem filter_of_encloses {outer : List (String × Json)} {command payload : Json}
    (h : Encloses outer command payload) :
    CommandFirst outer ∧ outer.filter isPart = [("command", command), ("payload", payload)] ∨
      ¬CommandFirst outer ∧ outer.filter isPart = [("payload", payload), ("command", command)] := by
  obtain ⟨others, hothers, hperm⟩ := h
  -- only the two parts are left, in one order or the other
  have hfilter : (outer.filter isPart).Perm [("command", command), ("payload", payload)] := by
    have hnone : others.filter isPart = [] :=
      List.filter_eq_nil_iff.2 fun e he => by simp [isPart, hothers e he]
    have hparts := hperm.filter isPart
    rwa [List.filter_cons_of_pos rfl, List.filter_cons_of_pos rfl, hnone] at hparts
  rcases List.perm_pair.1 hfilter with heq | heq
  · refine Or.inl ⟨?_, heq⟩
    have hparts : ((outer.filter isPart).map Prod.fst).Sublist (outer.map Prod.fst) :=
      List.filter_sublist.map Prod.fst
    rwa [heq] at hparts
  · refine Or.inr ⟨fun hfirst => ?_, heq⟩
    have hnames : (outer.map Prod.fst).filter (fun name => name == "command" || name == "payload") =
        ["payload", "command"] := by
      rw [List.filter_map]
      exact congrArg (List.map Prod.fst) heq
    have hparts := hfirst.filter fun name => name == "command" || name == "payload"
    rw [hnames] at hparts
    exact absurd hparts (by decide)

theorem asEnvelope?_of_encloses {outer : List (String × Json)} {command payload : Json}
    (h : Encloses outer command payload) :
    asEnvelope? (.obj outer) =
      if (decodingOf outer).Takes payload then
        (command.asCase? .direct).map (⟨·, payload, decodingOf outer⟩)
      else none := by
  rw [asEnvelope?]
  rcases filter_of_encloses h with ⟨hfirst, hparts⟩ | ⟨hlast, hparts⟩
  · have hdirect : decodingOf outer = .direct := if_pos hfirst
    unfold isPart at hparts
    rw [hparts, hdirect, if_pos nofun]
    rfl
  · have hkept : decodingOf outer = .kept := if_neg hlast
    have htakes : Decoding.Takes .kept payload ↔
        (payload.isReadable && decide (1 + payload.depth ≤ maxDepth)) = true := by
      rw [Decoding.Takes, imp_iff_right rfl, Keepable, Bool.and_eq_true, decide_eq_true_eq]
    unfold isPart at hparts
    rw [hparts, hkept, if_congr htakes rfl rfl]
    rfl

/-- A command and a payload, in the order in which the payload is decoded so. -/
def message (d : Decoding) (command payload : Json) : Json :=
  .obj (match d with
    | .direct => [("command", command), ("payload", payload)]
    | .kept => [("payload", payload), ("command", command)])

end Json

/-! ## 3. Messages -/

theorem Timing.keepablePart_zero : KeepablePart (zero : Timing Float).toJson := by
  have hzero : float (0 : Float) = .num (.float 0) := if_pos (by decide +kernel)
  show KeepablePart (.obj [("rtime_training", float 0), ("ptime_training", float 0)])
  rw [hzero]
  exact ⟨rfl, by decide⟩

theorem WorkReply.keepable_default (d : Decoding) :
    ∀ f ∈ (schema d).fields, ∀ j ∈ f.default, KeepablePart j := by
  have hnull : KeepablePart .null := ⟨rfl, by decide⟩
  have hcount : KeepablePart (word 0) := ⟨rfl, by decide⟩
  have hvars : KeepablePart (Json.auxVars .empty) := ⟨rfl, by decide⟩
  have hmetrics : KeepablePart (map float .empty) := ⟨rfl, by decide⟩
  simp [schema, Field.required, Field.defaulted, hnull, hcount, hvars, Timing.keepablePart_zero, hmetrics]

theorem SetupReply.keepable_default (d : Decoding) :
    ∀ f ∈ (schema d).fields, ∀ j ∈ f.default, KeepablePart j := by
  have hnull : KeepablePart .null := ⟨rfl, by decide⟩
  simp [schema, Field.required, Field.defaulted, hnull]

namespace Json

theorem asEnvelope?_message (d : Decoding) (command payload : Json) :
    asEnvelope? (message d command payload) =
      if d.Takes payload then (command.asCase? .direct).map (⟨·, payload, d⟩) else none := by
  cases d with
  | direct => exact asEnvelope?_of_encloses ⟨[], List.forall_mem_nil _, List.Perm.refl _⟩
  | kept => exact asEnvelope?_of_encloses ⟨[], List.forall_mem_nil _, List.Perm.swap _ _ _⟩

end Json

namespace Reply

/-- The reply with a given command and a payload that is decoded in one of the two ways. -/
theorem ofJson?_of_encloses {outer : List (String × Json)} {command payload : Json}
    (h : Encloses outer command payload) :
    ofJson? (.obj outer) = ofJson? (message (decodingOf outer) command payload) := by
  rw [ofJson?, ofJson?, asEnvelope?_of_encloses h, asEnvelope?_message]

/-- A payload is read by a schema if it can be decoded, and the reply that it describes is handed on as
`wrap` says. -/
structure ReadBy {W : Type} (s : Schema W) (wrap : W → Reply Float) (d : Decoding) (command : Json)
    (fields : List (String × Json)) : Prop where
  accepts : (ofJson? (message d command (.obj fields))).isSome = true ↔
    d.Takes (.obj fields) ∧ s.Accepts fields
  describes : ∀ r, ofJson? (message d command (.obj fields)) = some r ↔
    d.Takes (.obj fields) ∧ ∃ w, s.Describes fields w ∧ wrap w = r
  -- What stands for a missing field may as well be written.
  defaults : ∀ f ∈ s.fields, f.name ∉ fields.map Prod.fst → ∀ j ∈ f.default,
    ofJson? (message d command (.obj ((f.name, j) :: fields))) =
      ofJson? (message d command (.obj fields))

section ReadBy

variable {W : Type} {s : Schema W} {read : Json → Option W} {wrap : W → Reply Float} {d : Decoding}
  {command : Json} {fields written : List (String × Json)}

theorem readBy_of_follows (h : s.Follows read)
    (hread : ∀ payload, ofJson? (message d command payload) =
      if d.Takes payload then (read payload).map wrap else none)
    (hdefault : ∀ f ∈ s.fields, ∀ j ∈ f.default, KeepablePart j) :
    ReadBy s wrap d command fields where
  accepts := by
    rw [hread]
    by_cases htakes : d.Takes (.obj fields)
    · rw [if_pos htakes, Option.isSome_map, h.isSome_iff_accepts, and_iff_right htakes]
    · rw [if_neg htakes]
      exact iff_of_false Bool.false_ne_true fun haccepts => htakes haccepts.1
  describes r := by
    rw [hread, Option.ite_none_right_eq_some, Option.map_eq_some_iff]
    exact and_congr_right fun _ => exists_congr fun w => by rw [h.eq_some_iff_describes]
  defaults f hf hmissing j hj := by
    have htakes : d.Takes (.obj ((f.name, j) :: fields)) ↔ d.Takes (.obj fields) :=
      imp_congr_right fun _ => keepable_cons (hdefault f hf j hj)
    rw [hread, hread, h.write_default hf hj hmissing, if_congr htakes rfl rfl]

theorem ofJson?_message_train (h : command.asCase? .direct = some "train") (payload : Json) :
    ofJson? (message d command payload) =
      if d.Takes payload then (WorkReply.ofJson? d payload).map train else none := by
  rw [ofJson?, asEnvelope?_message, h]
  split
  · exact Option.map_eq_bind.symm
  · rfl

theorem ofJson?_message_setup (h : command.asCase? .direct = some "secagg_setup") (payload : Json) :
    ofJson? (message d command payload) =
      if d.Takes payload then (SetupReply.ofJson? d payload).map setup else none := by
  rw [ofJson?, asEnvelope?_message, h]
  split
  · exact Option.map_eq_bind.symm
  · rfl

theorem ofJson?_message_other (htrain : command.asCase? .direct ≠ some "train")
    (hsetup : command.asCase? .direct ≠ some "secagg_setup") (payload : Json) :
    ofJson? (message d command payload) = none := by
  rw [ofJson?, asEnvelope?_message]
  split
  · cases hcase : command.asCase? .direct with
    | none => rfl
    | some name =>
      have htrain : name ≠ "train" := fun h => htrain (by rw [hcase, h])
      have hsetup : name ≠ "secagg_setup" := fun h => hsetup (by rw [hcase, h])
      show (if name = "train" then _ else if name = "secagg_setup" then _ else none) = none
      rw [if_neg htrain, if_neg hsetup]
  · rfl

/-- A payload is read by the schema of its command, or not at all. -/
theorem readBy_or_none (d : Decoding) (command : Json) (fields : List (String × Json)) :
    (command.asCase? .direct = some "train" ∧ ReadBy (WorkReply.schema d) train d command fields) ∨
      (command.asCase? .direct = some "secagg_setup" ∧
        ReadBy (SetupReply.schema d) setup d command fields) ∨
      ∀ payload, ofJson? (message d command payload) = none := by
  by_cases htrain : command.asCase? .direct = some "train"
  · exact .inl ⟨htrain, readBy_of_follows (WorkReply.follows_schema d) (ofJson?_message_train htrain)
      (WorkReply.keepable_default d)⟩
  by_cases hsetup : command.asCase? .direct = some "secagg_setup"
  · exact .inr (.inl ⟨hsetup, readBy_of_follows (SetupReply.follows_schema d)
      (ofJson?_message_setup hsetup) (SetupReply.keepable_default d)⟩)
  · exact .inr (.inr (ofJson?_message_other htrain hsetup))

theorem ofJson?_message_perm (h : written.Perm fields) (command : Json) :
    ofJson? (message d command (.obj written)) = ofJson? (message d command (.obj fields)) := by
  have htakes : d.Takes (.obj written) ↔ d.Takes (.obj fields) :=
    imp_congr_right fun _ => keepable_perm h
  by_cases htrain : command.asCase? .direct = some "train"
  · rw [ofJson?_message_train htrain, ofJson?_message_train htrain,
      (WorkReply.follows_schema d).perm h, if_congr htakes rfl rfl]
  by_cases hsetup : command.asCase? .direct = some "secagg_setup"
  · rw [ofJson?_message_setup hsetup, ofJson?_message_setup hsetup,
      (SetupReply.follows_schema d).perm h, if_congr htakes rfl rfl]
  · rw [ofJson?_message_other htrain hsetup, ofJson?_message_other htrain hsetup]

end ReadBy

/-! ## 4. The order of the parts -/

section Order

variable {W : Type} {s : Schema W} {wrap : W → Reply Float} {d : Decoding} {command j : Json}
  {fields : List (String × Json)}

theorem ReadBy.eq_none_of_field (h : ReadBy s wrap d command fields) {f : Json.Field W}
    (hf : f ∈ s.fields) (hmem : (f.name, j) ∈ fields) (hread : f.read j = none) :
    ofJson? (message d command (.obj fields)) = none := by
  refine Option.not_isSome_iff_eq_none.1 fun hsome => ?_
  have hreadable := (h.accepts.1 hsome).2.readable f hf j hmem
  rw [hread] at hreadable
  contradiction

theorem ReadBy.eq_none_of_unknown (h : ReadBy s wrap d command fields) {name : String}
    (hname : name ∉ s.names) (hmem : (name, j) ∈ fields) :
    ofJson? (message d command (.obj fields)) = none :=
  Option.not_isSome_iff_eq_none.1 fun hsome =>
    hname ((h.accepts.1 hsome).2.admits.known (name, j) hmem)

/-- A payload without a part that tells the decodings from each other is read alike, if it can be kept. -/
theorem ofJson?_message_kept (h : ∀ e ∈ fields, ¬TellsDecoding e) (hkeepable : Keepable (.obj fields)) :
    ofJson? (message .kept command (.obj fields)) = ofJson? (message .direct command (.obj fields)) := by
  have hkept : Decoding.kept.Takes (.obj fields) := fun _ => hkeepable
  have hdirect : Decoding.direct.Takes (.obj fields) := nofun
  by_cases htrain : command.asCase? .direct = some "train"
  · rw [ofJson?_message_train htrain, ofJson?_message_train htrain, if_pos hkept, if_pos hdirect,
      WorkReply.ofJson?_kept h]
  by_cases hsetup : command.asCase? .direct = some "secagg_setup"
  · rw [ofJson?_message_setup hsetup, ofJson?_message_setup hsetup, if_pos hkept, if_pos hdirect,
      SetupReply.ofJson?_kept h]
  · rw [ofJson?_message_other htrain hsetup, ofJson?_message_other htrain hsetup]

theorem ofJson?_message_of_not_keepable (h : ¬Keepable (.obj fields)) :
    ofJson? (message .kept command (.obj fields)) = none := by
  rw [ofJson?, asEnvelope?_message, if_neg fun htakes => h (htakes rfl)]
  rfl

theorem ofJson?_message_hollowKind (h : NodeError.HasHollowKind j) (hmem : ("error", j) ∈ fields) :
    ofJson? (message .direct command (.obj fields)) = none := by
  have hread : asOption? (NodeError.read? .direct) j = none :=
    asOption?_eq_none (NodeError.read?_direct_of_hollow h) fun hnull => by rw [hnull] at h; exact h
  rcases readBy_or_none .direct command fields with ⟨-, htrain⟩ | ⟨-, hsetup⟩ | hnone
  · have hfield : .defaulted "error" .null (asOption? (NodeError.read? .direct)) WorkReply.error rfl ∈
        (WorkReply.schema .direct).fields := by simp [WorkReply.schema]
    exact htrain.eq_none_of_field hfield hmem hread
  · have hfield : .defaulted "error" .null (asOption? (NodeError.read? .direct)) SetupReply.error rfl ∈
        (SetupReply.schema .direct).fields := by simp [SetupReply.schema]
    exact hsetup.eq_none_of_field hfield hmem hread
  · exact hnone _

theorem ofJson?_message_keyText (h : j.IsKeyText) (hmem : ("public_key", j) ∈ fields) :
    ofJson? (message .kept command (.obj fields)) = none := by
  have hread : asOption? (asKey? .kept) j = none :=
    asOption?_eq_none (asKey?_kept_of_isKeyText h) fun hnull => by
      obtain ⟨bytes, hbytes, -⟩ := h
      rw [hnull] at hbytes
      contradiction
  rcases readBy_or_none .kept command fields with ⟨-, htrain⟩ | ⟨-, hsetup⟩ | hnone
  · have hname : "public_key" ∉ (WorkReply.schema .kept).names := by decide
    exact htrain.eq_none_of_unknown hname hmem
  · have hfield : .defaulted "public_key" .null (asOption? (asKey? .kept)) SetupReply.publicKey rfl ∈
        (SetupReply.schema .kept).fields := by simp [SetupReply.schema]
    exact hsetup.eq_none_of_field hfield hmem hread
  · exact hnone _

/-- What the order of a command and the fields of its payload changes. -/
structure DependsOnOrder (command : Json) (fields : List (String × Json)) : Prop where
  alike : (∀ e ∈ fields, ¬TellsDecoding e) → Keepable (.obj fields) →
    ofJson? (message .kept command (.obj fields)) = ofJson? (message .direct command (.obj fields))
  unkeepable : ¬Keepable (.obj fields) → ofJson? (message .kept command (.obj fields)) = none
  hollowKind : ∀ j, NodeError.HasHollowKind j → ("error", j) ∈ fields →
    ofJson? (message .direct command (.obj fields)) = none
  keyText : ∀ j : Json, j.IsKeyText → ("public_key", j) ∈ fields →
    ofJson? (message .kept command (.obj fields)) = none

theorem dependsOnOrder (command : Json) (fields : List (String × Json)) : DependsOnOrder command fields where
  alike := ofJson?_message_kept
  unkeepable := ofJson?_message_of_not_keepable
  hollowKind _ := ofJson?_message_hollowKind
  keyText _ := ofJson?_message_keyText

end Order

/-! ## 5. Accepted replies -/

/-- A reply is read by the schema of its command, whatever the order of the fields of its payload and
whatever stands beside command and payload. The order of these two counts only for a payload that can't be
kept or has a part which tells how it is decoded. A text that is no reply leaves the mailbox as it is, and
the controller takes out of it only what was there before and the replies that were delivered, in order. -/
theorem reads_wire_schema {outer fields written : List (String × Json)} {command : Json}
    (houter : Encloses outer command (.obj written)) (hwritten : written.Perm fields) :
    ofJson? (.obj outer) = ofJson? (message (decodingOf outer) command (.obj fields)) ∧
    DependsOnOrder command fields ∧
    (command.asCase? .direct = some "train" →
      ∀ d, ReadBy (WorkReply.schema d) train d command fields) ∧
    (command.asCase? .direct = some "secagg_setup" →
      ∀ d, ReadBy (SetupReply.schema d) setup d command fields) ∧
    (command.asCase? .direct ≠ some "train" → command.asCase? .direct ≠ some "secagg_setup" →
      ofJson? (.obj outer) = none) ∧
    (∀ text, decode text = none → ∀ m, Mailbox.deliver m text = (.invalid, m)) ∧
    ∀ m uses, (Mailbox.taken m uses).Sublist (m.replies ++ uses.flatMap Mailbox.Use.delivered) := by
  have hread : ofJson? (.obj outer) = ofJson? (message (decodingOf outer) command (.obj fields)) :=
    (ofJson?_of_encloses houter).trans (ofJson?_message_perm hwritten command)
  refine ⟨hread, dependsOnOrder command fields, fun h d => ?_, fun h d => ?_, fun htrain hsetup => ?_, ?_,
    Mailbox.taken_sublist⟩
  · exact readBy_of_follows (WorkReply.follows_schema d) (ofJson?_message_train h)
      (WorkReply.keepable_default d)
  · exact readBy_of_follows (SetupReply.follows_schema d) (ofJson?_message_setup h)
      (SetupReply.keepable_default d)
  · rw [hread, ofJson?_message_other htrain hsetup]
  · exact fun text h m => Mailbox.deliver_of_decode_eq_none h m

/-- A payload with its required fields only. -/
def barePayload : List (String × Json) :=
  [("experiment_id", .str "mnist"), ("round_number", word 1), ("request_id", word 2),
    ("node_id", .str "a"), ("state_id", word 3), ("success", .bool false)]

/-- A payload with an error of a given kind. -/
def failedPayload (kind : Json) : List (String × Json) :=
  ("error", .obj [("kind", kind), ("message", .str "no data")]) :: barePayload

/-- A train message whose payload stands before its command, and a note before both. -/
def backward (payload : List (String × Json)) : List (String × Json) :=
  [("note", .null), ("payload", .obj payload), ("command", .str "train")]

theorem reads_wire_schema_backward :
    Encloses (backward (failedPayload (.str "training")).reverse) (.str "train")
      (.obj (failedPayload (.str "training")).reverse) ∧
    ofJson? (.obj (backward (failedPayload (.str "training")).reverse)) =
      ofJson? (message .direct (.str "train") (.obj (failedPayload (.str "training")))) ∧
    (WorkReply.schema .direct).Accepts (failedPayload (.str "training")) := by
  have houter : Encloses (backward (failedPayload (.str "training")).reverse) (.str "train")
      (.obj (failedPayload (.str "training")).reverse) :=
    ⟨[("note", .null)], by simp, List.reverse_perm [_, _, _]⟩
  have hlast : decodingOf (backward (failedPayload (.str "training")).reverse) = .kept := by decide
  have hkeepable : Keepable (.obj (failedPayload (.str "training"))) := by decide
  have halike : ∀ e ∈ failedPayload (.str "training"), ¬TellsDecoding e := by
    intro e he htells
    cases htells <;> simp [failedPayload, barePayload] at he
    subst he
    simp_all [NodeError.HasHollowKind, NodeErrorKind.hollow]
  obtain ⟨hread, horder, htrain, -⟩ := reads_wire_schema houter (List.reverse_perm _)
  rw [hlast, horder.alike halike hkeepable] at hread
  exact ⟨houter, hread, ((htrain rfl .direct).accepts.1 rfl).2⟩

/-- Arrays within arrays. -/
def nested : Nat → Json
  | 0 => .arr []
  | n + 1 => .arr [nested n]

theorem depth_nested (n : Nat) : (nested n).depth = n + 1 := by
  induction n with
  | zero => rfl
  | succ n ih =>
    rw [nested, depth, depthItems, depthItems, ih]
    omega

theorem writable_nested (n : Nat) : Writable (nested n) := by
  induction n with
  | zero => simp [nested]
  | succ n ih => simp [nested, ih]

/-- A payload whose timing has a note, which is skipped. -/
def notedPayload (note : Json) : List (String × Json) := ("timing", .obj [("note", note)]) :: barePayload

theorem writable_notedPayload {note : Json} (h : Writable note) : Writable (.obj (notedPayload note)) := by
  simp [notedPayload, barePayload, h]

theorem not_keepable_notedPayload {note : Json} (h : 125 ≤ note.depth) :
    ¬Keepable (.obj (notedPayload note)) := by
  rw [keepable_iff, notedPayload, List.forall_mem_cons]
  rintro ⟨⟨-, hdepth⟩, -⟩
  have htiming : note.depth < (Json.obj [("note", note)]).depth :=
    depth_lt_of_mem (e := ("note", note)) List.mem_cons_self
  exact absurd (Nat.le_trans (Nat.succ_le_succ h) (Nat.le_trans htiming hdepth)) (by decide)

theorem decode_compress_message {d : Decoding} {name : String} {payload : Json} (h : Writable payload) :
    decode (message d (.str name) payload).compress = ofJson? (message d (.str name) payload) := by
  have hmessage : Writable (message d (.str name) payload) := by cases d <;> simp [message, h]
  rw [decode, parse_compress hmessage]
  rfl

/-- The reply to a setup request with a key in a given form. -/
def keyPayload (key : Json) : List (String × Json) :=
  [("experiment_id", .str "mnist"), ("session_id", .str "session-1"), ("node_id", .str "a"),
    ("success", .bool true), ("public_key", key)]

/-- A text with the length of a key. -/
def keyText : Json := .str "0123456789abcdef0123456789abcdef"

/-- Messages that are read in one order only: one with a deep note, one with an object as the content of a
kind of error, and one with a text as a key. -/
theorem order_of_parts_counts :
    ((decode (message .direct (.str "train") (.obj (notedPayload (nested 124)))).compress).isSome = true ∧
      decode (message .kept (.str "train") (.obj (notedPayload (nested 124)))).compress = none) ∧
    (decode (message .direct (.str "train")
        (.obj (failedPayload NodeErrorKind.training.hollow))).compress = none ∧
      (decode (message .kept (.str "train")
        (.obj (failedPayload NodeErrorKind.training.hollow))).compress).isSome = true) ∧
    (decode (message .direct (.str "secagg_setup") (.obj (keyPayload keyText))).compress).isSome = true ∧
      decode (message .kept (.str "secagg_setup") (.obj (keyPayload keyText))).compress = none := by
  have hnote : Writable (.obj (notedPayload (nested 124))) := writable_notedPayload (writable_nested 124)
  have hkind : Writable (.obj (failedPayload NodeErrorKind.training.hollow)) := by
    simp [failedPayload, barePayload, NodeErrorKind.hollow]
  have hkey : Writable (.obj (keyPayload keyText)) := by simp [keyPayload, keyText]
  refine ⟨⟨?_, ?_⟩, ⟨?_, ?_⟩, ?_, ?_⟩
  · rw [decode_compress_message hnote]
    rfl
  · rw [decode_compress_message hnote, ofJson?_message_of_not_keepable]
    exact not_keepable_notedPayload (Nat.le_of_eq (depth_nested 124).symm)
  · rw [decode_compress_message hkind]
    rfl
  · rw [decode_compress_message hkind]
    rfl
  · rw [decode_compress_message hkey]
    rfl
  · rw [decode_compress_message hkey]
    rfl

end Reply

end Federation
