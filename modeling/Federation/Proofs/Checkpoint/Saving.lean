import Federation.Checkpoint.Saving
import Federation.Proofs.Checkpoint.Document
import Federation.Proofs.Checkpoint.Validation
import Federation.Proofs.Except
import Federation.Proofs.Storage.Memory
/-!
# What is saved is loaded

A checkpoint that was saved is loaded as it was, if its floats are finite. Validation sees to that for
the parameters of the model only: the moments of an optimizer, the control variates, the rates, the
timings and the metrics may be infinite in a checkpoint that is saved, and then it cannot be loaded.
-/

namespace Federation

/-- A store that returns what was last stored under a name. -/
structure Store.Faithful {σ : Type} (store : Store σ) : Prop where
  get_set : ∀ {id : CheckpointId} {document : String} {s s' : σ},
    store.set id document s = (.ok (), s') → store.get id s' = .ok (some document)
  get_set_ne : ∀ {id id' : CheckpointId} (document : String) (s : σ), id' ≠ id →
    store.get id (store.set id' document s).2 = store.get id s

theorem Memory.faithful_store : Memory.store.Faithful where
  get_set {id document s s'} h := by
    obtain ⟨-, rfl⟩ := Prod.mk.inj h
    show Except.ok ((s.set id document).get id) = _
    rw [Memory.get_set, if_pos rfl]
  get_set_ne {id id'} document s h := by
    show Except.ok ((s.set id' document).get id) = Except.ok _
    rw [Memory.get_set, if_neg (Ne.symm h)]

namespace Parameters

theorem floats_finite_of_isFinite {p : Parameters Float} (h : p.isFinite = true) :
    ∀ x ∈ p.floats, x.isFinite = true := by
  intro x hx
  obtain ⟨values, hvalues, hx⟩ := List.mem_flatten.1 hx
  exact List.all_eq_true.1 (List.all_eq_true.1 h values hvalues) x hx

end Parameters

namespace Checkpoint

/-! ## 1. What validation sees to -/

/-- What validation sees to. -/
structure Validated (c : Checkpoint Float) : Prop where
  version : c.version = currentVersion
  initialParams : c.initialParams.isFinite = true
  history : ∀ r ∈ c.history, r.params.isFinite = true

theorem validated_of_validate {c : Checkpoint Float} (h : c.validate = .ok ()) : c.Validated := by
  have hcoherent := validate_eq_ok.1 h
  exact ⟨hcoherent.version, hcoherent.initialParams, fun r hr => (hcoherent.recorded.params hr).2⟩

/-- The floats that validation does not look at. -/
def uncheckedFloats (c : Checkpoint Float) : List Float :=
  (c.history.flatMap fun r => r.participants.values.flatMap ReplySummary.floats) ++ c.nodeStates.floats ++
    c.aggregator.floats ++ c.optimizer.floats ++ c.trainingArgs.floats ++ c.secagg.config.floats

theorem Validated.floats_finite {c : Checkpoint Float} (h : c.Validated)
    (hfloats : ∀ x ∈ c.uncheckedFloats, x.isFinite = true) : ∀ x ∈ c.floats, x.isFinite = true := by
  simp only [uncheckedFloats, List.forall_mem_append] at hfloats
  obtain ⟨⟨⟨⟨⟨hreplies, hstates⟩, haggregator⟩, hoptimizer⟩, hargs⟩, hmask⟩ := hfloats
  have hrecords : ∀ x ∈ c.history.flatMap RoundRecord.floats, x.isFinite = true := by
    intro x hx
    obtain ⟨r, hr, hx⟩ := List.mem_flatMap.1 hx
    rcases List.mem_append.1 hx with hx | hx
    · exact Parameters.floats_finite_of_isFinite (h.history r hr) x hx
    · exact hreplies x (List.mem_flatMap.2 ⟨r, hr, hx⟩)
  simp only [floats, List.forall_mem_append]
  exact ⟨⟨⟨⟨⟨⟨Parameters.floats_finite_of_isFinite h.initialParams, hrecords⟩, hstates⟩, haggregator⟩,
    hoptimizer⟩, hargs⟩, hmask⟩

/-! ## 2. Saving and loading -/

theorem save_eq_ok {σ : Type} {store : Store σ} {c : Checkpoint Float} {s s' : σ} {id : CheckpointId}
    (h : save store c s = (.ok id, s')) :
    c.validate = .ok () ∧ store.set c.id c.encode s = (.ok (), s') := by
  unfold save at h
  split at h
  next => cases (Prod.mk.inj h).1
  next hvalid =>
    obtain ⟨hset, rfl⟩ := Prod.mk.inj h
    obtain ⟨⟨⟩, hok, -⟩ := map_eq_ok.1 hset
    exact ⟨hvalid, Prod.ext (mapError_eq_ok.1 hok) rfl⟩

/-- Saving a checkpoint leaves the documents of the others alone. -/
theorem get_save_ne {σ : Type} {store : Store σ} (hstore : store.Faithful) {c : Checkpoint Float}
    {id : CheckpointId} (h : c.id ≠ id) (s : σ) : store.get id (save store c s).2 = store.get id s := by
  unfold save
  split
  next => rfl
  next => exact hstore.get_set_ne _ _ h

theorem decode_encode_of_encodable {c : Checkpoint Float} (hversion : c.version = currentVersion)
    (h : c.Encodable) : decode c.encode = .ok c := by
  rw [decode_encode, ofDocument?, versionOf?_toJson]
  simp [hversion, ofJson?_toJson h]

theorem ofStored_encode {c : Checkpoint Float} (hvalid : c.validate = .ok ())
    (hversion : c.version = currentVersion) (h : c.Encodable) : ofStored c.id c.encode = .ok c := by
  refine bind_eq_ok.2 ⟨c, decode_encode_of_encodable hversion h, bind_eq_ok.2 ⟨(), hvalid, ?_⟩⟩
  rw [if_neg (not_not.2 rfl)]
  rfl

theorem load_of_get {σ : Type} {store : Store σ} {experiment : ExperimentId} {round : RoundNumber}
    {document : String} {s : σ} (h : store.get ⟨experiment, round⟩ s = .ok (some document)) :
    load store experiment (some round) s = ofStored ⟨experiment, round⟩ document := by
  show ((store.get ⟨experiment, round⟩ s).mapError CheckpointError.storage >>= _) = _
  rw [h]
  rfl

/-- Loading reads what was saved, whatever else is saved under other names. -/
theorem load_after_saves {σ : Type} {store : Store σ} (hstore : store.Faithful) {c : Checkpoint Float}
    {s s' : σ} {id : CheckpointId} (hsave : save store c s = (.ok id, s')) {later : List (Checkpoint Float)}
    (hlater : ∀ c' ∈ later, c'.id ≠ c.id) :
    load store c.experimentId (some c.roundCurrent) (later.foldl (fun s c' => (save store c' s).2) s') =
      ofStored c.id c.encode := by
  have hget : store.get c.id (later.foldl (fun s c' => (save store c' s).2) s') = store.get c.id s' := by
    clear hsave
    induction later generalizing s' with
    | nil => rfl
    | cons c' later ih =>
      rw [List.foldl_cons, ih fun d hd => hlater d (List.mem_cons_of_mem _ hd),
        get_save_ne hstore (hlater c' List.mem_cons_self)]
  rw [hstore.get_set (save_eq_ok hsave).2] at hget
  exact load_of_get hget

end Checkpoint

/-- A checkpoint that was saved is loaded as it was, unless validation missed a number that is not
finite or its free-form arguments are nested too deeply. -/
theorem saved_checkpoint_is_loaded {σ : Type} {store : Store σ} (hstore : store.Faithful)
    {c : Checkpoint Float} {s s' : σ} {id : CheckpointId} (hsave : c.save store s = (.ok id, s'))
    (hfloats : ∀ x ∈ c.uncheckedFloats, x.isFinite = true)
    (htimes : ∀ t ∈ c.timestamps, t.Valid)
    (hargs : ∀ e ∈ c.modelArgs.toList, 2 + e.2.json.depth ≤ Json.maxDepth)
    {later : List (Checkpoint Float)} (hlater : ∀ c' ∈ later, c'.id ≠ c.id) :
    Checkpoint.load store c.experimentId (some c.roundCurrent)
      (later.foldl (fun s c' => (c'.save store s).2) s') = .ok c := by
  obtain ⟨hvalid, -⟩ := Checkpoint.save_eq_ok hsave
  have hvalidated := Checkpoint.validated_of_validate hvalid
  have hencodable : c.Encodable := ⟨hvalidated.floats_finite hfloats, htimes, hargs⟩
  rw [Checkpoint.load_after_saves hstore hsave hlater]
  exact Checkpoint.ofStored_encode hvalid hvalidated.version hencodable

/-! ## 3. What cannot be loaded -/

theorem Parameters.ofJson?_eq_none {p : Parameters Float} (h : p.isFinite = false) :
    ofJson? p.toJson = none := by
  obtain ⟨values, hvalues, hfinite⟩ := List.all_eq_false.1 h
  obtain ⟨e, he, rfl⟩ := List.mem_map.1 hvalues
  obtain ⟨x, hx, hx'⟩ := List.all_eq_false.1 (Bool.eq_false_iff.2 hfinite)
  have hlist : Json.asList? Json.asFloat? (Json.list Json.float e.2) = none :=
    Json.asList?_eq_none hx (Json.asFloat?_of_not_finite (Bool.eq_false_iff.2 hx'))
  rw [ofJson?, toJson, Json.asMap?_eq_none he hlist, Option.map_none]

theorem Parameters.asOption?_eq_none {o : Option (Parameters Float)} {p : Parameters Float} (hp : p ∈ o)
    (h : p.isFinite = false) : Json.asOption? ofJson? (Json.option toJson o) = none := by
  obtain rfl : o = some p := hp
  show (ofJson? p.toJson).map some = none
  rw [ofJson?_eq_none h, Option.map_none]

theorem Momentum.ofJson?_eq_none {m : Momentum Float} {p : Parameters Float} (hp : p ∈ m.velocity)
    (h : p.isFinite = false) : ofJson? m.toJson = none := by
  refine Json.asRecord?_then rfl (by decide) ?_
  iterate 2 refine bind_eq_none fun _ => ?_
  exact Json.Record.optional_fails rfl (Parameters.asOption?_eq_none hp h)

theorem Adaptive.ofJson?_eq_none {a : Adaptive Float} {p : Parameters Float}
    (hp : p ∈ a.firstMoment ∨ p ∈ a.secondMoment) (h : p.isFinite = false) : ofJson? a.toJson = none := by
  refine Json.asRecord?_then rfl (by decide) ?_
  iterate 5 refine bind_eq_none fun _ => ?_
  rcases hp with hp | hp
  · exact Json.Record.optional_fails rfl (Parameters.asOption?_eq_none hp h)
  · refine bind_eq_none fun _ => ?_
    exact Json.Record.optional_fails rfl (Parameters.asOption?_eq_none hp h)

/-- An optimizer whose state is not finite is not read. -/
theorem Optimizer.ofJson?_eq_none {o : Optimizer Float} {p : Parameters Float} (hp : p ∈ o.state)
    (h : p.isFinite = false) : ofJson? o.toJson = none := by
  have hadaptive : ∀ a : Adaptive Float, p ∈ a.firstMoment.toList ++ a.secondMoment.toList →
      Adaptive.ofJson? a.toJson = none := fun a hp =>
    Adaptive.ofJson?_eq_none ((List.mem_append.1 hp).imp Option.mem_toList.1 Option.mem_toList.1) h
  cases o with
  | sgd lr => exact absurd hp List.not_mem_nil
  | momentum m =>
    rw [ofJson?_momentum, Momentum.ofJson?_eq_none (Option.mem_toList.1 hp) h, Option.bind_none]
  | adam a => rw [ofJson?_adam, hadaptive a hp, Option.bind_none]
  | yogi a => rw [ofJson?_yogi, hadaptive a hp, Option.bind_none]

theorem Checkpoint.ofJson?_eq_none {c : Checkpoint Float} (h : Optimizer.ofJson? c.optimizer.toJson = none) :
    ofJson? c.toJson = none := by
  refine Json.asRecord?_then rfl (by decide) ?_
  -- whatever is read of the fields before it, that of the optimizer is not
  iterate 10 refine bind_eq_none fun _ => ?_
  exact Json.Record.withDefault_fails rfl h

/-- The document of a checkpoint whose optimizer has a state that is not finite is none of a
checkpoint. -/
theorem Checkpoint.ofStored_eq_unreadable {c : Checkpoint Float} (hversion : c.version = currentVersion)
    {p : Parameters Float} (hp : p ∈ c.optimizer.state) (h : p.isFinite = false) :
    ofStored c.id c.encode = .error .unreadable := by
  have hdecode : decode c.encode = .error .unreadable := by
    rw [decode_encode, ofDocument?, versionOf?_toJson,
      ofJson?_eq_none (Optimizer.ofJson?_eq_none hp h)]
    simp [hversion]
  rw [ofStored, hdecode]
  rfl

theorem Memory.save_eq {c : Checkpoint Float} (h : c.validate = .ok ()) (m : Memory) :
    c.save Memory.store m = (.ok c.id, m.set c.id c.encode) := by
  rw [Checkpoint.save, h]
  rfl

/-- The checkpoint of an experiment with one round, after which the second moment of its optimizer has
the given value. -/
def Checkpoint.withSecondMoment (v : Float) : Checkpoint Float where
  version := currentVersion
  experimentId := "experiment-1"
  researcherId := "researcher-1"
  createdAt := ⟨1700000000, 0⟩
  roundCurrent := 1
  roundLimit := 3
  initialParams := .ofLayers [("w", [0.5])]
  history :=
    [{ roundNumber := 0
       params := .ofLayers [("w", [-0.5])]
       participants := .ofList [("node-a", ⟨10, ⟨1.5, 1.25⟩, 2.0, .ofList [("loss", 0.125)]⟩)]
       completedAt := ⟨1700000060, 250000000⟩ }]
  nodeStates := ⟨.ofList [("node-a", ⟨7, some 0, none⟩)]⟩
  aggregator := .fedAverage
  optimizer := .adam
    { learningRate := 1.0
      beta1 := 0.5
      beta2 := 0.5
      epsilon := 1.0
      step := 1
      firstMoment := some (.ofLayers [("w", [0.5])])
      secondMoment := some (.ofLayers [("w", [v])]) }
  trainingArgs := { epochs := some 1, learningRate := some 0.1 }
  modelArgs := .ofList [("depth", ⟨Json.word 2, rfl⟩)]
  query := .tags (SortedMap.setOf ["images"])
  nodes := none
  dataset := .empty
  dataChecked := true
  secagg := ⟨false, ⟨3.0, 20⟩, .ofSeconds 30, none⟩
  roundTimeout := .ofSeconds 60
  selection := "all"

theorem saved_checkpoint_is_loaded_adam :
    ∃ s, (Checkpoint.withSecondMoment 0.25).save Memory.store {} =
      (.ok (Checkpoint.withSecondMoment 0.25).id, s) ∧
      Checkpoint.load Memory.store (Checkpoint.withSecondMoment 0.25).experimentId
        (some (Checkpoint.withSecondMoment 0.25).roundCurrent) s =
          .ok (Checkpoint.withSecondMoment 0.25) := by
  have hvalid : (Checkpoint.withSecondMoment 0.25).validate = .ok () := by decide +kernel
  have hsave := Memory.save_eq hvalid {}
  have htimes : ∀ t ∈ (Checkpoint.withSecondMoment 0.25).timestamps, t.Valid :=
    List.forall_mem_cons.2 ⟨⟨by decide, by decide, by decide⟩,
      List.forall_mem_singleton.2 ⟨by decide, by decide, by decide⟩⟩
  have hload := saved_checkpoint_is_loaded Memory.faithful_store hsave (by decide +kernel) htimes
    (by decide +kernel) (List.forall_mem_nil _)
  rw [List.foldl_nil] at hload
  exact ⟨_, hsave, hload⟩

/-- Validation accepts an infinite moment, and then the checkpoint is lost. -/
theorem infinite_moment_is_saved_not_loaded :
    ∃ s, (Checkpoint.withSecondMoment (1.0 / 0.0)).save Memory.store {} =
      (.ok (Checkpoint.withSecondMoment (1.0 / 0.0)).id, s) ∧
      Checkpoint.load Memory.store (Checkpoint.withSecondMoment (1.0 / 0.0)).experimentId
        (some (Checkpoint.withSecondMoment (1.0 / 0.0)).roundCurrent) s = .error .unreadable := by
  have hvalid : (Checkpoint.withSecondMoment (1.0 / 0.0)).validate = .ok () := by decide +kernel
  have hsave := Memory.save_eq hvalid {}
  have hload := Checkpoint.load_after_saves Memory.faithful_store hsave (List.forall_mem_nil _)
  have hstate : Parameters.ofLayers [("w", [1.0 / 0.0])] ∈
      (Checkpoint.withSecondMoment (1.0 / 0.0)).optimizer.state :=
    List.mem_cons_of_mem _ List.mem_cons_self
  rw [List.foldl_nil, Checkpoint.ofStored_eq_unreadable rfl hstate (by decide +kernel)] at hload
  exact ⟨_, hsave, hload⟩

end Federation
