import Federation.Proofs.Checkpoint.Saving
import Federation.Proofs.Experiment.Configuration
import Federation.Proofs.Mask.Doubles
/-!
# The masking configuration of an experiment

The masking configuration of an experiment is that of the draft it was built from, whatever is done with
it, and every secure round and every party works with it. A draft that takes up a checkpoint has the
configuration of the checkpoint, and neither loading nor building checks that one: it is valid if the
document says a valid one.
-/

namespace Federation

variable {R σ : Type}

/-! ## 1. Changes and rounds -/

namespace Experiment

theorem maskConfig_of_changed [Scalar R] {x y : Experiment R} (h : Changed x y) :
    y.secagg.config = x.secagg.config := by
  cases h with
  | secureAggregation enabled =>
    cases enabled with
    | true => rfl
    | false => rfl
  | _ => rfl

section

variable (s : Surroundings R σ)

theorem maskConfig_of_prepareSecagg {x y : Experiment R} {selected : NameSet} {world world' : σ}
    {r : SecaggRound R} (h : x.prepareSecagg s selected world = (.ok (some r), y, world')) :
    r.config = x.secagg.config := by
  have hsecured := secured_prepareSecagg s x selected world
  rw [h] at hsecured
  cases hsecured with
  | secure session secagg world₂ hs =>
    obtain ⟨kept, hkept⟩ := setup_session s.link x.secagg x.researcherId x.experimentId
      (s.drawName world).1 selected (s.drawName world).2
    rw [setupOf] at hs
    rw [hs] at hkept
    obtain rfl : secagg = { x.secagg with session := kept } := hkept
    rfl

/-- The parties of a secure round mask with the configuration of the experiment. -/
theorem maskConfig_of_prepares [Scalar R] {x y : Experiment R} {c : RoundContext R} {world world' : σ}
    (h : x.Prepares s world c y world') {r : SecaggRound R} (hr : c.secagg = some r) :
    r.config = x.secagg.config ∧
      ∀ q ∈ c.requests, ∃ w a, q = .train w ∧ w.secagg = some a ∧ a.maskConfig = x.secagg.config := by
  obtain ⟨x₁, selected, hready, hp⟩ := h
  obtain ⟨-, rfl⟩ := checkData_eq_ok.1 hready.checked
  obtain ⟨secagg, world₁, participants, hsec, -, rfl, -⟩ := prepareRound_eq_ok s hp
  obtain rfl : secagg = some r := hr
  have hconfig := maskConfig_of_prepareSecagg s hsec
  refine ⟨hconfig, fun q hq => ?_⟩
  obtain ⟨⟨node, p⟩, -, rfl⟩ := List.mem_map.1 hq
  exact ⟨_, r.arguments, rfl, rfl, hconfig⟩

theorem maskConfig_of_runRound [RootScalar R] (x : Experiment R) (world : σ) :
    (x.runRound s world).2.1.secagg.config = x.secagg.config := by
  obtain ⟨_, _, _, _, _, _, _, _, _, _, hy⟩ := runRound_settings s x world
  rw [hy]

end

variable [RootScalar R] {x : Experiment R}

theorem maskConfig_of_perform (x : Experiment R) (s : Surroundings R σ) (action : Action R) (world : σ) :
    (action.perform s x world).2.1.secagg.config = x.secagg.config ∧
      ∀ a ∈ action.attempts s x world, a.1.secagg.config = x.secagg.config :=
  action.perform_preserve s (P := fun y => y.secagg.config = x.secagg.config) (fun _ _ h => h)
    (fun y world h => (maskConfig_of_runRound s y world).trans h)
    (fun _ _ _ hy => maskConfig_of_changed (changed_of_apply hy)) rfl world

theorem LedTo.maskConfig {suits : Draft R → Prop} {permits : Experiment R → Action R → Prop}
    {config : MaskConfig R} (h : LedTo suits permits x) (hsuits : ∀ d, suits d → d.secagg.config = config) :
    x.secagg.config = config := by
  induction h with
  | built s catalog d hd h =>
    obtain ⟨e, p, id, -, -, rfl⟩ := essentials_of_build s h
    exact hsuits d hd
  | @performed _ s action x hpermitted world h ih => exact (maskConfig_of_perform x s action world).1.trans ih

end Experiment

theorem Draft.maskConfig_of_resume [Scalar R] {d d' : Draft R} {c : Checkpoint R}
    (h : d.resume c = .ok d') : d'.secagg.config = c.secagg.config := by
  unfold Draft.resume at h
  split at h
  · contradiction
  · obtain rfl := Except.ok.inj h
    rfl

/-! ## 2. Checkpoints -/

/-- What is loaded was checked. -/
theorem Checkpoint.validate_of_load {store : Store σ} {experiment : ExperimentId}
    {round : Option RoundNumber} {s : σ} {c : Checkpoint Float}
    (h : load store experiment round s = .ok c) : c.validate = .ok () := by
  obtain ⟨id, -, h⟩ := bind_eq_ok.1 h
  obtain ⟨found, -, h⟩ := bind_eq_ok.1 h
  cases found with
  | none => contradiction
  | some document =>
    obtain ⟨decoded, -, h⟩ := bind_eq_ok.1 h
    obtain ⟨⟨⟩, hvalid, h⟩ := bind_eq_ok.1 h
    obtain ⟨-, h⟩ := guard_eq_ok.1 h
    obtain rfl := Except.ok.inj h
    exact hvalid

/-- Nothing is undefined that is computed from a configuration: the scale is a power of two that fits into
a word, every value is clipped to a finite one, and the greatest total weight is no division by zero. -/
structure MaskConfig.WellDefined (c : MaskConfig Float) : Prop where
  shift : 1 ≤ c.fixedPointBits.toNat ∧ c.fixedPointBits.toNat < 64
  scale : c.scale.isFinite = true ∧ Binary64.value c.scale = 2 ^ (c.fixedPointBits.toNat : Int)
  clip : ∀ x, (c.clip x).isFinite = true ∧
    |Binary64.value (c.clip x)| ≤ Binary64.value c.elementBound
  maxTotalWeight : 0 < c.unitBound ∧ c.maxTotalWeight.toNat = (2 ^ 63 - 1) / c.unitBound

theorem MaskConfig.wellDefined_of_validate {c : MaskConfig Float} (h : c.validate = .ok ()) :
    c.WellDefined := by
  have hbits := (valid_of_validate h).2.2
  have hpositive : c.fixedPointBits ≠ 0 := fun hzero => (validate_eq_ok.1 h).2 (Or.inl hzero)
  refine ⟨⟨?_, by omega⟩, value_scale_of_le hbits, abs_value_clip_le h, ?_, toNat_maxTotalWeight c⟩
  · exact Nat.one_le_iff_ne_zero.2 fun hzero => hpositive (UInt8.toNat_inj.1 hzero)
  · exact Nat.lt_of_lt_of_le Nat.one_pos (le_max_right _ _)

open Experiment in
/-- A document that is loaded is taken up with the masking configuration that it says. Whatever is done
with an experiment that is built from it, this configuration stays, every secure round works with it, and
all parties are told it. So it is valid if that of the document is, and then all is defined that is
computed from it. -/
theorem restored_mask_configuration_is_that_of_document {store : Store σ} {experiment : ExperimentId}
    {round : Option RoundNumber} {s : σ} {c : Checkpoint Float}
    (hload : Checkpoint.load store experiment round s = .ok c) (d : Draft Float) :
    ∃ d', d.resume c = .ok d' ∧ ∀ x : Experiment Float, LedTo (fun e => e = d') (fun _ _ => True) x →
      x.secagg.config = c.secagg.config ∧
      (∀ {σ' : Type} (s : Surroundings Float σ') (action : Action Float) (world : σ'),
        ∀ a ∈ action.attempts s x world, ∀ context y world' r,
          a.1.Prepares s a.2 context y world' → context.secagg = some r →
          r.config = c.secagg.config ∧ ∀ q ∈ context.requests, ∃ w arguments,
            q = .train w ∧ w.secagg = some arguments ∧ arguments.maskConfig = c.secagg.config) ∧
      (c.secagg.config.validate = .ok () →
        x.secagg.config.validate = .ok () ∧ x.secagg.config.WellDefined) := by
  obtain ⟨d', hd'⟩ : ∃ d', d.resume c = .ok d' := by
    rw [Draft.resume, Checkpoint.validate_of_load hload]
    exact ⟨_, rfl⟩
  refine ⟨d', hd', fun x hx => ?_⟩
  have hconfig : x.secagg.config = c.secagg.config :=
    hx.maskConfig fun e he => he ▸ Draft.maskConfig_of_resume hd'
  refine ⟨hconfig, fun s action world a ha context y world' r hp hr => ?_, fun hvalid => ?_⟩
  · have hattempt := ((maskConfig_of_perform x s action world).2 a ha).trans hconfig
    rw [← hattempt]
    exact maskConfig_of_prepares s hp hr
  · rw [hconfig]
    exact ⟨hvalid, MaskConfig.wellDefined_of_validate hvalid⟩

/-- A checkpoint of a secure experiment before its first round, with some clipping range. -/
def Checkpoint.withClippingRange (range : Float) : Checkpoint Float where
  version := currentVersion
  experimentId := "experiment"
  researcherId := "researcher"
  createdAt := ⟨1700000000, 0⟩
  roundCurrent := 0
  roundLimit := 3
  initialParams := .ofLayers [("w", [0.5])]
  history := []
  nodeStates := .empty
  aggregator := .fedAverage
  optimizer := .sgd 1.0
  trainingArgs := {}
  modelArgs := .empty
  query := .tags (SortedMap.setOf ["images"])
  nodes := none
  dataset := .empty
  dataChecked := true
  secagg := ⟨true, ⟨range, 20⟩, .ofSeconds 30, none⟩
  roundTimeout := .ofSeconds 60
  selection := "AllAvailable"

theorem Checkpoint.load_withClippingRange (range : Float)
    (hvalid : (withClippingRange range).validate = .ok ())
    (hfinite : ∀ x ∈ (withClippingRange range).floats, x.isFinite = true) :
    load Memory.store "experiment" (some 0)
      ((withClippingRange range).save Memory.store {}).2 = .ok (withClippingRange range) := by
  have hsave := Memory.save_eq hvalid {}
  have hload := load_after_saves Memory.faithful_store hsave (List.forall_mem_nil _)
  have htime : (⟨1700000000, 0⟩ : Timestamp).Valid := ⟨by decide, by decide, by decide⟩
  have hencodable : (withClippingRange range).Encodable :=
    ⟨hfinite, List.forall_mem_singleton.2 htime, List.forall_mem_nil _⟩
  rw [List.foldl_nil, ofStored_encode hvalid rfl hencodable] at hload
  rw [hsave]
  exact hload

/-- Surroundings in which nothing happens. -/
def quietSurroundings : Surroundings Float Unit where
  link :=
    { send := fun _ world => (none, world)
      watch := fun _ _ => ⟨[], .deadline⟩
      advance := fun _ _ world => world
      purge := fun world => (true, world)
      arm := fun world => world }
  drawName world := ("session", world)
  drawWord world := (0, world)
  drawFraction world := (0.0, world)
  now _ := ⟨0, 0⟩
  save _ world := (.error .unreadable, world)
  prepare world := (.ok (), world)

/-- A draft that is connected to the nodes. -/
def connectedDraft : Draft Float := { Draft.initial "researcher" with isConnected := true }

open Experiment in
/-- What takes up the checkpoint is built, whatever its clipping range. -/
theorem exists_build_withClippingRange {d : Draft Float} {range : Float}
    (h : connectedDraft.resume (Checkpoint.withClippingRange range) = .ok d) :
    ∃ x, d.build quietSurroundings (fun _ => .error "") () = (.ok x, ()) ∧
      x.secagg.enabled = true ∧ x.secagg.config = ⟨range, 20⟩ := by
  unfold Draft.resume at h
  split at h
  · contradiction
  · have hd := Except.ok.inj h
    have hfinite : (Parameters.ofLayers [("w", [(0.5 : Float)])]).isFinite = true := by decide +kernel
    have htimeout : Duration.ofSeconds 60 ≠ Duration.zero := by decide
    have hrate : (Optimizer.sgd (1.0 : Float)).checkPreconditions = .ok () := by decide +kernel
    have hessentials :
        d.checkEssentials = .ok ⟨.tags (SortedMap.setOf ["images"]), .ofLayers [("w", [0.5])]⟩ := by
      rw [← hd]
      exact checkEssentials_eq_ok.2 ⟨rfl, rfl, rfl, rfl, hfinite, htimeout, rfl, hrate⟩
    subst hd
    exact ⟨_, by rw [Draft.build, hessentials]; rfl, rfl, rfl⟩

theorem restored_mask_configuration_is_that_of_document_secure :
    ∃ d x, Checkpoint.load Memory.store "experiment" (some 0)
        ((Checkpoint.withClippingRange 3.0).save Memory.store {}).2 = .ok (Checkpoint.withClippingRange 3.0) ∧
      connectedDraft.resume (Checkpoint.withClippingRange 3.0) = .ok d ∧
      d.build quietSurroundings (fun _ => .error "") () = (.ok x, ()) ∧
      x.secagg.enabled = true ∧ x.secagg.config.WellDefined := by
  have hload := Checkpoint.load_withClippingRange 3.0 (by decide +kernel) (by decide +kernel)
  obtain ⟨d, hd, hx⟩ := restored_mask_configuration_is_that_of_document hload connectedDraft
  obtain ⟨x, hbuild, henabled, -⟩ := exists_build_withClippingRange hd
  obtain ⟨-, -, hvalid⟩ := hx x (.built _ _ d (by rfl) hbuild)
  exact ⟨d, x, hload, hd, hbuild, henabled, (hvalid (MaskConfig.validate_eq_ok.2 (by decide +kernel))).2⟩

/-- A checkpoint with a negative clipping range is saved, loaded and taken up, and the experiment that is
built from it clips every value to that range. -/
theorem negative_clipping_range_is_restored :
    ∃ d x, Checkpoint.load Memory.store "experiment" (some 0)
        ((Checkpoint.withClippingRange (-1.0)).save Memory.store {}).2 =
          .ok (Checkpoint.withClippingRange (-1.0)) ∧
      connectedDraft.resume (Checkpoint.withClippingRange (-1.0)) = .ok d ∧
      d.build quietSurroundings (fun _ => .error "") () = (.ok x, ()) ∧
      x.secagg.enabled = true ∧ x.secagg.config.validate ≠ .ok () ∧ x.secagg.config.clip 0.5 = -1.0 := by
  have hvalid : (Checkpoint.withClippingRange (-1.0)).validate = .ok () := by decide +kernel
  obtain ⟨d, hd⟩ : ∃ d, connectedDraft.resume (Checkpoint.withClippingRange (-1.0)) = .ok d := by
    rw [Draft.resume, hvalid]
    exact ⟨_, rfl⟩
  obtain ⟨x, hbuild, henabled, hconfig⟩ := exists_build_withClippingRange hd
  refine ⟨d, x, Checkpoint.load_withClippingRange _ hvalid (by decide +kernel), hd, hbuild, henabled, ?_, ?_⟩
  · rw [hconfig, Ne, MaskConfig.validate_eq_ok]
    decide +kernel
  · rw [hconfig]
    decide +kernel

end Federation
