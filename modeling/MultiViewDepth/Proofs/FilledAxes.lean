import MultiViewDepth.Proofs.HypothesisVolumes
import MultiViewDepth.Proofs.Scenes

/-!
Axes that are never empty.

A round averages over the channels of a group, the supporting neighbors and the source views,
normalizes over the hypotheses, and divides by the number of the last pixel of either side. Settings
that pass their checks and a scene that is accepted fill all of these axes but one: nothing asks for
a channel in each group. Nor does anything ask for an element in the batch.
-/
namespace MultiViewDepth

open Tensor RandomSource

/-- Sizes of the axes that a round averages, normalizes or takes a maximum over. -/
structure AxisSizes where
  batch : Nat
  /-- Channels of a group. -/
  share : Nat
  hypotheses : Nat
  supporters : Nat
  sources : Nat
  height : Nat
  width : Nat

/-- No axis is empty, and a side has a first and another last pixel. -/
structure AxisSizes.Filled (sizes : AxisSizes) : Prop where
  batch_pos : 0 < sizes.batch
  share_pos : 0 < sizes.share
  hypotheses_pos : 0 < sizes.hypotheses
  supporters_pos : 0 < sizes.supporters
  sources_pos : 0 < sizes.sources
  two_le_height : 2 ≤ sizes.height
  two_le_width : 2 ≤ sizes.width

/-- Nothing is divided by zero: neither a mean by its number of entries, nor a position by that of
the last pixel. -/
theorem AxisSizes.Filled.divisors_ne_zero {sizes : AxisSizes} (h : sizes.Filled) :
    (sizes.share : ℝ) ≠ 0 ∧ (sizes.height : ℝ) - 1 ≠ 0 ∧ (sizes.width : ℝ) - 1 ≠ 0 := by
  have hside {size : Nat} (hsize : 2 ≤ size) : (size : ℝ) - 1 ≠ 0 := by
    have htwo : (2 : ℝ) ≤ size := by exact_mod_cast hsize
    linarith
  exact ⟨Nat.cast_ne_zero.2 h.share_pos.ne', hside h.two_le_height, hside h.two_le_width⟩

section Settings

variable {α δ : Type} [Scalar δ] {settings : StageSettings δ}

def StageSettings.sizes (settings : StageSettings δ) (start final : Bool)
    (batch sources height width iteration : Nat) : AxisSizes where
  batch := batch
  share := settings.features / settings.groups
  hypotheses := settings.hypothesisCount (start && iteration == 0) final iteration
  supporters := settings.supporters
  sources := sources
  height := height
  width := width

def StageSettings.sizesOn (settings : StageSettings δ) (scene : Scene α δ)
    (stage iteration : Nat) : AxisSizes :=
  settings.sizes (stage == 0) (stage + 1 == stageCount) scene.batch (scene.views - 1)
    (scene.height / 2 ^ (stageCount - stage)) (scene.width / 2 ^ (stageCount - stage)) iteration

theorem StageSettings.hypothesisCount_pos (hvalid : settings.Valid) (start final : Bool)
    (iteration : Nat) : 0 < settings.hypothesisCount start final iteration := by
  cases start with
  | false => exact Nat.add_pos_left hvalid.samples_pos _
  | true => exact Nat.add_pos_left (show 0 < scatterCount by decide) _

/-- Sides that are multiples of eight leave at least two pixels at every stage. -/
theorem Scene.two_le_side (scene : Scene α δ) (stage : Nat) :
    2 ≤ scene.height / 2 ^ (stageCount - stage) ∧ 2 ≤ scene.width / 2 ^ (stageCount - stage) := by
  have hpow : 2 ^ (stageCount - stage) ≤ 2 ^ stageCount :=
    Nat.pow_le_pow_right Nat.two_pos (Nat.sub_le _ _)
  have hside {side : Nat} (hside : smallestSide ≤ side) : 2 ≤ side / 2 ^ (stageCount - stage) :=
    (Nat.le_div_iff_mul_le (Nat.two_pow_pos _)).2 ((Nat.mul_le_mul_left 2 hpow).trans hside)
  exact ⟨hside scene.smallestSide_le_height, hside scene.smallestSide_le_width⟩

/-- The sides of a stage are those of the coarsest one, doubled as often as there are stages
between. -/
theorem Scene.side_eq (scene : Scene α δ) {stage : Nat} (hstage : stage < stageCount) :
    2 ^ stage * (scene.height / 8) = scene.height / 2 ^ (stageCount - stage) ∧
      2 ^ stage * (scene.width / 8) = scene.width / 2 ^ (stageCount - stage) := by
  have hheight := scene.height_mod
  have hwidth := scene.width_mod
  rw [stageCount] at hstage ⊢
  interval_cases stage <;> omega

/-- Only the batch and the groups can be empty. -/
theorem StageSettings.filled_iff (hvalid : settings.Valid) (scene : Scene α δ)
    (stage iteration : Nat) :
    (settings.sizesOn scene stage iteration).Filled ↔ 0 < scene.batch ∧ 0 < settings.features := by
  constructor
  · intro h
    exact ⟨h.batch_pos, h.share_pos.trans_le (Nat.div_le_self _ _)⟩
  · rintro ⟨hbatch, hfeatures⟩
    obtain ⟨patterns⟩ := hvalid.patterns
    obtain ⟨hheight, hwidth⟩ := scene.two_le_side stage
    have hle : settings.groups ≤ settings.features :=
      Nat.le_of_dvd hfeatures (Nat.dvd_of_mod_eq_zero hvalid.features_mod)
    exact {
      batch_pos := hbatch
      share_pos := Nat.div_pos hle (Nat.pos_of_ne_zero hvalid.groups_ne_zero)
      hypotheses_pos := hypothesisCount_pos hvalid _ _ _
      supporters_pos := patterns.supporters_pos
      sources_pos := Nat.sub_pos_of_lt scene.two_le_views
      two_le_height := hheight
      two_le_width := hwidth }

end Settings

section Runs

variable {ρ : Type} [RandomSource ρ ℝ] {range : DepthRange ℝ} {stage : Stage ℝ ℝ}
  {views : ViewFeatures ℝ} {surroundings : Surroundings ℝ} {estimate carried : Option (Tensor ℝ)}
  {rng : ρ} {batch height width iteration : Nat}

structure Round.Spans (round : Round ℝ) (views : ViewFeatures ℝ) (surroundings : Surroundings ℝ)
    (groups : Nat) (sizes : AxisSizes) : Prop where
  reference : views.reference.shape =
    [sizes.batch, groups * sizes.share, sizes.height, sizes.width]
  sources : views.sources.length = sizes.sources
  neighbors : surroundings.support.neighbors = sizes.supporters
  featureWeight : surroundings.featureWeight.shape =
    [sizes.batch, sizes.supporters, sizes.height, sizes.width]
  hypotheses : round.hypotheses.shape =
    [sizes.batch, sizes.hypotheses, sizes.height, sizes.width]
  score : round.verdict.score.shape = [sizes.batch, sizes.hypotheses, sizes.height, sizes.width]
  viewWeights : round.verdict.viewWeights.shape =
    [sizes.batch, sizes.sources, sizes.height, sizes.width]

theorem run_spans [WorkerPool] {b n : Nat} {σ : Equiv.Perm (Fin n)} (hb : b < batch)
    (hs : stage.Equipped)
    (hviews : (Twins.self hb).ViewsAlike σ stage.settings.features height width views views)
    (hposes : (Twins.self hb).PosesAlike σ views views) (hn : 0 < n) (hheight : 0 < height)
    (hwidth : 0 < width)
    (hstart : (Twins.self hb).StartAlike σ stage height width estimate estimate carried carried rng
      rng) {r : List (Round ℝ) × ρ} (hr : stage.run views range estimate carried rng = .ok r) :
    ∃ surroundings, stage.survey views.reference = .ok surroundings ∧
      r.1.length = stage.settings.iterations ∧
      ∀ (k : Nat) (round : Round ℝ), r.1[k]? = some round →
        round.Spans views surroundings stage.settings.groups
          (stage.settings.sizes estimate.isNone stage.final batch n height width k) := by
  obtain ⟨halike, -⟩ :=
    (Twins.run_alike range hs.sound hviews hposes hn hheight hwidth hstart).of_self hr
  have hsame := List.forall₂_same.1 halike
  have hestimate : ∀ t ∈ estimate, t.shape = [batch, 1, height, width] := by
    intro t ht
    have hdepth := hstart.depth
    rw [Option.mem_def.1 ht] at hdepth
    exact hdepth.shape_left
  have hbatch : 0 < batch := Nat.zero_lt_of_lt hb
  have hreference : views.reference.IsSingle [batch, stage.settings.features, height, width] :=
    ⟨hviews.reference.shape_left, hviews.reference.kind_left⟩
  obtain ⟨hlength, surroundings, hsurvey, hequip, hrounds⟩ :=
    run_rounds hs hbatch hreference hestimate hr
  have hwide :=
    (Twins.survey_alike hs.sound hviews.reference hheight hwidth).of_self hsurvey
  have hmod := hs.sound.matcher.channels_mod
  rw [hs.sound.groups_eq] at hmod
  refine ⟨surroundings, hsurvey, hlength, fun k round hk => ?_⟩
  obtain ⟨hiteration, _, _, _, _, hresumed, hround⟩ := hrounds k round hk
  have hshape := (round_planned hs hequip hiteration hresumed.shape hround).hypotheses_shape
  rw [hresumed.isNone_eq] at hshape
  obtain ⟨count, -, htried, hverdict⟩ := hsame round (List.mem_of_getElem? hk)
  exact {
    reference := by
      rw [hreference.shape_eq, StageSettings.sizes,
        Nat.mul_div_cancel' (Nat.dvd_of_mod_eq_zero hmod)]
    sources := hviews.sources.length_left
    neighbors := hwide.support.neighbors_left
    featureWeight := hwide.featureWeight.shape_left
    hypotheses := hshape
    score := hverdict.score.shape_left.trans (htried.shape_left.symm.trans hshape)
    viewWeights := hverdict.viewWeights.shape_left }

def StageRecord.Spans (record : StageRecord ℝ) (scene : Scene ℝ ℝ) (pyramids : List (Pyramid ℝ))
    (stage : Stage ℝ ℝ) (sizes : Nat → AxisSizes) : Prop :=
  ∃ views surroundings, Estimator.stageViews scene pyramids stage.index = .ok views ∧
    stage.survey views.reference = .ok surroundings ∧
    record.rounds.length = stage.settings.iterations ∧
    ∀ (k : Nat) (round : Round ℝ), record.rounds[k]? = some round →
      round.Spans views surroundings stage.settings.groups (sizes k)

/-- Every record of a run spans the axes that its stage plans. -/
theorem runStages_spans [WorkerPool] {b n : Nat} {σ : Equiv.Perm (Fin n)} {scene : Scene ℝ ℝ}
    {pyramids : List (Pyramid ℝ)} {stages : List (Stage ℝ ℝ)} (hb : b < scene.batch) (hn : 0 < n)
    (hheight : 0 < height) (hwidth : 0 < width)
    (hstages : (Twins.self hb).StagesAlike σ scene scene pyramids pyramids stages height width)
    (hequipped : ∀ stage ∈ stages, stage.Equipped)
    (hstart : ∀ stage ∈ stages.head?, (Twins.self hb).StartAlike σ stage height width estimate
      estimate carried carried rng rng)
    {r : List (StageRecord ℝ) × ρ}
    (hr : Estimator.runStages scene pyramids stages estimate carried rng = .ok r) :
    r.1.length = stages.length ∧ ∀ (k : Nat) (stage : Stage ℝ ℝ) (record : StageRecord ℝ),
      stages[k]? = some stage → r.1[k]? = some record →
        record.Spans scene pyramids stage (stage.settings.sizes (estimate.isNone && k == 0)
          stage.final scene.batch n (2 ^ k * height) (2 ^ k * width)) := by
  induction hstages generalizing estimate carried rng r with
  | nil =>
    cases hr
    exact ⟨rfl, fun k stage record hk => by cases hk⟩
  | @cons stage later height width sound seen _ ih =>
    obtain ⟨hstage, hlater⟩ := List.forall_mem_cons.1 hequipped
    obtain ⟨views, rounds, rng', verdict, depth, weights, records, hseen, hviews, hposes, hrounds,
      -, -, hresume, hrecords, heq⟩ :=
      runStages_step hb hn hheight hwidth sound seen (hstart stage rfl) hr
    obtain ⟨surroundings, hsurvey, hlength, hspans⟩ :=
      run_spans hb hstage hviews hposes hn hheight hwidth (hstart stage rfl) hrounds
    obtain ⟨hcount, hrest⟩ := ih (by omega) (by omega) hlater hresume hrecords
    rw [heq]
    refine ⟨congrArg (· + 1) hcount, fun k stage' record hk hrecord => ?_⟩
    cases k with
    | zero =>
      cases hk
      cases hrecord
      simpa using ⟨views, surroundings, hseen, hsurvey, hlength, hspans⟩
    | succ k =>
      have hspans := hrest k stage' record hk hrecord
      simpa [pow_succ, Nat.mul_assoc] using hspans

end Runs

section Estimates

/-- With a channel in each group and an element in the batch no axis is empty, in any round of any
stage, and all that the rounds of a run work with has these sizes. -/
theorem estimate_filled [WorkerPool] {ρ : Type} [RandomSource ρ ℝ] {settings : Settings ℝ}
    (hvalid : settings.validate = .ok ()) (hfeatures : ∀ s ∈ settings.stages, 0 < s.features)
    (scene : Scene ℝ ℝ) (hbatch : 0 < scene.batch) :
    (∀ (index : Nat) (s : StageSettings ℝ), settings.stages[index]? = some s → ∀ iteration,
      let sizes := s.sizesOn scene index iteration
      sizes.Filled ∧ (sizes.share : ℝ) ≠ 0 ∧ (sizes.height : ℝ) - 1 ≠ 0 ∧
        (sizes.width : ℝ) - 1 ≠ 0) ∧
    ∀ (source : ParameterSource ℝ) (estimator : Estimator ℝ ℝ) (rng : ρ)
      (r : Reconstruction ℝ × ρ), Estimator.build settings source = .ok estimator →
      estimator.estimate scene rng = .ok r →
      ∃ pyramids records, estimator.pyramids scene = .ok pyramids ∧
        estimator.search scene rng = .ok (records, r.2) ∧ records.length = stageCount ∧
        ∀ (index : Nat) (s : StageSettings ℝ) (stage : Stage ℝ ℝ) (record : StageRecord ℝ),
          settings.stages[index]? = some s → estimator.stages[index]? = some stage →
          records[index]? = some record →
            stage.settings = s ∧ record.Spans scene pyramids stage (s.sizesOn scene index) := by
  obtain ⟨hcoarse, hmiddle, hfine⟩ := Settings.validate_eq_ok.1 hvalid
  refine ⟨fun index s hs iteration => ?_, fun source estimator rng r hbuild hr => ?_⟩
  · have hmem : s ∈ settings.stages := List.mem_of_getElem? hs
    have hstage : s.Valid := by
      simp only [Settings.stages, List.mem_cons, List.not_mem_nil, or_false] at hmem
      rcases hmem with rfl | rfl | rfl
      · exact hcoarse
      · exact hmiddle
      · exact hfine
    have hfilled := (StageSettings.filled_iff hstage scene index iteration).2
      ⟨hbatch, hfeatures s hmem⟩
    exact ⟨hfilled, hfilled.divisors_ne_zero⟩
  · obtain ⟨coarse, middle, fine, hs, ⟨hec, hem, hef⟩, hc, hm, hf⟩ :=
      Estimator.equipped_of_build hbuild
    obtain ⟨hsources, hheight, hwidth⟩ := scene.coarsest_pos
    have hregular := regular_of_estimate hs hr
    obtain ⟨⟨records, rng'⟩, hsearch, hr⟩ := bind_eq_ok.1 hr
    obtain ⟨found, -, hr⟩ := bind_eq_ok.1 hr
    cases hr
    obtain ⟨pyramids, hpyramids, hstages, hstart, hrun⟩ := search_eq_ok hs hbatch hregular hsearch
    obtain ⟨hlength, hspans⟩ := runStages_spans hbatch hsources hheight hwidth hstages
      (by simp [hec, hem, hef]) hstart hrun
    refine ⟨pyramids, records, hpyramids, hsearch, hlength, fun index s stage record hsettings
      hstage hrecord => ?_⟩
    rw [hs.stages_eq] at hstage
    have hspan := hspans index stage record hstage hrecord
    have hindex : index < stageCount := (List.getElem?_eq_some_iff.1 hsettings).1
    rw [(scene.side_eq hindex).1, (scene.side_eq hindex).2] at hspan
    rw [stageCount] at hindex
    interval_cases index
    · cases hsettings
      cases hstage
      rw [hc.settings_eq, hc.final_eq] at hspan
      exact ⟨hc.settings_eq, hspan⟩
    · cases hsettings
      cases hstage
      rw [hm.settings_eq, hm.final_eq] at hspan
      exact ⟨hm.settings_eq, hspan⟩
    · cases hsettings
      cases hstage
      rw [hf.settings_eq, hf.final_eq] at hspan
      exact ⟨hf.settings_eq, hspan⟩

attribute [local instance] WorkerPool.inTurn

/-- The default settings: eight hypotheses at each of the 8 × 8 pixels of the finest stage, and one
source view. -/
theorem estimate_filled_varied :
    (Settings.default : Settings ℝ).validate = .ok () ∧
      (∀ s ∈ (Settings.default : Settings ℝ).stages, 0 < s.features) ∧
      0 < (Scene.varied 1 0 0 0).batch ∧
      ∃ (estimator : Estimator ℝ ℝ) (r : Reconstruction ℝ × Tape) (record : StageRecord ℝ)
        (round : Round ℝ), Estimator.build Settings.default variedSource = .ok estimator ∧
        estimator.estimate (Scene.varied 1 0 0 0) Tape.varied = .ok r ∧
        record.rounds[0]? = some round ∧ round.hypotheses.shape = [1, 8, 8, 8] ∧
        round.verdict.viewWeights.shape = [1, 1, 8, 8] := by
  have hfeatures : ∀ s ∈ (Settings.default : Settings ℝ).stages, 0 < s.features := by
    simp [Settings.stages, Settings.default, StageSettings.coarse, StageSettings.middle,
      StageSettings.fine]
  have hbatch : 0 < (Scene.varied 1 0 0 0).batch := Nat.one_pos
  obtain ⟨estimator, r, hbuild, hr⟩ :=
    estimate_varied Settings.validate_default (variedSource_answers _) Nat.one_pos 0 0 0
      Tape.varied
  obtain ⟨-, hruns⟩ := estimate_filled (ρ := Tape) Settings.validate_default hfeatures
    (Scene.varied 1 0 0 0) hbatch
  obtain ⟨pyramids, records, -, -, hlength, hspans⟩ :=
    hruns variedSource estimator Tape.varied r hbuild hr
  obtain ⟨_, _, fine, hstages, -, -, hfine⟩ := Estimator.follows_of_build hbuild
  have hlast : 2 < records.length := hlength ▸ (by decide : 2 < stageCount)
  obtain ⟨hsettings, views, surroundings, -, -, hcount, hrounds⟩ := hspans 2 StageSettings.fine fine
    records[2] rfl (by rw [hstages]; rfl) (List.getElem?_eq_getElem hlast)
  have hround : 0 < records[2].rounds.length := by
    rw [hcount, hsettings]
    decide
  have hspan := hrounds 0 _ (List.getElem?_eq_getElem hround)
  exact ⟨Settings.validate_default, hfeatures, hbatch, estimator, r, records[2], _, hbuild, hr,
    List.getElem?_eq_getElem hround, hspan.hypotheses, hspan.viewWeights⟩

/-- The default settings, but with a finest stage that compares no features. -/
noncomputable def featureless : Settings ℝ :=
  { Settings.default with fine := { StageSettings.fine with features := 0 } }

/-- Settings without features pass all checks and estimate a scene, and a scene without elements is
accepted, so that a group or the batch can be empty. -/
theorem not_filled_featureless :
    featureless.validate = .ok () ∧
      (∃ (estimator : Estimator ℝ ℝ) (r : Reconstruction ℝ × Tape),
        Estimator.build featureless variedSource = .ok estimator ∧
          estimator.estimate (Scene.varied 1 0 0 0) Tape.varied = .ok r) ∧
      featureless.fine.features / featureless.fine.groups = 0 ∧
      ¬ (featureless.fine.sizesOn (Scene.varied 1 0 0 0) 2 0).Filled ∧
      (Settings.default : Settings ℝ).validate = .ok () ∧
      Scene.of (Scene.varied 0 0 0 0).images (Scene.varied 0 0 0 0).projections unitRange =
        .ok (Scene.varied 0 0 0 0) ∧
      ¬ ((Settings.default : Settings ℝ).fine.sizesOn (Scene.varied 0 0 0 0) 2 0).Filled := by
  have hvalid : featureless.validate = .ok () := by
    obtain ⟨hcoarse, hmiddle, hfine⟩ := Settings.validate_eq_ok.1 Settings.validate_default
    refine Settings.validate_eq_ok.2 ⟨hcoarse, hmiddle, ?_⟩
    exact ⟨hfine.iterations_pos, hfine.samples_pos, hfine.interval_pos, hfine.interval_finite,
      hfine.range_pos, hfine.groups_ne_zero, rfl, ⟨_, _, rfl, rfl⟩⟩
  exact ⟨hvalid, estimate_varied hvalid (variedSource_answers _) Nat.one_pos 0 0 0 Tape.varied,
    rfl, fun h => absurd h.share_pos (by decide), Settings.validate_default,
    Scene.of_parts (Scene.varied 0 0 0 0), fun h => absurd h.batch_pos (by decide)⟩

end Estimates

end MultiViewDepth
