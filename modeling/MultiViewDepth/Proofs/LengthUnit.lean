import MultiViewDepth.Proofs.CameraScenes
import MultiViewDepth.Proofs.DepthBounds
import MultiViewDepth.Proofs.HypothesisVolumes

/-!
No choice of the unit of length shows in an estimate, apart from its depths being given in that
unit.

There is one length that does not scale: points closer to a camera than a fixed depth count as lying
behind it. A run must not meet a point that another unit takes across.
-/
namespace MultiViewDepth

open Tensor RandomSource

/-- The camera with its displacement in a unit of which the old one has `c`. -/
noncomputable def Camera.scaled (c : ℝ) (camera : Camera ℝ) : Camera ℝ :=
  { camera with
    extrinsics := fun i j =>
      if i ≠ 3 ∧ j = 3 then c * camera.extrinsics i j else camera.extrinsics i j }

def Camera.Affine (camera : Camera ℝ) : Prop := camera.extrinsics 3 = Transform.identity 3

section Cameras

variable {c : ℝ}

/-- Intrinsics keep apart what a unit scales and what it does not. -/
theorem Camera.calibration_commutes (camera : Camera ℝ) (scale : ℝ) :
    unitChange c * Matrix.of (camera.calibration scale) =
      Matrix.of (camera.calibration scale) * unitChange c := by
  ext i j
  rw [unitChange, Matrix.diagonal_mul, Matrix.mul_diagonal, Matrix.of_apply]
  by_cases hin : i.val < 3 ∧ j.val < 3
  · have hi : i ≠ 3 := fun h => by simp [h] at hin
    have hj : j ≠ 3 := fun h => by simp [h] at hin
    rw [if_neg hi, if_neg hj, mul_comm]
  · rw [calibration, dif_neg hin, Transform.identity]
    by_cases hij : i = j
    · rw [hij, mul_comm]
    · rw [if_neg hij, mul_zero, zero_mul]

theorem Camera.extrinsics_scaled (hc : c ≠ 0) {camera : Camera ℝ} (h : camera.Affine) :
    Matrix.of (camera.scaled c).extrinsics =
      unitChange c * Matrix.of camera.extrinsics * (unitChange c)⁻¹ := by
  ext i j
  have hentry : (camera.scaled c).extrinsics i j =
      if i ≠ 3 ∧ j = 3 then c * camera.extrinsics i j else camera.extrinsics i j := rfl
  rw [conjugate_apply hc, Matrix.of_apply, Matrix.of_apply, hentry]
  by_cases hi : i = 3
  · rw [if_neg (fun hij => hij.1 hi), if_pos hi, one_mul, hi, h, Transform.identity]
    by_cases hj : j = 3
    · rw [if_pos hj, mul_one]
    · rw [if_neg (Ne.symm hj), zero_mul]
  · rw [if_neg hi]
    by_cases hj : j = 3
    · rw [if_pos ⟨hi, hj⟩, if_pos hj, mul_one]
    · rw [if_neg (fun hij => hj hij.2), if_neg hj, mul_right_comm, mul_inv_cancel₀ hc, one_mul]

/-- In another unit of length an affine camera stands in a frame that is scaled back. -/
theorem Camera.rescaled_scaled (hc : c ≠ 0) {camera : Camera ℝ} (h : camera.Affine) :
    camera.Rescaled c (unitChange c)⁻¹ (camera.scaled c) := by
  intro scale
  have hcalibration : (camera.scaled c).calibration scale = camera.calibration scale := rfl
  rw [projection, projection, hcalibration, Transform.mul_eq, Transform.mul_eq,
    extrinsics_scaled hc h, ← Matrix.mul_assoc, ← Matrix.mul_assoc, ← calibration_commutes,
    Matrix.mul_assoc (unitChange c)]

end Cameras

/-- The depths of the points of a run, each before the camera of a source view. -/
inductive Scene.Meets (scene : Scene ℝ ℝ) (records : List (StageRecord ℝ)) : ℝ → Prop
  | point {stage v b k y x : Nat} {record : StageRecord ℝ} {round : Round ℝ}
      {reference source : Tensor ℝ} {pose : RelativePose ℝ}
      (record_eq : records[stage]? = some record) (round_mem : round ∈ record.rounds)
      (reference_eq : scene.projections.view stage 0 = .ok reference)
      (source_eq : scene.projections.view stage (v + 1) = .ok source)
      (pose_eq : RelativePose.between source reference = .ok pose)
      (within : Within [b, k, y, x] round.hypotheses.shape) :
      Meets scene records (pose.apply b 2 x y (round.hypotheses.get [b, k, y, x]))

section Estimates

variable {ρ : Type} [RandomSource ρ ℝ] {estimator : Estimator ℝ ℝ} {scene : Scene ℝ ℝ}
  {pyramids : List (Pyramid ℝ)} {c : ℝ}

theorem projections_of_stageViews {stage : Nat} {views : ViewFeatures ℝ}
    (h : Estimator.stageViews scene pyramids stage = .ok views) :
    scene.projections.view stage 0 = .ok views.referenceProjection ∧
      ∀ t ∈ views.sourceProjections, ∃ v, scene.projections.view stage (v + 1) = .ok t := by
  cases pyramids with
  | nil => cases h
  | cons first rest =>
    simp only [Estimator.stageViews, bind_eq_ok, pure_eq_ok] at h
    obtain ⟨features, -, sources, -, reference, hreference, projections, hprojections, h⟩ := h
    cases h
    refine ⟨hreference, fun t ht => ?_⟩
    obtain ⟨i, hi⟩ := List.mem_iff_getElem?.1 ht
    obtain ⟨v, -, hv⟩ := getElem?_of_mapM hprojections hi
    exact ⟨v, hv⟩

/-- A record keeps its sides when every coordinate it meets does. -/
theorem StageRecord.keepsSides_of_meets {records : List (StageRecord ℝ)} {stage : Stage ℝ ℝ}
    {record : StageRecord ℝ} (hrecord : records[stage.index]? = some record)
    (hfront : ∀ z, scene.Meets records z → (z ≤ frontDepth ↔ c * z ≤ frontDepth)) :
    record.KeepsSides c scene pyramids stage := by
  intro views hviews round hround source hsource pose hpose b k y x hw
  obtain ⟨hreference, hsources⟩ := projections_of_stageViews hviews
  obtain ⟨v, hv⟩ := hsources source hsource
  exact hfront _ (.point hrecord hround hreference hv hpose hw)

/-- Displacements and range in a unit of which the old one has `c` lead to the depths in that unit,
and to the same confidence and view weights, as long as no point that is met changes its side of the
plane near a camera. -/
theorem estimate_scaled [WorkerPool] {settings : Settings ℝ} {source : ParameterSource ℝ}
    (hbuild : Estimator.build settings source = .ok estimator) (hc : 0 < c) (images : Tensor ℝ)
    {cameras : List (List (Camera ℝ))} (haffine : ∀ row ∈ cameras, ∀ camera ∈ row, camera.Affine)
    (range : DepthRange ℝ) {rng : ρ}
    (hfront : ∀ scene records rng', Scene.ofCameras images cameras range = .ok scene →
      estimator.search scene rng = .ok (records, rng') →
      ∀ z, scene.Meets records z → (z ≤ frontDepth ↔ c * z ≤ frontDepth)) :
    (do
      let scene ← Scene.ofCameras images (cameras.map (List.map (Camera.scaled c)))
        (range.scaled hc)
      estimator.estimate scene rng) = Prod.map (Reconstruction.scaled c) id <$> (do
      let scene ← Scene.ofCameras images cameras range
      estimator.estimate scene rng) := by
  obtain ⟨coarse, middle, fine, hs⟩ := Estimator.sound_of_build hbuild
  have hunit : (unitChange c)⁻¹.det ≠ 0 := by
    rw [inv_unitChange hc.ne', det_unitChange]
    exact pow_ne_zero 3 (inv_ne_zero hc.ne')
  refine estimate_ofCameras hc images range hs rng hunit
    (fun row hrow camera hcamera => Camera.rescaled_scaled hc.ne' (haffine row hrow camera hcamera))
    fun scene hscene => ?_
  intro pyramids records rng' _ hsearch i stage record hstage hrecord
  have hindex : stage.index = i := by
    rw [hs.stages_eq] at hstage
    match i with
    | 0 => cases hstage; exact hs.index_coarse
    | 1 => cases hstage; exact hs.index_middle
    | 2 => cases hstage; exact hs.index_fine
    | i + 3 => cases hstage
  rw [← hindex] at hrecord
  exact StageRecord.keepsSides_of_meets hrecord (hfront scene records rng' hscene hsearch)

theorem Scene.view_lt {stage v : Nat} {t : Tensor ℝ}
    (h : scene.projections.view stage v = .ok t) : stage < stageCount ∧ v < scene.views := by
  unfold ProjectionTable.view at h
  split at h
  next => cases h
  next table htable =>
    obtain ⟨hstage, -⟩ := List.getElem?_eq_some_iff.1 htable
    have hshape := scene.projections.shape_stage table (List.mem_of_getElem? htable)
    obtain ⟨slice, hslice, -⟩ := bind_eq_ok.1 h
    simp only [Tensor.narrow, hshape, List.getElem?_cons_succ, List.getElem?_cons_zero,
      ite_error_eq_ok] at hslice
    exact ⟨scene.projections.length_stages ▸ hstage, scene.views_projections ▸ hslice.1⟩

/-- The hypotheses of a run are as many batches as the scene has. -/
theorem hypotheses_size [WorkerPool] {settings : Settings ℝ} {source : ParameterSource ℝ}
    (hbuild : Estimator.build settings source = .ok estimator) {rng rng' : ρ}
    {records : List (StageRecord ℝ)} (hsearch : estimator.search scene rng = .ok (records, rng')) :
    ∀ record ∈ records, ∀ round ∈ record.rounds, round.hypotheses.size 0 = scene.batch := by
  obtain ⟨coarse, middle, fine, rfl, hcoarse, hmiddle, hfine⟩ := search_planned hbuild hsearch
  have hall {record : StageRecord ℝ} {settings : StageSettings ℝ} {start final : Bool}
      {height width : Nat} (h : record.Planned settings start final scene.batch height width) :
      ∀ round ∈ record.rounds, round.hypotheses.size 0 = scene.batch := by
    intro round hround
    obtain ⟨k, hk⟩ := List.mem_iff_getElem?.1 hround
    simp [size, (h.rounds k round hk).hypotheses_shape]
  simp only [List.forall_mem_cons]
  exact ⟨hall hcoarse, hall hmiddle, hall hfine, by simp⟩

theorem Camera.plain_affine (z : ℝ) : (plain z).Affine := by
  funext j
  simp [plain, Transform.identity]

theorem lt_size_of_within {t : Tensor ℝ} {b : Nat} {index : List Nat}
    (h : Within (b :: index) t.shape) : b < t.size 0 := by
  cases hshape : t.shape with
  | nil => simp [hshape] at h
  | cons n rest =>
    rw [hshape] at h
    simpa [size, hshape] using h.1

/-- All points lie at least as far from the second of two plain cameras as from the first. -/
theorem plain_meets [WorkerPool] {settings : Settings ℝ} {source : ParameterSource ℝ}
    (hbuild : Estimator.build settings source = .ok estimator)
    (hshows : scene.projections.Shows plainCameras) {rng rng' : ρ}
    (hdraws : ∀ n, draw n rng ∈ Set.Ico (0 : ℝ) 1) {records : List (StageRecord ℝ)}
    (hsearch : estimator.search scene rng = .ok (records, rng')) {z : ℝ}
    (hz : scene.Meets records z) : scene.range.near + 1 ≤ z := by
  have hsizes := hypotheses_size hbuild hsearch
  obtain ⟨pyramids, -, hrun⟩ := bind_eq_ok.1 hsearch
  have hstart : Admissible scene.range none rng := ⟨nofun, fun _ => hdraws⟩
  obtain ⟨-, hrecords, -⟩ := runStages_inRange hstart hrun
  cases hz with
  | @point stage v b k y x record round reference source pose hrecord hround hreference
      hsource hpose hw =>
    have hmem := List.mem_of_getElem? hrecord
    obtain ⟨hstage, hv⟩ := Scene.view_lt hsource
    have hviews : 2 = scene.views :=
      (hshows.length_row _ List.mem_cons_self).trans scene.views_projections
    have hone : 1 = scene.batch := hshows.length_eq.trans scene.batch_projections
    obtain rfl : v = 0 := by omega
    have hdepth := ((hrecords record hmem).rounds round hround).hypotheses.mem _ hw
    have hlt := lt_size_of_within hw
    rw [hsizes record hmem round hround] at hlt
    obtain rfl : b = 0 := by omega
    rw [plain_apply hshows hstage hreference hsource hpose]
    exact add_le_add_left hdepth.1 1

attribute [local instance] WorkerPool.inTurn

theorem estimate_scaled_plain :
    ∃ (estimator : Estimator ℝ ℝ) (r : Reconstruction ℝ × Tape),
      Estimator.build .default variedSource = .ok estimator ∧
        (∀ row ∈ plainCameras, ∀ camera ∈ row, camera.Affine) ∧
        (∀ scene records rng',
          Scene.ofCameras (Scene.varied 1 0 0 0).images plainCameras unitRange = .ok scene →
          estimator.search scene Tape.varied = .ok (records, rng') →
          ∀ z, scene.Meets records z → (z ≤ frontDepth ↔ 2 * z ≤ frontDepth)) ∧
        (do
          let scene ← Scene.ofCameras (Scene.varied 1 0 0 0).images plainCameras unitRange
          estimator.estimate scene Tape.varied) = .ok r ∧
        (do
          let scene ← Scene.ofCameras (Scene.varied 1 0 0 0).images
            (plainCameras.map (List.map (Camera.scaled 2))) (unitRange.scaled two_pos)
          estimator.estimate scene Tape.varied) = .ok (r.1.scaled 2, r.2) := by
  obtain ⟨estimator, scene, r, hbuild, hscene, hshows, hrange, hr⟩ :=
    estimate_plain Settings.validate_default Tape.varied
  have haffine : ∀ row ∈ plainCameras, ∀ camera ∈ row, camera.Affine := by
    intro row hrow camera hcamera
    rw [List.mem_singleton.1 hrow] at hcamera
    rcases List.mem_pair.1 hcamera with rfl | rfl
    · exact Camera.plain_affine 0
    · exact Camera.plain_affine 1
  have hfront : ∀ scene records rng',
      Scene.ofCameras (Scene.varied 1 0 0 0).images plainCameras unitRange = .ok scene →
      estimator.search scene Tape.varied = .ok (records, rng') →
      ∀ z, scene.Meets records z → (z ≤ frontDepth ↔ 2 * z ≤ frontDepth) := by
    intro scene' records rng' hscene' hsearch z hz
    cases Except.ok.inj (hscene.symm.trans hscene')
    have hfar := plain_meets hbuild hshows Tape.draw_varied hsearch hz
    have hnear : scene.range.near = 1 := congrArg DepthRange.near hrange
    have hfront : (frontDepth : ℝ) < 1 := by norm_num [frontDepth]
    constructor
    · intro h
      linarith
    · intro h
      linarith
  have hrun : (do
      let scene ← Scene.ofCameras (Scene.varied 1 0 0 0).images plainCameras unitRange
      estimator.estimate scene Tape.varied) = .ok r := by
    rw [hscene, ok_bind, hr]
  have hscaled := estimate_scaled hbuild two_pos (Scene.varied 1 0 0 0).images haffine
    unitRange hfront
  rw [hrun] at hscaled
  exact ⟨estimator, r, hbuild, haffine, hfront, hrun, hscaled⟩

end Estimates

end MultiViewDepth
