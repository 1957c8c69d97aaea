import MultiViewDepth.Proofs.PixelViews
import MultiViewDepth.Proofs.ScaledRuns
import MultiViewDepth.Proofs.Scenes

/-!
Scenes that are made from cameras.

Cameras enter a scene through their projections alone, so cameras whose projections are those of
others in another world frame and unit make the same scene in that frame and unit.
-/
namespace MultiViewDepth

open Tensor

section Making

variable {α δ : Type} [Scalar α] [Scalar δ] [Precision α δ]

def Scene.ofCameras (images : Tensor α) (cameras : List (List (Camera δ))) (range : DepthRange δ) :
    Result (Scene α δ) := do
  Scene.of images (← ProjectionTable.ofCameras cameras) range

omit [Scalar α] [Precision α δ] in
/-- Checks of a scene look at the sizes of its projections only. -/
theorem Scene.of_alike (images : Tensor α) {table table' : ProjectionTable α}
    (range range' : DepthRange δ) (hbatch : table'.batch = table.batch)
    (hviews : table'.views = table.views) :
    (∃ failure, Scene.of images table range = .error failure ∧
        Scene.of images table' range' = .error failure) ∨
      Both (fun scene scene' : Scene α δ => (scene.images = images ∧ scene.projections = table ∧
          scene.range = range) ∧ scene'.images = images ∧ scene'.projections = table' ∧
          scene'.range = range')
        (Scene.of images table range) (Scene.of images table' range') := by
  obtain ⟨batch, views, stages, hlength, hshape⟩ := table
  obtain ⟨batch', views', stages', hlength', hshape'⟩ := table'
  cases hbatch
  cases hviews
  unfold Scene.of
  split
  · -- every check that fails on one side fails on the other one
    split_ifs
    all_goals first
      | exact .inl ⟨_, rfl, rfl⟩
      | exact .inr ⟨_, _, rfl, rfl, ⟨rfl, rfl, rfl⟩, rfl, rfl, rfl⟩
  · exact .inl ⟨_, rfl, rfl⟩

end Making

namespace ProjectionTable

variable {cameras : List (List (Camera ℝ))}

/-- The entries of a table are those of the projections of its cameras. -/
theorem atScale_get {row : List (Camera ℝ)} {camera : Camera ℝ} {batch views b v : Nat}
    (hrow : cameras[b]? = some row) (hcamera : row[v]? = some camera) (hb : b < batch)
    (hv : v < views) (scale : ℝ) (r c : Fin 4) :
    ((atScale cameras batch views scale : Tensor ℝ).getWide [b, v, r.val, c.val] : ℝ) =
      camera.projection scale r c := by
  have hw : Within [b, v, r.val, c.val] [batch, views, 4, 4] := within_four hb hv r.isLt c.isLt
  rw [getWide_of_single rfl, atScale, get_ofFn hw]
  simp [Array.getD_eq_getD_getElem?, hrow, hcamera, Transform.entry]

structure Shows (table : ProjectionTable ℝ) (cameras : List (List (Camera ℝ))) : Prop where
  length_eq : cameras.length = table.batch
  batch_pos : 0 < table.batch
  length_row : ∀ row ∈ cameras, row.length = table.views
  stage_eq : ∀ stage < stageCount, table.stage? stage =
    some (atScale cameras table.batch table.views (stageResolution stage))

theorem shows_of_ok {table : ProjectionTable ℝ} (h : ofCameras cameras = .ok table) :
    table.Shows cameras := by
  simp only [ofCameras] at h
  split at h
  next => cases h
  next hgood =>
    cases h
    simp only [not_or, List.any_eq_true, not_exists, not_and, bne_iff_ne, ne_eq, not_not] at hgood
    obtain ⟨hlength, -, hrows⟩ := hgood
    refine ⟨rfl, Nat.pos_of_ne_zero hlength, hrows, fun stage hstage => ?_⟩
    simp [stage?, hstage]

theorem exists_ofCameras {batch views : Nat} (hlength : cameras.length = batch) (hbatch : 0 < batch)
    (hviews : 0 < views) (hrows : ∀ row ∈ cameras, row.length = views) :
    ∃ table : ProjectionTable ℝ, ofCameras cameras = .ok table ∧ table.batch = batch ∧
      table.views = views := by
  have hhead : (cameras.head?.map List.length).getD 0 = views := by
    cases cameras with
    | nil => simp at hlength; omega
    | cons row rest => exact hrows row List.mem_cons_self
  have hgood : ¬ (cameras.length = 0 ∨ views = 0 ∨ cameras.any (·.length != views) = true) := by
    simp only [not_or, List.any_eq_true, not_exists, not_and, bne_iff_ne, ne_eq, not_not]
    exact ⟨by omega, by omega, hrows⟩
  unfold ofCameras
  simp only [hhead]
  exact ⟨_, if_neg hgood, hlength, rfl⟩

/-- Cameras of which each is replaced make a table of the same sizes, or none either. -/
theorem ofCameras_map (f : Camera ℝ → Camera ℝ) (cameras : List (List (Camera ℝ))) :
    (∃ failure, (ofCameras cameras : Result (ProjectionTable ℝ)) = .error failure ∧
        (ofCameras (cameras.map (List.map f)) : Result (ProjectionTable ℝ)) = .error failure) ∨
      Both (fun table table' : ProjectionTable ℝ => table'.batch = table.batch ∧
          table'.views = table.views)
        (ofCameras cameras) (ofCameras (cameras.map (List.map f))) := by
  have hviews : ((cameras.map (List.map f)).head?.map List.length).getD 0 =
      (cameras.head?.map List.length).getD 0 := by
    cases cameras with
    | nil => rfl
    | cons row rest => simp
  unfold ofCameras
  simp only [hviews, List.length_map, List.any_map, Function.comp_def]
  split
  next => exact .inl ⟨_, rfl, rfl⟩
  next => exact .inr ⟨_, _, rfl, rfl, rfl, rfl⟩

end ProjectionTable

/-- A scene made from cameras sees their projections. -/
theorem Scene.projectionMatrix_of_shows {scene : Scene ℝ ℝ} {cameras : List (List (Camera ℝ))}
    (h : scene.projections.Shows cameras) {stage v b : Nat} (hstage : stage < stageCount)
    {row : List (Camera ℝ)} {camera : Camera ℝ} (hrow : cameras[b]? = some row)
    (hcamera : row[v]? = some camera) :
    scene.projectionMatrix stage v b = Matrix.of (camera.projection (stageResolution stage)) := by
  obtain ⟨hb, -⟩ := List.getElem?_eq_some_iff.1 hrow
  obtain ⟨hv, -⟩ := List.getElem?_eq_some_iff.1 hcamera
  rw [h.length_eq] at hb
  rw [h.length_row row (List.mem_of_getElem? hrow)] at hv
  ext r j
  simp only [projectionMatrix, Matrix.of_apply, h.stage_eq stage hstage]
  exact ProjectionTable.atScale_get hrow hcamera hb hv _ r j

/-- The images of a scene may be taken by any cameras, one for each. -/
theorem Scene.exists_ofCameras (scene : Scene ℝ ℝ) (hbatch : 0 < scene.batch)
    {cameras : List (List (Camera ℝ))} (hlength : cameras.length = scene.batch)
    (hrows : ∀ row ∈ cameras, row.length = scene.views) (range : DepthRange ℝ) :
    ∃ scene', Scene.ofCameras scene.images cameras range = .ok scene' ∧
      scene'.projections.Shows cameras ∧ scene'.images = scene.images ∧ scene'.range = range := by
  have hviews := scene.two_le_views
  obtain ⟨table, htable, hb, hv⟩ :=
    ProjectionTable.exists_ofCameras hlength hbatch (by omega) hrows
  rcases Scene.of_alike scene.images scene.range range (hb.trans scene.batch_projections.symm)
    (hv.trans scene.views_projections.symm) with ⟨failure, h, -⟩ |
      ⟨_, scene', -, h', -, himages, hprojections, hrange⟩
  · rw [Scene.of_parts] at h
    cases h
  · refine ⟨scene', ?_, ?_, himages, hrange⟩
    · rw [Scene.ofCameras, htable, ok_bind, h']
    · rw [hprojections]
      exact ProjectionTable.shows_of_ok htable

/-- A camera whose projections are those of another one, described in another unit and in another
world frame. -/
def Camera.Rescaled (c : ℝ) (frame : Matrix (Fin 4) (Fin 4) ℝ) (camera camera' : Camera ℝ) : Prop :=
  ∀ scale : ℝ, Matrix.of (camera'.projection scale) =
    unitChange c * Matrix.of (camera.projection scale) * frame

section Frames

variable {c : ℝ} (hc : 0 < c) {frame : Matrix (Fin 4) (Fin 4) ℝ} (images : Tensor ℝ)
  {cameras : List (List (Camera ℝ))} (range : DepthRange ℝ) {f : Camera ℝ → Camera ℝ}

omit hc in
/-- Scenes see the projections of their cameras in the same unit and frame as these are. -/
theorem projectionMatrix_rescaled {scene scene' : Scene ℝ ℝ}
    (hshows : scene.projections.Shows cameras)
    (hshows' : scene'.projections.Shows (cameras.map (List.map f)))
    (hf : ∀ row ∈ cameras, ∀ camera ∈ row, camera.Rescaled c frame (f camera)) {stage v b : Nat}
    (hstage : stage < stageCount) (hv : v < scene.views) (hb : b < scene.batch) :
    scene'.projectionMatrix stage v b =
      unitChange c * scene.projectionMatrix stage v b * frame := by
  rw [← scene.batch_projections, ← hshows.length_eq] at hb
  have hrow : cameras[b]? = some cameras[b] := List.getElem?_eq_getElem hb
  have hmem : cameras[b] ∈ cameras := List.getElem_mem hb
  rw [← scene.views_projections, ← hshows.length_row _ hmem] at hv
  have hcamera : cameras[b][v]? = some cameras[b][v] := List.getElem?_eq_getElem hv
  have hrow' : (cameras.map (List.map f))[b]? = some (cameras[b].map f) := by
    rw [List.getElem?_map, hrow, Option.map_some]
  have hcamera' : (cameras[b].map f)[v]? = some (f cameras[b][v]) := by
    rw [List.getElem?_map, hcamera, Option.map_some]
  rw [Scene.projectionMatrix_of_shows hshows hstage hrow hcamera,
    Scene.projectionMatrix_of_shows hshows' hstage hrow' hcamera']
  exact hf _ hmem _ (List.getElem_mem hv) _

/-- Cameras in another unit and frame make a scene in that unit and frame, or none either. -/
theorem ofCameras_rescaled (hframe : frame.det ≠ 0)
    (hf : ∀ row ∈ cameras, ∀ camera ∈ row, camera.Rescaled c frame (f camera)) :
    (∃ failure, Scene.ofCameras images cameras range = .error failure ∧
        Scene.ofCameras images (cameras.map (List.map f)) (range.scaled hc) = .error failure) ∨
      Both (fun scene scene' => 0 < scene.batch ∧ scene.Rescaled hc frame scene')
        (Scene.ofCameras images cameras range)
        (Scene.ofCameras images (cameras.map (List.map f)) (range.scaled hc)) := by
  rcases ProjectionTable.ofCameras_map f cameras with ⟨failure, h, h'⟩ |
    ⟨table, table', h, h', hbatch, hviews⟩
  · refine .inl ⟨failure, ?_, ?_⟩
    · rw [Scene.ofCameras, h, error_bind]
    · rw [Scene.ofCameras, h', error_bind]
  · have hshows := ProjectionTable.shows_of_ok h
    have hshows' := ProjectionTable.shows_of_ok h'
    simp only [Scene.ofCameras, h, h', ok_bind]
    rcases Scene.of_alike images range (range.scaled hc) hbatch hviews with hfailure | hboth
    · exact .inl hfailure
    refine .inr (hboth.mono fun scene scene' hparts => ?_)
    obtain ⟨⟨himages, htable, hrange⟩, himages', htable', hrange'⟩ := hparts
    rw [← htable] at hshows
    rw [← htable'] at hshows'
    have hpos : 0 < scene.batch := scene.batch_projections ▸ hshows.batch_pos
    refine ⟨hpos, hframe, himages'.trans himages.symm, by rw [hrange, hrange'], ?_⟩
    intro stage v b hstage hv hb
    exact projectionMatrix_rescaled hshows hshows' hf hstage hv hb

/-- The estimate of a scene in another frame and unit is the estimate of the scene, given in this
unit. -/
theorem estimate_ofCameras [WorkerPool] {estimator : Estimator ℝ ℝ} {coarse middle fine : Stage ℝ ℝ}
    (hs : estimator.Sound coarse middle fine) {ρ : Type} [RandomSource ρ ℝ] (rng : ρ)
    (hframe : frame.det ≠ 0)
    (hf : ∀ row ∈ cameras, ∀ camera ∈ row, camera.Rescaled c frame (f camera))
    (hsides : ∀ scene, Scene.ofCameras images cameras range = .ok scene →
      estimator.KeepsSides c scene rng) :
    (do
      let scene ← Scene.ofCameras images (cameras.map (List.map f)) (range.scaled hc)
      estimator.estimate scene rng) = Prod.map (Reconstruction.scaled c) id <$> (do
      let scene ← Scene.ofCameras images cameras range
      estimator.estimate scene rng) := by
  rcases ofCameras_rescaled hc images range hframe hf with ⟨failure, h, h'⟩ |
    ⟨scene, scene', h, h', hbatch, hscene⟩
  · rw [h, h']
    rfl
  · rw [h, h', ok_bind, ok_bind]
    exact estimate_rescaled hc hs hscene hbatch (hsides scene h)

end Frames

section Plain

/-- A camera that looks along the third axis of the world, moved along it by `z`. -/
def Camera.plain (z : ℝ) : Camera ℝ where
  intrinsics := fun i j => if i = j then 1 else 0
  extrinsics := fun i j => if i = 2 ∧ j = 3 then z else if i = j then 1 else 0

theorem Camera.projection_plain (z scale : ℝ) :
    Matrix.of ((plain z).projection scale) =
      !![scale, 0, 0, 0; 0, scale, 0, 0; 0, 0, 1, z; 0, 0, 0, 1] := by
  ext i j
  fin_cases i <;> fin_cases j <;>
    simp [plain, projection, calibration, Transform.mul, Transform.identity]

/-- Two plain cameras, of which one is a step behind the other. -/
def plainCameras : List (List (Camera ℝ)) := [[Camera.plain 0, Camera.plain 1]]

theorem stageResolution_eq (stage : Nat) :
    (stageResolution stage : ℝ) = 1 / 2 ^ (stageCount - stage) := by
  rw [stageResolution, Nat.one_shiftLeft]
  push_cast
  rfl

theorem stageResolution_pos (stage : Nat) : (0 : ℝ) < stageResolution stage := by
  rw [stageResolution_eq]
  positivity

variable {scene : Scene ℝ ℝ}

theorem plain_regular (h : scene.projections.Shows plainCameras) {stage : Nat}
    (hstage : stage < stageCount) : scene.RegularAt stage := by
  intro b hb
  rw [← scene.batch_projections, ← h.length_eq] at hb
  obtain rfl : b = 0 := Nat.lt_one_iff.1 hb
  have hscale := (stageResolution_pos stage).ne'
  rw [Scene.referenceMatrix_eq, Scene.projectionMatrix_of_shows h hstage rfl rfl,
    Camera.projection_plain]
  simp [Matrix.det_succ_row_zero, Fin.sum_univ_succ, hscale]

theorem plain_inverse {scale : ℝ} (h : scale ≠ 0) :
    (!![scale, 0, 0, 0; 0, scale, 0, 0; 0, 0, 1, 0; 0, 0, 0, 1] : Matrix (Fin 4) (Fin 4) ℝ)⁻¹ =
      !![scale⁻¹, 0, 0, 0; 0, scale⁻¹, 0, 0; 0, 0, 1, 0; 0, 0, 0, 1] := by
  refine Matrix.inv_eq_right_inv ?_
  ext i j
  fin_cases i <;> fin_cases j <;> simp [Matrix.mul_apply, Fin.sum_univ_four, h]

/-- Points lie one step further from the second camera. -/
theorem plain_apply (h : scene.projections.Shows plainCameras) {stage : Nat}
    (hstage : stage < stageCount) {reference source : Tensor ℝ} {pose : RelativePose ℝ}
    (hreference : scene.projections.view stage 0 = .ok reference)
    (hsource : scene.projections.view stage 1 = .ok source)
    (hpose : RelativePose.between source reference = .ok pose) (x y : Nat) (d : ℝ) :
    pose.apply 0 2 x y d = d + 1 := by
  have hscale := (stageResolution_pos stage).ne'
  have hregular := plain_regular h hstage
  have hviews := scene.two_le_views
  have hb : 0 < scene.batch := scene.batch_projections ▸ h.batch_pos
  obtain ⟨_, hr, hrs, hrm⟩ := Twins.projectionMatrix_ok scene hstage (v := 0) (by omega)
  obtain ⟨_, ht, hts, htm⟩ := Twins.projectionMatrix_ok scene hstage (v := 1) (by omega)
  cases Except.ok.inj (hreference.symm.trans hr)
  cases Except.ok.inj (hsource.symm.trans ht)
  obtain ⟨_, hbetween, -, happly⟩ := RelativePose.between_apply hts hrs fun b hb => by
    rw [hrm b hb]
    exact hregular b hb
  cases Except.ok.inj (hpose.symm.trans hbetween)
  have hmatrix : RelativePose.matrix source reference 0 2 = ![0, 0, 1, 1] := by
    rw [RelativePose.matrix, hrm 0 hb, htm 0 hb, Scene.projectionMatrix_of_shows h hstage rfl rfl,
      Scene.projectionMatrix_of_shows h hstage rfl rfl, Camera.projection_plain,
      Camera.projection_plain, plain_inverse hscale]
    ext j
    fin_cases j <;> simp [Matrix.mul_apply, Fin.sum_univ_four]
  have hpoint : pose.apply 0 2 x y d = RelativePose.point source reference 0 x y d 2 :=
    happly 0 2 x y d hb
  rw [hpoint, RelativePose.point, Matrix.mulVec, hmatrix]
  simp [dotProduct, Fin.sum_univ_four]

/-- Estimators of any settings estimate what plain cameras see. -/
theorem estimate_plain [WorkerPool] {settings : Settings ℝ} (hvalid : settings.validate = .ok ())
    {ρ : Type} [RandomSource ρ ℝ] (rng : ρ) :
    ∃ (estimator : Estimator ℝ ℝ) (scene : Scene ℝ ℝ) (r : Reconstruction ℝ × ρ),
      Estimator.build settings variedSource = .ok estimator ∧
        Scene.ofCameras (Scene.varied 1 0 0 0).images plainCameras unitRange = .ok scene ∧
        scene.projections.Shows plainCameras ∧ scene.range = unitRange ∧
        estimator.estimate scene rng = .ok r := by
  obtain ⟨estimator, hbuild⟩ := Estimator.exists_build hvalid (variedSource_answers settings)
  obtain ⟨coarse, middle, fine, hs⟩ := Estimator.sound_of_build hbuild
  have hlength : plainCameras.length = (Scene.varied 1 0 0 0).batch := rfl
  obtain ⟨scene, hscene, hshows, -, hrange⟩ := (Scene.varied 1 0 0 0).exists_ofCameras Nat.one_pos
    hlength (by simp [plainCameras, Scene.varied]) unitRange
  have hbatch : 0 < scene.batch := scene.batch_projections ▸ hshows.batch_pos
  obtain ⟨r, hr, -⟩ := estimate_of_regular hs hbatch
    (fun stage hstage => plain_regular hshows hstage) rng
  exact ⟨estimator, scene, r, hbuild, hscene, hshows, hrange, hr⟩

end Plain

end MultiViewDepth
