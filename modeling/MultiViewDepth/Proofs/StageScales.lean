import MultiViewDepth.Proofs.CameraScenes

/-!
The stages agree on where points go.

Projections of resized images are those of the images, followed by a resize of the pixels. Between
two views the resize of the reference cancels, and what is left takes resized pixels to resized
pixels.
-/
namespace MultiViewDepth

open Tensor

section Resize

/-- Takes the pixels of images, scaled by their depth, to those of the images resized by `s`. -/
noncomputable def resize (s : ℝ) : Matrix (Fin 4) (Fin 4) ℝ :=
  .diagonal ![s, s, 1, 1]

variable {s : ℝ}

theorem resize_mulVec (s : ℝ) (p : Fin 4 → ℝ) :
    (resize s).mulVec p = ![s * p 0, s * p 1, p 2, p 3] := by
  ext r
  rw [resize, Matrix.mulVec_diagonal]
  fin_cases r <;> simp

theorem det_resize (s : ℝ) : (resize s).det = s ^ 2 := by
  simp [resize, Matrix.det_diagonal, Fin.prod_univ_four, sq]

namespace Camera

variable (camera : Camera ℝ)

theorem calibration_resized (s : ℝ) :
    Matrix.of (camera.calibration s) = resize s * Matrix.of (camera.calibration 1) := by
  ext r c
  rw [resize, Matrix.diagonal_mul]
  fin_cases r <;> fin_cases c <;> simp [calibration, Transform.identity, mul_comm]

/-- The extrinsics come before the resize. -/
theorem projection_resized (s : ℝ) :
    Matrix.of (camera.projection s) = resize s * Matrix.of (camera.projection 1) := by
  rw [projection, projection, Transform.mul_eq, Transform.mul_eq, calibration_resized,
    Matrix.mul_assoc]

end Camera

namespace RelativePose

variable {source reference source' reference' : Tensor ℝ} {batch b : Nat}

/-- The resize of the reference cancels the one of the pixels. -/
theorem matrix_resized (hs : s ≠ 0)
    (hsource : Matrix.of (projectionAt source' b) = resize s * Matrix.of (projectionAt source b))
    (hreference : Matrix.of (projectionAt reference' b) =
      resize s * Matrix.of (projectionAt reference b)) :
    matrix source' reference' b * resize s = resize s * matrix source reference b := by
  have hunit : IsUnit (resize s).det := by
    rw [det_resize]
    exact isUnit_iff_ne_zero.2 (pow_ne_zero 2 hs)
  calc matrix source' reference' b * resize s
      = resize s * Matrix.of (projectionAt source b) *
          (Matrix.of (projectionAt reference b))⁻¹ * ((resize s)⁻¹ * resize s) := by
        rw [matrix, hsource, hreference, Matrix.mul_inv_rev]
        simp only [Matrix.mul_assoc]
    _ = resize s * matrix source reference b := by
        rw [Matrix.nonsing_inv_mul _ hunit, Matrix.mul_one, Matrix.mul_assoc, matrix]

/-- Views of resized images take resized points to resized points. -/
theorem between_resized (hs : s ≠ 0) (hsource : source.shape = [batch, 4, 4])
    (hreference : reference.shape = [batch, 4, 4]) (hsource' : source'.shape = [batch, 4, 4])
    (hreference' : reference'.shape = [batch, 4, 4])
    (hregular : ∀ b < batch, (Matrix.of (projectionAt reference b)).det ≠ 0)
    (hmatrix : ∀ b < batch,
      Matrix.of (projectionAt source' b) = resize s * Matrix.of (projectionAt source b))
    (hmatrix' : ∀ b < batch,
      Matrix.of (projectionAt reference' b) = resize s * Matrix.of (projectionAt reference b)) :
    ∃ pose pose', between source reference = .ok pose ∧ between source' reference' = .ok pose' ∧
      ∀ b x y d, b < batch →
        (∀ r : Fin 3, pose.move b r x y d =
          (matrix source reference b).mulVec ![x * d, y * d, d, 1] r.castSucc) ∧
        pose'.move b 0 (s * x) (s * y) d = s * pose.move b 0 x y d ∧
        pose'.move b 1 (s * x) (s * y) d = s * pose.move b 1 x y d ∧
        pose'.move b 2 (s * x) (s * y) d = pose.move b 2 x y d := by
  have hregular' (b : Nat) (hb : b < batch) : (Matrix.of (projectionAt reference' b)).det ≠ 0 := by
    rw [hmatrix' b hb, Matrix.det_mul, det_resize]
    exact mul_ne_zero (pow_ne_zero 2 hs) (hregular b hb)
  obtain ⟨pose, hpose, -, hmove⟩ := between_move hsource hreference hregular
  obtain ⟨pose', hpose', -, hmove'⟩ := between_move hsource' hreference' hregular'
  refine ⟨pose, pose', hpose, hpose', fun b x y d hb => ?_⟩
  have hpoint : ![s * x * d, s * y * d, d, 1] = (resize s).mulVec ![x * d, y * d, d, 1] := by
    rw [resize_mulVec]
    simp [mul_assoc]
  have hrow (r : Fin 3) : pose'.move b r (s * x) (s * y) d =
      (resize s).mulVec ((matrix source reference b).mulVec ![x * d, y * d, d, 1]) r.castSucc := by
    rw [hmove' b r _ _ d hb, hpoint, Matrix.mulVec_mulVec, Matrix.mulVec_mulVec,
      matrix_resized hs (hmatrix b hb) (hmatrix' b hb)]
  simp only [resize_mulVec] at hrow
  refine ⟨fun r => hmove b r x y d hb, (hrow 0).trans ?_, (hrow 1).trans ?_, (hrow 2).trans ?_⟩
  · exact congrArg (s * ·) (hmove b 0 x y d hb).symm
  · exact congrArg (s * ·) (hmove b 1 x y d hb).symm
  · exact (hmove b 2 x y d hb).symm

end RelativePose

end Resize

namespace ProjectionTable

variable {cameras : List (List (Camera ℝ))} {views : Nat}

noncomputable def resizedView (cameras : List (List (Camera ℝ))) (views : Nat) (scale : ℝ)
    (v : Nat) : Result (Tensor ℝ) := do
  (← (atScale cameras cameras.length views scale : Tensor ℝ).narrow 1 v 1).squeeze 1

/-- An array holds the projections of one view to images resized by `scale`. -/
structure HoldsView (u : Tensor ℝ) (cameras : List (List (Camera ℝ))) (scale : ℝ) (v : Nat) :
    Prop where
  shape_eq : u.shape = [cameras.length, 4, 4]
  matrix_eq : ∀ b row camera, cameras[b]? = some row → row[v]? = some camera →
    Matrix.of (projectionAt u b) = Matrix.of (camera.projection scale)

theorem resizedView_ok (cameras : List (List (Camera ℝ))) (scale : ℝ) {v : Nat} (hv : v < views) :
    ∃ u, resizedView cameras views scale v = .ok u ∧ HoldsView u cameras scale v := by
  obtain ⟨u, hu, hshape, -, hget⟩ := slice_ok (δ := ℝ)
    (t := (atScale cameras cameras.length views scale : Tensor ℝ)) rfl hv
  refine ⟨u, hu, hshape, fun b row camera hrow hcamera => ?_⟩
  obtain ⟨hb, -⟩ := List.getElem?_eq_some_iff.1 hrow
  ext r c
  rw [Matrix.of_apply, Matrix.of_apply, projectionAt, hget b _ hb (within_two r.isLt c.isLt)]
  exact atScale_get hrow hcamera hb hv scale r c

/-- The views of a stage are those of images resized by the resolution of the stage. -/
theorem view_eq {table : ProjectionTable ℝ} (h : table.Shows cameras) {stage : Nat}
    (hstage : stage < stageCount) (v : Nat) :
    table.view stage v = resizedView cameras table.views (stageResolution stage) v := by
  simp only [view, h.stage_eq stage hstage, resizedView, h.length_eq]

section Tables

variable (hrows : ∀ row ∈ cameras, row.length = views)

include hrows

theorem exists_camera {b v : Nat} (hb : b < cameras.length) (hv : v < views) :
    ∃ row ∈ cameras, cameras[b]? = some row ∧ ∃ camera, row[v]? = some camera := by
  have hmem : cameras[b] ∈ cameras := List.getElem_mem hb
  have hlt : v < cameras[b].length := by rwa [hrows _ hmem]
  exact ⟨_, hmem, List.getElem?_eq_getElem hb, _, List.getElem?_eq_getElem hlt⟩

/-- Every view of resized images follows the view of the images by a resize. -/
theorem HoldsView.resized {full u : Tensor ℝ} {s : ℝ} {v : Nat} (hfull : HoldsView full cameras 1 v)
    (hu : HoldsView u cameras s v) (hv : v < views) {b : Nat} (hb : b < cameras.length) :
    Matrix.of (projectionAt u b) = resize s * Matrix.of (projectionAt full b) := by
  obtain ⟨row, -, hrow, camera, hcamera⟩ := exists_camera hrows hb hv
  rw [hfull.matrix_eq b row camera hrow hcamera, hu.matrix_eq b row camera hrow hcamera,
    Camera.projection_resized]

/-- What is asked of the reference cameras holds for the matrices of their view. -/
theorem HoldsView.regular {full : Tensor ℝ} (hfull : HoldsView full cameras 1 0)
    (hviews : 0 < views)
    (hregular : ∀ row ∈ cameras, ∀ reference ∈ row.head?,
      (Matrix.of (reference.projection 1)).det ≠ 0) {b : Nat} (hb : b < cameras.length) :
    (Matrix.of (projectionAt full b)).det ≠ 0 := by
  obtain ⟨row, hmem, hrow, camera, hcamera⟩ := exists_camera hrows hb hviews
  rw [hfull.matrix_eq b row camera hrow hcamera]
  exact hregular row hmem camera (by rw [List.head?_eq_getElem?, hcamera, Option.mem_some])

/-- From the reference view to any view, a stage takes points of its resized images where the full
resolution takes them, resized in the same way. So they lie in front of the camera at all stages or
at none, and land at places that scale with the images. -/
theorem poses_resized (hne : cameras ≠ []) (hviews : 0 < views)
    (hregular : ∀ row ∈ cameras, ∀ reference ∈ row.head?,
      (Matrix.of (reference.projection 1)).det ≠ 0) :
    ∃ table : ProjectionTable ℝ, ofCameras cameras = .ok table ∧
      ∀ stage v, stage < stageCount → v < views → ∃ pose full,
        (do RelativePose.between (← table.view stage v) (← table.view stage 0)) = .ok pose ∧
        (do
          let source ← resizedView cameras views 1 v
          let reference ← resizedView cameras views 1 0
          RelativePose.between source reference) = .ok full ∧
        ∀ b row source reference, cameras[b]? = some row → row[v]? = some source →
          row[0]? = some reference → ∀ x y d : ℝ,
            let s : ℝ := 1 / 2 ^ (stageCount - stage)
            let p := fun r => full.move b r x y d
            let q := fun r => pose.move b r (s * x) (s * y) d
            (∀ r : Fin 3, p r = (Matrix.of (source.projection 1) *
              (Matrix.of (reference.projection 1))⁻¹).mulVec ![x * d, y * d, d, 1] r.castSucc) ∧
            q 0 = s * p 0 ∧ q 1 = s * p 1 ∧ q 2 = p 2 ∧
            (q 2 ≤ frontDepth ↔ p 2 ≤ frontDepth) ∧
            q 0 / q 2 = s * (p 0 / p 2) ∧ q 1 / q 2 = s * (p 1 / p 2) := by
  obtain ⟨table, htable, -, htableViews⟩ :=
    exists_ofCameras rfl (List.length_pos_iff.2 hne) hviews hrows
  have hshows := shows_of_ok htable
  refine ⟨table, htable, fun stage v hstage hv => ?_⟩
  obtain ⟨source, hsource, hfull⟩ := resizedView_ok cameras 1 hv
  obtain ⟨reference, hreference, hfullReference⟩ := resizedView_ok cameras 1 hviews
  obtain ⟨source', hsource', hresized⟩ := resizedView_ok cameras (stageResolution stage) hv
  obtain ⟨reference', hreference', hresizedReference⟩ :=
    resizedView_ok cameras (stageResolution stage) hviews
  obtain ⟨full, pose, hfullPose, hpose, hmove⟩ := RelativePose.between_resized
    (stageResolution_pos stage).ne' hfull.shape_eq hfullReference.shape_eq hresized.shape_eq
    hresizedReference.shape_eq
    (fun b hb => hfullReference.regular hrows hviews hregular hb)
    (fun b hb => hfull.resized hrows hresized hv hb)
    (fun b hb => hfullReference.resized hrows hresizedReference hviews hb)
  refine ⟨pose, full, ?_, ?_, fun b row camera first hrow hcamera hfirst x y d => ?_⟩
  · rw [view_eq hshows hstage, view_eq hshows hstage, htableViews, hsource', hreference', ok_bind,
      ok_bind, hpose]
  · rw [hsource, hreference, ok_bind, ok_bind, hfullPose]
  · obtain ⟨hb, -⟩ := List.getElem?_eq_some_iff.1 hrow
    obtain ⟨hpoint, hcolumn, hrowMove, hdepth⟩ := hmove b x y d hb
    rw [RelativePose.matrix, hfull.matrix_eq b row camera hrow hcamera,
      hfullReference.matrix_eq b row first hrow hfirst] at hpoint
    rw [stageResolution_eq] at hcolumn hrowMove hdepth
    intro s p q
    change q 0 = s * p 0 at hcolumn
    change q 1 = s * p 1 at hrowMove
    change q 2 = p 2 at hdepth
    refine ⟨hpoint, hcolumn, hrowMove, hdepth, by rw [hdepth], ?_, ?_⟩
    · rw [hcolumn, hdepth, mul_div_assoc]
    · rw [hrowMove, hdepth, mul_div_assoc]

end Tables

end ProjectionTable

section Turned

/-- A camera off the origin, with a quarter turn about its axis. -/
def Camera.turned : Camera ℝ where
  intrinsics := ![![1, 0, 1], ![0, 1, -1], ![0, 0, 1]]
  extrinsics := ![![0, -1, 0, 1], ![1, 0, 0, -1], ![0, 0, 1, 1], ![0, 0, 0, 1]]

theorem Camera.projection_turned :
    Matrix.of (turned.projection 1) = !![0, -1, 1, 2; 1, 0, -1, -2; 0, 0, 1, 1; 0, 0, 0, 1] := by
  ext r c
  fin_cases r <;> fin_cases c <;>
    simp [turned, projection, calibration, Transform.mul, Transform.identity] <;> norm_num

theorem Camera.turned_regular : (Matrix.of (turned.projection 1)).det ≠ 0 := by
  rw [projection_turned]
  simp [Matrix.det_succ_row_zero, Fin.sum_univ_succ, Fin.succAbove]

def turnedCameras : List (List (Camera ℝ)) := [[Camera.turned, Camera.plain 1]]

theorem poses_resized_turned :
    ∃ (table : ProjectionTable ℝ) (pose full : RelativePose ℝ),
      ProjectionTable.ofCameras turnedCameras = .ok table ∧
      (Matrix.of (Camera.turned.projection 1)).det ≠ 0 ∧
      (do RelativePose.between (← table.view 0 1) (← table.view 0 0)) = .ok pose ∧
      (do
        let source ← ProjectionTable.resizedView turnedCameras 2 1 1
        let reference ← ProjectionTable.resizedView turnedCameras 2 1 0
        RelativePose.between source reference) = .ok full ∧
      pose.move 0 0 1 2 4 = 1 / 8 * full.move 0 0 8 16 4 ∧
      pose.move 0 1 1 2 4 = 1 / 8 * full.move 0 1 8 16 4 ∧
      pose.move 0 2 1 2 4 = full.move 0 2 8 16 4 := by
  have hrows : ∀ row ∈ turnedCameras, row.length = 2 := by simp [turnedCameras]
  have hregular : ∀ row ∈ turnedCameras, ∀ reference ∈ row.head?,
      (Matrix.of (reference.projection 1)).det ≠ 0 := by
    simpa [turnedCameras] using Camera.turned_regular
  obtain ⟨table, htable, hposes⟩ := ProjectionTable.poses_resized hrows (List.cons_ne_nil _ _)
    Nat.two_pos hregular
  obtain ⟨pose, full, hpose, hfull, hmove⟩ := hposes 0 1 (by decide) Nat.one_lt_two
  obtain ⟨-, hcolumn, hrow, hdepth, -⟩ := hmove 0 _ _ _ rfl rfl rfl 8 16 4
  have hscale : (1 : ℝ) / 2 ^ (stageCount - 0) = 1 / 8 := by norm_num [stageCount]
  have hx : (1 / 8 : ℝ) * 8 = 1 := by norm_num
  have hy : (1 / 8 : ℝ) * 16 = 2 := by norm_num
  rw [hscale, hx, hy] at hcolumn hrow hdepth
  exact ⟨table, pose, full, htable, Camera.turned_regular, hpose, hfull, hcolumn, hrow, hdepth⟩

end Turned

end MultiViewDepth
