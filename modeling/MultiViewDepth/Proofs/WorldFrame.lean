import MultiViewDepth.Proofs.CameraScenes

/-!
No choice of the world frame shows in an estimate.

Only the poses of the source views relative to the reference view enter a run, and these do not
change when all cameras are described in another frame.
-/
namespace MultiViewDepth

open Tensor RandomSource

/-- The camera in world coordinates that `frame` takes to the old ones. -/
noncomputable def Camera.moved (frame : Transform ℝ) (camera : Camera ℝ) : Camera ℝ :=
  { camera with extrinsics := camera.extrinsics.mul frame }

theorem unitChange_one : unitChange 1 = 1 := by
  simp [unitChange]

/-- A camera in a moved frame is the same camera in the same unit. -/
theorem Camera.rescaled_moved (frame : Transform ℝ) (camera : Camera ℝ) :
    camera.Rescaled 1 (Matrix.of frame) (camera.moved frame) := by
  intro scale
  have hcalibration : (camera.moved frame).calibration scale = camera.calibration scale := rfl
  rw [unitChange_one, one_mul, projection, projection, hcalibration, moved, Transform.mul_eq,
    Transform.mul_eq, Transform.mul_eq, Matrix.mul_assoc]

theorem DepthRange.scaled_one (range : DepthRange ℝ) : range.scaled one_pos = range := by
  obtain ⟨near, far, admissible⟩ := range
  simp [DepthRange.scaled]

theorem Reconstruction.scaled_one (r : Reconstruction ℝ) : r.scaled 1 = r := by
  have hone : (Tensor.scaled 1 : Tensor ℝ → Tensor ℝ) = id := funext Tensor.scaled_one
  simp [Reconstruction.scaled, hone]

theorem Estimator.keepsSides_one [WorkerPool] {ρ : Type} [RandomSource ρ ℝ]
    (estimator : Estimator ℝ ℝ)
    (scene : Scene ℝ ℝ) (rng : ρ) : estimator.KeepsSides 1 scene rng := by
  intro pyramids records rng' _ _ i stage record _ _ views _ round _ source _ pose _ b k y x _
  rw [one_mul]

section Estimates

variable {ρ : Type} [RandomSource ρ ℝ] {estimator : Estimator ℝ ℝ}

/-- Cameras that are described in another world frame, the same one for all of them, lead to the
same results, or to the same failure. -/
theorem estimate_moved [WorkerPool] {settings : Settings ℝ} {source : ParameterSource ℝ}
    (hbuild : Estimator.build settings source = .ok estimator) {frame : Transform ℝ}
    (hframe : IsUnit (Matrix.of frame)) (images : Tensor ℝ) (cameras : List (List (Camera ℝ)))
    (range : DepthRange ℝ) (rng : ρ) :
    (do
      let scene ← Scene.ofCameras images (cameras.map (List.map (Camera.moved frame))) range
      estimator.estimate scene rng) = (do
      let scene ← Scene.ofCameras images cameras range
      estimator.estimate scene rng) := by
  obtain ⟨coarse, middle, fine, hs⟩ := Estimator.sound_of_build hbuild
  have hdet : (Matrix.of frame).det ≠ 0 := ((Matrix.isUnit_iff_isUnit_det _).1 hframe).ne_zero
  have h := estimate_ofCameras one_pos images range hs rng hdet
    (fun row _ camera _ => (Camera.rescaled_moved frame camera : camera.Rescaled _ _ _))
    fun scene (_ : Scene.ofCameras images cameras range = .ok scene) =>
      estimator.keepsSides_one scene rng
  have hid : Prod.map (Reconstruction.scaled 1) (id : ρ → ρ) = id :=
    funext fun r => Prod.ext (Reconstruction.scaled_one r.1) rfl
  rwa [DepthRange.scaled_one, hid, id_map] at h

def shiftedFrame : Transform ℝ := fun i j => if i = j ∨ j = 3 then 1 else 0

theorem shiftedFrame_isUnit : IsUnit (Matrix.of shiftedFrame) := by
  rw [Matrix.isUnit_iff_isUnit_det, isUnit_iff_ne_zero, Matrix.det_of_isUpperTriangular]
  · simp [shiftedFrame]
  · intro i j hij
    have hne : ¬ (i = j ∨ j = 3) := by
      rintro (rfl | rfl)
      · exact lt_irrefl _ hij
      · exact absurd hij (Fin.le_last i).not_gt
    exact if_neg hne

attribute [local instance] WorkerPool.inTurn

theorem estimate_moved_plain :
    ∃ (estimator : Estimator ℝ ℝ) (r : Reconstruction ℝ × Tape),
      Estimator.build .default variedSource = .ok estimator ∧ IsUnit (Matrix.of shiftedFrame) ∧
        (do
          let scene ← Scene.ofCameras (Scene.varied 1 0 0 0).images plainCameras unitRange
          estimator.estimate scene Tape.varied) = .ok r ∧
        (do
          let scene ← Scene.ofCameras (Scene.varied 1 0 0 0).images
            (plainCameras.map (List.map (Camera.moved shiftedFrame))) unitRange
          estimator.estimate scene Tape.varied) = .ok r := by
  obtain ⟨estimator, scene, r, hbuild, hscene, -, -, hr⟩ :=
    estimate_plain Settings.validate_default Tape.varied
  have hrun : (do
      let scene ← Scene.ofCameras (Scene.varied 1 0 0 0).images plainCameras unitRange
      estimator.estimate scene Tape.varied) = .ok r := by
    rw [hscene, ok_bind, hr]
  have hmoved := estimate_moved hbuild shiftedFrame_isUnit (Scene.varied 1 0 0 0).images
    plainCameras
    unitRange Tape.varied
  exact ⟨estimator, r, hbuild, shiftedFrame_isUnit, hrun, hmoved.trans hrun⟩

end Estimates

end MultiViewDepth
