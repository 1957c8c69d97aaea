import MultiViewDepth.Proofs.Outcome
import MultiViewDepth.Scene

/-!
Tables of projections and scenes are accepted again when they are taken apart.
-/
namespace MultiViewDepth

variable {α δ : Type} [Scalar α] [Scalar δ]

namespace ProjectionTable

omit [Scalar α] in
theorem check_of_shapes {batch views : Nat} {ts : List (Tensor α)}
    (h : ∀ t ∈ ts, t.shape = [batch, views, 4, 4]) : check batch views ts = .ok () := by
  induction ts with
  | nil => rfl
  | cons t ts ih =>
    obtain ⟨ht, hts⟩ := List.forall_mem_cons.1 h
    simp only [check, Tensor.sizes4_eq_ok.2 ht, ok_bind, if_pos ht, ih hts]

omit [Scalar α] in
theorem ofTensors_ok {batch views : Nat} {stages : List (Tensor α)}
    (hlength : stages.length = stageCount) (hshape : ∀ t ∈ stages, t.shape = [batch, views, 4, 4]) :
    ofTensors stages = .ok ⟨batch, views, stages, hlength, hshape⟩ := by
  cases stages with
  | nil => cases hlength
  | cons first rest =>
    have hsizes := Tensor.sizes4_eq_ok.2 (hshape first (by simp))
    simp only [ofTensors, dif_pos hlength, hsizes, ok_bind]
    split
    next failure hcheck => rw [check_of_shapes hshape] at hcheck; cases hcheck
    next => rfl

end ProjectionTable

omit [Scalar α] in
/-- Every scene passes its own checks. -/
theorem Scene.of_parts (scene : Scene α δ) :
    Scene.of scene.images scene.projections scene.range = .ok scene := by
  obtain ⟨batch, views, height, width, images, projections, range, hs, hk, hv, hh, hw, hlh, hlw, hb,
    hpv⟩ := scene
  unfold Scene.of
  split
  next _ _ _ _ _ hs' =>
    obtain ⟨rfl, rfl, rfl, rfl, rfl⟩ : _ ∧ _ ∧ _ ∧ _ ∧ _ := by
      simpa using hs.symm.trans hs'
    have hmod : ¬ (height % 8 ≠ 0 ∨ width % 8 ≠ 0) := by omega
    have hside : ¬ (height < smallestSide ∨ width < smallestSide) := by omega
    have htable : ¬ (projections.batch ≠ batch ∨ projections.views ≠ views) := by omega
    rw [dif_neg (not_not.2 hk), dif_neg (not_not.2 rfl), dif_neg (by omega), dif_neg hmod,
      dif_neg hside, dif_neg htable]
  next hne => exact absurd hs (hne _ _ _ _ _)

end MultiViewDepth
