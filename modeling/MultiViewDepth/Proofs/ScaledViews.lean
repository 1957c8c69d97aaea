import MultiViewDepth.Proofs.ScaledDepths

/-!
The same views before cameras that are described in another unit.

A point keeps its place in every source view when its depth and the displacements scale together.
Only the plane near a camera, behind which nothing is seen, lies at a fixed depth: every point has
to stay on its side of it.
-/
namespace MultiViewDepth

open Tensor Arithmetic

variable {c : ℝ}

namespace RelativePose

noncomputable def scaled (c : ℝ) (pose : RelativePose ℝ) : RelativePose ℝ :=
  ⟨pose.rotation, pose.displacement.scaled c⟩

@[simp] theorem rotation_scaled (c : ℝ) (pose : RelativePose ℝ) :
    (pose.scaled c).rotation = pose.rotation := rfl

theorem apply_scaled (c : ℝ) (pose : RelativePose ℝ) (b r x y : Nat) (d : ℝ) :
    (pose.scaled c).apply b r x y (c * d) = c * pose.apply b r x y d := by
  simp only [apply, scaled, get_scaled]
  ring

/-- Every hypothesis stays on its side of the plane near the camera. -/
def KeepsSides (c : ℝ) (pose : RelativePose ℝ) (depth : Tensor ℝ) : Prop :=
  ∀ b k y x, Within [b, k, y, x] depth.shape →
    (pose.apply b 2 x y (depth.get [b, k, y, x]) ≤ frontDepth ↔
      c * pose.apply b 2 x y (depth.get [b, k, y, x]) ≤ frontDepth)

end RelativePose

namespace Reprojection

variable {source source' reference reference' depth : Tensor ℝ}

/-- A point lands at the same pixel in every unit, unless it changes side of the camera. -/
theorem land_scaled (hc : 0 < c) (height width : Nat) (u v : ℝ) {w : ℝ}
    (hside : w ≤ frontDepth ↔ c * w ≤ frontDepth) :
    land height width (c * u) (c * v) (c * w) = land height width u v w := by
  by_cases hw : w ≤ frontDepth
  · rw [land, land, if_pos hw, if_pos (hside.1 hw)]
  · rw [land, land, if_neg hw, if_neg (mt hside.2 hw), mul_div_mul_left _ _ hc.ne',
      mul_div_mul_left _ _ hc.ne']

theorem points_scaled (hc : 0 < c) (hshape : source'.shape = source.shape)
    (hpose : RelativePose.between source' reference' =
      RelativePose.scaled c <$> RelativePose.between source reference)
    (hsides : ∀ pose, RelativePose.between source reference = .ok pose → pose.KeepsSides c depth) :
    points source' reference' (depth.scaled c) = points source reference depth := by
  simp only [points, sizes4_scaled, hshape, requireSingleEntries_scaled]
  refine bind_congr_ok ?_
  rintro ⟨batch, hypotheses, height, width⟩ hsizes
  refine bind_map_congr_ok hpose fun pose hbetween => ?_
  simp only [RelativePose.rotation_scaled]
  by_cases hbatch : pose.rotation.size 0 = batch
  · simp only [if_pos hbatch]
    refine bind_congr_ok fun _ _ => congrArg Except.ok (ofFn_congr fun index hw => ?_)
    obtain ⟨b, r, x, coordinate, rfl, hb, hr, hx, -⟩ := hw.exists_four
    have hheight : 0 < height := by
      rcases Nat.eq_zero_or_pos height with rfl | hpos
      · simp at hr
      · exact hpos
    have hwithin : Within [b, r / height, r % height, x] depth.shape := by
      rw [sizes4_eq_ok.1 hsizes]
      exact within_four hb ((Nat.div_lt_iff_lt_mul hheight).2 hr) (Nat.mod_lt r hheight) hx
    have hside := hsides pose hbetween _ _ _ _ hwithin
    simp only [get_scaled, RelativePose.apply_scaled, land_scaled hc height width _ _ hside]
  · simp only [if_neg hbatch, throw_eq_error, error_bind]

/-- Warped features have no unit. -/
theorem features_scaled (hc : 0 < c) (features : Tensor ℝ) (hshape : source'.shape = source.shape)
    (hpose : RelativePose.between source' reference' =
      RelativePose.scaled c <$> RelativePose.between source reference)
    (hsides : ∀ pose, RelativePose.between source reference = .ok pose → pose.KeepsSides c depth) :
    Reprojection.features features source' reference' (depth.scaled c) =
      Reprojection.features features source reference depth := by
  simp only [Reprojection.features, sizes4_scaled, shape_scaled,
    points_scaled hc hshape hpose hsides]

end Reprojection

namespace ViewFeatures

/-- The same features, before cameras that are described in another unit. -/
structure Rescaled (c : ℝ) (views views' : ViewFeatures ℝ) : Prop where
  reference_eq : views'.reference = views.reference
  sources_eq : views'.sources = views.sources
  length_eq : views'.sourceProjections.length = views.sourceProjections.length
  poses : ∀ i : Nat, Optionally (fun t t' : Tensor ℝ => t'.shape = t.shape ∧
    RelativePose.between t' views'.referenceProjection =
      RelativePose.scaled c <$> RelativePose.between t views.referenceProjection)
    views.sourceProjections[i]? views'.sourceProjections[i]?

def KeepsSides (c : ℝ) (views : ViewFeatures ℝ) (depth : Tensor ℝ) : Prop :=
  ∀ source ∈ views.sourceProjections, ∀ pose,
    RelativePose.between source views.referenceProjection = .ok pose → pose.KeepsSides c depth

theorem Rescaled.sourceCount_eq {views views' : ViewFeatures ℝ} (h : Rescaled c views views') :
    views'.sourceCount = views.sourceCount := by
  simp only [sourceCount, h.sources_eq, h.length_eq]

end ViewFeatures

noncomputable def Verdict.scaled (c : ℝ) (verdict : Verdict ℝ) : Verdict ℝ :=
  ⟨verdict.depth.scaled c, verdict.score, verdict.viewWeights⟩

section Matching

variable {matcher : Matcher ℝ} {views views' : ViewFeatures ℝ} {depth : Tensor ℝ}

/-- The similarity with one source view has no unit. -/
theorem compare_scaled (hc : 0 < c) (hviews : views.Rescaled c views')
    (hsides : views.KeepsSides c depth) (carried : Option (Tensor ℝ)) (i : Nat) :
    matcher.compare views' (depth.scaled c) carried i = matcher.compare views depth carried i := by
  have hpose := hviews.poses i
  simp only [Matcher.compare, hviews.sources_eq, hviews.reference_eq]
  cases hs : views.sources[i]? with
  | none => rfl
  | some source =>
    generalize ht : views.sourceProjections[i]? = t at hpose ⊢
    generalize views'.sourceProjections[i]? = t' at hpose ⊢
    match t, t', hpose, ht with
    | none, none, _, _ => rfl
    | some t, some t', ⟨hshape, hpose⟩, ht =>
      simp only [Reprojection.features_scaled hc source hshape hpose
        (hsides t (List.mem_of_getElem? ht))]

/-- Scores and weights stay the same, and the depth of the verdict scales. -/
theorem evaluate_scaled [WorkerPool] (hc : 0 < c) (hviews : views.Rescaled c views')
    (hsides : views.KeepsSides c depth) (grid : NeighborGrid ℝ) (weight : Tensor ℝ)
    (carried : Option (Tensor ℝ)) (readout : Readout) :
    matcher.evaluate views' (depth.scaled c) grid weight carried readout =
      Verdict.scaled c <$> matcher.evaluate views depth grid weight carried readout := by
  have hcompare : matcher.compare views' (depth.scaled c) carried =
      matcher.compare views depth carried :=
    funext fun i => compare_scaled hc hviews hsides carried i
  simp only [Matcher.evaluate, hviews.sourceCount_eq, sizes4_scaled, hcompare]
  refine bind_congr_map fun sources => bind_congr_map fun (batch, hypotheses, height, width) => ?_
  refine bind_congr_map fun _ => bind_congr_map fun compared => bind_congr_map fun fused => ?_
  refine bind_congr_map fun score => ?_
  refine bind_map_congr (readout.depth_scaled c depth score) fun regressed => ?_
  cases carried with
  | none => exact bind_congr_map fun _ => rfl
  | some weights => rfl

end Matching

end MultiViewDepth
