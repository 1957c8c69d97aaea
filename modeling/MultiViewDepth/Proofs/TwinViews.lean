import MultiViewDepth.Matching.Similarity
import MultiViewDepth.Proofs.TwinSampling

/-!
Sampling points, reprojected features and group similarities of twins.
-/
namespace MultiViewDepth

open Tensor Arithmetic

/-- Every channel of a group is a channel. -/
theorem groupChannel_lt {channels groups g c : Nat} (hmod : channels % groups = 0) (hg : g < groups)
    (hc : c < channels / groups) : g * (channels / groups) + c < channels := by
  have hdiv : groups * (channels / groups) = channels :=
    Nat.mul_div_cancel' (Nat.dvd_of_mod_eq_zero hmod)
  calc g * (channels / groups) + c
      < (g + 1) * (channels / groups) := by rw [Nat.succ_mul]; omega
    _ ≤ groups * (channels / groups) := Nat.mul_le_mul_right _ hg
    _ = channels := hdiv

namespace Twins

/-- Grids of twins read their neighbors at the same points. -/
structure GridAlike {α : Type} [Zero α] (p : Twins) (neighbors height width : Nat)
    (g g' : NeighborGrid α) : Prop where
  points : p.Alike [neighbors * height, width, 2] g.points g'.points
  neighbors_left : g.neighbors = neighbors
  neighbors_right : g'.neighbors = neighbors
  height_left : g.height = height
  height_right : g'.height = height
  width_left : g.width = width
  width_right : g'.width = width

structure PoseAlike {α : Type} [Zero α] (p : Twins) (pose pose' : RelativePose α) : Prop where
  rotation : p.Alike [3, 3] pose.rotation pose'.rotation
  displacement : p.Alike [3, 1] pose.displacement pose'.displacement

variable {p : Twins}

section Grids

variable {α : Type} [Scalar α]

theorem row_lt {r n h : Nat} (hr : r < n * h) : r / h < n ∧ r % h < h := by
  have hh : 0 < h := Nat.pos_of_mul_pos_left (Nat.zero_lt_of_lt hr)
  exact ⟨Nat.div_lt_of_lt_mul (by rwa [Nat.mul_comm]), Nat.mod_lt _ hh⟩

/-- A grid of neighbors is built from the offsets of its own element. -/
theorem build_alike {neighbors height width : Nat} {learned learned' : Tensor α}
    {pattern : Pattern} (h : p.Alike [2 * neighbors, height, width] learned learned')
    (hpattern : pattern.length = neighbors) (hneighbors : 0 < neighbors) :
    Both (p.GridAlike neighbors height width) (NeighborGrid.build learned pattern)
      (NeighborGrid.build learned' pattern) := by
  have hn : ¬ (neighbors = 0 ∨ 2 * neighbors ≠ 2 * neighbors) := by omega
  simp only [NeighborGrid.build, h.sizes4.1, h.sizes4.2, ok_bind, hpattern, hn, if_false]
  refine Both.bind (h.compute [neighbors * height, width, 2] fun index hw => ?_)
    fun points points' hpoints => .ok ⟨hpoints, rfl, rfl, rfl, rfl, rfl, rfl⟩
  obtain ⟨r, x, coordinate, rfl, hr, hx, -⟩ := hw.exists_three
  obtain ⟨hn', hy⟩ := row_lt hr
  dsimp only
  rw [h.get_eq [2 * (r / height), r % height, x] (within_three (by omega) hy hx),
    h.get_eq [2 * (r / height) + 1, r % height, x] (within_three (by omega) hy hx)]

end Grids

section Views

variable {channels hypotheses height width : Nat}

theorem PoseAlike.apply_eq {pose pose' : RelativePose ℝ} (h : p.PoseAlike pose pose') {r : Nat}
    (hr : r < 3) (x y : Nat) (d : ℝ) :
    pose.apply p.element r x y d = pose'.apply p.element' r x y d := by
  simp only [RelativePose.apply]
  rw [h.rotation.get_eq [r, 0] (within_two hr (by decide)),
    h.rotation.get_eq [r, 1] (within_two hr (by decide)),
    h.rotation.get_eq [r, 2] (within_two hr (by decide)),
    h.displacement.get_eq [r, 0] (within_two hr (by decide))]

variable {source source' reference reference' depth depth' : Tensor ℝ}

theorem points_alike
    (hpose : Both p.PoseAlike (RelativePose.between source reference)
      (RelativePose.between source' reference'))
    (hdepth : p.Alike [hypotheses, height, width] depth depth') :
    Both (p.Alike [hypotheses * height, width, 2]) (Reprojection.points source reference depth)
      (Reprojection.points source' reference' depth') := by
  simp only [Reprojection.points, hdepth.sizes4.1, hdepth.sizes4.2, ok_bind]
  refine hpose.bind fun pose pose' h => ?_
  have hl : pose.rotation.size 0 = p.size := by simp [Tensor.size, h.rotation.shape_left]
  have hr : pose'.rotation.size 0 = p.size' := by simp [Tensor.size, h.rotation.shape_right]
  simp only [hl, hr, if_true, hdepth.requireSingleEntries.1, hdepth.requireSingleEntries.2, ok_bind,
    pure_eq_ok]
  refine .ok (alike_ofFn fun index hw => ?_)
  obtain ⟨r, x, coordinate, rfl, hrow, hx, -⟩ := hw.exists_three
  obtain ⟨hk, hy⟩ := row_lt hrow
  dsimp only
  rw [hdepth.get_eq [r / height, r % height, x] (within_three hk hy hx),
    h.apply_eq (by decide), h.apply_eq (by decide), h.apply_eq (by decide)]

/-- Warped features of one element come from its own map, camera and depth. -/
theorem features_alike {features features' : Tensor ℝ}
    (hfeatures : p.Alike [channels, height, width] features features')
    (hpose : Both p.PoseAlike (RelativePose.between source reference)
      (RelativePose.between source' reference'))
    (hdepth : p.Alike [hypotheses, height, width] depth depth') (hheight : 0 < height)
    (hwidth : 0 < width) :
    Both (p.Alike [channels, hypotheses, height, width])
      (Reprojection.features features source reference depth)
      (Reprojection.features features' source' reference' depth') := by
  simp only [Reprojection.features, hfeatures.sizes4.1, hfeatures.sizes4.2, hdepth.sizes4.1,
    hdepth.sizes4.2, ok_bind, and_self, if_true]
  refine (points_alike hpose hdepth).bind fun points points' hpoints => ?_
  refine (Sampling.sample_alike hfeatures hpoints hheight hwidth .zeros).bind fun t t' h => ?_
  exact h.reshape _ (by simp [Nat.mul_assoc])

end Views

section Similarity

variable {α : Type} [Scalar α] {channels groups hypotheses height width : Nat}

theorem groupSimilarity_alike {warped warped' reference reference' : Tensor α}
    (hwarped : p.Alike [channels, hypotheses, height, width] warped warped')
    (hreference : p.Alike [channels, height, width] reference reference') (hgroups : groups ≠ 0)
    (hmod : channels % groups = 0) :
    Both (p.Alike [groups, hypotheses, height, width]) (groupSimilarity warped reference groups)
      (groupSimilarity warped' reference' groups) := by
  have hg : ¬ (groups = 0 ∨ channels % groups ≠ 0) := by simp [hgroups, hmod]
  have hl : warped.kind = reference.kind := hwarped.kind_left.trans hreference.kind_left.symm
  have hr : warped'.kind = reference'.kind := hwarped.kind_right.trans hreference.kind_right.symm
  simp only [groupSimilarity, hwarped.sizes5.1, hwarped.sizes5.2, hreference.sizes4.1,
    hreference.sizes4.2, ok_bind, hg, if_true, if_false, hl, hr, true_or, pure_eq_ok]
  rw [derive₂_of_single hwarped.kind_left, derive₂_of_single hwarped.kind_right]
  refine .ok (alike_ofFn fun index hw => ?_)
  obtain ⟨g, k, y, x, rfl, hg', hk, hy, hx⟩ := hw.exists_four
  refine meanTo_congr fun c hc => ?_
  have hchannel := groupChannel_lt hmod hg' hc
  rw [hwarped.get_eq [g * (channels / groups) + c, k, y, x] (within_four hchannel hk hy hx),
    hreference.get_eq [g * (channels / groups) + c, y, x] (within_three hchannel hy hx)]

end Similarity

end Twins

end MultiViewDepth
