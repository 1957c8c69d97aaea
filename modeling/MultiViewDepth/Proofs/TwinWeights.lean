import MultiViewDepth.Matching.NeighborWeight
import MultiViewDepth.Proofs.TwinLayers
import MultiViewDepth.Proofs.TwinViews

/-!
Neighbor weights of twins.
-/
namespace MultiViewDepth.Twins

open Tensor

variable {p : Twins} {hypotheses neighbors height width : Nat}

section Sampled

variable {grid grid' : NeighborGrid ℝ}

/-- Depth weights compare a pixel with neighbors of its own batch element. -/
theorem ofDepth_alike {depth depth' : Tensor ℝ}
    (h : p.Alike [hypotheses, height, width] depth depth')
    (hgrid : p.GridAlike neighbors height width grid grid') (hheight : 0 < height)
    (hwidth : 0 < width) (range : DepthRange ℝ) (interval : ℝ) :
    Both (p.Alike [hypotheses, neighbors, height, width])
      (NeighborWeight.ofDepth depth grid range interval)
      (NeighborWeight.ofDepth depth' grid' range interval) := by
  simp only [NeighborWeight.ofDepth, h.sizes4.1, h.sizes4.2, ok_bind, hgrid.neighbors_left,
    hgrid.neighbors_right]
  have hinverse := h.map (NeighborWeight.normalizedInverse range)
  refine (Sampling.sample_alike hinverse hgrid.points hheight hwidth .border).bind
    fun read read' hread => ?_
  refine (hread.reshape [hypotheses, neighbors, height, width]
    (by simp [Nat.mul_assoc])).bind fun around around' haround => ?_
  refine (hinverse.unsqueeze 1 (by simp) (by simp)).bind fun center center' hcenter => ?_
  refine (haround.zip hcenter (repeats_set _ 1) (· - ·)).bind fun gap gap' hgap => ?_
  simp only [hgap.kind_left, hgap.kind_right, reduceCtorEq, or_self, if_false]
  exact .ok (hgap.map _)

/-- Feature weights compare a pixel with neighbors of its own batch element. -/
theorem ofFeatures_alike {features features' : Tensor ℝ} {channels groups : Nat} {head : Layer ℝ}
    (h : p.Alike [channels, height, width] features features')
    (hgrid : p.GridAlike neighbors height width grid grid') (hheight : 0 < height)
    (hwidth : 0 < width) (hgroups : groups ≠ 0) (hmod : channels % groups = 0)
    (hhead : Batchwise head [groups, neighbors, height, width] [1, neighbors, height, width]) :
    Both (p.Alike [neighbors, height, width]) (NeighborWeight.ofFeatures head groups features grid)
      (NeighborWeight.ofFeatures head groups features' grid') := by
  have hshare : groups * (channels / groups) = channels :=
    Nat.mul_div_cancel' (Nat.dvd_of_mod_eq_zero hmod)
  have hvolume (n : Nat) : channels * (n * (height * width)) =
      groups * (channels / groups * (n * (height * width))) := by
    rw [← Nat.mul_assoc groups, hshare]
  simp only [NeighborWeight.ofFeatures, h.sizes4.1, h.sizes4.2, ok_bind, hgroups, hmod, if_true,
    if_false, hgrid.neighbors_left, hgrid.neighbors_right]
  refine (Sampling.sample_alike h hgrid.points hheight hwidth .border).bind
    fun read read' hread => ?_
  refine (hread.reshape [groups, channels / groups, neighbors, height, width]
    (by simpa [Nat.mul_assoc] using hvolume neighbors)).bind fun around around' haround => ?_
  refine (h.reshape [groups, channels / groups, 1, height, width]
    (by simpa using hvolume 1)).bind fun center center' hcenter => ?_
  refine (haround.zip hcenter (repeats_set _ 2) (· * ·)).bind fun product product' hproduct => ?_
  refine (hproduct.mean 1 rfl).bind fun mean mean' hmean => ?_
  refine (hmean.squeeze 1 rfl (by simp)).bind fun similarity similarity' hs => ?_
  refine (hhead p _ _ hs).bind fun rated rated' hrated => ?_
  exact hrated.squeeze 0 rfl (by simp)

end Sampled

theorem combine_alike {α : Type} [Scalar α] {ofDepth ofDepth' ofFeatures ofFeatures' : Tensor α}
    (hdepth : p.Alike [hypotheses, neighbors, height, width] ofDepth ofDepth')
    (hfeatures : p.Alike [neighbors, height, width] ofFeatures ofFeatures') :
    Both (p.Alike [hypotheses, neighbors, height, width])
      (NeighborWeight.combine ofDepth ofFeatures)
      (NeighborWeight.combine ofDepth' ofFeatures') := by
  unfold NeighborWeight.combine
  refine (hfeatures.unsqueeze 0 (by simp) (by simp)).bind fun shared shared' hshared => ?_
  refine (hdepth.zip hshared (repeats_set _ 0) (· * ·)).bind fun weight weight' hweight => ?_
  refine (hweight.sum 1 rfl).bind fun total total' htotal => ?_
  exact hweight.zip (htotal.atLeast weightFloor) (repeats_set _ 1) (· / ·)

end MultiViewDepth.Twins
