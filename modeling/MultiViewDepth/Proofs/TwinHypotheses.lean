import MultiViewDepth.Depth.Hypotheses
import MultiViewDepth.Depth.Lending
import MultiViewDepth.Proofs.Draws
import MultiViewDepth.Proofs.TwinViews

/-!
Hypotheses of depth for twins: drawn, laid around an estimate, or lent by neighbors.
-/
namespace MultiViewDepth

open Tensor Arithmetic RandomSource

def Sampler.ownCount {α δ : Type} (sampler : Sampler δ) (estimate : Option (Tensor α)) : Nat :=
  if estimate.isSome then sampler.count else scatterCount

namespace Twins

variable {p : Twins}

section Choosing

variable {α δ σ σ' : Type} [Scalar α] [Scalar δ] [Precision α δ] [RandomSource σ α]
  [RandomSource σ' α] {height width : Nat}

/-- The draws meant for twins are the same, where batches draw their numbers in row-major order. -/
def DrawsAlike (p : Twins) (height width : Nat) (rng : σ) (rng' : σ') : Prop :=
  ∀ k y x, k < scatterCount → y < height → x < width →
    draw (((p.element * scatterCount + k) * height + y) * width + x) rng =
      (draw (((p.element' * scatterCount + k) * height + y) * width + x) rng' : α)

/-- A scattered hypothesis uses the draw that has its place in the volume. -/
theorem scatter_get (range : DepthRange δ) {batch b k y x : Nat} (rng : σ) (hb : b < batch)
    (hk : k < scatterCount) (hy : y < height) (hx : x < width) :
    (Hypotheses.scatter batch height width range rng).1.get [b, k, y, x] =
      (Hypotheses.scattered range k
        (draw (((b * scatterCount + k) * height + y) * width + x) rng) : α) := by
  have hw := within_four hb hk hy hx
  have hlt : place 0 [batch, scatterCount, height, width] [b, k, y, x] <
      volume [batch, scatterCount, height, width] := place_lt hw
  have hplace : place 0 [batch, scatterCount, height, width] [b, k, y, x] =
      ((b * scatterCount + k) * height + y) * width + x := by simp
  simp only [Hypotheses.scatter]
  rw [get_ofFn hw]
  dsimp only
  rw [take_getD rng hlt, hplace]

theorem scatter_alike (range : DepthRange δ) {rng : σ} {rng' : σ'}
    (h : p.DrawsAlike (α := α) height width rng rng') :
    p.Alike [scatterCount, height, width]
      (Hypotheses.scatter p.size height width range rng).1
      (Hypotheses.scatter p.size' height width range rng').1 where
  shape_left := rfl
  shape_right := rfl
  kind_left := rfl
  kind_right := rfl
  get_eq index hw := by
    obtain ⟨k, y, x, rfl, hk, hy, hx⟩ := hw.exists_three
    rw [scatter_get range rng p.lt hk hy hx, scatter_get range rng' p.lt' hk hy hx,
      h k y x hk hy hx]

/-- The ladder around an estimate reads the estimate of its own element. -/
theorem ladder_alike {estimate estimate' : Tensor α}
    (h : p.Alike [1, height, width] estimate estimate') (range : DepthRange δ) (count : Nat)
    (interval : δ) :
    Both (p.Alike [count, height, width]) (Hypotheses.ladder estimate range count interval)
      (Hypotheses.ladder estimate' range count interval) := by
  simp only [Hypotheses.ladder, h.sizes4.1, h.sizes4.2, ok_bind, if_true]
  refine h.compute _ fun index hw => ?_
  obtain ⟨k, y, x, rfl, -, hy, hx⟩ := hw.exists_three
  dsimp only
  rw [h.get_eq [0, y, x] (within_three (by decide) hy hx)]

/-- A start without an estimate looks at the draws, and a later round at the estimate alone. -/
theorem sampler_alike (sampler : Sampler δ) (range : DepthRange δ)
    {estimate estimate' : Option (Tensor α)} {rng : σ} {rng' : σ'}
    (hestimate : Optionally (p.Alike [1, height, width]) estimate estimate')
    (hdraws : estimate = none → p.DrawsAlike (α := α) height width rng rng') :
    Both (fun r r' => p.Alike [sampler.ownCount estimate, height, width] r.1 r'.1)
      (sampler.hypotheses estimate range p.size height width rng)
      (sampler.hypotheses estimate' range p.size' height width rng') := by
  match estimate, estimate', hestimate with
  | none, none, _ => exact .ok (scatter_alike range (hdraws rfl))
  | some e, some e', h =>
    simp only [Sampler.hypotheses, Sampler.ownCount, Option.isSome_some, if_true]
    split
    next hone => rw [hone]; exact .ok h
    next => exact (ladder_alike h range _ _).bind fun t t' ht => .ok ht

end Choosing

section Lending

variable {hypotheses neighbors height width : Nat} {depth depth' : Tensor ℝ}
  {grid grid' : NeighborGrid ℝ}

theorem concat_pair {α : Type} [Scalar α] (axis : Nat) (t u : Tensor α) :
    concat axis [t, u] = append axis t u := by
  simp only [concat, List.foldlM_cons, List.foldlM_nil]
  cases append axis t u <;> rfl

theorem ofFn_getD {β : Type} {n k : Nat} (f : Fin n → β) (h : k < n) (default : β) :
    (Array.ofFn f).getD k default = f ⟨k, h⟩ := by
  simp [Array.getD_eq_getD_getElem?, h]

/-- Neighbors of the same element are the only ones to lend their depths. -/
theorem lend_alike (h : p.Alike [hypotheses, height, width] depth depth')
    (hgrid : p.GridAlike neighbors height width grid grid') (hhypotheses : 0 < hypotheses)
    (hheight : 0 < height) (hwidth : 0 < width) :
    Both (p.Alike [hypotheses + neighbors, height, width]) (lend depth grid)
      (lend depth' grid') := by
  simp only [lend, h.sizes4.1, h.sizes4.2, ok_bind, hgrid.height_left, hgrid.height_right,
    hgrid.width_left, hgrid.width_right, hgrid.neighbors_left, hgrid.neighbors_right, and_self,
    if_true, concat_pair]
  refine (h.narrow 0 (hypotheses / 2) 1 rfl (by omega)).bind fun middle middle' hmiddle => ?_
  refine (Sampling.sample_alike hmiddle hgrid.points hheight hwidth .border).bind
    fun lent lent' hlent => ?_
  refine (hlent.reshape [neighbors, height, width] (by simp [Nat.mul_assoc])).bind
    fun folded folded' hfolded => ?_
  refine (h.append hfolded).bind fun all all' hall => ?_
  refine hall.compute _ fun index hw => ?_
  obtain ⟨i, y, x, rfl, -, hy, hx⟩ := hw.exists_three
  dsimp only
  rw [ofFn_getD _ (place_lt_three p.lt hy hx), ofFn_getD _ (place_lt_three p.lt' hy hx)]
  simp only [digits_place (within_three p.lt hy hx), digits_place (within_three p.lt' hy hx)]
  congr 3
  exact List.map_congr_left fun j hj =>
    hall.get_eq [j, y, x] (within_three (List.mem_range.1 hj) hy hx)

end Lending

end Twins

end MultiViewDepth
