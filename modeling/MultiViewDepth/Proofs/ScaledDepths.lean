import MultiViewDepth.Proofs.HypothesisOrder
import MultiViewDepth.Proofs.Scaling
import MultiViewDepth.Refiner
import MultiViewDepth.Stage

/-!
Depths in another unit.

Bounds, hypotheses and estimates of depth scale together, and inverse depths the other way round.
What is normalized by the range stays the same.
-/
namespace MultiViewDepth

open Tensor Arithmetic Scalar RandomSource

variable {c : ℝ} (hc : 0 < c)

namespace DepthRange

noncomputable def scaled (range : DepthRange ℝ) : DepthRange ℝ where
  near := c * range.near
  far := c * range.far
  admissible := by
    refine ⟨rfl, rfl, not_le.2 (mul_pos hc range.near_pos), not_le.2 ?_⟩
    exact mul_lt_mul_of_pos_left range.near_lt_far hc

variable (range : DepthRange ℝ)

/-- Bounds that are accepted are accepted in every unit. -/
theorem of_scaled : DepthRange.of (c * range.near) (c * range.far) = .ok (range.scaled hc) :=
  of_eq_ok.2 ⟨rfl, rfl⟩

@[simp] theorem near_scaled : (range.scaled hc).near = c * range.near := rfl
@[simp] theorem far_scaled : (range.scaled hc).far = c * range.far := rfl

@[simp] theorem span_scaled : (range.scaled hc).span = c * range.span := (mul_sub _ _ _).symm

@[simp] theorem inverseNear_scaled : (range.scaled hc).inverseNear = c⁻¹ * range.inverseNear :=
  recip_mul c range.near

@[simp] theorem inverseFar_scaled : (range.scaled hc).inverseFar = c⁻¹ * range.inverseFar :=
  recip_mul c range.far

@[simp] theorem inverseSpan_scaled : (range.scaled hc).inverseSpan = c⁻¹ * range.inverseSpan := by
  rw [inverseSpan, inverseNear_scaled, inverseFar_scaled, ← mul_sub]
  rfl

end DepthRange

section Choosing

variable (range : DepthRange ℝ)

theorem recip_inv_mul (c x : ℝ) : recip (c⁻¹ * x) = c * recip x := by
  rw [recip_mul, inv_inv]

theorem scattered_scaled (k : Nat) (u : ℝ) :
    (Hypotheses.scattered (range.scaled hc) k u : ℝ) = c * Hypotheses.scattered range k u := by
  simp only [Hypotheses.scattered, narrow_real, affine_real, DepthRange.inverseFar_scaled,
    DepthRange.inverseSpan_scaled]
  rw [← recip_inv_mul]
  congr 1
  ring

/-- A rung scales with its range and its middle, clamped or not. -/
theorem rung_scaled (count : Nat) (interval : ℝ) (k : Nat) (d : ℝ) :
    Hypotheses.rung (range.scaled hc) count interval k (c * d) =
      c * Hypotheses.rung range count interval k d := by
  have hstep : (recip (c * d) +
      affine (c⁻¹ * range.inverseSpan * interval) 0 (Hypotheses.rungNumber count k) : ℝ) =
      c⁻¹ * (recip d + affine (range.inverseSpan * interval) 0
        (Hypotheses.rungNumber count k)) := by
    rw [recip_mul, affine_real, affine_real]
    ring
  simp only [Hypotheses.rung, narrow_real, DepthRange.inverseFar_scaled,
    DepthRange.inverseNear_scaled, DepthRange.inverseSpan_scaled]
  rw [hstep, clamp_mul (inv_nonneg.2 hc.le), recip_inv_mul]

variable {ρ : Type} [RandomSource ρ ℝ]

/-- Scattered hypotheses scale with the range and use the same draws. -/
theorem scatter_scaled (batch height width : Nat) (rng : ρ) :
    Hypotheses.scatter batch height width (range.scaled hc) rng =
      Prod.map (Tensor.scaled c) id (Hypotheses.scatter batch height width range rng) := by
  simp only [Hypotheses.scatter]
  refine congrArg (·, _) (ofFn_scaled fun index hw => ?_)
  obtain ⟨b, k, y, x, rfl, -⟩ := hw.exists_four
  exact scattered_scaled hc range k _

theorem ladder_scaled (estimate : Tensor ℝ) (count : Nat) (interval : ℝ) :
    Hypotheses.ladder (estimate.scaled c) (range.scaled hc) count interval =
      Tensor.scaled c <$> Hypotheses.ladder estimate range count interval := by
  simp only [Hypotheses.ladder, sizes4_scaled]
  refine bind_congr_map ?_
  rintro ⟨batch, channels, height, width⟩
  by_cases hone : channels = 1
  · simp only [if_pos hone]
    refine compute_scaled fun index hw => ?_
    obtain ⟨b, k, y, x, rfl, -⟩ := hw.exists_four
    dsimp only
    rw [get_scaled, rung_scaled]
  · simp only [if_neg hone]
    rfl

theorem Sampler.hypotheses_scaled (sampler : Sampler ℝ) (estimate : Option (Tensor ℝ))
    (batch height width : Nat) (rng : ρ) :
    sampler.hypotheses (estimate.map (Tensor.scaled c)) (range.scaled hc) batch height width rng =
      Prod.map (Tensor.scaled c) id <$>
        sampler.hypotheses estimate range batch height width rng := by
  cases estimate with
  | none => exact congrArg Except.ok (scatter_scaled hc range batch height width rng)
  | some estimate =>
    simp only [Sampler.hypotheses, Option.map_some]
    by_cases hone : sampler.count = 1
    · rw [if_pos hone, if_pos hone]
      rfl
    · rw [if_neg hone, if_neg hone]
      exact bind_map_congr (ladder_scaled hc range estimate _ _) fun _ => rfl

end Choosing

section Lending

include hc in
theorem insertDescending_mul (x : ℝ) (xs : List ℝ) :
    insertDescending (c * x) (xs.map (c * ·)) = (insertDescending x xs).map (c * ·) := by
  induction xs with
  | nil => rfl
  | cons y ys ih =>
    by_cases hxy : x < y
    · simp [insertDescending, hxy, hc, ih]
    · simp [insertDescending, hxy, hc]

include hc in
/-- A positive factor keeps the order. -/
theorem sortAscending_mul (xs : List ℝ) :
    sortAscending (xs.map (c * ·)) = (sortAscending xs).map (c * ·) := by
  have hfold : ∀ sorted : List ℝ,
      (xs.map (c * ·)).foldl (fun sorted x => insertDescending x sorted) (sorted.map (c * ·)) =
        (xs.foldl (fun sorted x => insertDescending x sorted) sorted).map (c * ·) := by
    induction xs with
    | nil => exact fun _ => rfl
    | cons x xs ih =>
      intro sorted
      rw [List.map_cons, List.foldl_cons, List.foldl_cons, insertDescending_mul hc, ih]
  have hall := hfold []
  rw [List.map_nil] at hall
  rw [sortAscending, sortAscending, hall, List.map_reverse]

include hc in
/-- Sorting commutes with a positive factor. -/
theorem sortAscending_getD_mul (xs : List ℝ) (i : Nat) :
    (sortAscending (xs.map (c * ·))).toArray.getD i 0 =
      c * (sortAscending xs).toArray.getD i 0 := by
  rw [sortAscending_mul hc, Array.getD_eq_getD_getElem?, Array.getD_eq_getD_getElem?,
    List.getElem?_toArray, List.getElem?_toArray, List.getElem?_map]
  cases (sortAscending xs)[i]? with
  | none => exact (mul_zero c).symm
  | some x => rfl

include hc in
/-- Lent hypotheses scale with the depths that lend them. -/
theorem lend_scaled (depth : Tensor ℝ) (grid : NeighborGrid ℝ) :
    lend (depth.scaled c) grid = Tensor.scaled c <$> lend depth grid := by
  simp only [lend, sizes4_scaled, Twins.concat_pair]
  refine bind_congr_map ?_
  rintro ⟨batch, hypotheses, height, width⟩
  by_cases hsides : grid.height = height ∧ grid.width = width
  · simp only [if_pos hsides]
    refine bind_map_congr (narrow_scaled c depth _ _ _) fun middle => ?_
    refine bind_map_congr (Sampling.sample_scaled c middle _ _) fun sampled => ?_
    refine bind_map_congr (reshape_scaled c sampled _) fun lent => ?_
    refine bind_map_congr (append_scaled c 1 depth lent) fun all => ?_
    refine compute_scaled fun index hw => ?_
    obtain ⟨b, i, y, x, rfl, hb, -, hy, hx⟩ := hw.exists_four
    dsimp only
    rw [Twins.ofFn_getD _ (place_lt_three hb hy hx), Twins.ofFn_getD _ (place_lt_three hb hy hx)]
    simp only [digits_place (within_three hb hy hx), get_scaled]
    rw [← sortAscending_getD_mul hc, List.map_map]
    rfl
  · simp only [if_neg hsides]
    rfl

end Lending

section Weights

variable (range : DepthRange ℝ)

theorem normalizedInverse_scaled (d : ℝ) :
    NeighborWeight.normalizedInverse (range.scaled hc) (c * d) =
      NeighborWeight.normalizedInverse range d := by
  simp only [NeighborWeight.normalizedInverse, narrow_real, affine_real, recip_mul,
    DepthRange.inverseFar_scaled, DepthRange.inverseSpan_scaled]
  have hinv : c⁻¹ ≠ 0 := inv_ne_zero hc.ne'
  rw [← mul_neg, mul_div_mul_left _ _ hinv, one_div, one_div, mul_inv, mul_comm c⁻¹ (recip d),
    mul_assoc, mul_inv_cancel_left₀ hinv]

/-- Depth weights compare positions in the range, which have no unit. -/
theorem ofDepth_scaled (depth : Tensor ℝ) (grid : NeighborGrid ℝ) (interval : ℝ) :
    NeighborWeight.ofDepth (depth.scaled c) grid (range.scaled hc) interval =
      NeighborWeight.ofDepth depth grid range interval := by
  simp only [NeighborWeight.ofDepth, sizes4_scaled, map_scaled (normalizedInverse_scaled hc range)]

end Weights

section Readouts

theorem mul_scaled (c : ℝ) (s t : Tensor ℝ) :
    zipSame (· * ·) (s.scaled c) t = Tensor.scaled c <$> zipSame (· * ·) s t := by
  have h := zipSame_scaled (· * ·) (s := s) (t := t) fun x y => 
    show (c * x) * (1 * y) = c * (x * y) by rw [one_mul, mul_assoc]
  rwa [scaled_one] at h

theorem add_scaled (c : ℝ) (s t : Tensor ℝ) :
    zipSame (· + ·) (s.scaled c) (t.scaled c) = Tensor.scaled c <$> zipSame (· + ·) s t :=
  zipSame_scaled (· + ·) fun x y => (mul_add c x y).symm

theorem sub_scaled (c : ℝ) (s t : Tensor ℝ) :
    zipSame (· - ·) (s.scaled c) (t.scaled c) = Tensor.scaled c <$> zipSame (· - ·) s t :=
  zipSame_scaled (· - ·) fun x y => (mul_sub c x y).symm

theorem meanDepth_scaled (c : ℝ) (depth score : Tensor ℝ) :
    Readout.meanDepth (depth.scaled c) score = Tensor.scaled c <$> Readout.meanDepth depth score :=
  bind_map_congr (mul_scaled c depth score) fun product => sum_scaled c product 1

theorem betweenEnds_scaled (c : ℝ) (depth score : Tensor ℝ) :
    Readout.betweenEnds (depth.scaled c) score =
      Tensor.scaled c <$> Readout.betweenEnds depth score := by
  simp only [Readout.betweenEnds, sizes4_scaled]
  refine bind_congr_map ?_
  rintro ⟨batch, count, height, width⟩
  by_cases hone : count = 1
  · simp only [if_pos hone]
    rfl
  · simp only [if_neg hone]
    refine bind_congr_map fun weighted => bind_congr_map fun number => ?_
    refine bind_map_congr (narrow_scaled c depth _ _ _) fun first => ?_
    refine bind_map_congr (narrow_scaled c depth _ _ _) fun last => ?_
    -- the ends are placed at inverse depths, which scale the other way round
    rw [map_scaled_eq (recip_mul c), map_scaled_eq (recip_mul c)]
    refine bind_map_congr (sub_scaled _ _ _) fun gap => ?_
    refine bind_map_congr (mul_scaled _ gap _) fun step => ?_
    refine bind_map_congr (add_scaled _ _ step) fun inverse => ?_
    exact congrArg Except.ok (map_scaled_eq (recip_inv_mul c) inverse)

theorem Readout.depth_scaled (readout : Readout) (c : ℝ) (depth score : Tensor ℝ) :
    readout.depth (depth.scaled c) score = Tensor.scaled c <$> readout.depth depth score := by
  cases readout with
  | expectation => exact meanDepth_scaled c depth score
  | inverseDepth => exact betweenEnds_scaled c depth score

end Readouts

section Refinement

variable (range : DepthRange ℝ)

theorem normalized_scaled (depth : Tensor ℝ) :
    Refiner.normalized (range.scaled hc) (depth.scaled c) = Refiner.normalized range depth := by
  refine map_scaled (fun x => ?_) depth
  simp only [affine_real, narrow_real, DepthRange.near_scaled, DepthRange.span_scaled]
  rw [← mul_neg, mul_div_mul_left _ _ hc.ne', mul_one_div, mul_one_div, mul_div_mul_left _ _ hc.ne']

/-- The refinement works on normalized depth, so its output scales with the range. -/
theorem refine_scaled (refiner : Refiner ℝ) (image depth : Tensor ℝ) :
    refiner.refine image (depth.scaled c) (range.scaled hc) =
      Tensor.scaled c <$> refiner.refine image depth range := by
  simp only [Refiner.refine, sizes4_scaled, normalized_scaled, shape_scaled]
  refine bind_congr_map fun (batch, _, height, width) => ?_
  refine bind_congr_map fun (depthBatch, channels, depthHeight, depthWidth) => ?_
  by_cases hsizes : depthBatch = batch ∧ channels = 1 ∧ 2 * depthHeight = height ∧
      2 * depthWidth = width
  · simp only [if_pos hsizes]
    refine bind_congr_map fun residual => bind_congr_map fun large =>
      bind_congr_map fun refined => ?_
    have hback (x : ℝ) : affine (Precision.narrow (range.scaled hc).span)
        (Precision.narrow (range.scaled hc).near) x =
          c * affine (Precision.narrow range.span) (Precision.narrow range.near) x := by
      simp only [affine_real, narrow_real, DepthRange.near_scaled, DepthRange.span_scaled]
      ring
    rw [Tensor.affine, map_eq_scaled hback]
    exact squeeze_scaled c _ 1
  · rw [if_neg hsizes, if_neg hsizes]
    rfl

end Refinement

end MultiViewDepth
