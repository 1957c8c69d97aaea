import MultiViewDepth.Proofs.SamplingBounds
import MultiViewDepth.Proofs.TwinHypotheses

/-!
Every depth that is tried lies in the range of the scene, however it was chosen.
-/
namespace MultiViewDepth

open Tensor Arithmetic RandomSource

namespace Hypotheses

variable {range : DepthRange ℝ}

/-- A draw in the unit interval scatters to a depth in the range. -/
theorem scattered_mem {k : Nat} (hk : k < scatterCount) {u : ℝ} (hu : u ∈ Set.Ico (0 : ℝ) 1) :
    (scattered range k u : ℝ) ∈ Set.Icc range.near range.far := by
  refine DepthRange.recip_mem_of_inverse ?_
  have hspan : 0 ≤ range.inverseSpan := sub_nonneg.2 range.inverseFar_le_inverseNear
  have hk' : (k : ℝ) + 1 ≤ (scatterCount : Nat) := by exact_mod_cast hk
  have hpos : (0 : ℝ) < (scatterCount : Nat) := by norm_num [scatterCount]
  -- the bins together fill the inverse range
  have hbin : (u + k) * (range.inverseSpan / (scatterCount : Nat)) ≤ range.inverseSpan := by
    rw [← mul_div_assoc, div_le_iff₀ hpos, mul_comm]
    exact mul_le_mul_of_nonneg_left (by linarith [hu.2]) hspan
  have hnonneg : 0 ≤ (u + k) * (range.inverseSpan / (scatterCount : Nat)) :=
    mul_nonneg (add_nonneg hu.1 k.cast_nonneg) (div_nonneg hspan hpos.le)
  rw [affine_real]
  simp only [narrow_real]
  constructor
  · linarith
  · rw [DepthRange.inverseSpan] at hbin
    rw [DepthRange.inverseSpan]
    linarith

variable {ρ : Type} [RandomSource ρ ℝ] {rng : ρ}

theorem scatter_between (batch height width : Nat) (hdraws : ∀ n, draw n rng ∈ Set.Ico (0 : ℝ) 1) :
    (scatter batch height width range rng).1.Between range.near range.far where
  kind_single := rfl
  mem index hw := by
    obtain ⟨b, k, y, x, rfl, hb, hk, hy, hx⟩ := hw.exists_four
    rw [Twins.scatter_get range rng hb hk hy hx]
    exact scattered_mem hk (hdraws _)

/-- A ladder is clamped into the range. -/
theorem ladder_between {estimate t : Tensor ℝ} {count : Nat} {interval : ℝ}
    (hkind : estimate.kind = .single) (ht : ladder estimate range count interval = .ok t) :
    t.Between range.near range.far := by
  simp only [ladder, bind_eq_ok, throw_eq_error, error_bind, ite_error_eq_ok] at ht
  obtain ⟨⟨batch, channels, height, width⟩, -, -, ht⟩ := ht
  refine (between_compute hkind ht fun index hw => ?_).2
  obtain ⟨b, k, y, x, rfl, hb, hk, hy, hx⟩ := hw.exists_four
  exact DepthRange.recip_mem_of_inverse (clamp_mem range.inverseFar_le_inverseNear _)

end Hypotheses

section Sampling

variable {range : DepthRange ℝ} {ρ : Type} [RandomSource ρ ℝ] {rng : ρ}
  {estimate : Option (Tensor ℝ)}

/-- Only a start without an estimate looks at the draws. -/
theorem Sampler.hypotheses_between {sampler : Sampler ℝ} {batch height width : Nat}
    {r : Tensor ℝ × ρ} (hestimate : ∀ t ∈ estimate, t.Between range.near range.far)
    (hdraws : estimate = none → ∀ n, draw n rng ∈ Set.Ico (0 : ℝ) 1)
    (hr : sampler.hypotheses estimate range batch height width rng = .ok r) :
    r.1.Between range.near range.far := by
  cases estimate with
  | none =>
    cases hr
    exact Hypotheses.scatter_between batch height width (hdraws rfl)
  | some t =>
    have ht := hestimate t rfl
    simp only [Sampler.hypotheses] at hr
    split at hr
    · cases hr
      exact ht
    · obtain ⟨u, hu, hr⟩ := bind_eq_ok.1 hr
      cases hr
      exact Hypotheses.ladder_between ht.kind_single hu

/-- Sorting moves entries and makes none. -/
theorem sortAscending_getD_mem {xs : List ℝ} {i : Nat} (hi : i < xs.length) :
    (sortAscending xs).toArray.getD i 0 ∈ xs := by
  have hperm := sortAscending_perm xs
  have hlt : i < (sortAscending xs).length := hperm.length_eq ▸ hi
  rw [Array.getD_eq_getD_getElem?, List.getElem?_toArray, List.getElem?_eq_getElem hlt,
    Option.getD_some]
  exact hperm.mem_iff.1 (List.getElem_mem hlt)

/-- Reads between neighbors stay between the smallest and the largest depth that are read. -/
theorem lend_between {lo hi : ℝ} {depth u : Tensor ℝ} {grid : NeighborGrid ℝ}
    (h : depth.Between lo hi) (hu : lend depth grid = .ok u) : u.Between lo hi := by
  simp only [lend, bind_eq_ok, throw_eq_error, error_bind, ite_error_eq_ok,
    Twins.concat_pair] at hu
  obtain ⟨⟨batch, hypotheses, height, width⟩, hsizes, -, middle, hmiddle, sampled, hsampled, lent,
    hlent, all, hall, hu⟩ := hu
  dsimp only at hlent hu
  obtain ⟨hshape, hlent⟩ := (Sampling.sample_between (h.narrow hmiddle).2 hsampled).reshape hlent
  obtain ⟨hs, hall⟩ := h.append hlent (sizes4_eq_ok.1 hsizes) hshape hall
  refine (between_compute hall.kind_single hu fun index hw => ?_).2
  obtain ⟨b, i, y, x, rfl, hb, hi, hy, hx⟩ := hw.exists_four
  dsimp only
  rw [Twins.ofFn_getD _ (place_lt_three hb hy hx)]
  simp only [digits_place (within_three hb hy hx)]
  have hlength : i < ((List.range (hypotheses + grid.neighbors)).map
      fun j => all.get [b, j, y, x]).length := by simpa using hi
  obtain ⟨j, hj, heq⟩ := List.mem_map.1 (sortAscending_getD_mem hlength)
  rw [← heq]
  exact hall.mem _ (hs ▸ within_four hb (List.mem_range.1 hj) hy hx)

end Sampling

end MultiViewDepth
