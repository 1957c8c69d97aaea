import MultiViewDepth.Proofs.VariedScenes
import MultiViewDepth.Proofs.HypothesisOrder
import MultiViewDepth.Proofs.SingleArrays

/-!
The depths that are drawn without an estimate are a stratified sample.

The inverse range is cut into `scatterCount` equal bins, and at every pixel one depth is drawn in
each of them.
-/
namespace MultiViewDepth

open Tensor Arithmetic RandomSource

namespace DepthRange

variable {range : DepthRange ℝ}

theorem inverseSpan_pos (range : DepthRange ℝ) : 0 < range.inverseSpan :=
  sub_pos.2 (one_div_lt_one_div_of_lt range.near_pos range.near_lt_far)

/-- Part `j` of the inverse range, with its lower end and without its upper end. -/
def bin (range : DepthRange ℝ) (j : Nat) : Set ℝ :=
  Set.Ico (1 / range.far + j * ((1 / range.near - 1 / range.far) / scatterCount))
    (1 / range.far + (j + 1) * ((1 / range.near - 1 / range.far) / scatterCount))

noncomputable def inBin (range : DepthRange ℝ) (k : Nat) (u : ℝ) : ℝ :=
  1 / range.far + (k + u) * (1 / range.near - 1 / range.far) / scatterCount

theorem binWidth_pos (range : DepthRange ℝ) :
    0 < (1 / range.near - 1 / range.far) / (scatterCount : ℝ) :=
  div_pos range.inverseSpan_pos (by norm_num [scatterCount])

theorem inBin_strictMono {i j : Nat} {u v : ℝ} (h : (i : ℝ) + u < j + v) :
    range.inBin i u < range.inBin j v := by
  rw [inBin, inBin, mul_div_assoc, mul_div_assoc]
  have := range.binWidth_pos
  gcongr

/-- Bins do not overlap: a fraction of one bin lies in no other. -/
theorem inBin_mem_bin {j k : Nat} {u : ℝ} (hu : u ∈ Set.Ico (0 : ℝ) 1) :
    range.inBin k u ∈ range.bin j ↔ k = j := by
  have hwidth := range.binWidth_pos
  rw [inBin, bin, Set.mem_Ico, mul_div_assoc, add_le_add_iff_left, add_lt_add_iff_left,
    mul_le_mul_iff_left₀ hwidth, mul_lt_mul_iff_left₀ hwidth]
  constructor
  · rintro ⟨hle, hlt⟩
    have hj : (j : ℝ) < (k + 1 : Nat) := by push_cast; linarith [hu.2]
    have hk : (k : ℝ) < (j + 1 : Nat) := by push_cast; linarith [hu.1]
    have hj' : j < k + 1 := by exact_mod_cast hj
    have hk' : k < j + 1 := by exact_mod_cast hk
    omega
  · rintro rfl
    exact ⟨by linarith [hu.1], by linarith [hu.2]⟩

/-- The bins fill the inverse range but for its upper end. -/
theorem inBin_mem {k : Nat} {u : ℝ} (hk : k < scatterCount) (hu : u ∈ Set.Ico (0 : ℝ) 1) :
    range.inBin k u ∈ Set.Ico (1 / range.far) (1 / range.near) := by
  have hwidth := range.binWidth_pos
  have hcount : (0 : ℝ) < scatterCount := by norm_num [scatterCount]
  have hlast : (k : ℝ) + u < scatterCount := by
    have hk' : (k : ℝ) + 1 ≤ scatterCount := by exact_mod_cast hk
    linarith [hu.2]
  rw [inBin, mul_div_assoc]
  constructor
  · have hfirst : 0 ≤ (k : ℝ) + u := add_nonneg k.cast_nonneg hu.1
    linarith [mul_nonneg hfirst hwidth.le]
  · have hend := mul_lt_mul_of_pos_right hlast hwidth
    rw [mul_div_cancel₀ _ hcount.ne'] at hend
    linarith

end DepthRange

namespace Hypotheses

variable {range : DepthRange ℝ}

theorem one_div_scattered (k : Nat) (u : ℝ) : 1 / scattered range k u = range.inBin k u := by
  simp only [scattered, Scalar.recip, affine_real, narrow_real, one_div_one_div, DepthRange.inBin]
  rw [DepthRange.inverseSpan, add_comm, add_comm u, ← mul_div_assoc]
  rfl

/-- One depth of a pixel in each bin, from the farthest to the nearest. -/
structure Stratified (range : DepthRange ℝ) (draws depths : Nat → ℝ) : Prop where
  inverse : ∀ k < 48, 1 / depths k =
    1 / range.far + (k + draws k) * (1 / range.near - 1 / range.far) / 48
  one_each : ∀ j < 48, ∃! k, k < 48 ∧ 1 / depths k ∈ range.bin j
  descends : ∀ i j, i < j → j < 48 → depths j < depths i
  mem : ∀ k < 48, depths k ∈ Set.Ioc range.near range.far

theorem stratified_of_inBin {draws depths : Nat → ℝ}
    (hdraws : ∀ k < scatterCount, draws k ∈ Set.Ico (0 : ℝ) 1)
    (hdepths : ∀ k < scatterCount, 1 / depths k = range.inBin k (draws k)) :
    Stratified range draws depths := by
  have hmem (k : Nat) (hk : k < scatterCount) := range.inBin_mem hk (hdraws k hk)
  have hpos (k : Nat) (hk : k < scatterCount) : 0 < depths k := by
    rw [← one_div_pos, hdepths k hk]
    exact (one_div_pos.2 range.far_pos).trans_le (hmem k hk).1
  constructor
  · exact hdepths
  · intro j hj
    refine ⟨j, ⟨hj, ?_⟩, ?_⟩
    · rw [hdepths j hj, DepthRange.inBin_mem_bin (hdraws j hj)]
    · rintro k ⟨hk, hbin⟩
      rwa [hdepths k hk, DepthRange.inBin_mem_bin (hdraws k hk)] at hbin
  · intro i j hij hj
    have hi : i < scatterCount := hij.trans hj
    have hnext : (i : ℝ) + 1 ≤ j := by exact_mod_cast hij
    rw [← one_div_lt_one_div (hpos i hi) (hpos j hj), hdepths i hi, hdepths j hj]
    exact DepthRange.inBin_strictMono (by linarith [(hdraws i hi).2, (hdraws j hj).1])
  · intro k hk
    obtain ⟨hge, hlt⟩ := hmem k hk
    rw [← hdepths k hk] at hge hlt
    exact ⟨(one_div_lt_one_div (hpos k hk) range.near_pos).1 hlt,
      (one_div_le_one_div range.far_pos (hpos k hk)).1 hge⟩

variable {ρ : Type} [RandomSource ρ ℝ]

/-- Without an estimate, every pixel tries one depth in each of the 48 bins. -/
theorem scatter_stratified (batch height width : Nat) (range : DepthRange ℝ) (rng : ρ)
    (hdraws : ∀ n < volume [batch, 48, height, width], draw n rng ∈ Set.Ico (0 : ℝ) 1) :
    let t : Tensor ℝ := (scatter batch height width range rng).1
    t.IsSingle [batch, 48, height, width] ∧
      ∀ b y x, b < batch → y < height → x < width →
        Stratified range (fun k => draw (((b * 48 + k) * height + y) * width + x) rng)
          fun k => t.get [b, k, y, x] := by
  intro t
  refine ⟨⟨rfl, rfl⟩, fun b y x hb hy hx => ?_⟩
  refine stratified_of_inBin (fun k hk => hdraws _ ?_) fun k hk => ?_
  · have hplace := place_lt (within_four hb (show k < 48 from hk) hy hx)
    simpa only [place_cons, place_nil, Nat.zero_mul, Nat.zero_add] using hplace
  · rw [Twins.scatter_get range rng hb hk hy hx, one_div_scattered]
    rfl

/-- Two elements of 2 × 3 pixels: the depth in bin 5 of pixel (0, 2) of the second one comes from
draw number 320. -/
theorem scatter_stratified_varied :
    let t : Tensor ℝ := (scatter 2 2 3 unitRange Tape.varied).1
    (∀ n < volume [2, 48, 2, 3], draw n Tape.varied ∈ Set.Ico (0 : ℝ) 1) ∧
      t.IsSingle [2, 48, 2, 3] ∧
      (∀ b y x, b < 2 → y < 2 → x < 3 →
        Stratified unitRange (fun k => draw (((b * 48 + k) * 2 + y) * 3 + x) Tape.varied)
          fun k => t.get [b, k, y, x]) ∧
      1 / t.get [1, 5, 0, 2] = 1 / 2 + (5 + 320 / 321) / 96 := by
  intro t
  have hdraws : ∀ n < volume [2, 48, 2, 3], draw n Tape.varied ∈ Set.Ico (0 : ℝ) 1 :=
    fun n _ => Tape.draw_varied n
  obtain ⟨hsingle, hstratified⟩ := scatter_stratified 2 2 3 unitRange Tape.varied hdraws
  refine ⟨hdraws, hsingle, hstratified, ?_⟩
  have hinverse := (hstratified 1 0 2 (by decide) (by decide) (by decide)).inverse 5 (by decide)
  rw [Tape.draw_eq] at hinverse
  refine hinverse.trans ?_
  norm_num [unitRange, Tape.varied]

end Hypotheses

end MultiViewDepth
