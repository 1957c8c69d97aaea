import MultiViewDepth.Proofs.HypothesisBounds
import MultiViewDepth.Proofs.ReadoutBounds

/-!
Hypotheses come in order.

Those that a stage chooses by itself lie at growing inverse depths, so that depth falls along their
axis; where neighbors lend theirs, all are sorted and depth grows.
-/
namespace MultiViewDepth

open Tensor Arithmetic RandomSource

namespace Tensor

/-- At no pixel do the entries fall along the hypothesis axis. -/
def Ascends (t : Tensor ℝ) : Prop :=
  ∀ b i j y x, i ≤ j → Within [b, j, y, x] t.shape → t.get [b, i, y, x] ≤ t.get [b, j, y, x]

def Descends (t : Tensor ℝ) : Prop :=
  ∀ b i j y x, i ≤ j → Within [b, j, y, x] t.shape → t.get [b, j, y, x] ≤ t.get [b, i, y, x]

theorem descends_single {t : Tensor ℝ} {batch height width : Nat}
    (h : t.shape = [batch, 1, height, width]) : t.Descends := by
  intro b i j y x hij hw
  rw [h] at hw
  have hj : j < 1 := hw.2.1
  obtain ⟨rfl, rfl⟩ : i = 0 ∧ j = 0 := by omega
  exact le_rfl

end Tensor

section Choosing

variable {range : DepthRange ℝ}

/-- Depth falls where inverse depth grows. -/
theorem recip_anti {x y : ℝ} (hx : 0 < x) (h : x ≤ y) : Scalar.recip y ≤ Scalar.recip x :=
  one_div_le_one_div_of_le hx h

theorem DepthRange.inverseFar_pos (range : DepthRange ℝ) : 0 < range.inverseFar :=
  one_div_pos.2 range.far_pos

theorem DepthRange.inverseSpan_nonneg (range : DepthRange ℝ) : 0 ≤ range.inverseSpan :=
  sub_nonneg.2 range.inverseFar_le_inverseNear

/-- A number drawn in one bin does not lie beyond one that is drawn in a later bin. -/
theorem bin_le {i j : Nat} (hij : i ≤ j) {u v : ℝ} (hu : u ∈ Set.Ico (0 : ℝ) 1)
    (hv : v ∈ Set.Ico (0 : ℝ) 1) (hsame : i = j → u = v) : u + i ≤ v + j := by
  rcases Nat.eq_or_lt_of_le hij with rfl | hlt
  · rw [hsame rfl]
  · have hnext : (i : ℝ) + 1 ≤ j := by exact_mod_cast hlt
    linarith [hu.2, hv.1]

variable {ρ : Type} [RandomSource ρ ℝ] {rng : ρ}

/-- The bins of the scattered hypotheses descend, so their draws cannot cross. -/
theorem scatter_descends (batch height width : Nat)
    (hdraws : ∀ n, draw n rng ∈ Set.Ico (0 : ℝ) 1) :
    (Hypotheses.scatter batch height width range rng).1.Descends := by
  intro b i j y x hij hw
  obtain ⟨hb, hj, hy, hx, -⟩ := hw
  rw [Twins.scatter_get range rng hb hj hy hx,
    Twins.scatter_get range rng hb (hij.trans_lt hj) hy hx]
  have hnumber := bin_le hij
    (hdraws (((b * scatterCount + i) * height + y) * width + x))
    (hdraws (((b * scatterCount + j) * height + y) * width + x)) (by rintro rfl; rfl)
  have hwidth : 0 ≤ range.inverseSpan / (scatterCount : ℝ) :=
    div_nonneg range.inverseSpan_nonneg (Nat.cast_nonneg _)
  simp only [Hypotheses.scattered, narrow_real, affine_real]
  refine recip_anti ?_ (by gcongr)
  have hfirst : 0 ≤ draw (((b * scatterCount + i) * height + y) * width + x) rng + (i : ℝ) :=
    add_nonneg (hdraws _).1 (Nat.cast_nonneg _)
  have := range.inverseFar_pos
  positivity

/-- A ladder descends for every interval that is not negative, clamped or not. -/
theorem ladder_descends {estimate t : Tensor ℝ} {count : Nat} {interval : ℝ}
    (hinterval : 0 ≤ interval)
    (ht : Hypotheses.ladder estimate range count interval = .ok t) : t.Descends := by
  simp only [Hypotheses.ladder, bind_eq_ok, throw_eq_error, error_bind, ite_error_eq_ok] at ht
  obtain ⟨⟨batch, channels, height, width⟩, -, -, ht⟩ := ht
  obtain ⟨hshape, hget⟩ := compute_eq_ok ht
  intro b i j y x hij hw
  rw [hshape] at hw
  obtain ⟨hb, hj, hy, hx, -⟩ := hw
  rw [hget _ (within_four hb hj hy hx), hget _ (within_four hb (hij.trans_lt hj) hy hx)]
  have hstep : 0 ≤ range.inverseSpan * interval := mul_nonneg range.inverseSpan_nonneg hinterval
  have hcast : (i : ℝ) ≤ j := by exact_mod_cast hij
  simp only [Hypotheses.rung, Hypotheses.rungNumber, narrow_real, affine_real, clamp_real]
  -- the clamped inverse depths grow with the number of the rung, and stay positive
  refine recip_anti (lt_min (lt_max_of_lt_right range.inverseFar_pos) ?_) (by gcongr)
  exact range.inverseFar_pos.trans_le range.inverseFar_le_inverseNear

end Choosing

section Sorting

theorem insertDescending_pairwise (x : ℝ) {xs : List ℝ} (h : xs.Pairwise (· ≥ ·)) :
    (insertDescending x xs).Pairwise (· ≥ ·) := by
  induction xs with
  | nil => simp [insertDescending]
  | cons y ys ih =>
    obtain ⟨hy, hys⟩ := List.pairwise_cons.1 h
    rw [insertDescending]
    by_cases hxy : x < y
    · rw [if_pos hxy]
      refine List.pairwise_cons.2 ⟨fun z hz => ?_, ih hys⟩
      rcases List.mem_cons.1 ((insertDescending_perm x ys).mem_iff.1 hz) with rfl | hz
      · exact hxy.le
      · exact hy z hz
    · rw [if_neg hxy]
      refine List.pairwise_cons.2 ⟨fun z hz => ?_, h⟩
      rcases List.mem_cons.1 hz with rfl | hz
      · exact not_lt.1 hxy
      · exact (hy z hz).trans (not_lt.1 hxy)

/-- The sort leaves a list in ascending order. -/
theorem sortAscending_pairwise (xs : List ℝ) : (sortAscending xs).Pairwise (· ≤ ·) := by
  have hfold : ∀ sorted : List ℝ, sorted.Pairwise (· ≥ ·) →
      (xs.foldl (fun sorted x => insertDescending x sorted) sorted).Pairwise (· ≥ ·) := by
    induction xs with
    | nil => exact fun sorted h => h
    | cons x xs ih => exact fun sorted h => ih _ (insertDescending_pairwise x h)
  exact List.pairwise_reverse.2 (hfold [] .nil)

theorem sortAscending_getD_le {xs : List ℝ} {i j : Nat} (hij : i ≤ j) (hj : j < xs.length) :
    (sortAscending xs).toArray.getD i 0 ≤ (sortAscending xs).toArray.getD j 0 := by
  have hlt : j < (sortAscending xs).length := (sortAscending_perm xs).length_eq ▸ hj
  rw [Array.getD_eq_getD_getElem?, List.getElem?_toArray, List.getElem?_eq_getElem
    (hij.trans_lt hlt), Array.getD_eq_getD_getElem?, List.getElem?_toArray,
    List.getElem?_eq_getElem hlt, Option.getD_some, Option.getD_some]
  rcases Nat.eq_or_lt_of_le hij with rfl | hlt'
  · exact le_rfl
  · exact List.pairwise_iff_getElem.1 (sortAscending_pairwise xs) i j _ _ hlt'

/-- A pixel's own hypotheses and those of its neighbors, in ascending order. -/
theorem lend_ascends {batch count height width : Nat} {depth u : Tensor ℝ} {grid : NeighborGrid ℝ}
    (hshape : depth.shape = [batch, count, height, width]) (hu : lend depth grid = .ok u) :
    u.Ascends := by
  simp only [lend, sizes4_eq_ok.2 hshape, ok_bind, bind_eq_ok, throw_eq_error, error_bind,
    ite_error_eq_ok] at hu
  obtain ⟨-, middle, -, sampled, -, lent, -, all, -, hu⟩ := hu
  obtain ⟨hs, hget⟩ := compute_eq_ok hu
  intro b i j y x hij hw
  rw [hs] at hw
  obtain ⟨hb, hj, hy, hx, -⟩ := hw
  rw [hget _ (within_four hb hj hy hx), hget _ (within_four hb (hij.trans_lt hj) hy hx)]
  dsimp only
  rw [Twins.ofFn_getD _ (place_lt_three hb hy hx)]
  simp only [digits_place (within_three hb hy hx)]
  exact sortAscending_getD_le hij (by simpa using hj)

end Sorting

end MultiViewDepth
