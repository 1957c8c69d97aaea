import MultiViewDepth.Proofs.ConfidenceWindows
import MultiViewDepth.Proofs.ZeroLayers
import Mathlib.Algebra.Order.Floor.Semifield

/-!
Scores that prefer no hypothesis.

A matching cost of zero makes all hypotheses of a pixel equally likely, however much its neighbors
weigh. The confidence of such a score counts the hypotheses around the middle one.
-/
namespace MultiViewDepth

open Tensor Arithmetic

section Costs

variable {batch count height width : Nat} {t u v : Tensor ℝ}

theorem zip_zero (h : t.Between 0 0) (hv : Tensor.zip (· * ·) t u = .ok v) : v.Between 0 0 := by
  refine ⟨(zip_eq_ok hv).1.trans h.kind_single, fun index hw => ?_⟩
  simp only [Tensor.zip] at hv
  split at hv
  next => cases hv
  next shape _ =>
    rw [ite_error_eq_ok] at hv
    obtain ⟨-, hv⟩ := hv
    cases hv
    rw [derive₂_of_single h.kind_single] at hw ⊢
    rw [shape_ofFn] at hw
    rw [get_ofFn hw, h.get_zero, zero_mul]
    exact ⟨le_rfl, le_rfl⟩

theorem sum_zero {axis : Nat} (h : t.Between 0 0) (hu : t.sum axis = .ok u) : u.Between 0 0 := by
  obtain ⟨n, haxis, -⟩ := reduce_eq_ok hu
  rw [Tensor.sum, reduce_of_single h.kind_single haxis] at hu
  cases hu
  refine between_ofFn fun index _ => ?_
  simp [sumTo_real, h.get_zero]

/-- Equal costs make equal probabilities. -/
theorem softmax_zero (h : t.Between 0 0) (hshape : t.shape = [batch, count, height, width])
    (hu : t.softmax 1 = .ok u) : u = constant [batch, count, height, width] (1 / (count : ℝ)) := by
  obtain ⟨hus, huk, -⟩ := softmax_eq_ok hu
  rw [hshape] at hus
  refine ext_get (huk.trans h.kind_single) (kind_constant _ _) hus fun index hw => ?_
  rw [hus] at hw
  rw [constant, get_ofFn hw]
  have hsize : t.size 1 = count := by
    rw [size, hshape]
    rfl
  rw [softmax_get h.kind_single hu (hshape ▸ hw), hsize]
  simp [h.get_zero]

variable {matcher : Matcher ℝ} {similarity weight score : Tensor ℝ} {grid : NeighborGrid ℝ}

theorem score_even {b d y x : Nat} (hhead : Constantly 0 matcher.similarityHead)
    (hscore : matcher.score similarity grid weight b d y x = .ok score)
    (hshape : score.shape = [batch, count, height, width]) :
    score = constant [batch, count, height, width] (1 / (count : ℝ)) := by
  simp only [Matcher.score, bind_eq_ok] at hscore
  obtain ⟨rated, hrated, cost, hcost, read, hread, gathered, hgathered, product, hproduct, summed,
    hsummed, weighted, hweighted, hsoftmax⟩ := hscore
  have hcost : cost.Between 0 0 := (hhead _ _ hrated).squeeze hcost
  have hgathered : gathered.Between 0 0 :=
    ((Sampling.sample_between hcost hread).reshape hgathered).2
  have hweighted : weighted.Between 0 0 :=
    (sum_zero (zip_zero hgathered hproduct) hsummed).squeeze hweighted
  exact softmax_zero hweighted ((softmax_eq_ok hsoftmax).1.symm.trans hshape) hsoftmax

end Costs

section Confidence

open Confidence

/-- Numbers of hypotheses that a pixel without preference adds to its confidence: those from one
before the middle one to two after it. -/
def middleNumbers (count : Nat) : Finset Nat :=
  {k ∈ Finset.range count | count / 2 ≤ k + 1 ∧ k ≤ count / 2 + 2}

variable {batch count height width b y x : Nat}

theorem constant_get (hb : b < batch) {k : Nat} (hk : k < count) (hy : y < height) (hx : x < width)
    (v : ℝ) : (constant [batch, count, height, width] v).get [b, k, y, x] = v :=
  get_ofFn (within_four hb hk hy hx) _

/-- The mean of equally likely numbers is the middle one. -/
theorem meanNumber_even (hcount : 0 < count) (hb : b < batch) (hy : y < height) (hx : x < width) :
    meanNumber count (constant [batch, count, height, width] (1 / (count : ℝ))) b y x =
      count / 2 := by
  have hne : (count : ℝ) ≠ 0 := by exact_mod_cast hcount.ne'
  have hmean : (sumTo count fun k =>
      (constant [batch, count, height, width] (1 / (count : ℝ))).get [b, k, y, x] * (k : ℝ)) =
        ((count - 1 : Nat) : ℝ) / 2 := by
    have hsum : (∑ k ∈ Finset.range count, (k : ℝ)) * 2 = count * ((count - 1 : Nat) : ℝ) := by
      rw [← Nat.cast_mul, ← Finset.sum_range_id_mul_two]
      push_cast
      rfl
    rw [sumTo_congr fun k hk => congrArg (· * (k : ℝ)) (constant_get hb hk hy hx _), sumTo_real,
      ← Finset.mul_sum]
    field_simp
    exact hsum
  have hlast : (0 : ℝ) ≤ ((count - 1 : Nat) : ℝ) := Nat.cast_nonneg _
  have hhalf : ((count - 1 : Nat) : ℝ) / 2 + 1 / 2 = (count : ℝ) / (2 : ℕ) := by
    rw [Nat.cast_pred hcount]
    push_cast
    ring
  rw [meanNumber_of_mean hcount hmean ⟨by linarith, by linarith⟩, hhalf, Nat.floor_div_eq_div]

theorem windowSum_even (hb : b < batch) (hy : y < height) (hx : x < width) :
    windowSum count (constant [batch, count, height, width] (1 / (count : ℝ))) b (count / 2) y x =
      ((middleNumbers count).card : ℝ) / count := by
  have hentry (j : Nat) (hj : j ∈ middleNumbers count) :
      (constant [batch, count, height, width] (1 / (count : ℝ))).get [b, j, y, x] = 1 / count :=
    constant_get hb (Finset.mem_range.1 (Finset.mem_filter.1 hj).1) hy hx _
  rw [windowSum_eq_sum]
  refine (Finset.sum_eq_card_nsmul hentry).trans ?_
  rw [nsmul_eq_mul, mul_one_div]

/-- The confidence of a score without preference is one number everywhere. -/
theorem confidence_even (hcount : 0 < count) (batch height width : Nat) :
    confidence (constant [batch, count, height, width] (1 / (count : ℝ))) =
      .ok (constant [batch, 2 * height, 2 * width] (((middleNumbers count).card : ℝ) / count)) := by
  have hcard : (middleNumbers count).card ≤ count :=
    (Finset.card_filter_le _ _).trans_eq (Finset.card_range count)
  have hshare : ((middleNumbers count).card : ℝ) / count ≤ 1 :=
    div_le_one_of_le₀ (by exact_mod_cast hcard) (Nat.cast_nonneg _)
  have hscore : (constant [batch, count, height, width] (1 / (count : ℝ))).IsSingle
      [batch, count, height, width] := ⟨rfl, rfl⟩
  obtain ⟨_, u, -, -, -, hu, hsingle, hbetween⟩ := confidence_between hscore hcount
    (div_nonneg (Nat.cast_nonneg _) (Nat.cast_nonneg _)) hshare fun b y x hb hy hx => by
      rw [meanNumber_even hcount hb hy hx, windowSum_even hb hy hx]
      exact ⟨le_rfl, le_rfl⟩
  rw [hu, hbetween.eq_constant, hsingle.shape_eq]

end Confidence

end MultiViewDepth
