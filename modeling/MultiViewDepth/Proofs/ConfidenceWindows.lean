import MultiViewDepth.Proofs.DoubledMaps
import MultiViewDepth.Proofs.ReadoutBounds

/-!
Which probabilities make a confidence.

The program adds four entries of a column with zeros around it. These are the probabilities of the
hypotheses from one before the mean to two after it, as many as there are of them. The mean is a
hypothesis number and the sum a probability, so that neither has to be clamped.
-/
namespace MultiViewDepth.Confidence

open Tensor Arithmetic

/-- Numbers of the hypotheses from one before number `k` to two after it. -/
def windowNumbers (count k : Nat) : Finset Nat :=
  {j ∈ Finset.range count | k ≤ j + 1 ∧ j ≤ k + 2}

variable {batch count height width b k i y x : Nat} {score : Tensor ℝ}

section Numbers

/-- Numbers that are not negative are rounded to the nearest one, halves upwards. -/
theorem round_of_nonneg {mean : ℝ} (h : 0 ≤ mean) :
    Scalar.round mean = (⌊mean + 1 / 2⌋₊ : ℝ) := by
  have hshifted : (0 : ℝ) ≤ mean + 1 / 2 := by linarith
  exact (if_pos h).trans (natCast_floor_eq_intCast_floor hshifted).symm

/-- Rounding finds the number of a hypothesis. -/
theorem nearest_lt {mean : ℝ} (hcount : 0 < count)
    (h : mean ∈ Set.Icc (0 : ℝ) ((count - 1 : Nat) : ℝ)) : ⌊mean + 1 / 2⌋₊ < count := by
  have hlast : (((count - 1 : Nat) : ℝ) + 1 : ℝ) = count := by
    exact_mod_cast Nat.sub_add_cancel hcount
  rw [Nat.floor_lt (by linarith [h.1])]
  linarith [h.2]

theorem clamp_nearest {mean : ℝ} (hcount : 0 < count)
    (h : mean ∈ Set.Icc (0 : ℝ) ((count - 1 : Nat) : ℝ)) :
    clamp 0 ((count - 1 : Nat) : ℝ) (Scalar.round mean) = Scalar.round mean := by
  have hle : (⌊mean + 1 / 2⌋₊ : ℝ) ≤ ((count - 1 : Nat) : ℝ) := by
    exact_mod_cast Nat.le_sub_one_of_lt (nearest_lt hcount h)
  rw [round_of_nonneg h.1, clamp_real, max_eq_left (Nat.cast_nonneg _), min_eq_left hle]

theorem meanNumber_of_mean {mean : ℝ} (hcount : 0 < count)
    (hmean : sumTo count (fun i => score.get [b, i, y, x] * (i : ℝ)) = mean)
    (h : mean ∈ Set.Icc (0 : ℝ) ((count - 1 : Nat) : ℝ)) :
    meanNumber count score b y x = ⌊mean + 1 / 2⌋₊ := by
  rw [meanNumber, hmean, clamp_nearest hcount h, round_of_nonneg h.1]
  exact Nat.floor_natCast _

end Numbers

section Windows

theorem fold_add_eq_sum (n : Nat) (f : Nat → ℝ) (first : ℝ) :
    n.fold (fun i _ sum => sum + f i) first = ∑ i ∈ Finset.range n, f i + first := by
  induction n with
  | zero => simp
  | succ n ih => rw [Nat.fold_succ, ih, Finset.sum_range_succ, add_right_comm]

/-- Window entries are numbered from 1, and what is read beyond the hypotheses is zero. -/
theorem windowSum_eq_sum (count : Nat) (score : Tensor ℝ) (b k y x : Nat) :
    windowSum count score b k y x = ∑ j ∈ windowNumbers count k, score.get [b, j, y, x] := by
  have hentry (i : Nat) : (if i ≤ count then padded score b y x i else 0) =
      if 1 ≤ i ∧ i ≤ count then score.get [b, i - 1, y, x] else 0 := by
    rw [padded]
    split_ifs <;> first | rfl | omega
  calc windowSum count score b k y x
      = ∑ i ∈ Finset.Ico k (k + windowWidth),
          if 1 ≤ i ∧ i ≤ count then score.get [b, i - 1, y, x] else 0 := by
        have hsplit : windowWidth = windowWidth - 1 + 1 := rfl
        rw [Finset.sum_Ico_eq_sum_range, Nat.add_sub_cancel_left, hsplit, Finset.sum_range_succ']
        simp only [windowSum, hentry, fold_add_eq_sum, Nat.add_zero]
    _ = ∑ j ∈ windowNumbers count k, score.get [b, j, y, x] := by
        rw [← Finset.sum_filter]
        refine Finset.sum_nbij' (· - 1) (· + 1) ?_ ?_ ?_ ?_ fun _ _ => rfl
        all_goals
          simp only [windowNumbers, windowWidth, Finset.mem_filter, Finset.mem_Ico,
            Finset.mem_range]
          omega

noncomputable def windowMap (score : Tensor ℝ) (batch count height width : Nat) : Tensor ℝ :=
  ofFn [batch, 1, height, width] fun
    | [b, _, y, x] => windowSum count score b (meanNumber count score b y x) y x
    | _ => 0

theorem windowMap_single (score : Tensor ℝ) (batch count height width : Nat) :
    (windowMap score batch count height width).IsSingle [batch, 1, height, width] :=
  isSingle_ofFn _ _

theorem windowMap_get (hb : b < batch) (hy : y < height) (hx : x < width) :
    (windowMap score batch count height width).get [b, 0, y, x] =
      windowSum count score b (meanNumber count score b y x) y x :=
  get_ofFn (within_four hb Nat.one_pos hy hx) _

theorem confidence_eq (hscore : score.IsSingle [batch, count, height, width])
    (hcount : 0 < count) : confidence score = (do
      let large ← Sampling.double (windowMap score batch count height width)
      (large.map (clamp 0 1)).squeeze 1) := by
  have hne : ¬ (count = 0 ∧ volume [batch, 1, height, width] ≠ 0) := by omega
  simp only [confidence, sizes4_eq_ok.2 hscore.shape_eq, ok_bind, hne, if_false,
    compute_of_single hscore.kind_eq]
  rfl

/-- Entries between the bounds of a clamp are left alone. -/
theorem map_clamp {lo hi bottom top : ℝ} {t : Tensor ℝ} (h : t.Between lo hi) (hlo : bottom ≤ lo)
    (hhi : hi ≤ top) : t.map (clamp bottom top) = t := by
  refine ext_get ((kind_map _ t).trans h.kind_single) h.kind_single (shape_map _ t)
    fun index hw => ?_
  rw [shape_map] at hw
  obtain ⟨hle, hge⟩ := h.mem index hw
  rw [get_map h.kind_single hw, clamp_real, max_eq_left (hlo.trans hle),
    min_eq_left (hge.trans hhi)]

/-- The confidence is the doubled map of the windows. Nothing is cut off when the windows hold
probabilities. -/
theorem confidence_between {lo hi : ℝ} (hscore : score.IsSingle [batch, count, height, width])
    (hcount : 0 < count) (hlo : 0 ≤ lo) (hhi : hi ≤ 1)
    (hwindow : ∀ b y x, b < batch → y < height → x < width →
      windowSum count score b (meanNumber count score b y x) y x ∈ Set.Icc lo hi) :
    ∃ large u, Sampling.double (windowMap score batch count height width) = .ok large ∧
      large.map (clamp 0 1) = large ∧ large.squeeze 1 = .ok u ∧ confidence score = .ok u ∧
      u.IsSingle [batch, 2 * height, 2 * width] ∧ u.Between lo hi := by
  have hsmall := windowMap_single score batch count height width
  obtain ⟨large, hlarge, hsingle, -⟩ := Sampling.double_stretched hsmall
  have hbetween : large.Between lo hi := by
    refine Sampling.double_between ⟨hsmall.kind_eq, fun index hw => ?_⟩ hlarge
    rw [hsmall.shape_eq] at hw
    obtain ⟨b, c, y, x, rfl, hb, hc, hy, hx⟩ := hw.exists_four
    obtain rfl : c = 0 := by omega
    rw [windowMap_get hb hy hx]
    exact hwindow b y x hb hy hx
  have hclamp := map_clamp hbetween hlo hhi
  obtain ⟨u, hu, huSingle, -⟩ := hsingle.squeeze_second
  refine ⟨large, u, hlarge, hclamp, hu, ?_, huSingle, hbetween.squeeze hu⟩
  rw [confidence_eq hscore hcount, hlarge, ok_bind, hclamp, hu]

end Windows

section Distributions

variable (hdistributed : score.Distributed batch count height width) (hb : b < batch)
  (hy : y < height) (hx : x < width)
include hdistributed hb hy hx

theorem mean_mem : ∑ i : Fin count, (i : ℝ) * score.get [b, i, y, x] ∈
    Set.Icc (0 : ℝ) ((count - 1 : Nat) : ℝ) := by
  rw [← Finset.sum_range fun i => (i : ℝ) * score.get [b, i, y, x], ← sumTo_real]
  refine weighted_mem (fun i hi => hdistributed.nonneg b i y x hb hi hy hx)
    (hdistributed.sum_eq b y x hb hy hx) fun i hi => ⟨i.cast_nonneg, ?_⟩
  exact_mod_cast Nat.le_sub_one_of_lt hi

theorem meanNumber_nearest (hcount : 0 < count) : meanNumber count score b y x =
    ⌊(∑ i : Fin count, (i : ℝ) * score.get [b, i, y, x]) + 1 / 2⌋₊ := by
  refine meanNumber_of_mean hcount ?_ (mean_mem hdistributed hb hy hx)
  rw [sumTo_real, Finset.sum_range]
  exact Finset.sum_congr rfl fun i _ => mul_comm _ _

theorem windowSum_mem (k : Nat) : windowSum count score b k y x ∈ Set.Icc (0 : ℝ) 1 := by
  have hnonneg (j : Nat) (hj : j ∈ Finset.range count) : 0 ≤ score.get [b, j, y, x] :=
    hdistributed.nonneg b j y x hb (Finset.mem_range.1 hj) hy hx
  have hsubset : windowNumbers count k ⊆ Finset.range count := Finset.filter_subset _ _
  rw [windowSum_eq_sum]
  refine ⟨Finset.sum_nonneg fun j hj => hnonneg j (hsubset hj), ?_⟩
  rw [← hdistributed.sum_eq b y x hb hy hx, sumTo_real]
  exact Finset.sum_le_sum_of_subset_of_nonneg hsubset fun j hj _ => hnonneg j hj

/-- The mean of two hypotheses next to each other lies between them, so that the window around the
nearest number holds both. -/
theorem windowSum_adjacent (hcount : 0 < count)
    (hadjacent : ∀ j < count, score.get [b, j, y, x] ≠ 0 → j = i ∨ j = i + 1) :
    windowSum count score b (meanNumber count score b y x) y x = 1 := by
  have hmean : ∑ j : Fin count, (j : ℝ) * score.get [b, j, y, x] ∈ Set.Icc (i : ℝ) (i + 1) := by
    -- numbers without probability may be replaced by `i`
    have hsum : ∑ j : Fin count, (j : ℝ) * score.get [b, j, y, x] =
        sumTo count fun j =>
          (if j = i ∨ j = i + 1 then (j : ℝ) else i) * score.get [b, j, y, x] := by
      rw [sumTo_real, Finset.sum_range]
      refine Finset.sum_congr rfl fun j _ => ?_
      split
      next => rfl
      next hne => rw [not_not.1 fun h => hne (hadjacent j j.isLt h), mul_zero, mul_zero]
    rw [hsum]
    refine weighted_mem (fun j hj => hdistributed.nonneg b j y x hb hj hy hx)
      (hdistributed.sum_eq b y x hb hy hx) fun j hj => ?_
    split
    next h => obtain rfl | rfl := h <;> simp
    next => simp
  have hle : i ≤ meanNumber count score b y x := by
    rw [meanNumber_nearest hdistributed hb hy hx hcount]
    exact Nat.le_floor (by linarith [hmean.1])
  have hlt : meanNumber count score b y x < i + 2 := by
    rw [meanNumber_nearest hdistributed hb hy hx hcount,
      Nat.floor_lt (by linarith [hmean.1, (i.cast_nonneg : (0 : ℝ) ≤ i)])]
    push_cast
    linarith [hmean.2]
  rw [windowSum_eq_sum, ← hdistributed.sum_eq b y x hb hy hx, sumTo_real]
  refine Finset.sum_subset (Finset.filter_subset _ _) fun j hj hout => ?_
  by_contra hne
  have hnext := hadjacent j (Finset.mem_range.1 hj) hne
  exact hout (Finset.mem_filter.2 ⟨hj, by omega, by omega⟩)

end Distributions

/-- The confidence of a distribution is the doubled map of the probabilities around the mean
hypothesis. No index and no sum has to be clamped, and where a pixel leaves only two hypotheses next
to each other it is certain. -/
theorem confidence_windows (hscore : score.IsSingle [batch, count, height, width])
    (hcount : 0 < count) (hdistributed : score.Distributed batch count height width) :
    ∃ small large u, small.IsSingle [batch, 1, height, width] ∧
      (∀ b y x, b < batch → y < height → x < width →
        let mean := ∑ i : Fin count, (i : ℝ) * score.get [b, i, y, x]
        clamp 0 ((count - 1 : Nat) : ℝ) (Scalar.round mean) = Scalar.round mean ∧
          Scalar.round mean = (⌊mean + 1 / 2⌋₊ : ℝ) ∧
          small.get [b, 0, y, x] =
            ∑ j ∈ windowNumbers count ⌊mean + 1 / 2⌋₊, score.get [b, j, y, x]) ∧
      Sampling.double small = .ok large ∧ large.map (clamp 0 1) = large ∧
      large.squeeze 1 = .ok u ∧ confidence score = .ok u ∧
      u.IsSingle [batch, 2 * height, 2 * width] ∧
      ((∀ b y x, b < batch → y < height → x < width →
          ∃ i, ∀ j < count, score.get [b, j, y, x] ≠ 0 → j = i ∨ j = i + 1) →
        u = constant [batch, 2 * height, 2 * width] 1) := by
  obtain ⟨large, u, hlarge, hclamp, hu, hconfidence, hsingle, -⟩ :=
    confidence_between hscore hcount le_rfl le_rfl fun b y x hb hy hx =>
      windowSum_mem hdistributed hb hy hx (meanNumber count score b y x)
  refine ⟨windowMap score batch count height width, large, u, windowMap_single _ _ _ _ _,
    fun b y x hb hy hx => ?_, hlarge, hclamp, hu, hconfidence, hsingle, fun hadjacent => ?_⟩
  · have hmean := mean_mem hdistributed hb hy hx
    refine ⟨clamp_nearest hcount hmean, round_of_nonneg hmean.1, ?_⟩
    rw [windowMap_get hb hy hx, windowSum_eq_sum, meanNumber_nearest hdistributed hb hy hx hcount]
  · obtain ⟨_, v, -, -, -, hv, -, hcertain⟩ :=
      confidence_between hscore hcount zero_le_one le_rfl fun b y x hb hy hx => by
        obtain ⟨i, hi⟩ := hadjacent b y x hb hy hx
        rw [windowSum_adjacent hdistributed hb hy hx hcount hi]
        exact ⟨le_rfl, le_rfl⟩
    obtain rfl : u = v := Except.ok.inj (hconfidence.symm.trans hv)
    rw [hcertain.eq_constant, hsingle.shape_eq]

/-- One pixel of five hypotheses, of which the first and the last are equally likely. -/
noncomputable def twoEnds : Tensor ℝ := ofFn [1, 5, 1, 1] fun
  | [_, k, _, _] => if k = 0 ∨ k = 4 then 1 / (2 : Nat) else 0
  | _ => 0

theorem twoEnds_get (hk : k < 5) :
    twoEnds.get [0, k, 0, 0] = if k = 0 ∨ k = 4 then 1 / 2 else 0 :=
  get_ofFn (within_four Nat.one_pos hk Nat.one_pos Nat.one_pos) _

theorem twoEnds_distributed : twoEnds.Distributed 1 5 1 1 where
  nonneg b k y x hb hk hy hx := by
    obtain ⟨rfl, rfl, rfl⟩ : b = 0 ∧ y = 0 ∧ x = 0 := by omega
    rw [twoEnds_get hk]
    split <;> norm_num
  sum_eq b y x hb hy hx := by
    obtain ⟨rfl, rfl, rfl⟩ : b = 0 ∧ y = 0 ∧ x = 0 := by omega
    rw [sumTo_congr fun k hk => twoEnds_get hk, sumTo_real]
    norm_num [Finset.sum_range_succ]

theorem confidence_windows_twoEnds :
    twoEnds.IsSingle [1, 5, 1, 1] ∧ twoEnds.Distributed 1 5 1 1 ∧
      ∃ small large u, small.get [0, 0, 0, 0] = 1 / 2 ∧ Sampling.double small = .ok large ∧
        large.squeeze 1 = .ok u ∧ confidence twoEnds = .ok u := by
  have hsingle : twoEnds.IsSingle [1, 5, 1, 1] := isSingle_ofFn _ _
  obtain ⟨small, large, u, -, hget, hlarge, -, hu, hconfidence, -⟩ :=
    confidence_windows hsingle (show 0 < 5 by decide) twoEnds_distributed
  refine ⟨hsingle, twoEnds_distributed, small, large, u, ?_, hlarge, hu, hconfidence⟩
  obtain ⟨-, -, hwindow⟩ := hget 0 0 0 Nat.one_pos Nat.one_pos Nat.one_pos
  have hmean : ∑ i : Fin 5, (i : ℝ) * twoEnds.get [0, i, 0, 0] = 2 := by
    rw [← Finset.sum_range fun i => (i : ℝ) * twoEnds.get [0, i, 0, 0]]
    norm_num [Finset.sum_range_succ, twoEnds_get]
  have hnearest : ⌊(2 : ℝ) + 1 / 2⌋₊ = 2 := by
    rw [Nat.floor_eq_iff (by norm_num)]
    norm_num
  have hnumbers : windowNumbers 5 2 = {1, 2, 3, 4} := by decide
  rw [hwindow, hmean, hnearest, hnumbers]
  norm_num [twoEnds_get]

end MultiViewDepth.Confidence
