import MultiViewDepth.Proofs.DepthGaps
import MultiViewDepth.Proofs.ScoreDistributions
import Mathlib.Analysis.Complex.ExponentialBounds
import Mathlib.Analysis.SpecialFunctions.Sigmoid

/-!
Shares of the neighbors.

The weights that neighbors have by their depths and features are multiplied and divided by their
sum, or by a floor where the sum is smaller. So the shares of a pixel sum to 1 unless its neighbors
hardly count at all. Depths alone never make them count so little.
-/
namespace MultiViewDepth

open Tensor Arithmetic

/-- Numbers that are divided by their sum, or by a floor below which the divisor does not get. -/
theorem sum_div_floor {n : Nat} (w : Fin n → ℝ) {floor : ℝ} (hfloor : 0 < floor) :
    ∑ i, w i / max (∑ j, w j) floor = min 1 ((∑ i, w i) / floor) := by
  rw [← Finset.sum_div]
  rcases le_total (∑ i, w i) floor with hlow | hhigh
  · rw [max_eq_right hlow, min_eq_right ((div_le_one hfloor).2 hlow)]
  · rw [max_eq_left hhigh, div_self (hfloor.trans_le hhigh).ne',
      min_eq_left ((one_le_div hfloor).2 hhigh)]

theorem abs_real (x : ℝ) : Scalar.abs x = |x| := by
  rw [Scalar.abs]
  split_ifs with h
  · exact (abs_of_neg h).symm
  · exact (abs_of_nonneg (not_lt.1 h)).symm

theorem sigmoid_real (x : ℝ) : Scalar.sigmoid x = Real.sigmoid x := by
  rw [Real.sigmoid_def, Scalar.sigmoid, one_div, add_comm]
  rfl

namespace NeighborWeight

variable {range : DepthRange ℝ} {interval : ℝ} {batch count neighbors height width : Nat}
  {depth near features : Tensor ℝ} {grid : NeighborGrid ℝ}

/-- The weight of a neighbor whose inverse depth is a distance away from the pixel's own. Distances
count in steps of the interval, and beyond four steps they make no difference. -/
noncomputable def nearness (range : DepthRange ℝ) (interval distance : ℝ) : ℝ :=
  Real.sigmoid ((4 : Nat) - (2 : Nat) *
    clamp 0 ((4 : Nat) : ℝ) (distance / (interval * range.inverseSpan)))

theorem nearness_eq (range : DepthRange ℝ) (interval distance : ℝ) :
    nearness range interval distance =
      Real.sigmoid (4 - 2 * clamp 0 4 (distance / (interval * range.inverseSpan))) := by
  simp only [nearness, Nat.cast_ofNat]

theorem nearness_mem (range : DepthRange ℝ) (interval distance : ℝ) :
    nearness range interval distance ∈ Set.Icc (Real.sigmoid (-4)) (Real.sigmoid 4) := by
  obtain ⟨hlow, hhigh⟩ :=
    clamp_mem (show (0 : ℝ) ≤ 4 by norm_num) (distance / (interval * range.inverseSpan))
  rw [nearness_eq]
  exact ⟨Real.sigmoid_le (by linarith), Real.sigmoid_le (by linarith)⟩

theorem nearness_antitone (range : DepthRange ℝ) (hinterval : 0 ≤ interval) :
    Antitone (nearness range interval) := by
  intro distance distance' h
  have hunit : 0 ≤ interval * range.inverseSpan := mul_nonneg hinterval range.inverseSpan_nonneg
  have hclamp : clamp 0 4 (distance / (interval * range.inverseSpan)) ≤
      clamp 0 4 (distance' / (interval * range.inverseSpan)) := by
    rw [clamp_real, clamp_real]
    gcongr
  rw [nearness_eq, nearness_eq]
  exact Real.sigmoid_le (by linarith)

theorem proximity_eq (range : DepthRange ℝ) (interval gap : ℝ) :
    proximity interval (gap / range.inverseSpan) = nearness range interval |gap| := by
  have hunit : |gap / range.inverseSpan| * (1 / interval) =
      |gap| / (interval * range.inverseSpan) := by
    rw [abs_div, abs_of_nonneg range.inverseSpan_nonneg]
    ring
  have hfour : (4.0 : ℝ) = 4 := by norm_num
  have htwo : (-2.0 : ℝ) = -2 := by norm_num
  simp only [proximity, sigmoid_real, abs_real, affine_real, narrow_real, hunit, add_zero, hfour,
    htwo, nearness_eq]
  congr 1
  ring

theorem ofDepth_isSingle (hdepth : depth.IsSingle [batch, count, height, width])
    (hnear : ofDepth depth grid range interval = .ok near) :
    near.IsSingle [batch, count, grid.neighbors, height, width] := by
  have hinverse := hdepth.map (normalizedInverse range)
  obtain ⟨own, hown, hownSingle, -⟩ := hinverse.unsqueeze
    (show 2 ≤ [batch, count, height, width].length by simp)
  simp only [ofDepth, sizes4_eq_ok.2 hdepth.shape_eq, hown, ok_bind] at hnear
  obtain ⟨found, hfound, hnear⟩ := bind_eq_ok.1 hnear
  obtain ⟨around, haround, hnear⟩ := bind_eq_ok.1 hnear
  have haroundSingle : around.IsSingle [batch, count, grid.neighbors, height, width] :=
    ⟨(reshape_eq_ok haround).1,
      (kind_of_reshape haround).trans ((kind_of_sample hfound).trans hinverse.kind_eq)⟩
  obtain ⟨gap, hgap, hgapSingle, -⟩ := haroundSingle.zip_along
    (show own.IsSingle ([batch, count, grid.neighbors, height, width].set 2 1) from hownSingle)
    (· - ·)
  simp only [hgap, ok_bind, hgapSingle.kind_eq, reduceCtorEq, or_self, if_false, pure_eq_ok,
    Except.ok.injEq] at hnear
  exact hnear ▸ hgapSingle.map _

/-- Depths weigh their neighbors by nothing but the distance of inverse depths. -/
theorem ofDepth_get (hdepth : depth.IsSingle [batch, count, height, width])
    (hnear : ofDepth depth grid range interval = .ok near) {b k n y x : Nat} (hb : b < batch)
    (hk : k < count) (hn : n < grid.neighbors) (hy : y < height) (hx : x < width) :
    near.get [b, k, n, y, x] =
      nearness range interval |inverseGap depth grid height width b k n y x| := by
  have hcount : 0 < count := Nat.zero_lt_of_lt hk
  obtain ⟨e, hrefuses⟩ | hfits := grid.refuses_or_fits batch height width
  · cases hnear.symm.trans (ofDepth_of_refuses hrefuses hcount hdepth)
  · obtain ⟨u, hu, -, hget⟩ := ofDepth_of_fits hfits hcount hdepth
    obtain rfl : near = u := Except.ok.inj (hnear.symm.trans hu)
    rw [hget b k n y x hb hk hn hy hx, proximity_eq]

/-- However far the depths around a pixel are from its own, all neighbors keep some weight. -/
theorem ofDepth_mem (hdepth : depth.IsSingle [batch, count, height, width])
    (hnear : ofDepth depth grid range interval = .ok near) {b k n y x : Nat} (hb : b < batch)
    (hk : k < count) (hn : n < grid.neighbors) (hy : y < height) (hx : x < width) :
    near.get [b, k, n, y, x] ∈ Set.Icc (Real.sigmoid (-4)) (Real.sigmoid 4) := by
  rw [ofDepth_get hdepth hnear hb hk hn hy hx]
  exact nearness_mem range interval _

theorem weightFloor_pos : (0 : ℝ) < 1 / (10 ^ 5 : ℕ) := by norm_num

/-- Both weights of a neighbor, divided by what the neighbors of the pixel have together. -/
theorem combine_ok (hnear : near.IsSingle [batch, count, neighbors, height, width])
    (hfeatures : features.IsSingle [batch, neighbors, height, width]) :
    ∃ u, combine near features = .ok u ∧ u.IsSingle [batch, count, neighbors, height, width] ∧
      ∀ b k n y x, b < batch → k < count → n < neighbors → y < height → x < width →
        u.get [b, k, n, y, x] = near.get [b, k, n, y, x] * features.get [b, n, y, x] /
          max (∑ m : Fin neighbors, near.get [b, k, m, y, x] * features.get [b, m, y, x])
            (1 / (10 ^ 5 : ℕ)) := by
  obtain ⟨spread, hspread, hspreadSingle, hlevel⟩ := hfeatures.unsqueeze
    (show 1 ≤ [batch, neighbors, height, width].length by simp)
  obtain ⟨weight, hweight, hweightSingle, hproduct⟩ := hnear.zip_along
    (show spread.IsSingle ([batch, count, neighbors, height, width].set 1 1) from hspreadSingle)
    (· * ·)
  obtain ⟨sum, hsum, hsumSingle, hadd⟩ := hweightSingle.reduce
    (show [batch, count, neighbors, height, width][2]? = some neighbors from rfl) sumTo
  obtain ⟨hfloorSingle, hfloor⟩ := hsumSingle.atLeast weightFloor
  obtain ⟨u, hu, husingle, hquotient⟩ := hweightSingle.zip_along hfloorSingle (· / ·)
  refine ⟨u, ?_, husingle, fun b k n y x hb hk hn hy hx => ?_⟩
  · simp only [combine, hspread, hweight, Tensor.sum, hsum, ok_bind, hu]
  · have hentry (m : Nat) (hm : m < neighbors) : weight.get [b, k, m, y, x] =
        near.get [b, k, m, y, x] * features.get [b, m, y, x] := by
      rw [hproduct _ (within_five hb hk hm hy hx)]
      exact congrArg (near.get _ * ·) (hlevel [b, m, y, x] (by simp))
    have htotal : sum.get [b, k, 0, y, x] =
        ∑ m : Fin neighbors, near.get [b, k, m, y, x] * features.get [b, m, y, x] := by
      rw [hadd _ (within_five hb hk Nat.one_pos hy hx), sumTo_real, Finset.sum_range]
      exact Finset.sum_congr rfl fun m _ => hentry m m.isLt
    have hbound := hfloor _ (within_five hb hk Nat.one_pos hy hx)
    rw [htotal, maximum_real, Matcher.weightFloor_real] at hbound
    rw [hquotient _ (within_five hb hk hn hy hx), hentry n hn]
    exact congrArg (near.get _ * features.get _ / ·) hbound

/-- The shares sum to 1, unless all weights together stay below the floor. -/
theorem combine_sum (hnear : near.IsSingle [batch, count, neighbors, height, width])
    (hfeatures : features.IsSingle [batch, neighbors, height, width]) {u : Tensor ℝ}
    (hu : combine near features = .ok u) {b k y x : Nat} (hb : b < batch) (hk : k < count)
    (hy : y < height) (hx : x < width) :
    ∑ n : Fin neighbors, u.get [b, k, n, y, x] = min 1
      ((∑ n : Fin neighbors, near.get [b, k, n, y, x] * features.get [b, n, y, x]) /
        (1 / (10 ^ 5 : ℕ))) := by
  obtain ⟨u', hu', -, hget⟩ := combine_ok hnear hfeatures
  obtain rfl : u = u' := Except.ok.inj (hu.symm.trans hu')
  rw [← sum_div_floor _ weightFloor_pos]
  exact Finset.sum_congr rfl fun n _ => hget b k n y x hb hk n.isLt hy hx

/-- Neighbors whose features count enough between them count enough at all depths. -/
theorem floor_le_total {near features : Fin neighbors → ℝ} {low floor : ℝ} (hlow : 0 < low)
    (hnear : ∀ n, low ≤ near n) (hfeatures : ∀ n, 0 ≤ features n)
    (henough : floor / low ≤ ∑ n, features n) : floor ≤ ∑ n, near n * features n := by
  calc floor = low * (floor / low) := (mul_div_cancel₀ floor hlow.ne').symm
    _ ≤ low * ∑ n, features n := by gcongr
    _ = ∑ n, low * features n := Finset.mul_sum _ _ _
    _ ≤ ∑ n, near n * features n :=
        Finset.sum_le_sum fun n _ => mul_le_mul_of_nonneg_right (hnear n) (hfeatures n)

/-- The shares of a pixel's neighbors sum to 1, or to less in proportion where all weights together
stay below the floor. What weighs depths falls with the distance of inverse depths and has a
positive lower bound, so where features count enough the shares sum to 1 whatever the depths. -/
theorem combine_shares (count : Nat)
    (hfeatures : features.IsSingle [batch, neighbors, height, width])
    (hnonneg : ∀ b n y x, b < batch → n < neighbors → y < height → x < width →
      0 ≤ features.get [b, n, y, x]) :
    (∀ near : Tensor ℝ, near.IsSingle [batch, count, neighbors, height, width] →
      (∀ b k n y x, b < batch → k < count → n < neighbors → y < height → x < width →
        0 ≤ near.get [b, k, n, y, x]) →
      ∃ u, combine near features = .ok u ∧ u.IsSingle [batch, count, neighbors, height, width] ∧
        ∀ b k y x, b < batch → k < count → y < height → x < width →
          (∀ n < neighbors, 0 ≤ u.get [b, k, n, y, x]) ∧
          ∑ n : Fin neighbors, u.get [b, k, n, y, x] = min 1
            ((∑ n : Fin neighbors, near.get [b, k, n, y, x] * features.get [b, n, y, x]) /
              (1 / (10 ^ 5 : ℕ)))) ∧
    ∀ (range : DepthRange ℝ) (interval : ℝ), 0 < interval → Antitone (nearness range interval) ∧
      ∀ depth grid, depth.IsSingle [batch, count, height, width] → grid.neighbors = neighbors →
        (grid.points.IsSingle [batch, neighbors * height, width, 2] → 0 < count →
          ∃ near, ofDepth depth grid range interval = .ok near) ∧
        ∀ near, ofDepth depth grid range interval = .ok near →
          near.IsSingle [batch, count, neighbors, height, width] ∧
          (∀ b k n y x, b < batch → k < count → n < neighbors → y < height → x < width →
            near.get [b, k, n, y, x] ∈ Set.Icc (Real.sigmoid (-4)) (Real.sigmoid 4) ∧
            near.get [b, k, n, y, x] =
              nearness range interval |inverseGap depth grid height width b k n y x|) ∧
          ∃ u, combine near features = .ok u ∧ ∀ b y x, b < batch → y < height → x < width →
            1 / (10 ^ 5 : ℕ) / Real.sigmoid (-4) ≤
              ∑ n : Fin neighbors, features.get [b, n, y, x] →
            ∀ k < count, ∑ n : Fin neighbors, u.get [b, k, n, y, x] = 1 := by
  refine ⟨fun near hnear hpos => ?_, fun range interval hinterval =>
    ⟨nearness_antitone range hinterval.le, fun depth grid hdepth hneighbors => ?_⟩⟩
  · obtain ⟨u, hu, husingle, hget⟩ := combine_ok hnear hfeatures
    refine ⟨u, hu, husingle, fun b k y x hb hk hy hx =>
      ⟨fun n hn => ?_, combine_sum hnear hfeatures hu hb hk hy hx⟩⟩
    rw [hget b k n y x hb hk hn hy hx]
    exact div_nonneg
      (mul_nonneg (hpos b k n y x hb hk hn hy hx) (hnonneg b n y x hb hn hy hx))
      (weightFloor_pos.le.trans (le_max_right _ _))
  · subst hneighbors
    refine ⟨fun hpoints hcount => ?_, fun near hnear => ?_⟩
    · obtain ⟨near, hnear, -⟩ :=
        ofDepth_of_fits (NeighborGrid.fits_of_points hpoints) hcount hdepth
      exact ⟨near, hnear⟩
    have hsingle := ofDepth_isSingle hdepth hnear
    obtain ⟨u, hu, -⟩ := combine_ok hsingle hfeatures
    refine ⟨hsingle, fun b k n y x hb hk hn hy hx =>
      ⟨ofDepth_mem hdepth hnear hb hk hn hy hx, ofDepth_get hdepth hnear hb hk hn hy hx⟩,
      u, hu, fun b y x hb hy hx henough k hk => ?_⟩
    have htotal := floor_le_total (Real.sigmoid_pos (-4))
      (fun n : Fin grid.neighbors => (ofDepth_mem hdepth hnear hb hk n.isLt hy hx).1)
      (fun n => hnonneg b n y x hb n.isLt hy hx) henough
    rw [combine_sum hsingle hfeatures hu hb hk hy hx]
    exact min_eq_left ((one_le_div weightFloor_pos).2 htotal)

/-- A grid in which every pixel of a row of two has two neighbors: what lies midway between the
pixels, and the first pixel. -/
noncomputable def twoNeighbors : NeighborGrid ℝ where
  points := ofFn [1, 2, 2, 2] fun
    | [_, r, _, coordinate] => if r = 1 ∧ coordinate = 0 then -1 else 0
    | _ => 0
  neighbors := 2
  height := 1
  width := 2

noncomputable def unequalFeatures : Tensor ℝ := ofFn [1, 2, 1, 2] fun
  | [_, n, _, _] => 1 / (n + 2 : Nat)
  | _ => 0

theorem combine_shares_unequal :
    unequalFeatures.IsSingle [1, 2, 1, 2] ∧
      (∀ b n y x, b < 1 → n < 2 → y < 1 → x < 2 → 0 ≤ unequalFeatures.get [b, n, y, x]) ∧
      ∃ near u, ofDepth slopedRow twoNeighbors unitRange (1 / 4 : ℝ) = .ok near ∧
        combine near unequalFeatures = .ok u ∧ 0 ≤ u.get [0, 0, 0, 0, 1] ∧
        u.get [0, 0, 0, 0, 1] + u.get [0, 0, 1, 0, 1] = 1 := by
  have hfeatures : unequalFeatures.IsSingle [1, 2, 1, 2] := isSingle_ofFn _ _
  have hentry (b n y x : Nat) (hb : b < 1) (hn : n < 2) (hy : y < 1) (hx : x < 2) :
      unequalFeatures.get [b, n, y, x] = 1 / (n + 2 : Nat) :=
    get_ofFn (within_four hb hn hy hx) _
  have hnonneg (b n y x : Nat) (hb : b < 1) (hn : n < 2) (hy : y < 1) (hx : x < 2) :
      0 ≤ unequalFeatures.get [b, n, y, x] := by
    rw [hentry b n y x hb hn hy hx]
    positivity
  obtain ⟨hshares, hdepths⟩ := combine_shares 1 hfeatures hnonneg
  obtain ⟨-, hdepths⟩ := hdepths unitRange (1 / 4) (by norm_num)
  obtain ⟨hfits, hweights⟩ := hdepths slopedRow twoNeighbors (isSingle_ofFn _ _) rfl
  obtain ⟨near, hnear⟩ := hfits ⟨rfl, rfl⟩ Nat.one_pos
  obtain ⟨hsingle, hbounds, u, hu, hsum⟩ := hweights near hnear
  obtain ⟨u', hu', -, hpixel⟩ := hshares near hsingle fun b k n y x hb hk hn hy hx =>
    (Real.sigmoid_pos (-4)).le.trans (hbounds b k n y x hb hk hn hy hx).1.1
  obtain rfl : u = u' := Except.ok.inj (hu.symm.trans hu')
  have henough : 1 / (10 ^ 5 : ℕ) / Real.sigmoid (-4) ≤
      ∑ n : Fin 2, unequalFeatures.get [0, n, 0, 1] := by
    have hexp : Real.exp 4 ≤ 3 ^ 4 := by
      rw [show (4 : ℝ) = (4 : ℕ) * 1 by norm_num, Real.exp_nat_mul]
      gcongr
      exact Real.exp_one_lt_d9.le.trans (by norm_num)
    rw [Fin.sum_univ_two, hentry 0 _ 0 1 (by decide) (Fin.isLt _) (by decide) (by decide),
      hentry 0 _ 0 1 (by decide) (Fin.isLt _) (by decide) (by decide), Real.sigmoid_def,
      div_inv_eq_mul, neg_neg]
    norm_num
    linarith
  have hone := hsum 0 0 1 (by decide) (by decide) (by decide) henough 0 (by decide)
  rw [Fin.sum_univ_two] at hone
  exact ⟨hfeatures, hnonneg, near, u, hnear, hu,
    (hpixel 0 0 0 1 (by decide) (by decide) (by decide) (by decide)).1 0 (by decide), hone⟩

end NeighborWeight

end MultiViewDepth
