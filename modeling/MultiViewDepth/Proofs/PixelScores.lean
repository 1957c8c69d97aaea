import MultiViewDepth.Proofs.PixelViews
import MultiViewDepth.Proofs.ReadoutBounds
import MultiViewDepth.Proofs.TwinMatching

/-!
What the steps of a scoring do to single pixels.

Every step works on whole arrays. Below it is said for one entry of its result, in the entries of
what the step starts from.
-/
namespace MultiViewDepth

open Tensor Arithmetic

section Steps

variable {batch count layers height width n : Nat} {t w : Tensor ℝ}

theorem maxTo_eq_iSup (hn : 0 < n) (f : Nat → ℝ) : maxTo n f = ⨆ k : Fin n, f k := by
  have hrange : {x | ∃ k < n, x = f k} = Set.range fun k : Fin n => f k := by
    ext x
    exact ⟨fun ⟨k, hk, hx⟩ => ⟨⟨k, hk⟩, hx.symm⟩, fun ⟨k, hx⟩ => ⟨k, k.isLt, hx.symm⟩⟩
  exact (hrange ▸ maxTo_isGreatest hn f).csSup_eq.symm

theorem maximum_ok (ht : t.IsSingle [batch, count, height, width]) (hcount : 0 < count) :
    ∃ u, t.maximum 1 = .ok u ∧ u.IsSingle [batch, 1, height, width] ∧
      ∀ b y x, b < batch → y < height → x < width →
        u.get [b, 0, y, x] = ⨆ k : Fin count, t.get [b, k, y, x] := by
  have hsize : ¬ t.size 1 = 0 := by
    simp only [size, ht.shape_eq, List.getD_cons_succ, List.getD_cons_zero]
    omega
  have haxis : [batch, count, height, width][1]? = some count := rfl
  obtain ⟨u, hu, hsingle, hget⟩ := ht.reduce haxis maxTo
  refine ⟨u, by rw [Tensor.maximum, if_neg hsize, hu], hsingle, fun b y x hb hy hx => ?_⟩
  rw [hget _ (within_four hb Nat.one_pos hy hx)]
  exact maxTo_eq_iSup hcount fun k => t.get [b, k, y, x]

/-- Layers that are weighted and added up. -/
theorem weigh_ok (ht : t.IsSingle [batch, count, layers, height, width])
    (hw : w.IsSingle [batch, count, layers, height, width]) :
    ∃ product sum u, Tensor.zip (· * ·) t w = .ok product ∧ product.sum 2 = .ok sum ∧
      sum.squeeze 2 = .ok u ∧ u.IsSingle [batch, count, height, width] ∧
      ∀ b k y x, b < batch → k < count → y < height → x < width →
        u.get [b, k, y, x] =
          ∑ n : Fin layers, t.get [b, k, n, y, x] * w.get [b, k, n, y, x] := by
  have haxis : [batch, count, layers, height, width][2]? = some layers := rfl
  obtain ⟨product, hproduct, hsingle, hentry⟩ := ht.zip hw (Repeats.refl _) (· * ·)
  obtain ⟨sum, hsum, hsumSingle, hadd⟩ := hsingle.reduce haxis sumTo
  obtain ⟨u, hu, husingle, hflat⟩ := IsSingle.squeeze
    (show sum.IsSingle ([batch, count, height, width].insertIdx 2 1) from hsumSingle) (by simp)
  refine ⟨product, sum, u, hproduct, hsum, hu, husingle, fun b k y x hb hk hy hx => ?_⟩
  have hflatten : u.get [b, k, y, x] = sum.get [b, k, 0, y, x] :=
    hflat [b, k, y, x] (by simp)
  have hwithin (n : Nat) (hn : n < layers) :
      Within [b, k, n, y, x] [batch, count, layers, height, width] :=
    within_five hb hk hn hy hx
  rw [hflatten, hadd _ (within_five hb hk Nat.one_pos hy hx), sumTo_real, Finset.sum_range]
  refine Finset.sum_congr rfl fun n _ => ?_
  exact (hentry _ (hwithin n n.isLt)).trans (by rw [foldIndex_self (hwithin n n.isLt)])

end Steps

/-- What pixel `(x, y)` reads off a map at its neighbors, weighted and added up. -/
noncomputable def NeighborGrid.gather (grid : NeighborGrid ℝ) (weight : Tensor ℝ)
    (map : Nat → Nat → ℝ) (height width b d y x : Nat) : ℝ :=
  ∑ n : Fin grid.neighbors, weight.get [b, d, n, y, x] *
    Sampling.readMap map height width .border (grid.points.get [b, n * height + y, x, 1])
      (grid.points.get [b, n * height + y, x, 0])

theorem NeighborGrid.gather_congr {grid : NeighborGrid ℝ} {weight : Tensor ℝ} {height width : Nat}
    (hheight : 0 < height) (hwidth : 0 < width) {map map' : Nat → Nat → ℝ}
    (h : ∀ y x, y < height → x < width → map y x = map' y x) (b d y x : Nat) :
    grid.gather weight map height width b d y x = grid.gather weight map' height width b d y x :=
  Finset.sum_congr rfl fun _ _ =>
    congrArg (_ * ·) (Sampling.readMap_congr hheight hwidth h _ _ _)

namespace Matcher

variable {batch groups count height width : Nat} {matcher : Matcher ℝ} {head : VoxelHead groups}
  {t w : Tensor ℝ}

/-- A head gives one number for every voxel. -/
theorem rated_ok (head : VoxelHead groups) (hbatch : 0 < batch)
    (ht : t.IsSingle [batch, groups, count, height, width]) :
    ∃ rated flat, head.layer t = .ok rated ∧ rated.squeeze 1 = .ok flat ∧
      flat.IsSingle [batch, count, height, width] ∧
      ∀ b k y x, b < batch → k < count → y < height → x < width →
        flat.get [b, k, y, x] = head.rate fun g => t.get [b, g, k, y, x] := by
  obtain ⟨rated, hrated, hsingle, hget⟩ := head.acts t batch _ hbatch ht
  obtain ⟨flat, hflat, hflatSingle, hentry⟩ := hsingle.squeeze_second
  refine ⟨rated, flat, hrated, hflat, hflatSingle, fun b k y x hb hk hy hx => ?_⟩
  exact (hentry b [k, y, x]).trans (hget b 0 [k, y, x] hb (within_three hk hy hx))

/-- A source view counts as much as its best rating. -/
theorem viewWeight_ok (hhead : matcher.viewHead = some head.layer) (hbatch : 0 < batch)
    (hcount : 0 < count) (ht : t.IsSingle [batch, groups, count, height, width]) :
    ∃ u, matcher.viewWeight t = .ok u ∧ u.IsSingle [batch, 1, height, width] ∧
      ∀ b y x, b < batch → y < height → x < width →
        u.get [b, 0, y, x] = ⨆ k : Fin count, head.rate fun g => t.get [b, g, k, y, x] := by
  obtain ⟨rated, flat, hrated, hflat, hsingle, hget⟩ := rated_ok head hbatch ht
  obtain ⟨u, hu, husingle, hmax⟩ := maximum_ok hsingle hcount
  refine ⟨u, by simp only [viewWeight, hhead, hrated, hflat, ok_bind, hu], husingle,
    fun b y x hb hy hx => ?_⟩
  rw [hmax b y x hb hy hx]
  exact iSup_congr fun k => hget b k y x hb k.isLt hy hx

/-- Similarities combined with one number per pixel. -/
theorem zip_pixels_ok (ht : t.IsSingle [batch, groups, count, height, width])
    (hw : w.IsSingle [batch, 1, height, width]) (f : ∀ {β : Type} [Arithmetic β], β → β → β) :
    ∃ shared u, w.unsqueeze 1 = .ok shared ∧ Tensor.zip f t shared = .ok u ∧
      u.IsSingle [batch, groups, count, height, width] ∧
      ∀ b g k y x, b < batch → g < groups → k < count → y < height → x < width →
        u.get [b, g, k, y, x] = f (t.get [b, g, k, y, x]) (w.get [b, 0, y, x]) := by
  obtain ⟨shared, hshared, hsharedSingle, hspread⟩ :=
    hw.unsqueeze (show 1 ≤ [batch, 1, height, width].length by simp)
  have hrepeats : Repeats [batch, groups, count, height, width] [batch, 1, 1, height, width] :=
    .cons (.inl rfl) (.cons (.inr rfl) (.cons (.inr rfl) (Repeats.refl _)))
  obtain ⟨u, hu, husingle, hentry⟩ := ht.zip hsharedSingle hrepeats f
  refine ⟨shared, u, hshared, hu, husingle, fun b g k y x hb hg hk hy hx => ?_⟩
  have hfold : foldIndex [batch, 1, 1, height, width] [b, g, k, y, x] = [b, 0, 0, y, x] := by
    rw [foldIndex_cons hb (by rfl), foldIndex_one_cons (by rfl), foldIndex_one_cons (by rfl),
      foldIndex_self (within_two hy hx : Within [y, x] [height, width])]
  have hpixel : shared.get [b, 0, 0, y, x] = w.get [b, 0, y, x] := hspread [b, 0, y, x] (by simp)
  rw [← hpixel, ← hfold]
  exact hentry _ (within_five hb hg hk hy hx)

theorem weightFloor_real : (weightFloor : ℝ) = 1 / (10 ^ 5 : ℕ) := by
  rw [weightFloor]
  norm_num

/-- The similarities of all source views, weighted by how much each view counts. -/
theorem fuse_ok {n : Nat} (hn : 0 < n) (similarity weight : Fin n → Tensor ℝ)
    (hsimilarity : ∀ v, (similarity v).IsSingle [batch, groups, count, height, width])
    (hweight : ∀ v, (weight v).IsSingle [batch, 1, height, width]) :
    ∃ u, fuse (List.ofFn fun v => (similarity v, weight v)) = .ok u ∧
      u.IsSingle [batch, groups, count, height, width] ∧
      ∀ b g k y x, b < batch → g < groups → k < count → y < height → x < width →
        u.get [b, g, k, y, x] =
          (∑ v, (weight v).get [b, 0, y, x] * (similarity v).get [b, g, k, y, x]) /
            max (∑ v, (weight v).get [b, 0, y, x]) (1 / (10 ^ 5 : ℕ)) := by
  obtain ⟨m, rfl⟩ : ∃ m, n = m + 1 := ⟨n - 1, by omega⟩
  choose shared weighted hshared hweighted hsingle hproduct using fun v =>
    zip_pixels_ok (hsimilarity v) (hweight v) (· * ·)
  obtain ⟨top, htop, htopShape, htopKind, hadd⟩ :=
    Twins.total_ok weighted fun v => ⟨(hsingle v).shape_eq, (hsingle v).kind_eq⟩
  obtain ⟨sum, hsum, hsumShape, hsumKind, haddWeights⟩ :=
    Twins.total_ok weight fun v => ⟨(hweight v).shape_eq, (hweight v).kind_eq⟩
  obtain ⟨hfloorSingle, hfloor⟩ := IsSingle.atLeast ⟨hsumShape, hsumKind⟩ weightFloor
  obtain ⟨bottom, u, hbottom, hu, husingle, hquotient⟩ :=
    zip_pixels_ok ⟨htopShape, htopKind⟩ hfloorSingle (· / ·)
  have hall : (List.ofFn fun v => (similarity v, weight v)).mapM
      (fun c => do Tensor.zip (· * ·) c.1 (← c.2.unsqueeze 1)) = .ok (List.ofFn weighted) :=
    mapM_ofFn_ok fun v => by simp only [hshared, ok_bind, hweighted]
  have hfuse : fuse (List.ofFn fun v => (similarity v, weight v)) = .ok u := by
    have hsplit : fuse (List.ofFn fun v => (similarity v, weight v)) = (do
        let weighted ← (List.ofFn fun v => (similarity v, weight v)).mapM
          fun c => do Tensor.zip (· * ·) c.1 (← c.2.unsqueeze 1)
        let top ← total weighted
        let sum ← total ((List.ofFn fun v => (similarity v, weight v)).map Prod.snd)
        Tensor.zip (· / ·) top (← (sum.atLeast weightFloor).unsqueeze 1)) := rfl
    rw [hsplit, hall]
    simp only [htop, List.map_ofFn, Function.comp_def, hsum, hbottom, ok_bind, hu]
  refine ⟨u, hfuse, husingle, fun b g k y x hb hg hk hy hx => ?_⟩
  have hpixel : Within [b, 0, y, x] [batch, 1, height, width] := within_four hb Nat.one_pos hy hx
  rw [hquotient b g k y x hb hg hk hy hx, hadd _ (within_five hb hg hk hy hx), hfloor _ hpixel,
    haddWeights _ hpixel, maximum_real, weightFloor_real]
  refine congrArg (· / _) (Finset.sum_congr rfl fun v _ => ?_)
  rw [hproduct v b g k y x hb hg hk hy hx, mul_comm]

/-- Costs are gathered from the neighbors of every pixel and turned into probabilities. -/
theorem score_ok (head : VoxelHead groups) {grid : NeighborGrid ℝ}
    (hhead : matcher.similarityHead = head.layer) (hbatch : 0 < batch) (hcount : 0 < count)
    (hheight : 0 < height) (hwidth : 0 < width)
    (ht : t.IsSingle [batch, groups, count, height, width])
    (hpoints : grid.points.IsSingle [batch, grid.neighbors * height, width, 2])
    (hw : w.IsSingle [batch, count, grid.neighbors, height, width]) :
    ∃ u, matcher.score t grid w batch count height width = .ok u ∧
      u.IsSingle [batch, count, height, width] ∧
      ∀ b k y x, b < batch → k < count → y < height → x < width →
        let cost := fun k => grid.gather w (fun y x => head.rate fun g => t.get [b, g, k, y, x])
          height width b k y x
        u.get [b, k, y, x] = Real.exp (cost k) / ∑ e : Fin count, Real.exp (cost e) := by
  obtain ⟨rated, flat, hrated, hflat, hsingle, hrate⟩ := rated_ok head hbatch ht
  obtain ⟨found, stacked, hfound, hstacked, hstackedSingle, hread⟩ :=
    Sampling.sample_stacked hsingle hpoints hheight hwidth .border
  obtain ⟨product, sum, gathered, hproduct, hsum, hgathered, hgatheredSingle, hadd⟩ :=
    weigh_ok hstackedSingle hw
  obtain ⟨u, hu, husingle, hexp⟩ := hgatheredSingle.softmax
    (show [batch, count, height, width][1]? = some count from rfl) hcount
  refine ⟨u, by simp only [score, hhead, hrated, hflat, hfound, hstacked, hproduct, hsum,
    hgathered, ok_bind, hu], husingle, fun b k y x hb hk hy hx => ?_⟩
  intro cost
  have hcost (k : Nat) (hk : k < count) : gathered.get [b, k, y, x] = cost k := by
    calc gathered.get [b, k, y, x]
        = grid.gather w (fun y x => flat.get [b, k, y, x]) height width b k y x := by
          rw [hadd b k y x hb hk hy hx]
          refine Finset.sum_congr rfl fun n _ => ?_
          rw [hread b k n y x hb hk n.isLt hy hx, mul_comm]
      _ = cost k := NeighborGrid.gather_congr hheight hwidth
          (fun y x hy hx => hrate b k y x hb hk hy hx) b k y x
  rw [hexp _ (within_four hb hk hy hx), hcost k hk]
  exact congrArg (Real.exp (cost k) / ·)
    (Finset.sum_congr rfl fun e _ => congrArg Real.exp (hcost e e.isLt))

end Matcher

end MultiViewDepth
