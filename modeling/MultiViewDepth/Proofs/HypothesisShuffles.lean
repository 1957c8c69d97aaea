import MultiViewDepth.Proofs.ComparedViews
import MultiViewDepth.Proofs.NeighborShares
import MultiViewDepth.Proofs.ViewOrder

/-!
The order of the hypotheses does not matter.

Along a scoring the axis of the hypotheses is folded with rows of points, with voxels, with channels
of a map and with neighbors. Each step keeps the hypotheses apart: with the hypotheses in another
order it gives its result in that order. Only the searches and sums over all hypotheses mix them,
and these do not depend on any order.
-/
namespace MultiViewDepth

open Tensor Arithmetic

section Orders

variable {n : Nat} {σ : Equiv.Perm (Fin n)} {t u : Tensor ℝ} {shape : List Nat} {axis : Nat}

theorem viewAt_lt {k : Nat} (hk : k < n) : viewAt σ k < n := by
  rw [viewAt, dif_pos hk]
  exact (σ ⟨k, hk⟩).isLt

theorem viewAt_val (k : Fin n) : viewAt σ k = σ k := by
  rw [viewAt, dif_pos k.isLt]

/-- The slices along an axis in another order: slice `k` is slice `σ k` of the array. -/
noncomputable def Tensor.permute (axis : Nat) (σ : Equiv.Perm (Fin n)) (t : Tensor ℝ) : Tensor ℝ :=
  t.reorder axis (viewAt σ)

namespace Tensor

@[simp] theorem shape_permute (axis : Nat) (σ : Equiv.Perm (Fin n)) (t : Tensor ℝ) :
    (t.permute axis σ).shape = t.shape := rfl
@[simp] theorem kind_permute (axis : Nat) (σ : Equiv.Perm (Fin n)) (t : Tensor ℝ) :
    (t.permute axis σ).kind = t.kind := kind_reorder t axis _

theorem IsSingle.permute (h : t.IsSingle shape) (axis : Nat) (σ : Equiv.Perm (Fin n)) :
    (t.permute axis σ).IsSingle shape :=
  ⟨h.shape_eq, (kind_permute axis σ t).trans h.kind_eq⟩

theorem permute_get {index : List Nat} (h : t.IsSingle shape) (hw : Within index shape) :
    (t.permute axis σ).get index = t.get (index.modify axis (viewAt σ)) :=
  get_derive₂ h.kind_eq (h.shape_eq ▸ hw) _

/-- Entries that are those of another slice make up the array in another order. -/
theorem IsSingle.eq_permute (ht : t.IsSingle shape) (hu : u.IsSingle shape)
    (h : ∀ index, Within index shape → u.get index = t.get (index.modify axis (viewAt σ))) :
    u = t.permute axis σ :=
  ext_get hu.kind_eq (ht.permute axis σ).kind_eq
    (hu.shape_eq.trans ht.shape_eq.symm) fun index hw => by
      rw [hu.shape_eq] at hw
      rw [h index hw, permute_get ht hw]

/-- Of nothing there is one order only. -/
theorem permute_of_empty (h : volume t.shape = 0) (axis : Nat) (σ : Equiv.Perm (Fin n)) :
    t.permute axis σ = t :=
  ext_entries rfl (kind_permute axis σ t) (.inr h) fun _ _ hw => absurd h (volume_ne_zero hw)

end Tensor

end Orders

section Views

variable {batch count height width : Nat} {σ : Equiv.Perm (Fin count)}
  {source depth warped reference : Tensor ℝ}

/-- Source features are found hypothesis by hypothesis, or for no hypotheses at all. -/
theorem Reprojection.features_outcome (hsource : source.kind = .single) (projection
    referenceProjection : Tensor ℝ) (batch count height width : Nat) :
    (∃ e, ∀ depth, depth.IsSingle [batch, count, height, width] →
      Reprojection.features source projection referenceProjection depth = .error e) ∨
    ∃ (channels : Nat) (found : Nat → Nat → Nat → Nat → ℝ → ℝ),
      ∀ depth, depth.IsSingle [batch, count, height, width] →
        ∃ u, Reprojection.features source projection referenceProjection depth = .ok u ∧
          u.IsSingle [batch, channels, count, height, width] ∧
          ∀ b c k y x, b < batch → c < channels → k < count → y < height → x < width →
            u.get [b, c, k, y, x] = found b c y x (depth.get [b, k, y, x]) := by
  cases hsizes : source.sizes4 with
  | error e =>
    refine .inl ⟨e, fun depth _ => ?_⟩
    simp only [Reprojection.features, hsizes, error_bind]
  | ok sizes =>
    obtain ⟨sourceBatch, channels, rows, columns⟩ := sizes
    by_cases hfit : batch = sourceBatch ∧ height = rows ∧ width = columns
    · obtain ⟨rfl, rfl, rfl⟩ := hfit
      have hsingle : source.IsSingle [batch, channels, height, width] :=
        ⟨sizes4_eq_ok.1 hsizes, hsource⟩
      cases hpose : RelativePose.between projection referenceProjection with
      | error e =>
        refine .inl ⟨e, fun depth hdepth => ?_⟩
        simp only [Reprojection.features, hsizes, sizes4_eq_ok.2 hdepth.shape_eq, ok_bind,
          and_self, if_true, points, hpose, error_bind]
      | ok pose =>
        by_cases hsize : pose.rotation.size 0 = batch
        · refine .inr ⟨channels, fun b c y x d =>
            let found := land height width (pose.apply b 0 x y d) (pose.apply b 1 x y d)
              (pose.apply b 2 x y d)
            Sampling.readMap (fun y x => source.get [b, c, y, x]) height width .zeros found.2
              found.1, fun depth hdepth => ?_⟩
          obtain ⟨found, hfound, hfoundSingle, hland⟩ := points_of_pose hpose hsize hdepth
          obtain ⟨u, hu, husingle, hget⟩ :=
            features_of_points hsingle hdepth hfound hfoundSingle
          refine ⟨u, hu, husingle, fun b c k y x hb hc hk hy hx => ?_⟩
          obtain ⟨hcolumn, hrow⟩ := hland b k y x hb hk hy hx
          rw [hget b c k y x hb hc hk hy hx, hcolumn, hrow]
        · refine .inl ⟨.shapeMismatch .projectionBatch [batch, 4, 4] projection.shape,
            fun depth hdepth => ?_⟩
          simp only [Reprojection.features, hsizes, sizes4_eq_ok.2 hdepth.shape_eq, ok_bind,
            and_self, if_true, points, hpose, if_neg hsize, throw_eq_error, error_bind]
    · refine .inl ⟨.shapeMismatch .depthHypotheses [sourceBatch, count, rows, columns]
        [batch, count, height, width], fun depth hdepth => ?_⟩
      simp only [Reprojection.features, hsizes, sizes4_eq_ok.2 hdepth.shape_eq, ok_bind,
        if_neg hfit, throw_eq_error, error_bind, hdepth.shape_eq]

theorem features_permute (hsource : source.kind = .single)
    (projection referenceProjection : Tensor ℝ)
    (hdepth : depth.IsSingle [batch, count, height, width]) (σ : Equiv.Perm (Fin count)) :
    Reprojection.features source projection referenceProjection (depth.permute 1 σ) =
      Tensor.permute 2 σ <$>
        Reprojection.features source projection referenceProjection depth := by
  obtain ⟨e, hfails⟩ | ⟨channels, found, hfinds⟩ := Reprojection.features_outcome hsource projection
    referenceProjection batch count height width
  · rw [hfails _ hdepth, hfails _ (hdepth.permute 1 σ)]
    rfl
  · obtain ⟨u, hu, husingle, hget⟩ := hfinds _ hdepth
    obtain ⟨u', hu', husingle', hget'⟩ := hfinds _ (hdepth.permute 1 σ)
    rw [hu, hu']
    refine congrArg Except.ok (husingle.eq_permute husingle' fun index hw => ?_)
    obtain ⟨b, index, rfl, hb, hw⟩ := hw.exists_cons
    obtain ⟨c, k, y, x, rfl, hc, hk, hy, hx⟩ := hw.exists_four
    have hsame : (depth.permute 1 σ).get [b, k, y, x] = depth.get [b, viewAt σ k, y, x] :=
      permute_get hdepth (within_four hb hk hy hx)
    rw [hget' b c k y x hb hc hk hy hx, hsame]
    exact (hget b c _ y x hb hc (viewAt_lt hk) hy hx).symm

theorem groupSimilarity_permute {channels : Nat}
    (hwarped : warped.IsSingle [batch, channels, count, height, width]) (reference : Tensor ℝ)
    (groups : Nat) (σ : Equiv.Perm (Fin count)) :
    groupSimilarity (warped.permute 2 σ) reference groups =
      Tensor.permute 2 σ <$> groupSimilarity warped reference groups := by
  have hpermuted := hwarped.permute 2 σ
  simp only [groupSimilarity, sizes5_eq_ok.2 hwarped.shape_eq, sizes5_eq_ok.2 hpermuted.shape_eq,
    ok_bind, kind_permute, shape_permute]
  split
  · rfl
  next hgroups =>
    refine bind_congr_map fun sizes => ?_
    split
    · split
      · refine congrArg Except.ok ?_
        rw [derive₂_of_single hwarped.kind_eq, derive₂_of_single hpermuted.kind_eq]
        refine (isSingle_ofFn _ _).eq_permute (isSingle_ofFn _ _) fun index hw => ?_
        obtain ⟨b, index, rfl, hb, hw⟩ := hw.exists_cons
        obtain ⟨g, k, y, x, rfl, hg, hk, hy, hx⟩ := hw.exists_four
        have hmod : channels % groups = 0 := by simpa using (not_or.1 hgroups).2
        have hmoved : Within ([b, g, k, y, x].modify 2 (viewAt σ))
            [batch, groups, count, height, width] := within_five hb hg (viewAt_lt hk) hy hx
        rw [get_ofFn (within_five hb hg hk hy hx), get_ofFn hmoved]
        refine meanTo_congr fun c hc => ?_
        rw [permute_get hwarped (within_five hb (groupChannel_lt hmod hg hc) hk hy hx)]
        rfl
      · rfl
    · rfl

end Views

section Steps

variable {batch groups count layers height width : Nat} {σ : Equiv.Perm (Fin count)}
  {t weight depth score : Tensor ℝ}

theorem permute_column (ht : t.IsSingle [batch, count, height, width]) {b y x : Nat}
    (hb : b < batch) (hy : y < height) (hx : x < width) (k : Fin count) :
    (t.permute 1 σ).get [b, k, y, x] = t.get [b, σ k, y, x] := by
  rw [permute_get ht (within_four hb k.isLt hy hx), ← viewAt_val]
  rfl

/-- The largest entries over all hypotheses do not depend on their order. -/
theorem maximum_permute (ht : t.IsSingle [batch, count, height, width]) (hcount : 0 < count)
    (σ : Equiv.Perm (Fin count)) : (t.permute 1 σ).maximum 1 = t.maximum 1 := by
  obtain ⟨u, hu, husingle, hget⟩ := maximum_ok ht hcount
  obtain ⟨u', hu', husingle', hget'⟩ := maximum_ok (ht.permute 1 σ) hcount
  rw [hu, hu']
  refine congrArg Except.ok (ext_get husingle'.kind_eq husingle.kind_eq
    (husingle'.shape_eq.trans husingle.shape_eq.symm) fun index hw => ?_)
  rw [husingle'.shape_eq] at hw
  obtain ⟨b, k, y, x, rfl, hb, hk, hy, hx⟩ := hw.exists_four
  obtain rfl : k = 0 := by omega
  rw [hget b y x hb hy hx, hget' b y x hb hy hx]
  simp only [permute_column ht hb hy hx]
  exact Equiv.iSup_comp (g := fun k : Fin count => t.get [b, k, y, x]) σ

/-- A head rates the hypotheses one by one. -/
theorem VoxelHead.rated_permute (head : VoxelHead groups) (hbatch : 0 < batch)
    (ht : t.IsSingle [batch, groups, count, height, width]) (σ : Equiv.Perm (Fin count)) :
    ∃ rated rated' flat, head.layer t = .ok rated ∧ rated.squeeze 1 = .ok flat ∧
      head.layer (t.permute 2 σ) = .ok rated' ∧ rated'.squeeze 1 = .ok (flat.permute 1 σ) ∧
      flat.IsSingle [batch, count, height, width] := by
  obtain ⟨rated, flat, hrated, hflat, hsingle, hget⟩ := Matcher.rated_ok head hbatch ht
  obtain ⟨rated', flat', hrated', hflat', hsingle', hget'⟩ :=
    Matcher.rated_ok head hbatch (ht.permute 2 σ)
  have hsame : flat' = flat.permute 1 σ := by
    refine hsingle.eq_permute hsingle' fun index hw => ?_
    obtain ⟨b, k, y, x, rfl, hb, hk, hy, hx⟩ := hw.exists_four
    rw [hget' b k y x hb hk hy hx]
    refine Eq.trans (congrArg head.rate (funext fun g => ?_))
      (hget b _ y x hb (viewAt_lt hk) hy hx).symm
    exact permute_get ht (within_five hb g.isLt hk hy hx)
  exact ⟨rated, rated', flat, hrated, hflat, hrated', hsame ▸ hflat', hsingle⟩

/-- Neighbors are weighed and added up hypothesis by hypothesis. -/
theorem weigh_permute (ht : t.IsSingle [batch, count, layers, height, width])
    (hweight : weight.IsSingle [batch, count, layers, height, width]) (σ : Equiv.Perm (Fin count)) :
    ∃ product product' sum sum' u, Tensor.zip (· * ·) t weight = .ok product ∧
      product.sum 2 = .ok sum ∧ sum.squeeze 2 = .ok u ∧
      Tensor.zip (· * ·) (t.permute 1 σ) (weight.permute 1 σ) = .ok product' ∧
      product'.sum 2 = .ok sum' ∧ sum'.squeeze 2 = .ok (u.permute 1 σ) ∧
      u.IsSingle [batch, count, height, width] := by
  obtain ⟨product, sum, u, hproduct, hsum, hu, husingle, hget⟩ := weigh_ok ht hweight
  obtain ⟨product', sum', u', hproduct', hsum', hu', husingle', hget'⟩ :=
    weigh_ok (ht.permute 1 σ) (hweight.permute 1 σ)
  have hsame : u' = u.permute 1 σ := by
    refine husingle.eq_permute husingle' fun index hw => ?_
    obtain ⟨b, k, y, x, rfl, hb, hk, hy, hx⟩ := hw.exists_four
    rw [hget' b k y x hb hk hy hx]
    refine (Finset.sum_congr rfl fun n _ => ?_).trans (hget b _ y x hb (viewAt_lt hk) hy hx).symm
    have hw := within_five hb hk n.isLt hy hx
    rw [permute_get ht hw, permute_get hweight hw]
    rfl
  exact ⟨product, product', sum, sum', u, hproduct, hsum, hu, hproduct', hsum', hsame ▸ hu',
    husingle⟩

/-- Exponents in another order have exponentials in that order, and one sum. -/
theorem softmax_permute (ht : t.IsSingle [batch, count, height, width]) (hcount : 0 < count)
    (σ : Equiv.Perm (Fin count)) :
    (t.permute 1 σ).softmax 1 = Tensor.permute 1 σ <$> t.softmax 1 := by
  have haxis : [batch, count, height, width][1]? = some count := rfl
  obtain ⟨u, hu, husingle, hget⟩ := ht.softmax haxis hcount
  obtain ⟨u', hu', husingle', hget'⟩ := (ht.permute 1 σ).softmax haxis hcount
  rw [hu, hu']
  refine congrArg Except.ok (husingle.eq_permute husingle' fun index hw => ?_)
  obtain ⟨b, k, y, x, rfl, hb, hk, hy, hx⟩ := hw.exists_four
  have htotal : ∑ i : Fin count, Real.exp ((t.permute 1 σ).get [b, i, y, x]) =
      ∑ i : Fin count, Real.exp (t.get [b, i, y, x]) := by
    simp only [permute_column ht hb hy hx]
    exact Equiv.sum_comp σ fun i => Real.exp (t.get [b, i, y, x])
  have hmoved : Within ([b, k, y, x].modify 1 (viewAt σ)) [batch, count, height, width] :=
    within_four hb (viewAt_lt hk) hy hx
  rw [hget' _ hw, hget _ hmoved, permute_get ht hw]
  exact congrArg _ htotal

/-- The mean depth does not depend on the order of the depths. -/
theorem meanDepth_permute (hdepth : depth.IsSingle [batch, count, height, width])
    (hscore : score.IsSingle [batch, count, height, width]) (σ : Equiv.Perm (Fin count)) :
    Readout.meanDepth (depth.permute 1 σ) (score.permute 1 σ) = Readout.meanDepth depth score := by
  obtain ⟨u, hu, husingle, hget⟩ := Readout.meanDepth_ok hdepth hscore
  obtain ⟨u', hu', husingle', hget'⟩ :=
    Readout.meanDepth_ok (hdepth.permute 1 σ) (hscore.permute 1 σ)
  rw [hu, hu']
  refine congrArg Except.ok (ext_get husingle'.kind_eq husingle.kind_eq
    (husingle'.shape_eq.trans husingle.shape_eq.symm) fun index hw => ?_)
  rw [husingle'.shape_eq] at hw
  obtain ⟨b, k, y, x, rfl, hb, hk, hy, hx⟩ := hw.exists_four
  obtain rfl : k = 0 := by omega
  rw [hget b y x hb hy hx, hget' b y x hb hy hx]
  simp only [permute_column hdepth hb hy hx, permute_column hscore hb hy hx]
  exact Equiv.sum_comp σ fun k => depth.get [b, k, y, x] * score.get [b, k, y, x]

/-- The entries around a pixel are read map by map, or none can be read. -/
theorem NeighborGrid.around_permute {grid : NeighborGrid ℝ} {γ : Type}
    {step step' : Tensor ℝ → Result γ} {change : γ → γ} (hcount : 0 < count)
    (ht : t.IsSingle [batch, count, height, width])
    (hstep : ∀ around, around.IsSingle [batch, count, grid.neighbors, height, width] →
      step' (around.permute 1 σ) = change <$> step around) :
    (do step' (← (← Sampling.sample (t.permute 1 σ) grid.points .border).reshape
        [batch, count, grid.neighbors, height, width])) =
      change <$> (do step (← (← Sampling.sample t grid.points .border).reshape
        [batch, count, grid.neighbors, height, width])) := by
  obtain ⟨e, hrefuses⟩ | hfits := grid.refuses_or_fits batch height width
  · simp only [← bind_assoc, hrefuses count _ hcount ht, hrefuses count _ hcount (ht.permute 1 σ),
      error_bind]
    rfl
  · obtain ⟨found, around, hfound, haround, hsingle, hread⟩ := hfits count _ hcount ht
    obtain ⟨found', around', hfound', haround', hsingle', hread'⟩ :=
      hfits count _ hcount (ht.permute 1 σ)
    simp only [hfound, hfound', haround, haround', ok_bind]
    have hsame : around' = around.permute 1 σ := by
      refine hsingle.eq_permute hsingle' fun index hw => ?_
      obtain ⟨b, index, rfl, hb, hw⟩ := hw.exists_cons
      obtain ⟨k, n, y, x, rfl, hk, hn, hy, hx⟩ := hw.exists_four
      rw [hread' b k n y x hb hk hn hy hx]
      refine Eq.trans ?_ (hread b _ n y x hb (viewAt_lt hk) hn hy hx).symm
      exact Sampling.readMap_congr (Nat.zero_lt_of_lt hy) (Nat.zero_lt_of_lt hx)
        (fun i j hi hj => permute_get ht (within_four hb hk hi hj)) _ _ _
    rw [hsame]
    exact hstep around hsingle

theorem Matcher.score_permute {matcher : Matcher ℝ} {head : VoxelHead groups}
    {grid : NeighborGrid ℝ} (hhead : matcher.similarityHead = head.layer) (hbatch : 0 < batch)
    (hcount : 0 < count)
    (ht : t.IsSingle [batch, groups, count, height, width])
    (hweight : weight.IsSingle [batch, count, grid.neighbors, height, width])
    (σ : Equiv.Perm (Fin count)) :
    matcher.score (t.permute 2 σ) grid (weight.permute 1 σ) batch count height width =
      Tensor.permute 1 σ <$> matcher.score t grid weight batch count height width := by
  obtain ⟨rated, rated', flat, hrated, hflat, hrated', hflat', hsingle⟩ :=
    head.rated_permute hbatch ht σ
  simp only [score, hhead, hrated, hrated', hflat, hflat', ok_bind]
  refine NeighborGrid.around_permute hcount hsingle fun around haround => ?_
  obtain ⟨product, product', sum, sum', costs, hproduct, hsum, hcosts, hproduct', hsum', hcosts',
    hcostsSingle⟩ := weigh_permute haround hweight σ
  simp only [hproduct, hproduct', hsum, hsum', hcosts, hcosts', ok_bind]
  exact softmax_permute hcostsSingle hcount σ

end Steps

section Weights

open NeighborWeight

variable {batch count neighbors height width : Nat} {depth near features : Tensor ℝ}

/-- The depths around each hypothesis are compared with that hypothesis alone. -/
theorem ofDepth_permute (hdepth : depth.IsSingle [batch, count, height, width])
    (σ : Equiv.Perm (Fin count)) (grid : NeighborGrid ℝ) (range : DepthRange ℝ) (interval : ℝ) :
    ofDepth (depth.permute 1 σ) grid range interval =
      Tensor.permute 1 σ <$> ofDepth depth grid range interval := by
  rcases Nat.eq_zero_or_pos count with rfl | hcount
  · have hempty : volume depth.shape = 0 := by simp [hdepth.shape_eq]
    rw [permute_of_empty hempty]
    cases hnear : ofDepth depth grid range interval with
    | error e => rfl
    | ok near =>
      have hsingle := ofDepth_isSingle hdepth hnear
      have hempty : volume near.shape = 0 := by simp [hsingle.shape_eq]
      rw [map_ok, permute_of_empty hempty]
  obtain ⟨e, hrefuses⟩ | hfits := grid.refuses_or_fits batch height width
  · rw [ofDepth_of_refuses hrefuses hcount hdepth,
      ofDepth_of_refuses hrefuses hcount (hdepth.permute 1 σ)]
    rfl
  · obtain ⟨u, hu, husingle, hget⟩ := ofDepth_of_fits hfits hcount hdepth
    obtain ⟨u', hu', husingle', hget'⟩ := ofDepth_of_fits hfits hcount (hdepth.permute 1 σ)
    rw [hu, hu']
    refine congrArg Except.ok (husingle.eq_permute husingle' fun index hw => ?_)
    obtain ⟨b, index, rfl, hb, hw⟩ := hw.exists_cons
    obtain ⟨k, n, y, x, rfl, hk, hn, hy, hx⟩ := hw.exists_four
    have hmoved (i j : Nat) (hi : i < height) (hj : j < width) :
        1 / (depth.permute 1 σ).get [b, k, i, j] = 1 / depth.get [b, viewAt σ k, i, j] + 0 := by
      rw [permute_get hdepth (within_four hb hk hi hj), add_zero]
      rfl
    rw [hget' b k n y x hb hk hn hy hx, inverseGap_of_shift hmoved hy hx]
    exact (hget b _ n y x hb (viewAt_lt hk) hn hy hx).symm

theorem combine_permute (hnear : near.IsSingle [batch, count, neighbors, height, width])
    (hfeatures : features.IsSingle [batch, neighbors, height, width]) (σ : Equiv.Perm (Fin count)) :
    combine (near.permute 1 σ) features = Tensor.permute 1 σ <$> combine near features := by
  obtain ⟨u, hu, husingle, hget⟩ := combine_ok hnear hfeatures
  obtain ⟨u', hu', husingle', hget'⟩ := combine_ok (hnear.permute 1 σ) hfeatures
  rw [hu, hu']
  refine congrArg Except.ok (husingle.eq_permute husingle' fun index hw => ?_)
  obtain ⟨b, index, rfl, hb, hw⟩ := hw.exists_cons
  obtain ⟨k, n, y, x, rfl, hk, hn, hy, hx⟩ := hw.exists_four
  have hentry (m : Nat) (hm : m < neighbors) :
      (near.permute 1 σ).get [b, k, m, y, x] = near.get [b, viewAt σ k, m, y, x] :=
    permute_get hnear (within_five hb hk hm hy hx)
  rw [hget' b k n y x hb hk hn hy hx]
  refine Eq.trans ?_ (hget b _ n y x hb (viewAt_lt hk) hn hy hx).symm
  rw [hentry n hn]
  simp only [hentry _ (Fin.isLt _)]

end Weights

section Evaluating

open NeighborWeight Blueprint

/-- What is done with the hypotheses of a round once they are chosen. -/
noncomputable def Matcher.step [WorkerPool] (matcher : Matcher ℝ) (views : ViewFeatures ℝ)
    (range : DepthRange ℝ) (interval : ℝ) (surroundings : Surroundings ℝ) (depth : Tensor ℝ)
    (carried : Option (Tensor ℝ)) (readout : Readout) : Result (Verdict ℝ) := do
  let weight ← combine (← ofDepth depth surroundings.support range interval)
    surroundings.featureWeight
  matcher.evaluate views depth surroundings.support weight carried readout

theorem Stage.round_eq_step [WorkerPool] {ρ : Type} [RandomSource ρ ℝ] (stage : Stage ℝ ℝ)
    (views : ViewFeatures ℝ) (range : DepthRange ℝ) (surroundings : Surroundings ℝ)
    (batch height width iteration : Nat) (estimate carried : Option (Tensor ℝ)) (rng : ρ) :
    stage.round views range surroundings batch height width iteration estimate carried rng = (do
      let (hypotheses, rng) ← stage.hypotheses range surroundings batch height width iteration
        estimate rng
      let verdict ← stage.matcher.step views range stage.settings.interval surroundings hypotheses
        carried (stage.readout iteration)
      return (⟨hypotheses, stage.readout iteration, verdict⟩, rng)) := by
  simp only [Stage.round, Matcher.step, bind_assoc]

noncomputable def Verdict.permute {n : Nat} (σ : Equiv.Perm (Fin n)) (verdict : Verdict ℝ) :
    Verdict ℝ :=
  { verdict with score := verdict.score.permute 1 σ }

namespace Matcher

variable {matcher : Matcher ℝ} {views : ViewFeatures ℝ} {depth weight t : Tensor ℝ}
  {grid : NeighborGrid ℝ} {carried : Option (Tensor ℝ)} {batch count height width : Nat}
  {viewHead : Option (VoxelHead matcher.groups)}

theorem viewWeight_permute (hhead : matcher.viewHead = viewHead.map VoxelHead.layer)
    (hbatch : 0 < batch) (hcount : 0 < count)
    (ht : t.IsSingle [batch, matcher.groups, count, height, width]) (σ : Equiv.Perm (Fin count)) :
    matcher.viewWeight (t.permute 2 σ) = matcher.viewWeight t := by
  cases viewHead with
  | none => simp only [viewWeight, hhead, Option.map]
  | some head =>
    obtain ⟨rated, rated', flat, hrated, hflat, hrated', hflat', hsingle⟩ :=
      head.rated_permute hbatch ht σ
    simp only [viewWeight, hhead, Option.map, hrated, hrated', hflat, hflat', ok_bind]
    exact maximum_permute hsingle hcount σ

theorem compare_permute (hsources : ∀ source ∈ views.sources, source.kind = .single)
    (hdepth : depth.IsSingle [batch, count, height, width]) (σ : Equiv.Perm (Fin count))
    (hview : ∀ t, matcher.groups ≠ 0 → t.IsSingle [batch, matcher.groups, count, height, width] →
      matcher.viewWeight (t.permute 2 σ) = matcher.viewWeight t) (i : Nat) :
    matcher.compare views (depth.permute 1 σ) carried i =
      Prod.map (Tensor.permute 2 σ) id <$> matcher.compare views depth carried i := by
  unfold compare
  split
  next source projection hsource hprojection =>
    have hkind := hsources source (List.mem_of_getElem? hsource)
    refine bind_map_of_ok (features_permute hkind _ _ hdepth σ) fun warped hwarped => ?_
    obtain ⟨channels, hshape, hwarpedKind⟩ :=
      Reprojection.features_eq_ok hdepth.shape_eq hwarped
    refine bind_map_of_ok (groupSimilarity_permute ⟨hshape, hwarpedKind.trans hkind⟩ _ _ σ)
      fun similarity hsimilarity => ?_
    obtain ⟨hgroups, hshape, hsame⟩ := groupSimilarity_eq_ok hshape hsimilarity
    cases carried with
    | none =>
      dsimp only
      rw [hview similarity hgroups ⟨hshape, hsame.trans (hwarpedKind.trans hkind)⟩]
      exact bind_congr_map fun _ => rfl
    | some weights => exact bind_congr_map fun _ => rfl
  next => rfl

/-- The weighted mean over the views is taken hypothesis by hypothesis. -/
theorem fuse_permute {groups : Nat} {compared : List (Tensor ℝ × Tensor ℝ)} (hne : compared ≠ [])
    (hcompared : ∀ c ∈ compared, c.1.IsSingle [batch, groups, count, height, width] ∧
      c.2.IsSingle [batch, 1, height, width]) (σ : Equiv.Perm (Fin count)) :
    ∃ u, fuse compared = .ok u ∧ u.IsSingle [batch, groups, count, height, width] ∧
      fuse (compared.map (Prod.map (Tensor.permute 2 σ) id)) = .ok (u.permute 2 σ) := by
  have hpermuted : ∀ c ∈ compared.map (Prod.map (Tensor.permute 2 σ) id),
      c.1.IsSingle [batch, groups, count, height, width] ∧
        c.2.IsSingle [batch, 1, height, width] := by
    intro c hc
    obtain ⟨d, hd, rfl⟩ := List.mem_map.1 hc
    exact ⟨(hcompared d hd).1.permute 2 σ, (hcompared d hd).2⟩
  obtain ⟨u, hu, husingle, hget⟩ := fuse_list hne hcompared
  obtain ⟨u', hu', husingle', hget'⟩ := fuse_list (by simpa using hne) hpermuted
  have hsame : u' = u.permute 2 σ := by
    refine husingle.eq_permute husingle' fun index hw => ?_
    obtain ⟨b, index, rfl, hb, hw⟩ := hw.exists_cons
    obtain ⟨g, k, y, x, rfl, hg, hk, hy, hx⟩ := hw.exists_four
    have hweight : totalWeight (compared.map (Prod.map (Tensor.permute 2 σ) id)) b y x =
        totalWeight compared b y x := by
      rw [totalWeight, List.map_map]
      rfl
    have hsimilarity :
        totalSimilarity (compared.map (Prod.map (Tensor.permute 2 σ) id)) b g k y x =
          totalSimilarity compared b g (viewAt σ k) y x := by
      rw [totalSimilarity, List.map_map]
      refine congrArg List.sum (List.map_congr_left fun c hc =>
        congrArg (c.2.get [b, 0, y, x] * ·) ?_)
      exact permute_get (hcompared c hc).1 (within_five hb hg hk hy hx)
    rw [hget' b g k y x hb hg hk hy hx, hsimilarity, hweight]
    exact (hget b g _ y x hb hg (viewAt_lt hk) hy hx).symm
  exact ⟨u, hu, husingle, hsame ▸ hu'⟩

/-- Where there is no voxel at all, no order can be told from another. -/
theorem evaluate_permute_of_empty [WorkerPool] (hempty : volume [batch, count, height, width] = 0)
    (hdepth : depth.shape = [batch, count, height, width])
    (hweight : weight.shape = [batch, count, grid.neighbors, height, width])
    (σ : Equiv.Perm (Fin count)) (readout : Readout) :
    matcher.evaluate views (depth.permute 1 σ) grid (weight.permute 1 σ) carried readout =
      Verdict.permute σ <$> matcher.evaluate views depth grid weight carried readout := by
  have hnone : volume weight.shape = 0 := by
    rw [hweight]
    simp only [volume_cons, Nat.mul_eq_zero] at hempty ⊢
    tauto
  rw [permute_of_empty (hdepth ▸ hempty), permute_of_empty hnone]
  cases hverdict : matcher.evaluate views depth grid weight carried readout with
  | error e => rfl
  | ok verdict =>
    obtain ⟨batch', count', height', width', similarity, hshape, hscore, -⟩ :=
      Stage.evaluate_eq_ok hverdict
    obtain ⟨rfl, rfl, rfl, rfl⟩ : batch = batch' ∧ count = count' ∧ height = height' ∧
        width = width' := by simpa [hdepth] using hshape
    obtain ⟨rated, costs, -, hsoftmax, -, hcosts⟩ := score_parts hscore
    have hempty : volume verdict.score.shape = 0 := by
      rw [(softmax_eq_ok hsoftmax).1, hcosts hweight, hempty]
    rw [map_ok, Verdict.permute, permute_of_empty hempty]

/-- Hypotheses in another order get their probabilities in that order, and lead to one mean depth
and the same view weights. -/
theorem evaluate_permute [WorkerPool] (hmatcher : matcher.groups ≠ 0 → matcher.RatesVoxels)
    (hsources : ∀ source ∈ views.sources, source.kind = .single)
    (hkinds : ∀ weights ∈ carried, weights.kind = .single)
    (hdepth : depth.IsSingle [batch, count, height, width])
    (hweight : weight.IsSingle [batch, count, grid.neighbors, height, width])
    (σ : Equiv.Perm (Fin count)) :
    matcher.evaluate views (depth.permute 1 σ) grid (weight.permute 1 σ) carried .expectation =
      Verdict.permute σ <$> matcher.evaluate views depth grid weight carried .expectation := by
  by_cases hempty : volume [batch, count, height, width] = 0
  · exact evaluate_permute_of_empty hempty hdepth.shape_eq hweight.shape_eq σ _
  · have hbatch : 0 < batch := Nat.pos_of_ne_zero fun h => hempty (by simp [h])
    have hcount : 0 < count := Nat.pos_of_ne_zero fun h => hempty (by simp [h])
    have hview (t : Tensor ℝ) (hgroups : matcher.groups ≠ 0)
        (ht : t.IsSingle [batch, matcher.groups, count, height, width]) :
        matcher.viewWeight (t.permute 2 σ) = matcher.viewWeight t := by
      obtain ⟨head, hhead⟩ := (hmatcher hgroups).view
      exact viewWeight_permute hhead hbatch hcount ht σ
    simp only [evaluate, sizes4_eq_ok.2 hdepth.shape_eq,
      sizes4_eq_ok.2 (hdepth.permute 1 σ).shape_eq, ok_bind]
    refine bind_congr_of_ok fun n hn => bind_congr_of_ok fun _ hcarried => ?_
    refine bind_map_of_ok (Tasks.run_map matcher.parallel fun i _ =>
      compare_permute hsources hdepth σ hview i) fun compared hrun => ?_
    have hcompared := compared_isSingle (fun hgroups _ => hmatcher hgroups) hsources hdepth.shape_eq
      hkinds hcarried hrun
    have hne := compared_ne_nil hn hrun
    obtain ⟨first, hfirst⟩ := List.exists_mem_of_ne_nil compared hne
    have hmatcher := hmatcher (hcompared first hfirst).1
    obtain ⟨head, hhead⟩ := hmatcher.similarity
    obtain ⟨fused, hfused, hsingle, hpermuted⟩ :=
      fuse_permute hne (fun c hc => (hcompared c hc).2) σ
    have hweights : (compared.map (Prod.map (Tensor.permute 2 σ) id)).map Prod.snd =
        compared.map Prod.snd := by
      rw [List.map_map]
      rfl
    simp only [hfused, hpermuted, ok_bind, hweights]
    refine bind_map_of_ok (score_permute hhead hbatch hcount hsingle hweight σ)
      fun score hscore => ?_
    have hscoreSingle := score_isSingle hmatcher hbatch hsingle hweight.shape_eq hscore
    have hread : Readout.expectation.depth (depth.permute 1 σ) (score.permute 1 σ) =
        Readout.expectation.depth depth score := meanDepth_permute hdepth hscoreSingle σ
    rw [hread]
    refine bind_congr_map fun regressed => ?_
    cases carried with
    | none => exact bind_congr_map fun _ => rfl
    | some weights => rfl

theorem step_permute [WorkerPool] {range : DepthRange ℝ} {interval : ℝ}
    {surroundings : Surroundings ℝ} (hmatcher : matcher.groups ≠ 0 → matcher.RatesVoxels)
    (hsources : ∀ source ∈ views.sources, source.kind = .single)
    (hkinds : ∀ weights ∈ carried, weights.kind = .single)
    (hdepth : depth.IsSingle [batch, count, height, width])
    (hfeatures : surroundings.featureWeight.IsSingle
      [batch, surroundings.support.neighbors, height, width])
    (σ : Equiv.Perm (Fin count)) :
    matcher.step views range interval surroundings (depth.permute 1 σ) carried .expectation =
      Verdict.permute σ <$>
        matcher.step views range interval surroundings depth carried .expectation := by
  simp only [step]
  refine bind_map_of_ok (ofDepth_permute hdepth σ _ range interval) fun near hnear => ?_
  have hnearSingle := ofDepth_isSingle hdepth hnear
  refine bind_map_of_ok (combine_permute hnearSingle hfeatures σ) fun weight hweight => ?_
  obtain ⟨weight', hweight', hweightSingle, -⟩ := combine_ok hnearSingle hfeatures
  obtain rfl : weight = weight' := Except.ok.inj (hweight.symm.trans hweight')
  exact evaluate_permute hmatcher hsources hkinds hdepth hweightSingle σ

/-- Whether hypotheses are put in another order before or after a step makes no difference, and none
at all to the mean depth and the view weights. -/
theorem evaluate_hypothesisOrder [WorkerPool] (scope : String) (groups : Nat)
    (ratesViews parallel : Bool) (answers : String → Tensor ℝ)
    (hanswers : Answered
      (Matcher.blueprint scope groups ratesViews parallel : Blueprint ℝ _).requests answers)
    (batch count height width : Nat) (σ : Equiv.Perm (Fin count)) :
    let matcher : Matcher ℝ :=
      (Matcher.blueprint scope groups ratesViews parallel).assemble answers
    (∀ (views : ViewFeatures ℝ) (depth weight : Tensor ℝ) (grid : NeighborGrid ℝ)
      (carried : Option (Tensor ℝ)),
      (∀ source ∈ views.sources, source.kind = .single) →
      (∀ weights ∈ carried, weights.kind = .single) →
      depth.IsSingle [batch, count, height, width] →
      weight.IsSingle [batch, count, grid.neighbors, height, width] →
      matcher.evaluate views (depth.permute 1 σ) grid (weight.permute 1 σ) carried .expectation =
        Verdict.permute σ <$> matcher.evaluate views depth grid weight carried .expectation) ∧
    (∀ (depth : Tensor ℝ) (grid : NeighborGrid ℝ) (range : DepthRange ℝ) (interval : ℝ),
      depth.IsSingle [batch, count, height, width] →
      ofDepth (depth.permute 1 σ) grid range interval =
        Tensor.permute 1 σ <$> ofDepth depth grid range interval) ∧
    (∀ (neighbors : Nat) (near features : Tensor ℝ),
      near.IsSingle [batch, count, neighbors, height, width] →
      features.IsSingle [batch, neighbors, height, width] →
      combine (near.permute 1 σ) features = Tensor.permute 1 σ <$> combine near features) ∧
    ∀ (views : ViewFeatures ℝ) (range : DepthRange ℝ) (interval : ℝ)
      (surroundings : Surroundings ℝ) (depth : Tensor ℝ) (carried : Option (Tensor ℝ)),
      (∀ source ∈ views.sources, source.kind = .single) →
      (∀ weights ∈ carried, weights.kind = .single) →
      depth.IsSingle [batch, count, height, width] →
      surroundings.featureWeight.IsSingle
        [batch, surroundings.support.neighbors, height, width] →
      matcher.step views range interval surroundings (depth.permute 1 σ) carried .expectation =
        Verdict.permute σ <$>
          matcher.step views range interval surroundings depth carried .expectation := by
  have hmatcher (hgroups : groups ≠ 0) := assemble_ratesVoxels hgroups hanswers
  refine ⟨?_, ?_, ?_, ?_⟩
  · intro views depth weight grid carried hsources hkinds hdepth hweight
    exact evaluate_permute hmatcher hsources hkinds hdepth hweight σ
  · intro depth grid range interval hdepth
    exact ofDepth_permute hdepth σ grid range interval
  · intro neighbors near features hnear hfeatures
    exact combine_permute hnear hfeatures σ
  · intro views range interval surroundings depth carried hsources hkinds hdepth hfeatures
    exact step_permute hmatcher hsources hkinds hdepth hfeatures σ

attribute [local instance] WorkerPool.inTurn

/-- Two hypotheses change places. -/
theorem evaluate_hypothesisOrder_swapped :
    ∃ (answers : String → Tensor ℝ) (verdict : Verdict ℝ),
      let matcher := (Matcher.blueprint "evaluation" 1 true false).assemble answers
      let surroundings := ⟨none, Scoring.varied.grid, ofFn [1, 2, 2, 2] fun index => index.sum⟩
      let σ := Equiv.swap (0 : Fin 2) 1
      matcher.evaluate Scoring.varied.views Scoring.varied.depth Scoring.varied.grid
          Scoring.varied.weight none .expectation = .ok verdict ∧
      matcher.evaluate Scoring.varied.views (Scoring.varied.depth.permute 1 σ) Scoring.varied.grid
          (Scoring.varied.weight.permute 1 σ) none .expectation = .ok (verdict.permute σ) ∧
      ∀ (range : DepthRange ℝ) (interval : ℝ),
        matcher.step Scoring.varied.views range interval surroundings
            (Scoring.varied.depth.permute 1 σ) none .expectation =
          Verdict.permute σ <$> matcher.step Scoring.varied.views range interval surroundings
            Scoring.varied.depth none .expectation := by
  obtain ⟨answers, hanswers, hok⟩ := Scoring.exists_variedMatcher
  obtain ⟨verdict, hverdict⟩ := hok none .expectation nofun
  have hsources := Scoring.varied.sources_single
  have hnone (weights : Tensor ℝ) (h : weights ∈ (none : Option (Tensor ℝ))) :
      weights.kind = .single :=
    (Option.not_mem_none _ h).elim
  have hfeatures : (ofFn [1, 2, 2, 2] fun index => index.sum : Tensor ℝ).IsSingle [1, 2, 2, 2] :=
    isSingle_ofFn _ _
  obtain ⟨hsame, -, -, hstep⟩ := evaluate_hypothesisOrder "evaluation" 1 true false answers hanswers
    1 2 2 2 (Equiv.swap 0 1)
  refine ⟨answers, verdict, hverdict, ?_, fun range interval => ?_⟩
  · rw [hsame _ _ _ _ none hsources hnone Scoring.varied.depth_single Scoring.varied.weight_single]
    exact congrArg (Except.map _) hverdict
  · exact hstep _ range interval _ _ none hsources hnone Scoring.varied.depth_single hfeatures

end Matcher

end Evaluating

end MultiViewDepth
