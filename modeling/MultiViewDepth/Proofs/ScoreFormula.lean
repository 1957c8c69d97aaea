import MultiViewDepth.Proofs.PixelScores
import MultiViewDepth.Proofs.VariedScenes
import MultiViewDepth.Proofs.ViewPairs

/-!
The score of a hypothesis as a formula.

A scoring chains reshaped, repeated and reduced arrays. What comes out at one hypothesis of a pixel
is written down here without any array in between, and the scoring gives just that.
-/
namespace MultiViewDepth

open Tensor Arithmetic

/-- What hypotheses are scored with: features and projections of all views, neighbors and their
weights, weights of the source views where they are carried, and heads that rate voxels. -/
structure Scoring where
  batch : Nat
  channels : Nat
  groups : Nat
  hypotheses : Nat
  height : Nat
  width : Nat
  count : Nat
  reference : Tensor ℝ
  referenceProjection : Tensor ℝ
  source : Fin count → Tensor ℝ
  sourceProjection : Fin count → Tensor ℝ
  depth : Tensor ℝ
  grid : NeighborGrid ℝ
  weight : Tensor ℝ
  carried : Option (Tensor ℝ)
  viewHead : Option (VoxelHead groups)
  similarityHead : VoxelHead groups
  count_pos : 0 < count
  groups_ne_zero : groups ≠ 0
  channels_mod : channels % groups = 0
  -- positions of pixels are normalized by the distance of the first pixel from the last
  two_le_height : 2 ≤ height
  two_le_width : 2 ≤ width
  reference_single : reference.IsSingle [batch, channels, height, width]
  referenceProjection_shape : referenceProjection.shape = [batch, 4, 4]
  regular : ∀ b < batch, (Matrix.of (projectionAt referenceProjection b)).det ≠ 0
  source_single : ∀ v, (source v).IsSingle [batch, channels, height, width]
  sourceProjection_shape : ∀ v, (sourceProjection v).shape = [batch, 4, 4]
  depth_single : depth.IsSingle [batch, hypotheses, height, width]
  points_single : grid.points.IsSingle [batch, grid.neighbors * height, width, 2]
  weight_single : weight.IsSingle [batch, hypotheses, grid.neighbors, height, width]
  carried_single : ∀ weights ∈ carried, weights.IsSingle [batch, count, height, width]
  rates : carried = none → viewHead.isSome

namespace Scoring

variable (s : Scoring)

def views : ViewFeatures ℝ :=
  ⟨s.reference, List.ofFn s.source, s.referenceProjection, List.ofFn s.sourceProjection⟩

def matcher (parallel : Bool) : Matcher ℝ :=
  ⟨s.groups, s.viewHead.map VoxelHead.layer, s.similarityHead.layer, parallel⟩

section Formulas

/-- The mean product of the features of source view `v` and of the reference view over the channels
of a group. -/
noncomputable def similarity (v : Fin s.count) (b d y x g : Nat) : ℝ :=
  let share := s.channels / s.groups
  (∑ c : Fin share,
    Reprojection.seen (s.source v) (s.sourceProjection v) s.referenceProjection s.height s.width
        b (g * share + c) x y (s.depth.get [b, d, y, x]) *
      s.reference.get [b, g * share + c, y, x]) / (share : Nat)

/-- The carried weight of source view `v`, or else the best rating that its similarities get. -/
noncomputable def viewWeight (v : Fin s.count) (b y x : Nat) : ℝ :=
  match h : s.carried with
  | some weights => weights.get [b, v, y, x]
  | none => ⨆ d : Fin s.hypotheses,
    (s.viewHead.get (s.rates h)).rate fun g => s.similarity v b d y x g

noncomputable def fused (b d y x g : Nat) : ℝ :=
  (∑ v, s.viewWeight v b y x * s.similarity v b d y x g) /
    max (∑ v, s.viewWeight v b y x) (1 / (10 ^ 5 : ℕ))

/-- What the neighbors of a pixel say on a hypothesis. -/
noncomputable def cost (b d y x : Nat) : ℝ :=
  s.grid.gather s.weight (fun y x => s.similarityHead.rate fun g => s.fused b d y x g) s.height
    s.width b d y x

end Formulas

section Comparing

variable {s}

theorem height_pos (s : Scoring) : 0 < s.height := Nat.lt_of_lt_of_le Nat.two_pos s.two_le_height

theorem width_pos (s : Scoring) : 0 < s.width := Nat.lt_of_lt_of_le Nat.two_pos s.two_le_width

theorem viewWeight_carried {weights : Tensor ℝ} (h : s.carried = some weights) (v : Fin s.count)
    (b y x : Nat) : s.viewWeight v b y x = weights.get [b, v, y, x] := by
  unfold viewWeight
  split
  next other hother => rw [Option.some.inj (hother.symm.trans h)]
  next hnone => cases hnone.symm.trans h

/-- Without carried weights a view counts as much as its best hypothesis is rated. -/
theorem viewWeight_rated {head : VoxelHead s.groups} (h : s.carried = none)
    (hhead : s.viewHead = some head) (v : Fin s.count) (b y x : Nat) :
    s.viewWeight v b y x =
      ⨆ d : Fin s.hypotheses, head.rate fun g => s.similarity v b d y x g := by
  unfold viewWeight
  split
  next other hother => cases hother.symm.trans h
  next => simp only [hhead, Option.get_some]

structure Compared (s : Scoring) (v : Fin s.count) (c : Tensor ℝ × Tensor ℝ) : Prop where
  similarity_single : c.1.IsSingle [s.batch, s.groups, s.hypotheses, s.height, s.width]
  weight_single : c.2.IsSingle [s.batch, 1, s.height, s.width]
  similarity_get : ∀ b g d y x, b < s.batch → g < s.groups → d < s.hypotheses → y < s.height →
    x < s.width → c.1.get [b, g, d, y, x] = s.similarity v b d y x g
  weight_get : ∀ b y x, b < s.batch → y < s.height → x < s.width →
    c.2.get [b, 0, y, x] = s.viewWeight v b y x

theorem similarity_ok (s : Scoring) (v : Fin s.count) :
    ∃ warped u,
      Reprojection.features (s.source v) (s.sourceProjection v) s.referenceProjection s.depth =
        .ok warped ∧
      groupSimilarity warped s.reference s.groups = .ok u ∧
      u.IsSingle [s.batch, s.groups, s.hypotheses, s.height, s.width] ∧
      ∀ b g d y x, b < s.batch → g < s.groups → d < s.hypotheses → y < s.height → x < s.width →
        u.get [b, g, d, y, x] = s.similarity v b d y x g := by
  obtain ⟨warped, hwarped, hwarpedSingle, hseen⟩ := Reprojection.features_ok (s.source_single v)
    (s.sourceProjection_shape v) s.referenceProjection_shape s.regular s.depth_single
  obtain ⟨u, hu, husingle, hmean⟩ :=
    groupSimilarity_ok hwarpedSingle s.reference_single s.groups_ne_zero s.channels_mod
  refine ⟨warped, u, hwarped, hu, husingle, fun b g d y x hb hg hd hy hx => ?_⟩
  rw [hmean b g d y x hb hg hd hy hx, similarity]
  refine congrArg (· / _) (Finset.sum_congr rfl fun c _ => ?_)
  rw [hseen b _ d y x hb (groupChannel_lt s.channels_mod hg c.isLt) hd hy hx]

/-- Comparing one view gives the similarity and the weight of the formula. -/
theorem compare_ok (parallel : Bool) (hbatch : 0 < s.batch) (hhypotheses : 0 < s.hypotheses)
    (v : Fin s.count) :
    ∃ similarity weight,
      (s.matcher parallel).compare s.views s.depth s.carried v = .ok (similarity, weight) ∧
        s.Compared v (similarity, weight) := by
  obtain ⟨warped, similarity, hwarped, hsimilarity, hsingle, hget⟩ := s.similarity_ok v
  have hsource : s.views.sources[v.val]? = some (s.source v) := getElem?_ofFn_val _ v
  have hprojection : s.views.sourceProjections[v.val]? = some (s.sourceProjection v) :=
    getElem?_ofFn_val _ v
  have hstart : groupSimilarity warped s.views.reference (s.matcher parallel).groups =
      .ok similarity := hsimilarity
  have hmoved : Reprojection.features (s.source v) (s.sourceProjection v)
      s.views.referenceProjection s.depth = .ok warped := hwarped
  simp only [Matcher.compare, hsource, hprojection, hmoved, hstart, ok_bind]
  cases hcarried : s.carried with
  | some weights =>
    have haxis : [s.batch, s.count, s.height, s.width][1]? = some s.count := rfl
    obtain ⟨weight, hweight, hweightSingle, hslice⟩ :=
      (s.carried_single weights hcarried).narrow haxis (show v.val + 1 ≤ s.count from v.isLt)
    refine ⟨similarity, weight, by simp only [hweight, ok_bind, pure_eq_ok], hsingle,
      hweightSingle, hget, fun b y x hb hy hx => ?_⟩
    rw [viewWeight_carried hcarried]
    exact hslice _ (within_four hb Nat.one_pos hy hx)
  | none =>
    obtain ⟨head, hhead⟩ := Option.isSome_iff_exists.1 (s.rates hcarried)
    have hlayer : (s.matcher parallel).viewHead = some head.layer :=
      congrArg (Option.map VoxelHead.layer) hhead
    obtain ⟨weight, hweight, hweightSingle, hbest⟩ :=
      Matcher.viewWeight_ok hlayer hbatch hhypotheses hsingle
    refine ⟨similarity, weight, by simp only [hweight, ok_bind, pure_eq_ok], hsingle,
      hweightSingle, hget, fun b y x hb hy hx => ?_⟩
    rw [viewWeight_rated hcarried hhead, hbest b y x hb hy hx]
    exact iSup_congr fun d => congrArg head.rate
      (funext fun g => hget b g d y x hb g.isLt d.isLt hy hx)

end Comparing

section Evaluating

variable {s}

theorem sourceCount_eq (s : Scoring) : s.views.sourceCount = .ok s.count := by
  have hne : ¬ (List.ofFn s.source).isEmpty = true := by
    rw [List.isEmpty_iff_length_eq_zero, List.length_ofFn]
    exact s.count_pos.ne'
  simp only [ViewFeatures.sourceCount, views, List.length_ofFn, ne_eq, not_true, if_false, hne,
    Bool.false_eq_true]

theorem sources_single (s : Scoring) : ∀ source ∈ s.views.sources, source.kind = .single := by
  intro source h
  obtain ⟨v, rfl⟩ := List.mem_ofFn.1 h
  exact (s.source_single v).kind_eq

theorem checkCarried_ok (s : Scoring) :
    Matcher.checkCarried s.carried s.batch s.count s.height s.width = .ok () := by
  cases hcarried : s.carried with
  | none => rfl
  | some weights =>
    have hsizes := sizes4_eq_ok.2 (s.carried_single weights hcarried).shape_eq
    simp only [Matcher.checkCarried, hsizes, ok_bind, if_true, pure_eq_ok]

theorem concat_ok {n batch height width : Nat} (hn : 0 < n) {weight : Fin n → Tensor ℝ}
    (h : ∀ v, (weight v).IsSingle [batch, 1, height, width]) :
    ∃ all, Tensor.concat 1 (List.ofFn weight) = .ok all := by
  obtain ⟨m, rfl⟩ : ∃ m, n = m + 1 := ⟨n - 1, by omega⟩
  obtain ⟨all, hall, -⟩ := Twins.concat_ok weight fun v => ⟨(h v).shape_eq, (h v).kind_eq⟩
  exact ⟨all, hall⟩

/-- What is compared of all source views, put together. -/
theorem fused_ok [WorkerPool] (parallel : Bool) (hbatch : 0 < s.batch)
    (hhypotheses : 0 < s.hypotheses) :
    ∃ compared fused weights,
      Tasks.run parallel s.count ((s.matcher parallel).compare s.views s.depth s.carried) =
        .ok compared ∧
      Matcher.fuse compared = .ok fused ∧ Tensor.concat 1 (compared.map Prod.snd) = .ok weights ∧
      fused.IsSingle [s.batch, s.groups, s.hypotheses, s.height, s.width] ∧
      ∀ b g d y x, b < s.batch → g < s.groups → d < s.hypotheses → y < s.height → x < s.width →
        fused.get [b, g, d, y, x] = s.fused b d y x g := by
  choose similarity weight hcompare hcompared using
    fun v => compare_ok parallel hbatch hhypotheses v
  obtain ⟨fused, hfused, hsingle, hmean⟩ := Matcher.fuse_ok s.count_pos similarity weight
    (fun v => (hcompared v).similarity_single) fun v => (hcompared v).weight_single
  obtain ⟨weights, hweights⟩ := concat_ok s.count_pos fun v => (hcompared v).weight_single
  have hchannels : Tensor.concat 1
      ((List.ofFn fun v => (similarity v, weight v)).map Prod.snd) = .ok weights := by
    rw [List.map_ofFn]
    exact hweights
  refine ⟨_, fused, weights, Tasks.run_ok parallel hcompare, hfused, hchannels, hsingle,
    fun b g d y x hb hg hd hy hx => ?_⟩
  rw [hmean b g d y x hb hg hd hy hx, Scoring.fused]
  simp only [(hcompared _).weight_get b y x hb hy hx,
    (hcompared _).similarity_get b g d y x hb hg hd hy hx]

/-- The score of a hypothesis is the exponential of its cost, divided by those of all hypotheses of
its pixel. -/
theorem evaluate_score [WorkerPool] (s : Scoring) (parallel : Bool) (readout : Readout)
    {b d y x : Nat} (h : Within [b, d, y, x] [s.batch, s.hypotheses, s.height, s.width]) :
    ∃ verdict, (s.matcher parallel).evaluate s.views s.depth s.grid s.weight s.carried readout =
        .ok verdict ∧
      verdict.score.shape = [s.batch, s.hypotheses, s.height, s.width] ∧
      verdict.score.get [b, d, y, x] =
        Real.exp (s.cost b d y x) / ∑ e : Fin s.hypotheses, Real.exp (s.cost b e y x) := by
  obtain ⟨hb, hd, hy, hx, -⟩ := h
  have hbatch : 0 < s.batch := Nat.zero_lt_of_lt hb
  have hhypotheses : 0 < s.hypotheses := Nat.zero_lt_of_lt hd
  obtain ⟨compared, fused, weights, hrun, hfused, hweights, hsingle, hmean⟩ :=
    fused_ok parallel hbatch hhypotheses
  have hhead : (s.matcher parallel).similarityHead = s.similarityHead.layer := rfl
  obtain ⟨score, hscore, hscoreSingle, hexp⟩ := Matcher.score_ok s.similarityHead hhead hbatch
    hhypotheses s.height_pos s.width_pos hsingle s.points_single s.weight_single
  obtain ⟨found, hfound, -⟩ := (Twins.readout_alike readout (s.depth_single.alike hbatch)
    (hscoreSingle.alike hbatch) hhypotheses).self
  have hrun' : Tasks.run (s.matcher parallel).parallel s.count
      ((s.matcher parallel).compare s.views s.depth s.carried) = .ok compared := hrun
  refine ⟨⟨found, score, s.carried.getD weights⟩, ?_, hscoreSingle.shape_eq, ?_⟩
  · simp only [Matcher.evaluate, s.sourceCount_eq, sizes4_eq_ok.2 s.depth_single.shape_eq,
      s.checkCarried_ok, hrun', hfused, hscore, hfound, ok_bind, hweights]
    cases s.carried <;> rfl
  · have hcost (e : Nat) (he : e < s.hypotheses) :
        s.grid.gather s.weight (fun y x => s.similarityHead.rate fun g => fused.get [b, g, e, y, x])
          s.height s.width b e y x = s.cost b e y x := by
      refine NeighborGrid.gather_congr s.height_pos s.width_pos (fun y x hy hx => ?_) b e y x
      exact congrArg s.similarityHead.rate
        (funext fun g => hmean b g e y x hb g.isLt he hy hx)
    calc score.get [b, d, y, x]
        = _ := hexp b d y x hb hd hy hx
      _ = Real.exp (s.cost b d y x) / ∑ e : Fin s.hypotheses, Real.exp (s.cost b e y x) := by
        simp only [hcost d hd, hcost _ (Fin.isLt _)]

end Evaluating

section Varied

noncomputable def single (activation : Activation) : VoxelHead 1 where
  layer t := .ok (activation.apply t)
  rate v := activation.value (v 0)
  acts := by
    have hone : (fun (v : Fin 1 → ℝ) c => activation.value (v c)) =
        fun v _ => activation.value (v 0) := by
      funext v c
      rw [Subsingleton.elim c 0]
    exact hone ▸ activation.apply_actsVoxelwise

/-- Four pixels that all have the first and the last one as their neighbors. -/
noncomputable def cornerGrid : NeighborGrid ℝ where
  points := ofFn [1, 4, 2, 2] fun
    | [_, row, _, _] => ((row / 2 : Nat) : ℝ) - 1 / (2 : Nat)
    | _ => 0
  neighbors := 2
  height := 2
  width := 2

/-- Two hypotheses at four pixels, with two source views of which one stands where the reference
view does. Features, weights of the views and weights of the neighbors are all told apart. -/
noncomputable def varied : Scoring where
  batch := 1
  channels := 1
  groups := 1
  hypotheses := 2
  height := 2
  width := 2
  count := 2
  reference := ofFn [1, 1, 2, 2] fun index => (index.sum + 1 : Nat)
  referenceProjection := sideView 0
  source v := ofFn [1, 1, 2, 2] fun index => (index.sum + 1 + v : Nat)
  sourceProjection v := sideView v
  depth := ofFn [1, 2, 2, 2] fun
    | [_, d, _, _] => (d : ℝ) + 1
    | _ => 0
  grid := cornerGrid
  weight := ofFn [1, 2, 2, 2, 2] fun
    | [_, d, n, _, _] => ((if d = n then 1 else 2 : Nat) : ℝ)
    | _ => 0
  carried := some (ofFn [1, 2, 2, 2] fun
    | [_, v, _, _] => ((2 * v + 1 : Nat) : ℝ)
    | _ => 0)
  viewHead := some (single .sigmoid)
  similarityHead := single .identity
  count_pos := Nat.two_pos
  groups_ne_zero := one_ne_zero
  channels_mod := rfl
  two_le_height := Nat.le_refl 2
  two_le_width := Nat.le_refl 2
  reference_single := isSingle_ofFn _ _
  referenceProjection_shape := rfl
  regular _ := det_sideView 0
  source_single _ := isSingle_ofFn _ _
  sourceProjection_shape _ := rfl
  depth_single := isSingle_ofFn _ _
  points_single := ⟨rfl, rfl⟩
  weight_single := ⟨rfl, rfl⟩
  carried_single _ h := Option.mem_some.1 h ▸ isSingle_ofFn _ _
  rates _ := rfl

/-- A camera that is moved to the side sees a point further to the side, the more the nearer the
point is. -/
theorem seen_sideView (features : Tensor ℝ) (shift c x y : Nat) {d : ℝ} (hd : 1 ≤ d) :
    Reprojection.seen features (sideView shift) (sideView 0) 2 2 0 c x y d =
      Sampling.paddedRead (fun i j => features.get [0, c, i, j]) 2 2 (y * 2 - 1 / 2)
        ((x + shift / d) * 2 - 1 / 2) := by
  have hpos : 0 < d := zero_lt_one.trans_le hd
  have hidentity : Matrix.of (fun r c : Fin 4 => sideMatrix 0 r c) = 1 := by
    ext r c
    simp [sideMatrix, Matrix.one_apply, Fin.val_inj]
  have hpoint : RelativePose.point (sideView shift) (sideView 0) 0 x y d =
      ![x * d + shift, y * d, d, 1] := by
    rw [RelativePose.point, RelativePose.matrix, projectionAt_sideView 0 Nat.one_pos, hidentity,
      inv_one, mul_one, projectionAt_sideView shift Nat.one_pos]
    ext r
    fin_cases r <;> simp [sideMatrix, Matrix.mulVec, dotProduct, Fin.sum_univ_four]
  have hfront : ¬ d ≤ (frontDepth : ℝ) := by
    rw [ViewPair.frontDepth_real]
    linarith
  have hlanding : Reprojection.landing (sideView shift) (sideView 0) 2 2 0 x y d =
      (normalize 2 (x + shift / d), normalize 2 (y : ℝ)) := by
    rw [Reprojection.landing, hpoint]
    simp only [Matrix.cons_val]
    rw [Reprojection.land, if_neg hfront, add_div, mul_div_cancel_right₀ _ hpos.ne',
      mul_div_cancel_right₀ _ hpos.ne']
  rw [Reprojection.seen, hlanding, Sampling.readMap,
    Sampling.read_zeros Nat.two_pos Nat.two_pos fun i j => features.get [0, c, i, j],
    position_normalize le_rfl, position_normalize le_rfl, readPosition, readPosition]
  norm_num

/-- The second view is read to the right of the pixel, less far for the greater depth. -/
theorem similarity_varied (v : Fin 2) {d y x : Nat} (hd : d < 2) (hy : y < 2) (hx : x < 2) :
    varied.similarity v 0 d y x 0 =
      Sampling.paddedRead (fun i j => (i + j + 1 + v : Nat)) 2 2 (y * 2 - 1 / 2)
          ((x + v / (d + 1)) * 2 - 1 / 2) * (y + x + 1) := by
  have hdepth : varied.depth.get [0, d, y, x] = (d : ℝ) + 1 :=
    get_ofFn (within_four Nat.one_pos hd hy hx) _
  have hreference : varied.reference.get [0, 0, y, x] = (([0, 0, y, x].sum + 1 : Nat) : ℝ) :=
    get_ofFn (within_four Nat.one_pos Nat.one_pos hy hx) _
  have hsource (i j : Nat) (hi : i < 2) (hj : j < 2) :
      (varied.source v).get [0, 0, i, j] = (([0, 0, i, j].sum + 1 + v : Nat) : ℝ) :=
    get_ofFn (within_four Nat.one_pos Nat.one_pos hi hj) _
  have hseen := seen_sideView (varied.source v) v 0 x y (show (1 : ℝ) ≤ d + 1 by
    linarith [d.cast_nonneg (α := ℝ)])
  rw [Sampling.paddedRead_congr hsource] at hseen
  calc varied.similarity v 0 d y x 0
      = (∑ _ : Fin 1, Reprojection.seen (varied.source v) (sideView v) (sideView 0) 2 2 0 0 x y
          (varied.depth.get [0, d, y, x]) * varied.reference.get [0, 0, y, x]) / (1 : Nat) := by
        refine congrArg (· / ((1 : Nat) : ℝ)) (Finset.sum_congr rfl fun c _ => ?_)
        rw [show (c : Nat) = 0 from Nat.lt_one_iff.1 c.isLt]
        rfl
    _ = _ := by
        rw [Fin.sum_univ_one, hdepth, hseen, hreference, Nat.cast_one, div_one]
        simp

theorem cornerGrid_get {row x axis : Nat} (hrow : row < 4) (hx : x < 2) (haxis : axis < 2) :
    cornerGrid.points.get [0, row, x, axis] = ((row / 2 : Nat) : ℝ) - 1 / (2 : Nat) := by
  rw [cornerGrid, get_ofFn (within_four Nat.one_pos hrow hx haxis)]

theorem weight_varied {d n y x : Nat} (hd : d < 2) (hn : n < 2) (hy : y < 2) (hx : x < 2) :
    varied.weight.get [0, d, n, y, x] = if d = n then 1 else 2 := by
  rw [varied, get_ofFn (within_five Nat.one_pos hd hn hy hx)]
  push_cast
  rfl

theorem readMap_corner (map : Nat → Nat → ℝ) {n : Nat} (hn : n < 2) :
    Sampling.readMap map 2 2 .border (n - 1 / (2 : Nat)) (n - 1 / (2 : Nat)) = map n n := by
  have hposition : Sampling.position 2 ((n : ℝ) - 1 / (2 : Nat)) = (n : ℤ) := by
    rw [Sampling.position_real]
    push_cast
    ring
  rw [Sampling.readMap, Sampling.read_border Nat.two_pos Nat.two_pos map, hposition]
  interval_cases n <;> simp [Sampling.interpolate, Sampling.extend, Sampling.nearest]

/-- A hypothesis costs the same at all pixels, since they have the same neighbors. -/
theorem cost_corner {d y x : Nat} (hd : d < 2) (hy : y < 2) (hx : x < 2) : varied.cost 0 d y x =
    (if d = 0 then 1 else 2) * varied.fused 0 d 0 0 0 +
      (if d = 1 then 1 else 2) * varied.fused 0 d 1 1 0 := by
  have hterm (n : Nat) (hn : n < 2) : varied.weight.get [0, d, n, y, x] *
      Sampling.readMap (fun y x => varied.fused 0 d y x 0) 2 2 .border
        (cornerGrid.points.get [0, n * 2 + y, x, 1]) (cornerGrid.points.get [0, n * 2 + y, x, 0]) =
      (if d = n then 1 else 2) * varied.fused 0 d n n 0 := by
    have hrow : n * 2 + y < 4 := by omega
    rw [weight_varied hd hn hy hx, cornerGrid_get hrow hx Nat.two_pos,
      cornerGrid_get hrow hx Nat.one_lt_two, show (n * 2 + y) / 2 = n by omega, readMap_corner _ hn]
  calc varied.cost 0 d y x
      = ∑ n : Fin 2, varied.weight.get [0, d, n, y, x] *
          Sampling.readMap (fun y x => varied.fused 0 d y x 0) 2 2 .border
            (cornerGrid.points.get [0, n * 2 + y, x, 1])
            (cornerGrid.points.get [0, n * 2 + y, x, 0]) := rfl
    _ = _ := by
      rw [Fin.sum_univ_two]
      exact congrArg₂ (· + ·) (hterm 0 Nat.two_pos) (hterm 1 Nat.one_lt_two)

theorem fused_varied {d y x : Nat} (hy : y < 2) (hx : x < 2) : varied.fused 0 d y x 0 =
    (varied.similarity (0 : Fin 2) 0 d y x 0 + 3 * varied.similarity (1 : Fin 2) 0 d y x 0) /
      4 := by
  have hcarried (v : Fin 2) : varied.viewWeight v 0 y x = (2 * v + 1 : Nat) :=
    (viewWeight_carried (s := varied) rfl v 0 y x).trans
      (get_ofFn (within_four Nat.one_pos v.isLt hy hx) _)
  have hsum (f : Fin varied.count → ℝ) : ∑ v, f v = f (0 : Fin 2) + f (1 : Fin 2) :=
    Fin.sum_univ_two f
  rw [fused, hsum, hsum, hcarried 0, hcarried 1]
  norm_num

/-- The two hypotheses of the varied scoring cost different amounts. -/
theorem cost_varied {y x : Nat} (hy : y < 2) (hx : x < 2) :
    varied.cost 0 0 y x = 7 / 4 ∧ varied.cost 0 1 y x = 41 / 16 := by
  have hfused (d : Nat) := fused_varied (d := d) Nat.two_pos Nat.two_pos
  have hfused' (d : Nat) := fused_varied (d := d) Nat.one_lt_two Nat.one_lt_two
  have hfirst (v : Fin 2) {d : Nat} (hd : d < 2) := similarity_varied v hd Nat.two_pos Nat.two_pos
  have hlast (v : Fin 2) {d : Nat} (hd : d < 2) :=
    similarity_varied v hd Nat.one_lt_two Nat.one_lt_two
  constructor
  · rw [cost_corner Nat.two_pos hy hx, hfused, hfused', hfirst 0 Nat.two_pos, hfirst 1 Nat.two_pos,
      hlast 0 Nat.two_pos, hlast 1 Nat.two_pos]
    norm_num [Sampling.paddedRead, Sampling.tent, Fin.sum_univ_two]
  · rw [cost_corner Nat.one_lt_two hy hx, hfused, hfused', hfirst 0 Nat.one_lt_two,
      hfirst 1 Nat.one_lt_two, hlast 0 Nat.one_lt_two, hlast 1 Nat.one_lt_two]
    norm_num [Sampling.paddedRead, Sampling.tent, Fin.sum_univ_two]

attribute [local instance] WorkerPool.inTurn

/-- The second hypothesis brings the second source view nearer to the first pixel. -/
theorem evaluate_score_varied :
    ∃ verdict, (varied.matcher false).evaluate varied.views varied.depth varied.grid varied.weight
        varied.carried .expectation = .ok verdict ∧
      verdict.score.get [0, 1, 0, 1] =
        Real.exp (41 / 16) / (Real.exp (7 / 4) + Real.exp (41 / 16)) := by
  obtain ⟨verdict, hverdict, -, hscore⟩ :=
    evaluate_score varied false .expectation (show Within [0, 1, 0, 1] [1, 2, 2, 2] by simp)
  obtain ⟨hfirst, hlast⟩ := cost_varied Nat.two_pos Nat.one_lt_two
  refine ⟨verdict, hverdict, hscore.trans ?_⟩
  rw [hlast]
  refine congrArg (Real.exp (41 / 16) / ·) ((Fin.sum_univ_two _).trans ?_)
  exact congrArg₂ (Real.exp · + Real.exp ·) hfirst hlast

end Varied

end Scoring

end MultiViewDepth
