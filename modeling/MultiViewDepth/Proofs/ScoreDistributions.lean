import MultiViewDepth.Proofs.VariedScenes
import MultiViewDepth.Proofs.ReadoutFormulas
import MultiViewDepth.Proofs.RoundSizes
import MultiViewDepth.Proofs.Rounds
import MultiViewDepth.Proofs.ScoreFormula

/-!
What a scoring says of a pixel, whatever it compares.

The probabilities of the hypotheses of a pixel are positive and sum to 1, so that the depth that is
read out of them lies among the hypotheses.
-/
namespace MultiViewDepth

open Tensor Arithmetic

section Heads

open Blueprint

def GivesSingle (layer : Layer ℝ) : Prop := ∀ t u, layer t = .ok u → u.kind = .single

theorem addBias_givesSingle (bias : Tensor ℝ) : GivesSingle (Convolution.addBias bias) := by
  intro t u h
  obtain ⟨-, -, h⟩ := bind_eq_ok.1 h
  split at h
  · simp only [throw_eq_error, error_bind, ite_error_eq_ok, pure_eq_ok] at h
    obtain ⟨-, h⟩ := h
    cases h
    rfl
  · cases h

/-- The bias at the end of a head makes its numbers single, whatever its parameters are. -/
theorem costNetwork_givesSingle (scope : String) (groups : Nat) (activation : Activation)
    (answers : String → Tensor ℝ) :
    GivesSingle ((costNetwork scope groups activation).assemble answers) := by
  intro t u h
  simp only [costNetwork, Voxelwise.blueprintWithBias, assemble_seq, assemble_map, bind_eq_ok,
    pure_eq_ok] at h
  obtain ⟨_, -, _, -, last, ⟨_, -, hlast⟩, h⟩ := h
  have hkind := addBias_givesSingle _ _ _ hlast
  cases h
  cases activation with
  | identity => exact hkind
  | sigmoid => exact (kind_map _ _).trans hkind

end Heads

section Readouts

/-- The depths between the smallest and the largest hypothesis of a pixel, or between the first and
the last one. -/
noncomputable def Readout.reach (readout : Readout) (depth : Tensor ℝ) (count b y x : Nat) :
    Set ℝ :=
  match readout with
  | .expectation => Set.Icc (⨅ k : Fin count, depth.get [b, k, y, x])
      (⨆ k : Fin count, depth.get [b, k, y, x])
  | .inverseDepth => Set.uIcc (depth.get [b, 0, y, x]) (depth.get [b, count - 1, y, x])

/-- Between two inverses lie the inverses of what lies between. -/
theorem one_div_way_mem {x y s : ℝ} (hx : 0 < x) (hy : 0 < y) (hs : s ∈ Set.Icc (0 : ℝ) 1) :
    1 / (1 / x + (1 / y - 1 / x) * s) ∈ Set.uIcc x y := by
  have hmin : 0 < min x y := lt_min hx hy
  have hinverse {z : ℝ} (hz : z ∈ Set.Icc (min x y) (max x y)) :
      1 / z ∈ Set.Icc (1 / max x y) (1 / min x y) :=
    ⟨one_div_le_one_div_of_le (hmin.trans_le hz.1) hz.2, one_div_le_one_div_of_le hmin hz.1⟩
  have hmean := mean_pair_mem (sub_nonneg.2 hs.2) hs.1 (sub_add_cancel 1 s)
    (hinverse ⟨min_le_left x y, le_max_left x y⟩) (hinverse ⟨min_le_right x y, le_max_right x y⟩)
  have hway : 1 / x + (1 / y - 1 / x) * s = 1 / x * (1 - s) + 1 / y * s := by ring
  have hmax : 0 < 1 / max x y := one_div_pos.2 (hmin.trans_le min_le_max)
  rw [hway]
  constructor
  · have hle := one_div_le_one_div_of_le (hmax.trans_le hmean.1) hmean.2
    rwa [one_div_one_div] at hle
  · have hle := one_div_le_one_div_of_le hmax hmean.1
    rwa [one_div_one_div] at hle

variable {batch count height width : Nat} {depth score u : Tensor ℝ}

theorem meanDepth_mem (hdepth : depth.IsSingle [batch, count, height, width])
    (hscore : score.IsSingle [batch, count, height, width])
    (hdistributed : score.Distributed batch count height width)
    (hu : Readout.meanDepth depth score = .ok u) :
    u.IsSingle [batch, 1, height, width] ∧ ∀ b y x, b < batch → y < height → x < width →
      u.get [b, 0, y, x] ∈ Readout.expectation.reach depth count b y x := by
  obtain ⟨u', hu', hsingle, hget⟩ := Readout.meanDepth_ok hdepth hscore
  obtain rfl : u = u' := Except.ok.inj (hu.symm.trans hu')
  refine ⟨hsingle, fun b y x hb hy hx => ?_⟩
  have hfinite := Set.finite_range fun k : Fin count => depth.get [b, k, y, x]
  have hmem (k : Nat) (hk : k < count) : depth.get [b, k, y, x] ∈
      Set.Icc (⨅ k : Fin count, depth.get [b, k, y, x]) (⨆ k : Fin count, depth.get [b, k, y, x]) :=
    ⟨ciInf_le hfinite.bddBelow ⟨k, hk⟩, le_ciSup hfinite.bddAbove ⟨k, hk⟩⟩
  have hmean := weighted_mem (fun k hk => hdistributed.nonneg b k y x hb hk hy hx)
    (hdistributed.sum_eq b y x hb hy hx) hmem
  rwa [sumTo_real, Finset.sum_range, ← hget b y x hb hy hx] at hmean

theorem betweenEnds_mem (hdepth : depth.IsSingle [batch, count, height, width])
    (hscore : score.IsSingle [batch, count, height, width])
    (hdistributed : score.Distributed batch count height width) (hcount : 1 < count)
    (hpositive : ∀ index, Within index [batch, count, height, width] → 0 < depth.get index)
    (hu : Readout.betweenEnds depth score = .ok u) :
    u.IsSingle [batch, 1, height, width] ∧ ∀ b y x, b < batch → y < height → x < width →
      u.get [b, 0, y, x] ∈ Readout.inverseDepth.reach depth count b y x := by
  obtain ⟨u', hu', hsingle, hget⟩ := Readout.betweenEnds_ok hdepth hscore hcount
  obtain rfl : u = u' := Except.ok.inj (hu.symm.trans hu')
  refine ⟨hsingle, fun b y x hb hy hx => ?_⟩
  have hshare := share_mem hcount (fun k hk => hdistributed.nonneg b k y x hb hk hy hx)
    (hdistributed.sum_eq b y x hb hy hx)
  rw [affine_real, add_zero, mul_one_div, sumTo_real, Finset.sum_range] at hshare
  rw [hget b y x hb hy hx]
  exact one_div_way_mem (hpositive _ (within_four hb (by omega) hy hx))
    (hpositive _ (within_four hb (by omega) hy hx)) hshare

/-- A score has the shape of the hypotheses, unless a single hypothesis is kept. -/
theorem score_shape_of_readout {readout : Readout}
    (hdepth : depth.IsSingle [batch, count, height, width]) (hrank : 4 ≤ score.rank)
    (haxis : score.rank = 4 → count ≠ 1 → score.shape[1]? = some count)
    (hone : readout = .inverseDepth → count ≠ 1) (hu : readout.depth depth score = .ok u) :
    score.shape = [batch, count, height, width] := by
  cases readout with
  | expectation =>
    obtain ⟨product, hproduct, -⟩ := bind_eq_ok.1 hu
    exact (zipSame_eq_ok hdepth.kind_eq hproduct).2.1.trans hdepth.shape_eq
  | inverseDepth =>
    have hone := hone rfl
    simp only [Readout.depth, Readout.betweenEnds, sizes4_eq_ok.2 hdepth.shape_eq, ok_bind,
      if_neg hone, bind_eq_ok, pure_eq_ok] at hu
    obtain ⟨placed, hplaced, number, hnumber, first, hfirst, last, hlast, gap, hgap, step, hstep,
      -⟩ := hu
    obtain ⟨hlastShape, hlastKind⟩ := narrow_eq_ok hlast
    rw [hdepth.shape_eq] at hlastShape
    have hinverse := (⟨hlastShape, hlastKind.trans hdepth.kind_eq⟩ :
      last.IsSingle [batch, 1, height, width]).map Scalar.recip
    obtain ⟨hgapShape, -, hgapKind, -⟩ := zipSame_eq_ok hinverse.kind_eq hgap
    obtain ⟨-, hshareShape, -, -⟩ := zipSame_eq_ok hgapKind hstep
    exact score_shape hrank (fun hfour => haxis hfour hone) hplaced hnumber
      (hshareShape.trans (hgapShape.trans hinverse.shape_eq))

/-- What is read out of probabilities lies among the hypotheses. -/
theorem readout_mem {readout : Readout} {costs : Tensor ℝ}
    (hdepth : depth.IsSingle [batch, count, height, width])
    (hpositive : ∀ index, Within index [batch, count, height, width] → 0 < depth.get index)
    (hkind : costs.kind = .single) (hsoftmax : costs.softmax 1 = .ok score)
    (hshape : (readout = .inverseDepth → count ≠ 1) → score.shape = [batch, count, height, width])
    (hu : readout.depth depth score = .ok u) :
    u.IsSingle [batch, 1, height, width] ∧ ∀ b y x, b < batch → y < height → x < width →
      u.get [b, 0, y, x] ∈ readout.reach depth count b y x := by
  obtain ⟨hsame, hscoreKind, hsize⟩ := softmax_eq_ok hsoftmax
  by_cases hone : readout = .inverseDepth → count ≠ 1
  · have hshape := hshape hone
    have hcosts := hsame.symm.trans hshape
    have hscore : score.IsSingle [batch, count, height, width] := ⟨hshape, hscoreKind.trans hkind⟩
    have hdistributed := softmax_distributed hcosts hkind hsoftmax
    have hcount : count ≠ 0 := by
      rw [size, hcosts] at hsize
      exact hsize
    cases readout with
    | expectation => exact meanDepth_mem hdepth hscore hdistributed hu
    | inverseDepth =>
      have hone := hone rfl
      exact betweenEnds_mem hdepth hscore hdistributed (by omega) hpositive hu
  · obtain ⟨rfl, rfl⟩ : readout = .inverseDepth ∧ count = 1 := by simpa using hone
    rw [Readout.depth, Readout.betweenEnds_single hdepth score] at hu
    cases hu
    exact ⟨hdepth, fun b y x hb hy hx => Set.left_mem_uIcc⟩

end Readouts

section Evaluating

variable {matcher : Matcher ℝ} {views : ViewFeatures ℝ} {depth weight : Tensor ℝ}
  {grid : NeighborGrid ℝ} {carried : Option (Tensor ℝ)} {readout : Readout} {verdict : Verdict ℝ}
  {batch count height width : Nat}

/-- Where the head gives numbers in single precision, the probabilities of a pixel are positive and
sum to 1, and its depth lies among its hypotheses. -/
theorem evaluate_distributed [WorkerPool]
    (h : matcher.evaluate views depth grid weight carried readout = .ok verdict)
    (hhead : GivesSingle matcher.similarityHead)
    (hdepth : depth.IsSingle [batch, count, height, width])
    (hpositive : ∀ index, Within index [batch, count, height, width] → 0 < depth.get index) :
    (∀ index, Within index verdict.score.shape → 0 < verdict.score.get index ∧
        ∑ k : Fin (verdict.score.size 1), verdict.score.get (index.set 1 k) = 1) ∧
      ((readout = .inverseDepth → count ≠ 1) ∨
          weight.shape = [batch, count, grid.neighbors, height, width] →
        verdict.score.shape = [batch, count, height, width]) ∧
      verdict.depth.IsSingle [batch, 1, height, width] ∧
      ∀ b y x, b < batch → y < height → x < width →
        verdict.depth.get [b, 0, y, x] ∈ readout.reach depth count b y x := by
  obtain ⟨batch', count', height', width', similarity, hshape, hscore, hread⟩ :=
    Stage.evaluate_eq_ok h
  obtain ⟨rfl, rfl, rfl, rfl⟩ : batch = batch' ∧ count = count' ∧ height = height' ∧
      width = width' := by simpa [hdepth.shape_eq] using hshape
  obtain ⟨rated, costs, hrated, hsoftmax, hkind, hcosts⟩ := Matcher.score_parts hscore
  obtain ⟨-, -, hrank, haxis⟩ := score_eq_ok hscore
  have hkind : costs.kind = .single := hkind.trans (hhead _ _ hrated)
  have hsame := (softmax_eq_ok hsoftmax).1
  have hsize : verdict.score.size 1 = costs.size 1 := by rw [size, size, hsame]
  have hread' (hone : readout = .inverseDepth → count ≠ 1) :
      verdict.score.shape = [batch, count, height, width] :=
    score_shape_of_readout hdepth hrank haxis hone hread
  refine ⟨fun index hw => ?_, ?_, readout_mem hdepth hpositive hkind hsoftmax hread' hread⟩
  · rw [hsame] at hw
    rw [hsize]
    exact ⟨softmax_pos hkind hsoftmax hw, softmax_sum hkind hsoftmax hw⟩
  · rintro (hone | hweight)
    · exact hread' hone
    · exact hsame.trans (hcosts hweight)

end Evaluating

section Varied

open Blueprint

/-- Every scoring can be carried out. -/
theorem Scoring.evaluate_ok [WorkerPool] (s : Scoring) (parallel : Bool) (readout : Readout)
    (hbatch : 0 < s.batch) (hhypotheses : 0 < s.hypotheses) :
    ∃ verdict, (s.matcher parallel).evaluate s.views s.depth s.grid s.weight s.carried readout =
      .ok verdict := by
  obtain ⟨compared, fused, weights, hrun, hfused, hweights, hsingle, -⟩ :=
    fused_ok parallel hbatch hhypotheses
  have hhead : (s.matcher parallel).similarityHead = s.similarityHead.layer := rfl
  obtain ⟨score, hscore, hscoreSingle, -⟩ := Matcher.score_ok s.similarityHead hhead hbatch
    hhypotheses s.height_pos s.width_pos hsingle s.points_single s.weight_single
  obtain ⟨found, hfound, -⟩ := (Twins.readout_alike readout (s.depth_single.alike hbatch)
    (hscoreSingle.alike hbatch) hhypotheses).self
  have hrun : Tasks.run (s.matcher parallel).parallel s.count
      ((s.matcher parallel).compare s.views s.depth s.carried) = .ok compared := hrun
  simp only [Matcher.evaluate, s.sourceCount_eq, sizes4_eq_ok.2 s.depth_single.shape_eq,
    s.checkCarried_ok, hrun, hfused, hscore, hfound, ok_bind, hweights]
  cases s.carried with
  | none => exact ⟨_, rfl⟩
  | some weights => exact ⟨_, rfl⟩

/-- Heads with parameters that are all told apart can score hypotheses. -/
theorem Scoring.exists_variedMatcher [WorkerPool] :
    ∃ answers : String → Tensor ℝ,
      Answered (Matcher.blueprint "evaluation" 1 true false : Blueprint ℝ _).requests answers ∧
      ∀ (carried : Option (Tensor ℝ)) (readout : Readout),
        (∀ weights ∈ carried, weights.IsSingle [1, 2, 2, 2]) →
        ∃ verdict, ((Matcher.blueprint "evaluation" 1 true false).assemble answers).evaluate
          varied.views varied.depth varied.grid varied.weight carried readout = .ok verdict := by
  obtain ⟨matcher, hmatcher⟩ : ∃ matcher,
      (Matcher.blueprint "evaluation" 1 true false : Blueprint ℝ _).build variedSource =
        .ok matcher :=
    Blueprint.exists_build fun _ _ => ⟨_, rfl, rfl⟩
  obtain ⟨answers, hanswers, -⟩ :=
    Blueprint.exists_answers (matcher_tidy (by decide) 1 true false).nodup hmatcher
  obtain ⟨viewHead, similarityHead, hrates, hheads⟩ :=
    Matcher.exists_voxelHeads one_ne_zero hanswers.answered
  refine ⟨answers, hanswers.answered, fun carried readout hcarried => ?_⟩
  let s : Scoring := { varied with
    viewHead, similarityHead, carried, carried_single := hcarried, rates := fun _ => hrates }
  rw [hheads]
  exact s.evaluate_ok false readout Nat.one_pos Nat.two_pos

attribute [local instance] WorkerPool.inTurn

theorem evaluate_distributed_varied :
    ∃ (matcher : Matcher ℝ) (verdict : Verdict ℝ), GivesSingle matcher.similarityHead ∧
      matcher.evaluate Scoring.varied.views Scoring.varied.depth Scoring.varied.grid
        Scoring.varied.weight Scoring.varied.carried .inverseDepth = .ok verdict ∧
      0 < verdict.score.get [0, 1, 1, 0] ∧
      verdict.score.get [0, 0, 1, 0] + verdict.score.get [0, 1, 1, 0] = 1 ∧
      verdict.depth.get [0, 0, 1, 0] ∈ Set.Icc 1 2 := by
  obtain ⟨layer, hlayer⟩ : ∃ layer,
      (costNetwork "head" 1 .identity : Blueprint ℝ _).build variedSource = .ok layer :=
    Blueprint.exists_build fun _ _ => ⟨_, rfl, rfl⟩
  obtain ⟨answers, hanswers, -⟩ :=
    Blueprint.exists_answers (costNetwork_tidy (by decide) 1 .identity).nodup hlayer
  obtain ⟨head, -, hhead, -⟩ := exists_voxelHead one_ne_zero hanswers.answered
  let s : Scoring := { Scoring.varied with similarityHead := head }
  have hsingle : GivesSingle (s.matcher false).similarityHead := by
    change GivesSingle head.layer
    rw [hhead]
    exact costNetwork_givesSingle _ _ _ _
  obtain ⟨verdict, hverdict⟩ := s.evaluate_ok false .inverseDepth Nat.one_pos Nat.two_pos
  have hdepth {b k y x : Nat} (hw : Within [b, k, y, x] [1, 2, 2, 2]) :
      s.depth.get [b, k, y, x] = k + 1 := get_ofFn hw _
  have hpositive (index : List Nat) (hw : Within index [1, 2, 2, 2]) : 0 < s.depth.get index := by
    obtain ⟨b, k, y, x, rfl, -⟩ := hw.exists_four
    rw [hdepth hw]
    positivity
  obtain ⟨hscore, hshape, -, hread⟩ :=
    evaluate_distributed hverdict hsingle s.depth_single hpositive
  have hshape : verdict.score.shape = [1, 2, 2, 2] := hshape (.inr rfl)
  have hsize : verdict.score.size 1 = 2 := by
    rw [size, hshape]
    rfl
  obtain ⟨hpos, hsum⟩ := hscore [0, 1, 1, 0] (by simp [hshape])
  have hread : verdict.depth.get [0, 0, 1, 0] ∈
      Set.uIcc (s.depth.get [0, 0, 1, 0]) (s.depth.get [0, 1, 1, 0]) :=
    hread 0 1 0 Nat.one_pos Nat.one_lt_two Nat.two_pos
  refine ⟨s.matcher false, verdict, hsingle, hverdict, hpos, ?_, ?_⟩
  · rw [hsize, Fin.sum_univ_two] at hsum
    exact hsum
  · have hfirst : s.depth.get [0, 0, 1, 0] = 1 := by
      rw [hdepth (by simp)]
      norm_num
    have hlast : s.depth.get [0, 1, 1, 0] = 2 := by
      rw [hdepth (by simp)]
      norm_num
    rwa [hfirst, hlast, Set.uIcc_of_le one_le_two] at hread

end Varied

end MultiViewDepth
