import MultiViewDepth.Proofs.NeighborShares
import MultiViewDepth.Proofs.ParameterNames
import MultiViewDepth.Proofs.ScoreDistributions
import MultiViewDepth.Proofs.SharedParameters

/-!
A constant added to all costs.

The head that rates similarities ends in a bias. What is read of shifted costs is shifted as much,
the weights of the neighbors multiply the shift by their sum, and probabilities do not change when
all hypotheses of a pixel cost the same more. So the bias is not seen where the weights of the
neighbors have one sum for all hypotheses.
-/
namespace MultiViewDepth

open Tensor Arithmetic

variable {c : ℝ}

namespace Tensor

variable {t u : Tensor ℝ} {shape : List Nat}

noncomputable def shifted (c : ℝ) (t : Tensor ℝ) : Tensor ℝ := t.map (· + c)

@[simp] theorem shape_shifted (c : ℝ) (t : Tensor ℝ) : (t.shifted c).shape = t.shape := rfl
@[simp] theorem kind_shifted (c : ℝ) (t : Tensor ℝ) : (t.shifted c).kind = t.kind := kind_map _ t
@[simp] theorem sizes4_shifted (c : ℝ) (t : Tensor ℝ) : (t.shifted c).sizes4 = t.sizes4 := rfl

theorem shifted_zero (t : Tensor ℝ) : t.shifted 0 = t := by
  simp only [shifted, add_zero, map_id]

theorem ofFn_shifted {f f' : List Nat → ℝ}
    (h : ∀ index, Within index shape → f' index = f index + c) :
    ofFn shape f' = (ofFn shape f).shifted c :=
  ext_get rfl rfl rfl fun index hw => by
    rw [shape_ofFn] at hw
    rw [shifted, get_map rfl hw, get_ofFn hw, get_ofFn hw, h index hw]

/-- What is computed from shifted entries; other entries are not shifted. -/
theorem compute_shifted {f f' : List Nat → ℝ}
    (h : t.kind = .single → ∀ index, Within index shape → f' index = f index + c) :
    (t.shifted c).compute shape f' = shifted c <$> t.compute shape f := by
  by_cases hkind : t.kind = .single
  · rw [compute_of_single hkind, compute_of_single ((kind_shifted c t).trans hkind),
      ofFn_shifted (h hkind)]
    rfl
  · rw [compute, compute, kind_shifted, if_neg hkind, if_neg hkind]
    split
    next hempty =>
      refine congrArg Except.ok (map_of_kind_ne ?_ _).symm
      rwa [kind, empty, Elements.kind_none]
    next => rfl

/-- A softmax does not see what is added to all entries along its axis. -/
theorem IsSingle.softmax_shift {axis n : Nat} (ht : t.IsSingle shape) (hu : u.IsSingle shape)
    (haxis : shape[axis]? = some n) (shift : List Nat → ℝ)
    (h : ∀ index, Within index shape → u.get index = t.get index + shift (index.set axis 0)) :
    u.softmax axis = t.softmax axis := by
  rcases Nat.eq_zero_or_pos n with rfl | hn
  · have hsize (v : Tensor ℝ) (hv : v.IsSingle shape) : v.size axis = 0 := by
      rw [size, hv.shape_eq, List.getD_eq_getElem?_getD, haxis, Option.getD_some]
    simp only [Tensor.softmax, Tensor.maximum, hsize t ht, hsize u hu, if_true, error_bind]
  · obtain ⟨p, hp, hps, hpget⟩ := ht.softmax haxis hn
    obtain ⟨q, hq, hqs, hqget⟩ := hu.softmax haxis hn
    rw [hp, hq]
    refine congrArg Except.ok (ext_get hqs.kind_eq hps.kind_eq
      (hqs.shape_eq.trans hps.shape_eq.symm) fun index hw => ?_)
    rw [hqs.shape_eq] at hw
    have hentry (k : Fin n) : u.get (index.set axis k) =
        t.get (index.set axis k) + shift (index.set axis 0) := by
      rw [h _ (hw.along haxis k.isLt), List.set_set]
    rw [hpget index hw, hqget index hw, h index hw]
    simp only [hentry, Real.exp_add, ← Finset.sum_mul]
    exact mul_div_mul_right _ _ (Real.exp_pos _).ne'

end Tensor

namespace Sampling

variable {t : Tensor ℝ} {batch channels height width b k : Nat}

theorem read_shifted (hheight : 0 < height) (hwidth : 0 < width)
    (ht : t.IsSingle [batch, channels, height, width]) (hb : b < batch) (hk : k < channels)
    (gy gx : ℝ) :
    read (plane (t.shifted c) channels height width b k) height width .border gy gx =
      read (plane t channels height width b k) height width .border gy gx + c := by
  have hplane (u : Tensor ℝ) (hu : u.shape = [batch, channels, height, width]) :
      read (plane u channels height width b k) height width .border gy gx =
        readMap (fun y x => u.get [b, k, y, x]) height width .border gy gx :=
    read_congr hheight hwidth (fun _ hi => plane_eq hu b k hi) _ _ _
  have hentry (y x : Nat) (hy : y < height) (hx : x < width) :
      (t.shifted c).get [b, k, y, x] = affine 1 c (t.get [b, k, y, x]) := by
    rw [shifted, get_map ht.kind_eq (ht.shape_eq ▸ within_four hb hk hy hx), affine_real, mul_one]
  rw [hplane (t.shifted c) ht.shape_eq, hplane t ht.shape_eq, readMap_congr hheight hwidth hentry,
    readMap_affine hheight hwidth, affine_real, mul_one]

/-- A constant added to a map is added to whatever is read of it. -/
theorem sample_shifted (c : ℝ) (t points : Tensor ℝ) :
    sample (t.shifted c) points .border = shifted c <$> sample t points .border := by
  simp only [sample, sizes4_shifted]
  refine bind_congr_of_ok ?_
  rintro ⟨batch, channels, height, width⟩ hsizes
  refine bind_congr_map ?_
  rintro ⟨pointBatch, rows, columns, coordinates⟩
  by_cases hfit : pointBatch = batch ∧ coordinates = 2
  · simp only [if_pos hfit]
    refine bind_congr_map fun _ => ?_
    simp only [found_iff, ite_not]
    by_cases hempty : height * width = 0 ∧ volume [batch, channels, rows, columns] ≠ 0
    · rw [if_pos hempty, if_pos hempty]
      rfl
    · rw [if_neg hempty, if_neg hempty]
      refine compute_shifted fun hkind index hw => ?_
      have harea : height * width ≠ 0 := fun hzero => hempty ⟨hzero, volume_ne_zero hw⟩
      obtain ⟨hheight, hwidth⟩ := Nat.mul_ne_zero_iff.1 harea
      obtain ⟨b, k, p, q, rfl, hb, hk, -, -⟩ := hw.exists_four
      exact read_shifted (Nat.pos_of_ne_zero hheight) (Nat.pos_of_ne_zero hwidth)
        ⟨sizes4_eq_ok.1 hsizes, hkind⟩ hb hk _ _
  · simp only [if_neg hfit, throw_eq_error, error_bind]
    rfl

end Sampling

/-- At a pixel the weights of the neighbors have one sum for all hypotheses. -/
def NeighborWeight.LevelAt (weight : Tensor ℝ) (count neighbors b y x : Nat) : Prop :=
  ∀ i < count, ∀ j < count, ∑ n : Fin neighbors, weight.get [b, i, n, y, x] =
    ∑ n : Fin neighbors, weight.get [b, j, n, y, x]

section Scores

variable {batch count layers height width : Nat} {gathered weight : Tensor ℝ}

/-- Probabilities of costs that are gathered from shifted ones. -/
theorem weigh_shifted (c : ℝ) (hgathered : gathered.shape = [batch, count, layers, height, width])
    (hweight : weight.IsSingle [batch, count, layers, height, width])
    (hlevel : ∀ b y x, b < batch → y < height → x < width →
      NeighborWeight.LevelAt weight count layers b y x) :
    (do (← (← (← Tensor.zip (· * ·) (gathered.shifted c) weight).sum 2).squeeze 2).softmax 1) =
      (do (← (← (← Tensor.zip (· * ·) gathered weight).sum 2).squeeze 2).softmax 1) := by
  by_cases hkind : gathered.kind = .single
  · have hsingle : gathered.IsSingle [batch, count, layers, height, width] := ⟨hgathered, hkind⟩
    obtain ⟨product, sum, costs, hproduct, hsum, hcosts, hcostsSingle, hget⟩ :=
      weigh_ok hsingle hweight
    obtain ⟨product', sum', costs', hproduct', hsum', hcosts', hcostsSingle', hget'⟩ :=
      weigh_ok (hsingle.map (· + c)) hweight
    rw [Tensor.shifted, hproduct, hproduct']
    simp only [ok_bind, hsum, hsum', hcosts, hcosts']
    refine hcostsSingle.softmax_shift hcostsSingle' rfl
      (fun index => c * ∑ n : Fin layers, weight.get (index.insertIdx 2 n.val)) fun index hw => ?_
    obtain ⟨b, k, y, x, rfl, hb, hk, hy, hx⟩ := hw.exists_four
    have hentry (n : Fin layers) : (gathered.map (· + c)).get [b, k, n, y, x] =
        gathered.get [b, k, n, y, x] + c :=
      get_map hkind (hgathered ▸ within_five hb hk n.isLt hy hx) _
    calc costs'.get [b, k, y, x]
        = ∑ n : Fin layers, (gathered.get [b, k, n, y, x] + c) * weight.get [b, k, n, y, x] := by
          rw [hget' b k y x hb hk hy hx]
          exact Finset.sum_congr rfl fun n _ => by rw [hentry n]
      _ = costs.get [b, k, y, x] + c * ∑ n : Fin layers, weight.get [b, k, n, y, x] := by
          simp only [hget b k y x hb hk hy hx, add_mul, Finset.sum_add_distrib, Finset.mul_sum]
      _ = costs.get [b, k, y, x] + c * ∑ n : Fin layers, weight.get [b, 0, n, y, x] := by
          rw [hlevel b y x hb hy hx k hk 0 (Nat.zero_lt_of_lt hk)]
  · rw [Tensor.shifted, map_of_kind_ne hkind]

/-- A head that gives shifted costs leads to the same probabilities. -/
theorem Matcher.score_shifted {matcher : Matcher ℝ} {head : Layer ℝ} {grid : NeighborGrid ℝ}
    (hhead : ∀ t, head t = Tensor.shifted c <$> matcher.similarityHead t)
    (hweight : weight.IsSingle [batch, count, grid.neighbors, height, width])
    (hlevel : ∀ b y x, b < batch → y < height → x < width →
      NeighborWeight.LevelAt weight count grid.neighbors b y x) (t : Tensor ℝ) :
    Matcher.score { matcher with similarityHead := head } t grid weight batch count height width =
      matcher.score t grid weight batch count height width := by
  simp only [Matcher.score]
  refine bind_map_congr_ok (hhead t) fun rated _ => ?_
  refine bind_map_congr_ok (squeeze_map _ rated 1) fun cost _ => ?_
  refine bind_map_congr_ok (Sampling.sample_shifted c cost grid.points) fun found _ => ?_
  refine bind_map_congr_ok (reshape_map _ found _) fun gathered hgathered => ?_
  exact weigh_shifted c (reshape_eq_ok hgathered).1 hweight hlevel

end Scores

section Heads

open Blueprint

variable {answers : String → Tensor ℝ} {scope : String}

/-- Channels plus a larger bias are larger by as much; a bias of another kind is not read. -/
theorem Convolution.addBias_shifted (bias : Tensor ℝ) (c : ℝ) :
    ∃ d, ∀ t, addBias (bias.shifted c) t = Tensor.shifted d <$> addBias bias t := by
  by_cases hkind : bias.kind = .single
  · refine ⟨c, fun t => bind_congr_map fun _ => ?_⟩
    rw [shape_shifted]
    split
    next channels rest hshape =>
      by_cases hbias : bias.shape = [channels]
      · simp only [if_pos hbias]
        refine congrArg Except.ok (ofFn_shifted fun index hw => ?_)
        rw [hshape] at hw
        obtain ⟨b, index, rfl, -, hw⟩ := hw.exists_cons
        obtain ⟨k, index, rfl, hk, -⟩ := hw.exists_cons
        dsimp only
        rw [Tensor.shifted, get_map hkind (hbias ▸ ⟨hk, trivial⟩), add_assoc]
      · simp only [if_neg hbias]
        rfl
    next => rfl
  · refine ⟨0, fun t => ?_⟩
    have hsame : Tensor.shifted (0 : ℝ) = id := funext shifted_zero
    rw [Tensor.shifted, map_of_kind_ne hkind, hsame, id_map]

noncomputable def shiftAnswer (answers : String → Tensor ℝ) (name : String) (c : ℝ) :
    String → Tensor ℝ :=
  Function.update answers name ((answers name).shifted c)

theorem Blueprint.Local.shiftAnswer {β : Type} {b : Blueprint ℝ β} (h : b.Local) {name : String}
    (hne : ∀ request ∈ b.requests, request.name ≠ name) (c : ℝ) :
    b.assemble (shiftAnswer answers name c) = b.assemble answers :=
  h _ _ fun request hr => Function.update_of_ne (hne request hr) _ _

/-- The last bias of a head is added to all that the head gives. -/
theorem costNetwork_shifted (hscope : scope ≠ "") (groups : Nat) (answers : String → Tensor ℝ)
    (c : ℝ) :
    ∃ d, ∀ t, (costNetwork scope groups .identity).assemble
        (shiftAnswer answers (dotted (dotted scope "2") "bias") c) t =
      Tensor.shifted d <$> (costNetwork scope groups .identity).assemble answers t := by
  have hself (name : String) : Below name name := List.prefix_refl _
  have hblock (name : String) (inputs outputs : Nat) (hapart : Apart name "2") :
      (Voxelwise.block (dotted scope name) inputs outputs : Blueprint ℝ _).assemble
          (shiftAnswer answers (dotted (dotted scope "2") "bias") c) =
        (Voxelwise.block (dotted scope name) inputs outputs).assemble answers := by
    refine (voxelwiseBlock_local _ _ _).shiftAnswer (fun request hr => ?_) c
    have hbelow := (voxelwiseBlock_tidy (dotted_ne_empty hscope name) _ _).below request hr
    exact (hapart.dotted scope).ne hbelow (below_dotted (dotted_ne_empty hscope "2") (hself _))
  have hne : dotted (dotted scope "2") "weight" ≠ dotted (dotted scope "2") "bias" :=
    Apart.ne (.dotted _ (by decide)) (hself _) (hself _)
  have hweight : shiftAnswer answers (dotted (dotted scope "2") "bias") c
      (dotted (dotted scope "2") "weight") = answers (dotted (dotted scope "2") "weight") :=
    Function.update_of_ne hne _ _
  have hbias : shiftAnswer answers (dotted (dotted scope "2") "bias") c
      (dotted (dotted scope "2") "bias") = (answers (dotted (dotted scope "2") "bias")).shifted c :=
    Function.update_self _ _ _
  obtain ⟨d, hd⟩ := Convolution.addBias_shifted (answers (dotted (dotted scope "2") "bias")) c
  refine ⟨d, fun t => ?_⟩
  simp only [costNetwork, Voxelwise.blueprintWithBias, assemble_seq, assemble_map,
    assemble_parameter, hblock "0" _ _ (by decide), hblock "1" _ _ (by decide), hweight, hbias]
  refine bind_congr_map fun first => bind_congr_map fun second => ?_
  exact bind_map_congr (bind_congr_map hd) fun _ => rfl

end Heads

section Evaluating

open Blueprint

variable {batch count neighbors height width : Nat}

/-- The weights of the neighbors of a pixel sum to 1 for all hypotheses if they have enough weight
between them for each. -/
theorem NeighborWeight.combine_levelAt {near features u : Tensor ℝ}
    (hnear : near.IsSingle [batch, count, neighbors, height, width])
    (hfeatures : features.IsSingle [batch, neighbors, height, width])
    (hu : combine near features = .ok u) {b y x : Nat} (hb : b < batch) (hy : y < height)
    (hx : x < width)
    (henough : ∀ k < count, 1 / (10 ^ 5 : ℕ) ≤
      ∑ n : Fin neighbors, near.get [b, k, n, y, x] * features.get [b, n, y, x]) :
    LevelAt u count neighbors b y x := by
  have hone (k : Nat) (hk : k < count) : ∑ n : Fin neighbors, u.get [b, k, n, y, x] = 1 := by
    rw [combine_sum hnear hfeatures hu hb hk hy hx]
    exact min_eq_left ((one_le_div weightFloor_pos).2 (henough k hk))
  intro i hi j hj
  rw [hone i hi, hone j hj]

namespace Matcher

/-- The name of the bias that is added to all costs. -/
def costBias (scope : String) : String :=
  dotted (dotted (dotted scope "similarity_net.conv") "2") "bias"

/-- A larger bias makes costs larger, and that is all it does. -/
theorem assemble_shifted (scope : String) (groups : Nat) (ratesViews parallel : Bool)
    (answers : String → Tensor ℝ) (c : ℝ) :
    ∃ (head : Layer ℝ) (d : ℝ),
      (Matcher.blueprint scope groups ratesViews parallel).assemble
          (shiftAnswer answers (costBias scope) c) =
        { (Matcher.blueprint scope groups ratesViews parallel).assemble answers with
          similarityHead := head } ∧
      ∀ t, head t = Tensor.shifted d <$> ((Matcher.blueprint scope groups ratesViews
        parallel).assemble answers).similarityHead t := by
  have hpart (name : String) (hname : name ≠ "") : dotted scope name ≠ "" :=
    dotted_ne_empty_of_name scope hname
  have hsimilarity := hpart "similarity_net.conv" (by decide)
  have hbias : Below (dotted scope "similarity_net.conv") (costBias scope) :=
    below_dotted hsimilarity (below_dotted (dotted_ne_empty hsimilarity _) (List.prefix_refl _))
  have hview : (Blueprint.onlyIf ratesViews (costNetwork (dotted scope "pixelwise_net.conv") groups
        .sigmoid)).assemble (shiftAnswer answers (costBias scope) c) =
      (Blueprint.onlyIf ratesViews (costNetwork (dotted scope "pixelwise_net.conv") groups
        .sigmoid)).assemble answers := by
    refine ((costNetwork_local _ _ _).onlyIf _).shiftAnswer (fun request hr => ?_) c
    have htidy : Tidy (dotted scope "pixelwise_net.conv")
        (costNetwork (dotted scope "pixelwise_net.conv") groups .sigmoid :
          Blueprint ℝ _).requests :=
      costNetwork_tidy (hpart _ (by decide)) _ _
    have hapart : Apart "pixelwise_net.conv" "similarity_net.conv" := by decide
    exact (hapart.dotted scope).ne ((onlyIf_tidy ratesViews htidy).below request hr) hbias
  obtain ⟨d, hd⟩ := costNetwork_shifted hsimilarity groups answers c
  refine ⟨_, d, ?_, hd⟩
  simp only [Matcher.blueprint, assemble_seq, assemble_map, hview]
  rfl

theorem evaluate_of_score [WorkerPool] {matcher : Matcher ℝ} {head : Layer ℝ}
    {views : ViewFeatures ℝ} {depth weight : Tensor ℝ} {grid : NeighborGrid ℝ}
    (hdepth : depth.shape = [batch, count, height, width])
    (h : ∀ t, Matcher.score { matcher with similarityHead := head } t grid weight batch count height
      width = matcher.score t grid weight batch count height width)
    (carried : Option (Tensor ℝ)) (readout : Readout) :
    Matcher.evaluate { matcher with similarityHead := head } views depth grid weight carried
      readout = matcher.evaluate views depth grid weight carried readout := by
  simp only [Matcher.evaluate, sizes4_eq_ok.2 hdepth, ok_bind, h]
  rfl

/-- The bias that is added to all costs changes nothing where the weights of the neighbors have one
sum for all hypotheses, as they have once they are divided by it. -/
theorem evaluate_costBias [WorkerPool] (scope : String) (groups : Nat) (ratesViews parallel : Bool)
    (answers : String → Tensor ℝ) (c : ℝ) (batch count height width : Nat) :
    let matcher (answers : String → Tensor ℝ) : Matcher ℝ :=
      (Matcher.blueprint scope groups ratesViews parallel).assemble answers
    (∀ (views : ViewFeatures ℝ) (depth weight : Tensor ℝ) (grid : NeighborGrid ℝ)
      (carried : Option (Tensor ℝ)) (readout : Readout),
      depth.shape = [batch, count, height, width] →
      weight.IsSingle [batch, count, grid.neighbors, height, width] →
      (∀ b y x, b < batch → y < height → x < width →
        NeighborWeight.LevelAt weight count grid.neighbors b y x) →
      (matcher (shiftAnswer answers (costBias scope) c)).evaluate views depth grid weight carried
          readout =
        (matcher answers).evaluate views depth grid weight carried readout) ∧
    ∀ (neighbors : Nat) (near features : Tensor ℝ),
      near.IsSingle [batch, count, neighbors, height, width] →
      features.IsSingle [batch, neighbors, height, width] →
      ∃ u, NeighborWeight.combine near features = .ok u ∧
        u.IsSingle [batch, count, neighbors, height, width] ∧
        ∀ b y x, b < batch → y < height → x < width →
          (∀ k < count, 1 / (10 ^ 5 : ℕ) ≤
            ∑ n : Fin neighbors, near.get [b, k, n, y, x] * features.get [b, n, y, x]) →
          NeighborWeight.LevelAt u count neighbors b y x := by
  refine ⟨fun views depth weight grid carried readout hdepth hweight hlevel => ?_,
    fun neighbors near features hnear hfeatures => ?_⟩
  · obtain ⟨head, d, hshifted, hhead⟩ :=
      assemble_shifted scope groups ratesViews parallel answers c
    dsimp only
    rw [hshifted]
    exact evaluate_of_score hdepth (score_shifted hhead hweight hlevel) carried readout
  · obtain ⟨u, hu, hsingle, -⟩ := NeighborWeight.combine_ok hnear hfeatures
    exact ⟨u, hu, hsingle, fun b y x hb hy hx =>
      NeighborWeight.combine_levelAt hnear hfeatures hu hb hy hx⟩

attribute [local instance] WorkerPool.inTurn

/-- A bias that is raised by 1. The weights of the two neighbors differ, but not their sum. -/
theorem evaluate_costBias_varied :
    ∃ (answers : String → Tensor ℝ) (verdict : Verdict ℝ),
      (∀ b y x, b < 1 → y < 2 → x < 2 →
        NeighborWeight.LevelAt Scoring.varied.weight 2 2 b y x) ∧
      ((Matcher.blueprint "evaluation" 1 true false).assemble answers).evaluate
          Scoring.varied.views Scoring.varied.depth Scoring.varied.grid Scoring.varied.weight none
          .expectation = .ok verdict ∧
      ((Matcher.blueprint "evaluation" 1 true false).assemble
          (shiftAnswer answers (costBias "evaluation") 1)).evaluate Scoring.varied.views
          Scoring.varied.depth Scoring.varied.grid Scoring.varied.weight none .expectation =
        .ok verdict := by
  obtain ⟨answers, -, hok⟩ := Scoring.exists_variedMatcher
  obtain ⟨verdict, hverdict⟩ := hok none .expectation nofun
  have hlevel (b y x : Nat) (hb : b < 1) (hy : y < 2) (hx : x < 2) :
      NeighborWeight.LevelAt Scoring.varied.weight 2 2 b y x := by
    obtain rfl : b = 0 := Nat.lt_one_iff.1 hb
    have hthree (k : Nat) (hk : k < 2) :
        ∑ n : Fin 2, Scoring.varied.weight.get [0, k, n, y, x] = 3 := by
      simp only [Scoring.weight_varied hk (Fin.isLt _) hy hx, Fin.sum_univ_two]
      interval_cases k <;> norm_num
    exact fun i hi j hj => (hthree i hi).trans (hthree j hj).symm
  obtain ⟨hsame, -⟩ := evaluate_costBias "evaluation" 1 true false answers 1 1 2 2 2
  exact ⟨answers, verdict, hlevel, hverdict, (hsame _ _ _ _ none _ rfl
    Scoring.varied.weight_single hlevel).trans hverdict⟩

end Matcher

end Evaluating

end MultiViewDepth
