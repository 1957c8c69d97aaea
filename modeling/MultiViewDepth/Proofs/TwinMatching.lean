import MultiViewDepth.Matching.Matcher
import MultiViewDepth.Proofs.Reordering
import MultiViewDepth.Proofs.TwinReadout
import MultiViewDepth.Proofs.TwinWeights

/-!
Hypotheses scored for twins, with the source views of the second run in another order.

What is added over all source views does not depend on their order; their weights keep it.
-/
namespace MultiViewDepth

open Tensor Arithmetic

/-- The heads of a matcher take the groups of every voxel to one number. -/
structure Matcher.Sound {α : Type} [Scalar α] (matcher : Matcher α) (channels : Nat) : Prop where
  groups_ne_zero : matcher.groups ≠ 0
  channels_mod : channels % matcher.groups = 0
  viewHead : ∀ head ∈ matcher.viewHead, ∀ s, Batchwise head (matcher.groups :: s) (1 :: s)
  similarityHead : ∀ s, Batchwise matcher.similarityHead (matcher.groups :: s) (1 :: s)

namespace Twins

variable {p : Twins} {n : Nat} {σ : Equiv.Perm (Fin n)}

section Channels

/-- Arrays with one channel per source view, in the order of either run. -/
structure ChannelsAlike {α : Type} [Zero α] (p : Twins) (σ : Equiv.Perm (Fin n))
    (shape : List Nat) (t t' : Tensor α) : Prop where
  shape_left : t.shape = p.size :: n :: shape
  shape_right : t'.shape = p.size' :: n :: shape
  kind_left : t.kind = .single
  kind_right : t'.kind = .single
  get_eq : ∀ (i : Fin n) (index : List Nat), Within index shape →
    t.get (p.element :: (σ i).val :: index) = t'.get (p.element' :: i.val :: index)

variable {α : Type} [Scalar α] {shape : List Nat} {t t' : Tensor α} {batch : Nat}

/-- The channel of a source view. -/
theorem ChannelsAlike.narrow (h : p.ChannelsAlike σ shape t t') (i : Fin n) :
    Both (p.Alike (1 :: shape)) (t.narrow 1 (σ i) 1) (t'.narrow 1 i 1) := by
  have hl : (σ i).val + 1 ≤ n := (σ i).isLt
  have hr : i.val + 1 ≤ n := i.isLt
  rw [narrow_of_single h.kind_left (by simp [h.shape_left]) hl,
    narrow_of_single h.kind_right (by simp [h.shape_right]) hr, h.shape_left, h.shape_right]
  refine .ok (alike_ofFn fun index hw => ?_)
  obtain ⟨j, rest, rfl, hj, hrest⟩ := hw.exists_cons
  obtain rfl : j = 0 := by omega
  exact h.get_eq i rest hrest

theorem ChannelsAlike.sizes4 {height width : Nat} (h : p.ChannelsAlike σ [height, width] t t') :
    t.sizes4 = .ok (p.size, n, height, width) ∧ t'.sizes4 = .ok (p.size', n, height, width) :=
  ⟨sizes4_eq_ok.2 h.shape_left, sizes4_eq_ok.2 h.shape_right⟩

theorem ChannelsAlike.double {height width : Nat} (h : p.ChannelsAlike σ [height, width] t t') :
    Both (p.ChannelsAlike σ [2 * height, 2 * width]) (Sampling.double t) (Sampling.double t') := by
  obtain ⟨u, hu, hs, hk, hget⟩ := Sampling.double_ok h.shape_left h.kind_left
  obtain ⟨u', hu', hs', hk', hget'⟩ := Sampling.double_ok h.shape_right h.kind_right
  refine ⟨u, u', hu, hu', hs, hs', hk, hk', fun i index hw => ?_⟩
  obtain ⟨y, x, rfl, hy, hx⟩ := hw.exists_two
  rw [hget _ _ y x p.lt (σ i).isLt hy hx, hget' _ _ y x p.lt' i.isLt hy hx]
  refine sumTo_congr fun a ha => congrArg (· * _) (sumTo_congr fun b hb => ?_)
  rw [h.get_eq i [a, b] (within_two ha hb)]

theorem concat_append_single {ts : List (Tensor α)} {first u : Tensor α} (hne : ts ≠ [])
    (h : concat 1 ts = .ok first) : concat 1 (ts ++ [u]) = append 1 first u := by
  cases ts with
  | nil => exact absurd rfl hne
  | cons t ts =>
    simp only [concat, List.cons_append] at h ⊢
    rw [List.foldlM_append, h, ok_bind, List.foldlM_cons]
    cases append 1 first u <;> rfl

/-- Arrays with one channel each, laid side by side. -/
theorem concat_ok {m : Nat} (f : Fin (m + 1) → Tensor α)
    (h : ∀ i, (f i).shape = batch :: 1 :: shape ∧ (f i).kind = .single) :
    ∃ all, concat 1 (List.ofFn f) = .ok all ∧ all.shape = batch :: (m + 1) :: shape ∧
      all.kind = .single ∧ ∀ b (i : Fin (m + 1)) index, b < batch → Within index shape →
        all.get (b :: i.val :: index) = (f i).get (b :: 0 :: index) := by
  induction m with
  | zero =>
    refine ⟨f 0, by simp [concat], (h 0).1, (h 0).2, fun b i index _ _ => ?_⟩
    obtain rfl : i = 0 := Fin.ext (by omega)
    rfl
  | succ m ih =>
    obtain ⟨first, hfirst, hs, hk, hget⟩ := ih (fun i => f i.castSucc) fun i => h i.castSucc
    obtain ⟨hsu, hku⟩ := h (Fin.last (m + 1))
    rw [List.ofFn_succ', List.concat_eq_append, concat_append_single (by simp) hfirst,
      append_of_single (by simp [rank, hs]) (by simp [hs, hsu]) hk hku]
    simp only [Tensor.size, hs, hsu, List.getD_cons_succ, List.getD_cons_zero, List.set_cons_succ,
      List.set_cons_zero]
    refine ⟨_, rfl, rfl, rfl, fun b i index hb hw => ?_⟩
    rw [get_ofFn (within_cons.2 ⟨hb, within_cons.2 ⟨i.isLt, hw⟩⟩)]
    simp only [List.getD_cons_succ, List.getD_cons_zero, List.set_cons_succ, List.set_cons_zero]
    cases i using Fin.lastCases with
    | last => simp
    | cast i =>
      rw [← hget b i index hb hw]
      exact if_pos i.isLt

/-- Joining reordered maps gives one map with its channels reordered. -/
theorem concat_alike {ts ts' : List (Tensor α)}
    (h : Reordered σ (p.Alike (1 :: shape)) ts ts') (hn : 0 < n) :
    Both (p.ChannelsAlike σ shape) (concat 1 ts) (concat 1 ts') := by
  obtain ⟨m, rfl⟩ : ∃ m, n = m + 1 := ⟨n - 1, by omega⟩
  obtain ⟨f, f', rfl, rfl, hr⟩ := h
  have hleft (i : Fin (m + 1)) : (f i).shape = p.size :: 1 :: shape ∧ (f i).kind = .single := by
    have hi := hr (σ.symm i)
    rw [Equiv.apply_symm_apply] at hi
    exact ⟨hi.shape_left, hi.kind_left⟩
  obtain ⟨u, hu, hs, hk, hget⟩ := concat_ok f hleft
  obtain ⟨u', hu', hs', hk', hget'⟩ :=
    concat_ok f' fun i => ⟨(hr i).shape_right, (hr i).kind_right⟩
  refine ⟨u, u', hu, hu', hs, hs', hk, hk', fun i index hw => ?_⟩
  rw [hget _ (σ i) index p.lt hw, hget' _ i index p.lt' hw]
  exact (hr i).get_eq (0 :: index) ⟨by decide, hw⟩

end Channels

section Totals

variable {shape : List Nat}

theorem total_append_single {ts : List (Tensor ℝ)} {first u : Tensor ℝ} (hne : ts ≠ [])
    (h : Matcher.total ts = .ok first) :
    Matcher.total (ts ++ [u]) = Tensor.zipSame (· + ·) first u := by
  cases ts with
  | nil => exact absurd rfl hne
  | cons t ts =>
    simp only [Matcher.total, List.cons_append] at h ⊢
    rw [List.foldlM_append, h, ok_bind, List.foldlM_cons]
    cases Tensor.zipSame (· + ·) first u <;> rfl

theorem total_ok {m : Nat} (f : Fin (m + 1) → Tensor ℝ)
    (h : ∀ i, (f i).shape = shape ∧ (f i).kind = .single) :
    ∃ all, Matcher.total (List.ofFn f) = .ok all ∧ all.shape = shape ∧ all.kind = .single ∧
      ∀ index, Within index shape → all.get index = ∑ i, (f i).get index := by
  induction m with
  | zero => exact ⟨f 0, by simp [Matcher.total], (h 0).1, (h 0).2, fun index _ => by simp⟩
  | succ m ih =>
    obtain ⟨first, hfirst, hs, hk, hget⟩ := ih (fun i => f i.castSucc) fun i => h i.castSucc
    obtain ⟨hsu, hku⟩ := h (Fin.last (m + 1))
    rw [List.ofFn_succ', List.concat_eq_append, total_append_single (by simp) hfirst,
      zipSame_of_single (hs.trans hsu.symm) hk hku, hs]
    refine ⟨_, rfl, rfl, rfl, fun index hw => ?_⟩
    rw [get_ofFn hw, hget index hw]
    exact (Fin.sum_univ_castSucc fun i => (f i).get index).symm

/-- A sum over all source views does not look at their order. -/
theorem total_alike {ts ts' : List (Tensor ℝ)} (h : Reordered σ (p.Alike shape) ts ts')
    (hn : 0 < n) : Both (p.Alike shape) (Matcher.total ts) (Matcher.total ts') := by
  obtain ⟨m, rfl⟩ : ∃ m, n = m + 1 := ⟨n - 1, by omega⟩
  obtain ⟨f, f', rfl, rfl, hr⟩ := h
  have hleft (i : Fin (m + 1)) : (f i).shape = p.size :: shape ∧ (f i).kind = .single := by
    have hi := hr (σ.symm i)
    rw [Equiv.apply_symm_apply] at hi
    exact ⟨hi.shape_left, hi.kind_left⟩
  obtain ⟨u, hu, hs, hk, hget⟩ := total_ok f hleft
  obtain ⟨u', hu', hs', hk', hget'⟩ :=
    total_ok f' fun i => ⟨(hr i).shape_right, (hr i).kind_right⟩
  refine ⟨u, u', hu, hu', hs, hs', hk, hk', fun index hw => ?_⟩
  rw [hget _ (within_cons.2 ⟨p.lt, hw⟩), hget' _ (within_cons.2 ⟨p.lt', hw⟩)]
  calc ∑ i, (f i).get (p.element :: index)
      = ∑ i, (f (σ i)).get (p.element :: index) :=
        (Equiv.sum_comp σ fun i => (f i).get (p.element :: index)).symm
    _ = ∑ i, (f' i).get (p.element' :: index) :=
        Finset.sum_congr rfl fun i _ => (hr i).get_eq index hw

end Totals

section Matching

/-- Twins have the same features in their reference views, and in source views of which the second
run has them in another order. -/
structure ViewsAlike (p : Twins) (σ : Equiv.Perm (Fin n)) (channels height width : Nat)
    (views views' : ViewFeatures ℝ) : Prop where
  reference : p.Alike [channels, height, width] views.reference views'.reference
  sources : Reordered σ (p.Alike [channels, height, width]) views.sources views'.sources
  length_left : views.sourceProjections.length = n
  length_right : views'.sourceProjections.length = n

def PosesAlike (p : Twins) (σ : Equiv.Perm (Fin n)) (views views' : ViewFeatures ℝ) : Prop :=
  Reordered σ (fun source source' => Both p.PoseAlike
    (RelativePose.between source views.referenceProjection)
    (RelativePose.between source' views'.referenceProjection))
    views.sourceProjections views'.sourceProjections

structure VerdictAlike (p : Twins) (σ : Equiv.Perm (Fin n)) (hypotheses height width : Nat)
    (v v' : Verdict ℝ) : Prop where
  depth : p.Alike [1, height, width] v.depth v'.depth
  score : p.Alike [hypotheses, height, width] v.score v'.score
  viewWeights : p.ChannelsAlike σ [height, width] v.viewWeights v'.viewWeights

structure ComparedAlike (p : Twins) (groups hypotheses height width : Nat)
    (c c' : Tensor ℝ × Tensor ℝ) : Prop where
  similarity : p.Alike [groups, hypotheses, height, width] c.1 c'.1
  weight : p.Alike [1, height, width] c.2 c'.2

variable {channels hypotheses neighbors height width : Nat} {matcher : Matcher ℝ}
  {views views' : ViewFeatures ℝ} {depth depth' weight weight' : Tensor ℝ}
  {carried carried' : Option (Tensor ℝ)} {grid grid' : NeighborGrid ℝ}

theorem ViewsAlike.sourceCount (h : p.ViewsAlike σ channels height width views views')
    (hn : 0 < n) : views.sourceCount = .ok n ∧ views'.sourceCount = .ok n := by
  have hne {ts : List (Tensor ℝ)} (hts : ts.length = n) : ts.isEmpty = false := by
    rw [List.isEmpty_eq_false_iff_exists_mem]
    exact List.exists_mem_of_length_pos (hts ▸ hn)
  constructor
  · simp [ViewFeatures.sourceCount, h.sources.length_left, h.length_left,
      hne h.sources.length_left]
  · simp [ViewFeatures.sourceCount, h.sources.length_right, h.length_right,
      hne h.sources.length_right]

theorem viewWeight_alike {similarity similarity' : Tensor ℝ} (hm : matcher.Sound channels)
    (hrates : matcher.viewHead.isSome) (hhypotheses : 0 < hypotheses)
    (h : p.Alike [matcher.groups, hypotheses, height, width] similarity similarity') :
    Both (p.Alike [1, height, width]) (matcher.viewWeight similarity)
      (matcher.viewWeight similarity') := by
  obtain ⟨head, hhead⟩ := Option.isSome_iff_exists.1 hrates
  simp only [Matcher.viewWeight, hhead]
  refine (hm.viewHead head hhead _ p _ _ h).bind fun rated rated' hrated => ?_
  refine (hrated.squeeze 0 rfl (by simp)).bind fun flat flat' hflat => ?_
  exact hflat.maximum 0 rfl hhypotheses

/-- Comparing paired source views gives similarities and weights that agree. -/
theorem compare_alike (hm : matcher.Sound channels)
    (hviews : p.ViewsAlike σ channels height width views views')
    (hposes : p.PosesAlike σ views views')
    (hdepth : p.Alike [hypotheses, height, width] depth depth')
    (hcarried : Optionally (p.ChannelsAlike σ [height, width]) carried carried')
    (hrates : carried = none → matcher.viewHead.isSome) (hhypotheses : 0 < hypotheses)
    (hheight : 0 < height) (hwidth : 0 < width) (i : Fin n) :
    Both (p.ComparedAlike matcher.groups hypotheses height width)
      (matcher.compare views depth carried (σ i)) (matcher.compare views' depth' carried' i) := by
  obtain ⟨source, source', hs, hs', hsource⟩ := hviews.sources.getElem? i
  obtain ⟨projection, projection', hq, hq', hpose⟩ := hposes.getElem? i
  simp only [Matcher.compare, hs, hs', hq, hq']
  refine (features_alike hsource hpose hdepth hheight hwidth).bind fun warped warped' hwarped => ?_
  refine (groupSimilarity_alike hwarped hviews.reference hm.groups_ne_zero hm.channels_mod).bind
    fun similarity similarity' hsimilarity => ?_
  match carried, carried', hcarried with
  | none, none, _ =>
    exact (viewWeight_alike hm (hrates rfl) hhypotheses hsimilarity).bind fun w w' hw =>
      .ok ⟨hsimilarity, hw⟩
  | some weights, some weights', h => exact (h.narrow i).bind fun w w' hw => .ok ⟨hsimilarity, hw⟩

/-- The weighted mean over the views does not depend on their order. -/
theorem fuse_alike {groups : Nat} {compared compared' : List (Tensor ℝ × Tensor ℝ)}
    (h : Reordered σ (p.ComparedAlike groups hypotheses height width) compared compared')
    (hn : 0 < n) :
    Both (p.Alike [groups, hypotheses, height, width]) (Matcher.fuse compared)
      (Matcher.fuse compared') := by
  have hone : Repeats [groups, hypotheses, height, width] [1, 1, height, width] :=
    .cons (.inr rfl) (.cons (.inr rfl) (Repeats.refl _))
  unfold Matcher.fuse
  refine (h.mapM (S := p.Alike [groups, hypotheses, height, width]) fun c c' hc => ?_).bind
    fun weighted weighted' hweighted => ?_
  · exact (hc.weight.unsqueeze 0 (by simp) (by simp)).bind fun w w' hw =>
      hc.similarity.zip hw hone (· * ·)
  · refine (total_alike hweighted hn).bind fun similarity similarity' hsimilarity => ?_
    refine (total_alike (h.map fun c c' hc => hc.weight) hn).bind fun weight weight' hweight => ?_
    refine ((hweight.atLeast weightFloor).unsqueeze 0 (by simp) (by simp)).bind
      fun divisor divisor' hdivisor => ?_
    exact hsimilarity.zip hdivisor hone (· / ·)

/-- The scores of one element come from its own similarity. -/
theorem score_alike {similarity similarity' : Tensor ℝ} (hm : matcher.Sound channels)
    (h : p.Alike [matcher.groups, hypotheses, height, width] similarity similarity')
    (hgrid : p.GridAlike neighbors height width grid grid')
    (hweight : p.Alike [hypotheses, neighbors, height, width] weight weight')
    (hhypotheses : 0 < hypotheses) (hheight : 0 < height) (hwidth : 0 < width) :
    Both (p.Alike [hypotheses, height, width])
      (matcher.score similarity grid weight p.size hypotheses height width)
      (matcher.score similarity' grid' weight' p.size' hypotheses height width) := by
  simp only [Matcher.score, hgrid.neighbors_left, hgrid.neighbors_right]
  refine (hm.similarityHead _ p _ _ h).bind fun rated rated' hrated => ?_
  refine (hrated.squeeze 0 rfl (by simp)).bind fun cost cost' hcost => ?_
  refine (Sampling.sample_alike hcost hgrid.points hheight hwidth .border).bind
    fun read read' hread => ?_
  refine (hread.reshape [hypotheses, neighbors, height, width]
    (by simp [Nat.mul_assoc])).bind fun gathered gathered' hgathered => ?_
  refine (hgathered.zip hweight (Repeats.refl _) (· * ·)).bind fun product product' hproduct => ?_
  refine (hproduct.sum 1 rfl).bind fun total total' htotal => ?_
  refine (htotal.squeeze 1 rfl (by simp)).bind fun weighted weighted' hweighted => ?_
  exact hweighted.softmax 0 rfl hhypotheses

theorem checkCarried_alike
    (h : Optionally (p.ChannelsAlike σ [height, width]) carried carried') :
    Matcher.checkCarried carried p.size n height width = .ok () ∧
      Matcher.checkCarried carried' p.size' n height width = .ok () := by
  match carried, carried', h with
  | none, none, _ => exact ⟨rfl, rfl⟩
  | some weights, some weights', h =>
    simp [Matcher.checkCarried, h.sizes4.1, h.sizes4.2]

/-- An evaluation of paired views gives verdicts that agree on the pair of elements. -/
theorem evaluate_alike [WorkerPool] (hm : matcher.Sound channels)
    (hviews : p.ViewsAlike σ channels height width views views')
    (hposes : p.PosesAlike σ views views') (hn : 0 < n)
    (hdepth : p.Alike [hypotheses, height, width] depth depth')
    (hgrid : p.GridAlike neighbors height width grid grid')
    (hweight : p.Alike [hypotheses, neighbors, height, width] weight weight')
    (hcarried : Optionally (p.ChannelsAlike σ [height, width]) carried carried')
    (hrates : carried = none → matcher.viewHead.isSome) (hhypotheses : 0 < hypotheses)
    (hheight : 0 < height) (hwidth : 0 < width) (readout : Readout) :
    Both (p.VerdictAlike σ hypotheses height width)
      (matcher.evaluate views depth grid weight carried readout)
      (matcher.evaluate views' depth' grid' weight' carried' readout) := by
  simp only [Matcher.evaluate, (hviews.sourceCount hn).1, (hviews.sourceCount hn).2, ok_bind,
    hdepth.sizes4.1, hdepth.sizes4.2, (checkCarried_alike hcarried).1,
    (checkCarried_alike hcarried).2]
  refine (Reordered.run matcher.parallel matcher.parallel fun i => compare_alike hm hviews
    hposes hdepth hcarried hrates hhypotheses hheight hwidth i).bind
        fun compared compared' hcompared => ?_
  refine (fuse_alike hcompared hn).bind fun similarity similarity' hsimilarity => ?_
  refine (score_alike hm hsimilarity hgrid hweight hhypotheses hheight hwidth).bind
    fun score score' hscore => ?_
  refine (readout_alike readout hdepth hscore hhypotheses).bind fun found found' hfound => ?_
  match carried, carried', hcarried with
  | none, none, _ =>
    exact (concat_alike (hcompared.map fun c c' hc => hc.weight) hn).bind fun w w' hw =>
      .ok ⟨hfound, hscore, hw⟩
  | some weights, some weights', h => exact .ok ⟨hfound, hscore, h⟩

end Matching

end Twins

end MultiViewDepth
