import MultiViewDepth.Proofs.ScoreDistributions

/-!
What is known of source views that could be compared with the reference view.

A comparison that succeeds gives arrays of known shapes, whatever it was made from.
-/
namespace MultiViewDepth

open Tensor Arithmetic

section Steps

variable {batch channels count height width : Nat}
  {source projection referenceProjection depth warped reference u : Tensor ℝ}

theorem Reprojection.features_eq_ok (hdepth : depth.shape = [batch, count, height, width])
    (h : Reprojection.features source projection referenceProjection depth = .ok u) :
    ∃ channels, u.shape = [batch, channels, count, height, width] ∧ u.kind = source.kind := by
  simp only [Reprojection.features, sizes4_eq_ok.2 hdepth, ok_bind, bind_eq_ok, throw_eq_error,
    error_bind, ite_error_eq_ok] at h
  obtain ⟨⟨sourceBatch, channels, rows, columns⟩, hsizes, ⟨rfl, rfl, rfl⟩, points, -, found, hfound,
    hu⟩ := h
  exact ⟨channels, (reshape_eq_ok hu).1, (kind_of_reshape hu).trans (kind_of_sample hfound)⟩

theorem groupSimilarity_eq_ok {groups : Nat}
    (hwarped : warped.shape = [batch, channels, count, height, width])
    (h : groupSimilarity warped reference groups = .ok u) :
    groups ≠ 0 ∧ u.shape = [batch, groups, count, height, width] ∧ u.kind = warped.kind := by
  simp only [groupSimilarity, sizes5_eq_ok.2 hwarped, ok_bind, bind_eq_ok, throw_eq_error,
    error_bind, ite_error_eq_ok, error_ite_eq_ok, pure_eq_ok] at h
  obtain ⟨hgroups, sizes, -, -, -, h⟩ := h
  cases h
  exact ⟨fun hzero => hgroups (.inl hzero), rfl, kind_derive₂ _⟩

end Steps

theorem ViewFeatures.sourceCount_eq_ok {views : ViewFeatures ℝ} {n : Nat}
    (h : views.sourceCount = .ok n) :
    0 < n ∧ views.sources.length = n ∧ views.sourceProjections.length = n := by
  simp only [ViewFeatures.sourceCount, error_ite_eq_ok, not_not, Except.ok.injEq] at h
  obtain ⟨hlength, hne, rfl⟩ := h
  refine ⟨Nat.pos_of_ne_zero fun hzero => hne ?_, rfl, hlength.symm⟩
  rw [List.isEmpty_iff_length_eq_zero, hzero]

namespace Matcher

variable {matcher : Matcher ℝ} {views : ViewFeatures ℝ} {depth : Tensor ℝ}
  {carried : Option (Tensor ℝ)} {batch count height width n i : Nat} {c : Tensor ℝ × Tensor ℝ}

theorem checkCarried_eq_ok (h : checkCarried carried batch n height width = .ok ()) :
    ∀ weights ∈ carried, weights.shape = [batch, n, height, width] := by
  rintro weights rfl
  simp only [checkCarried, bind_eq_ok, throw_eq_error, ite_error_eq_ok] at h
  obtain ⟨sizes, hsizes, rfl, -⟩ := h
  exact sizes4_eq_ok.1 hsizes

/-- The weight of a source view is carried, or else found from its similarity. -/
theorem compare_eq_ok (h : matcher.compare views depth carried i = .ok c) :
    ∃ source projection warped, views.sources[i]? = some source ∧
      views.sourceProjections[i]? = some projection ∧
      Reprojection.features source projection views.referenceProjection depth = .ok warped ∧
      groupSimilarity warped views.reference matcher.groups = .ok c.1 ∧
      (match carried with
        | some weights => weights.narrow 1 i 1
        | none => matcher.viewWeight c.1) = .ok c.2 := by
  unfold compare at h
  split at h
  next source projection hsource hprojection =>
    simp only [bind_eq_ok] at h
    obtain ⟨warped, hwarped, similarity, hsimilarity, h⟩ := h
    refine ⟨source, projection, warped, hsource, hprojection, hwarped, ?_⟩
    cases carried with
    | none =>
      obtain ⟨weight, hweight, h⟩ := bind_eq_ok.1 h
      cases h
      exact ⟨hsimilarity, hweight⟩
    | some weights =>
      obtain ⟨weight, hweight, h⟩ := bind_eq_ok.1 h
      cases h
      exact ⟨hsimilarity, hweight⟩
  next => cases h

theorem similarity_of_compare (hdepth : depth.shape = [batch, count, height, width])
    (h : matcher.compare views depth carried i = .ok c) :
    matcher.groups ≠ 0 ∧ c.1.shape = [batch, matcher.groups, count, height, width] ∧
      ∃ source ∈ views.sources, c.1.kind = source.kind := by
  obtain ⟨source, projection, warped, hsource, -, hwarped, hsimilarity, -⟩ := compare_eq_ok h
  obtain ⟨channels, hshape, hkind⟩ := Reprojection.features_eq_ok hdepth hwarped
  obtain ⟨hgroups, hshape', hkind'⟩ := groupSimilarity_eq_ok hshape hsimilarity
  exact ⟨hgroups, hshape', source, List.mem_of_getElem? hsource, hkind'.trans hkind⟩

theorem compared_ne_nil [WorkerPool] {compared : List (Tensor ℝ × Tensor ℝ)}
    (hn : views.sourceCount = .ok n)
    (hrun : Tasks.run matcher.parallel n (matcher.compare views depth carried) = .ok compared) :
    compared ≠ [] := by
  rintro rfl
  exact (ViewFeatures.sourceCount_eq_ok hn).1.ne (Tasks.length_of_run hrun)

/-- Carried weights are handed on as they are, and others side by side. -/
def HandsOn (carried : Option (Tensor ℝ)) (compared : List (Tensor ℝ × Tensor ℝ))
    (weights : Tensor ℝ) : Prop :=
  match carried with
  | some carried => weights = carried
  | none => Tensor.concat 1 (compared.map Prod.snd) = .ok weights

/-- An evaluation that answers is one in which all of these steps do. -/
theorem evaluate_eq_ok [WorkerPool] {weight : Tensor ℝ} {grid : NeighborGrid ℝ} {readout : Readout}
    {verdict : Verdict ℝ} :
    matcher.evaluate views depth grid weight carried readout = .ok verdict ↔
      ∃ batch count height width n compared fused,
        depth.shape = [batch, count, height, width] ∧ views.sourceCount = .ok n ∧
        checkCarried carried batch n height width = .ok () ∧
        Tasks.run matcher.parallel n (matcher.compare views depth carried) = .ok compared ∧
        fuse compared = .ok fused ∧
        matcher.score fused grid weight batch count height width = .ok verdict.score ∧
        readout.depth depth verdict.score = .ok verdict.depth ∧
        HandsOn carried compared verdict.viewWeights := by
  constructor
  · intro h
    simp only [evaluate, bind_eq_ok] at h
    obtain ⟨n, hn, ⟨batch, count, height, width⟩, hsizes, _, hcarried, compared, hrun, fused,
      hfused, score, hscore, regressed, hregressed, h⟩ := h
    refine ⟨batch, count, height, width, n, compared, fused, sizes4_eq_ok.1 hsizes, hn, hcarried,
      hrun, hfused, ?_⟩
    cases carried with
    | some weights =>
      cases h
      exact ⟨hscore, hregressed, rfl⟩
    | none =>
      obtain ⟨weights, hweights, h⟩ := bind_eq_ok.1 h
      cases h
      exact ⟨hscore, hregressed, hweights⟩
  · rintro ⟨batch, count, height, width, n, compared, fused, hdepth, hn, hcarried, hrun, hfused,
      hscore, hregressed, hweights⟩
    simp only [evaluate, hn, sizes4_eq_ok.2 hdepth, hcarried, hrun, hfused, hscore, hregressed,
      ok_bind]
    cases carried with
    | some weights => exact congrArg (fun w => Except.ok (Verdict.mk _ _ w)) hweights.symm
    | none =>
      dsimp only at hweights ⊢
      rw [hweights]
      rfl

section Fusing

variable {groups : Nat} {compared : List (Tensor ℝ × Tensor ℝ)}

noncomputable def totalWeight (compared : List (Tensor ℝ × Tensor ℝ)) (b y x : Nat) : ℝ :=
  (compared.map fun c => c.2.get [b, 0, y, x]).sum

noncomputable def totalSimilarity (compared : List (Tensor ℝ × Tensor ℝ)) (b g k y x : Nat) : ℝ :=
  (compared.map fun c => c.2.get [b, 0, y, x] * c.1.get [b, g, k, y, x]).sum

/-- The fused similarity divides the weighted sum by the floored total of the weights. -/
theorem fuse_list (hne : compared ≠ [])
    (hcompared : ∀ c ∈ compared, c.1.IsSingle [batch, groups, count, height, width] ∧
      c.2.IsSingle [batch, 1, height, width]) :
    ∃ u, fuse compared = .ok u ∧ u.IsSingle [batch, groups, count, height, width] ∧
      ∀ b g k y x, b < batch → g < groups → k < count → y < height → x < width →
        u.get [b, g, k, y, x] = totalSimilarity compared b g k y x /
          max (totalWeight compared b y x) (1 / (10 ^ 5 : ℕ)) := by
  obtain ⟨n, view, rfl⟩ : ∃ n, ∃ view : Fin n → Tensor ℝ × Tensor ℝ, compared = List.ofFn view :=
    ⟨_, compared.get, (List.ofFn_get compared).symm⟩
  have hn : 0 < n := Nat.pos_of_ne_zero fun hzero => hne (by subst hzero; rfl)
  have hview (v : Fin n) := hcompared (view v) (List.mem_ofFn.2 ⟨v, rfl⟩)
  obtain ⟨u, hu, husingle, hget⟩ := fuse_ok hn (fun v => (view v).1) (fun v => (view v).2)
    (fun v => (hview v).1) fun v => (hview v).2
  refine ⟨u, hu, husingle, fun b g k y x hb hg hk hy hx => ?_⟩
  rw [hget b g k y x hb hg hk hy hx]
  simp only [totalSimilarity, totalWeight, List.map_ofFn, List.sum_ofFn, Function.comp_apply]

end Fusing

section Heads

open Blueprint

variable {t weight u : Tensor ℝ} {scope : String} {groups : Nat} {ratesViews parallel : Bool}
  {answers : String → Tensor ℝ}

/-- Both heads rate voxel by voxel, and what they say of a source view is one number per pixel. -/
structure RatesVoxels (matcher : Matcher ℝ) : Prop where
  view : ∃ head : Option (VoxelHead matcher.groups), matcher.viewHead = head.map VoxelHead.layer
  similarity : ∃ head : VoxelHead matcher.groups, matcher.similarityHead = head.layer
  weight_single : ∀ {batch count height width : Nat} {t u : Tensor ℝ},
    t.IsSingle [batch, matcher.groups, count, height, width] → matcher.viewWeight t = .ok u →
      u.IsSingle [batch, 1, height, width]

/-- A head has nothing to say of no batch element. -/
theorem costNetwork_empty (scope : String) (groups : Nat) (activation : Activation)
    (answers : String → Tensor ℝ) {rest : List Nat} (ht : t.shape = 0 :: rest) :
    (costNetwork scope groups activation).assemble answers t = .error .tensor := by
  have hmix (weight : Tensor ℝ) : Voxelwise.apply weight t = .error .tensor := by
    unfold Voxelwise.apply
    rw [ht]
    cases rest with
    | nil => rfl
    | cons channels rest => simp only [true_or, if_true, throw_eq_error, error_bind]
  simp only [costNetwork, Voxelwise.block, Voxelwise.blueprint, assemble_seq, assemble_map,
    assemble_parameter, hmix, error_bind]

/-- The heads of a built matcher rate one voxel at a time. -/
theorem assemble_ratesVoxels (hgroups : groups ≠ 0)
    (h : Answered (Matcher.blueprint scope groups ratesViews parallel : Blueprint ℝ _).requests
      answers) :
    ((Matcher.blueprint scope groups ratesViews parallel).assemble answers).RatesVoxels := by
  obtain ⟨viewHead, similarityHead, -, hheads⟩ := exists_voxelHeads hgroups h
  have hview := congrArg Matcher.viewHead hheads
  refine ⟨⟨viewHead, hview⟩, ⟨similarityHead, congrArg Matcher.similarityHead hheads⟩, ?_⟩
  intro batch count height width t u ht hu
  cases viewHead with
  | none =>
    simp only [viewWeight, hview, Option.map] at hu
    cases hu
  | some head =>
    -- of no batch element or no hypothesis there is no best rating
    have hlayer : head.layer = (costNetwork (dotted scope "pixelwise_net.conv") groups
        .sigmoid).assemble answers := by
      simp only [Matcher.blueprint, assemble_seq, assemble_map, onlyIf_assemble] at hview
      split at hview
      · exact (Option.some.inj hview).symm
      · cases hview
    have hbatch : 0 < batch := Nat.pos_of_ne_zero fun hzero => by
      subst hzero
      simp only [viewWeight, hview, Option.map, hlayer, costNetwork_empty _ _ _ _ ht.shape_eq,
        error_bind] at hu
      cases hu
    have hcount : 0 < count := Nat.pos_of_ne_zero fun hzero => by
      subst hzero
      obtain ⟨rated, flat, hrated, hflat, hsingle, -⟩ := rated_ok head hbatch ht
      have hnone : flat.size 1 = 0 := by
        rw [size, hsingle.shape_eq]
        rfl
      simp only [viewWeight, hview, Option.map, hrated, hflat, ok_bind, Tensor.maximum,
        if_pos hnone] at hu
      cases hu
    obtain ⟨u', hu', hsingle, -⟩ := viewWeight_ok hview hbatch hcount ht
    obtain rfl : u = u' := Except.ok.inj (hu.symm.trans hu')
    exact hsingle

theorem score_isSingle {grid : NeighborGrid ℝ} (hmatcher : matcher.RatesVoxels)
    (hbatch : 0 < batch) (ht : t.IsSingle [batch, matcher.groups, count, height, width])
    (hweight : weight.shape = [batch, count, grid.neighbors, height, width])
    (hu : matcher.score t grid weight batch count height width = .ok u) :
    u.IsSingle [batch, count, height, width] := by
  obtain ⟨head, hhead⟩ := hmatcher.similarity
  obtain ⟨rated, costs, hrated, hsoftmax, hkind, hcosts⟩ := score_parts hu
  obtain ⟨rated', _, hrated', hflat, hsingle, -⟩ := rated_ok head hbatch ht
  rw [hhead] at hrated
  obtain rfl : rated = rated' := Except.ok.inj (hrated.symm.trans hrated')
  obtain ⟨hshape, hsame, -⟩ := softmax_eq_ok hsoftmax
  exact ⟨hshape.trans (hcosts hweight),
    hsame.trans (hkind.trans ((kind_of_squeeze hflat).symm.trans hsingle.kind_eq))⟩

/-- Similarities and weights of all source views that could be compared. -/
theorem compared_isSingle [WorkerPool] {compared : List (Tensor ℝ × Tensor ℝ)}
    (hmatcher : matcher.groups ≠ 0 → carried = none → matcher.RatesVoxels)
    (hsources : ∀ source ∈ views.sources, source.kind = .single)
    (hdepth : depth.shape = [batch, count, height, width])
    (hkinds : ∀ weights ∈ carried, weights.kind = .single)
    (hcarried : checkCarried carried batch n height width = .ok ())
    (hrun : Tasks.run matcher.parallel n (matcher.compare views depth carried) = .ok compared) :
    ∀ c ∈ compared, matcher.groups ≠ 0 ∧
      c.1.IsSingle [batch, matcher.groups, count, height, width] ∧
      c.2.IsSingle [batch, 1, height, width] := by
  intro c hc
  obtain ⟨i, hi⟩ := List.mem_iff_getElem?.1 hc
  obtain ⟨-, hcompare⟩ := Tasks.run_eq_ok hrun hi
  obtain ⟨hgroups, hshape, source, hsource, hkind⟩ := similarity_of_compare hdepth hcompare
  have hsimilarity : c.1.IsSingle [batch, matcher.groups, count, height, width] :=
    ⟨hshape, hkind.trans (hsources source hsource)⟩
  refine ⟨hgroups, hsimilarity, ?_⟩
  obtain ⟨_, _, _, -, -, -, -, hweight⟩ := compare_eq_ok hcompare
  cases carried with
  | none => exact (hmatcher hgroups rfl).weight_single hsimilarity hweight
  | some weights =>
    obtain ⟨hshape, hkind⟩ := narrow_eq_ok hweight
    rw [checkCarried_eq_ok hcarried weights rfl] at hshape
    exact ⟨hshape, hkind.trans (hkinds weights rfl)⟩

end Heads

end Matcher

end MultiViewDepth
