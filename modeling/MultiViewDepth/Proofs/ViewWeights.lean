import MultiViewDepth.Proofs.DrawCounts
import MultiViewDepth.Proofs.SamplingBounds
import MultiViewDepth.Proofs.SingleArrays

/-!
The weights of the source views are found once.

The first round of the coarsest stage rates the source views; all later rounds take its weights
over, and stages hand them on enlarged and otherwise unchanged.
-/
namespace MultiViewDepth

open Tensor Arithmetic

section Carrying

variable {α δ σ : Type} [Scalar α] [Scalar δ] [Precision α δ] [RandomSource σ α]
  {views : ViewFeatures α} {weights : Tensor α}

/-- View weights that are carried are taken over. -/
theorem evaluate_carried [WorkerPool] {matcher : Matcher α} {depth weight : Tensor α}
    {grid : NeighborGrid α} {readout : Readout} {verdict : Verdict α}
    (h : matcher.evaluate views depth grid weight (some weights) readout = .ok verdict) :
    verdict.viewWeights = weights := by
  simp only [Matcher.evaluate, bind_eq_ok, pure_eq_ok, ok_bind] at h
  obtain ⟨_, -, ⟨_, _, _, _⟩, -, _, -, compared, -, fused, -, score, -, regressed, -, h⟩ := h
  cases h
  rfl

/-- Where view weights are carried, nothing depends on the head that rates views. -/
theorem evaluate_unrated [WorkerPool] (matcher : Matcher α) (head : Option (Layer α))
    (depth weight : Tensor α) (grid : NeighborGrid α) (readout : Readout) :
    { matcher with viewHead := head }.evaluate views depth grid weight (some weights) readout =
      matcher.evaluate views depth grid weight (some weights) readout :=
  rfl

variable {stage : Stage α δ} {range : DepthRange δ} {surroundings : Surroundings α}
  {batch height width : Nat} {rng : σ}

theorem round_carried [WorkerPool] {iteration : Nat} {estimate : Option (Tensor α)}
    {r : Round α × σ}
    (h : stage.round views range surroundings batch height width iteration estimate (some weights)
      rng = .ok r) : r.1.verdict.viewWeights = weights := by
  obtain ⟨_, _, -, -, -, -, hevaluate⟩ := Stage.round_eq_ok h
  exact evaluate_carried hevaluate

/-- Weights that are carried into a stage come out of every round. -/
theorem rounds_carried [WorkerPool] {count iteration : Nat} {estimate : Option (Tensor α)}
    {r : List (Round α) × σ}
    (h : stage.rounds views range surroundings batch height width count iteration estimate
      (some weights) rng = .ok r) : ∀ round ∈ r.1, round.verdict.viewWeights = weights := by
  induction count generalizing iteration estimate rng r with
  | zero =>
    cases h
    simp
  | succ count ih =>
    obtain ⟨⟨round, rng'⟩, hround, h⟩ := bind_eq_ok.1 h
    obtain ⟨⟨later, rng''⟩, hlater, h⟩ := bind_eq_ok.1 h
    cases h
    have hfirst : round.verdict.viewWeights = weights := round_carried hround
    rw [hfirst] at hlater
    exact List.forall_mem_cons.2 ⟨hfirst, ih hlater⟩

structure StageRecord.Keeps (record : StageRecord α) (weights : Tensor α) : Prop where
  rounds : ∀ round ∈ record.rounds, round.verdict.viewWeights = weights
  verdict : record.verdict.viewWeights = weights

omit [Scalar α] [Scalar δ] [Precision α δ] in
/-- A record keeps weights that all of its rounds kept. -/
theorem keeps_of_rounds {rounds : List (Round α)} {verdict : Verdict α}
    (h : ∀ round ∈ rounds, round.verdict.viewWeights = weights)
    (hverdict : stage.verdict rounds = .ok verdict) :
    StageRecord.Keeps ⟨rounds, verdict⟩ weights := by
  obtain ⟨last, hlast, rfl⟩ := Stage.verdict_eq_ok.1 hverdict
  exact ⟨h, h last (List.mem_of_getLast? hlast)⟩

/-- All rounds of a stage have the view weights of its first one, and these are the ones that it
starts from, where there are any. -/
theorem run_keeps [WorkerPool] {estimate carried : Option (Tensor α)} {rng' : σ}
    {rounds : List (Round α)}
    {verdict : Verdict α} (h : stage.run views range estimate carried rng = .ok (rounds, rng'))
    (hverdict : stage.verdict rounds = .ok verdict) :
    ∃ first, rounds.head? = some first ∧
      StageRecord.Keeps ⟨rounds, verdict⟩ first.verdict.viewWeights ∧
      ∀ weights ∈ carried, first.verdict.viewWeights = weights := by
  obtain ⟨_, _, _, surroundings, -, -, h⟩ := Stage.run_eq_ok h
  cases hcount : stage.settings.iterations with
  | zero =>
    rw [hcount] at h
    cases h
    cases hverdict
  | succ count =>
    rw [hcount] at h
    obtain ⟨⟨first, rng₁⟩, hfirst, h⟩ := bind_eq_ok.1 h
    obtain ⟨⟨later, rng₂⟩, hlater, h⟩ := bind_eq_ok.1 h
    cases h
    refine ⟨first, rfl, keeps_of_rounds ?_ hverdict, ?_⟩
    · exact List.forall_mem_cons.2 ⟨rfl, rounds_carried hlater⟩
    · intro weights hweights
      cases hweights
      exact round_carried hfirst

/-- View weights along stages: each keeps them, and the next one has them enlarged. -/
inductive CarriedOn : Tensor α → List (StageRecord α) → Prop
  | last {weights : Tensor α} {record : StageRecord α} (keeps : record.Keeps weights) :
      CarriedOn weights [record]
  | cons {weights larger : Tensor α} {record : StageRecord α} {later : List (StageRecord α)}
      (keeps : record.Keeps weights) (enlarge : Sampling.double weights = .ok larger)
      (rest : CarriedOn larger later) : CarriedOn weights (record :: later)

/-- Stages carry on what the first of their rounds finds or starts from. -/
theorem runStages_carriedOn [WorkerPool] {scene : Scene α δ} {pyramids : List (Pyramid α)}
    {later : List (Stage α δ)} {estimate carried : Option (Tensor α)}
    {result : List (StageRecord α) × σ}
    (h : Estimator.runStages scene pyramids (stage :: later) estimate carried rng = .ok result) :
    ∃ record records first, result.1 = record :: records ∧ records.length = later.length ∧
      record.rounds.head? = some first ∧ CarriedOn first.verdict.viewWeights result.1 ∧
      ∀ weights ∈ carried, first.verdict.viewWeights = weights := by
  induction later generalizing stage estimate carried rng result with
  | nil =>
    obtain ⟨_, _, _, _, _, _, _, -, hrun, hverdict, -, hnil, heq⟩ := Estimator.runStages_eq_ok h
    cases hnil
    obtain ⟨first, hfirst, hkeeps, hcarried⟩ := run_keeps hrun hverdict
    rw [heq]
    exact ⟨_, _, first, rfl, rfl, hfirst, .last hkeeps, hcarried⟩
  | cons next later ih =>
    obtain ⟨_, _, _, _, _, weights, _, -, hrun, hverdict, hnext, hrecords, heq⟩ :=
      Estimator.runStages_eq_ok h
    obtain ⟨first, hfirst, hkeeps, hcarried⟩ := run_keeps hrun hverdict
    obtain ⟨-, hlarger⟩ := Estimator.handOver_cons.1 hnext
    rw [hkeeps.verdict] at hlarger
    obtain ⟨_, _, start, hlater, hlength, -, hrest, hstart⟩ := ih hrecords
    rw [hstart weights rfl] at hrest
    rw [heq]
    refine ⟨_, _, first, rfl, ?_, hfirst, .cons hkeeps hlarger hrest, hcarried⟩
    exact (congrArg List.length hlater).trans (congrArg (· + 1) hlength)

end Carrying

section Rating

variable {batch count height width n b : Nat} {t u : Tensor ℝ}

/-- The maximum over an axis is the greatest of its entries. -/
theorem maximum_get (hk : t.kind = .single) (hs : t.shape = [batch, count, height, width])
    (hu : t.maximum 1 = .ok u) {y x : Nat} (hb : b < batch) (hy : y < height) (hx : x < width) :
    IsGreatest {v | ∃ k < count, v = t.get [b, k, y, x]} (u.get [b, 0, y, x]) := by
  rw [Tensor.maximum, error_ite_eq_ok] at hu
  obtain ⟨hne, hu⟩ := hu
  have hcount : 0 < count := by
    simp only [size, hs, List.getD_cons_succ, List.getD_cons_zero] at hne
    omega
  rw [reduce_of_single hk (by rw [hs]; rfl), hs] at hu
  cases hu
  rw [List.set_cons_succ, List.set_cons_zero, get_ofFn (within_four hb Nat.one_pos hy hx)]
  exact maxTo_isGreatest hcount fun k => t.get [b, k, y, x]

/-- Channel `i` of view weights holds the best rating of source view `i` over all hypotheses. -/
def ViewFeatures.BestRated (views : ViewFeatures ℝ) (groups : Nat) (head : Layer ℝ)
    (depth weights : Tensor ℝ) (batch count height width i : Nat) : Prop :=
  ∃ source projection warped similarity rated,
    views.sources[i]? = some source ∧ views.sourceProjections[i]? = some projection ∧
    Reprojection.features source projection views.referenceProjection depth = .ok warped ∧
    groupSimilarity warped views.reference groups = .ok similarity ∧
    head similarity = .ok rated ∧ rated.shape = [batch, 1, count, height, width] ∧
    rated.kind = .single ∧ ∀ b y x, b < batch → y < height → x < width →
      IsGreatest {v | ∃ k < count, v = rated.get [b, 0, k, y, x]} (weights.get [b, i, y, x])

variable {matcher : Matcher ℝ} {views : ViewFeatures ℝ} {head : Layer ℝ} {channels neighbors : Nat}
  {depth weight : Tensor ℝ} {grid : NeighborGrid ℝ}

/-- What is compared of a source view, and what its weight is the maximum of. -/
theorem compare_rates (hb : b < batch) (hm : matcher.Sound channels)
    (hhead : matcher.viewHead = some head) {i : Nat} {similarity found : Tensor ℝ}
    (hsimilarity : (Twins.self hb).Alike [matcher.groups, count, height, width] similarity
      similarity)
    (h : matcher.compare views depth none i = .ok (similarity, found)) :
    ∃ source projection warped rated,
      views.sources[i]? = some source ∧ views.sourceProjections[i]? = some projection ∧
      Reprojection.features source projection views.referenceProjection depth = .ok warped ∧
      groupSimilarity warped views.reference matcher.groups = .ok similarity ∧
      head similarity = .ok rated ∧ rated.shape = [batch, 1, count, height, width] ∧
      rated.kind = .single ∧ ∀ b y x, b < batch → y < height → x < width →
        IsGreatest {v | ∃ k < count, v = rated.get [b, 0, k, y, x]} (found.get [b, 0, y, x]) := by
  unfold Matcher.compare at h
  split at h
  next source projection hsource hprojection =>
    simp only [bind_eq_ok, pure_eq_ok] at h
    obtain ⟨warped, hwarped, similarity', hgroups, best, hbest, h⟩ := h
    cases h
    simp only [Matcher.viewWeight, hhead] at hbest
    obtain ⟨rated, hrated, hbest⟩ := bind_eq_ok.1 hbest
    obtain ⟨flat, hflat, hbest⟩ := bind_eq_ok.1 hbest
    have halike := (hm.viewHead head hhead _ _ _ _ hsimilarity).of_self hrated
    have hsingle : rated.IsSingle [batch, 1, count, height, width] :=
      ⟨halike.shape_left, halike.kind_left⟩
    obtain ⟨flat', hflat', hflatSingle, hget⟩ := hsingle.squeeze_second
    obtain rfl : flat = flat' := Except.ok.inj (hflat.symm.trans hflat')
    refine ⟨source, projection, warped, rated, hsource, hprojection, hwarped, hgroups, hrated,
      hsingle.shape_eq, hsingle.kind_eq, fun b y x hb hy hx => ?_⟩
    simp only [← hget]
    exact maximum_get hflatSingle.kind_eq hflatSingle.shape_eq hbest hb hy hx
  next => cases h

/-- Weights that are not carried are the best ratings of the source views. -/
theorem evaluate_rates [WorkerPool] (hb : b < batch) (hm : matcher.Sound channels)
    (hhead : matcher.viewHead = some head)
    (hviews : (Twins.self hb).ViewsAlike (Equiv.refl (Fin n)) channels height width views views)
    (hposes : (Twins.self hb).PosesAlike (Equiv.refl (Fin n)) views views) (hn : 0 < n)
    (hdepth : (Twins.self hb).Alike [count, height, width] depth depth) (hcount : 0 < count)
    (hheight : 0 < height) (hwidth : 0 < width) {readout : Readout} {verdict : Verdict ℝ}
    (h : matcher.evaluate views depth grid weight none readout = .ok verdict) :
    ∀ i < n, views.BestRated matcher.groups head depth verdict.viewWeights batch count height width
      i := by
  obtain ⟨m, rfl⟩ : ∃ m, n = m + 1 := ⟨n - 1, by omega⟩
  have hcompare (i : Fin (m + 1)) : ∃ c, matcher.compare views depth none i = .ok c ∧
      (Twins.self hb).ComparedAlike matcher.groups count height width c c :=
    (Twins.compare_alike hm hviews hposes hdepth (show Optionally _ none none from trivial)
      (by simp [hhead]) hcount hheight hwidth i).self
  choose compared hok halike using hcompare
  simp only [Matcher.evaluate, (hviews.sourceCount hn).1, hdepth.sizes4.1, ok_bind,
    Matcher.checkCarried, Tasks.run_ok matcher.parallel hok, bind_eq_ok, pure_eq_ok] at h
  obtain ⟨_, -, _, -, _, -, weights, hweights, h⟩ := h
  cases h
  rw [List.map_ofFn] at hweights
  obtain ⟨all, hall, -, -, hget⟩ := Twins.concat_ok (Prod.snd ∘ compared) fun i =>
    ⟨(halike i).weight.shape_left, (halike i).weight.kind_left⟩
  obtain rfl : weights = all := Except.ok.inj (hweights.symm.trans hall)
  intro i hi
  obtain ⟨source, projection, warped, rated, hsource, hprojection, hwarped, hgroups, hrated, hs,
    hk, hbest⟩ := compare_rates hb hm hhead (halike ⟨i, hi⟩).similarity (hok ⟨i, hi⟩)
  refine ⟨source, projection, warped, _, rated, hsource, hprojection, hwarped, hgroups, hrated, hs,
    hk, fun b y x hb hy hx => ?_⟩
  rw [hget b ⟨i, hi⟩ [y, x] hb (within_two hy hx)]
  exact hbest b y x hb hy hx

/-- The first round of a stage that nothing is carried to rates the source views. -/
theorem round_rates [WorkerPool] {ρ : Type} [RandomSource ρ ℝ] {stage : Stage ℝ ℝ}
    {surroundings : Surroundings ℝ} {estimate : Option (Tensor ℝ)} {rng : ρ} {r : Round ℝ × ρ}
    (range : DepthRange ℝ) (hb : b < batch) (hs : stage.Sound)
    (hhead : stage.matcher.viewHead = some head)
    (hviews : (Twins.self hb).ViewsAlike (Equiv.refl (Fin n)) stage.settings.features height width
      views views)
    (hposes : (Twins.self hb).PosesAlike (Equiv.refl (Fin n)) views views) (hn : 0 < n)
    (hsurroundings : (Twins.self hb).SurroundingsAlike stage.settings height width surroundings
      surroundings) (hheight : 0 < height) (hwidth : 0 < width) (iteration : Nat)
    (hstart : (Twins.self hb).StartAlike (Equiv.refl (Fin n)) stage height width estimate estimate
      none none rng rng)
    (h : stage.round views range surroundings batch height width iteration estimate none rng =
      .ok r) :
    ∃ count, r.1.hypotheses.shape = [batch, count, height, width] ∧
      r.1.verdict.viewWeights.shape = [batch, n, height, width] ∧
      r.1.verdict.viewWeights.kind = .single ∧
      ∀ i < n, views.BestRated stage.matcher.groups head r.1.hypotheses r.1.verdict.viewWeights
        batch count height width i := by
  obtain ⟨count, hcount, hhypotheses, hverdict⟩ := (Twins.round_alike range hs hviews hposes hn
    hsurroundings hheight hwidth iteration hstart).of_self h
  refine ⟨count, hhypotheses.shape_left, hverdict.viewWeights.shape_left,
    hverdict.viewWeights.kind_left, ?_⟩
  obtain ⟨_, _, -, -, -, -, hevaluate⟩ := Stage.round_eq_ok h
  exact evaluate_rates hb hs.matcher hhead hviews hposes hn hhypotheses hcount hheight hwidth
    hevaluate

end Rating

section Sigmoids

variable {scope : String} {groups : Nat} {answers : String → Tensor ℝ}

theorem sigmoid_mem (x : ℝ) : Scalar.sigmoid x ∈ Set.Ioo (0 : ℝ) 1 := by
  have hexp : 0 < Real.exp (-x) := Real.exp_pos _
  change 1 / (Real.exp (-x) + 1) ∈ Set.Ioo (0 : ℝ) 1
  exact ⟨by positivity, (div_lt_one (by positivity)).2 (by linarith)⟩

/-- What a cost head with a sigmoid ends in. -/
theorem costNetwork_sigmoid (t : Tensor ℝ) :
    (costNetwork scope groups .sigmoid).assemble answers t = (do
      return (← (costNetwork scope groups .identity).assemble answers t).map Scalar.sigmoid) := by
  simp only [costNetwork, Blueprint.assemble_seq, Blueprint.assemble_map, Activation.apply,
    bind_assoc, pure_bind]

/-- The best ratings of a head with a sigmoid lie strictly between 0 and 1. -/
theorem weights_mem {views : ViewFeatures ℝ} {depth weights : Tensor ℝ}
    {batch n count height width : Nat} (hshape : weights.shape = [batch, n, height, width])
    (h : ∀ i < n, views.BestRated groups ((costNetwork scope groups .sigmoid).assemble answers)
      depth weights batch count height width i) :
    ∀ index, Within index weights.shape → weights.get index ∈ Set.Ioo (0 : ℝ) 1 := by
  intro index hw
  rw [hshape] at hw
  obtain ⟨b, i, y, x, rfl, hb, hi, hy, hx⟩ := hw.exists_four
  obtain ⟨_, _, _, similarity, rated, -, -, -, -, hrated, hs, hk, hbest⟩ := h i hi
  rw [costNetwork_sigmoid] at hrated
  obtain ⟨cost, -, hrated⟩ := bind_eq_ok.1 hrated
  cases hrated
  rw [kind_map] at hk
  rw [shape_map] at hs
  obtain ⟨k, hlt, heq⟩ := (hbest b y x hb hy hx).1
  rw [heq, get_map hk (hs ▸ ⟨hb, Nat.one_pos, hlt, hy, hx, trivial⟩)]
  exact sigmoid_mem _

end Sigmoids

section Estimates

variable {ρ : Type} [RandomSource ρ ℝ] {settings : Settings ℝ} {source : ParameterSource ℝ}
  {estimator : Estimator ℝ ℝ} {scene : Scene ℝ ℝ} {rng : ρ}

noncomputable def Settings.viewHead (settings : Settings ℝ) : Blueprint ℝ (Layer ℝ) :=
  costNetwork "patch_match_3.evaluation.pixelwise_net.conv" settings.coarse.groups .sigmoid

theorem viewHead_requests (coarse : settings.coarse.Patterns) (middle : settings.middle.Patterns)
    (fine : settings.fine.Patterns) {request : ParameterRequest}
    (h : request ∈ settings.viewHead.requests) :
    request ∈ (Estimator.parts coarse middle fine : Blueprint ℝ _).requests := by
  have hmatcher : request ∈ (Matcher.blueprint "patch_match_3.evaluation" settings.coarse.groups
      true settings.parallel : Blueprint ℝ _).requests := List.mem_append_left _ h
  have hstage : request ∈ (Stage.parts coarse 0 false settings.parallel "patch_match_3" :
      Blueprint ℝ _).requests := List.mem_append_left _ (List.mem_append_right _ hmatcher)
  exact List.mem_append_left _ (List.mem_append_right _ (List.mem_append_left _ hstage))

/-- The coarsest stage has a head that rates source views. -/
theorem viewHead_of_build (h : Estimator.build settings source = .ok estimator) :
    ∃ answers stage later, AnsweredBy source settings.viewHead.requests answers ∧
      estimator.stages = stage :: later ∧ stage.matcher.groups = settings.coarse.groups ∧
      stage.matcher.viewHead = some (settings.viewHead.assemble answers) := by
  obtain ⟨b, hb, hbuild⟩ := bind_eq_ok.1 h
  obtain ⟨answers, hanswers, rfl⟩ := Blueprint.exists_answers (Estimator.names_nodup hb) hbuild
  obtain ⟨-, coarse, middle, fine, rfl⟩ := Estimator.blueprint_eq_ok hb
  exact ⟨answers, _, _, fun request hrequest =>
    hanswers request (viewHead_requests coarse middle fine hrequest), rfl, rfl, rfl⟩

/-- The first round of a search rates the source views, and all stages carry its weights on. -/
theorem search_rates [WorkerPool] (hbuild : Estimator.build settings source = .ok estimator)
    (hbatch : 0 < scene.batch) (hregular : ∀ stage < stageCount, scene.RegularAt stage)
    {records : List (StageRecord ℝ)} {rng' : ρ}
    (h : estimator.search scene rng = .ok (records, rng')) :
    ∃ pyramids views answers coarse middle fine first count,
      estimator.pyramids scene = .ok pyramids ∧ Estimator.stageViews scene pyramids 0 = .ok views ∧
      AnsweredBy source settings.viewHead.requests answers ∧ records = [coarse, middle, fine] ∧
      coarse.rounds.head? = some first ∧ CarriedOn first.verdict.viewWeights records ∧
      first.hypotheses.shape = [scene.batch, count, scene.height / 8, scene.width / 8] ∧
      first.verdict.viewWeights.shape =
        [scene.batch, scene.views - 1, scene.height / 8, scene.width / 8] ∧
      first.verdict.viewWeights.kind = .single ∧
      ∀ i < scene.views - 1, views.BestRated settings.coarse.groups
        (settings.viewHead.assemble answers) first.hypotheses first.verdict.viewWeights scene.batch
        count (scene.height / 8) (scene.width / 8) i := by
  obtain ⟨coarse, middle, fine, hs⟩ := Estimator.sound_of_build hbuild
  obtain ⟨answers, stage, later, hanswers, hstages, hgroups, hhead⟩ := viewHead_of_build hbuild
  obtain ⟨rfl, rfl⟩ : stage = coarse ∧ later = [middle, fine] := by
    rw [hs.stages_eq] at hstages
    cases hstages
    exact ⟨rfl, rfl⟩
  obtain ⟨hsources, hheight, hwidth⟩ := scene.coarsest_pos
  obtain ⟨pyramids, hpyramids, halike, hstart, hrun⟩ := search_eq_ok hs hbatch hregular h
  cases halike with
  | cons sound seen rest =>
  obtain ⟨views, hviews, hsame, hposes⟩ := seen.self
  obtain ⟨seen, surroundings, first, others, verdict, _, _, records, hseen, hsurvey, hfirst, -, -,
    heq⟩ := runStages_first sound.iterations_pos (fun seen hseen => by
      obtain rfl : views = seen := Except.ok.inj (hviews.symm.trans hseen)
      exact ⟨_, hsame.reference.shape_left⟩) hrun
  obtain rfl : views = seen := Except.ok.inj (hviews.symm.trans hseen)
  have hsurroundings := (Twins.survey_alike sound hsame.reference hheight hwidth).of_self hsurvey
  obtain ⟨count, hhypotheses, hshape, hkind, hrated⟩ := round_rates scene.range hbatch sound hhead
    hsame hposes hsources hsurroundings hheight hwidth 0 (hstart _ rfl) hfirst
  obtain ⟨coarse, later, start, hrecords, hlength, hstart, hcarried, -⟩ := runStages_carriedOn hrun
  cases heq
  cases hrecords
  cases hstart
  obtain ⟨middle, fine, rfl⟩ := List.length_eq_two.1 hlength
  rw [hs.index_coarse] at hviews
  exact ⟨pyramids, views, answers, _, middle, fine, first, count, hpyramids, hviews, hanswers, rfl,
    rfl, hcarried, hhypotheses, hshape, hkind, hgroups ▸ hrated⟩

/-- Source views are rated once, in the first round of the coarsest stage: the weight of a view is
the best rating that it gets over all hypotheses. All later rounds take these weights over, and
stages hand them on enlarged; what is returned is enlarged twice and lies strictly between 0 and 1.
No run asks for a head that is not there. -/
theorem estimate_viewWeights [WorkerPool] (hbuild : Estimator.build settings source = .ok estimator)
    (scene : Scene ℝ ℝ) (rng : ρ) :
    (∀ r, estimator.estimate scene rng = .ok r →
      ∃ pyramids views answers coarse middle fine first larger count,
        estimator.search scene rng = .ok ([coarse, middle, fine], r.2) ∧
        coarse.rounds.head? = some first ∧ coarse.Keeps first.verdict.viewWeights ∧
        Sampling.double first.verdict.viewWeights = .ok larger ∧ middle.Keeps larger ∧
        Sampling.double larger = .ok r.1.viewWeights ∧ fine.Keeps r.1.viewWeights ∧
        estimator.pyramids scene = .ok pyramids ∧
        Estimator.stageViews scene pyramids 0 = .ok views ∧
        AnsweredBy source settings.viewHead.requests answers ∧
        first.hypotheses.shape = [scene.batch, count, scene.height / 8, scene.width / 8] ∧
        first.verdict.viewWeights.shape =
          [scene.batch, scene.views - 1, scene.height / 8, scene.width / 8] ∧
        (∀ i < scene.views - 1, views.BestRated settings.coarse.groups
          (settings.viewHead.assemble answers) first.hypotheses first.verdict.viewWeights
          scene.batch count (scene.height / 8) (scene.width / 8) i) ∧
        ∀ index, Within index r.1.viewWeights.shape →
          r.1.viewWeights.get index ∈ Set.Ioo (0 : ℝ) 1) ∧
    (∃ stage later, estimator.stages = stage :: later ∧ stage.matcher.viewHead.isSome) ∧
    estimator.estimate scene rng ≠ .error (.invalidInput .viewWeightsMissing) ∧
    ∀ (matcher : Matcher ℝ) (head : Option (Layer ℝ)) views depth grid weight weights readout,
      { matcher with viewHead := head }.evaluate views depth grid weight (some weights) readout =
          matcher.evaluate views depth grid weight (some weights) readout ∧
        ∀ verdict, matcher.evaluate views depth grid weight (some weights) readout = .ok verdict →
          verdict.viewWeights = weights := by
  obtain ⟨coarse, middle, fine, hs⟩ := Estimator.sound_of_build hbuild
  refine ⟨?_, ⟨coarse, [middle, fine], hs.stages_eq, hs.rates⟩, ?_, ?_⟩
  · intro r hr
    have hbatch := batch_pos_of_estimate hs hr
    have hregular := regular_of_estimate hs hr
    obtain ⟨⟨records, rng'⟩, hsearch, hr⟩ := bind_eq_ok.1 hr
    obtain ⟨found, hfinish, hr⟩ := bind_eq_ok.1 hr
    cases hr
    obtain ⟨pyramids, views, answers, coarse, middle, fine, first, count, hpyramids, hviews,
      hanswers, rfl, hfirst, hcarried, hhypotheses, hshape, hkind, hrated⟩ :=
      search_rates hbuild hbatch hregular hsearch
    obtain _ | ⟨hcoarse, hlarger, _ | ⟨hmiddle, hlargest, hfine | ⟨-, -, hnone⟩⟩⟩ := hcarried
    · obtain ⟨last, _, hlast, -, -, -, -, hfound⟩ := Estimator.finish_eq_ok hfinish
      obtain rfl : fine = last := by simpa using hlast
      rw [← hfine.verdict, ← hfound] at hlargest hfine
      obtain ⟨hkind, hunit⟩ :=
        Sampling.double_mem (convex_Ioo 0 1) hkind (weights_mem hshape hrated) hlarger
      obtain ⟨-, hunit⟩ := Sampling.double_mem (convex_Ioo 0 1) hkind hunit hlargest
      exact ⟨pyramids, views, answers, coarse, middle, fine, first, _, count, hsearch, hfirst,
        hcoarse, hlarger, hmiddle, hlargest, hfine, hpyramids, hviews, hanswers, hhypotheses,
        hshape, hrated, hunit⟩
    · cases hnone
  · intro herror
    rcases Nat.eq_zero_or_pos scene.batch with hempty | hpos
    · rw [estimate_empty hs hempty] at herror
      cases herror
    · obtain ⟨_, _, -, hfailure⟩ := (estimate_error_iff hs hpos rng _).1 herror
      cases hfailure
  · intro matcher head views depth grid weight weights readout
    exact ⟨evaluate_unrated matcher head depth weight grid readout, fun _ => evaluate_carried⟩

attribute [local instance] WorkerPool.inTurn

/-- The default settings: two source views, rated at four pixels. -/
theorem estimate_viewWeights_varied :
    ∃ (estimator : Estimator ℝ ℝ) (r : Reconstruction ℝ × Tape)
      (coarse middle fine : StageRecord ℝ) (first : Round ℝ) (larger : Tensor ℝ),
      Estimator.build Settings.default variedSource = .ok estimator ∧
        estimator.estimate (Scene.varied 1 1 0 0) Tape.varied = .ok r ∧
        estimator.search (Scene.varied 1 1 0 0) Tape.varied = .ok ([coarse, middle, fine], r.2) ∧
        coarse.rounds.head? = some first ∧ first.verdict.viewWeights.shape = [1, 2, 2, 2] ∧
        Sampling.double first.verdict.viewWeights = .ok larger ∧
        Sampling.double larger = .ok r.1.viewWeights := by
  obtain ⟨estimator, r, hbuild, hr⟩ :=
    estimate_varied Settings.validate_default (variedSource_answers _) Nat.one_pos 1 0 0
      Tape.varied
  obtain ⟨hrates, -⟩ := estimate_viewWeights hbuild (Scene.varied 1 1 0 0) Tape.varied
  obtain ⟨_, _, _, coarse, middle, fine, first, larger, _, hsearch, hfirst, -, hlarger, -, hlargest,
    -, -, -, -, -, hshape, -⟩ := hrates r hr
  exact ⟨estimator, r, coarse, middle, fine, first, larger, hbuild, hr, hsearch, hfirst, hshape,
    hlarger, hlargest⟩

end Estimates

end MultiViewDepth
