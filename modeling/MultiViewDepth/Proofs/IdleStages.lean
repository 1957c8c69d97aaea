import MultiViewDepth.Proofs.ComparedViews
import MultiViewDepth.Proofs.NeighborShares
import MultiViewDepth.Proofs.StageSplit
import MultiViewDepth.Proofs.ViewWeights

/-!
Stages that have nothing to choose from.

Where an estimate is the only hypothesis and no neighbors lend theirs, a round hands on what it
starts from: a softmax of one number is 1, however the views compare, and both readouts keep a
single hypothesis. So do all rounds of a stage together.
-/
namespace MultiViewDepth

open Tensor Arithmetic

/-- Neighbors never lend if there are none, or if the only round is the last of all. -/
theorem StageSettings.lends_eq_false_iff {δ : Type} {settings : StageSettings δ} (final : Bool)
    (hpos : 0 < settings.iterations) :
    settings.lends final = false ↔
      settings.lenders = 0 ∨ (final = true ∧ settings.iterations = 1) := by
  rw [← Bool.not_eq_true, lends_iff final hpos]
  cases final with
  | false => simp
  | true =>
    simp only [true_imp_iff, true_and]
    omega

section Heads

open Blueprint

variable {batch channels groups height width : Nat} {scope : String} {activation : Activation}
  {answers : String → Tensor ℝ} {t u : Tensor ℝ}

/-- What comes out of the layer has one channel and is otherwise shaped like what went in. -/
def FlattensGroups (groups : Nat) (layer : Layer ℝ) : Prop :=
  ∀ ⦃batch : Nat⦄ ⦃voxels : List Nat⦄ ⦃t u : Tensor ℝ⦄, t.shape = batch :: groups :: voxels →
    layer t = .ok u → u.IsSingle (batch :: 1 :: voxels)

theorem Voxelwise.apply_eq_ok {weight : Tensor ℝ} (h : Voxelwise.apply weight t = .ok u) :
    t.kind = .single := by
  unfold Voxelwise.apply at h
  split at h
  next =>
    simp only [bind_eq_ok, throw_eq_error, error_bind, ite_error_eq_ok, error_ite_eq_ok] at h
    obtain ⟨-, -, _, hsingle, -⟩ := h
    exact requireSingle_eq_ok.1 hsingle
  next => cases h

theorem costNetwork_flattens (hgroups : groups ≠ 0)
    (h : Answered (costNetwork scope groups activation : Blueprint ℝ _).requests answers) :
    FlattensGroups groups ((costNetwork scope groups activation).assemble answers) := by
  intro batch voxels t u ht hu
  have hbatch : 0 < batch := Nat.pos_of_ne_zero fun hzero => by
    subst hzero
    cases hu.symm.trans (Matcher.costNetwork_empty scope groups activation answers ht)
  have hkind : t.kind = .single := by
    simp only [costNetwork, Voxelwise.block, Voxelwise.blueprint, assemble_seq, assemble_map,
      assemble_parameter, bind_eq_ok] at hu
    obtain ⟨_, ⟨_, hmixed, -⟩, -⟩ := hu
    exact Voxelwise.apply_eq_ok hmixed
  obtain ⟨head, -, hlayer, -⟩ := exists_voxelHead hgroups h
  obtain ⟨u', hu', hsingle, -⟩ := head.acts t batch voxels hbatch ⟨ht, hkind⟩
  rw [hlayer] at hu'
  obtain rfl : u = u' := Except.ok.inj (hu.symm.trans hu')
  exact hsingle

theorem NeighborWeight.ofFeatures_isSingle {head : Layer ℝ} {features weight : Tensor ℝ}
    {grid : NeighborGrid ℝ} (hhead : FlattensGroups groups head)
    (hfeatures : features.shape = [batch, channels, height, width])
    (h : ofFeatures head groups features grid = .ok weight) :
    weight.IsSingle [batch, grid.neighbors, height, width] := by
  obtain ⟨similarity, rated, hsimilarity, -, hrated, hweight⟩ := ofFeatures_eq_ok hfeatures h
  obtain ⟨flat, hflat, hsingle, -⟩ := (hhead hsimilarity hrated).squeeze_second
  obtain rfl : weight = flat := Except.ok.inj (hweight.symm.trans hflat)
  exact hsingle

end Heads

section Scoring

variable {batch channels count height width groups : Nat} {t u warped reference depth : Tensor ℝ}

theorem softmax_single (hkind : t.kind = .single) (hshape : t.shape = [batch, 1, height, width])
    (hu : t.softmax 1 = .ok u) : u = constant [batch, 1, height, width] 1 := by
  obtain ⟨husame, hukind, -⟩ := softmax_eq_ok hu
  rw [hshape] at husame
  refine ext_get (hukind.trans hkind) (kind_constant _ _) husame fun index hw => ?_
  rw [husame] at hw
  have hsize : t.size 1 = 1 := by
    rw [size, hshape]
    rfl
  have hsum := softmax_sum hkind hu (hshape ▸ hw)
  rw [hsize, Fin.sum_univ_one] at hsum
  obtain ⟨b, k, y, x, rfl, -, hk, -⟩ := hw.exists_four
  obtain rfl : k = 0 := by omega
  rw [constant, get_ofFn hw]
  exact hsum

/-- A single hypothesis that is certain is the depth that is read out. -/
theorem Readout.depth_single (readout : Readout)
    (hdepth : depth.IsSingle [batch, 1, height, width]) :
    readout.depth depth (constant [batch, 1, height, width] 1) = .ok depth := by
  cases readout with
  | inverseDepth => exact betweenEnds_single hdepth _
  | expectation =>
    obtain ⟨u, hu, hsingle, hmean⟩ := meanDepth_ok hdepth (isSingle_ofFn _ fun _ => 1)
    refine hu.trans (congrArg Except.ok (ext_get hsingle.kind_eq hdepth.kind_eq
      (hsingle.shape_eq.trans hdepth.shape_eq.symm) fun index hw => ?_))
    rw [hsingle.shape_eq] at hw
    obtain ⟨b, k, y, x, rfl, hb, hk, hy, hx⟩ := hw.exists_four
    obtain rfl : k = 0 := by omega
    rw [hmean b y x hb hy hx, Fin.sum_univ_one]
    exact (congrArg (_ * ·) (get_ofFn hw _)).trans (mul_one _)

theorem reference_shape_of_groupSimilarity
    (hwarped : warped.shape = [batch, channels, count, height, width])
    (h : groupSimilarity warped reference groups = .ok u) :
    reference.shape = [batch, channels, height, width] := by
  simp only [groupSimilarity, sizes5_eq_ok.2 hwarped, ok_bind, bind_eq_ok, throw_eq_error,
    error_bind, ite_error_eq_ok, error_ite_eq_ok] at h
  obtain ⟨-, sizes, hsizes, rfl, -⟩ := h
  exact sizes4_eq_ok.1 hsizes

namespace Matcher

variable {matcher : Matcher ℝ} {views : ViewFeatures ℝ} {weight weights : Tensor ℝ}
  {carried : Option (Tensor ℝ)} {grid : NeighborGrid ℝ} {readout : Readout} {verdict : Verdict ℝ}

/-- Hypotheses that could be scored are as large as the reference features. -/
theorem reference_shape_of_evaluate [WorkerPool]
    (hdepth : depth.shape = [batch, count, height, width])
    (h : matcher.evaluate views depth grid weight carried readout = .ok verdict) :
    ∃ channels, views.reference.shape = [batch, channels, height, width] := by
  obtain ⟨_, _, _, _, n, compared, _, -, hn, -, hrun, -⟩ := evaluate_eq_ok.1 h
  obtain ⟨c, later, rfl⟩ := List.exists_cons_of_ne_nil (compared_ne_nil hn hrun)
  obtain ⟨-, hcompare⟩ := Tasks.run_eq_ok (i := 0) hrun rfl
  obtain ⟨_, _, _, -, -, hwarped, hsimilarity, -⟩ := compare_eq_ok hcompare
  obtain ⟨channels, hshape, -⟩ := Reprojection.features_eq_ok hdepth hwarped
  exact ⟨channels, reference_shape_of_groupSimilarity hshape hsimilarity⟩

/-- With a single hypothesis nothing is left to decide. -/
theorem evaluate_single [WorkerPool] (hhead : GivesSingle matcher.similarityHead)
    (hdepth : depth.IsSingle [batch, 1, height, width])
    (hweight : weight.shape = [batch, 1, grid.neighbors, height, width])
    (h : matcher.evaluate views depth grid weight (some weights) readout = .ok verdict) :
    verdict = ⟨depth, constant [batch, 1, height, width] 1, weights⟩ := by
  obtain ⟨batch', count', height', width', _, _, fused, hshape, -, -, -, -, hscore, hread,
    hweights⟩ := evaluate_eq_ok.1 h
  obtain ⟨rfl, rfl, rfl, rfl⟩ : batch = batch' ∧ 1 = count' ∧ height = height' ∧
      width = width' := by simpa [hdepth.shape_eq] using hshape
  obtain ⟨rated, costs, hrated, hsoftmax, hkind, hcosts⟩ := score_parts hscore
  have hcertain : verdict.score = constant [batch, 1, height, width] 1 :=
    softmax_single (hkind.trans (hhead _ _ hrated)) (hcosts hweight) hsoftmax
  rw [hcertain, Readout.depth_single readout hdepth] at hread
  have hkept : depth = verdict.depth := Except.ok.inj hread
  have hcarried : verdict.viewWeights = weights := hweights
  rw [← hcertain, hkept, ← hcarried]

end Matcher

end Scoring

namespace Stage

variable {σ : Type} [RandomSource σ ℝ] {stage : Stage ℝ ℝ} {views : ViewFeatures ℝ}
  {range : DepthRange ℝ} {surroundings : Surroundings ℝ} {prior weights : Tensor ℝ} {rng : σ}
  {b h w channels batch height width : Nat}

/-- A stage that tries an estimate alone, with heads of the right form. -/
structure Idle (stage : Stage ℝ ℝ) : Prop where
  count_eq : stage.sampler.count = 1
  never : ∀ iteration < stage.settings.iterations,
    stage.settings.lendsIn iteration stage.final = false
  similarityHead : GivesSingle stage.matcher.similarityHead
  featureHead : FlattensGroups stage.settings.groups stage.featureHead

theorem survey_weight_isSingle (hstage : stage.Idle)
    (hreference : views.reference.shape = [b, channels, h, w])
    (hsurvey : stage.survey views.reference = .ok surroundings) :
    surroundings.featureWeight.IsSingle [b, surroundings.support.neighbors, h, w] := by
  simp only [survey_eq, supportSurvey, bind_eq_ok, pure_eq_ok] at hsurvey
  obtain ⟨lending, -, ⟨support, weight⟩, ⟨_, -, _, -, _, hweight, hparts⟩, hsurvey⟩ := hsurvey
  cases hparts
  cases hsurvey
  exact NeighborWeight.ofFeatures_isSingle hstage.featureHead hreference hweight

/-- A round hands on what it starts from, and draws nothing. -/
theorem round_idle [WorkerPool] (hstage : stage.Idle)
    (hreference : views.reference.shape = [b, channels, h, w])
    (hsurvey : stage.survey views.reference = .ok surroundings)
    (hprior : prior.IsSingle [batch, 1, height, width]) {iteration : Nat}
    (hiteration : iteration < stage.settings.iterations) {r : Round ℝ × σ}
    (hround : stage.round views range surroundings b h w iteration (some prior) (some weights) rng =
      .ok r) :
    r.2 = rng ∧ r.1.verdict = ⟨prior, constant [batch, 1, height, width] 1, weights⟩ := by
  obtain ⟨near, weight, htried, hnear, hweight, -, hevaluate⟩ := round_eq_ok hround
  simp only [hypotheses, Sampler.hypotheses, hstage.count_eq, if_true, ok_bind,
    hstage.never iteration hiteration, pure_eq_ok, Except.ok.injEq, Prod.mk.injEq] at htried
  obtain ⟨htried, hrng⟩ := htried
  rw [← htried] at hnear hevaluate
  obtain ⟨channels', hsame⟩ := Matcher.reference_shape_of_evaluate hprior.shape_eq hevaluate
  obtain ⟨rfl, -, rfl, rfl⟩ : b = batch ∧ channels = channels' ∧ h = height ∧ w = width := by
    simpa using hreference.symm.trans hsame
  obtain ⟨weight', hweight', hsingle, -⟩ := NeighborWeight.combine_ok
    (NeighborWeight.ofDepth_isSingle hprior hnear)
    (survey_weight_isSingle hstage hreference hsurvey)
  obtain rfl : weight = weight' := Except.ok.inj (hweight.symm.trans hweight')
  exact ⟨hrng.symm,
    Matcher.evaluate_single hstage.similarityHead hprior hsingle.shape_eq hevaluate⟩

/-- Every round starts from the prior again, since the one before hands it on. -/
theorem rounds_idle [WorkerPool] (hstage : stage.Idle)
    (hreference : views.reference.shape = [b, channels, h, w])
    (hsurvey : stage.survey views.reference = .ok surroundings)
    (hprior : prior.IsSingle [batch, 1, height, width]) {count iteration : Nat}
    (hcount : iteration + count ≤ stage.settings.iterations) {r : List (Round ℝ) × σ}
    (hrounds : stage.rounds views range surroundings b h w count iteration (some prior)
      (some weights) rng = .ok r) :
    r.2 = rng ∧ ∀ round ∈ r.1,
      round.verdict = ⟨prior, constant [batch, 1, height, width] 1, weights⟩ := by
  induction count generalizing iteration r with
  | zero =>
    cases hrounds
    exact ⟨rfl, by simp⟩
  | succ count ih =>
    obtain ⟨⟨first, rng₁⟩, hfirst, hrounds⟩ := bind_eq_ok.1 hrounds
    obtain ⟨⟨later, rng₂⟩, hlater, hrounds⟩ := bind_eq_ok.1 hrounds
    cases hrounds
    obtain ⟨rfl, hverdict⟩ := round_idle hstage hreference hsurvey hprior (by omega) hfirst
    dsimp only at hverdict hlater ih
    rw [hverdict] at hlater
    obtain ⟨hlast, hrest⟩ := ih (by omega) hlater
    exact ⟨hlast, List.forall_mem_cons.2 ⟨hverdict, hrest⟩⟩

theorem estimate_of_idle [WorkerPool] (hstage : stage.Idle)
    (hprior : prior.IsSingle [batch, 1, height, width]) {r : Verdict ℝ × σ}
    (h : stage.estimate views range (some prior) (some weights) rng = .ok r) :
    r = (⟨prior, constant [batch, 1, height, width] 1, weights⟩, rng) := by
  obtain ⟨⟨rounds, rng'⟩, hrun, h⟩ := bind_eq_ok.1 h
  obtain ⟨verdict, hverdict, h⟩ := bind_eq_ok.1 h
  cases h
  obtain ⟨_, _, _, surroundings, hreference, hsurvey, hrounds⟩ := run_eq_ok hrun
  obtain ⟨hrng, hall⟩ := rounds_idle hstage hreference hsurvey hprior (by omega) hrounds
  obtain ⟨last, hlast, rfl⟩ := verdict_eq_ok.1 hverdict
  rw [hall last (List.mem_of_getLast? hlast)]
  exact congrArg (Prod.mk _) hrng

section Build

open Blueprint

variable {settings : StageSettings ℝ} {index : Nat} {final parallel : Bool} {scope : String}
  {source : ParameterSource ℝ}

/-- The parts of a stage that could be built. -/
theorem parts_of_build
    (h : build settings index final parallel scope source = .ok stage) :
    settings.Valid ∧ ∃ (patterns : settings.Patterns) (answers : String → Tensor ℝ),
      Answered (parts patterns index final parallel scope : Blueprint ℝ _).requests answers ∧
      stage = (parts patterns index final parallel scope).assemble answers := by
  obtain ⟨b, hb, hbuild⟩ := bind_eq_ok.1 h
  obtain ⟨u, hvalid, -⟩ := bind_eq_ok.1 hb
  obtain ⟨patterns, rfl⟩ := blueprint_eq_ok hb
  obtain ⟨answers, hanswers, rfl⟩ :=
    exists_answers (stage_names_nodup patterns index final parallel scope) hbuild
  exact ⟨StageSettings.validate_eq_ok.1 hvalid, patterns, answers, hanswers.answered, rfl⟩

theorem idle_of_build (h : build settings index final parallel scope source = .ok stage)
    (hsamples : settings.samples = 1) (hnever : settings.lends final = false) : stage.Idle := by
  obtain ⟨hvalid, patterns, answers, hanswers, rfl⟩ := parts_of_build h
  simp only [parts, answered_seq, answered_map] at hanswers
  obtain ⟨-, hfeature⟩ := hanswers
  refine ⟨hsamples, fun iteration hlt => ?_, costNetwork_givesSingle _ _ _ _,
    costNetwork_flattens hvalid.groups_ne_zero hfeature⟩
  by_contra hlends
  have hsome := StageSettings.lends_of_lendsIn hlt (Bool.not_eq_false _ ▸ hlends)
  exact Bool.false_ne_true (hnever.symm.trans hsome)

/-- A stage with one hypothesis whose neighbors never lend returns the depth that it is given, with
certainty, and the view weights that it is given, and draws nothing. -/
theorem estimate_idle [WorkerPool]
    (hbuild : build settings index final parallel scope source = .ok stage)
    (hsamples : settings.samples = 1)
    (hnever : settings.lenders = 0 ∨ (final = true ∧ settings.iterations = 1))
    (hprior : prior.IsSingle [batch, 1, height, width]) {verdict : Verdict ℝ} {rng' : σ}
    (h : stage.estimate views range (some prior) (some weights) rng = .ok (verdict, rng')) :
    verdict.depth = prior ∧ verdict.score = constant [batch, 1, height, width] 1 ∧
      verdict.viewWeights = weights ∧ rng' = rng := by
  obtain ⟨hvalid, -⟩ := parts_of_build hbuild
  have hstage := idle_of_build hbuild hsamples
    ((StageSettings.lends_eq_false_iff final hvalid.iterations_pos).2 hnever)
  cases estimate_of_idle hstage hprior h
  exact ⟨rfl, rfl, rfl, rfl⟩

noncomputable def alone : StageSettings ℝ :=
  { StageSettings.coarse with samples := 1, lenders := 0 }

theorem build_alone : ∃ stage : Stage ℝ ℝ,
    build alone 0 true false "patch_match_3" variedSource = .ok stage ∧ stage.Sound := by
  have hvalid : alone.validate 0 = .ok () :=
    StageSettings.validate_eq_ok.2 ⟨by decide, by decide,
      by norm_num [alone, StageSettings.coarse], rfl, by decide, by decide, by decide,
      ⟨_, _, rfl, rfl⟩⟩
  obtain ⟨b, hb⟩ := exists_blueprint (α := ℝ) hvalid true false "patch_match_3"
  obtain ⟨stage, hstage⟩ : ∃ stage, b.build variedSource = .ok stage :=
    exists_build fun _ _ => ⟨_, rfl, rfl⟩
  have hbuild : build alone 0 true false "patch_match_3" variedSource = .ok stage := by
    rw [build, hb, ok_bind, hstage]
  obtain ⟨hvalid, patterns, answers, hanswers, rfl⟩ := parts_of_build hbuild
  exact ⟨_, hbuild, stage_sound hvalid patterns 0 true false hanswers⟩

/-- Varied views are their own twins. -/
theorem varied_alike (channels height width : Nat) :
    (Twins.self Nat.one_pos).ViewsAlike (Equiv.refl (Fin 1)) channels height width
        (.varied channels height width) (.varied channels height width) ∧
      (Twins.self Nat.one_pos).PosesAlike (Equiv.refl (Fin 1)) (.varied channels height width)
        (.varied channels height width) := by
  have hfeatures (entry : List Nat → ℝ) :
      (Twins.self Nat.one_pos).Alike [channels, height, width]
        (ofFn [1, channels, height, width] entry) (ofFn [1, channels, height, width] entry) :=
    (isSingle_ofFn _ _).alike Nat.one_pos
  have hregular (b : Nat) (hb : b < 1) : (projectionAt (sideView 0) b).det ≠ 0 := by
    rw [Transform.det_eq]
    exact det_sideView 0 hb
  have hsource := hfeatures fun index => (index.sum + 1 : Nat)
  exact ⟨⟨hfeatures fun index => index.sum, ⟨fun _ => _, fun _ => _, rfl, rfl, fun _ => hsource⟩,
    rfl, rfl⟩, ⟨fun _ => _, fun _ => _, rfl, rfl,
      fun _ => Twins.pose_alike rfl rfl rfl rfl hregular hregular rfl rfl⟩⟩

attribute [local instance] WorkerPool.inTurn

/-- Sixteen pixels of which each has its own depth and weight keep both. -/
theorem estimate_idle_alone :
    let depth : Tensor ℝ := ofFn [1, 1, 4, 4] fun index => (index.sum + 1 : Nat)
    let weights : Tensor ℝ := ofFn [1, 1, 4, 4] fun index => index.sum
    ∃ (stage : Stage ℝ ℝ) (verdict : Verdict ℝ),
      build alone 0 true false "patch_match_3" variedSource = .ok stage ∧ alone.samples = 1 ∧
      alone.lenders = 0 ∧ alone.iterations = 2 ∧
      stage.estimate (.varied 64 4 4) unitRange (some depth) (some weights) Tape.varied =
        .ok (verdict, Tape.varied) ∧
      verdict.depth = depth ∧ verdict.score = constant [1, 1, 4, 4] 1 ∧
      verdict.viewWeights = weights := by
  intro depth weights
  obtain ⟨stage, hbuild, hsound⟩ := build_alone
  obtain ⟨hviews, hposes⟩ := varied_alike 64 4 4
  obtain ⟨-, patterns, answers, -, hstage⟩ := parts_of_build hbuild
  have hfeatures : stage.settings.features = 64 := by
    rw [hstage]
    rfl
  have hdepth : (Twins.self Nat.one_pos).Alike [1, 4, 4] depth depth :=
    (isSingle_ofFn _ _).alike Nat.one_pos
  have hweights : (Twins.self Nat.one_pos).ChannelsAlike (Equiv.refl (Fin 1)) [4, 4] weights
      weights := ⟨rfl, rfl, rfl, rfl, fun _ _ _ => rfl⟩
  have hstart : (Twins.self Nat.one_pos).StartAlike (Equiv.refl (Fin 1)) stage 4 4 (some depth)
      (some depth) (some weights) (some weights) Tape.varied Tape.varied := .resume hdepth hweights
  obtain ⟨⟨rounds, rng⟩, hrun, hrounds, hne⟩ :=
    (Twins.run_alike unitRange hsound (hfeatures ▸ hviews) hposes Nat.one_pos (by decide)
      (by decide) hstart).self
  obtain ⟨verdict, hverdict, -⟩ : ∃ verdict, stage.verdict rounds = .ok verdict ∧ _ :=
    (Twins.verdict_alike hrounds hne).self
  have hestimate : stage.estimate (.varied 64 4 4) unitRange (some depth) (some weights)
      Tape.varied = .ok (verdict, rng) := by
    simp only [estimate, hrun, hverdict, ok_bind, pure_eq_ok]
  obtain ⟨hkept, hcertain, hweighted, rfl⟩ :=
    estimate_idle hbuild rfl (.inl rfl) (isSingle_ofFn _ _) hestimate
  exact ⟨stage, verdict, hbuild, rfl, rfl, rfl, hestimate, hkept, hcertain, hweighted⟩

end Build

end Stage

end MultiViewDepth
