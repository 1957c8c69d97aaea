import MultiViewDepth.Proofs.TwinScene

/-!
A whole run for twins: stages from coarse to fine, refinement and confidence.

`estimate_alike` is the comparison that all results on whole runs go back to.
-/
namespace MultiViewDepth

open Tensor

structure Refiner.Sound {α : Type} [Scalar α] (refiner : Refiner α) : Prop where
  image : ∀ height width, 0 < height → 0 < width →
    Batchwise refiner.image [3, height, width] [8, height, width]
  depth : ∀ height width, 0 < height → 0 < width →
    Batchwise refiner.depth [1, height, width] [8, 2 * height, 2 * width]
  correction : ∀ height width, 0 < height → 0 < width →
    Batchwise refiner.correction [8 + 8, height, width] [1, height, width]

/-- The parts of an estimator fit each other, and its coarsest stage rates the source views. -/
structure Estimator.Sound {α δ : Type} [Scalar α] (estimator : Estimator α δ)
    (coarse middle fine : Stage α δ) : Prop where
  stages_eq : estimator.stages = [coarse, middle, fine]
  index_coarse : coarse.index = 0
  index_middle : middle.index = 1
  index_fine : fine.index = 2
  rates : coarse.matcher.viewHead.isSome
  sound_coarse : coarse.Sound
  sound_middle : middle.Sound
  sound_fine : fine.Sound
  extractor : estimator.extractor.Sound coarse.settings.features middle.settings.features
    fine.settings.features
  refiner : estimator.refiner.Sound

namespace Twins

variable {p : Twins} {n : Nat} {σ : Equiv.Perm (Fin n)} {ρ ρ' : Type} [RandomSource ρ ℝ]
  [RandomSource ρ' ℝ] {scene scene' : Scene ℝ ℝ} {height width : Nat}

section Stages

variable {pyramids pyramids' : List (Pyramid ℝ)} {stages : List (Stage ℝ ℝ)}
  {estimate estimate' carried carried' : Option (Tensor ℝ)} {rng : ρ} {rng' : ρ'}

/-- Stages of which each sees the same at twins, with twice the sides of the one before. -/
inductive StagesAlike (p : Twins) (σ : Equiv.Perm (Fin n)) (scene scene' : Scene ℝ ℝ)
    (pyramids pyramids' : List (Pyramid ℝ)) : List (Stage ℝ ℝ) → Nat → Nat → Prop
  | nil {height width : Nat} : StagesAlike p σ scene scene' pyramids pyramids' [] height width
  | cons {stage : Stage ℝ ℝ} {later : List (Stage ℝ ℝ)} {height width : Nat} (sound : stage.Sound)
      (views : Both (fun views views' =>
          p.ViewsAlike σ stage.settings.features height width views views' ∧
            p.PosesAlike σ views views')
        (Estimator.stageViews scene pyramids stage.index)
        (Estimator.stageViews scene' pyramids' stage.index))
      (rest : StagesAlike p σ scene scene' pyramids pyramids' later (2 * height) (2 * width)) :
      StagesAlike p σ scene scene' pyramids pyramids' (stage :: later) height width

inductive RecordsAlike (p : Twins) (σ : Equiv.Perm (Fin n)) :
    List (StageRecord ℝ) → List (StageRecord ℝ) → Nat → Nat → Prop
  | nil {height width : Nat} : RecordsAlike p σ [] [] height width
  | cons {record record' : StageRecord ℝ} {later later' : List (StageRecord ℝ)}
      {hypotheses height width : Nat} (pos : 0 < hypotheses)
      (verdict : p.VerdictAlike σ hypotheses height width record.verdict record'.verdict)
      (rest : RecordsAlike p σ later later' (2 * height) (2 * width)) :
      RecordsAlike p σ (record :: later) (record' :: later') height width

/-- Stages that start alike leave records that agree on the pair of elements. -/
theorem runStages_alike [WorkerPool] (hrange : scene.range = scene'.range) (hn : 0 < n)
    (hheight : 0 < height) (hwidth : 0 < width)
    (hstages : p.StagesAlike σ scene scene' pyramids pyramids' stages height width)
    (hstart : ∀ stage ∈ stages.head?,
      p.StartAlike σ stage height width estimate estimate' carried carried' rng rng') :
    Both (fun r r' => p.RecordsAlike σ r.1 r'.1 height width ∧ r.1.length = stages.length)
      (Estimator.runStages scene pyramids stages estimate carried rng)
      (Estimator.runStages scene' pyramids' stages estimate' carried' rng') := by
  induction hstages generalizing estimate estimate' carried carried' rng rng' with
  | nil => exact .ok ⟨.nil, rfl⟩
  | @cons stage later height width sound views _ ih =>
    unfold Estimator.runStages
    refine views.bind fun views views' hviews => ?_
    rw [hrange]
    refine (run_alike _ sound hviews.1 hviews.2 hn hheight hwidth (hstart stage rfl)).bind
      fun r r' hr => ?_
    refine (verdict_alike hr.1 hr.2).bind fun v v' hv => ?_
    obtain ⟨hypotheses, hpos, hv⟩ := hv
    cases later with
    | nil => exact .ok ⟨.cons hpos hv .nil, rfl⟩
    | cons next later =>
      refine (Sampling.double_alike hv.depth).bind fun d d' hd => ?_
      refine hv.viewWeights.double.bind fun w w' hw => ?_
      refine (ih (by omega) (by omega) fun stage _ => .resume hd hw).bind
        fun records records' hrecords => ?_
      exact .ok ⟨.cons hpos hv hrecords.1, by simp [hrecords.2]⟩

end Stages

section Refinement

/-- The refinement of one element depends on its own image and depth. -/
theorem refine_alike {refiner : Refiner ℝ} (hs : refiner.Sound)
    {image image' depth depth' : Tensor ℝ}
    (himage : p.Alike [3, 2 * height, 2 * width] image image')
    (hdepth : p.Alike [1, height, width] depth depth') (hheight : 0 < height) (hwidth : 0 < width)
    (range : DepthRange ℝ) :
    Both (p.Alike [2 * height, 2 * width]) (refiner.refine image depth range)
      (refiner.refine image' depth' range) := by
  have hnormalized : p.Alike [1, height, width] (Refiner.normalized range depth)
      (Refiner.normalized range depth') := hdepth.map _
  simp only [Refiner.refine, himage.sizes4.1, himage.sizes4.2, hdepth.sizes4.1, hdepth.sizes4.2,
    ok_bind, and_self, if_true, Refiner.residual, bind_assoc]
  refine (hs.image _ _ (by omega) (by omega) p _ _ himage).bind fun features features' hf => ?_
  refine (hs.depth _ _ hheight hwidth p _ _ hnormalized).bind fun guided guided' hg => ?_
  rw [concat_pair, concat_pair]
  refine (hg.append hf).bind fun both both' hboth => ?_
  refine (hs.correction _ _ (by omega) (by omega) p _ _ hboth).bind fun fix fix' hfix => ?_
  refine (Sampling.double_alike hnormalized).bind fun large large' hlarge => ?_
  refine (hlarge.zipSame hfix (· + ·)).bind fun refined refined' hrefined => ?_
  exact (hrefined.map _).squeeze 0 rfl (by simp)

end Refinement

section Estimates

variable {estimator : Estimator ℝ ℝ} {coarse middle fine : Stage ℝ ℝ} {rng : ρ} {rng' : ρ'}

structure ReconstructionAlike (p : Twins) (σ : Equiv.Perm (Fin n)) (height width : Nat)
    (r r' : Reconstruction ℝ) : Prop where
  depth : p.Alike [2 * (2 * (2 * height)), 2 * (2 * (2 * width))] r.depth r'.depth
  confidence : p.Alike [2 * (2 * (2 * height)), 2 * (2 * (2 * width))] r.confidence r'.confidence
  stageDepths : ∃ a b c a' b' c', r.stageDepths = [a, b, c] ∧ r'.stageDepths = [a', b', c'] ∧
    p.Alike [1, height, width] a a' ∧ p.Alike [1, 2 * height, 2 * width] b b' ∧
    p.Alike [1, 2 * (2 * height), 2 * (2 * width)] c c'
  viewWeights : p.ChannelsAlike σ [2 * (2 * height), 2 * (2 * width)] r.viewWeights r'.viewWeights

/-- What a run returns agrees on the pair of elements as soon as its records do. -/
theorem finish_alike (hs : estimator.refiner.Sound)
    (h : p.SceneAlike σ height width scene scene') (hheight : 0 < height) (hwidth : 0 < width)
    {records records' : List (StageRecord ℝ)}
    (hrecords : p.RecordsAlike σ records records' height width) (hlength : records.length = 3) :
    Both (p.ReconstructionAlike σ height width) (estimator.finish scene records)
      (estimator.finish scene' records') := by
  obtain _ | ⟨_, ha, _ | ⟨_, hb, _ | ⟨hpos, hc, _ | _⟩⟩⟩ := hrecords <;> simp at hlength
  simp only [Estimator.finish, List.getLast?_cons_cons, List.getLast?_singleton]
  refine (view_alike h .reference).bind fun image image' himage => ?_
  rw [← h.range_eq]
  refine (refine_alike hs himage hc.depth (by omega) (by omega) scene.range).bind
    fun depth depth' hdepth => ?_
  refine (confidence_alike hc.score hpos).bind fun confidence confidence' hconfidence => ?_
  exact .ok ⟨hdepth, hconfidence, ⟨_, _, _, _, _, _, rfl, rfl, ha.depth, hb.depth, hc.depth⟩,
    hc.viewWeights⟩

/-- What the stages of an estimator see of twins. -/
theorem allViews_alike (hs : estimator.Sound coarse middle fine)
    (h : p.SceneAlike σ height width scene scene') {pyramids pyramids' : List (Pyramid ℝ)}
    (hpyramids : p.PyramidsAlike σ coarse.settings.features middle.settings.features
      fine.settings.features height width pyramids pyramids') :
    Both (fun views views' =>
        p.ViewsAlike σ coarse.settings.features height width views views' ∧
          p.CamerasAlike σ 0 scene scene' views views')
      (Estimator.stageViews scene pyramids coarse.index)
      (Estimator.stageViews scene' pyramids' coarse.index) ∧
    Both (fun views views' =>
        p.ViewsAlike σ middle.settings.features (2 * height) (2 * width) views views' ∧
          p.CamerasAlike σ 1 scene scene' views views')
      (Estimator.stageViews scene pyramids middle.index)
      (Estimator.stageViews scene' pyramids' middle.index) ∧
    Both (fun views views' =>
        p.ViewsAlike σ fine.settings.features (2 * (2 * height)) (2 * (2 * width)) views views' ∧
          p.CamerasAlike σ 2 scene scene' views views')
      (Estimator.stageViews scene pyramids fine.index)
      (Estimator.stageViews scene' pyramids' fine.index) := by
  rw [hs.index_coarse, hs.index_middle, hs.index_fine]
  refine ⟨?_, ?_, ?_⟩
  · exact stageViews_alike h hpyramids (by decide) fun q q' hq => .ok hq.coarse
  · exact stageViews_alike h hpyramids (by decide) fun q q' hq => .ok hq.middle
  · exact stageViews_alike h hpyramids (by decide) fun q q' hq => .ok hq.fine

/-- The stages of an estimator see the same at twins whose cameras all have inverses. -/
theorem stages_alike (hs : estimator.Sound coarse middle fine)
    (h : p.SceneAlike σ height width scene scene')
    (hregular : ∀ stage < stageCount, scene.RegularAt stage)
    (hregular' : ∀ stage < stageCount, scene'.RegularAt stage)
    {pyramids pyramids' : List (Pyramid ℝ)}
    (hpyramids : p.PyramidsAlike σ coarse.settings.features middle.settings.features
      fine.settings.features height width pyramids pyramids') :
    p.StagesAlike σ scene scene' pyramids pyramids' [coarse, middle, fine] height width := by
  obtain ⟨hcoarse, hmiddle, hfine⟩ := allViews_alike hs h hpyramids
  have hposes {stage : Nat} (hstage : stage < stageCount) {views views' : ViewFeatures ℝ}
      (hv : p.CamerasAlike σ stage scene scene' views views') : p.PosesAlike σ views views' :=
    hv.posesAlike h.batch_left h.batch_right (hregular stage hstage) (hregular' stage hstage)
  refine .cons hs.sound_coarse ?_ (.cons hs.sound_middle ?_ (.cons hs.sound_fine ?_ .nil))
  · exact hcoarse.mono fun _ _ hv => ⟨hv.1, hposes (by decide) hv.2⟩
  · exact hmiddle.mono fun _ _ hv => ⟨hv.1, hposes (by decide) hv.2⟩
  · exact hfine.mono fun _ _ hv => ⟨hv.1, hposes (by decide) hv.2⟩

/-- Both runs succeed, and twins get the same. -/
theorem estimate_alike [WorkerPool] (hs : estimator.Sound coarse middle fine)
    (h : p.SceneAlike σ height width scene scene') (hn : 0 < n) (hheight : 0 < height)
    (hwidth : 0 < width) (hregular : ∀ stage < stageCount, scene.RegularAt stage)
    (hregular' : ∀ stage < stageCount, scene'.RegularAt stage)
    (hdraws : p.DrawsAlike (α := ℝ) height width rng rng') :
    Both (fun r r' => p.ReconstructionAlike σ height width r.1 r'.1)
      (estimator.estimate scene rng) (estimator.estimate scene' rng') := by
  simp only [Estimator.estimate, Estimator.search, hs.stages_eq, bind_assoc]
  refine (pyramids_alike hs.extractor h hheight hwidth).bind fun pyramids pyramids' hp => ?_
  have hstages := stages_alike hs h hregular hregular' hp
  have hstart : p.StartAlike σ coarse height width none none none none rng rng' :=
    ⟨trivial, trivial, fun _ => hdraws, fun _ => hs.rates⟩
  refine (runStages_alike h.range_eq hn hheight hwidth hstages fun stage hstage => ?_).bind
    fun r r' hr => ?_
  · cases hstage
    exact hstart
  · exact (finish_alike hs.refiner h hheight hwidth hr.1 hr.2).bind fun _ _ hfound => .ok hfound

end Estimates

end Twins

end MultiViewDepth
