import MultiViewDepth.Proofs.BatchElements
import MultiViewDepth.Proofs.Rounds

/-!
How many random numbers a run draws, and where.

Only the first round of the coarsest stage draws, one number for each of its hypotheses. A run is
compared with one that has another generator: both move their generators by the same number of
draws, and nothing else is read from them.
-/
namespace MultiViewDepth

open Tensor Twins RandomSource

section Runs

variable {ε β γ α σ ρ : Type} [RandomSource σ α] [RandomSource ρ α] {m n : Nat} {rng : σ} {rng' : ρ}

/-- Two runs come to the same, and each has drawn `n` numbers. -/
def SameDraws (n : Nat) (rng : σ) (rng' : ρ) (x : Except ε (β × σ)) (x' : Except ε (β × ρ)) :
    Prop :=
  ∃ y : Except ε β, x = (do return (← y, after n rng)) ∧ x' = (do return (← y, after n rng'))

namespace SameDraws

variable {x : Except ε (β × σ)} {x' : Except ε (β × ρ)}

/-- A step that draws nothing. -/
theorem pure (y : Except ε β) :
    SameDraws 0 rng rng' (do return (← y, rng)) (do return (← y, rng')) :=
  ⟨y, rfl, rfl⟩

theorem ok (b : β) : SameDraws n rng rng' (.ok (b, after n rng) : Except ε _)
    (.ok (b, after n rng')) :=
  ⟨.ok b, rfl, rfl⟩

theorem bind {f : β × σ → Except ε (γ × σ)} {f' : β × ρ → Except ε (γ × ρ)}
    (h : SameDraws n rng rng' x x')
    (hf : ∀ b, SameDraws m (after n rng) (after n rng') (f (b, after n rng))
      (f' (b, after n rng'))) : SameDraws (n + m) rng rng' (x >>= f) (x' >>= f') := by
  obtain ⟨y, rfl, rfl⟩ := h
  cases y with
  | error e => exact ⟨.error e, rfl, rfl⟩
  | ok b =>
    obtain ⟨z, hz, hz'⟩ := hf b
    refine ⟨z, ?_, ?_⟩
    · rw [after_add]
      exact hz
    · rw [after_add]
      exact hz'

/-- What comes before the draws has no part in them. -/
theorem of_bind {y : Except ε γ} {f : γ → Except ε (β × σ)} {f' : γ → Except ε (β × ρ)}
    (hf : ∀ c, y = .ok c → SameDraws n rng rng' (f c) (f' c)) :
    SameDraws n rng rng' (y >>= f) (y >>= f') := by
  cases y with
  | error e => exact ⟨.error e, rfl, rfl⟩
  | ok c => exact hf c rfl

/-- One run beside itself. -/
theorem state_eq (h : SameDraws n rng rng x x) {r : β × σ} (hx : x = .ok r) :
    r.2 = after n rng := by
  obtain ⟨y, rfl, -⟩ := h
  obtain ⟨b, -, hb⟩ := bind_eq_ok.1 hx
  cases hb
  rfl

theorem eq_ok (h : SameDraws n rng rng' x x') {r : β × σ} (hx : x = .ok r) :
    x' = .ok (r.1, after n rng') := by
  obtain ⟨y, rfl, rfl⟩ := h
  obtain ⟨b, rfl, hb⟩ := bind_eq_ok.1 hx
  cases hb
  rfl

theorem outcome_eq (h : SameDraws n rng rng' x x') : Prod.fst <$> x = Prod.fst <$> x' := by
  obtain ⟨y, rfl, rfl⟩ := h
  cases y <;> rfl

end SameDraws

theorem take_congr {n : Nat} (h : ∀ i < n, (draw i rng' : α) = draw i rng) :
    (take n rng').1 = (take n rng).1 := by
  refine List.ext_getElem? fun i => ?_
  by_cases hi : i < n
  · rw [take_getElem? rng' hi, take_getElem? rng hi, h i hi]
  · rw [List.getElem?_eq_none (by simp; omega), List.getElem?_eq_none (by simp; omega)]

end Runs

variable {α δ σ ρ : Type} [Scalar α] [Scalar δ] [Precision α δ] [RandomSource σ α]
  [RandomSource ρ α] {rng : σ} {rng' : ρ}

section Stages

variable {stage : Stage α δ} {views : ViewFeatures α} {range : DepthRange δ}
  {surroundings : Surroundings α} {batch height width : Nat}

def drawCount (estimate : Option (Tensor α)) (batch height width : Nat) : Nat :=
  match estimate with
  | none => volume [batch, scatterCount, height, width]
  | some _ => 0

omit [Scalar α] in
/-- A round that starts from an estimate asks nothing of a generator. -/
theorem agree_of_some {estimate : Tensor α} :
    ∀ i < drawCount (some estimate) batch height width, (draw i rng' : α) = draw i rng :=
  fun i hi => absurd hi i.not_lt_zero

theorem scatter_draws (h : ∀ i < volume [batch, scatterCount, height, width],
      (draw i rng' : α) = draw i rng) :
    Hypotheses.scatter batch height width range rng' =
      ((Hypotheses.scatter batch height width range rng).1,
        after (volume [batch, scatterCount, height, width]) rng') := by
  simp only [Hypotheses.scatter, take_congr h]
  rfl

theorem sampler_draws (sampler : Sampler δ) (estimate : Option (Tensor α))
    (h : ∀ i < drawCount estimate batch height width, (draw i rng' : α) = draw i rng) :
    SameDraws (drawCount estimate batch height width) rng rng'
      (sampler.hypotheses estimate range batch height width rng)
      (sampler.hypotheses estimate range batch height width rng') := by
  cases estimate with
  | none =>
    simp only [Sampler.hypotheses, scatter_draws h]
    exact .ok _
  | some depth =>
    simp only [Sampler.hypotheses]
    split
    · exact .ok _
    · exact .pure _

theorem hypotheses_draws (iteration : Nat) (estimate : Option (Tensor α))
    (h : ∀ i < drawCount estimate batch height width, (draw i rng' : α) = draw i rng) :
    SameDraws (drawCount estimate batch height width) rng rng'
      (stage.hypotheses range surroundings batch height width iteration estimate rng)
      (stage.hypotheses range surroundings batch height width iteration estimate rng') := by
  refine (sampler_draws stage.sampler estimate h).bind (m := 0) fun own => ?_
  dsimp only
  split
  · exact .pure _
  · exact .pure (.ok own)

theorem round_draws [WorkerPool] (iteration : Nat) (estimate carried : Option (Tensor α))
    (h : ∀ i < drawCount estimate batch height width, (draw i rng' : α) = draw i rng) :
    SameDraws (drawCount estimate batch height width) rng rng'
      (stage.round views range surroundings batch height width iteration estimate carried rng)
      (stage.round views range surroundings batch height width iteration estimate carried
        rng') := by
  refine (hypotheses_draws iteration estimate h).bind (m := 0) fun hypotheses => ?_
  refine .of_bind fun depthWeight _ => .of_bind fun weight _ => .of_bind fun verdict _ => ?_
  exact .pure (.ok _)

/-- Rounds that start from an estimate draw nothing. -/
theorem rounds_draws [WorkerPool] (count iteration : Nat) (estimate : Tensor α)
    (carried : Option (Tensor α)) : SameDraws 0 rng rng'
      (stage.rounds views range surroundings batch height width count iteration (some estimate)
        carried rng)
      (stage.rounds views range surroundings batch height width count iteration (some estimate)
        carried rng') := by
  induction count generalizing iteration estimate carried with
  | zero => exact .ok []
  | succ count ih =>
    refine (round_draws iteration (some estimate) carried agree_of_some).bind (m := 0)
      fun round => ?_
    exact (ih (iteration + 1) round.verdict.depth (some round.verdict.viewWeights)).bind
      (m := 0) fun later => .ok _

/-- Of the rounds of a stage only the first draws. -/
theorem rounds_succ_draws [WorkerPool] (count iteration : Nat)
    (estimate carried : Option (Tensor α))
    (h : ∀ i < drawCount estimate batch height width, (draw i rng' : α) = draw i rng) :
    SameDraws (drawCount estimate batch height width) rng rng'
      (stage.rounds views range surroundings batch height width (count + 1) iteration estimate
        carried rng)
      (stage.rounds views range surroundings batch height width (count + 1) iteration estimate
        carried rng') := by
  refine (round_draws iteration estimate carried h).bind (m := 0) fun round => ?_
  exact (rounds_draws count (iteration + 1) round.verdict.depth
    (some round.verdict.viewWeights)).bind (m := 0) fun later => .ok _

/-- A stage draws in its first round only, and only without an estimate. -/
theorem run_draws [WorkerPool] {channels : Nat} (estimate carried : Option (Tensor α))
    (hpos : 0 < stage.settings.iterations)
    (hshape : views.reference.shape = [batch, channels, height, width])
    (h : ∀ i < drawCount estimate batch height width, (draw i rng' : α) = draw i rng) :
    SameDraws (drawCount estimate batch height width) rng rng'
      (stage.run views range estimate carried rng)
      (stage.run views range estimate carried rng') := by
  obtain ⟨count, hcount⟩ : ∃ count, stage.settings.iterations = count + 1 :=
    ⟨stage.settings.iterations - 1, by omega⟩
  simp only [Stage.run, sizes4_eq_ok.2 hshape, ok_bind, hcount]
  split
  · exact .of_bind fun surroundings _ => rounds_succ_draws count 0 estimate carried h
  · exact ⟨.error _, rfl, rfl⟩

/-- Stages that start from an estimate draw nothing, whatever their settings are. -/
theorem run_some_draws [WorkerPool] (estimate : Tensor α) (carried : Option (Tensor α)) :
    SameDraws 0 rng rng' (stage.run views range (some estimate) carried rng)
      (stage.run views range (some estimate) carried rng') := by
  refine .of_bind fun sizes _ => ?_
  dsimp only
  split
  · exact .of_bind fun surroundings _ => rounds_draws _ 0 estimate carried
  · exact ⟨.error _, rfl, rfl⟩

theorem stage_estimate_draws [WorkerPool] (estimate : Tensor α) (carried : Option (Tensor α)) :
    SameDraws 0 rng rng' (stage.estimate views range (some estimate) carried rng)
      (stage.estimate views range (some estimate) carried rng') :=
  (run_some_draws estimate carried).bind (m := 0) fun _ => .pure _

/-- A start without an estimate looks at one draw for each of its own hypotheses, to which
neighbors may add theirs. -/
theorem first_hypotheses [WorkerPool] {iteration : Nat} {carried : Option (Tensor α)}
    {round : Round α × σ}
    (h : stage.round views range surroundings batch height width iteration none carried rng =
      .ok round) :
    ∃ own : Tensor α, own.shape = [batch, scatterCount, height, width] ∧
      (round.1.hypotheses = own ∨ ∃ grid, lend own grid = .ok round.1.hypotheses) ∧
      ∀ b k y x, b < batch → k < scatterCount → y < height → x < width →
        own.get [b, k, y, x] = Hypotheses.scattered range k
          (draw (((b * scatterCount + k) * height + y) * width + x) rng) := by
  obtain ⟨⟨hypotheses, rng'⟩, hhypotheses, h⟩ := bind_eq_ok.1 h
  obtain ⟨_, -, h⟩ := bind_eq_ok.1 h
  obtain ⟨_, -, h⟩ := bind_eq_ok.1 h
  obtain ⟨verdict, -, h⟩ := bind_eq_ok.1 h
  cases h
  refine ⟨(Hypotheses.scatter batch height width range rng).1, rfl, ?_,
    fun b k y x hb hk hy hx => scatter_get range rng hb hk hy hx⟩
  obtain ⟨own, hown, hhypotheses⟩ := bind_eq_ok.1 hhypotheses
  cases hown
  dsimp only at hhypotheses
  split at hhypotheses
  next grid _ _ =>
    obtain ⟨lent, hlent, hhypotheses⟩ := bind_eq_ok.1 hhypotheses
    cases hhypotheses
    exact .inr ⟨grid, hlent⟩
  next =>
    cases hhypotheses
    exact .inl rfl

end Stages

section Search

variable {scene : Scene α δ} {pyramids : List (Pyramid α)} {batch height width : Nat}

/-- Stages that start from an estimate leave the generator alone. -/
theorem runStages_some_draws [WorkerPool] (stages : List (Stage α δ))
    (estimate carried : Tensor α) : SameDraws 0 rng rng'
      (Estimator.runStages scene pyramids stages (some estimate) (some carried) rng)
      (Estimator.runStages scene pyramids stages (some estimate) (some carried) rng') := by
  induction stages generalizing estimate carried with
  | nil => exact .ok []
  | cons stage later ih =>
    rw [Estimator.runStages_cons, Estimator.runStages_cons]
    refine .of_bind fun views _ => ?_
    refine (run_some_draws estimate (some carried)).bind (m := 0) fun rounds => ?_
    refine .of_bind fun verdict _ => .of_bind fun next _ => ?_
    exact (ih next.1 next.2).bind (m := 0) fun records => .ok _

/-- Of the stages of a search only the first draws. -/
theorem runStages_draws [WorkerPool] {stage : Stage α δ} {later : List (Stage α δ)}
    (hpos : 0 < stage.settings.iterations)
    (hshape : ∀ views, Estimator.stageViews scene pyramids stage.index = .ok views →
      ∃ channels, views.reference.shape = [batch, channels, height, width])
    (h : ∀ i < volume [batch, scatterCount, height, width], (draw i rng' : α) = draw i rng) :
    SameDraws (volume [batch, scatterCount, height, width]) rng rng'
      (Estimator.runStages scene pyramids (stage :: later) none none rng)
      (Estimator.runStages scene pyramids (stage :: later) none none rng') := by
  rw [Estimator.runStages_cons, Estimator.runStages_cons]
  refine .of_bind fun views hviews => ?_
  obtain ⟨channels, hreference⟩ := hshape views hviews
  refine (run_draws none none hpos hreference h).bind (m := 0) fun rounds => ?_
  refine .of_bind fun verdict _ => .of_bind fun next _ => ?_
  exact (runStages_some_draws later next.1 next.2).bind (m := 0) fun records => .ok _

/-- A search in parts: its first round, which draws, and what comes after the draws. -/
theorem runStages_first [WorkerPool] {stage : Stage α δ} {later : List (Stage α δ)}
    {result : List (StageRecord α) × σ} (hpos : 0 < stage.settings.iterations)
    (hshape : ∀ views, Estimator.stageViews scene pyramids stage.index = .ok views →
      ∃ channels, views.reference.shape = [batch, channels, height, width])
    (h : Estimator.runStages scene pyramids (stage :: later) none none rng = .ok result) :
    let rng' := after (volume [batch, scatterCount, height, width]) rng
    ∃ views surroundings first others verdict depth weights records,
      Estimator.stageViews scene pyramids stage.index = .ok views ∧
      stage.survey views.reference = .ok surroundings ∧
      stage.round views scene.range surroundings batch height width 0 none none rng =
        .ok (first, rng') ∧
      stage.rounds views scene.range surroundings batch height width
        (stage.settings.iterations - 1) 1 (some first.verdict.depth)
        (some first.verdict.viewWeights) rng' = .ok (others, rng') ∧
      Estimator.runStages scene pyramids later (some depth) (some weights) rng' =
        .ok (records, rng') ∧
      result = (⟨first :: others, verdict⟩ :: records, rng') := by
  obtain ⟨count, hcount⟩ : ∃ count, stage.settings.iterations = count + 1 :=
    ⟨stage.settings.iterations - 1, by omega⟩
  obtain ⟨found, rng₀⟩ := result
  obtain ⟨views, rounds, rng₁, verdict, depth, weights, records, hviews, hrun, -, -, hrecords,
    rfl⟩ := Estimator.runStages_eq_ok h
  obtain ⟨channels, hreference⟩ := hshape views hviews
  obtain ⟨_, _, _, surroundings, hsizes, hsurvey, hrounds⟩ := Stage.run_eq_ok hrun
  rw [hreference] at hsizes
  cases hsizes
  rw [hcount] at hrounds
  obtain ⟨⟨first, rng₂⟩, hfirst, hrounds⟩ := bind_eq_ok.1 hrounds
  obtain ⟨⟨others, rng₃⟩, hothers, hrounds⟩ := bind_eq_ok.1 hrounds
  cases hrounds
  -- each part leaves the generator where the first round has left it
  obtain rfl : rng₂ = after (volume [batch, scatterCount, height, width]) rng :=
    (round_draws 0 none none fun _ _ => rfl).state_eq hfirst
  obtain rfl := (rounds_draws count 1 first.verdict.depth
    (some first.verdict.viewWeights)).state_eq hothers
  obtain rfl : rng₀ = _ := (runStages_some_draws later depth weights).state_eq hrecords
  rw [hcount]
  exact ⟨views, surroundings, first, others, verdict, depth, weights, records, hviews, hsurvey,
    hfirst, hothers, hrecords, rfl⟩

end Search

section Estimates

variable {settings : Settings δ} {source : ParameterSource α} {estimator : Estimator α δ}
  {scene : Scene α δ}

/-- Features that an estimator reads at the coarsest stage have an eighth of the scene's sides. -/
theorem exists_coarsest_shape [WorkerPool] {coarse middle fine : Nat} {pyramids : List (Pyramid α)}
    {views : ViewFeatures α} (hs : estimator.extractor.Sound coarse middle fine)
    (hpyramids : estimator.pyramids scene = .ok pyramids)
    (hviews : Estimator.stageViews scene pyramids 0 = .ok views) :
    ∃ channels, views.reference.shape =
      [scene.batch, channels, scene.height / 8, scene.width / 8] := by
  obtain ⟨channels, h⟩ := exists_reference_isSingle hs hpyramids hviews
  exact ⟨channels, by simpa using h.shape_eq⟩

omit [Scalar α] [Precision α δ] in
theorem Scene.volume_scattered (scene : Scene α δ) : scene.batch * scene.drawsPerElement =
    volume [scene.batch, scatterCount, scene.height / 8, scene.width / 8] := by
  simp only [Scene.drawsPerElement, volume_cons, volume_nil, Nat.mul_one, Nat.mul_assoc]

/-- What draws belong to: the coarsest stage comes first and has a round. -/
theorem coarsest_of_build (h : Estimator.build settings source = .ok estimator) :
    (∃ coarse middle fine, estimator.extractor.Sound coarse middle fine) ∧
      ∃ stage later, estimator.stages = stage :: later ∧ stage.index = 0 ∧
        0 < stage.settings.iterations := by
  constructor
  · obtain ⟨b, hb, hbuild⟩ := bind_eq_ok.1 h
    obtain ⟨answers, hanswers, rfl⟩ := Blueprint.exists_answers (Estimator.names_nodup hb) hbuild
    obtain ⟨-, coarse, middle, fine, rfl⟩ := Estimator.blueprint_eq_ok hb
    have hextractor := hanswers.answered
    simp only [Estimator.parts, Blueprint.answered_seq, Blueprint.answered_map] at hextractor
    exact ⟨_, _, _, extractor_sound hextractor.1.1⟩
  · obtain ⟨coarse, middle, fine, hstages, hcoarse, -, -⟩ := Estimator.follows_of_build h
    refine ⟨coarse, [middle, fine], hstages, hcoarse.index_eq, ?_⟩
    rw [hcoarse.settings_eq]
    exact (Estimator.valid_of_build h).1.iterations_pos

/-- Estimates by two generators that agree in the numbers drawn. -/
theorem estimate_sameDraws [WorkerPool] (hbuild : Estimator.build settings source = .ok estimator)
    (h : ∀ i < scene.batch * scene.drawsPerElement, (draw i rng' : α) = draw i rng) :
    SameDraws (scene.batch * scene.drawsPerElement) rng rng' (estimator.estimate scene rng)
      (estimator.estimate scene rng') := by
  obtain ⟨⟨_, _, _, hs⟩, stage, later, hstages, hindex, hpos⟩ := coarsest_of_build hbuild
  rw [scene.volume_scattered] at h ⊢
  refine SameDraws.bind (m := 0) ?_ fun records => .pure _
  refine .of_bind fun pyramids hpyramids => ?_
  rw [hstages]
  refine runStages_draws hpos (fun views hviews => exists_coarsest_shape hs hpyramids ?_) h
  rwa [hindex] at hviews

/-- Only the first round of the coarsest stage draws, and the fraction at which a depth lies in its
bin is the draw that has the number of its place. -/
theorem estimate_draws [WorkerPool] (hbuild : Estimator.build settings source = .ok estimator)
    (scene : Scene α δ) (rng : σ) :
    let count := scene.batch * scene.drawsPerElement
    (∀ r, estimator.estimate scene rng = .ok r → r.2 = after count rng ∧
      ∃ pyramids stage later views surroundings first others verdict depth weights records,
        estimator.pyramids scene = .ok pyramids ∧ estimator.stages = stage :: later ∧
        Estimator.stageViews scene pyramids stage.index = .ok views ∧
        stage.survey views.reference = .ok surroundings ∧
        stage.round views scene.range surroundings scene.batch (scene.height / 8) (scene.width / 8)
          0 none none rng = .ok (first, after count rng) ∧
        stage.rounds views scene.range surroundings scene.batch (scene.height / 8)
          (scene.width / 8) (stage.settings.iterations - 1) 1 (some first.verdict.depth)
          (some first.verdict.viewWeights) (after count rng) = .ok (others, after count rng) ∧
        Estimator.runStages scene pyramids later (some depth) (some weights) (after count rng) =
          .ok (records, after count rng) ∧
        estimator.search scene rng =
          .ok (⟨first :: others, verdict⟩ :: records, after count rng) ∧
        ∃ own : Tensor α,
          own.shape = [scene.batch, scatterCount, scene.height / 8, scene.width / 8] ∧
          (first.hypotheses = own ∨ ∃ grid, lend own grid = .ok first.hypotheses) ∧
          ∀ b k y x, b < scene.batch → k < scatterCount → y < scene.height / 8 →
            x < scene.width / 8 → own.get [b, k, y, x] = Hypotheses.scattered scene.range k
              (draw (((b * scatterCount + k) * (scene.height / 8) + y) * (scene.width / 8) + x)
                rng)) ∧
      (∀ {ρ : Type} [RandomSource ρ α] (rng' : ρ),
        (∀ i < count, (draw i rng' : α) = draw i rng) →
          Prod.fst <$> estimator.estimate scene rng' = Prod.fst <$> estimator.estimate scene rng) ∧
      ∀ (stage : Stage α δ) views range depth carried r,
        stage.estimate views range (some depth) carried rng = .ok r → r.2 = rng := by
  intro count
  refine ⟨?_, ?_, ?_⟩
  · intro r hr
    refine ⟨(estimate_sameDraws hbuild fun _ _ => rfl).state_eq hr, ?_⟩
    obtain ⟨⟨_, _, _, hs⟩, stage, later, hstages, hindex, hpos⟩ := coarsest_of_build hbuild
    obtain ⟨⟨records, rng'⟩, hsearch, -⟩ := bind_eq_ok.1 hr
    obtain ⟨pyramids, hpyramids, hrun⟩ := bind_eq_ok.1 hsearch
    rw [hstages] at hrun
    obtain ⟨views, surroundings, first, others, verdict, depth, weights, records, hviews, hsurvey,
      hfirst, hothers, hlater, heq⟩ := runStages_first hpos (fun views hviews =>
        exists_coarsest_shape hs hpyramids (hindex ▸ hviews)) hrun
    rw [← scene.volume_scattered] at hfirst hothers hlater heq
    exact ⟨pyramids, stage, later, views, surroundings, first, others, verdict, depth, weights,
      records, hpyramids, hstages, hviews, hsurvey, hfirst, hothers, hlater, heq ▸ hsearch,
      first_hypotheses hfirst⟩
  · intro ρ _ rng' h
    exact (estimate_sameDraws hbuild h).outcome_eq.symm
  · intro stage views range depth carried r hr
    exact (stage_estimate_draws depth carried).state_eq hr

attribute [local instance] WorkerPool.inTurn

/-- Tapes that differ from number 192 on give one estimate of a scene with 2 × 2 coarse pixels. -/
theorem estimate_draws_tape :
    let tape := Tape.varied
    let other : Tape := { tape with number := fun i => if i < 192 then tape.number i else 0 }
    ∃ (estimator : Estimator ℝ ℝ) (r r' : Reconstruction ℝ × Tape),
      Estimator.build .default variedSource = .ok estimator ∧
        estimator.estimate (Scene.varied 1 0 0 0) tape = .ok r ∧
        estimator.estimate (Scene.varied 1 0 0 0) other = .ok r' ∧ r'.1 = r.1 ∧
        r.2.position = 192 ∧ r'.2.position = 192 := by
  intro tape other
  obtain ⟨estimator, r, hbuild, hr⟩ :=
    estimate_varied Settings.validate_default (variedSource_answers _) Nat.one_pos 0 0 0 tape
  obtain ⟨hstate, hsame, -⟩ := estimate_draws hbuild (Scene.varied 1 0 0 0) tape
  obtain ⟨hstate', -, -⟩ := estimate_draws hbuild (Scene.varied 1 0 0 0) other
  have hcount : (Scene.varied 1 0 0 0).batch * (Scene.varied 1 0 0 0).drawsPerElement = 192 := rfl
  rw [hcount] at hstate hsame hstate'
  have hagree : ∀ i < 192, (draw i other : ℝ) = draw i tape := by
    intro i hi
    rw [Tape.draw_eq, Tape.draw_eq]
    simp [tape, other, Tape.varied, hi]
  have heq := hsame other hagree
  rw [hr] at heq
  cases hr' : estimator.estimate (Scene.varied 1 0 0 0) other with
  | error e =>
    rw [hr'] at heq
    cases heq
  | ok r' =>
    rw [hr'] at heq
    refine ⟨estimator, r, r', hbuild, hr, hr', Except.ok.inj heq, ?_, ?_⟩
    · rw [(hstate r hr).1, Tape.after_eq]
      exact Nat.zero_add 192
    · rw [(hstate' r' hr').1, Tape.after_eq]
      exact Nat.zero_add 192

end Estimates

end MultiViewDepth
