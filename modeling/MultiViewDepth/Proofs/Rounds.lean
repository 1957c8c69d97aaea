import MultiViewDepth.Estimator
import MultiViewDepth.Proofs.Outcome

/-!
The rounds of a stage, one after another, in which of them neighbors lend, and what a stage hands to
the next one.

What the reference features decide is surveyed once for all rounds.
-/
namespace MultiViewDepth

namespace StageSettings

variable {δ : Type} {settings : StageSettings δ}

/-- Before the last rounds no flag keeps neighbors from lending. -/
theorem lendsIn_of_lt {iteration : Nat} {final : Bool}
    (h : final = true → iteration + 1 < settings.iterations) :
    settings.lendsIn iteration final = decide (0 < settings.lenders) := by
  cases final with
  | false => simp [lendsIn]
  | true => simp [lendsIn, (h rfl).ne]

/-- Neighbors lend in some iteration, unless the only one is the last of the final stage. -/
theorem lends_iff (final : Bool) (hpos : 0 < settings.iterations) :
    settings.lends final = true ↔
      0 < settings.lenders ∧ (final = true → 1 < settings.iterations) := by
  rw [lends, List.any_eq_true]
  constructor
  · rintro ⟨iteration, hlt, hlends⟩
    simp only [lendsIn, Bool.and_eq_true, decide_eq_true_eq] at hlends
    obtain ⟨hlenders, hnotLast⟩ := hlends
    refine ⟨hlenders, ?_⟩
    rintro rfl
    have hlt := List.mem_range.1 hlt
    have hne : iteration + 1 ≠ settings.iterations := by simpa using hnotLast
    omega
  · rintro ⟨hlenders, h⟩
    exact ⟨0, List.mem_range.2 hpos, by rw [lendsIn_of_lt h, decide_eq_true hlenders]⟩

/-- A stage with an iteration before its last one has a predictor if it has lenders. -/
theorem lends_of_lt {final : Bool} (hpos : 0 < settings.iterations)
    (h : final = true → 1 < settings.iterations) :
    settings.lends final = decide (0 < settings.lenders) := by
  rw [Bool.eq_iff_iff, lends_iff final hpos, decide_eq_true_eq, and_iff_left h]

theorem lends_of_lendsIn {iteration : Nat} {final : Bool} (hlt : iteration < settings.iterations)
    (h : settings.lendsIn iteration final = true) : settings.lends final = true :=
  List.any_eq_true.2 ⟨iteration, List.mem_range.2 hlt, h⟩

end StageSettings

namespace Stage

variable {α δ σ : Type} [Scalar α]

section Survey

def lendingGrid (stage : Stage α δ) (reference : Tensor α) : Result (Option (NeighborGrid α)) :=
  match stage.lendingOffsets with
  | none => .ok none
  | some predict => do
    return some (← NeighborGrid.build (← predict reference) stage.lendingPattern)

/-- The part of a survey that does not depend on who lends. -/
def supportSurvey (stage : Stage α δ) (reference : Tensor α) :
    Result (NeighborGrid α × Tensor α) := do
  let support ← NeighborGrid.build (← stage.supportOffsets reference) stage.supportPattern
  let featureWeight ← NeighborWeight.ofFeatures stage.featureHead stage.settings.groups reference
    support
  return (support, featureWeight)

theorem survey_eq (stage : Stage α δ) (reference : Tensor α) :
    stage.survey reference = (do
      let lending ← stage.lendingGrid reference
      let (support, featureWeight) ← stage.supportSurvey reference
      return ⟨lending, support, featureWeight⟩) := by
  unfold survey lendingGrid
  cases stage.lendingOffsets with
  | none => simp [supportSurvey]
  | some predict => simp [supportSurvey]

end Survey

variable [Scalar δ] [Precision α δ] [RandomSource σ α]

variable {stage later : Stage α δ} {views : ViewFeatures α} {range : DepthRange δ}
  {surroundings surroundings' : Surroundings α} {batch height width : Nat}

/-- The parts of a scoring that succeeds. -/
theorem evaluate_eq_ok [WorkerPool] {matcher : Matcher α} {depth weight : Tensor α}
    {grid : NeighborGrid α} {carried : Option (Tensor α)} {readout : Readout} {verdict : Verdict α}
    (h : matcher.evaluate views depth grid weight carried readout = .ok verdict) :
    ∃ batch hypotheses height width similarity,
      depth.shape = [batch, hypotheses, height, width] ∧
      matcher.score similarity grid weight batch hypotheses height width = .ok verdict.score ∧
      readout.depth depth verdict.score = .ok verdict.depth := by
  simp only [Matcher.evaluate, bind_eq_ok, pure_eq_ok] at h
  obtain ⟨_, -, ⟨batch, hypotheses, height, width⟩, hsizes, _, -, compared, -, similarity, -, score,
    hscore, regressed, hregressed, h⟩ := h
  have hparts : verdict.score = score ∧ verdict.depth = regressed := by
    cases carried <;>
    · obtain ⟨viewWeights, -, h⟩ := bind_eq_ok.1 h
      cases h
      exact ⟨rfl, rfl⟩
  rw [hparts.1, hparts.2]
  exact ⟨batch, hypotheses, height, width, similarity, Tensor.sizes4_eq_ok.1 hsizes, hscore,
    hregressed⟩

/-- The parts of a round that succeeds. -/
theorem round_eq_ok [WorkerPool] {iteration : Nat} {estimate carried : Option (Tensor α)} {rng : σ}
    {r : Round α × σ}
    (h : stage.round views range surroundings batch height width iteration estimate carried rng =
      .ok r) :
    ∃ near weight,
      stage.hypotheses range surroundings batch height width iteration estimate rng =
        .ok (r.1.hypotheses, r.2) ∧
      NeighborWeight.ofDepth r.1.hypotheses surroundings.support range stage.settings.interval =
        .ok near ∧
      NeighborWeight.combine near surroundings.featureWeight = .ok weight ∧
      r.1.readout = stage.readout iteration ∧
      stage.matcher.evaluate views r.1.hypotheses surroundings.support weight carried
        r.1.readout = .ok r.1.verdict := by
  simp only [round, bind_eq_ok, pure_eq_ok] at h
  obtain ⟨⟨tried, rng'⟩, htried, near, hnear, weight, hweight, verdict, hverdict, h⟩ := h
  cases h
  exact ⟨near, weight, htried, hnear, hweight, rfl, hverdict⟩

/-- What a round starts from when the given rounds come before it. -/
def resume (carry : Verdict α → Tensor α) (rounds : List (Round α)) (start : Option (Tensor α)) :
    Option (Tensor α) :=
  rounds.foldl (fun _ round => some (carry round.verdict)) start

omit [Scalar α] in
theorem resume_of_getLast? {rounds : List (Round α)} {last : Round α}
    (h : rounds.getLast? = some last) (carry : Verdict α → Tensor α) (start : Option (Tensor α)) :
    resume carry rounds start = some (carry last.verdict) := by
  obtain ⟨rounds, rfl⟩ := List.getLast?_eq_some_iff.1 h
  simp [resume]

/-- The rounds after the first `m` start from what these end in. -/
theorem rounds_add [WorkerPool] (m n iteration : Nat) (estimate carried : Option (Tensor α))
    (rng : σ) :
    stage.rounds views range surroundings batch height width (m + n) iteration estimate carried
        rng = (do
      let (first, rng) ← stage.rounds views range surroundings batch height width m iteration
        estimate carried rng
      let (second, rng) ← stage.rounds views range surroundings batch height width n
        (iteration + m) (resume Verdict.depth first estimate)
        (resume Verdict.viewWeights first carried) rng
      return (first ++ second, rng)) := by
  induction m generalizing iteration estimate carried rng with
  | zero =>
    rw [Nat.zero_add]
    exact (bind_pure _).symm
  | succ m ih =>
    rw [Nat.succ_add, rounds, rounds, bind_assoc]
    congr 1
    funext (round, rng)
    simp only [ih, bind_assoc, pure_bind, resume, List.foldl_cons, List.cons_append]
    rw [Nat.add_right_comm, Nat.add_assoc]

/-- The parts of a run that succeeds. -/
theorem run_eq_ok [WorkerPool] {estimate carried : Option (Tensor α)} {rng : σ}
    {r : List (Round α) × σ} (h : stage.run views range estimate carried rng = .ok r) :
    ∃ batch height width surroundings,
      views.reference.shape = [batch, stage.settings.features, height, width] ∧
      stage.survey views.reference = .ok surroundings ∧
      stage.rounds views range surroundings batch height width stage.settings.iterations 0 estimate
        carried rng = .ok r := by
  simp only [run, bind_eq_ok, throw_eq_error, error_bind, ite_error_eq_ok] at h
  obtain ⟨⟨batch, channels, height, width⟩, hsizes, rfl, surroundings, hsurvey, h⟩ := h
  exact ⟨batch, height, width, surroundings, Tensor.sizes4_eq_ok.1 hsizes, hsurvey, h⟩

omit [Scalar α] [Scalar δ] [Precision α δ] in
/-- The last round decides. -/
theorem verdict_eq_ok {rounds : List (Round α)} {verdict : Verdict α} :
    stage.verdict rounds = .ok verdict ↔
      ∃ last, rounds.getLast? = some last ∧ last.verdict = verdict := by
  unfold Stage.verdict
  cases rounds.getLast? <;> simp

/-- Every round of a list is a round of the stage. -/
theorem exists_round_of_mem [WorkerPool] {count iteration : Nat}
    {estimate carried : Option (Tensor α)} {rng : σ} {r : List (Round α) × σ}
    (h : stage.rounds views range surroundings batch height width count iteration estimate carried
      rng = .ok r) {round : Round α} (hmem : round ∈ r.1) :
    ∃ (number : Nat) (estimate carried : Option (Tensor α)) (rng rng' : σ),
      stage.round views range surroundings batch height width number estimate carried rng =
        .ok (round, rng') := by
  induction count generalizing iteration estimate carried rng r with
  | zero =>
    cases h
    cases hmem
  | succ count ih =>
    obtain ⟨⟨first, rng₁⟩, hfirst, h⟩ := bind_eq_ok.1 h
    obtain ⟨⟨later, rng₂⟩, hlater, h⟩ := bind_eq_ok.1 h
    cases h
    rcases List.mem_cons.1 hmem with rfl | hmem
    · exact ⟨iteration, estimate, carried, rng, rng₁, hfirst⟩
    · exact ih hlater hmem

/-- As many rounds as asked for. -/
theorem length_of_rounds [WorkerPool] {count iteration : Nat} {estimate carried : Option (Tensor α)}
    {rng : σ} {result : List (Round α) × σ}
    (h : stage.rounds views range surroundings batch height width count iteration estimate carried
      rng = .ok result) : result.1.length = count := by
  induction count generalizing iteration estimate carried rng result with
  | zero =>
    cases h
    rfl
  | succ count ih =>
    obtain ⟨_, -, h⟩ := bind_eq_ok.1 h
    obtain ⟨_, hlater, h⟩ := bind_eq_ok.1 h
    cases h
    exact congrArg (· + 1) (ih hlater)

theorem exists_last [WorkerPool] {count iteration : Nat} {estimate carried : Option (Tensor α)}
    {rng : σ} {result : List (Round α) × σ} (hcount : 0 < count)
    (h : stage.rounds views range surroundings batch height width count iteration estimate carried
      rng = .ok result) : ∃ last, result.1.getLast? = some last := by
  have hlength := length_of_rounds h
  have hne : result.1 ≠ [] := by
    intro hnil
    simp [hnil, ← hlength] at hcount
  exact ⟨_, List.getLast?_eq_some_getLast hne⟩

/-- Stages whose rounds are the same run them alike. -/
theorem rounds_congr [WorkerPool] {count i j : Nat}
    (h : ∀ k < count, ∀ (estimate carried : Option (Tensor α)) (rng : σ),
      stage.round views range surroundings batch height width (i + k) estimate carried rng =
        later.round views range surroundings' batch height width (j + k) estimate carried rng)
    (estimate carried : Option (Tensor α)) (rng : σ) :
    stage.rounds views range surroundings batch height width count i estimate carried rng =
      later.rounds views range surroundings' batch height width count j estimate carried rng := by
  induction count generalizing i j estimate carried rng with
  | zero => rfl
  | succ count ih =>
    have hlater := @ih (i + 1) (j + 1) fun k hk estimate carried rng => by
      have := h (k + 1) (Nat.succ_lt_succ hk) estimate carried rng
      rwa [Nat.add_comm k, ← Nat.add_assoc, ← Nat.add_assoc] at this
    simp only [rounds, hlater]
    congr 1
    exact h 0 (Nat.succ_pos count) estimate carried rng

end Stage

namespace Estimator

variable {α δ σ : Type} [Scalar α] [Scalar δ] [Precision α δ] [RandomSource σ α]

def handOver (verdict : Verdict α) : List (Stage α δ) → Result (Tensor α × Tensor α)
  | [] => .ok (verdict.depth, verdict.viewWeights)
  | _ => do return (← Sampling.double verdict.depth, ← Sampling.double verdict.viewWeights)

theorem runStages_cons [WorkerPool] (scene : Scene α δ) (pyramids : List (Pyramid α))
    (stage : Stage α δ)
    (later : List (Stage α δ)) (estimate carried : Option (Tensor α)) (rng : σ) :
    runStages scene pyramids (stage :: later) estimate carried rng = (do
      let views ← stageViews scene pyramids stage.index
      let (rounds, rng) ← stage.run views scene.range estimate carried rng
      let verdict ← stage.verdict rounds
      let (depth, weights) ← handOver verdict later
      let (records, rng) ← runStages scene pyramids later (some depth) (some weights) rng
      return (⟨rounds, verdict⟩ :: records, rng)) := by
  cases later with
  | nil => rfl
  | cons next later => simp only [runStages, handOver, bind_assoc, pure_bind]

omit [Scalar δ] [Precision α δ] in
/-- A later stage starts from both enlarged. -/
theorem handOver_cons {verdict : Verdict α} {next : Stage α δ} {later : List (Stage α δ)}
    {depth weights : Tensor α} :
    handOver verdict (next :: later) = .ok (depth, weights) ↔
      Sampling.double verdict.depth = .ok depth ∧
        Sampling.double verdict.viewWeights = .ok weights := by
  simp only [handOver, bind_eq_ok, pure_eq_ok]
  constructor
  · rintro ⟨d, hd, w, hw, ⟨⟩⟩
    exact ⟨hd, hw⟩
  · rintro ⟨hd, hw⟩
    exact ⟨depth, hd, weights, hw, rfl⟩

/-- The parts of a search that succeeds: its first stage and what comes after it. -/
theorem runStages_eq_ok [WorkerPool] {scene : Scene α δ} {pyramids : List (Pyramid α)}
    {stage : Stage α δ} {later : List (Stage α δ)} {estimate carried : Option (Tensor α)} {rng : σ}
    {r : List (StageRecord α) × σ}
    (h : runStages scene pyramids (stage :: later) estimate carried rng = .ok r) :
    ∃ views rounds rng' verdict depth weights records,
      stageViews scene pyramids stage.index = .ok views ∧
      stage.run views scene.range estimate carried rng = .ok (rounds, rng') ∧
      stage.verdict rounds = .ok verdict ∧ handOver verdict later = .ok (depth, weights) ∧
      runStages scene pyramids later (some depth) (some weights) rng' = .ok (records, r.2) ∧
      r.1 = ⟨rounds, verdict⟩ :: records := by
  rw [runStages_cons] at h
  simp only [bind_eq_ok, pure_eq_ok] at h
  obtain ⟨views, hviews, ⟨rounds, rng'⟩, hrun, verdict, hverdict, ⟨depth, weights⟩, hnext,
    ⟨records, rng''⟩, hrecords, h⟩ := h
  cases h
  exact ⟨views, rounds, rng', verdict, depth, weights, records, hviews, hrun, hverdict, hnext,
    hrecords, rfl⟩

/-- What a reconstruction is made of. -/
theorem finish_eq_ok {estimator : Estimator α δ} {scene : Scene α δ}
    {records : List (StageRecord α)} {found : Reconstruction α}
    (h : estimator.finish scene records = .ok found) :
    ∃ last image, records.getLast? = some last ∧ scene.view 0 = .ok image ∧
      estimator.refiner.refine image last.verdict.depth scene.range = .ok found.depth ∧
      confidence last.verdict.score = .ok found.confidence ∧
      found.stageDepths = records.map (·.verdict.depth) ∧
      found.viewWeights = last.verdict.viewWeights := by
  unfold finish at h
  split at h
  next => cases h
  next last hlast =>
    simp only [bind_eq_ok, pure_eq_ok] at h
    obtain ⟨image, himage, depth, hdepth, confidence, hconfidence, h⟩ := h
    cases h
    exact ⟨last, image, hlast, himage, hdepth, hconfidence, rfl, rfl⟩

end Estimator

end MultiViewDepth
