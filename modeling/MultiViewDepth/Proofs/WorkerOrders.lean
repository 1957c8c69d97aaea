import MultiViewDepth.Proofs.Rounds

/-!
Runs that succeed, whatever order workers keep.

In which order a pool is done with its tasks can be seen in a failure only. Whoever gets an estimate
gets the same one from all pools.
-/
namespace MultiViewDepth

section Answers

variable {ε β γ : Type}

/-- What a computation comes to, if it comes to anything, it comes to in every pool. It may fail in
as many ways as there are pools. -/
def SameAnswers (computation : WorkerPool → Except ε β) : Prop :=
  ∀ pool pool' b, computation pool = .ok b ↔ computation pool' = .ok b

namespace SameAnswers

theorem const (x : Except ε β) : SameAnswers fun _ => x := fun _ _ _ => Iff.rfl

theorem bind {x : WorkerPool → Except ε β} {f : WorkerPool → β → Except ε γ} (hx : SameAnswers x)
    (hf : ∀ b, SameAnswers fun pool => f pool b) : SameAnswers fun pool => x pool >>= f pool := by
  intro pool pool' c
  rw [bind_eq_ok, bind_eq_ok]
  exact exists_congr fun b => and_congr (hx pool pool' b) (hf b pool pool' c)

/-- Tasks answer alike in every order in which a pool completes them. -/
theorem run (parallel : Bool) (count : Nat) (task : Nat → Except ε β) :
    SameAnswers fun _ => Tasks.run parallel count task := by
  intro pool pool' answers
  simp only [Tasks.run_eq_ok_iff]

end SameAnswers

end Answers

section Runs

variable {α δ σ : Type} [Scalar α] [Scalar δ] [Precision α δ] [RandomSource σ α]
  (stage : Stage α δ) (estimator : Estimator α δ) (scene : Scene α δ)

theorem evaluate_sameAnswers (matcher : Matcher α) (views : ViewFeatures α) (depth : Tensor α)
    (grid : NeighborGrid α) (weight : Tensor α) (carried : Option (Tensor α)) (readout : Readout) :
    SameAnswers fun _ => matcher.evaluate views depth grid weight carried readout := by
  unfold Matcher.evaluate
  refine .bind (.const _) fun sources => .bind (.const _) fun sizes => .bind (.const _) fun _ => ?_
  exact .bind (.run _ _ _) fun compared => .const _

variable (views : ViewFeatures α) (range : DepthRange δ)

theorem round_sameAnswers (surroundings : Surroundings α) (batch height width iteration : Nat)
    (estimate carried : Option (Tensor α)) (rng : σ) :
    SameAnswers fun _ =>
      stage.round views range surroundings batch height width iteration estimate carried rng := by
  unfold Stage.round
  refine .bind (.const _) fun hypotheses => .bind (.const _) fun near => ?_
  refine .bind (.const _) fun weight => ?_
  exact .bind (evaluate_sameAnswers _ _ _ _ _ _ _) fun verdict => .const _

theorem rounds_sameAnswers (surroundings : Surroundings α)
    (batch height width count iteration : Nat) (estimate carried : Option (Tensor α)) (rng : σ) :
    SameAnswers fun _ =>
      stage.rounds views range surroundings batch height width count iteration estimate carried
        rng := by
  induction count generalizing iteration estimate carried rng with
  | zero => exact .const _
  | succ count ih =>
    refine .bind (round_sameAnswers stage views range _ _ _ _ _ _ _ _) fun first => ?_
    exact .bind (ih _ _ _ _) fun later => .const _

theorem run_sameAnswers (estimate carried : Option (Tensor α)) (rng : σ) :
    SameAnswers fun _ => stage.run views range estimate carried rng := by
  unfold Stage.run
  refine .bind (.const _) fun sizes => ?_
  dsimp only
  split
  · exact .bind (.const _) fun surroundings =>
      rounds_sameAnswers stage views range _ _ _ _ _ _ _ _ _
  · exact .const _

theorem runStages_sameAnswers (pyramids : List (Pyramid α)) (stages : List (Stage α δ))
    (estimate carried : Option (Tensor α)) (rng : σ) :
    SameAnswers fun _ => Estimator.runStages scene pyramids stages estimate carried rng := by
  induction stages generalizing estimate carried rng with
  | nil => exact .const _
  | cons stage later ih =>
    simp only [Estimator.runStages_cons]
    refine .bind (.const _) fun views => ?_
    refine .bind (run_sameAnswers stage views _ _ _ _) fun rounds => ?_
    refine .bind (.const _) fun verdict => .bind (.const _) fun next => ?_
    exact .bind (ih _ _ _) fun records => .const _

/-- An estimate that one order of the workers leads to, all orders lead to. -/
theorem estimate_sameAnswers (rng : σ) : SameAnswers fun _ => estimator.estimate scene rng := by
  unfold Estimator.estimate Estimator.search Estimator.pyramids
  refine .bind ?_ fun records => .const _
  exact .bind (.run _ _ _) fun pyramids => runStages_sameAnswers scene pyramids _ _ _ _

end Runs

end MultiViewDepth
