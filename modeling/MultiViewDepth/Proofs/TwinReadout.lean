import MultiViewDepth.Depth.Readout
import MultiViewDepth.Matching.Confidence
import MultiViewDepth.Proofs.TwinSampling

/-!
Depth and confidence that twins get from the probabilities of their hypotheses.
-/
namespace MultiViewDepth.Twins

open Tensor Arithmetic

variable {α : Type} [Scalar α] {p : Twins} {hypotheses height width : Nat}
  {depth depth' score score' : Tensor α}

section Depth

theorem meanDepth_alike (h : p.Alike [hypotheses, height, width] depth depth')
    (hscore : p.Alike [hypotheses, height, width] score score') :
    Both (p.Alike [1, height, width]) (Readout.meanDepth depth score)
      (Readout.meanDepth depth' score') :=
  (h.zipSame hscore (· * ·)).bind fun _ _ hproduct => hproduct.sum 0 rfl

theorem betweenEnds_alike (h : p.Alike [hypotheses, height, width] depth depth')
    (hscore : p.Alike [hypotheses, height, width] score score') (hhypotheses : 0 < hypotheses) :
    Both (p.Alike [1, height, width]) (Readout.betweenEnds depth score)
      (Readout.betweenEnds depth' score') := by
  simp only [Readout.betweenEnds, h.sizes4.1, h.sizes4.2, ok_bind]
  by_cases hone : hypotheses = 1
  · subst hone
    simp only [if_true]
    exact .ok h
  · simp only [hone, if_false]
    have hnumbers : Repeats [hypotheses, height, width] [hypotheses, 1, 1] :=
      .cons (.inl rfl) (.cons (.inr rfl) (.cons (.inr rfl) .nil))
    refine (hscore.zip_shared (u := Readout.numbers hypotheses) rfl rfl hnumbers (· * ·)).bind
      fun placed placed' hplaced => ?_
    refine (hplaced.sum 0 rfl).bind fun number number' hnumber => ?_
    refine (h.narrow 0 0 1 rfl (by omega)).bind fun first first' hfirst => ?_
    refine (h.narrow 0 (hypotheses - 1) 1 rfl (by omega)).bind fun last last' hlast => ?_
    have hfirst := hfirst.map Scalar.recip
    have hlast := hlast.map Scalar.recip
    refine (hlast.zipSame hfirst (· - ·)).bind fun gap gap' hgap => ?_
    refine (hgap.zipSame (hnumber.map _) (· * ·)).bind fun step step' hstep => ?_
    refine (hfirst.zipSame hstep (· + ·)).bind fun inverse inverse' hinverse => ?_
    exact .ok (hinverse.map Scalar.recip)

/-- Both readouts of the depth keep to the pair of elements. -/
theorem readout_alike (readout : Readout) (h : p.Alike [hypotheses, height, width] depth depth')
    (hscore : p.Alike [hypotheses, height, width] score score') (hhypotheses : 0 < hypotheses) :
    Both (p.Alike [1, height, width]) (readout.depth depth score)
      (readout.depth depth' score') := by
  cases readout with
  | expectation => exact meanDepth_alike h hscore
  | inverseDepth => exact betweenEnds_alike h hscore hhypotheses

end Depth

section Confidence

open Confidence

variable {k y x : Nat}

theorem windowSum_eq (h : p.Alike [hypotheses, height, width] score score') (hy : y < height)
    (hx : x < width) :
    windowSum hypotheses score p.element k y x = windowSum hypotheses score' p.element' k y x := by
  have hpadded (i : Nat) (hi : i ≤ hypotheses) :
      padded score p.element y x i = padded score' p.element' y x i := by
    unfold padded
    split
    · rfl
    · exact h.get_eq [i - 1, y, x] (within_three (by omega) hy hx)
  have hentry (i : Nat) : (if i ≤ hypotheses then padded score p.element y x i else 0) =
      if i ≤ hypotheses then padded score' p.element' y x i else 0 := by
    split
    next hi => exact hpadded i hi
    next => rfl
  simp only [windowSum, hentry]

theorem meanNumber_eq (h : p.Alike [hypotheses, height, width] score score') (hy : y < height)
    (hx : x < width) :
    meanNumber hypotheses score p.element y x = meanNumber hypotheses score' p.element' y x := by
  unfold meanNumber
  congr 3
  exact sumTo_congr fun i hi =>
    congrArg (· * _) (h.get_eq [i, y, x] (within_three hi hy hx))

/-- The confidence of one element is read off its own scores. -/
theorem confidence_alike (h : p.Alike [hypotheses, height, width] score score')
    (hhypotheses : 0 < hypotheses) :
    Both (p.Alike [2 * height, 2 * width]) (confidence score) (confidence score') := by
  have hnone (shape : List Nat) : ¬ (hypotheses = 0 ∧ volume shape ≠ 0) := by omega
  simp only [confidence, h.sizes4.1, h.sizes4.2, ok_bind, hnone, if_false]
  refine (h.compute [1, height, width] fun index hw => ?_).bind
    fun small small' hsmall => ?_
  · obtain ⟨i, y, x, rfl, -, hy, hx⟩ := hw.exists_three
    dsimp only
    rw [meanNumber_eq h hy hx, windowSum_eq h hy hx]
  · refine (Sampling.double_alike hsmall).bind fun large large' hlarge => ?_
    exact (hlarge.map _).squeeze 0 rfl (by simp)

end Confidence

end MultiViewDepth.Twins
