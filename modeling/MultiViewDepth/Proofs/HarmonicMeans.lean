import MultiViewDepth.Proofs.LadderRungs
import MultiViewDepth.Proofs.ReadoutFormulas

/-!
What is read out of a ladder.

The readout in inverse depth knows the outer hypotheses and the mean hypothesis number only. Rungs
that are not clamped are evenly spaced in inverse depth, so it finds the mean inverse depth of all
hypotheses: out of a ladder their harmonic mean is read.
-/
namespace MultiViewDepth

open Tensor Arithmetic

namespace Hypotheses

variable {range : DepthRange ℝ} {count batch height width : Nat} {interval d : ℝ}
  {estimate : Tensor ℝ}

/-- Inverse depth grows evenly from the first rung on. -/
theorem endless_eq (k : Nat) :
    endless range count interval d k =
      endless range count interval d 0 + k * (interval * (1 / range.near - 1 / range.far)) := by
  rw [endless, endless]
  push_cast
  ring

/-- A mean of evenly spaced numbers lies as far on the way from the first to the last one as the
mean of their places does. -/
theorem mean_endless {p : Nat → ℝ} (hcount : 1 < count) (hsum : ∑ k : Fin count, p k = 1) :
    endless range count interval d 0 +
        (endless range count interval d (count - 1) - endless range count interval d 0) *
          ((∑ k : Fin count, p k * k) / (count - 1 : Nat)) =
      ∑ k : Fin count, p k * endless range count interval d k := by
  have hlast : ((count - 1 : Nat) : ℝ) ≠ 0 := Nat.cast_ne_zero.2 (by omega)
  have hterm (k : Fin count) : p k * endless range count interval d k =
      p k * endless range count interval d 0 +
        p k * k * (interval * (1 / range.near - 1 / range.far)) := by
    rw [endless_eq k]
    ring
  simp only [hterm, Finset.sum_add_distrib, ← Finset.sum_mul, hsum, one_mul]
  rw [endless_eq (count - 1)]
  field_simp
  ring

/-- Out of a ladder whose rungs are all free at a pixel, the harmonic mean of the hypotheses is
read. A single hypothesis is kept, whatever its score is. -/
theorem betweenEnds_ladder (range : DepthRange ℝ) (interval : ℝ)
    (hestimate : estimate.IsSingle [batch, 1, height, width]) (hcount : 0 < count) :
    ∃ t, ladder estimate range count interval = .ok t ∧ t.IsSingle [batch, count, height, width] ∧
      (1 < count → ∀ score : Tensor ℝ, score.IsSingle [batch, count, height, width] →
        ∃ u, Readout.betweenEnds t score = .ok u ∧ u.IsSingle [batch, 1, height, width] ∧
          ∀ b y x, b < batch → y < height → x < width →
            AllFree range count interval (estimate.get [b, 0, y, x]) →
            ∑ k : Fin count, score.get [b, k, y, x] = 1 →
            u.get [b, 0, y, x] =
              1 / ∑ k : Fin count, score.get [b, k, y, x] / t.get [b, k, y, x]) ∧
      (count = 1 → ∀ score : Tensor ℝ,
        Readout.betweenEnds estimate score = .ok estimate ∧ Readout.betweenEnds t score = .ok t ∧
          ∀ b y x, b < batch → y < height → x < width →
            AllFree range count interval (estimate.get [b, 0, y, x]) →
            t.get [b, 0, y, x] = estimate.get [b, 0, y, x]) := by
  obtain ⟨t, ht, hsingle, hget⟩ := ladder_ok hestimate
  refine ⟨t, ht, hsingle, fun hmany score hscore => ?_, fun hone score => ?_⟩
  · obtain ⟨u, hu, husingle, hread⟩ := Readout.betweenEnds_ok hsingle hscore hmany
    refine ⟨u, hu, husingle, fun b y x hb hy hx hfree hsum => ?_⟩
    have hinverse (k : Nat) (hk : k < count) : 1 / t.get [b, k, y, x] =
        endless range count interval (estimate.get [b, 0, y, x]) k :=
      one_div_ladder hestimate ht hb hk hy hx (hfree k hk)
    have hshare (k : Fin count) : score.get [b, k, y, x] / t.get [b, k, y, x] =
        score.get [b, k, y, x] * endless range count interval (estimate.get [b, 0, y, x]) k := by
      rw [← hinverse k k.isLt, mul_one_div]
    rw [hread b y x hb hy hx, hinverse 0 hcount, hinverse (count - 1) (by omega),
      mean_endless (p := fun k => score.get [b, k, y, x]) hmany hsum]
    simp only [hshare]
  · subst hone
    refine ⟨Readout.betweenEnds_single hestimate score, Readout.betweenEnds_single hsingle score,
      fun b y x hb hy hx hfree => ?_⟩
    rw [hget b 0 y x (within_four hb hcount hy hx)]
    exact rung_middle_of_free (hfree 0 hcount)

/-- A map of one pixel with inverse depth 3 / 4. -/
noncomputable def midPixel : Tensor ℝ := ofFn [1, 1, 1, 1] fun _ =>
  (4 : Nat) / (3 : Nat)

noncomputable def growingScore : Tensor ℝ := ofFn [1, 4, 1, 1] fun
  | [_, k, _, _] => k / (6 : Nat)
  | _ => 0

theorem betweenEnds_ladder_growing :
    midPixel.IsSingle [1, 1, 1, 1] ∧ growingScore.IsSingle [1, 4, 1, 1] ∧
      AllFree unitRange 4 (1 / 4) (midPixel.get [0, 0, 0, 0]) ∧
      ∃ t u, ladder midPixel unitRange 4 (1 / 4 : ℝ) = .ok t ∧
        Readout.betweenEnds t growingScore = .ok u ∧ u.get [0, 0, 0, 0] = 24 / 19 := by
  have hpixel : midPixel.IsSingle [1, 1, 1, 1] := isSingle_ofFn _ _
  have hscore : growingScore.IsSingle [1, 4, 1, 1] := isSingle_ofFn _ _
  have hdepth : midPixel.get [0, 0, 0, 0] = 4 / 3 := get_ofFn (by simp) _
  have hshare (k : Nat) (hk : k < 4) : growingScore.get [0, k, 0, 0] = k / 6 :=
    get_ofFn (within_four Nat.one_pos hk Nat.one_pos Nat.one_pos) _
  have hendless (k : Nat) : endless unitRange 4 (1 / 4) (4 / 3) k = (k + 4) / 8 := by
    rw [endless, unitRange]
    push_cast
    ring
  have hfree : AllFree unitRange 4 (1 / 4) (midPixel.get [0, 0, 0, 0]) := by
    intro k hk
    rw [hdepth, Free, hendless, unitRange]
    interval_cases k <;> norm_num
  obtain ⟨t, ht, -, hmean, -⟩ := betweenEnds_ladder unitRange (1 / 4) hpixel (show 0 < 4 by decide)
  obtain ⟨u, hu, -, hread⟩ := hmean (by decide) growingScore hscore
  have hrung (k : Fin 4) : growingScore.get [0, k, 0, 0] / t.get [0, k, 0, 0] =
      k / 6 * ((k + 4) / 8) := by
    rw [← mul_one_div, one_div_ladder hpixel ht Nat.one_pos k.isLt Nat.one_pos Nat.one_pos
      (hfree k k.isLt), hdepth, hendless, hshare k k.isLt]
  refine ⟨hpixel, hscore, hfree, t, u, ht, hu, ?_⟩
  rw [hread 0 0 0 Nat.one_pos Nat.one_pos Nat.one_pos hfree]
  · norm_num [hrung, Fin.sum_univ_four]
  · norm_num [hshare, Fin.sum_univ_four]

end Hypotheses

end MultiViewDepth
