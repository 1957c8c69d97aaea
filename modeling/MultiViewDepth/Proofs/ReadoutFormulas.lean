import MultiViewDepth.Proofs.ReadoutBounds

/-!
The depth of a pixel as a formula in its hypotheses and their probabilities.
-/
namespace MultiViewDepth

open Tensor Arithmetic

namespace Readout

variable {batch count height width : Nat} {depth score : Tensor ℝ}

theorem meanDepth_ok (hdepth : depth.IsSingle [batch, count, height, width])
    (hscore : score.IsSingle [batch, count, height, width]) :
    ∃ u, meanDepth depth score = .ok u ∧ u.IsSingle [batch, 1, height, width] ∧
      ∀ b y x, b < batch → y < height → x < width →
        u.get [b, 0, y, x] = ∑ k : Fin count, depth.get [b, k, y, x] * score.get [b, k, y, x] := by
  obtain ⟨product, hproduct, hproductSingle, hentry⟩ := hdepth.zipSame hscore (· * ·)
  obtain ⟨u, hu, hsingle, hsum⟩ := hproductSingle.reduce
    (show [batch, count, height, width][1]? = some count from rfl) sumTo
  refine ⟨u, by simp only [meanDepth, hproduct, ok_bind, Tensor.sum, hu], hsingle,
    fun b y x hb hy hx => ?_⟩
  rw [hsum _ (within_four hb Nat.one_pos hy hx), sumTo_real, Finset.sum_range]
  exact Finset.sum_congr rfl fun k _ => hentry _ (within_four hb k.isLt hy hx)

theorem meanNumber_ok (hscore : score.IsSingle [batch, count, height, width]) :
    ∃ placed number, Tensor.zip (· * ·) score (numbers count) = .ok placed ∧
      placed.sum 1 = .ok number ∧ number.IsSingle [batch, 1, height, width] ∧
      ∀ b y x, b < batch → y < height → x < width →
        number.get [b, 0, y, x] = ∑ k : Fin count, score.get [b, k, y, x] * k := by
  have hnumbers : (numbers count : Tensor ℝ).IsSingle [1, count, 1, 1] := isSingle_ofFn _ _
  obtain ⟨placed, hplaced, hplacedSingle, -⟩ := hscore.zip hnumbers repeats_numbers (· * ·)
  obtain ⟨number, hnumber, hsingle, -⟩ := hplacedSingle.reduce
    (show [batch, count, height, width][1]? = some count from rfl) sumTo
  refine ⟨placed, number, hplaced, hnumber, hsingle, fun b y x hb hy hx => ?_⟩
  rw [number_get hscore.shape_eq hscore.kind_eq hplaced hnumber hb hy hx, sumTo_real,
    Finset.sum_range]

theorem betweenEnds_single (hdepth : depth.IsSingle [batch, 1, height, width])
    (score : Tensor ℝ) : betweenEnds depth score = .ok depth := by
  simp only [betweenEnds, sizes4_eq_ok.2 hdepth.shape_eq, ok_bind, if_true, pure_eq_ok]

/-- The inverse depth lies on the way from that of the first hypothesis to that of the last one, as
far as the mean hypothesis number says. -/
theorem betweenEnds_ok (hdepth : depth.IsSingle [batch, count, height, width])
    (hscore : score.IsSingle [batch, count, height, width]) (hcount : 1 < count) :
    ∃ u, betweenEnds depth score = .ok u ∧ u.IsSingle [batch, 1, height, width] ∧
      ∀ b y x, b < batch → y < height → x < width →
        let first := 1 / depth.get [b, 0, y, x]
        let last := 1 / depth.get [b, count - 1, y, x]
        u.get [b, 0, y, x] = 1 / (first + (last - first) *
          ((∑ k : Fin count, score.get [b, k, y, x] * k) / (count - 1 : Nat))) := by
  have haxis : [batch, count, height, width][1]? = some count := rfl
  obtain ⟨placed, number, hplaced, hnumber, hnumberSingle, hmean⟩ := meanNumber_ok hscore
  obtain ⟨first, hfirst, hfirstSingle, hfirstGet⟩ :=
    hdepth.narrow haxis (show 0 + 1 ≤ count by omega)
  obtain ⟨last, hlast, hlastSingle, hlastGet⟩ :=
    hdepth.narrow haxis (show count - 1 + 1 ≤ count by omega)
  have hinverseFirst := hfirstSingle.map Scalar.recip
  obtain ⟨gap, hgap, hgapSingle, hgapGet⟩ :=
    (hlastSingle.map Scalar.recip).zipSame hinverseFirst (· - ·)
  obtain ⟨step, hstep, hstepSingle, hstepGet⟩ := hgapSingle.zipSame
    (hnumberSingle.map (Arithmetic.affine (1 / ((count - 1 : Nat) : ℝ)) 0)) (· * ·)
  obtain ⟨inverse, hinverse, hinverseSingle, hinverseGet⟩ :=
    hinverseFirst.zipSame hstepSingle (· + ·)
  refine ⟨inverse.map Scalar.recip, ?_, hinverseSingle.map _, fun b y x hb hy hx => ?_⟩
  · simp only [betweenEnds, sizes4_eq_ok.2 hdepth.shape_eq, ok_bind, if_neg hcount.ne', hplaced,
      hnumber, hfirst, hlast, Tensor.affine, hgap, hstep, hinverse, pure_eq_ok]
  · have hw : Within [b, 0, y, x] [batch, 1, height, width] := within_four hb Nat.one_pos hy hx
    have hmap {t : Tensor ℝ} (ht : t.IsSingle [batch, 1, height, width]) (f : ℝ → ℝ) :
        (t.map f).get [b, 0, y, x] = f (t.get [b, 0, y, x]) :=
      get_map ht.kind_eq (ht.shape_eq ▸ hw) f
    rw [hmap hinverseSingle, hinverseGet _ hw, hstepGet _ hw, hgapGet _ hw, hmap hfirstSingle,
      hmap hlastSingle, hmap hnumberSingle, hfirstGet _ hw, hlastGet _ hw, hmean b y x hb hy hx,
      affine_real, add_zero, mul_one_div]
    rfl

end Readout

end MultiViewDepth
