import MultiViewDepth.Proofs.Exact
import MultiViewDepth.View.Transform
import Mathlib.LinearAlgebra.Matrix.NonsingularInverse

/-!
Products, determinants and inverses of transforms are those of matrices.
-/
namespace MultiViewDepth.Transform

theorem mul_eq (a b : Transform ℝ) : Matrix.of (a.mul b) = Matrix.of a * Matrix.of b := by
  ext r c
  simp [mul, Matrix.mul_apply, Fin.sum_univ_four]

theorem skip_eq_succAbove (i : Fin 4) (k : Fin 3) : skip i k = i.succAbove k := by
  simp [skip, Fin.succAbove, Fin.lt_def]

theorem minor_eq (m : Transform ℝ) (r c : Fin 4) :
    m.minor r c = ((Matrix.of m).submatrix r.succAbove c.succAbove).det := by
  simp only [minor, skip_eq_succAbove, Matrix.det_fin_three,
    Matrix.submatrix_apply, Matrix.of_apply]
  ring

theorem adjugate_eq (m : Transform ℝ) : Matrix.of m.adjugate = (Matrix.of m).adjugate := by
  ext r c
  rw [Matrix.of_apply, adjugate, Matrix.adjugate_fin_succ_eq_det_submatrix, minor_eq]
  by_cases heven : (r.val + c.val) % 2 = 0
  · rw [if_pos heven, Even.neg_one_pow (by rw [Nat.add_comm]; exact Nat.even_iff.2 heven), one_mul]
  · rw [if_neg heven, Odd.neg_one_pow (by rw [Nat.add_comm]; exact Nat.odd_iff.2 (by omega))]
    ring

/-- The determinant is that of the matrix. -/
theorem det_eq (m : Transform ℝ) : m.det = (Matrix.of m).det := by
  have hcorner : (m.adjugate 0 0 * m 0 0 + m.adjugate 0 1 * m 1 0 + m.adjugate 0 2 * m 2 0 +
      m.adjugate 0 3 * m 3 0) = (Matrix.of m).det := by
    have h := congrFun (congrFun (Matrix.adjugate_mul (Matrix.of m)) 0) 0
    rw [← adjugate_eq, Matrix.mul_apply, Fin.sum_univ_four] at h
    simpa using h
  rw [← hcorner, det]
  ring

theorem isZero_iff (x : ℝ) : isZero x = true ↔ x = 0 := by
  simp only [isZero, Bool.and_eq_true, decide_eq_true_eq]
  exact le_antisymm_iff.symm

theorem inverse?_eq_none_iff {m : Transform ℝ} : m.inverse? = none ↔ m.det = 0 := by
  rw [← isZero_iff]
  simp [inverse?]

theorem exists_inverse {m : Transform ℝ} (h : m.det ≠ 0) : ∃ inverse, m.inverse? = some inverse :=
  Option.ne_none_iff_exists'.1 (mt inverse?_eq_none_iff.1 h)

theorem inverse?_of_det {m : Transform ℝ} (h : (Matrix.of m).det ≠ 0) :
    m.inverse? = some (Matrix.of.symm (Matrix.of m)⁻¹) := by
  have hzero : ¬ isZero m.det = true := by rwa [isZero_iff, det_eq]
  rw [inverse?, if_neg hzero]
  refine congrArg some (funext fun r => funext fun c => ?_)
  rw [Matrix.of_symm_apply, Matrix.inv_def, Ring.inverse_eq_inv', ← adjugate_eq, ← det_eq,
    Matrix.smul_apply, Matrix.of_apply, smul_eq_mul, one_div, mul_comm]

end MultiViewDepth.Transform
