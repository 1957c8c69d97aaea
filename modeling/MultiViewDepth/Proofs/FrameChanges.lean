import MultiViewDepth.Proofs.ScaledViews
import MultiViewDepth.Proofs.TwinPoses

/-!
Projections in another world frame and in another unit of length.

A change of the world frame multiplies the projections of all views from the right, and the poses of
the views relative to each other do not see it. A change of unit multiplies them from the left, and
scales the displacements.
-/
namespace MultiViewDepth

open Tensor Arithmetic

namespace Transform

/-- What two views have on the right cancels in their pose, and what they have on the left becomes a
conjugation. -/
theorem pose_frames {source reference source' reference' : Transform ℝ}
    {left right : Matrix (Fin 4) (Fin 4) ℝ} (hright : right.det ≠ 0)
    (hsource : Matrix.of source' = left * Matrix.of source * right)
    (hreference : Matrix.of reference' = left * Matrix.of reference * right) :
    source'.mul (Matrix.of.symm (Matrix.of reference')⁻¹) = Matrix.of.symm
      (left * Matrix.of (source.mul (Matrix.of.symm (Matrix.of reference)⁻¹)) * left⁻¹) := by
  refine Matrix.of.injective ?_
  rw [Equiv.apply_symm_apply, mul_eq, mul_eq, Equiv.apply_symm_apply, Equiv.apply_symm_apply,
    hsource, hreference, Matrix.mul_inv_rev, Matrix.mul_inv_rev]
  simp only [Matrix.mul_assoc, Matrix.mul_nonsing_inv_cancel_left _ _ (isUnit_iff_ne_zero.2 hright)]

end Transform

/-- Camera coordinates in a unit of which the old one has `c`. -/
noncomputable def unitChange (c : ℝ) : Matrix (Fin 4) (Fin 4) ℝ :=
  .diagonal fun i => if i = 3 then 1 else c

section Units

variable {c : ℝ}

theorem det_unitChange (c : ℝ) : (unitChange c).det = c ^ 3 := by
  simp [unitChange, Matrix.det_diagonal, Fin.prod_univ_four]
  ring

theorem inv_unitChange (hc : c ≠ 0) : (unitChange c)⁻¹ = unitChange c⁻¹ := by
  refine Matrix.inv_eq_right_inv ?_
  rw [unitChange, unitChange, Matrix.diagonal_mul_diagonal, ← Matrix.diagonal_one]
  congr 1
  funext i
  split <;> simp [hc]

theorem conjugate_apply (hc : c ≠ 0) (m : Matrix (Fin 4) (Fin 4) ℝ) (i j : Fin 4) :
    (unitChange c * m * (unitChange c)⁻¹) i j =
      (if i = 3 then 1 else c) * m i j * (if j = 3 then 1 else c⁻¹) := by
  rw [inv_unitChange hc, unitChange, unitChange, Matrix.mul_diagonal, Matrix.diagonal_mul]

noncomputable def Transform.rescaled (c : ℝ) (m : Transform ℝ) : Transform ℝ :=
  Matrix.of.symm (unitChange c * Matrix.of m * (unitChange c)⁻¹)

theorem Transform.entry_rescaled (hc : c ≠ 0) (m : Transform ℝ) {r j : Nat} (hr : r < 3) :
    (m.rescaled c).entry r j = if j = 3 then c * m.entry r j else m.entry r j := by
  by_cases hj : j < 4
  · have hin : r < 4 ∧ j < 4 := ⟨by omega, hj⟩
    have hrow : (⟨r, hin.1⟩ : Fin 4) ≠ 3 := by
      simp only [ne_eq, Fin.ext_iff]
      exact hr.ne
    have hcolumn : (⟨j, hj⟩ : Fin 4) = 3 ↔ j = 3 := by simp [Fin.ext_iff]
    rw [entry, dif_pos hin, entry, dif_pos hin, rescaled, Matrix.of_symm_apply, conjugate_apply hc,
      if_neg hrow, Matrix.of_apply]
    by_cases h3 : j = 3
    · rw [if_pos (hcolumn.2 h3), if_pos h3, mul_one]
    · rw [if_neg (mt hcolumn.1 h3), if_neg h3, mul_right_comm, mul_inv_cancel₀ hc, one_mul]
  · have hout : ¬ (r < 4 ∧ j < 4) := fun h => hj h.2
    rw [entry, dif_neg hout, entry, dif_neg hout, mul_zero, ite_self]

end Units

namespace RelativePose

section Frames

variable {n : Nat} {sources references sources' references' : Fin n → Transform ℝ}
  {left : Matrix (Fin 4) (Fin 4) ℝ} {right : Fin n → Matrix (Fin 4) (Fin 4) ℝ}

theorem compose_frames (hleft : left.det ≠ 0) (hright : ∀ b, (right b).det ≠ 0)
    (hsources : ∀ b, Matrix.of (sources' b) = left * Matrix.of (sources b) * right b)
    (hreferences : ∀ b, Matrix.of (references' b) = left * Matrix.of (references b) * right b)
    (k : Nat) :
    compose k (List.ofFn sources') (List.ofFn references') =
      List.map (fun m => Matrix.of.symm (left * Matrix.of m * left⁻¹)) <$>
        compose k (List.ofFn sources) (List.ofFn references) := by
  induction n generalizing k with
  | zero =>
    simp only [List.ofFn_zero, compose]
    rfl
  | succ n ih =>
    have hlater := ih (fun b => hright b.succ) (fun b => hsources b.succ)
      (fun b => hreferences b.succ) (k + 1)
    have hdet : (Matrix.of (references' 0)).det =
        left.det * (Matrix.of (references 0)).det * (right 0).det := by
      rw [hreferences, Matrix.det_mul, Matrix.det_mul]
    simp only [List.ofFn_succ, compose]
    -- both sides stop at the same reference, since the factors have determinants other than zero
    by_cases hzero : (Matrix.of (references 0)).det = 0
    · rw [Transform.inverse?_eq_none_iff.2 ((Transform.det_eq _).trans hzero),
        Transform.inverse?_eq_none_iff.2 ((Transform.det_eq _).trans (by rw [hdet, hzero]; ring))]
      rfl
    · have hzero' : (Matrix.of (references' 0)).det ≠ 0 := by
        rw [hdet]
        exact mul_ne_zero (mul_ne_zero hleft hzero) (hright 0)
      rw [Transform.inverse?_of_det hzero, Transform.inverse?_of_det hzero']
      dsimp only
      rw [Transform.pose_frames (hright 0) (hsources 0) (hreferences 0)]
      exact bind_map_congr hlater fun _ => rfl

end Frames

variable {c : ℝ}

theorem ofTransforms_rescaled (hc : c ≠ 0) (poses : List (Transform ℝ)) :
    ofTransforms (poses.map (Transform.rescaled c)) =
      (ofTransforms poses : RelativePose ℝ).scaled c := by
  have hentry {b r j : Nat} (hb : b < poses.length) (hr : r < 3) :
      ((poses.map (Transform.rescaled c)).toArray.getD b Transform.identity).entry r j =
        if j = 3 then c * (poses.toArray.getD b Transform.identity).entry r j
        else (poses.toArray.getD b Transform.identity).entry r j := by
    simp only [Array.getD_eq_getD_getElem?, List.getElem?_toArray, List.getElem?_map,
      List.getElem?_eq_getElem hb, Option.map_some, Option.getD_some]
    exact Transform.entry_rescaled hc _ hr
  simp only [ofTransforms, scaled, List.length_map, narrow_real]
  congr 1
  · refine ofFn_congr fun index hw => ?_
    obtain ⟨b, r, j, rfl, hb, hr, hj⟩ := hw.exists_three
    dsimp only
    rw [hentry hb hr, if_neg (by omega)]
  · refine ofFn_scaled fun index hw => ?_
    obtain ⟨b, r, j, rfl, hb, hr, -⟩ := hw.exists_three
    dsimp only
    rw [hentry hb hr, if_pos rfl]

/-- The world frame of an element does not show in its poses, and a unit scales them. -/
theorem between_frames (hc : c ≠ 0) {source reference source' reference' : Tensor ℝ} {batch : Nat}
    (hshape : source.shape = [batch, 4, 4]) (hshape' : source'.shape = [batch, 4, 4])
    (hreference : reference.shape = [batch, 4, 4]) (hreference' : reference'.shape = [batch, 4, 4])
    {frame : Fin batch → Matrix (Fin 4) (Fin 4) ℝ} (hframe : ∀ b, (frame b).det ≠ 0)
    (hsources : ∀ b : Fin batch, Matrix.of (projectionAt source' b) =
      unitChange c * Matrix.of (projectionAt source b) * frame b)
    (hreferences : ∀ b : Fin batch, Matrix.of (projectionAt reference' b) =
      unitChange c * Matrix.of (projectionAt reference b) * frame b) :
    between source' reference' = scaled c <$> between source reference := by
  have hunit : (unitChange c).det ≠ 0 := by
    rw [det_unitChange]
    exact pow_ne_zero 3 hc
  simp only [between, transforms_ok hshape, transforms_ok hshape', transforms_ok hreference,
    transforms_ok hreference', ok_bind, List.length_ofFn, if_true]
  refine bind_map_congr (compose_frames hunit hframe hsources hreferences 0) fun poses => ?_
  exact congrArg Except.ok (ofTransforms_rescaled hc poses)

end RelativePose

end MultiViewDepth
