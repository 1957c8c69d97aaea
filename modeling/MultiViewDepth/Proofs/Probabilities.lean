import MultiViewDepth.Proofs.Exact
import MultiViewDepth.Proofs.SingleArrays

/-!
Probabilities along an axis.

A softmax shifts its exponents before it takes exponentials and divides by subtracting logarithms.
In exact arithmetic it is what its name says: exponentials divided by their sum.
-/
namespace MultiViewDepth

open Tensor Arithmetic

variable {shape index : List Nat} {axis n k : Nat}

section Columns

/-- Of an axis that is repeated the only place is read. -/
theorem foldIndex_set_one (h : Within index shape) (axis : Nat) :
    foldIndex (shape.set axis 1) index = index.set axis 0 := by
  induction shape generalizing index axis with
  | nil =>
    rw [h.eq_nil]
    rfl
  | cons m shape ih =>
    obtain ⟨i, rest, rfl, hi, hrest⟩ := h.exists_cons
    cases axis with
    | zero => rw [List.set_cons_zero, foldIndex_one_cons hrest.length_eq, foldIndex_self hrest,
        List.set_cons_zero]
    | succ axis =>
      rw [List.set_cons_succ, foldIndex_cons hi (by rw [List.length_set, hrest.length_eq]),
        ih hrest, List.set_cons_succ]

theorem Within.set_zero (h : Within index shape) (axis : Nat) :
    Within (index.set axis 0) (shape.set axis 1) := by
  rw [← foldIndex_set_one h]
  exact within_foldIndex (Twins.repeats_set shape axis) h

/-- The places along an axis. -/
theorem Within.along (h : Within index shape) (haxis : shape[axis]? = some n) (hk : k < n) :
    Within (index.set axis k) shape := by
  have hset := (h.set_zero axis).set haxis hk
  rwa [List.set_set] at hset

/-- An array combined with one that has one entry along an axis. -/
theorem Tensor.IsSingle.zip_along {t u : Tensor ℝ} (h : t.IsSingle shape)
    (hu : u.IsSingle (shape.set axis 1)) (f : ∀ {β : Type} [Arithmetic β], β → β → β) :
    ∃ v, Tensor.zip f t u = .ok v ∧ v.IsSingle shape ∧ ∀ index, Within index shape →
      v.get index = f (t.get index) (u.get (index.set axis 0)) := by
  obtain ⟨v, hv, hsingle, hget⟩ := h.zip hu (Twins.repeats_set shape axis) f
  exact ⟨v, hv, hsingle, fun index hw => by rw [hget index hw, foldIndex_set_one hw]⟩

end Columns

section Softmax

variable {t : Tensor ℝ}

/-- A shift of all exponents cancels. -/
theorem exp_shifted (hn : 0 < n) (e : Nat → ℝ) (x shift : ℝ) :
    Real.exp (x - shift - Real.log (sumTo n fun i => Real.exp (e i - shift))) =
      Real.exp x / ∑ i : Fin n, Real.exp (e i) := by
  rw [sumTo_real, Finset.sum_range]
  have hpos : 0 < ∑ i : Fin n, Real.exp (e i - shift) :=
    Finset.sum_pos (fun i _ => Real.exp_pos _) ⟨⟨0, hn⟩, Finset.mem_univ _⟩
  rw [Real.exp_sub _ (Real.log _), Real.exp_log hpos]
  simp only [Real.exp_sub, ← Finset.sum_div]
  exact div_div_div_cancel_right₀ (Real.exp_pos shift).ne' _ _

theorem Tensor.IsSingle.softmax (h : t.IsSingle shape) (haxis : shape[axis]? = some n)
    (hn : 0 < n) :
    ∃ u, t.softmax axis = .ok u ∧ u.IsSingle shape ∧ ∀ index, Within index shape →
      u.get index = Real.exp (t.get index) / ∑ k : Fin n, Real.exp (t.get (index.set axis k)) := by
  obtain ⟨top, htop, htopSingle, -⟩ := h.reduce haxis maxTo
  obtain ⟨shifted, hshifted, hshiftedSingle, hsub⟩ := h.zip_along htopSingle (· - ·)
  obtain ⟨total, htotal, htotalSingle, hadd⟩ := (hshiftedSingle.map Scalar.exp).reduce haxis sumTo
  obtain ⟨logs, hlogs, hlogsSingle, hdiv⟩ :=
    hshiftedSingle.zip_along (htotalSingle.map Scalar.log) (· - ·)
  have hsize : ¬t.size axis = 0 := by
    rw [size, h.shape_eq, List.getD_eq_getElem?_getD, haxis, Option.getD_some]
    omega
  refine ⟨logs.map Scalar.exp, ?_, hlogsSingle.map _, fun index hw => ?_⟩
  · simp only [Tensor.softmax, Tensor.maximum, hsize, if_false, htop, hshifted, Tensor.sum, htotal,
      hlogs, ok_bind, pure_eq_ok]
  · -- along the axis the same number is subtracted from all entries
    have htotal : total.get (index.set axis 0) = sumTo n fun k =>
        Real.exp (t.get (index.set axis k) - top.get (index.set axis 0)) := by
      rw [hadd _ (hw.set_zero axis)]
      refine sumTo_congr fun k hk => ?_
      have hwithin := hw.along haxis hk
      rw [List.set_set, get_map hshiftedSingle.kind_eq (hshiftedSingle.shape_eq ▸ hwithin),
        hsub _ hwithin, List.set_set]
      rfl
    have hlog : (total.map Scalar.log).get (index.set axis 0) =
        Real.log (total.get (index.set axis 0)) :=
      get_map htotalSingle.kind_eq (htotalSingle.shape_eq ▸ hw.set_zero axis) _
    rw [get_map hlogsSingle.kind_eq (hlogsSingle.shape_eq ▸ hw), hdiv index hw, hlog, htotal,
      hsub index hw]
    exact exp_shifted hn (fun k => t.get (index.set axis k)) _ _

end Softmax

end MultiViewDepth
