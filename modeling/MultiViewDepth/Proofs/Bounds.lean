import MultiViewDepth.Depth.Range
import MultiViewDepth.Proofs.Exact
import MultiViewDepth.Proofs.TwinArithmetic
import Mathlib.Analysis.Convex.Combination

/-!
Arrays with all entries in an interval.

Weighted means stay in an interval. Where entries are only moved, nothing is to be shown but that
every entry comes from somewhere.
-/
namespace MultiViewDepth

open Tensor Arithmetic

section Means

variable {lo hi : ℝ}

/-- A weighted mean of numbers in a convex set lies in the set. -/
theorem weighted_mem_convex {S : Set ℝ} (hS : Convex ℝ S) {n : Nat} {w x : Nat → ℝ}
    (hw : ∀ i < n, 0 ≤ w i) (hsum : sumTo n w = 1) (hx : ∀ i < n, x i ∈ S) :
    sumTo n (fun i => x i * w i) ∈ S := by
  rw [sumTo_real] at hsum ⊢
  have hmean : ∑ i ∈ Finset.range n, w i • x i ∈ S :=
    hS.sum_mem (fun i hi => hw i (Finset.mem_range.1 hi)) hsum
      fun i hi => hx i (Finset.mem_range.1 hi)
  simpa only [smul_eq_mul, mul_comm] using hmean

/-- A weighted mean of numbers in an interval lies in the interval. -/
theorem weighted_mem {n : Nat} {w x : Nat → ℝ} (hw : ∀ i < n, 0 ≤ w i) (hsum : sumTo n w = 1)
    (hx : ∀ i < n, x i ∈ Set.Icc lo hi) : sumTo n (fun i => x i * w i) ∈ Set.Icc lo hi :=
  weighted_mem_convex (convex_Icc lo hi) hw hsum hx

theorem mean_pair_mem {a b x y : ℝ} (ha : 0 ≤ a) (hb : 0 ≤ b) (hab : a + b = 1)
    (hx : x ∈ Set.Icc lo hi) (hy : y ∈ Set.Icc lo hi) : x * a + y * b ∈ Set.Icc lo hi := by
  simpa only [smul_eq_mul, mul_comm] using (convex_Icc lo hi) hx hy ha hb hab

end Means

namespace DepthRange

variable {range : DepthRange ℝ}

theorem near_pos (range : DepthRange ℝ) : 0 < range.near := not_le.1 range.admissible.2.2.1

theorem near_lt_far (range : DepthRange ℝ) : range.near < range.far :=
  not_le.1 range.admissible.2.2.2

theorem far_pos (range : DepthRange ℝ) : 0 < range.far := range.near_pos.trans range.near_lt_far

theorem inverseFar_le_inverseNear (range : DepthRange ℝ) : range.inverseFar ≤ range.inverseNear :=
  one_div_le_one_div_of_le range.near_pos range.near_lt_far.le

/-- Depths in the range have inverses in the inverse range. -/
theorem recip_mem {d : ℝ} (h : d ∈ Set.Icc range.near range.far) :
    Scalar.recip d ∈ Set.Icc range.inverseFar range.inverseNear :=
  ⟨one_div_le_one_div_of_le (range.near_pos.trans_le h.1) h.2,
    one_div_le_one_div_of_le range.near_pos h.1⟩

/-- Inverses in the inverse range are those of depths in the range. -/
theorem recip_mem_of_inverse {x : ℝ} (h : x ∈ Set.Icc range.inverseFar range.inverseNear) :
    Scalar.recip x ∈ Set.Icc range.near range.far := by
  have hfar : 0 < range.inverseFar := one_div_pos.2 range.far_pos
  constructor
  · have hle := one_div_le_one_div_of_le (hfar.trans_le h.1) h.2
    rwa [inverseNear, one_div_one_div] at hle
  · have hle := one_div_le_one_div_of_le hfar h.1
    rwa [inverseFar, one_div_one_div] at hle

end DepthRange

structure Tensor.Between (t : Tensor ℝ) (lo hi : ℝ) : Prop where
  kind_single : t.kind = .single
  mem : ∀ index, Within index t.shape → t.get index ∈ Set.Icc lo hi

namespace Tensor

variable {lo hi lo' hi' : ℝ} {t u : Tensor ℝ} {shape : List Nat}

theorem between_ofFn {f : List Nat → ℝ} (h : ∀ index, Within index shape →
      f index ∈ Set.Icc lo hi) :
    (ofFn shape f).Between lo hi where
  kind_single := rfl
  mem index hw := by
    rw [shape_ofFn] at hw
    rw [get_ofFn hw]
    exact h index hw

noncomputable def constant (shape : List Nat) (v : ℝ) : Tensor ℝ := ofFn shape fun _ => v

@[simp] theorem shape_constant (shape : List Nat) (v : ℝ) : (constant shape v).shape = shape := rfl
@[simp] theorem kind_constant (shape : List Nat) (v : ℝ) : (constant shape v).kind = .single := rfl

theorem constant_between (shape : List Nat) (v : ℝ) : (constant shape v).Between v v :=
  between_ofFn fun _ _ => ⟨le_rfl, le_rfl⟩

/-- Bounds that meet leave one array of a shape. -/
theorem Between.eq_constant {v : ℝ} (h : t.Between v v) : t = constant t.shape v := by
  refine ext_get h.kind_single (kind_constant _ _) rfl fun index hw => ?_
  obtain ⟨hle, hge⟩ := h.mem index hw
  rw [constant, get_ofFn hw, le_antisymm hge hle]

/-- An array of zeros reads zero at every index, also at one outside its shape. -/
theorem Between.get_zero (h : t.Between 0 0) (index : List Nat) : t.get index = 0 := by
  by_cases hlt : place 0 t.shape index < volume t.shape
  · obtain ⟨hle, hge⟩ := h.mem _ (within_digits hlt)
    have hread : t.get index = t.get (digits t.shape (place 0 t.shape index)) := by
      simp only [get, place_digits hlt]
    rw [hread]
    exact le_antisymm hge hle
  · rw [← size_singles h.kind_single, not_lt] at hlt
    simp [get, Elements.entry, Array.getD_eq_getD_getElem?, hlt]

/-- An array computed from single-precision numbers. -/
theorem between_compute {f : List Nat → ℝ} (hkind : t.kind = .single)
    (hu : t.compute shape f = .ok u) (h : ∀ index, Within index shape → f index ∈ Set.Icc lo hi) :
    u.shape = shape ∧ u.Between lo hi := by
  rw [compute_of_single hkind] at hu
  cases hu
  exact ⟨rfl, between_ofFn h⟩

theorem Between.map {f : ℝ → ℝ} (h : t.Between lo hi)
    (hf : ∀ x ∈ Set.Icc lo hi, f x ∈ Set.Icc lo' hi') : (t.map f).Between lo' hi' where
  kind_single := (kind_map f t).trans h.kind_single
  mem index hw := by
    rw [get_map h.kind_single hw]
    exact hf _ (h.mem index hw)

theorem Between.reshape (h : t.Between lo hi) (hu : t.reshape shape = .ok u) :
    u.shape = shape ∧ u.Between lo hi := by
  have hvolume : volume t.shape = volume shape := by
    by_contra hne
    rw [Tensor.reshape, dif_neg hne] at hu
    cases hu
  obtain ⟨hs, he⟩ := reshape_eq_ok hu
  refine ⟨hs, ?_, fun index hw => ?_⟩
  · rw [kind, he]
    exact h.kind_single
  · have hlt : place 0 u.shape index < volume t.shape := by
      rw [hvolume, ← hs]
      exact place_lt hw
    have hplace : place 0 shape index =
        place 0 t.shape (digits t.shape (place 0 u.shape index)) := by
      rw [place_digits hlt, hs]
    rw [get_reshape hu hplace]
    exact h.mem _ (within_digits hlt)

theorem Between.squeeze {axis : Nat} (h : t.Between lo hi) (hu : t.squeeze axis = .ok u) :
    u.Between lo hi := by
  unfold Tensor.squeeze at hu
  split at hu
  · cases hu
  · exact (h.reshape hu).2
  · cases hu
    exact h

theorem Between.narrow {axis start count : Nat} (h : t.Between lo hi)
    (hu : t.narrow axis start count = .ok u) :
    u.shape = t.shape.set axis count ∧ u.Between lo hi := by
  have hok := hu
  unfold Tensor.narrow at hu
  split at hu
  · cases hu
  next n haxis =>
    split at hu
    next hle =>
      rw [narrow_of_single h.kind_single haxis hle] at hok
      cases hok
      exact ⟨rfl, between_ofFn fun index hw => h.mem _ (hw.modify haxis hle)⟩
    · cases hu

/-- Arrays of rank 4 side by side along the second axis. -/
theorem Between.append {a b c d e : Nat} (h : t.Between lo hi) (hu : u.Between lo hi)
    (ht : t.shape = [a, b, d, e]) (hs : u.shape = [a, c, d, e]) {v : Tensor ℝ}
    (hv : append 1 t u = .ok v) : v.shape = [a, b + c, d, e] ∧ v.Between lo hi := by
  rw [append_of_single (by simp [rank, ht]) (by simp [ht, hs]) h.kind_single hu.kind_single] at hv
  simp only [size, ht, hs, List.getD_cons_succ, List.getD_cons_zero, List.set_cons_succ,
    List.set_cons_zero] at hv
  cases hv
  refine ⟨rfl, between_ofFn fun index hw => ?_⟩
  obtain ⟨i, j, k, l, rfl, hi, hj, hk, hl⟩ := hw.exists_four
  simp only [List.getD_cons_succ, List.getD_cons_zero, List.set_cons_succ, List.set_cons_zero]
  split
  next hlt => exact h.mem _ (ht ▸ within_four hi hlt hk hl)
  next hle => exact hu.mem _ (hs ▸ within_four hi (by omega) hk hl)

end Tensor

end MultiViewDepth
