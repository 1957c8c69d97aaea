import MultiViewDepth.Scalar
import Mathlib.Analysis.SpecialFunctions.Log.Basic
import Mathlib.Tactic

/-!
Exact arithmetic: all numbers are real numbers, and conversions change nothing.

The lemmas below say in the words of real numbers what the operations on numbers mean there.
-/
namespace MultiViewDepth

-- Quotients of real numbers are those of the field, also where `Arithmetic` offers a `/`.
noncomputable instance realDiv : Div ℝ := DivInvMonoid.toDiv

noncomputable instance : Scalar ℝ where
  toZero := inferInstance
  toOne := inferInstance
  toNatCast := inferInstance
  toAdd := inferInstance
  toSub := inferInstance
  toMul := inferInstance
  toDiv := inferInstance
  toLT := inferInstance
  toLE := inferInstance
  decidableLT := Classical.decRel _
  decidableLE := Classical.decRel _
  toNat := Nat.floor
  toIntCast := inferInstance
  toOfScientific := inferInstance
  toNeg := inferInstance
  exp := Real.exp
  log := Real.log
  sqrt := Real.sqrt
  floor x := (⌊x⌋ : ℝ)
  round x := if 0 ≤ x then (⌊x + 1 / 2⌋ : ℝ) else -(⌊-x + 1 / 2⌋ : ℝ)
  isFinite _ := true

/-- The number that a double stands for. Infinities and what is no number, which exact arithmetic
lacks, are read as zero. -/
noncomputable def doubleValue (x : Float) : ℝ :=
  let bits : ℕ := x.toBits.toNat
  let sign : ℝ := if bits / 2 ^ 63 = 0 then 1 else -1
  let exponent : ℕ := bits / 2 ^ 52 % 2 ^ 11
  let fraction : ℕ := bits % 2 ^ 52
  if exponent = 2047 then 0
  else if exponent = 0 then sign * (fraction : ℝ) * (2 : ℝ) ^ (-1074 : ℤ)
  else sign * ((2 ^ 52 + fraction : ℕ) : ℝ) * (2 : ℝ) ^ ((exponent : ℤ) - 1075)

noncomputable instance : Precision ℝ ℝ where
  narrow x := x
  widen x := x
  ofDouble := doubleValue

@[simp] theorem narrow_real (x : ℝ) : (Precision.narrow x : ℝ) = x := rfl
@[simp] theorem widen_real (x : ℝ) : (Precision.widen x : ℝ) = x := rfl

namespace Arithmetic

theorem maximum_real (x bound : ℝ) : maximum x bound = max x bound := by
  rw [maximum, max_def]
  split_ifs with h h' h'
  · rfl
  · exact absurd (le_of_lt h) h'
  · exact le_antisymm h' (not_lt.1 h)
  · rfl

theorem minimum_real (x bound : ℝ) : minimum x bound = min x bound := by
  rw [minimum, min_def]
  split_ifs with h h' h'
  · exact absurd (h.trans_le h') (lt_irrefl _)
  · rfl
  · rfl
  · exact absurd (not_le.1 h') h

theorem clamp_real (lo hi x : ℝ) : clamp lo hi x = min (max x lo) hi := by
  rw [clamp, minimum_real, maximum_real]

theorem clamp_mem {lo hi : ℝ} (h : lo ≤ hi) (x : ℝ) : clamp lo hi x ∈ Set.Icc lo hi := by
  rw [clamp_real]
  exact ⟨le_min (le_max_right _ _) h, min_le_right _ _⟩

theorem affine_real (factor term x : ℝ) : affine factor term x = x * factor + term := rfl

theorem sumTo_real (n : Nat) (f : Nat → ℝ) : sumTo n f = ∑ i ∈ Finset.range n, f i := by
  induction n with
  | zero => rfl
  | succ n ih => rw [sumTo_succ, Finset.sum_range_succ, ih]

theorem maxTo_succ_real (n : Nat) (f : Nat → ℝ) : maxTo (n + 1) f = max (maxTo n f) (f n) := by
  rw [maxTo, Nat.fold_succ]
  exact maximum_real (maxTo n f) (f n)

theorem maxTo_isGreatest {n : Nat} (hn : 0 < n) (f : Nat → ℝ) :
    IsGreatest {x | ∃ k < n, x = f k} (maxTo n f) := by
  induction n, hn using Nat.le_induction with
  | base =>
    have hone : maxTo 1 f = f 0 := by
      rw [maxTo_succ_real]
      exact max_self (f 0)
    refine ⟨⟨0, Nat.one_pos, hone⟩, ?_⟩
    rintro x ⟨k, hk, rfl⟩
    obtain rfl : k = 0 := by omega
    exact hone.ge
  | succ n hn ih =>
    rw [maxTo_succ_real]
    constructor
    · rcases max_choice (maxTo n f) (f n) with h | h
      · obtain ⟨k, hk, heq⟩ := ih.1
        exact ⟨k, by omega, h.trans heq⟩
      · exact ⟨n, by omega, h⟩
    · rintro x ⟨k, hk, rfl⟩
      rcases Nat.lt_succ_iff_lt_or_eq.1 hk with hk | rfl
      · exact le_max_of_le_left (ih.2 ⟨k, hk, rfl⟩)
      · exact le_max_right _ _

end Arithmetic

end MultiViewDepth
