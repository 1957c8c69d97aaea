import MultiViewDepth.Proofs.Exact
import MultiViewDepth.Proofs.Indices
import MultiViewDepth.Sampling.Bilinear

/-!
Numbers of the texels that are looked up.

In exact arithmetic every corner of a position, brought back to the map, is numbered as a texel of
it, so maps with texels can be read at any points.
-/
namespace MultiViewDepth.Sampling

open Tensor Arithmetic

variable {height width : Nat}

theorem clampAxis_mem (size : Nat) (x : ℝ) :
    clampAxis size x ∈ Set.Icc (0 : ℝ) ((size - 1 : Nat) : ℝ) :=
  clamp_mem (Nat.cast_nonneg _) x

/-- Whatever the corner, a texel of the map is read. -/
theorem texel_lt (hheight : 0 < height) (hwidth : 0 < width) (cy cx : ℝ) :
    texel height width cy cx < height * width := by
  obtain ⟨hy, hy'⟩ := clampAxis_mem height cy
  obtain ⟨hx, hx'⟩ := clampAxis_mem width cx
  rw [Nat.cast_sub hheight, Nat.cast_one] at hy'
  rw [Nat.cast_sub hwidth, Nat.cast_one] at hx'
  have hw : (1 : ℝ) ≤ width := by exact_mod_cast hwidth
  have hpos : 0 ≤ clampAxis height cy * (width : ℝ) + clampAxis width cx := by positivity
  refine (Nat.floor_lt hpos).2 ?_
  push_cast
  nlinarith

section Lookups

variable {α : Type} [Scalar α]

theorem exists_mem_surrounding (height width : Nat) (py px : α) :
    ∃ k, k ∈ surrounding height width py px :=
  ⟨_, List.mem_cons_self⟩

theorem exists_mem_lookups (height width : Nat) (padding : Border) (gy gx : α) :
    ∃ k, k ∈ lookups height width padding gy gx := by
  cases padding <;> exact exists_mem_surrounding height width _ _

end Lookups

theorem surrounding_lt (hheight : 0 < height) (hwidth : 0 < width) (py px : ℝ) :
    ∀ k ∈ surrounding height width py px, k < height * width := by
  have hcorner := texel_lt hheight hwidth
  simp [surrounding, hcorner]

theorem lookups_lt (hheight : 0 < height) (hwidth : 0 < width) (padding : Border) (gy gx : ℝ) :
    ∀ k ∈ lookups height width padding gy gx, k < height * width := by
  cases padding <;> exact surrounding_lt hheight hwidth _ _

/-- In exact arithmetic only a map without texels cannot be read. -/
theorem found_iff {batch channels rows columns : Nat} (points : Tensor ℝ) (padding : Border) :
    (volume [batch, channels, rows, columns] = 0 ∨ ∀ b < batch, ∀ p < rows, ∀ q < columns,
      ∀ k ∈ lookups height width padding (points.get [b, p, q, 1]) (points.get [b, p, q, 0]),
        k < height * width) ↔
    ¬ (height * width = 0 ∧ volume [batch, channels, rows, columns] ≠ 0) := by
  constructor
  · rintro hfound ⟨harea, hvolume⟩
    obtain ⟨hbatch, -, hrows, hcolumns⟩ : batch ≠ 0 ∧ channels ≠ 0 ∧ rows ≠ 0 ∧ columns ≠ 0 := by
      simpa [volume_cons, not_or] using hvolume
    obtain ⟨k, hk⟩ := exists_mem_lookups height width padding (points.get [0, 0, 0, 1])
      (points.get [0, 0, 0, 0])
    have hlt := hfound.resolve_left hvolume 0 (by omega) 0 (by omega) 0 (by omega) k hk
    omega
  · intro hread
    refine or_iff_not_imp_left.2 fun hvolume b _ p _ q _ => ?_
    have harea : height * width ≠ 0 := fun harea => hread ⟨harea, hvolume⟩
    obtain ⟨hheight, hwidth⟩ := Nat.mul_ne_zero_iff.1 harea
    exact lookups_lt (Nat.pos_of_ne_zero hheight) (Nat.pos_of_ne_zero hwidth) padding _ _

end MultiViewDepth.Sampling
