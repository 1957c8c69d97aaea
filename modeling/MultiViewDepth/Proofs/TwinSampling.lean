import MultiViewDepth.Proofs.TexelAddresses
import MultiViewDepth.Proofs.TwinArithmetic
import MultiViewDepth.Sampling.Doubling
import MultiViewDepth.View.Reprojection

/-!
Maps that are enlarged, read between their texels or reprojected keep twins alike.

Every read hits a texel of the plane that is read, so no element sees the texels of another one.
-/
namespace MultiViewDepth

open Tensor Arithmetic

namespace Sampling

section Doubling

variable {α : Type} [Scalar α] {t : Tensor α} {batch channels height width : Nat}

theorem get_weights {size i o : Nat} (hi : i < size) (ho : o < 2 * size) :
    (weights size : Tensor α).get [i, o] = weight size i o :=
  get_ofFn (within_two hi ho) _

/-- Doubling weighs all columns and then all rows. -/
theorem double_ok (hshape : t.shape = [batch, channels, height, width])
    (hkind : t.kind = .single) :
    ∃ u, double t = .ok u ∧ u.shape = [batch, channels, 2 * height, 2 * width] ∧
      u.kind = .single ∧ ∀ b c p q, b < batch → c < channels → p < 2 * height → q < 2 * width →
        u.get [b, c, p, q] =
          sumTo height fun y => (sumTo width fun x => t.get [b, c, y, x] * weight width x q) *
            weight height y p := by
  simp only [double, sizes4_eq_ok.2 hshape, ok_bind, compute_of_single hkind]
  refine ⟨_, rfl, rfl, rfl, fun b c p q hb hc hp hq => ?_⟩
  rw [get_ofFn (within_four hb hc hp hq)]
  refine sumTo_congr fun y hy => ?_
  rw [get4_eq rfl, get_ofFn (within_four hb hc hy hq), get_weights hy hp]
  refine congrArg (· * _) (sumTo_congr fun x hx => ?_)
  rw [get4_eq hshape, get_weights hx hq]

theorem double_alike {p : Twins} {t' : Tensor α} (h : p.Alike [channels, height, width] t t') :
    Both (p.Alike [channels, 2 * height, 2 * width]) (double t) (double t') := by
  obtain ⟨u, hu, hs, hk, hget⟩ := double_ok h.shape_left h.kind_left
  obtain ⟨u', hu', hs', hk', hget'⟩ := double_ok h.shape_right h.kind_right
  refine ⟨u, u', hu, hu', hs, hs', hk, hk', fun index hw => ?_⟩
  obtain ⟨c, y, x, rfl, hc, hy, hx⟩ := hw.exists_three
  rw [hget _ c y x p.lt hc hy hx, hget' _ c y x p.lt' hc hy hx]
  refine sumTo_congr fun a ha => congrArg (· * _) (sumTo_congr fun b hb => ?_)
  rw [h.get_eq [c, a, b] (within_three hc ha hb)]

end Doubling

section Reading

variable {height width : Nat}

theorem read_congr (hheight : 0 < height) (hwidth : 0 < width) {plane plane' : Nat → ℝ}
    (h : ∀ k < height * width, plane k = plane' k) (padding : Border) (gy gx : ℝ) :
    read plane height width padding gy gx = read plane' height width padding gy gx := by
  have hcorner (cy cx w : ℝ) :
      corner plane height width cy cx w = corner plane' height width cy cx w := by
    rw [corner, corner, h _ (texel_lt hheight hwidth cy cx)]
  have hblend (py px : ℝ) : blend plane height width py px = blend plane' height width py px := by
    simp only [blend, hcorner]
  cases padding <;> exact hblend _ _

variable {map points : Tensor ℝ} {batch channels rows columns : Nat}

/-- A plane of a map by row-major texel number. -/
theorem plane_eq (hshape : map.shape = [batch, channels, height, width]) (b c : Nat) {k : Nat}
    (hk : k < height * width) :
    plane map channels height width b c k = map.get [b, c, k / width, k % width] := by
  have hwidth : 0 < width := Nat.pos_of_mul_pos_left (Nat.zero_lt_of_lt hk)
  simp only [plane, Tensor.get, hshape, place_cons, place_nil]
  congr 1
  have := Nat.div_add_mod' k width
  calc (b * channels + c) * (height * width) + k
      = (b * channels + c) * (height * width) + (k / width * width + k % width) := by rw [this]
    _ = _ := by ring

/-- Maps can be read at points, except that a map without texels can be read at no points only. -/
theorem sample_ok_of_area (hmap : map.shape = [batch, channels, height, width])
    (hkind : map.kind = .single) (hpoints : points.shape = [batch, rows, columns, 2])
    (hpointsKind : points.kind = .single) (harea : height * width = 0 → rows * columns = 0)
    (padding : Border) :
    ∃ u, sample map points padding = .ok u ∧ u.shape = [batch, channels, rows, columns] ∧
      u.kind = .single ∧ ∀ b c y x, b < batch → c < channels → y < rows → x < columns →
        u.get [b, c, y, x] =
          read (fun k => map.get [b, c, k / width, k % width]) height width padding
            (points.get [b, y, x, 1]) (points.get [b, y, x, 0]) := by
  have hread : ¬ (height * width = 0 ∧ volume [batch, channels, rows, columns] ≠ 0) := by
    rintro ⟨hzero, hvolume⟩
    simp [harea hzero] at hvolume
  simp only [sample, sizes4_eq_ok.2 hmap, sizes4_eq_ok.2 hpoints, ok_bind, and_self, if_true,
    requireSingleEntries_of_single hpointsKind, found_iff, hread, not_false_eq_true,
    compute_of_single hkind]
  refine ⟨_, rfl, rfl, rfl, fun b c y x hb hc hy hx => ?_⟩
  have hpos : 0 < height * width := Nat.pos_of_ne_zero fun hzero =>
    absurd (harea hzero) (Nat.mul_pos (Nat.zero_lt_of_lt hy) (Nat.zero_lt_of_lt hx)).ne'
  rw [get_ofFn (within_four hb hc hy hx)]
  exact read_congr (Nat.pos_of_mul_pos_right hpos) (Nat.pos_of_mul_pos_left hpos)
    (fun k hk => plane_eq hmap b c hk) padding _ _

theorem sample_ok (hmap : map.shape = [batch, channels, height, width])
    (hkind : map.kind = .single) (hpoints : points.shape = [batch, rows, columns, 2])
    (hpointsKind : points.kind = .single) (hheight : 0 < height) (hwidth : 0 < width)
    (padding : Border) :
    ∃ u, sample map points padding = .ok u ∧ u.shape = [batch, channels, rows, columns] ∧
      u.kind = .single ∧ ∀ b c y x, b < batch → c < channels → y < rows → x < columns →
        u.get [b, c, y, x] =
          read (fun k => map.get [b, c, k / width, k % width]) height width padding
            (points.get [b, y, x, 1]) (points.get [b, y, x, 0]) :=
  sample_ok_of_area hmap hkind hpoints hpointsKind
    (fun hzero => absurd hzero (Nat.mul_pos hheight hwidth).ne') padding

theorem sample_alike {p : Twins} {map' points' : Tensor ℝ}
    (hmap : p.Alike [channels, height, width] map map')
    (hpoints : p.Alike [rows, columns, 2] points points') (hheight : 0 < height)
    (hwidth : 0 < width) (padding : Border) :
    Both (p.Alike [channels, rows, columns]) (sample map points padding)
      (sample map' points' padding) := by
  obtain ⟨u, hu, hs, hk, hget⟩ := sample_ok hmap.shape_left hmap.kind_left hpoints.shape_left
    hpoints.kind_left hheight hwidth padding
  obtain ⟨u', hu', hs', hk', hget'⟩ := sample_ok hmap.shape_right hmap.kind_right
    hpoints.shape_right hpoints.kind_right hheight hwidth padding
  refine ⟨u, u', hu, hu', hs, hs', hk, hk', fun index hw => ?_⟩
  obtain ⟨c, y, x, rfl, hc, hy, hx⟩ := hw.exists_three
  rw [hget _ c y x p.lt hc hy hx, hget' _ c y x p.lt' hc hy hx,
    hpoints.get_eq [y, x, 0] (within_three hy hx (by decide)),
    hpoints.get_eq [y, x, 1] (within_three hy hx (by decide))]
  refine read_congr hheight hwidth (fun k hk => hmap.get_eq [c, k / width, k % width] ?_)
    padding _ _
  exact within_three hc (Nat.div_lt_of_lt_mul (by rwa [Nat.mul_comm])) (Nat.mod_lt _ hwidth)

end Reading

end Sampling

end MultiViewDepth
