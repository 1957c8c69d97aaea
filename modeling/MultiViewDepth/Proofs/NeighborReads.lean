import MultiViewDepth.Proofs.BilinearReads
import MultiViewDepth.Proofs.PixelViews

/-!
Where maps are read for the neighbors of a pixel.

A neighbor is aimed at in pixels: a pixel, a step of the pattern and a learned offset. Grids place
the centers of the outer pixels at -1 and 1, maps their outer edges. What is read therefore lies off
its target, except at the middle of an axis, but inside the frame never by more than half a pixel.
-/
namespace MultiViewDepth

open Tensor Arithmetic

section Positions

variable {size : Nat}

/-- The position at which an axis is read for a target, both in pixels. -/
noncomputable def readPosition (size : Nat) (t : ℝ) : ℝ := t * size / (size - 1) - 1 / (2 : Nat)

/-- The normalization of grids and that of maps differ by half a pixel at either end. -/
theorem position_normalize (hsize : 2 ≤ size) (t : ℝ) :
    Sampling.position size (normalize size t) = readPosition size t := by
  have hpos : (size : ℝ) - 1 ≠ 0 := by
    have : (2 : ℝ) ≤ size := by exact_mod_cast hsize
    linarith
  rw [Sampling.position_real, normalize, affine_real, readPosition]
  push_cast
  field_simp
  ring

/-- How the positions that are read lie to their targets along an axis. -/
structure ReadsNearTargets (size : Nat) : Prop where
  strictMono : StrictMono (readPosition size)
  near : ∀ t ∈ Set.Icc (0 : ℝ) (size - 1), |readPosition size t - t| ≤ 1 / 2
  fixed_iff : ∀ t, readPosition size t = t ↔ t = (size - 1) / 2

theorem readsNearTargets (hsize : 2 ≤ size) : ReadsNearTargets size := by
  have hpos : (0 : ℝ) < size - 1 := by
    have : (2 : ℝ) ≤ size := by exact_mod_cast hsize
    linarith
  -- the drift grows evenly, from half a pixel outwards at one end to as much at the other
  have hdrift (t : ℝ) : readPosition size t - t = (t - (size - 1) / 2) / (size - 1) := by
    rw [readPosition, Nat.cast_ofNat]
    field_simp
    ring
  constructor
  · intro t t' h
    have hmoved : (t - (size - 1) / 2) / (size - 1) < (t' - (size - 1) / 2) / ((size : ℝ) - 1) :=
      div_lt_div_of_pos_right (by linarith) hpos
    linarith [hdrift t, hdrift t']
  · rintro t ⟨hlow, hhigh⟩
    rw [hdrift, abs_div, abs_of_pos hpos, div_le_iff₀ hpos]
    exact abs_le.2 ⟨by linarith, by linarith⟩
  · intro t
    rw [← sub_eq_zero, hdrift, div_eq_zero_iff, or_iff_left hpos.ne', sub_eq_zero]

end Positions

section Grids

variable {batch channels height width : Nat} {learned map : Tensor ℝ} {pattern : Pattern}

namespace NeighborGrid

noncomputable def aim (learned : Tensor ℝ) (pattern : Pattern) (b : Nat)
    (n : Fin pattern.length) (y x : Nat) : ℝ × ℝ :=
  (x + (pattern.get n).dx.toInt + learned.get [b, 2 * n, y, x],
    y + (pattern.get n).dy.toInt + learned.get [b, 2 * n + 1, y, x])

/-- Block `n` of rows of a grid holds the aims at neighbor `n`, column first. -/
theorem build_ok (hlearned : learned.IsSingle [batch, 2 * pattern.length, height, width])
    (hpattern : pattern ≠ []) :
    ∃ grid, build learned pattern = .ok grid ∧ grid.neighbors = pattern.length ∧
      grid.height = height ∧ grid.width = width ∧
      grid.points.IsSingle [batch, pattern.length * height, width, 2] ∧
      ∀ b (n : Fin pattern.length) y x, b < batch → y < height → x < width →
        let aimed := aim learned pattern b n y x
        grid.points.get [b, n * height + y, x, 0] = normalize width aimed.1 ∧
          grid.points.get [b, n * height + y, x, 1] = normalize height aimed.2 := by
  have hlength : pattern.length ≠ 0 := fun h => hpattern (List.length_eq_zero_iff.1 h)
  simp only [build, sizes4_eq_ok.2 hlearned.shape_eq, ok_bind, hlength, ne_eq, not_true, or_self,
    if_false, compute_of_single hlearned.kind_eq, pure_eq_ok]
  refine ⟨_, rfl, rfl, rfl, rfl, ⟨rfl, rfl⟩, fun b n y x hb hy hx => ?_⟩
  have hrow := stacked_row_lt n.isLt hy
  obtain ⟨hdiv, hmod⟩ := stacked_row (k := n.val) hy
  have hstep : pattern.toArray.getD n Offset.center = pattern.get n := by
    simp [Array.getD_eq_getD_getElem?]
  have htarget (pixel : Nat) (step : Int32) (offset : ℝ) :
      target pixel step offset = pixel + step.toInt + offset := by
    rw [target, add_comm (offset + _), add_comm offset, add_assoc]
  constructor
  · rw [get_ofFn (within_four hb hrow hx (by decide))]
    simp only [hdiv, hmod, hstep, htarget, if_true, aim]
  · rw [get_ofFn (within_four hb hrow hx (by decide))]
    simp only [hdiv, hmod, hstep, htarget, one_ne_zero, if_false, aim]

/-- For every neighbor a map with repeated edges is interpolated near where the neighbor is aimed
at. -/
theorem sample_build (hlearned : learned.IsSingle [batch, 2 * pattern.length, height, width])
    (hmap : map.IsSingle [batch, channels, height, width]) (hpattern : pattern ≠ [])
    (hheight : 2 ≤ height) (hwidth : 2 ≤ width) :
    (∃ grid found u, build learned pattern = .ok grid ∧
      Sampling.sample map grid.points .border = .ok found ∧
      found.reshape [batch, channels, pattern.length, height, width] = .ok u ∧
      u.IsSingle [batch, channels, pattern.length, height, width] ∧
      ∀ b c (n : Fin pattern.length) y x, b < batch → c < channels → y < height → x < width →
        let tx := x + (pattern.get n).dx.toInt + learned.get [b, 2 * n, y, x]
        let ty := y + (pattern.get n).dy.toInt + learned.get [b, 2 * n + 1, y, x]
        u.get [b, c, n, y, x] =
          Sampling.interpolate (Sampling.extend (fun i j => map.get [b, c, i, j]) height width)
            (readPosition height ty) (readPosition width tx)) ∧
      ReadsNearTargets height ∧ ReadsNearTargets width := by
  refine ⟨?_, readsNearTargets hheight, readsNearTargets hwidth⟩
  obtain ⟨grid, hgrid, -, -, -, hpoints, haimed⟩ := build_ok hlearned hpattern
  have hheightPos : 0 < height := by omega
  have hwidthPos : 0 < width := by omega
  obtain ⟨found, u, hfound, hu, hsingle, hread⟩ :=
    Sampling.sample_stacked hmap hpoints hheightPos hwidthPos .border
  refine ⟨grid, found, u, hgrid, hfound, hu, hsingle, fun b c n y x hb hc hy hx => ?_⟩
  obtain ⟨hcolumn, hrow⟩ := haimed b n y x hb hy hx
  rw [hread b c n y x hb hc n.isLt hy hx, hcolumn, hrow, Sampling.readMap,
    Sampling.read_border hheightPos hwidthPos fun i j => map.get [b, c, i, j],
    position_normalize hheight, position_normalize hwidth, aim]

noncomputable def placesMap : Tensor ℝ := ofFn [2, 1, 2, 3] fun
  | [b, _, i, j] => 100 * b + 10 * i + j
  | _ => 0

/-- Two neighbors, both moved a quarter of a pixel along their rows. -/
noncomputable def quarterMoves : Tensor ℝ := ofFn [2, 4, 2, 3] fun
  | [_, k, _, _] => if k % 2 = 0 then 1 / 4 else 0
  | _ => 0

theorem sample_build_quarterMoves :
    quarterMoves.IsSingle [2, 4, 2, 3] ∧ placesMap.IsSingle [2, 1, 2, 3] ∧
      ∃ grid found u, build quarterMoves [⟨0, 1⟩, ⟨1, 0⟩] = .ok grid ∧
        Sampling.sample placesMap grid.points .border = .ok found ∧
        found.reshape [2, 1, 2, 2, 3] = .ok u ∧ u.get [1, 0, 1, 0, 1] = 111 + 3 / 8 := by
  have hmoves : quarterMoves.IsSingle [2, 4, 2, 3] := isSingle_ofFn _ _
  have hmap : placesMap.IsSingle [2, 1, 2, 3] := isSingle_ofFn _ _
  obtain ⟨⟨grid, found, u, hgrid, hfound, hu, -, hget⟩, -⟩ :=
    @sample_build 2 1 2 3 _ _ [⟨0, 1⟩, ⟨1, 0⟩] hmoves hmap (by simp) (by decide) (by decide)
  refine ⟨hmoves, hmap, grid, found, u, hgrid, hfound, hu, ?_⟩
  have hx : quarterMoves.get [1, 2, 0, 1] = 1 / 4 := get_ofFn (by simp) _
  have hy : quarterMoves.get [1, 3, 0, 1] = 0 := get_ofFn (by simp) _
  have hstep : Int32.toInt 1 = 1 := by decide
  have hrow : readPosition 2 1 = 3 / 2 := by norm_num [readPosition]
  have hcolumn : readPosition 3 (5 / 4) = 11 / 8 := by norm_num [readPosition]
  have hleft : placesMap.get [1, 0, 1, 1] = 111 := by
    rw [placesMap, get_ofFn (by simp)]
    norm_num
  have hright : placesMap.get [1, 0, 1, 2] = 112 := by
    rw [placesMap, get_ofFn (by simp)]
    norm_num
  -- a row behind the last one is the last row, and the columns around 11 / 8 are 1 and 2
  refine (hget 1 0 1 0 1 (by decide) (by decide) (by decide) (by decide)).trans ?_
  norm_num [hx, hy, hstep, Int32.toInt_zero, hrow, hcolumn]
  norm_num [Sampling.interpolate, Sampling.extend, Sampling.nearest, Int.toNat, hleft, hright]

end NeighborGrid

end Grids

end MultiViewDepth
