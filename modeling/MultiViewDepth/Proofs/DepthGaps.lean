import MultiViewDepth.Matching.NeighborWeight
import MultiViewDepth.Proofs.BilinearReads
import MultiViewDepth.Proofs.LadderRungs
import MultiViewDepth.Proofs.Probabilities

/-!
Neighbors that count by their depth.

How much a neighbor counts is decided by the inverse depth that is read there, less the pixel's own.
What shifts both alike cannot be seen: around one estimate all rungs of a ladder that are not
clamped give neighbors the same weights.
-/
namespace MultiViewDepth

open Tensor Arithmetic

namespace Sampling

variable {batch height width : Nat} {points : Tensor ℝ}

/-- Reading goes through affine changes of a map, since the weights of the texels sum to 1. -/
theorem readMap_affine (hheight : 0 < height) (hwidth : 0 < width) (map : Nat → Nat → ℝ)
    (factor term gy gx : ℝ) :
    readMap (fun i j => affine factor term (map i j)) height width .border gy gx =
      affine factor term (readMap map height width .border gy gx) := by
  rw [readMap, read_border hheight hwidth fun i j => affine factor term (map i j), readMap,
    read_border hheight hwidth map]
  simp only [interpolate, extend, affine_real]
  ring

/-- Whether maps can be read at some points is decided by their sides. -/
theorem sample_outcome (points : Tensor ℝ) (padding : Border) (batch height width : Nat) :
    (∃ e, ∀ channels (map : Tensor ℝ), 0 < channels →
      map.IsSingle [batch, channels, height, width] → sample map points padding = .error e) ∨
    ∃ rows columns, points.shape = [batch, rows, columns, 2] ∧
      ∀ channels (map : Tensor ℝ), 0 < channels → map.IsSingle [batch, channels, height, width] →
        ∃ u, sample map points padding = .ok u ∧ u.IsSingle [batch, channels, rows, columns] ∧
          ∀ b c p q, b < batch → c < channels → p < rows → q < columns →
            u.get [b, c, p, q] = readMap (fun i j => map.get [b, c, i, j]) height width padding
              (points.get [b, p, q, 1]) (points.get [b, p, q, 0]) := by
  cases hsizes : points.sizes4 with
  | error e =>
    refine .inl ⟨e, fun channels map _ hmap => ?_⟩
    simp only [sample, sizes4_eq_ok.2 hmap.shape_eq, hsizes, ok_bind, error_bind]
  | ok sizes =>
    obtain ⟨pointBatch, rows, columns, coordinates⟩ := sizes
    by_cases hfit : pointBatch = batch ∧ coordinates = 2
    · obtain ⟨rfl, rfl⟩ := hfit
      cases hentries : points.requireSingleEntries with
      | error e =>
        refine .inl ⟨e, fun channels map _ hmap => ?_⟩
        simp only [sample, sizes4_eq_ok.2 hmap.shape_eq, hsizes, hentries, ok_bind, error_bind,
          and_self, if_true]
      | ok _ =>
        have hvolume {channels : Nat} (hchannels : 0 < channels) :
            volume [pointBatch, channels, rows, columns] ≠ 0 ↔
              volume [pointBatch, rows, columns] ≠ 0 := by
          simp only [volume_cons, ne_eq, mul_eq_zero, hchannels.ne', false_or]
        by_cases hempty : height * width = 0 ∧ volume [pointBatch, rows, columns] ≠ 0
        · refine .inl ⟨.tensor, fun channels map hchannels hmap => ?_⟩
          simp only [sample, sizes4_eq_ok.2 hmap.shape_eq, hsizes, hentries, ok_bind, and_self,
            if_true, found_iff, ite_not, hvolume hchannels, if_pos hempty]
          rfl
        · refine .inr ⟨rows, columns, sizes4_eq_ok.1 hsizes, fun channels map hchannels hmap => ?_⟩
          simp only [sample, sizes4_eq_ok.2 hmap.shape_eq, hsizes, hentries, ok_bind, and_self,
            if_true, found_iff, ite_not, hvolume hchannels, if_neg hempty,
            compute_of_single hmap.kind_eq]
          refine ⟨_, rfl, isSingle_ofFn _ _, fun b c p q hb hc hp hq => ?_⟩
          have hwithin := within_four hb hc hp hq
          -- where a point is read there are texels
          have harea : height * width ≠ 0 := fun hzero =>
            hempty ⟨hzero, (hvolume hchannels).1 (volume_ne_zero hwithin)⟩
          obtain ⟨hheight, hwidth⟩ := Nat.mul_ne_zero_iff.1 harea
          rw [get_ofFn hwithin]
          exact read_congr (Nat.pos_of_ne_zero hheight) (Nat.pos_of_ne_zero hwidth)
            (fun k hk => plane_eq hmap.shape_eq b c hk) padding _ _
    · refine .inl ⟨.shapeMismatch .samplingGrid [batch, rows, columns, 2] points.shape,
        fun channels map _ hmap => ?_⟩
      simp only [sample, sizes4_eq_ok.2 hmap.shape_eq, hsizes, ok_bind, hfit, if_false]
      rfl

end Sampling

namespace NeighborGrid

variable {grid : NeighborGrid ℝ} {batch rows columns height width b n y x c : Nat}

/-- Coordinate `c` of the point at which pixel `(x, y)` reads its neighbor `n`. The points of a grid
follow each other neighbor by neighbor, row by row. -/
noncomputable def coordinate (grid : NeighborGrid ℝ) (height width b n y x c : Nat) : ℝ :=
  Elements.entry grid.points.elements.singles
    ((((b * grid.neighbors + n) * height + y) * width + x) * 2 + c)

theorem coordinate_eq (hshape : grid.points.shape = [batch, grid.neighbors * height, width, 2]) :
    grid.coordinate height width b n y x c = grid.points.get [b, n * height + y, x, c] := by
  simp only [coordinate, Tensor.get, hshape, place_cons, place_nil]
  congr 1
  ring

noncomputable def readAt (grid : NeighborGrid ℝ) (map : Nat → Nat → ℝ)
    (height width b n y x : Nat) : ℝ :=
  Sampling.readMap map height width .border (grid.coordinate height width b n y x 1)
    (grid.coordinate height width b n y x 0)

/-- Pixel `(x, y)` of neighbor `n` as a place among the points, however these are laid out in rows
and columns. -/
theorem place_stacked (harea : rows * columns = grid.neighbors * (height * width))
    (hn : n < grid.neighbors) (hy : y < height) (hx : x < width) :
    ∃ p q, p < rows ∧ q < columns ∧ ∀ m, (m * rows + p) * columns + q =
      ((m * grid.neighbors + n) * height + y) * width + x := by
  have hflat : (n * height + y) * width + x < rows * columns := by
    rw [harea, ← Nat.mul_assoc]
    exact stacked_row_lt (stacked_row_lt hn hy) hx
  have hcolumns : 0 < columns := Nat.pos_of_mul_pos_left (Nat.zero_lt_of_lt hflat)
  refine ⟨((n * height + y) * width + x) / columns, ((n * height + y) * width + x) % columns,
    (Nat.div_lt_iff_lt_mul hcolumns).2 hflat, Nat.mod_lt _ hcolumns, fun m => ?_⟩
  have hsplit := Nat.div_add_mod' ((n * height + y) * width + x) columns
  calc _ = m * (rows * columns) + (((n * height + y) * width + x) / columns * columns +
        ((n * height + y) * width + x) % columns) := by ring
    _ = m * (grid.neighbors * (height * width)) + ((n * height + y) * width + x) := by
        rw [hsplit, harea]
    _ = _ := by ring

def Fits (grid : NeighborGrid ℝ) (batch height width : Nat) : Prop :=
  ∀ channels (map : Tensor ℝ), 0 < channels → map.IsSingle [batch, channels, height, width] →
    ∃ found around, Sampling.sample map grid.points .border = .ok found ∧
      found.reshape [batch, channels, grid.neighbors, height, width] = .ok around ∧
      around.IsSingle [batch, channels, grid.neighbors, height, width] ∧
      ∀ b k n y x, b < batch → k < channels → n < grid.neighbors → y < height → x < width →
        around.get [b, k, n, y, x] =
          grid.readAt (fun i j => map.get [b, k, i, j]) height width b n y x

/-- No map of these sides can be read at the points of the grid, always for the same reason. -/
def Refuses (grid : NeighborGrid ℝ) (batch height width : Nat) (e : Failure) : Prop :=
  ∀ channels (map : Tensor ℝ), 0 < channels → map.IsSingle [batch, channels, height, width] →
    (Sampling.sample map grid.points .border >>= fun found =>
      found.reshape [batch, channels, grid.neighbors, height, width]) = .error e

theorem fits_of_points
    (hpoints : grid.points.IsSingle [batch, grid.neighbors * height, width, 2]) :
    grid.Fits batch height width := by
  intro channels map _ hmap
  obtain ⟨found, around, hfound, haround, hsingle, hread⟩ :=
    Sampling.sample_stacked_of_area hmap hpoints id .border
  refine ⟨found, around, hfound, haround, hsingle, fun b k n y x hb hk hn hy hx => ?_⟩
  rw [hread b k n y x hb hk hn hy hx, readAt, coordinate_eq hpoints.shape_eq,
    coordinate_eq hpoints.shape_eq]

/-- Whether a grid can be read off a map is decided by the sides of the map. -/
theorem refuses_or_fits (grid : NeighborGrid ℝ) (batch height width : Nat) :
    (∃ e, grid.Refuses batch height width e) ∨ grid.Fits batch height width := by
  obtain ⟨e, hrefused⟩ | ⟨rows, columns, hshape, hread⟩ :=
    Sampling.sample_outcome grid.points .border batch height width
  · refine .inl ⟨e, fun channels map hchannels hmap => ?_⟩
    rw [hrefused channels map hchannels hmap, error_bind]
  have hvolume (channels : Nat) : volume [batch, channels, rows, columns] =
      volume [batch, channels, grid.neighbors, height, width] ↔ channels = 0 ∨
        batch * (rows * columns) = batch * (grid.neighbors * (height * width)) := by
    simp only [volume_cons, volume_nil, mul_one, Nat.mul_left_comm batch channels]
    exact mul_eq_mul_left_iff.trans or_comm
  by_cases harea : batch * (rows * columns) = batch * (grid.neighbors * (height * width))
  · refine .inr fun channels map hchannels hmap => ?_
    obtain ⟨found, hfound, hfoundSingle, hentry⟩ := hread channels map hchannels hmap
    obtain ⟨around, haround, hsingle, hplaced⟩ :=
      hfoundSingle.reshape _ ((hvolume channels).2 (.inr harea))
    refine ⟨found, around, hfound, haround, hsingle, fun b k n y x hb hk hn hy hx => ?_⟩
    obtain ⟨p, q, hp, hq, hplace⟩ := place_stacked
      (Nat.eq_of_mul_eq_mul_left (Nat.zero_lt_of_lt hb) harea) hn hy hx
    have hpoint (c : Nat) :
        grid.points.get [b, p, q, c] = grid.coordinate height width b n y x c := by
      simp only [Tensor.get, hshape, place_cons, place_nil, coordinate, Nat.zero_mul, Nat.zero_add,
        hplace]
    have hsame : place 0 [batch, channels, grid.neighbors, height, width] [b, k, n, y, x] =
        place 0 [batch, channels, rows, columns] [b, k, p, q] := by
      simp only [place_cons, place_nil, Nat.zero_mul, Nat.zero_add, hplace]
    rw [hplaced _ _ hsame, hentry b k p q hb hk hp hq, hpoint, hpoint, readAt]
  · refine .inl ⟨.tensor, fun channels map hchannels hmap => ?_⟩
    obtain ⟨found, hfound, hfoundSingle, -⟩ := hread channels map hchannels hmap
    have hne : ¬ volume found.shape =
        volume [batch, channels, grid.neighbors, height, width] := by
      rw [hfoundSingle.shape_eq, hvolume]
      exact not_or.2 ⟨hchannels.ne', harea⟩
    rw [hfound, ok_bind, Tensor.reshape, dif_neg hne]

end NeighborGrid

namespace NeighborWeight

variable {range : DepthRange ℝ} {interval : ℝ} {batch count height width : Nat}
  {depth : Tensor ℝ} {grid : NeighborGrid ℝ}

noncomputable def inverseGap (depth : Tensor ℝ) (grid : NeighborGrid ℝ)
    (height width b k n y x : Nat) : ℝ :=
  grid.readAt (fun i j => 1 / depth.get [b, k, i, j]) height width b n y x -
    1 / depth.get [b, k, y, x]

/-- A grid that refuses a map leaves no depth weight. -/
theorem ofDepth_of_refuses {e : Failure} (hgrid : grid.Refuses batch height width e)
    (hcount : 0 < count) (hdepth : depth.IsSingle [batch, count, height, width]) :
    ofDepth depth grid range interval = .error e := by
  have hinverse := hgrid count _ hcount (hdepth.map (normalizedInverse range))
  simp only [ofDepth, sizes4_eq_ok.2 hdepth.shape_eq, ok_bind, ← bind_assoc, hinverse, error_bind]

/-- Only the gap between the inverse depths of a neighbor and of the pixel counts, in units of the
range. -/
theorem ofDepth_of_fits (hgrid : grid.Fits batch height width) (hcount : 0 < count)
    (hdepth : depth.IsSingle [batch, count, height, width]) :
    ∃ u, ofDepth depth grid range interval = .ok u ∧
      u.IsSingle [batch, count, grid.neighbors, height, width] ∧
      ∀ b k n y x, b < batch → k < count → n < grid.neighbors → y < height → x < width →
        u.get [b, k, n, y, x] = proximity interval
          (inverseGap depth grid height width b k n y x / range.inverseSpan) := by
  have hinverse := hdepth.map (normalizedInverse range)
  obtain ⟨found, around, hfound, haround, haroundSingle, hneighbor⟩ :=
    hgrid count _ hcount hinverse
  obtain ⟨own, hown, hownSingle, hspread⟩ := hinverse.unsqueeze
    (show 2 ≤ [batch, count, height, width].length by simp)
  have hownSingle : own.IsSingle ([batch, count, grid.neighbors, height, width].set 2 1) :=
    hownSingle
  obtain ⟨gap, hgap, hgapSingle, hsub⟩ := haroundSingle.zip_along hownSingle (· - ·)
  have hkind : ¬ (gap.kind = .word ∨ gap.kind = .long) := by
    rw [hgapSingle.kind_eq]
    simp
  refine ⟨gap.map (proximity interval), ?_, hgapSingle.map _, fun b k n y x hb hk hn hy hx => ?_⟩
  · simp only [ofDepth, sizes4_eq_ok.2 hdepth.shape_eq, ok_bind, hfound, haround, hown, hgap,
      hkind, if_false, pure_eq_ok]
  · have hw : Within [b, k, n, y, x] [batch, count, grid.neighbors, height, width] :=
      within_five hb hk hn hy hx
    have hentry (i j : Nat) (hi : i < height) (hj : j < width) :
        (depth.map (normalizedInverse range)).get [b, k, i, j] =
          Arithmetic.affine (1 / range.inverseSpan) (-range.inverseFar / range.inverseSpan)
            (1 / depth.get [b, k, i, j]) :=
      get_map hdepth.kind_eq (hdepth.shape_eq ▸ within_four hb hk hi hj) _
    have hown : own.get ([b, k, n, y, x].set 2 0) =
        (depth.map (normalizedInverse range)).get [b, k, y, x] := hspread [b, k, y, x] (by simp)
    have hheight : 0 < height := Nat.zero_lt_of_lt hy
    have hwidth : 0 < width := Nat.zero_lt_of_lt hx
    rw [get_map hgapSingle.kind_eq (hgapSingle.shape_eq ▸ hw), hsub _ hw, hown,
      hneighbor b k n y x hb hk hn hy hx, hentry y x hy hx, NeighborGrid.readAt,
      Sampling.readMap_congr hheight hwidth hentry, Sampling.readMap_affine hheight hwidth,
      inverseGap, NeighborGrid.readAt]
    congr 1
    simp only [affine_real]
    ring

/-- A gap between inverse depths ignores a shift that all of them share. -/
theorem inverseGap_of_shift {depth depth' : Tensor ℝ} {b k k' y x : Nat} {shift : ℝ}
    (h : ∀ i j, i < height → j < width →
      1 / depth'.get [b, k', i, j] = 1 / depth.get [b, k, i, j] + shift)
    (hy : y < height) (hx : x < width) (grid : NeighborGrid ℝ) (n : Nat) :
    inverseGap depth' grid height width b k' n y x =
      inverseGap depth grid height width b k n y x := by
  have hheight : 0 < height := Nat.zero_lt_of_lt hy
  have hwidth : 0 < width := Nat.zero_lt_of_lt hx
  have haffine (i j : Nat) (hi : i < height) (hj : j < width) : 1 / depth'.get [b, k', i, j] =
      Arithmetic.affine 1 shift (1 / depth.get [b, k, i, j]) := by
    rw [h i j hi hj, affine_real, mul_one]
  rw [inverseGap, inverseGap, NeighborGrid.readAt, NeighborGrid.readAt,
    Sampling.readMap_congr hheight hwidth haffine, Sampling.readMap_affine hheight hwidth,
    h y x hy hx, affine_real]
  ring

/-- All rungs of a free ladder give every neighbor the weight that the estimate gives it. A grid
that does not fit the one does not fit the other. -/
theorem ofDepth_ladder {estimate : Tensor ℝ} (range : DepthRange ℝ) (interval : ℝ)
    (hestimate : estimate.IsSingle [batch, 1, height, width]) (hcount : 0 < count)
    (hfree : ∀ b y x, b < batch → y < height → x < width →
      Hypotheses.AllFree range count interval (estimate.get [b, 0, y, x])) :
    ∃ t, Hypotheses.ladder estimate range count interval = .ok t ∧
      t.IsSingle [batch, count, height, width] ∧ ∀ grid : NeighborGrid ℝ,
        (∀ e, ofDepth estimate grid range interval = .error e →
          ofDepth t grid range interval = .error e) ∧
        (∀ own, ofDepth estimate grid range interval = .ok own →
          ∃ u, ofDepth t grid range interval = .ok u ∧
            u.IsSingle [batch, count, grid.neighbors, height, width] ∧
            ∀ b k n y x, b < batch → k < count → n < grid.neighbors → y < height → x < width →
              u.get [b, k, n, y, x] = own.get [b, 0, n, y, x]) ∧
        (grid.points.IsSingle [batch, grid.neighbors * height, width, 2] →
          ∃ own, ofDepth estimate grid range interval = .ok own) := by
  obtain ⟨t, ht, hsingle, -⟩ := Hypotheses.ladder_ok hestimate
  refine ⟨t, ht, hsingle, fun grid => ⟨fun e hown => ?_, fun own hown => ?_,
    fun hpoints => ?_⟩⟩
  · obtain ⟨e', hrefuses⟩ | hfits := grid.refuses_or_fits batch height width
    · obtain rfl : e = e' :=
        Except.error.inj (hown.symm.trans (ofDepth_of_refuses hrefuses Nat.one_pos hestimate))
      exact ofDepth_of_refuses hrefuses hcount hsingle
    · obtain ⟨own, hfits, -⟩ := ofDepth_of_fits hfits Nat.one_pos hestimate
      cases hown.symm.trans hfits
  · obtain ⟨e', hrefuses⟩ | hfits := grid.refuses_or_fits batch height width
    · cases hown.symm.trans (ofDepth_of_refuses hrefuses Nat.one_pos hestimate)
    · obtain ⟨own', hown', -, howned⟩ := ofDepth_of_fits hfits Nat.one_pos hestimate
      obtain rfl : own = own' := Except.ok.inj (hown.symm.trans hown')
      obtain ⟨u, hu, husingle, hweight⟩ := ofDepth_of_fits hfits hcount hsingle
      refine ⟨u, hu, husingle, fun b k n y x hb hk hn hy hx => ?_⟩
      have hshift (i j : Nat) (hi : i < height) (hj : j < width) : 1 / t.get [b, k, i, j] =
          1 / estimate.get [b, 0, i, j] +
            ((k : ℝ) - (count / 2 : Nat)) * (interval * (1 / range.near - 1 / range.far)) := by
        rw [Hypotheses.one_div_ladder hestimate ht hb hk hi hj (hfree b i j hb hi hj k hk),
          Hypotheses.endless]
      rw [hweight b k n y x hb hk hn hy hx, howned b 0 n y x hb Nat.one_pos hn hy hx,
        inverseGap_of_shift hshift hy hx]
  · obtain ⟨own, hown, -⟩ :=
      ofDepth_of_fits (NeighborGrid.fits_of_points hpoints) Nat.one_pos hestimate
    exact ⟨own, hown⟩

/-- A row of two pixels with inverse depths 3 / 4 and 5 / 8. -/
noncomputable def slopedRow : Tensor ℝ := ofFn [1, 1, 1, 2] fun
  | [_, _, _, x] => if x = 0 then (4 : Nat) / (3 : Nat) else (8 : Nat) / (5 : Nat)
  | _ => 0

/-- A grid in which both pixels of a row read what lies midway between them. -/
noncomputable def midwayGrid : NeighborGrid ℝ where
  points := ofFn [1, 1, 2, 2] fun _ => 0
  neighbors := 1
  height := 1
  width := 2

theorem ofDepth_ladder_sloped :
    slopedRow.IsSingle [1, 1, 1, 2] ∧
      (∀ b y x, b < 1 → y < 1 → x < 2 →
        Hypotheses.AllFree unitRange 3 (1 / 4) (slopedRow.get [b, 0, y, x])) ∧
      ∃ t own u, Hypotheses.ladder slopedRow unitRange 3 (1 / 4 : ℝ) = .ok t ∧
        ofDepth slopedRow midwayGrid unitRange (1 / 4 : ℝ) = .ok own ∧
        ofDepth t midwayGrid unitRange (1 / 4 : ℝ) = .ok u ∧
        u.get [0, 2, 0, 0, 1] = own.get [0, 0, 0, 0, 1] := by
  have hrow : slopedRow.IsSingle [1, 1, 1, 2] := isSingle_ofFn _ _
  have hfree (b y x : Nat) (hb : b < 1) (hy : y < 1) (hx : x < 2) :
      Hypotheses.AllFree unitRange 3 (1 / 4) (slopedRow.get [b, 0, y, x]) := by
    have hdepth : slopedRow.get [b, 0, y, x] =
        if x = 0 then ((4 : Nat) : ℝ) / (3 : Nat) else (8 : Nat) / (5 : Nat) :=
      get_ofFn (within_four hb Nat.one_pos hy hx) _
    intro k hk
    rw [hdepth, Hypotheses.Free, Hypotheses.endless, unitRange]
    interval_cases x <;> interval_cases k <;> norm_num
  obtain ⟨t, ht, -, hweights⟩ :=
    ofDepth_ladder unitRange (1 / 4) hrow (show 0 < 3 by decide) hfree
  obtain ⟨-, hequal, hfits⟩ := hweights midwayGrid
  obtain ⟨own, hown⟩ := hfits ⟨rfl, rfl⟩
  obtain ⟨u, hu, -, hget⟩ := hequal own hown
  exact ⟨hrow, hfree, t, own, u, ht, hown, hu, hget 0 2 0 0 1 Nat.one_pos (by decide)
    Nat.one_pos Nat.one_pos Nat.one_lt_two⟩

end NeighborWeight

end MultiViewDepth
