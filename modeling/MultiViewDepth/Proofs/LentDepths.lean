import MultiViewDepth.Proofs.BilinearReads
import MultiViewDepth.Proofs.HypothesisOrder
import MultiViewDepth.Proofs.PixelViews

/-!
What neighbors lend.

Every pixel sorts its own depths together with the middle hypothesis as it is read at each of its
neighbors. Nothing else comes in and nothing is lost.
-/
namespace MultiViewDepth

open Tensor Arithmetic

noncomputable def Tensor.column (t : Tensor ℝ) (b y x : Nat) : List ℝ :=
  (List.range (t.size 1)).map fun k => t.get [b, k, y, x]

/-- What pixel `(x, y)` reads off a map at each of its neighbors. -/
noncomputable def NeighborGrid.borrow (grid : NeighborGrid ℝ) (map : Nat → Nat → ℝ) (b y x : Nat) :
    List ℝ :=
  (List.range grid.neighbors).map fun n =>
    Sampling.readMap map grid.height grid.width .border
      (grid.points.get [b, n * grid.height + y, x, 1])
      (grid.points.get [b, n * grid.height + y, x, 0])

theorem NeighborGrid.borrow_congr {grid : NeighborGrid ℝ} (hheight : 0 < grid.height)
    (hwidth : 0 < grid.width) {map map' : Nat → Nat → ℝ}
    (h : ∀ i j, i < grid.height → j < grid.width → map i j = map' i j) (b y x : Nat) :
    grid.borrow map b y x = grid.borrow map' b y x :=
  List.map_congr_left fun _ _ => Sampling.readMap_congr hheight hwidth h .border _ _

section Lending

variable {batch count more height width : Nat} {depth lent : Tensor ℝ} {grid : NeighborGrid ℝ}

theorem Tensor.IsSingle.column_eq (h : depth.IsSingle [batch, count, height, width])
    (b y x : Nat) :
    depth.column b y x = (List.range count).map fun k => depth.get [b, k, y, x] := by
  rw [column, size, h.shape_eq]
  rfl

theorem concat_columns (hdepth : depth.IsSingle [batch, count, height, width])
    (hlent : lent.IsSingle [batch, more, height, width]) :
    ∃ all, concat 1 [depth, lent] = .ok all ∧ all.IsSingle [batch, count + more, height, width] ∧
      ∀ b y x, b < batch → y < height → x < width →
        all.column b y x = depth.column b y x ++ lent.column b y x := by
  obtain ⟨all, hall, hsingle, hget⟩ := hdepth.append
    (show [batch, count, height, width][1]? = some count from rfl) hlent
  have hsingle : all.IsSingle [batch, count + more, height, width] := hsingle
  refine ⟨all, (Twins.concat_pair 1 depth lent).trans hall, hsingle, fun b y x hb hy hx => ?_⟩
  rw [hsingle.column_eq, hdepth.column_eq, hlent.column_eq, List.range_add, List.map_append,
    List.map_map]
  refine congrArg₂ (· ++ ·) (List.map_congr_left fun k hk => ?_)
    (List.map_congr_left fun n hn => ?_)
  · have hk := List.mem_range.1 hk
    rw [hget [b, k, y, x] (within_four hb (Nat.lt_add_right more hk) hy hx)]
    exact if_pos hk
  · have hn := List.mem_range.1 hn
    rw [Function.comp_apply, hget [b, count + n, y, x]
      (within_four hb (Nat.add_lt_add_left hn count) hy hx)]
    simp

/-- Every pixel sorts what it has and what it borrows from the middle of its neighbors. -/
theorem lend_ok (hdepth : depth.IsSingle [batch, count, height, width])
    (hpoints : grid.points.IsSingle [batch, grid.neighbors * height, width, 2])
    (hsides : grid.height = height ∧ grid.width = width) (hcount : 0 < count) :
    ∃ u, lend depth grid = .ok u ∧ u.IsSingle [batch, count + grid.neighbors, height, width] ∧
      ∀ b y x, b < batch → y < height → x < width →
        u.column b y x = sortAscending (depth.column b y x ++
          grid.borrow (fun i j => depth.get [b, count / 2, i, j]) b y x) := by
  obtain ⟨middle, hmiddle, hmiddleSingle, hkept⟩ := hdepth.narrow
    (show [batch, count, height, width][1]? = some count from rfl)
    (show count / 2 + 1 ≤ count by omega)
  have hstack (hzero : height * width = 0) : grid.neighbors * height * width = 0 := by
    rw [Nat.mul_assoc, hzero, Nat.mul_zero]
  obtain ⟨found, hfound, hshape, hkind, hread⟩ := Sampling.sample_ok_of_area
    hmiddleSingle.shape_eq hmiddleSingle.kind_eq hpoints.shape_eq hpoints.kind_eq hstack .border
  obtain ⟨lent, hlent, hlentSingle, hplaced⟩ := IsSingle.reshape ⟨hshape, hkind⟩
    [batch, grid.neighbors, height, width] (by simp [Nat.mul_assoc])
  obtain ⟨all, hall, hallSingle, hcolumns⟩ := concat_columns hdepth hlentSingle
  have hborrowed (b y x : Nat) (hb : b < batch) (hy : y < height) (hx : x < width) :
      lent.column b y x = grid.borrow (fun i j => depth.get [b, count / 2, i, j]) b y x := by
    rw [hlentSingle.column_eq, NeighborGrid.borrow, hsides.1, hsides.2]
    refine List.map_congr_left fun n hn => ?_
    have hrow := stacked_row_lt (List.mem_range.1 hn) hy
    have hplace : place 0 [batch, grid.neighbors, height, width] [b, n, y, x] =
        place 0 [batch, 1, grid.neighbors * height, width] [b, 0, n * height + y, x] := by
      simp only [place_cons, place_nil]
      ring
    rw [hplaced _ _ hplace, hread b 0 _ x hb Nat.one_pos hrow hx]
    change Sampling.readMap (fun i j => middle.get [b, 0, i, j]) height width .border _ _ = _
    refine Sampling.readMap_congr (Nat.zero_lt_of_lt hy) (Nat.zero_lt_of_lt hx)
      (fun i j hi hj => ?_) .border _ _
    exact hkept [b, 0, i, j] (within_four hb Nat.one_pos hi hj)
  simp only [lend, sizes4_eq_ok.2 hdepth.shape_eq, ok_bind, hsides, and_self, if_true, hmiddle,
    hfound, hlent, hall, compute_of_single hallSingle.kind_eq]
  refine ⟨_, rfl, isSingle_ofFn _ _, fun b y x hb hy hx => ?_⟩
  rw [← hborrowed b y x hb hy hx, ← hcolumns b y x hb hy hx, (isSingle_ofFn _ _).column_eq]
  have hlength : (sortAscending (all.column b y x)).length = count + grid.neighbors := by
    rw [(sortAscending_perm _).length_eq, hallSingle.column_eq, List.length_map, List.length_range]
  refine List.ext_getElem (by simp [hlength]) fun k hk hk' => ?_
  rw [List.getElem_map, List.getElem_range,
    get_ofFn (within_four hb (hlength ▸ hk') hy hx)]
  dsimp only
  rw [Twins.ofFn_getD _ (place_lt_three hb hy hx)]
  simp only [digits_place (within_three hb hy hx)]
  rw [← hallSingle.column_eq, Array.getD_eq_getD_getElem?, List.getElem?_toArray,
    List.getElem?_eq_getElem hk', Option.getD_some]

/-- The depths of a pixel stay, and from each of its neighbors what is interpolated there of the
middle hypotheses comes in. All are put in ascending order, and nothing is lost or made up. -/
theorem lend_keeps (hdepth : depth.IsSingle [batch, count, height, width])
    (hpoints : grid.points.IsSingle [batch, grid.neighbors * height, width, 2])
    (hsides : grid.height = height ∧ grid.width = width) (hcount : 0 < count) :
    ∃ u, lend depth grid = .ok u ∧ u.IsSingle [batch, count + grid.neighbors, height, width] ∧
      u.Ascends ∧ ∀ b y x, b < batch → y < height → x < width →
        let middle := fun i j => depth.get [b, count / 2, i, j]
        let lent := fun n => Sampling.interpolate (Sampling.extend middle height width)
          (((grid.points.get [b, n * height + y, x, 1] + 1) * height - 1) / 2)
          (((grid.points.get [b, n * height + y, x, 0] + 1) * width - 1) / 2)
        (Multiset.range (count + grid.neighbors)).map (fun k => u.get [b, k, y, x]) =
            (Multiset.range count).map (fun k => depth.get [b, k, y, x]) +
              (Multiset.range grid.neighbors).map lent ∧
          ∀ n < grid.neighbors, lent n ∈ Set.Icc (⨅ t : Fin height × Fin width, middle t.1 t.2)
            (⨆ t : Fin height × Fin width, middle t.1 t.2) := by
  obtain ⟨u, hu, hsingle, hcolumn⟩ := lend_ok hdepth hpoints hsides hcount
  refine ⟨u, hu, hsingle, lend_ascends hdepth.shape_eq hu, fun b y x hb hy hx => ?_⟩
  intro middle lent
  have hheight : 0 < height := Nat.zero_lt_of_lt hy
  have hwidth : 0 < width := Nat.zero_lt_of_lt hx
  have hlent : grid.borrow middle b y x = (List.range grid.neighbors).map lent := by
    rw [NeighborGrid.borrow, hsides.1, hsides.2]
    refine List.map_congr_left fun n _ => ?_
    rw [Sampling.readMap, Sampling.read_border hheight hwidth middle, Sampling.position_real,
      Sampling.position_real]
  have hperm := sortAscending_perm (depth.column b y x ++ grid.borrow middle b y x)
  rw [← hcolumn b y x hb hy hx, hsingle.column_eq, hdepth.column_eq, hlent] at hperm
  exact ⟨Multiset.coe_eq_coe.2 hperm,
    fun n _ => Sampling.interpolate_mem hheight hwidth middle _ _⟩

noncomputable def risingDepths : Tensor ℝ := ofFn [1, 2, 1, 2] fun
  | [_, k, _, x] => (k + 2 * x + 1 : Nat)
  | _ => 0

/-- A grid in which both pixels of a row have a neighbor half a pixel behind the last one. -/
noncomputable def outerNeighbor : NeighborGrid ℝ where
  points := ofFn [1, 1, 2, 2] fun
    | [_, _, _, coordinate] => if coordinate = 0 then 1 else 0
    | _ => 0
  neighbors := 1
  height := 1
  width := 2

theorem lend_keeps_outer :
    risingDepths.IsSingle [1, 2, 1, 2] ∧ outerNeighbor.points.IsSingle [1, 1 * 1, 2, 2] ∧
      ∃ u, lend risingDepths outerNeighbor = .ok u ∧ u.Ascends ∧
        (Multiset.range 3).map (fun k => u.get [0, k, 0, 0]) = {1, 2, 4} := by
  have hdepths : risingDepths.IsSingle [1, 2, 1, 2] := isSingle_ofFn _ _
  have hpoints : outerNeighbor.points.IsSingle [1, 1 * 1, 2, 2] := ⟨rfl, rfl⟩
  obtain ⟨u, hu, -, hascends, hkeeps⟩ := lend_keeps hdepths hpoints ⟨rfl, rfl⟩ Nat.two_pos
  refine ⟨hdepths, hpoints, u, hu, hascends, ?_⟩
  have hdepth (k x : Nat) (hk : k < 2) (hx : x < 2) :
      risingDepths.get [0, k, 0, x] = (k + 2 * x + 1 : Nat) :=
    get_ofFn (within_four Nat.one_pos hk Nat.one_pos hx) _
  have hpoint (c : Nat) (hc : c < 2) :
      outerNeighbor.points.get [0, 0, 0, c] = if c = 0 then 1 else 0 :=
    get_ofFn (within_four Nat.one_pos Nat.one_pos Nat.two_pos hc) _
  have hlent : Sampling.interpolate (Sampling.extend (fun i j => risingDepths.get [0, 1, i, j]) 1 2)
      (((outerNeighbor.points.get [0, 0, 0, 1] + 1) * (1 : Nat) - 1) / 2)
      (((outerNeighbor.points.get [0, 0, 0, 0] + 1) * (2 : Nat) - 1) / 2) = 4 := by
    rw [hpoint 0 Nat.two_pos, hpoint 1 Nat.one_lt_two]
    norm_num [Sampling.interpolate, Sampling.extend, Sampling.nearest, hdepth]
  have hthree (d : ℝ) : ({risingDepths.get [0, 0, 0, 0], risingDepths.get [0, 1, 0, 0], d} :
      Multiset ℝ) = {1, 2, d} := by
    rw [hdepth 0 0 Nat.two_pos Nat.two_pos, hdepth 1 0 Nat.one_lt_two Nat.two_pos]
    norm_num
  exact ((hkeeps 0 0 0 Nat.one_pos Nat.one_pos Nat.two_pos).1.trans (hthree _)).trans
    (congrArg (fun d : ℝ => ({1, 2, d} : Multiset ℝ)) hlent)

end Lending

end MultiViewDepth
