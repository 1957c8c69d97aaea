import MultiViewDepth.Proofs.VariedScenes
import MultiViewDepth.Proofs.LentDepths

/-!
The ladder around an estimate.

Its rungs are evenly spaced in inverse depth, except for those that had to be kept within the range.
An estimate within the range is the middle rung, which is also the hypothesis that neighbors lend.
-/
namespace MultiViewDepth

open Tensor Arithmetic RandomSource

namespace Hypotheses

variable {range : DepthRange ℝ} {count : Nat} {interval d : ℝ}

/-- The inverse depth of rung `k` of a ladder without ends. -/
noncomputable def endless (range : DepthRange ℝ) (count : Nat) (interval d : ℝ) (k : Nat) : ℝ :=
  1 / d + ((k : ℝ) - (count / 2 : Nat)) * (interval * (1 / range.near - 1 / range.far))

/-- A rung that is not clamped. -/
def Free (range : DepthRange ℝ) (count : Nat) (interval d : ℝ) (k : Nat) : Prop :=
  endless range count interval d k ∈ Set.Icc (1 / range.far) (1 / range.near)

def AllFree (range : DepthRange ℝ) (count : Nat) (interval d : ℝ) : Prop :=
  ∀ k < count, Free range count interval d k

theorem rung_real (k : Nat) :
    rung range count interval k d =
      1 / min (max (endless range count interval d k) (1 / range.far)) (1 / range.near) := by
  simp only [rung, Scalar.recip, clamp_real, affine_real, narrow_real, rungNumber, add_zero]
  rw [DepthRange.inverseSpan, mul_comm _ interval]
  rfl

theorem one_div_rung {k : Nat} (hk : Free range count interval d k) :
    1 / rung range count interval k d = endless range count interval d k := by
  rw [rung_real, max_eq_left hk.1, min_eq_left hk.2, one_div_one_div]

/-- The middle rung is the estimate, unless it is clamped. -/
theorem rung_middle_of_free (hfree : Free range count interval d (count / 2)) :
    rung range count interval (count / 2) d = d := by
  rw [← one_div_one_div (rung _ _ _ _ _), one_div_rung hfree, endless, sub_self, zero_mul, add_zero,
    one_div_one_div]

theorem rung_middle (hd : d ∈ Set.Icc range.near range.far) :
    rung range count interval (count / 2) d = d := by
  refine rung_middle_of_free ?_
  rw [Free, endless, sub_self, zero_mul, add_zero]
  exact DepthRange.recip_mem hd

theorem endless_mono (hinterval : 0 ≤ interval) : Monotone (endless range count interval d) := by
  intro i j hij
  have hspan : 0 ≤ 1 / range.near - 1 / range.far := range.inverseSpan_nonneg
  rw [endless, endless]
  gcongr

/-- Rungs between free ones are free. -/
theorem Free.between (hinterval : 0 ≤ interval) {i j k : Nat} (hi : Free range count interval d i)
    (hk : Free range count interval d k) (hij : i ≤ j) (hjk : j ≤ k) :
    Free range count interval d j :=
  ⟨hi.1.trans (endless_mono hinterval hij), (endless_mono hinterval hjk).trans hk.2⟩

/-- A free rung and the next one are a step apart in inverse depth. -/
theorem rung_step (hinterval : 0 ≤ interval) {i j : Nat} (hij : i < j)
    (hi : Free range count interval d i) (hj : Free range count interval d j)
    (hnext : ∀ k, i < k → k < j → ¬Free range count interval d k) :
    1 / rung range count interval j d - 1 / rung range count interval i d =
      interval * (1 / range.near - 1 / range.far) := by
  -- the next free rung is the very next one
  obtain rfl : j = i + 1 := by
    by_contra hne
    exact hnext (i + 1) (by omega) (by omega) (hi.between hinterval hj (by omega) (by omega))
  rw [one_div_rung hi, one_div_rung hj, endless, endless]
  push_cast
  ring

structure LaidAround (rungs : Nat → ℝ) (range : DepthRange ℝ) (count : Nat) (interval d : ℝ) :
    Prop where
  mem : ∀ k < count, rungs k ∈ Set.Icc range.near range.far
  descends : ∀ i j, i ≤ j → j < count → rungs j ≤ rungs i
  step : ∀ i j, i < j → j < count → Free range count interval d i → Free range count interval d j →
    (∀ k, i < k → k < j → ¬Free range count interval d k) →
    1 / rungs j - 1 / rungs i = interval * (1 / range.near - 1 / range.far)
  middle : d ∈ Set.Icc range.near range.far → rungs (count / 2) = d

section Volumes

variable {batch height width : Nat} {estimate own : Tensor ℝ}

theorem ladder_ok (hestimate : estimate.IsSingle [batch, 1, height, width]) :
    ∃ t, ladder estimate range count interval = .ok t ∧ t.IsSingle [batch, count, height, width] ∧
      ∀ b k y x, Within [b, k, y, x] [batch, count, height, width] →
        t.get [b, k, y, x] = rung range count interval k (estimate.get [b, 0, y, x]) := by
  simp only [ladder, sizes4_eq_ok.2 hestimate.shape_eq, ok_bind, if_true,
    compute_of_single hestimate.kind_eq]
  exact ⟨_, rfl, isSingle_ofFn _ _, fun b k y x hw => get_ofFn hw _⟩

/-- Rungs that are not clamped have the inverse depths of a ladder without ends. -/
theorem one_div_ladder {t : Tensor ℝ} (hestimate : estimate.IsSingle [batch, 1, height, width])
    (ht : ladder estimate range count interval = .ok t) {b k y x : Nat} (hb : b < batch)
    (hk : k < count) (hy : y < height) (hx : x < width)
    (hfree : Free range count interval (estimate.get [b, 0, y, x]) k) :
    1 / t.get [b, k, y, x] = endless range count interval (estimate.get [b, 0, y, x]) k := by
  obtain ⟨t', ht', -, hget⟩ := ladder_ok hestimate
  obtain rfl : t = t' := Except.ok.inj (ht.symm.trans ht')
  rw [hget b k y x (within_four hb hk hy hx), one_div_rung hfree]

theorem ladder_laidAround (range : DepthRange ℝ)
    (hestimate : estimate.IsSingle [batch, 1, height, width]) (hcount : 0 < count)
    (hinterval : 0 ≤ interval) :
    ∃ t, ladder estimate range count interval = .ok t ∧ t.IsSingle [batch, count, height, width] ∧
      ∀ b y x, b < batch → y < height → x < width →
        LaidAround (fun k => t.get [b, k, y, x]) range count interval
          (estimate.get [b, 0, y, x]) := by
  obtain ⟨t, ht, hsingle, hget⟩ := ladder_ok hestimate
  refine ⟨t, ht, hsingle, fun b y x hb hy hx => ?_⟩
  have hwithin (k : Nat) (hk : k < count) : Within [b, k, y, x] [batch, count, height, width] :=
    within_four hb hk hy hx
  constructor
  · intro k hk
    exact (ladder_between hestimate.kind_eq ht).mem _ (hsingle.shape_eq ▸ hwithin k hk)
  · intro i j hij hj
    exact ladder_descends hinterval ht b i j y x hij (hsingle.shape_eq ▸ hwithin j hj)
  · intro i j hij hj hi hfree hnext
    rw [hget _ _ _ _ (hwithin i (hij.trans hj)), hget _ _ _ _ (hwithin j hj)]
    exact rung_step hinterval hij hi hfree hnext
  · intro hd
    rw [hget _ _ _ _ (hwithin _ (by omega))]
    exact rung_middle hd

theorem narrow_middle (hown : own.IsSingle [batch, count, height, width])
    (hestimate : estimate.IsSingle [batch, 1, height, width]) (hcount : 0 < count)
    (hmiddle : ∀ b y x, b < batch → y < height → x < width →
      own.get [b, count / 2, y, x] = estimate.get [b, 0, y, x]) :
    own.narrow 1 (count / 2) 1 = .ok estimate := by
  obtain ⟨u, hu, hsingle, hget⟩ := hown.narrow
    (show [batch, count, height, width][1]? = some count from rfl)
    (show count / 2 + 1 ≤ count by omega)
  have hsame : u = estimate := by
    refine ext_get hsingle.kind_eq hestimate.kind_eq
      (hsingle.shape_eq.trans hestimate.shape_eq.symm) fun index hw => ?_
    rw [hsingle.shape_eq] at hw
    obtain ⟨b, k, y, x, rfl, hb, hk, hy, hx⟩ := hw.exists_four
    obtain rfl : k = 0 := by omega
    exact (hget _ hw).trans (hmiddle b y x hb hy hx)
  rw [hu, hsame]

end Volumes

end Hypotheses

section Choosing

variable {range : DepthRange ℝ} {count batch height width : Nat} {interval : ℝ}
  {estimate : Tensor ℝ} {ρ : Type} [RandomSource ρ ℝ]

/-- An estimate that is kept is a ladder with a single rung. -/
theorem Sampler.hypotheses_middle (hestimate : estimate.IsSingle [batch, 1, height, width])
    (hcount : 0 < count) (hinterval : 0 ≤ interval)
    (hrange : ∀ b y x, b < batch → y < height → x < width →
      estimate.get [b, 0, y, x] ∈ Set.Icc range.near range.far) (rng : ρ) :
    ∃ own, (Sampler.mk count interval).hypotheses (some estimate) range batch height width rng =
        .ok (own, rng) ∧
      own.IsSingle [batch, count, height, width] ∧
      ∀ b y x, b < batch → y < height → x < width →
        own.get [b, count / 2, y, x] = estimate.get [b, 0, y, x] := by
  by_cases hone : count = 1
  · subst hone
    exact ⟨estimate, rfl, hestimate, fun b y x _ _ _ => rfl⟩
  · obtain ⟨own, hown, hsingle, hlaid⟩ :=
      Hypotheses.ladder_laidAround range hestimate hcount hinterval
    refine ⟨own, ?_, hsingle, fun b y x hb hy hx => ?_⟩
    · simp only [Sampler.hypotheses, if_neg hone, hown, ok_bind, pure_eq_ok]
    · exact (hlaid b y x hb hy hx).middle (hrange b y x hb hy hx)

/-- A ladder can be laid around every estimate. Neighbors lend an estimate within the range as it
is. -/
theorem estimate_lent (range : DepthRange ℝ)
    (hestimate : estimate.IsSingle [batch, 1, height, width]) (hcount : 0 < count)
    (hinterval : 0 < interval) (rng : ρ) :
    (∃ t, Hypotheses.ladder estimate range count interval = .ok t ∧
      t.IsSingle [batch, count, height, width] ∧
      ∀ b y x, b < batch → y < height → x < width →
        Hypotheses.LaidAround (fun k => t.get [b, k, y, x]) range count interval
          (estimate.get [b, 0, y, x])) ∧
    ((∀ b y x, b < batch → y < height → x < width →
        estimate.get [b, 0, y, x] ∈ Set.Icc range.near range.far) →
      ∃ own, (Sampler.mk count interval).hypotheses (some estimate) range batch height width rng =
          .ok (own, rng) ∧
        own.IsSingle [batch, count, height, width] ∧ own.narrow 1 (count / 2) 1 = .ok estimate ∧
        ∀ grid : NeighborGrid ℝ, grid.points.IsSingle [batch, grid.neighbors * height, width, 2] →
          grid.height = height ∧ grid.width = width → 0 < height → 0 < width →
          ∃ u, lend own grid = .ok u ∧ ∀ b y x, b < batch → y < height → x < width →
            u.column b y x = sortAscending (own.column b y x ++
              grid.borrow (fun i j => estimate.get [b, 0, i, j]) b y x)) := by
  refine ⟨Hypotheses.ladder_laidAround range hestimate hcount hinterval.le, fun hrange => ?_⟩
  obtain ⟨own, hown, hsingle, hmiddle⟩ :=
    Sampler.hypotheses_middle hestimate hcount hinterval.le hrange rng
  refine ⟨own, hown, hsingle, Hypotheses.narrow_middle hsingle hestimate hcount hmiddle,
    fun grid hpoints hsides hheight hwidth => ?_⟩
  obtain ⟨u, hu, -, hcolumn⟩ := lend_ok hsingle hpoints hsides hcount
  refine ⟨u, hu, fun b y x hb hy hx => ?_⟩
  have hlent : grid.borrow (fun i j => own.get [b, count / 2, i, j]) b y x =
      grid.borrow (fun i j => estimate.get [b, 0, i, j]) b y x :=
    NeighborGrid.borrow_congr (by omega) (by omega) (fun i j hi hj =>
      hmiddle b i j hb (by omega) (by omega)) b y x
  rw [hcolumn b y x hb hy hx, hlent]

noncomputable def nearPixel : Tensor ℝ := ofFn [1, 1, 1, 1] fun _ => 1

noncomputable def solePixel : NeighborGrid ℝ where
  points := ofFn [1, 1, 1, 2] fun _ => 0
  neighbors := 1
  height := 1
  width := 1

/-- The last rung around depth 1 is clamped, and those before it are free. -/
theorem estimate_lent_near :
    nearPixel.IsSingle [1, 1, 1, 1] ∧
      (∃ t, Hypotheses.ladder nearPixel unitRange 4 (1 / 2 : ℝ) = .ok t ∧
        t.get [0, 2, 0, 0] = 1 ∧ 1 / t.get [0, 1, 0, 0] - 1 / t.get [0, 0, 0, 0] = 1 / 4) ∧
      ∃ own u, (Sampler.mk 4 (1 / 2)).hypotheses (some nearPixel) unitRange 1 1 1 Tape.varied =
          .ok (own, Tape.varied) ∧
        own.narrow 1 2 1 = .ok nearPixel ∧ lend own solePixel = .ok u ∧
        u.column 0 0 0 = sortAscending (own.column 0 0 0 ++
          solePixel.borrow (fun i j => nearPixel.get [0, 0, i, j]) 0 0 0) := by
  have hpixel : nearPixel.IsSingle [1, 1, 1, 1] := isSingle_ofFn _ _
  have hone (b y x : Nat) (hb : b < 1) (hy : y < 1) (hx : x < 1) :
      nearPixel.get [b, 0, y, x] = 1 :=
    get_ofFn (within_four hb Nat.one_pos hy hx) _
  have hrange (b y x : Nat) (hb : b < 1) (hy : y < 1) (hx : x < 1) :
      nearPixel.get [b, 0, y, x] ∈ Set.Icc unitRange.near unitRange.far := by
    rw [hone b y x hb hy hx, unitRange]
    norm_num
  obtain ⟨⟨t, ht, -, hlaid⟩, hlent⟩ := estimate_lent unitRange hpixel (show 0 < 4 by decide)
    (show (0 : ℝ) < 1 / 2 by norm_num) Tape.varied
  have hlaid := hlaid 0 0 0 (by decide) (by decide) (by decide)
  obtain ⟨own, hown, -, hmiddle, hlent⟩ := hlent hrange
  obtain ⟨u, hu, hcolumn⟩ := hlent solePixel ⟨rfl, rfl⟩ ⟨rfl, rfl⟩ (by decide) (by decide)
  refine ⟨hpixel, ⟨t, ht, ?_, ?_⟩, own, u, hown, hmiddle, hu,
    hcolumn 0 0 0 (by decide) (by decide) (by decide)⟩
  · rw [← hone 0 0 0 (by decide) (by decide) (by decide)]
    exact hlaid.middle (hrange 0 0 0 (by decide) (by decide) (by decide))
  · have hfree (k : Nat) (hk : k < 2) : Hypotheses.Free unitRange 4 (1 / 2)
        (nearPixel.get [0, 0, 0, 0]) k := by
      rw [Hypotheses.Free, Hypotheses.endless, hone 0 0 0 (by decide) (by decide) (by decide),
        unitRange]
      interval_cases k <;> norm_num
    have hstep := hlaid.step 0 1 (by decide) (by decide) (hfree 0 (by decide)) (hfree 1 (by decide))
      (by omega)
    rw [hstep, unitRange]
    norm_num

end Choosing

end MultiViewDepth
