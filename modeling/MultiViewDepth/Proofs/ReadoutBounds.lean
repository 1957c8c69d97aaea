import MultiViewDepth.Matching.Matcher
import MultiViewDepth.Proofs.ArraySizes
import MultiViewDepth.Proofs.Bounds
import MultiViewDepth.Proofs.Probabilities

/-!
The depth that is read out of hypotheses lies between the smallest and the largest of them.

The probabilities of a pixel come out of a softmax, so they are not negative and sum to 1, whatever
the learned parts before it give. All that is used of a score is that it could be computed.
-/
namespace MultiViewDepth

open Tensor Arithmetic

section Probabilities

variable {t u : Tensor ℝ} {batch count height width : Nat}

/-- Every pixel's column of numbers along the second axis is a probability distribution. -/
structure Tensor.Distributed (t : Tensor ℝ) (batch count height width : Nat) : Prop where
  nonneg : ∀ b k y x, b < batch → k < count → y < height → x < width → 0 ≤ t.get [b, k, y, x]
  sum_eq : ∀ b y x, b < batch → y < height → x < width →
    sumTo count (fun k => t.get [b, k, y, x]) = 1

/-- Sums over the hypotheses of a pixel. -/
theorem sum_get (hk : t.kind = .single) (hs : t.shape = [batch, count, height, width])
    (hu : t.sum 1 = .ok u) {b y x : Nat} (hb : b < batch) (hy : y < height) (hx : x < width) :
    u.shape = [batch, 1, height, width] ∧ u.kind = .single ∧
      u.get [b, 0, y, x] = sumTo count fun k => t.get [b, k, y, x] := by
  rw [Tensor.sum, reduce_of_single hk (by rw [hs]; rfl), hs] at hu
  cases hu
  refine ⟨rfl, rfl, ?_⟩
  rw [List.set_cons_succ, List.set_cons_zero, get_ofFn (within_four hb Nat.one_pos hy hx)]
  rfl

theorem getElem?_of_size {axis : Nat} (h : t.size axis ≠ 0) :
    t.shape[axis]? = some (t.size axis) := by
  rw [size, List.getD_eq_getElem?_getD] at h ⊢
  cases hn : t.shape[axis]? with
  | none => simp [hn] at h
  | some n => rfl

section Softmax

variable {axis : Nat} {index : List Nat}

theorem softmax_get (hkind : t.kind = .single) (hu : t.softmax axis = .ok u)
    (hw : Within index t.shape) :
    u.get index = Real.exp (t.get index) /
      ∑ k : Fin (t.size axis), Real.exp (t.get (index.set axis k)) := by
  have hne := (softmax_eq_ok hu).2.2
  obtain ⟨u', hu', -, hget⟩ :=
    IsSingle.softmax ⟨rfl, hkind⟩ (getElem?_of_size hne) (Nat.pos_of_ne_zero hne)
  obtain rfl : u = u' := Except.ok.inj (hu.symm.trans hu')
  exact hget index hw

theorem softmax_pos (hkind : t.kind = .single) (hu : t.softmax axis = .ok u)
    (hw : Within index t.shape) : 0 < u.get index := by
  rw [softmax_get hkind hu hw]
  have hpos : 0 < t.size axis := Nat.pos_of_ne_zero (softmax_eq_ok hu).2.2
  exact div_pos (Real.exp_pos _)
    (Finset.sum_pos (fun k _ => Real.exp_pos _) ⟨⟨0, hpos⟩, Finset.mem_univ _⟩)

theorem softmax_sum (hkind : t.kind = .single) (hu : t.softmax axis = .ok u)
    (hw : Within index t.shape) : ∑ k : Fin (t.size axis), u.get (index.set axis k) = 1 := by
  have hne := (softmax_eq_ok hu).2.2
  have hget (k : Fin (t.size axis)) := softmax_get hkind hu
    (hw.along (getElem?_of_size hne) k.isLt)
  simp only [List.set_set] at hget
  simp only [hget, ← Finset.sum_div]
  exact div_self (Finset.sum_pos (fun k _ => Real.exp_pos _)
    ⟨⟨0, Nat.pos_of_ne_zero hne⟩, Finset.mem_univ _⟩).ne'

end Softmax

theorem softmax_distributed (hshape : t.shape = [batch, count, height, width])
    (hkind : t.kind = .single) (hu : t.softmax 1 = .ok u) :
    u.Distributed batch count height width := by
  have hsize : t.size 1 = count := by
    rw [size, hshape]
    rfl
  constructor
  · intro b k y x hb hk hy hx
    exact (softmax_pos hkind hu (hshape ▸ within_four hb hk hy hx)).le
  · intro b y x hb hy hx
    have hcount : 0 < count := hsize ▸ Nat.pos_of_ne_zero (softmax_eq_ok hu).2.2
    rw [sumTo_real, Finset.sum_range, ← hsize]
    exact softmax_sum hkind hu (hshape ▸ within_four hb hcount hy hx)

end Probabilities

section Scores

variable {matcher : Matcher ℝ} {similarity weight score : Tensor ℝ} {grid : NeighborGrid ℝ}
  {batch count height width : Nat}

/-- A score is a softmax. Of its shape is known what reading depths out of it needs: a learned part
may repeat an axis of size 1, but no other. -/
theorem score_eq_ok
    (hscore : matcher.score similarity grid weight batch count height width = .ok score) :
    ∃ t : Tensor ℝ, t.softmax 1 = .ok score ∧ 4 ≤ score.rank ∧
      (score.rank = 4 → count ≠ 1 → score.shape[1]? = some count) := by
  simp only [Matcher.score, bind_eq_ok] at hscore
  obtain ⟨_, -, _, -, _, -, gathered, hgathered, z, hz, summed, hsummed, weighted, hweighted,
    hsoftmax⟩ := hscore
  have hrepeats := repeats_of_zip hz
  rw [(reshape_eq_ok hgathered).1] at hrepeats
  obtain ⟨n, hn, hsummed, -⟩ := reduce_eq_ok hsummed
  have hrank : 5 ≤ z.shape.length := by
    have hlength := hrepeats.length_eq
    simp [padShape] at hlength
    omega
  have hshape : score.shape = z.shape.eraseIdx 2 := by
    have hone : summed.shape[2]? = some 1 := by
      rw [hsummed, List.getElem?_set_self (by omega)]
    unfold squeeze at hweighted
    rw [hone] at hweighted
    rw [(softmax_eq_ok hsoftmax).1, (reshape_eq_ok hweighted).1, hsummed, List.eraseIdx_set_eq]
  refine ⟨weighted, hsoftmax, ?_, fun hfour hcount => ?_⟩
  · rw [rank, hshape, List.length_eraseIdx]
    split <;> omega
  · have hfive : z.shape.length = 5 := by
      rw [rank, hshape, List.length_eraseIdx_of_lt (by omega)] at hfour
      omega
    have hpad : padShape 5 [batch, count, grid.neighbors, height, width] =
        [batch, count, grid.neighbors, height, width] := by simp [padShape]
    rw [rank, hfive, hpad] at hrepeats
    rw [hshape]
    generalize z.shape = s at hrepeats
    obtain _ | ⟨-, _ | ⟨hone, -⟩⟩ := hrepeats
    simp [hone.resolve_right hcount]

end Scores

section Readouts

variable {range : DepthRange ℝ} {lo hi : ℝ} {depth score t u : Tensor ℝ}
  {batch count height width : Nat}

theorem meanDepth_between (h : depth.Between lo hi)
    (hshape : depth.shape = [batch, count, height, width]) (hscore : t.softmax 1 = .ok score)
    (hu : Readout.meanDepth depth score = .ok u) : u.Between lo hi := by
  obtain ⟨product, hproduct, hu⟩ := bind_eq_ok.1 hu
  obtain ⟨hs, hss, hk, hget⟩ := zipSame_eq_ok h.kind_single hproduct
  obtain ⟨hts, htk, hne⟩ := softmax_eq_ok hscore
  rw [hshape] at hs hss hget
  rw [Tensor.sum, reduce_of_single hk (by rw [hs]; rfl), hs] at hu
  cases hu
  refine between_ofFn fun index hw => ?_
  obtain ⟨b, z, y, x, rfl, hb, -, hy, hx⟩ := hw.exists_four
  have hcount : 0 < count := by
    simp only [size, ← hts, hss, List.getD_cons_succ, List.getD_cons_zero] at hne
    omega
  have hkind := (hget _ (within_four hb hcount hy hx)).1
  have hdistributed := softmax_distributed (hts.symm.trans hss) (htk.symm.trans hkind) hscore
  have hmean : sumTo count (fun k => depth.get [b, k, y, x] * score.get [b, k, y, x]) ∈
      Set.Icc lo hi :=
    weighted_mem (fun k hk => hdistributed.nonneg b k y x hb hk hy hx)
      (hdistributed.sum_eq b y x hb hy hx)
      fun k hk => h.mem _ (hshape ▸ within_four hb hk hy hx)
  convert hmean using 1
  exact sumTo_congr fun k hk => (hget _ (within_four hb hk hy hx)).2

/-- The mean of the numbers of hypotheses, as a share of the last number. -/
theorem share_mem {w : Nat → ℝ} (hcount : 1 < count) (hw : ∀ k < count, 0 ≤ w k)
    (hsum : sumTo count w = 1) :
    affine (1 / ((count - 1 : Nat) : ℝ)) 0 (sumTo count fun k => w k * k) ∈ Set.Icc (0 : ℝ) 1 := by
  have hpos : (0 : ℝ) < ((count - 1 : Nat) : ℝ) := by exact_mod_cast (by omega : 0 < count - 1)
  obtain ⟨hle, hge⟩ : sumTo count (fun k => (k : ℝ) * w k) ∈
      Set.Icc (0 : ℝ) ((count - 1 : Nat) : ℝ) :=
    weighted_mem hw hsum fun k hk => ⟨k.cast_nonneg, by exact_mod_cast (by omega : k ≤ count - 1)⟩
  simp only [mul_comm] at hle hge
  rw [affine_real, add_zero, mul_one_div]
  exact ⟨div_nonneg hle hpos.le, (div_le_one hpos).2 hge⟩

theorem repeats_numbers :
    Repeats [batch, count, height, width] (Readout.numbers (α := ℝ) count).shape :=
  .cons (.inr rfl) (.cons (.inl rfl) (.cons (.inr rfl) (.cons (.inr rfl) .nil)))

/-- Only a score with one number per hypothesis can be laid over the hypothesis numbers. -/
theorem score_shape {placed number : Tensor ℝ} (hrank : 4 ≤ score.rank)
    (haxis : score.rank = 4 → score.shape[1]? = some count)
    (hplaced : Tensor.zip (· * ·) score (Readout.numbers count) = .ok placed)
    (hnumber : placed.sum 1 = .ok number) (hshape : number.shape = [batch, 1, height, width]) :
    score.shape = [batch, count, height, width] := by
  obtain ⟨n, -, hset, -⟩ := reduce_eq_ok hnumber
  rw [hshape] at hset
  have hlength : placed.shape.length = 4 := by
    rw [← List.length_set, ← hset]
    rfl
  have hfour : score.shape.length = 4 := by
    have hpad := (repeats_of_zip hplaced).length_eq
    simp only [padShape, List.length_append, List.length_replicate] at hpad
    simp only [rank] at hrank hpad
    omega
  have hone := haxis hfour
  obtain ⟨a, s1, c, d, hs⟩ := List.length_eq_four.1 hfour
  rw [hs] at hone
  obtain rfl : s1 = count := by simpa using hone
  rw [zip_shape_of_repeats (hs ▸ repeats_numbers) hplaced, hs] at hset
  obtain ⟨rfl, rfl, rfl⟩ : batch = a ∧ height = c ∧ width = d := by simpa using hset
  exact hs

theorem number_get {placed number : Tensor ℝ} (hs : score.shape = [batch, count, height, width])
    (hk : score.kind = .single)
    (hplaced : Tensor.zip (· * ·) score (Readout.numbers count) = .ok placed)
    (hnumber : placed.sum 1 = .ok number) {b y x : Nat} (hb : b < batch) (hy : y < height)
    (hx : x < width) :
    number.get [b, 0, y, x] = sumTo count fun k => score.get [b, k, y, x] * (k : ℝ) := by
  rw [zip_of_repeats (hs ▸ repeats_numbers) hk rfl, hs] at hplaced
  cases hplaced
  obtain ⟨-, -, hget⟩ := sum_get (kind_ofFn _ _) (shape_ofFn _ _) hnumber hb hy hx
  rw [hget]
  refine sumTo_congr fun k hlt => ?_
  have hw := within_four hb hlt hy hx
  have hfold : foldIndex [1, count, 1, 1] [b, k, y, x] = [0, k, 0, 0] := by
    rw [foldIndex_one_cons (by rfl), foldIndex_cons hlt (by rfl), foldIndex_one_cons (by rfl),
      foldIndex_one_cons (by rfl)]
    rfl
  rw [get_ofFn hw, foldIndex_self hw]
  change score.get [b, k, y, x] * (Readout.numbers count).get (foldIndex [1, count, 1, 1] _) = _
  rw [hfold, Readout.numbers, get_ofFn (within_four (by decide) hlt (by decide) (by decide))]

/-- A share of the way from one array to another one. -/
theorem mix_between {first last gap share step mixed : Tensor ℝ} (hfirst : first.Between lo hi)
    (hlast : last.Between lo hi) (hgap : zipSame (· - ·) last first = .ok gap)
    (hstep : zipSame (· * ·) gap share = .ok step) (hmixed : zipSame (· + ·) first step = .ok mixed)
    (hshare : ∀ index, Within index first.shape → share.kind = .single →
      share.get index ∈ Set.Icc (0 : ℝ) 1) : mixed.Between lo hi := by
  obtain ⟨hgs, hlfs, hgk, hgap⟩ := zipSame_eq_ok hlast.kind_single hgap
  obtain ⟨-, -, -, hstep⟩ := zipSame_eq_ok hgk hstep
  obtain ⟨hms, -, hmk, hmixed⟩ := zipSame_eq_ok hfirst.kind_single hmixed
  refine ⟨hmk, fun index hw => ?_⟩
  rw [hms] at hw
  have hwl : Within index last.shape := hlfs ▸ hw
  obtain ⟨hkind, hstep⟩ := hstep index (hgs ▸ hwl)
  obtain ⟨hpos, hle⟩ := hshare index hw hkind
  have hmean := mean_pair_mem (sub_nonneg.2 hle) hpos (sub_add_cancel 1 _) (hfirst.mem index hw)
    (hlast.mem index hwl)
  rw [(hmixed index hw).2, hstep, (hgap index hwl).2]
  convert hmean using 1
  ring

theorem betweenEnds_between (h : depth.Between range.near range.far)
    (hshape : depth.shape = [batch, count, height, width]) (hscore : t.softmax 1 = .ok score)
    (hrank : 4 ≤ score.rank) (haxis : score.rank = 4 → count ≠ 1 → score.shape[1]? = some count)
    (hu : Readout.betweenEnds depth score = .ok u) : u.Between range.near range.far := by
  simp only [Readout.betweenEnds, sizes4_eq_ok.2 hshape, ok_bind] at hu
  by_cases hone : count = 1
  · rw [if_pos hone] at hu
    cases hu
    exact h
  · rw [if_neg hone] at hu
    simp only [bind_eq_ok, pure_eq_ok] at hu
    obtain ⟨placed, hplaced, number, hnumber, first, hfirst, last, hlast, gap, hgap, step, hstep,
      inverse, hinverse, hu⟩ := hu
    cases hu
    obtain ⟨hfs, hfirst⟩ := h.narrow hfirst
    obtain ⟨-, hlast⟩ := h.narrow hlast
    rw [hshape] at hfs
    have hfirst := hfirst.map fun x => DepthRange.recip_mem
    have hlast := hlast.map fun x => DepthRange.recip_mem
    suffices hbetween : inverse.Between range.inverseFar range.inverseNear from
      hbetween.map fun x => DepthRange.recip_mem_of_inverse
    refine mix_between hfirst hlast hgap hstep hinverse fun index hw hshareKind => ?_
    rw [shape_map, hfs] at hw
    obtain ⟨b, z, y, x, rfl, hb, hz, hy, hx⟩ := hw.exists_four
    obtain rfl : z = 0 := by omega
    have hns : number.shape = [batch, 1, height, width] := by
      obtain ⟨hgs, hlfs, hgk, -⟩ := zipSame_eq_ok hlast.kind_single hgap
      obtain ⟨-, hss, -⟩ := zipSame_eq_ok hgk hstep
      exact hss.trans (hgs.trans (hlfs.symm.trans hfs))
    have hnk : number.kind = .single := by rwa [Tensor.affine, kind_map] at hshareKind
    obtain ⟨n, -, -, hkind⟩ := reduce_eq_ok hnumber
    have hsk : score.kind = .single := by rw [← (zip_eq_ok hplaced).1, ← hkind, hnk]
    have hss := score_shape hrank (fun hfour => haxis hfour hone) hplaced hnumber hns
    obtain ⟨hts, htk, hne⟩ := softmax_eq_ok hscore
    have hcount : 1 < count := by
      simp only [size, ← hts, hss, List.getD_cons_succ, List.getD_cons_zero] at hne
      omega
    have hdistributed := softmax_distributed (hts.symm.trans hss) (htk.symm.trans hsk) hscore
    rw [Tensor.affine, get_map hnk (by rw [hns]; exact hw),
      number_get hss hsk hplaced hnumber hb hy hx]
    exact share_mem hcount (fun k hlt => hdistributed.nonneg b k y x hb hlt hy hx)
      (hdistributed.sum_eq b y x hb hy hx)

/-- A depth that is read out of hypotheses in the range is in the range. -/
theorem readout_between {matcher : Matcher ℝ} {similarity weight : Tensor ℝ}
    {grid : NeighborGrid ℝ} {readout : Readout} (h : depth.Between range.near range.far)
    (hshape : depth.shape = [batch, count, height, width])
    (hscore : matcher.score similarity grid weight batch count height width = .ok score)
    (hu : readout.depth depth score = .ok u) : u.Between range.near range.far := by
  obtain ⟨t, hsoftmax, hrank, haxis⟩ := score_eq_ok hscore
  cases readout with
  | expectation => exact meanDepth_between h hshape hsoftmax hu
  | inverseDepth => exact betweenEnds_between h hshape hsoftmax hrank haxis hu

end Readouts

end MultiViewDepth
