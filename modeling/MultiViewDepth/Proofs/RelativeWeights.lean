import MultiViewDepth.Proofs.ComparedViews

/-!
Only relative weights of the source views matter.

Similarities are fused by a mean, which is that of the weights times a constant, and also that of
all views with their weights once more. This holds as long as the mean divides by the sum of the
weights, and not by the smallest number that it may be divided by.
-/
namespace MultiViewDepth

open Tensor Arithmetic

section Repetition

variable {ε β γ : Type} {xs : List β} {k n : Nat}

def repeated (k : Nat) (xs : List β) : List β := (List.replicate k xs).flatten

@[simp] theorem repeated_zero (xs : List β) : repeated 0 xs = [] := rfl

@[simp] theorem repeated_succ (k : Nat) (xs : List β) :
    repeated (k + 1) xs = xs ++ repeated k xs := by
  rw [repeated, List.replicate_succ, List.flatten_cons, repeated]

@[simp] theorem length_repeated (k : Nat) (xs : List β) :
    (repeated k xs).length = k * xs.length := by
  induction k with
  | zero => simp
  | succ k ih => rw [repeated_succ, List.length_append, ih]; ring

theorem map_repeated (f : β → γ) (k : Nat) (xs : List β) :
    (repeated k xs).map f = repeated k (xs.map f) := by
  induction k with
  | zero => rfl
  | succ k ih => rw [repeated_succ, List.map_append, ih, repeated_succ]

theorem mem_of_repeated {x : β} (h : x ∈ repeated k xs) : x ∈ xs := by
  induction k with
  | zero => cases h
  | succ k ih =>
    rw [repeated_succ, List.mem_append] at h
    exact h.elim id ih

theorem repeated_ne_nil (hk : 0 < k) (h : xs ≠ []) : repeated k xs ≠ [] := by
  rw [← List.length_pos_iff] at h ⊢
  rw [length_repeated]
  exact Nat.mul_pos hk h

theorem sum_repeated (k : Nat) (xs : List ℝ) : (repeated k xs).sum = k * xs.sum := by
  induction k with
  | zero => simp
  | succ k ih => rw [repeated_succ, List.sum_append, ih]; push_cast; ring

theorem getElem?_repeated {j : Nat} (hj : j < k * xs.length) :
    (repeated k xs)[j]? = xs[j % xs.length]? := by
  induction k generalizing j with
  | zero => omega
  | succ k ih =>
    rw [repeated_succ]
    by_cases hfirst : j < xs.length
    · rw [List.getElem?_append_left hfirst, Nat.mod_eq_of_lt hfirst]
    · have hrest : j - xs.length < k * xs.length := by
        rw [Nat.succ_mul] at hj
        omega
      rw [List.getElem?_append_right (by omega), ih hrest, ← Nat.mod_eq_sub_mod (by omega)]

/-- Tasks that are repeated give their answers repeatedly. -/
theorem Tasks.run_repeated [WorkerPool] {parallel : Bool} {task task' : Nat → Except ε β}
    {answers : List β}
    (hrun : run parallel n task = .ok answers) (h : ∀ j < k * n, task' j = task (j % n)) :
    run parallel (k * n) task' = .ok (repeated k answers) := by
  rw [run_eq_ok_iff, inOrder] at hrun ⊢
  induction k generalizing task' with
  | zero => simp
  | succ k ih =>
    have hfirst : (List.range n).mapM task' = .ok answers := by
      rw [← hrun]
      refine mapM_congr fun j hj => ?_
      have hj : j < n := List.mem_range.1 hj
      rw [h j (by rw [Nat.succ_mul]; omega), Nat.mod_eq_of_lt hj]
    have hrest : (List.range (k * n)).mapM (fun j => task' (n + j)) = .ok (repeated k answers) := by
      refine ih fun j hj => ?_
      rw [h (n + j) (by rw [Nat.succ_mul]; omega), Nat.add_mod_left]
    rw [Nat.succ_mul, Nat.add_comm, List.range_add, List.mapM_append, hfirst, List.mapM_map]
    simp only [Function.comp_def, hrest, ok_bind, repeated_succ]
    rfl

end Repetition

section Sums

open Matcher

variable {batch groups count height width : Nat}
  {compared compared' : List (Tensor ℝ × Tensor ℝ)}

/-- Weights that are `r` times as large have the same mean, if both are large enough. -/
theorem Matcher.fuse_proportional {r : ℝ} (hr : r ≠ 0) (hne : compared ≠ []) (hne' : compared' ≠ [])
    (hcompared : ∀ c ∈ compared, c.1.IsSingle [batch, groups, count, height, width] ∧
      c.2.IsSingle [batch, 1, height, width])
    (hcompared' : ∀ c ∈ compared', c.1.IsSingle [batch, groups, count, height, width] ∧
      c.2.IsSingle [batch, 1, height, width])
    (hweight : ∀ b y x, totalWeight compared' b y x = r * totalWeight compared b y x)
    (hsimilarity : ∀ b g k y x,
      totalSimilarity compared' b g k y x = r * totalSimilarity compared b g k y x)
    (hfloor : ∀ b y x, b < batch → y < height → x < width →
      1 / (10 ^ 5 : ℕ) ≤ totalWeight compared b y x)
    (hfloor' : ∀ b y x, b < batch → y < height → x < width →
      1 / (10 ^ 5 : ℕ) ≤ totalWeight compared' b y x) :
    fuse compared' = fuse compared := by
  obtain ⟨u, hu, husingle, hget⟩ := fuse_list hne hcompared
  obtain ⟨u', hu', husingle', hget'⟩ := fuse_list hne' hcompared'
  rw [hu, hu']
  refine congrArg Except.ok (ext_get husingle'.kind_eq husingle.kind_eq
    (husingle'.shape_eq.trans husingle.shape_eq.symm) fun index hw => ?_)
  rw [husingle'.shape_eq] at hw
  obtain ⟨b, index, rfl, hb, hw⟩ := hw.exists_cons
  obtain ⟨g, k, y, x, rfl, hg, hk, hy, hx⟩ := hw.exists_four
  rw [hget b g k y x hb hg hk hy hx, hget' b g k y x hb hg hk hy hx,
    max_eq_left (hfloor b y x hb hy hx), max_eq_left (hfloor' b y x hb hy hx), hweight, hsimilarity,
    mul_div_mul_left _ _ hr]

theorem totalWeight_scaled (c : ℝ) (compared : List (Tensor ℝ × Tensor ℝ)) (b y x : Nat) :
    totalWeight (compared.map (Prod.map id (Tensor.scaled c))) b y x =
      c * totalWeight compared b y x := by
  simp only [totalWeight, List.map_map, Function.comp_def, Prod.map_snd, get_scaled,
    List.sum_map_mul_left]

theorem totalSimilarity_scaled (c : ℝ) (compared : List (Tensor ℝ × Tensor ℝ))
    (b g k y x : Nat) :
    totalSimilarity (compared.map (Prod.map id (Tensor.scaled c))) b g k y x =
      c * totalSimilarity compared b g k y x := by
  simp only [totalSimilarity, List.map_map, Function.comp_def, Prod.map_fst, Prod.map_snd,
    id_eq, get_scaled, mul_assoc, List.sum_map_mul_left]

theorem totalWeight_repeated (m : Nat) (compared : List (Tensor ℝ × Tensor ℝ)) (b y x : Nat) :
    totalWeight (repeated m compared) b y x = m * totalWeight compared b y x := by
  rw [totalWeight, map_repeated, sum_repeated, totalWeight]

theorem totalSimilarity_repeated (m : Nat) (compared : List (Tensor ℝ × Tensor ℝ))
    (b g k y x : Nat) :
    totalSimilarity (repeated m compared) b g k y x = m * totalSimilarity compared b g k y x := by
  rw [totalSimilarity, map_repeated, sum_repeated, totalSimilarity]

theorem Matcher.fuse_scaledWeights {c : ℝ} (hc : c ≠ 0) (hne : compared ≠ [])
    (hcompared : ∀ d ∈ compared, d.1.IsSingle [batch, groups, count, height, width] ∧
      d.2.IsSingle [batch, 1, height, width])
    (hfloor : ∀ b y x, b < batch → y < height → x < width →
      1 / (10 ^ 5 : ℕ) ≤ totalWeight compared b y x)
    (hfloor' : ∀ b y x, b < batch → y < height → x < width →
      1 / (10 ^ 5 : ℕ) ≤ totalWeight (compared.map (Prod.map id (Tensor.scaled c))) b y x) :
    fuse (compared.map (Prod.map id (Tensor.scaled c))) = fuse compared := by
  refine fuse_proportional hc hne (by simpa using hne) hcompared (fun d hd => ?_)
    (totalWeight_scaled c compared) (totalSimilarity_scaled c compared) hfloor hfloor'
  obtain ⟨e, he, rfl⟩ := List.mem_map.1 hd
  exact ⟨(hcompared e he).1, (hcompared e he).2.map (c * ·)⟩

theorem Matcher.fuse_repeated {m : Nat} (hm : 0 < m) (hne : compared ≠ [])
    (hcompared : ∀ c ∈ compared, c.1.IsSingle [batch, groups, count, height, width] ∧
      c.2.IsSingle [batch, 1, height, width])
    (hfloor : ∀ b y x, b < batch → y < height → x < width →
      1 / (10 ^ 5 : ℕ) ≤ totalWeight compared b y x) :
    fuse (repeated m compared) = fuse compared := by
  have hone : (1 : ℝ) ≤ m := Nat.one_le_cast.2 hm
  refine fuse_proportional (zero_lt_one.trans_le hone).ne' hne (repeated_ne_nil hm hne) hcompared
    (fun c hc => hcompared c (mem_of_repeated hc)) (totalWeight_repeated m compared)
    (totalSimilarity_repeated m compared) hfloor fun b y x hb hy hx => ?_
  have hle := hfloor b y x hb hy hx
  have hpos : (0 : ℝ) ≤ 1 / (10 ^ 5 : ℕ) := by positivity
  rw [totalWeight_repeated]
  exact hle.trans (le_mul_of_one_le_left (hpos.trans hle) hone)

end Sums

section Channels

variable {batch n k height width : Nat} {t u : Tensor ℝ}
  {compared : List (Tensor ℝ × Tensor ℝ)} {shape : List Nat}

noncomputable def Tensor.copies (k : Nat) (t : Tensor ℝ) : Tensor ℝ :=
  t.derive (t.shape.modify 1 (k * ·)) fun entry index => entry (index.modify 1 (· % t.size 1))

theorem Tensor.IsSingle.copies (h : t.IsSingle [batch, n, height, width]) (k : Nat) :
    (t.copies k).IsSingle [batch, k * n, height, width] := by
  refine ⟨?_, (kind_derive₂ _).trans h.kind_eq⟩
  rw [Tensor.copies]
  exact congrArg (List.modify · 1 (k * ·)) h.shape_eq

theorem Tensor.copies_get (h : t.IsSingle [batch, n, height, width]) {b j y x : Nat}
    (hb : b < batch) (hj : j < k * n) (hy : y < height) (hx : x < width) :
    (t.copies k).get [b, j, y, x] = t.get [b, j % n, y, x] := by
  have hw : Within [b, j, y, x] (t.shape.modify 1 (k * ·)) := by
    rw [h.shape_eq]
    exact within_four hb hj hy hx
  have hsize : t.size 1 = n := by
    rw [size, h.shape_eq]
    rfl
  rw [Tensor.copies, hsize]
  exact get_derive₂ h.kind_eq hw _

/-- A channel of a repeated array is a channel of the array. -/
theorem Tensor.narrow_copies (h : t.IsSingle [batch, n, height, width]) {j : Nat}
    (hj : j < k * n) : (t.copies k).narrow 1 j 1 = t.narrow 1 (j % n) 1 := by
  have hn : 0 < n := Nat.pos_of_ne_zero fun hzero => by simp [hzero] at hj
  obtain ⟨u, hu, husingle, hget⟩ := h.narrow
    (show [batch, n, height, width][1]? = some n from rfl) (show j % n + 1 ≤ n from Nat.mod_lt j hn)
  obtain ⟨u', hu', husingle', hget'⟩ := (h.copies k).narrow
    (show [batch, k * n, height, width][1]? = some (k * n) from rfl) (show j + 1 ≤ k * n from hj)
  rw [hu, hu']
  refine congrArg Except.ok (ext_get husingle'.kind_eq husingle.kind_eq
    (husingle'.shape_eq.trans husingle.shape_eq.symm) fun index hw => ?_)
  rw [husingle'.shape_eq] at hw
  rw [hget index hw, hget' index hw]
  obtain ⟨b, i, y, x, rfl, hb, hi, hy, hx⟩ := hw.exists_four
  obtain rfl : i = 0 := by omega
  exact copies_get h hb hj hy hx

/-- The channels of the array are the weights of the source views that were compared. -/
structure Channels (t : Tensor ℝ) (compared : List (Tensor ℝ × Tensor ℝ))
    (batch height width : Nat) : Prop where
  single : t.IsSingle [batch, compared.length, height, width]
  get_eq : ∀ b i c y x, b < batch → compared[i]? = some c → y < height → x < width →
    t.get [b, i, y, x] = c.2.get [b, 0, y, x]

namespace Channels

theorem unique (h : Channels t compared batch height width)
    (hu : Channels u compared batch height width) : t = u := by
  refine ext_get h.single.kind_eq hu.single.kind_eq
    (h.single.shape_eq.trans hu.single.shape_eq.symm) fun index hw => ?_
  rw [h.single.shape_eq] at hw
  obtain ⟨b, i, y, x, rfl, hb, hi, hy, hx⟩ := hw.exists_four
  have hc : compared[i]? = some compared[i] := List.getElem?_eq_getElem hi
  rw [h.get_eq b i _ y x hb hc hy hx, hu.get_eq b i _ y x hb hc hy hx]

theorem copies (h : Channels t compared batch height width) (k : Nat) :
    Channels (t.copies k) (repeated k compared) batch height width where
  single := by
    rw [length_repeated]
    exact h.single.copies k
  get_eq b j c y x hb hc hy hx := by
    obtain ⟨hj, -⟩ := List.getElem?_eq_some_iff.1 hc
    rw [length_repeated] at hj
    rw [getElem?_repeated hj] at hc
    rw [copies_get h.single hb hj hy hx, h.get_eq b _ c y x hb hc hy hx]

theorem scaled (h : Channels t compared batch height width) (c : ℝ) :
    Channels (t.scaled c) (compared.map (Prod.map id (Tensor.scaled c))) batch height width where
  single := by
    rw [List.length_map]
    exact h.single.map (c * ·)
  get_eq b i d y x hb hd hy hx := by
    rw [List.getElem?_map] at hd
    obtain ⟨e, he, rfl⟩ := Option.map_eq_some_iff.1 hd
    rw [get_scaled, h.get_eq b i e y x hb he hy hx, Prod.map_snd, get_scaled]

theorem totalWeight_eq (h : Channels t compared batch height width) {b y x : Nat} (hb : b < batch)
    (hy : y < height) (hx : x < width) :
    Matcher.totalWeight compared b y x =
      ∑ i : Fin compared.length, t.get [b, i, y, x] := by
  rw [Matcher.totalWeight, ← List.sum_ofFn]
  congr 1
  refine List.ext_getElem (by simp) fun i hi _ => ?_
  rw [List.getElem_map, List.getElem_ofFn]
  rw [List.length_map] at hi
  exact (h.get_eq b i _ y x hb (List.getElem?_eq_getElem hi) hy hx).symm

/-- Weights that are laid side by side. -/
theorem concat (hne : compared ≠ [])
    (hcompared : ∀ c ∈ compared, c.2.IsSingle [batch, 1, height, width]) :
    ∃ t, Tensor.concat 1 (compared.map Prod.snd) = .ok t ∧
      Channels t compared batch height width := by
  obtain ⟨n, view, rfl⟩ : ∃ n, ∃ view : Fin n → Tensor ℝ × Tensor ℝ, compared = List.ofFn view :=
    ⟨_, compared.get, (List.ofFn_get compared).symm⟩
  obtain ⟨m, rfl⟩ : ∃ m, n = m + 1 :=
    Nat.exists_eq_succ_of_ne_zero fun hzero => hne (by subst hzero; rfl)
  have hview (v : Fin (m + 1)) := hcompared (view v) (List.mem_ofFn.2 ⟨v, rfl⟩)
  obtain ⟨t, ht, hshape, hkind, hget⟩ := Twins.concat_ok (fun v => (view v).2)
    fun v => ⟨(hview v).shape_eq, (hview v).kind_eq⟩
  refine ⟨t, ?_, ⟨⟨?_, hkind⟩, fun b i c y x hb hc hy hx => ?_⟩⟩
  · rw [List.map_ofFn]
    exact ht
  · rw [hshape, List.length_ofFn]
  · obtain ⟨hi, rfl⟩ := List.getElem?_eq_some_iff.1 hc
    have hi : i < m + 1 := by rwa [List.length_ofFn] at hi
    rw [List.getElem_ofFn]
    exact hget b ⟨i, hi⟩ [y, x] hb (within_two hy hx)

end Channels

/-- At every pixel the views weigh enough together to be divided by what they weigh. -/
def Tensor.ReachesFloor (t : Tensor ℝ) : Prop :=
  ∀ b y x, b < t.size 0 → y < t.size 2 → x < t.size 3 →
    1 / (10 ^ 5 : ℕ) ≤ ∑ i : Fin (t.size 1), t.get [b, i, y, x]

theorem Tensor.reachesFloor_iff (h : t.shape = [batch, n, height, width]) :
    t.ReachesFloor ↔ ∀ b y x, b < batch → y < height → x < width →
      1 / (10 ^ 5 : ℕ) ≤ ∑ i : Fin n, t.get [b, i, y, x] := by
  obtain ⟨shape, elements, size⟩ := t
  obtain rfl : shape = _ := h
  exact Iff.rfl

theorem Channels.floor_le (h : Channels t compared batch height width) (hfloor : t.ReachesFloor)
    {b y x : Nat} (hb : b < batch) (hy : y < height) (hx : x < width) :
    1 / (10 ^ 5 : ℕ) ≤ Matcher.totalWeight compared b y x := by
  rw [h.totalWeight_eq hb hy hx]
  exact (reachesFloor_iff h.single.shape_eq).1 hfloor b y x hb hy hx

end Channels

section Evaluating

open Blueprint

variable {views : ViewFeatures ℝ} {depth weight weights : Tensor ℝ} {grid : NeighborGrid ℝ}
  {carried : Option (Tensor ℝ)} {readout : Readout} {verdict : Verdict ℝ}
  {batch count n height width k : Nat} {compared : List (Tensor ℝ × Tensor ℝ)}

def ViewFeatures.copies (k : Nat) (views : ViewFeatures ℝ) : ViewFeatures ℝ :=
  { views with
    sources := repeated k views.sources
    sourceProjections := repeated k views.sourceProjections }

theorem ViewFeatures.sourceCount_copies (hk : 0 < k) (h : views.sourceCount = .ok n) :
    (views.copies k).sourceCount = .ok (k * n) := by
  obtain ⟨hn, hsources, hprojections⟩ := sourceCount_eq_ok h
  have hlength : (repeated k views.sources).length = k * n := by
    rw [length_repeated, hsources]
  have hlength' : (repeated k views.sourceProjections).length = k * n := by
    rw [length_repeated, hprojections]
  have hne : ¬ (repeated k views.sources).isEmpty = true := by
    rw [List.isEmpty_iff_length_eq_zero, hlength]
    exact (Nat.mul_pos hk hn).ne'
  simp only [sourceCount, ViewFeatures.copies, hlength, hlength', ne_eq, not_true, if_false, hne,
    Bool.false_eq_true]

namespace Matcher

variable {matcher : Matcher ℝ}

/-- Carried weights are those that the views are compared with. -/
theorem channels_of_carried [WorkerPool] {parallel : Bool}
    (hrun : Tasks.run parallel n (matcher.compare views depth (some weights)) = .ok compared)
    (hweights : weights.IsSingle [batch, n, height, width]) :
    Channels weights compared batch height width := by
  have hlength := Tasks.length_of_run hrun
  refine ⟨hlength.symm ▸ hweights, fun b i c y x hb hc hy hx => ?_⟩
  obtain ⟨hi, hcompare⟩ := Tasks.run_eq_ok hrun hc
  obtain ⟨_, _, _, -, -, -, -, hnarrow⟩ := compare_eq_ok hcompare
  have haxis : [batch, n, height, width][1]? = some n := rfl
  obtain ⟨u, hu, -, hget⟩ := hweights.narrow haxis (show i + 1 ≤ n from hi)
  obtain rfl : c.2 = u := Except.ok.inj (hnarrow.symm.trans hu)
  exact (hget _ (within_four hb Nat.one_pos hy hx)).symm

/-- The similarity of a view does not look at how much the view counts. -/
theorem compare_scaledWeights (c : ℝ) (i : Nat) :
    matcher.compare views depth (some (weights.scaled c)) i =
      Prod.map id (Tensor.scaled c) <$> matcher.compare views depth (some weights) i := by
  unfold compare
  split
  next =>
    refine bind_congr_map fun warped => bind_congr_map fun similarity => ?_
    exact bind_map_congr (narrow_scaled c weights 1 i 1) fun _ => rfl
  next => rfl

theorem evaluate_scaledWeights [WorkerPool] {c : ℝ} (hc : 0 < c)
    (hsources : ∀ source ∈ views.sources, source.kind = .single) (hkind : weights.kind = .single)
    (hfloor : weights.ReachesFloor) (hfloor' : (weights.scaled c).ReachesFloor) :
    matcher.evaluate views depth grid weight (some (weights.scaled c)) readout =
      (fun verdict => { verdict with viewWeights := weights.scaled c }) <$>
        matcher.evaluate views depth grid weight (some weights) readout := by
  simp only [evaluate]
  refine bind_congr_of_ok fun n hn => bind_congr_of_ok fun sizes hsizes => ?_
  obtain ⟨batch, count, height, width⟩ := sizes
  refine bind_congr_of_ok fun _ hcarried' => ?_
  have hcarried : checkCarried (some weights) batch n height width = .ok () := hcarried'
  refine bind_map_of_ok (Tasks.run_map matcher.parallel fun i _ => compare_scaledWeights c i)
    fun compared hrun => ?_
  have hweights : weights.IsSingle [batch, n, height, width] :=
    ⟨checkCarried_eq_ok hcarried weights rfl, hkind⟩
  have hchannels := channels_of_carried hrun hweights
  have hcompared := compared_isSingle (fun _ h => (Option.some_ne_none _ h).elim) hsources
    (sizes4_eq_ok.1 hsizes) (fun _ h => Option.mem_some.1 h ▸ hkind) hcarried hrun
  rw [fuse_scaledWeights hc.ne' (compared_ne_nil hn hrun) (fun d hd => (hcompared d hd).2)
    (fun b y x => hchannels.floor_le hfloor) fun b y x => (hchannels.scaled c).floor_le hfloor']
  refine bind_congr_map fun fused => bind_congr_map fun score => ?_
  exact bind_congr_map fun regressed => rfl

/-- Every copy of a view is compared as that view is. -/
theorem compare_copies (hcarried : ∀ weights ∈ carried, weights.IsSingle [batch, n, height, width])
    (hn : views.sourceCount = .ok n) {j : Nat} (hj : j < k * n) :
    matcher.compare (views.copies k) depth (carried.map (Tensor.copies k)) j =
      matcher.compare views depth carried (j % n) := by
  obtain ⟨hpos, hsources, hprojections⟩ := ViewFeatures.sourceCount_eq_ok hn
  have hsource : (views.copies k).sources[j]? = views.sources[j % n]? := by
    subst hsources
    exact getElem?_repeated hj
  have hprojection :
      (views.copies k).sourceProjections[j]? = views.sourceProjections[j % n]? := by
    subst hprojections
    exact getElem?_repeated hj
  simp only [compare, hsource, hprojection]
  cases carried with
  | none => rfl
  | some weights =>
    have hnarrow := narrow_copies (hcarried weights rfl) hj
    simp only [Option.map, hnarrow]
    rfl

theorem checkCarried_copies
    (hcarried : ∀ weights ∈ carried, weights.IsSingle [batch, n, height, width]) (k : Nat) :
    checkCarried (carried.map (Tensor.copies k)) batch (k * n) height width = .ok () := by
  cases carried with
  | none => rfl
  | some weights =>
    have hsizes := sizes4_eq_ok.2 ((hcarried weights rfl).copies k).shape_eq
    simp only [Option.map, checkCarried, hsizes, ok_bind, if_true, pure_eq_ok]

/-- The weights that are handed on, carried or not, are those of the views. -/
theorem channels_handedOn [WorkerPool] (hne : compared ≠ [])
    (hcompared : ∀ c ∈ compared, c.2.IsSingle [batch, 1, height, width])
    (hcarried : ∀ weights ∈ carried, weights.IsSingle [batch, n, height, width])
    (hrun : Tasks.run matcher.parallel n (matcher.compare views depth carried) = .ok compared)
    (hweights : HandsOn carried compared weights) :
    Channels weights compared batch height width := by
  cases carried with
  | some weights' =>
    obtain rfl : weights = weights' := hweights
    exact channels_of_carried hrun (hcarried _ rfl)
  | none =>
    obtain ⟨t, ht, hchannels⟩ := Channels.concat hne hcompared
    obtain rfl : weights = t := Except.ok.inj (hweights.symm.trans ht)
    exact hchannels

/-- Views that are compared repeatedly count as if they were compared once. -/
theorem evaluate_copies [WorkerPool] (hmatcher : matcher.groups ≠ 0 → matcher.RatesVoxels)
    (hk : 0 < k) (hsources : ∀ source ∈ views.sources, source.kind = .single)
    (hkinds : ∀ weights ∈ carried, weights.kind = .single)
    (h : matcher.evaluate views depth grid weight carried readout = .ok verdict)
    (hfloor : verdict.viewWeights.ReachesFloor) :
    matcher.evaluate (views.copies k) depth grid weight (carried.map (Tensor.copies k)) readout =
      .ok { verdict with viewWeights := verdict.viewWeights.copies k } := by
  obtain ⟨batch, count, height, width, n, compared, fused, hdepth, hn, hcarried, hrun, hfused,
    hscore, hregressed, hweights⟩ := evaluate_eq_ok.1 h
  have hcompared := compared_isSingle (fun hgroups _ => hmatcher hgroups) hsources hdepth hkinds
    hcarried hrun
  have hshape (weights : Tensor ℝ) (hw : weights ∈ carried) :
      weights.IsSingle [batch, n, height, width] :=
    ⟨checkCarried_eq_ok hcarried weights hw, hkinds weights hw⟩
  have hne := compared_ne_nil hn hrun
  have hchannels := channels_handedOn hne (fun c hc => (hcompared c hc).2.2) hshape hrun hweights
  have hrun' : Tasks.run matcher.parallel (k * n)
      (matcher.compare (views.copies k) depth (carried.map (Tensor.copies k))) =
        .ok (repeated k compared) :=
    Tasks.run_repeated hrun fun j hj => compare_copies hshape hn hj
  have hfused' : fuse (repeated k compared) = .ok fused :=
    (fuse_repeated hk hne (fun c hc => (hcompared c hc).2)
      fun b y x => hchannels.floor_le hfloor).trans hfused
  refine evaluate_eq_ok.2 ⟨batch, count, height, width, k * n, repeated k compared, fused, hdepth,
    ViewFeatures.sourceCount_copies hk hn, checkCarried_copies hshape k, hrun', hfused', hscore,
    hregressed, ?_⟩
  cases carried with
  | some weights =>
    obtain rfl : verdict.viewWeights = weights := hweights
    rfl
  | none =>
    obtain ⟨t, ht, htchannels⟩ := Channels.concat (repeated_ne_nil hk hne)
      fun c hc => (hcompared c (mem_of_repeated hc)).2.2
    obtain rfl := htchannels.unique (hchannels.copies k)
    exact ht

/-- Weights of the source views that are all multiplied by one constant, and source views that are
all repeated, change nothing but the weights that are handed on. -/
theorem evaluate_relativeWeights [WorkerPool] (scope : String) (groups : Nat)
    (ratesViews parallel : Bool) (answers : String → Tensor ℝ)
    (hanswers : Answered
      (Matcher.blueprint scope groups ratesViews parallel : Blueprint ℝ _).requests answers) :
    let matcher : Matcher ℝ :=
      (Matcher.blueprint scope groups ratesViews parallel).assemble answers
    (∀ (views : ViewFeatures ℝ) (depth weight weights : Tensor ℝ) (grid : NeighborGrid ℝ)
      (readout : Readout) (c : ℝ),
      (∀ source ∈ views.sources, source.kind = .single) → weights.kind = .single → 0 < c →
      weights.ReachesFloor → (weights.scaled c).ReachesFloor →
      matcher.evaluate views depth grid weight (some (weights.scaled c)) readout =
        (fun verdict => { verdict with viewWeights := weights.scaled c }) <$>
          matcher.evaluate views depth grid weight (some weights) readout) ∧
    ∀ (views : ViewFeatures ℝ) (depth weight : Tensor ℝ) (grid : NeighborGrid ℝ)
      (carried : Option (Tensor ℝ)) (readout : Readout) (verdict : Verdict ℝ) (k : Nat),
      (∀ source ∈ views.sources, source.kind = .single) →
      (∀ weights ∈ carried, weights.kind = .single) → 0 < k →
      matcher.evaluate views depth grid weight carried readout = .ok verdict →
      verdict.viewWeights.ReachesFloor →
      matcher.evaluate (views.copies k) depth grid weight (carried.map (Tensor.copies k)) readout =
        .ok { verdict with viewWeights := verdict.viewWeights.copies k } := by
  refine ⟨?_, ?_⟩
  · intro views depth weight weights grid readout c hsources hkind hc hfloor hfloor'
    exact evaluate_scaledWeights hc hsources hkind hfloor hfloor'
  · intro views depth weight grid carried readout verdict k hsources hkinds hk h hfloor
    exact evaluate_copies (fun hgroups => assemble_ratesVoxels hgroups hanswers) hk hsources hkinds
      h hfloor

attribute [local instance] WorkerPool.inTurn

/-- Weights of two source views, three times these weights, and both views twice. -/
theorem evaluate_relativeWeights_varied :
    ∃ (answers : String → Tensor ℝ) (verdict : Verdict ℝ),
      let matcher := (Matcher.blueprint "evaluation" 1 true false).assemble answers
      let weights : Tensor ℝ := ofFn [1, 2, 2, 2] fun index => (index.sum + 1 : Nat)
      matcher.evaluate Scoring.varied.views Scoring.varied.depth Scoring.varied.grid
          Scoring.varied.weight (some weights) .expectation = .ok verdict ∧
      matcher.evaluate Scoring.varied.views Scoring.varied.depth Scoring.varied.grid
          Scoring.varied.weight (some (weights.scaled 3)) .expectation =
        .ok { verdict with viewWeights := weights.scaled 3 } ∧
      matcher.evaluate (Scoring.varied.views.copies 2) Scoring.varied.depth Scoring.varied.grid
          Scoring.varied.weight (some (weights.copies 2)) .expectation =
        .ok { verdict with viewWeights := weights.copies 2 } := by
  obtain ⟨answers, hanswers, hok⟩ := Scoring.exists_variedMatcher
  let weights : Tensor ℝ := ofFn [1, 2, 2, 2] fun index => (index.sum + 1 : Nat)
  have hsingle : weights.IsSingle [1, 2, 2, 2] := isSingle_ofFn _ _
  obtain ⟨verdict, hverdict⟩ := hok (some weights) .expectation
    fun _ h => Option.mem_some.1 h ▸ hsingle
  have hsources := Scoring.varied.sources_single
  have hkept : verdict.viewWeights = weights := by
    obtain ⟨_, _, _, _, _, _, _, -, -, -, -, -, -, -, hkept⟩ := evaluate_eq_ok.1 hverdict
    exact hkept
  have hfloor (r : ℝ) (hr : 1 ≤ r) : (weights.scaled r).ReachesFloor := by
    refine (reachesFloor_iff (hsingle.map (r * ·)).shape_eq).2 fun b y x hb hy hx => ?_
    have hentry (i : Fin 2) : 1 ≤ (weights.scaled r).get [b, i, y, x] := by
      rw [get_scaled, get_ofFn (within_four hb i.isLt hy hx)]
      exact one_le_mul_of_one_le_of_one_le hr (by exact_mod_cast Nat.le_add_left 1 _)
    calc (1 / (10 ^ 5 : ℕ) : ℝ)
        ≤ 1 + 1 := by norm_num
      _ ≤ (weights.scaled r).get [b, 0, y, x] + (weights.scaled r).get [b, 1, y, x] :=
        add_le_add (hentry 0) (hentry 1)
      _ = ∑ i : Fin 2, (weights.scaled r).get [b, i, y, x] :=
        (Fin.sum_univ_two fun i => (weights.scaled r).get [b, i, y, x]).symm
  have hfloorOnce : weights.ReachesFloor := by
    rw [← scaled_one weights]
    exact hfloor 1 le_rfl
  obtain ⟨hscaled, hcopies⟩ := evaluate_relativeWeights "evaluation" 1 true false answers hanswers
  refine ⟨answers, verdict, hverdict, ?_, ?_⟩
  · rw [hscaled _ _ _ weights _ _ 3 hsources rfl three_pos hfloorOnce (hfloor 3 (by norm_num)),
      hverdict, map_ok]
  · have htwice := hcopies _ _ _ _ (some weights) _ verdict 2 hsources
      (fun _ h => Option.mem_some.1 h ▸ rfl) Nat.two_pos hverdict (hkept ▸ hfloorOnce)
    rw [hkept] at htwice
    exact htwice

end Matcher

end Evaluating

end MultiViewDepth
