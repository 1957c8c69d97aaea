import MultiViewDepth.Stage
import MultiViewDepth.Proofs.ArraySizes

/-!
Sizes of what a round works with.

What a round could compute has the sizes that the features, the neighbors and the number of
hypotheses give it, whatever numbers it holds.
-/
namespace MultiViewDepth

open Tensor Arithmetic

variable {α δ : Type} [Scalar α] [Scalar δ] [Precision α δ] {batch count height width : Nat}

section Grids

variable {grid : NeighborGrid α} {depth : Tensor α}

theorem neighbors_of_build {learned : Tensor α} {pattern : Pattern}
    (h : NeighborGrid.build learned pattern = .ok grid) : grid.neighbors = pattern.length := by
  simp only [NeighborGrid.build, bind_eq_ok, throw_eq_error, error_bind, error_ite_eq_ok] at h
  obtain ⟨⟨_, _, _, _⟩, -, -, points, -, h⟩ := h
  cases h
  rfl

/-- Every neighbor lends one hypothesis. -/
theorem shape_of_lend {u : Tensor α} (hshape : depth.shape = [batch, count, height, width])
    (h : lend depth grid = .ok u) : u.shape = [batch, count + grid.neighbors, height, width] := by
  simp only [lend, sizes4_eq_ok.2 hshape, ok_bind, bind_eq_ok, throw_eq_error, error_bind,
    ite_error_eq_ok] at h
  obtain ⟨-, middle, -, sampled, -, lent, -, all, -, h⟩ := h
  exact (compute_eq_ok h).1

end Grids

section Weights

variable {grid : NeighborGrid α} {depth near features weight : Tensor α}

/-- A neighbor weight for every hypothesis, with an axis for the neighbors. -/
theorem NeighborWeight.shape_of_ofDepth {range : DepthRange δ} {interval : δ}
    (hdepth : depth.shape = [batch, count, height, width])
    (h : ofDepth depth grid range interval = .ok near) :
    near.shape = [batch, count, grid.neighbors, height, width] := by
  simp only [ofDepth, sizes4_eq_ok.2 hdepth, ok_bind, bind_eq_ok, throw_eq_error, error_bind,
    error_ite_eq_ok, pure_eq_ok] at h
  obtain ⟨_, -, neighbors, hneighbors, own, hown, gap, hgap, -, h⟩ := h
  cases h
  have hneighbors := (reshape_eq_ok hneighbors).1
  have hown : own.shape = [batch, count, 1, height, width] := by
    rw [shape_of_unsqueeze hown, shape_map, hdepth]
    rfl
  refine (zip_shape_of_repeats ?_ hgap).trans hneighbors
  rw [hneighbors, hown]
  exact Twins.repeats_set [batch, count, grid.neighbors, height, width] 2

/-- A head rates the similarities of the neighbors in all groups. -/
theorem NeighborWeight.ofFeatures_eq_ok {head : Layer α} {groups channels : Nat}
    (hfeatures : features.shape = [batch, channels, height, width])
    (h : ofFeatures head groups features grid = .ok weight) :
    ∃ similarity rated, similarity.shape = [batch, groups, grid.neighbors, height, width] ∧
      similarity.kind = features.kind ∧ head similarity = .ok rated ∧
      rated.squeeze 1 = .ok weight := by
  simp only [ofFeatures, sizes4_eq_ok.2 hfeatures, ok_bind, bind_eq_ok, throw_eq_error, error_bind,
    ite_error_eq_ok, error_ite_eq_ok] at h
  obtain ⟨-, -, found, hfound, around, haround, center, hcenter, product, hproduct, means, hmeans,
    similarity, hsimilarity, rated, hrated, hweight⟩ := h
  have haroundShape := (reshape_eq_ok haround).1
  have hproductShape : product.shape =
      [batch, groups, channels / groups, grid.neighbors, height, width] := by
    refine (zip_shape_of_repeats ?_ hproduct).trans haroundShape
    rw [haroundShape, (reshape_eq_ok hcenter).1]
    exact Twins.repeats_set [batch, groups, channels / groups, grid.neighbors, height, width] 3
  obtain ⟨_, -, hmeansShape, hmeansKind⟩ := reduce_eq_ok hmeans
  rw [hproductShape] at hmeansShape
  refine ⟨similarity, rated, ?_, ?_, hrated, hweight⟩
  · rw [shape_of_squeeze (by rw [hmeansShape]; rfl) hsimilarity, hmeansShape]
    rfl
  · calc similarity.kind = means.kind := kind_of_squeeze hsimilarity
      _ = product.kind := hmeansKind
      _ = around.kind := (zip_eq_ok hproduct).1
      _ = found.kind := kind_of_reshape haround
      _ = features.kind := kind_of_sample hfound

theorem NeighborWeight.shape_of_combine {neighbors : Nat}
    (hnear : near.shape = [batch, count, neighbors, height, width])
    (hfeatures : features.shape = [batch, neighbors, height, width])
    (h : combine near features = .ok weight) :
    weight.shape = [batch, count, neighbors, height, width] := by
  simp only [combine, bind_eq_ok] at h
  obtain ⟨raised, hraised, product, hproduct, total, htotal, h⟩ := h
  have hraised : raised.shape = [batch, 1, neighbors, height, width] := by
    rw [shape_of_unsqueeze hraised, hfeatures]
    rfl
  have hproduct : product.shape = [batch, count, neighbors, height, width] := by
    refine (zip_shape_of_repeats ?_ hproduct).trans hnear
    rw [hnear, hraised]
    exact Twins.repeats_set [batch, count, neighbors, height, width] 1
  obtain ⟨_, -, htotal, -⟩ := reduce_eq_ok htotal
  refine (zip_shape_of_repeats ?_ h).trans hproduct
  rw [atLeast, derive, derive₂, htotal]
  exact Twins.repeats_set product.shape 2

end Weights

section Scores

variable {grid : NeighborGrid α} {matcher : Matcher α} {similarity weight depth score u : Tensor α}

/-- A score is the softmax of costs that were gathered from what the head gave. -/
theorem Matcher.score_parts
    (h : matcher.score similarity grid weight batch count height width = .ok score) :
    ∃ rated costs : Tensor α, matcher.similarityHead similarity = .ok rated ∧
      costs.softmax 1 = .ok score ∧ costs.kind = rated.kind ∧
      (weight.shape = [batch, count, grid.neighbors, height, width] →
        costs.shape = [batch, count, height, width]) := by
  simp only [Matcher.score, bind_eq_ok] at h
  obtain ⟨rated, hrated, flat, hflat, found, hfound, gathered, hgathered, product, hproduct, sum,
    hsum, costs, hcosts, hsoftmax⟩ := h
  obtain ⟨n, -, hsumShape, hsumKind⟩ := reduce_eq_ok hsum
  refine ⟨rated, costs, hrated, hsoftmax, ?_, fun hweight => ?_⟩
  · calc costs.kind = sum.kind := kind_of_squeeze hcosts
      _ = product.kind := hsumKind
      _ = gathered.kind := (zip_eq_ok hproduct).1
      _ = found.kind := kind_of_reshape hgathered
      _ = flat.kind := kind_of_sample hfound
      _ = rated.kind := kind_of_squeeze hflat
  · have hgatheredShape := (reshape_eq_ok hgathered).1
    have hshape : product.shape = [batch, count, grid.neighbors, height, width] := by
      rw [zip_shape_of_repeats (by rw [hgatheredShape, hweight]; exact Repeats.refl _) hproduct,
        hgatheredShape]
    rw [hshape] at hsumShape
    rw [shape_of_squeeze (by rw [hsumShape]; rfl) hcosts, hsumShape]
    rfl

/-- One depth is read out for every pixel. -/
theorem Readout.shape_of_depth {readout : Readout}
    (hdepth : depth.shape = [batch, count, height, width])
    (h : readout.depth depth score = .ok u) : u.shape = [batch, 1, height, width] := by
  cases readout with
  | expectation =>
    obtain ⟨product, hproduct, h⟩ := bind_eq_ok.1 h
    obtain ⟨_, -, h, -⟩ := reduce_eq_ok h
    rw [h, shape_of_zipSame hproduct, hdepth]
    rfl
  | inverseDepth =>
    simp only [Readout.depth, betweenEnds, sizes4_eq_ok.2 hdepth, ok_bind] at h
    split at h
    next hone =>
      cases h
      rw [hdepth, hone]
    next =>
      simp only [bind_eq_ok, pure_eq_ok] at h
      obtain ⟨_, -, _, -, first, hfirst, _, -, _, -, _, -, mixed, hmixed, h⟩ := h
      cases h
      rw [shape_map, shape_of_zipSame hmixed, shape_map, (narrow_eq_ok hfirst).1, hdepth]
      rfl

end Scores

section Choosing

variable {σ : Type} [RandomSource σ α] {range : DepthRange δ} {estimate : Option (Tensor α)}
  {rng : σ}

/-- Hypotheses that a stage chooses without neighbors. -/
theorem Sampler.shape_of_hypotheses {sampler : Sampler δ} {r : Tensor α × σ}
    (hestimate : ∀ t ∈ estimate, t.shape = [batch, 1, height, width])
    (hr : sampler.hypotheses estimate range batch height width rng = .ok r) :
    r.1.shape =
      [batch, if estimate.isNone then scatterCount else sampler.count, height, width] := by
  cases estimate with
  | none =>
    cases hr
    rfl
  | some t =>
    have ht := hestimate t rfl
    simp only [Sampler.hypotheses] at hr
    by_cases hone : sampler.count = 1
    · rw [if_pos hone] at hr
      cases hr
      simpa [hone] using ht
    · rw [if_neg hone] at hr
      obtain ⟨u, hu, hr⟩ := bind_eq_ok.1 hr
      cases hr
      simp only [Hypotheses.ladder, sizes4_eq_ok.2 ht, ok_bind, if_true] at hu
      exact (compute_eq_ok hu).1

end Choosing

end MultiViewDepth
