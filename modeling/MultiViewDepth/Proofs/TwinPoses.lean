import MultiViewDepth.Proofs.Exact
import MultiViewDepth.Proofs.Indices
import MultiViewDepth.Proofs.TransformMatrices
import MultiViewDepth.Proofs.TwinViews
import MultiViewDepth.View.Projections

/-!
Projections read by entry, and the poses that two views of twins have to each other.

The entries of projections may be of any kind, so they are compared as more precise numbers.
-/
namespace MultiViewDepth

open Tensor

section Wide

variable {α δ : Type} [Scalar α] [Scalar δ] [Precision α δ] {t : Tensor α}

/-- Entries read from other places, whatever their kind. -/
theorem getWide_derive (t : Tensor α) {shape index : List Nat} (hw : Within index shape)
    (g : List Nat → List Nat) :
    ((t.derive shape fun entry index => entry (g index)).getWide index : δ) =
      t.getWide (g index) := by
  have hlt := place_lt hw
  have hdigits := digits_place hw
  obtain ⟨shape, elements, size⟩ := t
  cases elements <;>
    simp_all [getWide, derive, derive₂, Elements.derive, Elements.entry,
      Array.getD_eq_getD_getElem?]

/-- Slices along an axis, whatever the kind of the entries. -/
theorem narrow_ok (t : Tensor α) (axis start count : Nat)
    {n : Nat} (haxis : t.shape[axis]? = some n)
    (hle : start + count ≤ n) :
    ∃ u, t.narrow axis start count = .ok u ∧ u.shape = t.shape.set axis count ∧ u.kind = t.kind ∧
      ∀ index, Within index (t.shape.set axis count) →
        (u.getWide index : δ) = t.getWide (index.modify axis (start + ·)) := by
  simp only [Tensor.narrow, haxis, if_pos hle]
  exact ⟨_, rfl, rfl, kind_derive₂ _, fun index hw =>
    getWide_derive t hw fun index => index.modify axis (start + ·)⟩

/-- One slice along the second axis, without that axis. -/
theorem slice_ok {batch views i : Nat} {rest : List Nat} (hshape : t.shape = batch :: views :: rest)
    (hi : i < views) :
    ∃ u, (do (← t.narrow 1 i 1).squeeze 1 : Result (Tensor α)) = .ok u ∧ u.shape = batch :: rest ∧
      u.kind = t.kind ∧ ∀ b index, b < batch → Within index rest →
        (u.getWide (b :: index) : δ) = t.getWide (b :: i :: index) := by
  obtain ⟨u, hu, hs, hk, hget⟩ := narrow_ok (δ := δ) t 1 i 1
    (by simp [hshape]) hi
  simp only [hshape, List.set_cons_succ, List.set_cons_zero] at hs hget
  have hvolume : volume u.shape = volume (batch :: rest) := by simp [hs]
  have hv : u.reshape (batch :: rest) = .ok ⟨_, u.elements, u.size_elements.trans hvolume⟩ :=
    dif_pos hvolume
  rw [hu, ok_bind, Tensor.squeeze]
  simp only [hs, List.getElem?_cons_succ, List.getElem?_cons_zero, List.eraseIdx_cons_succ,
    List.eraseIdx_cons_zero, hv]
  refine ⟨_, rfl, rfl, hk, fun b index hb hw => ?_⟩
  have hslice := hget (b :: 0 :: index) ⟨hb, by decide, hw⟩
  simp only [List.modify_succ_cons, List.modify_zero_cons, Nat.add_zero] at hslice
  rw [← hslice]
  simp [getWide, hs]

end Wide

noncomputable def projectionAt (t : Tensor ℝ) (b : Nat) : Transform ℝ :=
  fun r c => t.getWide [b, r.val, c.val]

namespace RelativePose

variable {n : Nat} {sources references : Fin n → Transform ℝ}

theorem compose_ok {inverses : Fin n → Transform ℝ}
    (h : ∀ b, (references b).inverse? = some (inverses b)) (k : Nat) :
    compose k (List.ofFn sources) (List.ofFn references) =
      .ok (List.ofFn fun b => (sources b).mul (inverses b)) := by
  induction n generalizing k with
  | zero => simp [compose]
  | succ n ih =>
    simp only [List.ofFn_succ, compose, h 0, ih fun b => h b.succ]
    rfl

/-- The first reference without inverse decides. -/
theorem compose_error {b : Fin n} (h : (references b).inverse? = none)
    (hfirst : ∀ i < b, (references i).inverse? ≠ none) (k : Nat) :
    compose k (List.ofFn sources) (List.ofFn references) =
      .error (.singularProjection (k + b)) := by
  induction n generalizing k with
  | zero => exact b.elim0
  | succ n ih =>
    simp only [List.ofFn_succ, compose]
    cases b using Fin.cases with
    | zero => simp [h]
    | succ b =>
      obtain ⟨inverse, hinverse⟩ := Option.ne_none_iff_exists'.1 (hfirst 0 (Fin.succ_pos b))
      rw [hinverse]
      simp only [ih h (fun i hi => hfirst i.succ (Fin.succ_lt_succ_iff.2 hi)), error_bind]
      simp [Nat.add_assoc, Nat.add_comm 1]

variable {source reference : Tensor ℝ} {batch : Nat}

theorem transforms_ok (h : source.shape = [batch, 4, 4]) :
    (transforms source : Result (List (Transform ℝ))) =
      .ok (List.ofFn fun b : Fin batch => projectionAt source b) := by
  simp only [transforms, sizes3_eq_ok.2 h, ok_bind, or_true, and_self, if_true, pure_eq_ok,
    range_eq_ofFn, List.map_ofFn]
  refine congrArg (fun ts => Except.ok (List.ofFn ts)) (funext fun b => ?_)
  funext r c
  exact if_pos r.isLt

theorem ofTransforms_get (poses : Fin n → Transform ℝ) {b r c : Nat} (hb : b < n) (hr : r < 3)
    (hc : c < 3) :
    (ofTransforms (α := ℝ) (List.ofFn poses)).rotation.get [b, r, c] = (poses ⟨b, hb⟩).entry r c ∧
      (ofTransforms (α := ℝ) (List.ofFn poses)).displacement.get [b, r, 0] =
        (poses ⟨b, hb⟩).entry r 3 := by
  have hlength : b < (List.ofFn poses).length := by simpa using hb
  constructor
  · rw [ofTransforms, get_ofFn (within_three hlength hr hc)]
    simp [Array.getD_eq_getD_getElem?, hb]
  · rw [ofTransforms, get_ofFn (within_three hlength hr (by decide))]
    simp [Array.getD_eq_getD_getElem?, hb]

/-- With inverses of all references, every pair of views has a pose. -/
theorem between_ok (hsource : source.shape = [batch, 4, 4])
    (hreference : reference.shape = [batch, 4, 4])
    (hregular : ∀ b < batch, (projectionAt reference b).det ≠ 0) :
    ∃ pose, between source reference = .ok pose ∧ pose.rotation.shape = [batch, 3, 3] ∧
      pose.rotation.kind = .single ∧ pose.displacement.shape = [batch, 3, 1] ∧
      pose.displacement.kind = .single ∧
      ∀ b inverse, b < batch → (projectionAt reference b).inverse? = some inverse →
        ∀ r c, r < 3 → c < 3 →
          pose.rotation.get [b, r, c] = ((projectionAt source b).mul inverse).entry r c ∧
          pose.displacement.get [b, r, 0] = ((projectionAt source b).mul inverse).entry r 3 := by
  choose inverses hinverses using fun b : Fin batch => Transform.exists_inverse (hregular b b.isLt)
  simp only [between, transforms_ok hsource, transforms_ok hreference, ok_bind, List.length_ofFn,
    if_true, compose_ok hinverses, pure_eq_ok]
  refine ⟨_, rfl, by simp [ofTransforms], rfl, by simp [ofTransforms], rfl, ?_⟩
  intro b inverse hb hinverse r c hr hc
  have heq : inverses ⟨b, hb⟩ = inverse :=
    Option.some.inj ((hinverses ⟨b, hb⟩).symm.trans hinverse)
  rw [← heq]
  exact ofTransforms_get _ hb hr hc

theorem between_error (hsource : source.shape = [batch, 4, 4])
    (hreference : reference.shape = [batch, 4, 4]) {b : Nat} (hb : b < batch)
    (hsingular : (projectionAt reference b).det = 0)
    (hfirst : ∀ i < b, (projectionAt reference i).det ≠ 0) :
    between source reference = .error (.singularProjection b) := by
  have herror : compose 0 (List.ofFn fun b : Fin batch => projectionAt source b)
      (List.ofFn fun b : Fin batch => projectionAt reference b) =
        .error (.singularProjection (0 + b)) :=
    compose_error (b := ⟨b, hb⟩) (Transform.inverse?_eq_none_iff.2 hsingular)
      (fun i hi => mt Transform.inverse?_eq_none_iff.1 (hfirst i hi)) 0
  simp only [between, transforms_ok hsource, transforms_ok hreference, ok_bind, List.length_ofFn,
    if_true, herror, error_bind, Nat.zero_add]

end RelativePose

/-- Twins with the same matrices have the same pose. -/
theorem Twins.pose_alike {p : Twins} {source source' reference reference' : Tensor ℝ}
    (hsource : source.shape = [p.size, 4, 4]) (hsource' : source'.shape = [p.size', 4, 4])
    (hreference : reference.shape = [p.size, 4, 4])
    (hreference' : reference'.shape = [p.size', 4, 4])
    (hregular : ∀ b < p.size, (projectionAt reference b).det ≠ 0)
    (hregular' : ∀ b < p.size', (projectionAt reference' b).det ≠ 0)
    (hsources : projectionAt source p.element = projectionAt source' p.element')
    (hreferences : projectionAt reference p.element = projectionAt reference' p.element') :
    Both p.PoseAlike (RelativePose.between source reference)
      (RelativePose.between source' reference') := by
  obtain ⟨pose, hpose, hr, hrk, hd, hdk, hget⟩ :=
    RelativePose.between_ok hsource hreference hregular
  obtain ⟨pose', hpose', hr', hrk', hd', hdk', hget'⟩ :=
    RelativePose.between_ok hsource' hreference' hregular'
  obtain ⟨inverse, hinverse⟩ := Transform.exists_inverse (hregular _ p.lt)
  have hentry := hget _ inverse p.lt hinverse
  have hentry' := hget' _ inverse p.lt' (hreferences ▸ hinverse)
  rw [← hsources] at hentry'
  refine ⟨pose, pose', hpose, hpose', ⟨hr, hr', hrk, hrk', fun index hw => ?_⟩,
    ⟨hd, hd', hdk, hdk', fun index hw => ?_⟩⟩
  · obtain ⟨r, c, rfl, hr, hc⟩ := hw.exists_two
    rw [(hentry r c hr hc).1, (hentry' r c hr hc).1]
  · obtain ⟨r, c, rfl, hr, hc⟩ := hw.exists_two
    obtain rfl : c = 0 := by omega
    rw [(hentry r 0 hr (by decide)).2, (hentry' r 0 hr (by decide)).2]

end MultiViewDepth
