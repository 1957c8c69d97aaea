import MultiViewDepth.Proofs.Assembly
import MultiViewDepth.Proofs.Draws
import MultiViewDepth.Proofs.TwinScene

/-!
Inputs that vary: parameters and pixels that depend on their places, random numbers that differ
from draw to draw, and cameras that stand side by side.

Every estimator can be built from such parameters, and every camera of such a scene has an inverse.
-/
namespace MultiViewDepth

open Tensor RandomSource

section Parameters

variable {source : ParameterSource ℝ}

/-- Answers every request with numbers that depend on the name and on the place. -/
noncomputable def variedSource : ParameterSource ℝ := fun request =>
  some (.ofFn request.shape fun index => ((request.name.length + index.sum : Nat) : ℝ))

theorem variedSource_answers (settings : Settings ℝ) : variedSource.Answers settings :=
  fun _ _ _ _ => ⟨_, rfl, rfl⟩

open Classical in
noncomputable def ParameterSource.silenced (source : ParameterSource ℝ)
    (chosen : ParameterRequest → Prop) : ParameterSource ℝ := fun request =>
  if chosen request then some (.ofFn request.shape fun _ => 0) else source request

variable {chosen : ParameterRequest → Prop} {request : ParameterRequest}

theorem ParameterSource.silenced_of_not (h : ¬ chosen request) :
    source.silenced chosen request = source request := if_neg h

/-- A source without some of its numbers answers as many requests as with them. -/
theorem ParameterSource.exists_silenced
    (h : ∃ t, source request = some t ∧ t.shape = request.shape) :
    ∃ t, source.silenced chosen request = some t ∧ t.shape = request.shape := by
  by_cases hchosen : chosen request
  · exact ⟨_, if_pos hchosen, rfl⟩
  · rwa [silenced_of_not hchosen]

theorem ParameterSource.getWide_silenced (h : chosen request) {t : Tensor ℝ}
    (ht : source.silenced chosen request = some t) {index : List Nat}
    (hindex : Within index t.shape) : (t.getWide index : ℝ) = 0 := by
  obtain rfl := Option.some.inj ((if_pos h).symm.trans ht)
  exact get_ofFn hindex _

/-- Silencing parameters changes their values and nothing else. -/
theorem ParameterSource.silenced_answers {settings : Settings ℝ} (h : source.Answers settings)
    (chosen : ParameterRequest → Prop) : (source.silenced chosen).Answers settings :=
  fun b hb request hrequest => exists_silenced (h b hb request hrequest)

end Parameters

section Draws

/-- A list of random numbers without an end, and the place on it that is read next. -/
structure Tape where
  number : Nat → ℝ
  position : Nat

noncomputable instance : RandomSource Tape ℝ where
  next tape := (tape.number tape.position, { tape with position := tape.position + 1 })

theorem Tape.after_eq (n : Nat) (tape : Tape) :
    after n tape = { tape with position := tape.position + n } := by
  induction n generalizing tape with
  | zero => rfl
  | succ n ih =>
    rw [after_succ, ih]
    simp only [next, Nat.add_right_comm, Nat.add_assoc]

theorem Tape.draw_eq (n : Nat) (tape : Tape) : draw n tape = tape.number (tape.position + n) := by
  rw [draw, Tape.after_eq]
  rfl

noncomputable def Tape.varied : Tape := ⟨fun n => n / (n + 1), 0⟩

/-- The varied tape holds numbers of the unit interval. -/
theorem Tape.draw_varied (n : Nat) : draw n varied ∈ Set.Ico (0 : ℝ) 1 := by
  have hpos : (0 : ℝ) < n + 1 := n.cast_add_one_pos
  rw [Tape.draw_eq, varied, Nat.zero_add]
  exact ⟨div_nonneg n.cast_nonneg hpos.le, (div_lt_one hpos).2 (lt_add_one _)⟩

end Draws

section Cameras

/-- The projection of a camera that is moved to the side. -/
def sideMatrix (shift r c : Nat) : ℝ :=
  if r = c then 1 else if r = 0 ∧ c = 3 then shift else 0

theorem det_sideMatrix (shift : Nat) :
    (Matrix.of fun r c : Fin 4 => sideMatrix shift r c).det = 1 := by
  rw [Matrix.det_of_isUpperTriangular]
  · simp [sideMatrix]
  · intro i j hij
    have hlt : (j : Nat) < i := hij
    have hne : ¬ (i : Nat) = j := by omega
    have hrow : ¬ ((i : Nat) = 0 ∧ (j : Nat) = 3) := by omega
    exact (if_neg hne).trans (if_neg hrow)

noncomputable def sideView (shift : Nat) : Tensor ℝ := .ofFn [1, 4, 4] fun
  | [_, r, c] => sideMatrix shift r c
  | _ => 0

theorem projectionAt_sideView (shift : Nat) {b : Nat} (hb : b < 1) :
    Matrix.of (projectionAt (sideView shift) b) =
      Matrix.of fun r c : Fin 4 => sideMatrix shift r c := by
  ext r c
  rw [Matrix.of_apply, projectionAt, sideView, getWide_of_single rfl,
    get_ofFn (within_three hb r.isLt c.isLt)]
  rfl

theorem det_sideView (shift : Nat) {b : Nat} (hb : b < 1) :
    (Matrix.of (projectionAt (sideView shift) b)).det ≠ 0 := by
  rw [projectionAt_sideView shift hb, det_sideMatrix]
  exact one_ne_zero

/-- The distance of two views differs from element to element. -/
noncomputable def sideMatrices (batch views : Nat) : Tensor ℝ := .ofFn [batch, views, 4, 4] fun
  | [b, v, r, c] => sideMatrix ((b + 1) * v) r c
  | _ => 0

end Cameras

section Scenes

noncomputable def unitRange : DepthRange ℝ where
  near := 1
  far := 1 + 1
  admissible := ⟨rfl, rfl, by norm_num, by norm_num⟩

/-- A reference view and `sources + 1` others; a pixel differs from its neighbors, from the same
pixel of the next view and from that of the next element. -/
noncomputable def Scene.varied (batch sources rows columns : Nat) : Scene ℝ ℝ where
  batch := batch
  views := sources + 2
  height := 8 * (rows + 2)
  width := 8 * (columns + 2)
  images := .ofFn [batch, sources + 2, 3, 8 * (rows + 2), 8 * (columns + 2)] fun index => index.sum
  projections :=
    { batch := batch
      views := sources + 2
      stages := List.replicate stageCount (sideMatrices batch (sources + 2))
      length_stages := List.length_replicate
      shape_stage := fun t ht => by rw [List.eq_of_mem_replicate ht]; rfl }
  range := unitRange
  shape_images := rfl
  kind_images := rfl
  two_le_views := by omega
  height_mod := by omega
  width_mod := by omega
  smallestSide_le_height := by simp only [smallestSide]; omega
  smallestSide_le_width := by simp only [smallestSide]; omega
  batch_projections := rfl
  views_projections := rfl

/-- All reference cameras of the varied scene are regular. -/
theorem Scene.varied_regular (batch sources rows columns : Nat) {stage : Nat}
    (hstage : stage < stageCount) : (Scene.varied batch sources rows columns).RegularAt stage := by
  intro b hb
  have hmatrix : (Scene.varied batch sources rows columns).referenceMatrix stage b =
      Matrix.of fun r c : Fin 4 => sideMatrix ((b + 1) * 0) r c := by
    ext r c
    have ht : (Scene.varied batch sources rows columns).projections.stage? stage =
        some (sideMatrices batch (sources + 2)) :=
      (List.getElem?_replicate).trans (if_pos hstage)
    simp only [referenceMatrix, Matrix.of_apply, ht]
    rw [getWide_of_single rfl]
    exact get_ofFn (within_four hb (Nat.succ_pos _) r.isLt c.isLt) _
  rw [hmatrix, det_sideMatrix]
  exact one_ne_zero

noncomputable def ViewFeatures.varied (channels height width : Nat) : ViewFeatures ℝ where
  reference := .ofFn [1, channels, height, width] fun index => index.sum
  sources := [.ofFn [1, channels, height, width] fun index => (index.sum + 1 : Nat)]
  referenceProjection := sideView 0
  sourceProjections := [sideView 1]

theorem Settings.validate_default : (Settings.default : Settings ℝ).validate = .ok () := by
  refine Settings.validate_eq_ok.2 ⟨?_, ?_, ?_⟩
  · exact ⟨by decide, by decide, by norm_num [default, StageSettings.coarse], rfl, by decide,
      by decide, by decide, ⟨_, _, rfl, rfl⟩⟩
  · exact ⟨by decide, by decide, by norm_num [default, StageSettings.middle], rfl, by decide,
      by decide, by decide, ⟨_, _, rfl, rfl⟩⟩
  · exact ⟨by decide, by decide, by norm_num [default, StageSettings.fine], rfl, by decide,
      by decide, by decide, ⟨_, _, rfl, rfl⟩⟩

end Scenes

end MultiViewDepth
