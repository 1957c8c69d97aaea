import MultiViewDepth.Failure
import MultiViewDepth.Scalar

/-!
The nearest and the farthest depth of a scene.
-/
namespace MultiViewDepth

variable {δ : Type} [Scalar δ]

/-- Bounds that a depth range may have: finite, and `0 < near < far`. -/
def AdmissibleBounds (near far : δ) : Prop :=
  Scalar.isFinite near = true ∧ Scalar.isFinite far = true ∧ ¬ near ≤ 0 ∧ ¬ far ≤ near

instance (near far : δ) : Decidable (AdmissibleBounds near far) := by
  unfold AdmissibleBounds; infer_instance

structure DepthRange (δ : Type) [Scalar δ] where
  near : δ
  far : δ
  admissible : AdmissibleBounds near far

namespace DepthRange

def of? (near far : δ) : Option (DepthRange δ) :=
  if h : AdmissibleBounds near far then some ⟨near, far, h⟩ else none

def of (near far : δ) : Result (DepthRange δ) :=
  match of? near far with
  | some range => .ok range
  | none => .error (.invalidInput .depthBounds)

def span (range : DepthRange δ) : δ := range.far - range.near

/-- Inverse of the nearest depth, the larger of the two inverses. -/
def inverseNear (range : DepthRange δ) : δ := 1 / range.near

def inverseFar (range : DepthRange δ) : δ := 1 / range.far

def inverseSpan (range : DepthRange δ) : δ := range.inverseNear - range.inverseFar

theorem of?_isSome_iff {near far : δ} : (of? near far).isSome ↔ AdmissibleBounds near far := by
  unfold of?; split <;> simp_all

theorem of_eq_ok {near far : δ} {range : DepthRange δ} :
    of near far = .ok range ↔ range.near = near ∧ range.far = far := by
  constructor
  · intro h
    unfold of of? at h
    split at h <;> simp at h
    next hr => split at hr <;> simp at hr; subst hr; subst h; exact ⟨rfl, rfl⟩
  · rintro ⟨rfl, rfl⟩
    simp [of, of?, range.admissible]

end DepthRange

end MultiViewDepth
