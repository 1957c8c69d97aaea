import MultiViewDepth.Tensor.Layout
import MultiViewDepth.View.Camera

/-!
The projections of all views at every stage.
-/
namespace MultiViewDepth

variable {α δ : Type} [Scalar α] [Scalar δ] [Precision α δ]

/-- A `(B, V, 4, 4)` array of matrices per stage, coarsest first; view 0 is the reference view. -/
structure ProjectionTable (α : Type) where
  batch : Nat
  views : Nat
  stages : List (Tensor α)
  length_stages : stages.length = stageCount
  shape_stage : ∀ t ∈ stages, t.shape = [batch, views, 4, 4]

namespace ProjectionTable

/-- Fails at the first array that does not hold `batch × views` matrices. -/
def check (batch views : Nat) : List (Tensor α) → Result Unit
  | [] => .ok ()
  | t :: ts => do
    let _ ← t.sizes4
    if t.shape = [batch, views, 4, 4] then check batch views ts
    else throw (.shapeMismatch .stageProjections [batch, views, 4, 4] t.shape)

omit [Scalar α] in
theorem shape_of_check {batch views : Nat} {ts : List (Tensor α)} {u : Unit}
    (h : check batch views ts = .ok u) : ∀ t ∈ ts, t.shape = [batch, views, 4, 4] := by
  induction ts with
  | nil => simp
  | cons t ts ih =>
    simp only [check] at h
    cases hs : t.sizes4 with
    | error e => rw [hs] at h; cases h
    | ok sizes =>
      rw [hs] at h
      change (if t.shape = [batch, views, 4, 4] then check batch views ts else _) = _ at h
      split at h
      next hshape => exact List.forall_mem_cons.2 ⟨hshape, ih h⟩
      next => cases h

/-- Takes one array per stage as it is. -/
def ofTensors (stages : List (Tensor α)) : Result (ProjectionTable α) :=
  match stages with
  | [] => .error (.invalidInput .stageCount)
  | first :: _ =>
    if hlength : stages.length = stageCount then do
      let (batch, views, _, _) ← first.sizes4
      match hcheck : check batch views stages with
      | .error failure => .error failure
      | .ok () => .ok ⟨batch, views, stages, hlength, shape_of_check hcheck⟩
    else .error (.invalidInput .stageCount)

def atScale (cameras : List (List (Camera δ))) (batch views : Nat) (scale : δ) : Tensor α :=
  let table :=
    (cameras.map fun row => (row.map fun camera => camera.projection scale).toArray).toArray
  .ofFn [batch, views, 4, 4] fun
    | [b, v, r, c] => Precision.narrow
        (((table.getD b #[]).getD v Transform.identity).entry r c)
    | _ => 0

/-- The projections of cameras listed by batch element and view. -/
def ofCameras (cameras : List (List (Camera δ))) : Result (ProjectionTable α) :=
  let batch := cameras.length
  let views := (cameras.head?.map List.length).getD 0
  if batch = 0 ∨ views = 0 ∨ cameras.any (·.length != views) then
    .error (.invalidInput .cameraTable)
  else
    .ok ⟨batch, views, (List.range stageCount).map fun stage =>
        atScale cameras batch views (stageResolution stage), by simp, by
        intro t ht
        obtain ⟨stage, _, rfl⟩ := List.mem_map.1 ht
        rfl⟩

def stage? (projections : ProjectionTable α) (stage : Nat) : Option (Tensor α) :=
  projections.stages[stage]?

def view (projections : ProjectionTable α) (stage view : Nat) : Result (Tensor α) :=
  match projections.stage? stage with
  | none => .error (.invalidInput .stageIndex)
  | some t => do (← t.narrow 1 view 1).squeeze 1

end ProjectionTable

end MultiViewDepth
