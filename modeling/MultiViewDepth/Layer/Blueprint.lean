import MultiViewDepth.Tensor.Conversion

/-!
Learned parts described by the parameters that they ask for.

A blueprint lists its requests before any parameter is known, so that the parameters of a whole
network can be named, counted and compared without building it.
-/
namespace MultiViewDepth

structure ParameterRequest where
  name : String
  shape : List Nat
  deriving DecidableEq, Repr

/-- Answers requests; `none` refuses one. -/
abbrev ParameterSource (α : Type) := ParameterRequest → Option (Tensor α)

/-- A part that is put together from parameters looked up by name. -/
structure Blueprint (α β : Type) where
  requests : List ParameterRequest
  assemble : (String → Tensor α) → β

/-- A learned part that takes an array to an array. -/
abbrev Layer (α : Type) := Tensor α → Result (Tensor α)

/-- The name of a part inside another one; the outermost has the empty name. -/
def dotted (scope name : String) : String := if scope.isEmpty then name else scope ++ "." ++ name

namespace Blueprint

variable {α β γ : Type}

def parameter (name : String) (shape : List Nat) : Blueprint α (Tensor α) :=
  ⟨[⟨name, shape⟩], fun answers => answers name⟩

instance : Applicative (Blueprint α) where
  pure part := ⟨[], fun _ => part⟩
  seq f x := ⟨f.requests ++ (x ()).requests,
    fun answers => f.assemble answers ((x ()).assemble answers)⟩

@[simp] theorem requests_pure (part : β) : (pure part : Blueprint α β).requests = [] := rfl
@[simp] theorem requests_seq (f : Blueprint α (β → γ)) (x : Blueprint α β) :
    (f <*> x).requests = f.requests ++ x.requests := rfl
@[simp] theorem requests_map (f : β → γ) (x : Blueprint α β) :
    (f <$> x).requests = x.requests := rfl
@[simp] theorem requests_parameter (name : String) (shape : List Nat) :
    (parameter name shape : Blueprint α (Tensor α)).requests = [⟨name, shape⟩] := rfl

def list : List (Blueprint α β) → Blueprint α (List β)
  | [] => pure []
  | part :: parts => List.cons <$> part <*> list parts

/-- Left out unless the condition holds. -/
def onlyIf (condition : Bool) (part : Blueprint α β) : Blueprint α (Option β) :=
  if condition then some <$> part else pure none

section Build

variable {δ : Type} [Scalar α] [Scalar δ] [Precision α δ]

/-- The answer to a request in single precision, if it is given and has the right shape. -/
def answer (source : ParameterSource α) (request : ParameterRequest) :
    Result (String × Tensor α) :=
  match source request with
  | some t =>
    if t.shape = request.shape then .ok (request.name, t.toSingle) else .error .tensor
  | none => .error .tensor

def build (blueprint : Blueprint α β) (source : ParameterSource α) : Result β := do
  let answers ← blueprint.requests.mapM (answer source)
  return blueprint.assemble fun name => (answers.lookup name).getD (Tensor.ofFn [] fun _ => 0)

end Build

end Blueprint

end MultiViewDepth
