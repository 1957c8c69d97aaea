import MultiViewDepth.Layer.Blueprint

/-!
Named parameters, and filling them from other named arrays.

Names are handled in order, so a load depends on the tables alone. It stops at the first parameter
whose shape differs from what was found for it and keeps what was filled before.
-/
namespace MultiViewDepth

/-- Arrays by name; of two entries with one name the first counts. -/
abbrev NamedTensors (α : Type) := List (String × Tensor α)

/-- Which parameters a load has filled, and which it has found nothing for. -/
structure LoadSummary where
  loaded : List String
  missing : List String
  deriving DecidableEq, Repr

namespace LoadSummary

def empty : LoadSummary := ⟨[], []⟩

def complete (summary : LoadSummary) : Bool := summary.missing.isEmpty

def withLoaded (summary : LoadSummary) (name : String) : LoadSummary :=
  { summary with loaded := name :: summary.loaded }

def withMissing (summary : LoadSummary) (name : String) : LoadSummary :=
  { summary with missing := name :: summary.missing }

end LoadSummary

namespace NamedTensors

variable {α : Type}

def get? (table : NamedTensors α) (name : String) : Option (Tensor α) := List.lookup name table

def set (table : NamedTensors α) (name : String) (value : Tensor α) : NamedTensors α :=
  table.map fun entry => if entry.1 = name then (name, value) else entry

def insert (table : NamedTensors α) (name : String) (value : Tensor α) : NamedTensors α :=
  if table.any (·.1 == name) then table.set name value else table ++ [(name, value)]

def names (table : NamedTensors α) : List String := table.map Prod.fst

def sortedNames (table : NamedTensors α) : List String :=
  table.names.mergeSort fun a b => decide (a ≤ b)

/-- What the tensors hold for a parameter: the entry that the map points to, or else the entry of
the parameter's own name. -/
def find (tensors : NamedTensors α) (nameMap : List (String × String)) (name : String) :
    Option (Tensor α) :=
  ((nameMap.lookup name).bind tensors.get?).or (tensors.get? name)

section Load

/-- Fills the parameters with the given names in turn. What was found for a parameter is converted
to the kind of the parameter's numbers. -/
def loadNames (convert : ElementKind → Tensor α → Tensor α) (tensors : NamedTensors α)
    (nameMap : List (String × String)) :
    List String → NamedTensors α → NamedTensors α × Result LoadSummary
  | [], table => (table, .ok .empty)
  | name :: names, table =>
    match tensors.find nameMap name, table.get? name with
    | some value, some parameter =>
      if value.shape = parameter.shape then
        let (table, summary) := loadNames convert tensors nameMap names
          (table.set name (convert parameter.kind value))
        (table, summary.map (·.withLoaded name))
      else (table, .error (.checkpoint (.wrongShape name parameter.shape value.shape)))
    | none, _ =>
      let (table, summary) := loadNames convert tensors nameMap names table
      (table, summary.map (·.withMissing name))
    | _, none => loadNames convert tensors nameMap names table

/-- Fills every parameter that the tensors hold something for. -/
def loadWith (convert : ElementKind → Tensor α → Tensor α) (table tensors : NamedTensors α)
    (nameMap : List (String × String)) : NamedTensors α × Result LoadSummary :=
  loadNames convert tensors nameMap table.sortedNames table

variable {δ : Type} [Scalar α] [Scalar δ] [Precision α δ]

/-- A load into parameters in single precision. -/
def load (table tensors : NamedTensors α) (nameMap : List (String × String)) :
    NamedTensors α × Result LoadSummary :=
  table.loadWith (fun _ => Tensor.toSingle) tensors nameMap

end Load

def source (table : NamedTensors α) : ParameterSource α := fun request => table.get? request.name

theorem names_set (table : NamedTensors α) (name : String) (value : Tensor α) :
    (table.set name value).names = table.names := by
  simp only [names, set, List.map_map]
  apply List.map_congr_left
  intro entry _
  simp only [Function.comp]
  split
  next h => exact h.symm
  next => rfl

end NamedTensors

end MultiViewDepth
