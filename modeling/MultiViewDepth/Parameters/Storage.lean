import MultiViewDepth.Estimator
import MultiViewDepth.Parameters.Table

/-!
Files that parameters are written to and read from.
-/
namespace MultiViewDepth

/-- What a file holds: named arrays, or anything else. -/
inductive FileContent (α : Type) where
  | tensors (entries : NamedTensors α)
  | other (bytes : ByteArray)

structure Location where
  folder : String
  name : String
  deriving DecidableEq, Repr

/-- Folders and the files in them, the latest first. -/
structure Storage (α : Type) where
  folders : List String
  files : List (Location × FileContent α)

namespace Storage

variable {α δ : Type}

def withFolder (folder : String) : Storage α := ⟨[folder], []⟩

def write? (storage : Storage α) (path : Location) (content : FileContent α) :
    Option (Storage α) :=
  if path.folder ∈ storage.folders then
    some { storage with files := (path, content) :: storage.files }
  else none

def save (storage : Storage α) (path : Location) (table : NamedTensors α) : Result (Storage α) :=
  match storage.write? path (.tensors table) with
  | some storage => .ok storage
  | none => .error (.checkpoint .unwritable)

/-- The name under which a file keeps notes about itself. -/
def reservedName : String := "__metadata__"

/-- The named arrays of a file, unless one of them has the reserved name. -/
def read (storage : Storage α) (path : Location) : Result (NamedTensors α) :=
  match storage.files.lookup path with
  | some (.tensors entries) =>
    if reservedName ∈ entries.names then .error (.checkpoint .unreadable) else .ok entries
  | _ => .error (.checkpoint .unreadable)

section Load

variable [Scalar α] [Scalar δ] [Precision α δ]

/-- Fills parameters from a file; they stay as they are when it cannot be read. -/
def load (storage : Storage α) (path : Location) (table : NamedTensors α)
    (nameMap : List (String × String)) : NamedTensors α × Result LoadSummary :=
  match storage.read path with
  | .ok tensors => table.load tensors nameMap
  | .error failure => (table, .error failure)

/-- An estimator with the parameters of a file. Parameters that the file lacks keep the value that
`initial` gives them. -/
def restore (storage : Storage α) (path : Location) (settings : Settings δ)
    (nameMap : List (String × String)) (initial : ParameterRequest → Tensor α) :
    Result (Estimator α δ × NamedTensors α × LoadSummary) := do
  let blueprint ← Estimator.blueprint settings
  let fresh : NamedTensors α :=
    blueprint.requests.map fun request => (request.name, initial request)
  let (table, summary) := storage.load path fresh nameMap
  let summary ← summary
  return (← blueprint.build table.source, table, summary)

end Load

theorem read_of_save {storage saved : Storage α} {path : Location} {table : NamedTensors α}
    (hname : reservedName ∉ table.names) (h : storage.save path table = .ok saved) :
    saved.read path = .ok table := by
  unfold save write? at h
  split at h
  next hw =>
    split at hw <;> simp at hw h
    subst hw; subst h; simp [read, hname]
  next => simp at h

end Storage

end MultiViewDepth
