import MultiViewDepth.Depth.Range
import MultiViewDepth.Settings.Basic

/-!
Settings and depth ranges as JSON values.

Settings are read from an object or from a list of their fields in order; what is left out keeps
its default. A depth range is read whole or not at all.
-/
namespace MultiViewDepth

/-- A JSON value; a number is an integer where it is written as one. -/
inductive Json (δ : Type) where
  | null
  | bool (value : Bool)
  | integer (value : Int)
  | decimal (value : δ)
  | string (value : String)
  | list (items : List (Json δ))
  | object (fields : List (String × Json δ))

namespace Json

variable {δ : Type} [Scalar δ]

/-- A number below 2 ^ 64. -/
def natural? : Json δ → Option Nat
  | integer i => if 0 ≤ i ∧ i < 18446744073709551616 then some i.toNat else none
  | _ => none

def number? : Json δ → Option δ
  | integer i => some i
  | decimal x => some x
  | _ => none

def bool? : Json δ → Option Bool
  | bool b => some b
  | _ => none

/-- A number as it is written; one that is not finite has no notation. -/
def ofNumber (x : δ) : Json δ := if Scalar.isFinite x then .decimal x else .null

/-- All values that an object has for a field. -/
def values (fields : List (String × Json δ)) (name : String) : List (Json δ) :=
  fields.filterMap fun entry => if entry.1 = name then some entry.2 else none

/-- The value of a field, or what it is when the field is missing. A field must not come twice. -/
def field {β : Type} (fields : List (String × Json δ)) (name : String) (missing : β)
    (read : Json δ → Option β) : Option β :=
  match values fields name with
  | [] => some missing
  | [value] => read value
  | _ => none

/-- The value of a field that must come once. -/
def required? (fields : List (String × Json δ)) (name : String) : Option (Json δ) :=
  match values fields name with
  | [value] => some value
  | _ => none

/-- The item at a place of a list, or what it is when the list is shorter. -/
def item {β : Type} (items : List (Json δ)) (place : Nat) (missing : β)
    (read : Json δ → Option β) : Option β :=
  match items[place]? with
  | none => some missing
  | some value => read value

end Json

variable {δ : Type} [Scalar δ]

namespace StageSettings

/-- Reads the eight settings through `get`, which is given place, name, default and type. -/
def read (get : {β : Type} → Nat → String → β → (Json δ → Option β) → Option β) :
    Option (StageSettings δ) := do
  let base : StageSettings δ := middle
  return {
    iterations := ← get 0 "iterations" base.iterations Json.natural?
    samples := ← get 1 "num_samples" base.samples Json.natural?
    interval := ← get 2 "interval_scale" base.interval Json.number?
    range := ← get 3 "propagation_range" base.range Json.natural?
    lenders := ← get 4 "propagation_neighbors" base.lenders Json.natural?
    supporters := ← get 5 "evaluation_neighbors" base.supporters Json.natural?
    features := ← get 6 "num_features" base.features Json.natural?
    groups := ← get 7 "group_correlations" base.groups Json.natural? }

def ofJson? : Json δ → Option (StageSettings δ)
  | .object fields => read fun _ name missing type => Json.field fields name missing type
  | .list items =>
    if items.length ≤ 8 then read fun place _ missing type => Json.item items place missing type
    else none
  | _ => none

/-- The eight settings by name, with a notation of the interval. -/
def fields (settings : StageSettings δ) (interval : Json δ) : List (String × Json δ) := [
  ("iterations", .integer settings.iterations),
  ("num_samples", .integer settings.samples),
  ("interval_scale", interval),
  ("propagation_range", .integer settings.range),
  ("propagation_neighbors", .integer settings.lenders),
  ("evaluation_neighbors", .integer settings.supporters),
  ("num_features", .integer settings.features),
  ("group_correlations", .integer settings.groups)]

def toJson (settings : StageSettings δ) : Json δ :=
  .object (settings.fields (.ofNumber settings.interval))

end StageSettings

namespace Settings

/-- Reads exactly three stages. -/
def stages? : Json δ → Option (StageSettings δ × StageSettings δ × StageSettings δ)
  | .list [coarse, middle, fine] => do
    return (← StageSettings.ofJson? coarse, ← StageSettings.ofJson? middle,
      ← StageSettings.ofJson? fine)
  | _ => none

/-- Reads the stages and the flag through `get`, which is given place, name, default and type. -/
def read (get : {β : Type} → Nat → String → β → (Json δ → Option β) → Option β) :
    Option (Settings δ) := do
  let base : Settings δ := default
  let (coarse, middle, fine) ← get 0 "stages" (base.coarse, base.middle, base.fine) stages?
  return ⟨coarse, middle, fine, ← get 1 "parallel" base.parallel Json.bool?⟩

def ofJson? : Json δ → Option (Settings δ)
  | .object fields => read fun _ name missing type => Json.field fields name missing type
  | .list items =>
    if items.length ≤ 2 then read fun place _ missing type => Json.item items place missing type
    else none
  | _ => none

/-- The settings by name, with notations of the three stages. -/
def fields (settings : Settings δ) (coarse middle fine : Json δ) : List (String × Json δ) :=
  [("stages", .list [coarse, middle, fine]), ("parallel", .bool settings.parallel)]

def toJson (settings : Settings δ) : Json δ :=
  .object (settings.fields settings.coarse.toJson settings.middle.toJson settings.fine.toJson)

end Settings

namespace DepthRange

/-- Reads both bounds from an object or a list of two, and refuses bounds that are no range. -/
def ofJson? : Json δ → Option (DepthRange δ)
  | .object fields => do
    of? (← (← Json.required? fields "min").number?) (← (← Json.required? fields "max").number?)
  | .list [near, far] => do of? (← near.number?) (← far.number?)
  | _ => none

def toJson (range : DepthRange δ) : Json δ :=
  .object [("min", .ofNumber range.near), ("max", .ofNumber range.far)]

end DepthRange

end MultiViewDepth
