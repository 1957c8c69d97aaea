/-!
The same task for every number below a count, one after another or in a pool.

Answers are kept in order either way. Of the failures of a pool the one that is recorded first is
kept, so that the order in which its workers finish is a parameter of every run.
-/
namespace MultiViewDepth

/-- The workers of a pool, by the order in which they finish a given number of tasks. A failure
ends a computation, so that no order has to be known for more than one run that fails. -/
class WorkerPool where
  order : Nat → List Nat
  perm_range (count : Nat) : (order count).Perm (List.range count)

namespace WorkerPool

@[reducible] def inTurn : WorkerPool := ⟨List.range, fun _ => .refl _⟩

/-- Workers that finish as many tasks as are listed in the order of the list, and others in turn. -/
@[reducible] def listed (finished : List Nat) : WorkerPool where
  order count := if finished.Perm (List.range count) then finished else List.range count
  perm_range count := by
    split
    next h => exact h
    next => exact .refl _

end WorkerPool

namespace Tasks

variable {ε β : Type}

/-- All answers in order, or the first failure. -/
def inOrder (count : Nat) (task : Nat → Except ε β) : Except ε (List β) :=
  (List.range count).mapM task

def failure? : Except ε β → Option ε
  | .error e => some e
  | .ok _ => none

/-- All answers in order, or the failure that is recorded first when the tasks of a pool finish in
the order `completion`. -/
def pooled (completion : List Nat) (count : Nat) (task : Nat → Except ε β) : Except ε (List β) :=
  let answers := (List.range count).map task
  match completion.findSome? fun i => answers[i]?.bind failure? with
  | some e => .error e
  | none => answers.mapM id

def run [WorkerPool] (parallel : Bool) (count : Nat) (task : Nat → Except ε β) :
    Except ε (List β) :=
  if parallel then pooled (WorkerPool.order count) count task else inOrder count task

end Tasks

end MultiViewDepth
