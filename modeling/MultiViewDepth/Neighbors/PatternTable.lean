import MultiViewDepth.Neighbors.Pattern

/-!
A table of the patterns that were asked for, so that each is built once.

`request_fst` says that a faithful table answers a request as building the pattern anew does.
-/
namespace MultiViewDepth

structure PatternKey where
  role : NeighborUse
  count : Nat
  distance : Int32
  deriving DecidableEq, Repr

/-- Patterns built so far, the latest first. -/
structure PatternTable where
  entries : List (PatternKey × Pattern)

namespace PatternTable

def empty : PatternTable := ⟨[]⟩

def lookup (table : PatternTable) (key : PatternKey) : Option Pattern :=
  table.entries.lookup key

/-- The pattern of a key, and the table with it; a pattern that cannot be built leaves no entry.

The table is shared behind a lock, and a lock that was poisoned fails. That failure is left out:
steps that overflow wrap around, as they do in optimized builds, so that nothing can panic while
the lock is held. -/
def request (table : PatternTable) (role : NeighborUse) (count dilation : Nat) :
    Result Pattern × PatternTable :=
  let key : PatternKey := ⟨role, count, Int32.ofNat dilation⟩
  match table.lookup key with
  | some pattern => (.ok pattern, table)
  | none =>
    match Pattern.ofDistance key.role key.count key.distance with
    | .ok pattern => (.ok pattern, ⟨(key, pattern) :: table.entries⟩)
    | .error failure => (.error failure, table)

/-- Every entry is what building it anew gives. -/
def Faithful (table : PatternTable) : Prop :=
  ∀ key pattern, table.lookup key = some pattern →
    Pattern.ofDistance key.role key.count key.distance = .ok pattern

theorem faithful_empty : Faithful empty := by simp [Faithful, lookup, empty]

theorem request_fst {table : PatternTable} (h : table.Faithful) (role : NeighborUse)
    (count dilation : Nat) :
    (table.request role count dilation).1 = Pattern.build role count dilation := by
  simp only [request]
  split
  next pattern hp => exact (h _ _ hp).symm
  next => split <;> simp_all [Pattern.build]

end PatternTable

end MultiViewDepth
