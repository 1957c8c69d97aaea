import MultiViewDepth.Failure

/-!
Where the neighbors of a pixel lie before learned offsets move them.

A pattern is made of rings: the eight pixels around the center at some distance, row by row.
-/
namespace MultiViewDepth

/-- A step in pixels, kept in 32 bits. -/
structure Offset where
  dy : Int32
  dx : Int32
  deriving DecidableEq, Repr

abbrev Pattern := List Offset

namespace Offset

def center : Offset := ⟨0, 0⟩

def double (o : Offset) : Offset := ⟨2 * o.dy, 2 * o.dx⟩

end Offset

namespace Pattern

/-- The four pixels of a ring that come before its center. -/
def ringBefore (d : Int32) : Pattern := [⟨-d, -d⟩, ⟨-d, 0⟩, ⟨-d, d⟩, ⟨0, -d⟩]

def ringAfter (d : Int32) : Pattern := [⟨0, d⟩, ⟨d, -d⟩, ⟨d, 0⟩, ⟨d, d⟩]

def ring (d : Int32) : Pattern := ringBefore d ++ ringAfter d

def cross (d : Int32) : Pattern := [⟨-d, 0⟩, ⟨0, -d⟩, ⟨0, d⟩, ⟨d, 0⟩]

def square (d : Int32) : Pattern := ringBefore d ++ Offset.center :: ringAfter d

def ofDistance (role : NeighborUse) (count : Nat) (d : Int32) : Result Pattern :=
  match role, count with
  | .propagation, 0 => .ok []
  | .propagation, 4 => .ok (cross d)
  | .propagation, 8 => .ok (ring d)
  | .propagation, 16 => .ok (ring d ++ (ring d).map Offset.double)
  | .evaluation, 9 => .ok (square d)
  | .evaluation, 17 => .ok (square d ++ (ring d).map Offset.double)
  | _, _ => .error (.unsupportedNeighbors role count)

/-- The pattern at a distance in pixels, of which the low 32 bits count. -/
def build (role : NeighborUse) (count dilation : Nat) : Result Pattern :=
  ofDistance role count (Int32.ofNat dilation)

/-- A pattern that can be built has as many offsets as were asked for. -/
theorem length_of_build {role : NeighborUse} {count dilation : Nat} {p : Pattern}
    (h : build role count dilation = .ok p) : p.length = count := by
  unfold build ofDistance at h
  split at h <;> simp_all only [Except.ok.injEq, reduceCtorEq] <;> subst h <;> rfl

/-- Whether a pattern can be built depends on its role and its size alone. -/
theorem build_isOk (role : NeighborUse) (count d e : Nat) :
    (build role count d).isOk = (build role count e).isOk := by
  unfold build ofDistance
  split <;> rfl

end Pattern

end MultiViewDepth
