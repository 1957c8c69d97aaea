import MultiViewDepth.Neighbors.NeighborGrid
import MultiViewDepth.Sampling.Bilinear
import MultiViewDepth.Tensor.Layout

/-!
Neighbors lend their depth: every pixel tries the middle hypothesis of each of its neighbors too.
-/
namespace MultiViewDepth

variable {α : Type} [Scalar α]

/-- Puts `x` into a list that descends, after the entries that `x` is not larger than. -/
def insertDescending (x : α) : List α → List α
  | [] => [x]
  | y :: ys => if x < y then y :: insertDescending x ys else x :: y :: ys

def sortAscending (xs : List α) : List α :=
  (xs.foldl (fun sorted x => insertDescending x sorted) []).reverse

theorem insertDescending_perm (x : α) (xs : List α) : (insertDescending x xs).Perm (x :: xs) := by
  induction xs with
  | nil => exact .refl _
  | cons y ys ih =>
    rw [insertDescending]
    split
    · exact (ih.cons y).trans (.swap x y ys)
    · exact .refl _

theorem foldl_insertDescending_perm (xs sorted : List α) :
    (xs.foldl (fun sorted x => insertDescending x sorted) sorted).Perm (xs ++ sorted) := by
  induction xs generalizing sorted with
  | nil => exact .refl _
  | cons x xs ih =>
    exact (ih _).trans (((insertDescending_perm x sorted).append_left xs).trans List.perm_middle)

/-- Sorting keeps all entries. -/
theorem sortAscending_perm (xs : List α) : (sortAscending xs).Perm xs := by
  have h := foldl_insertDescending_perm xs []
  rw [List.append_nil] at h
  exact (List.reverse_perm _).trans h

/-- Adds the neighbors' middle hypotheses to a depth volume `(B, D, H, W)` and sorts all at every
pixel: `(B, D + N, H, W)`. -/
def lend (depth : Tensor α) (grid : NeighborGrid α) : Result (Tensor α) := do
  let (batch, hypotheses, height, width) ← depth.sizes4
  unless grid.height = height ∧ grid.width = width do
    throw (.shapeMismatch .propagationGrid [batch, grid.neighbors * height, width, 2]
      grid.points.shape)
  let middle ← depth.narrow 1 (hypotheses / 2) 1
  let lent ← (← Sampling.sample middle grid.points .border).reshape
    [batch, grid.neighbors, height, width]
  let all ← Tensor.concat 1 [depth, lent]
  let count := hypotheses + grid.neighbors
  let sorted : Array (Array α) := Array.ofFn fun k : Fin (batch * height * width) =>
    match digits [batch, height, width] k with
    | [b, y, x] =>
      (sortAscending ((List.range count).map fun i => all.get [b, i, y, x])).toArray
    | _ => #[]
  all.compute [batch, count, height, width] fun
    | [b, i, y, x] => (sorted.getD (place 0 [batch, height, width] [b, y, x]) #[]).getD i 0
    | _ => 0

end MultiViewDepth
