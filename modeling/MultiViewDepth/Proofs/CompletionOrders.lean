import MultiViewDepth.Matching.Matcher
import MultiViewDepth.Proofs.Outcome
import MultiViewDepth.Proofs.TwinPoses

/-!
Tasks of a pool that finish in any order.

The answers do not depend on that order, and neither does whether there is a failure. Which failure
it is does depend on it: without a pool that of the first task that fails, in a pool that of the
task that is done first among those that fail.
-/
namespace MultiViewDepth

namespace Tasks

variable {ε β γ : Type} {count : Nat} {numbers completion : List Nat} {task : Nat → Except ε β}

end Tasks

section Misfits

variable {features source reference depth : Tensor ℝ} {m n : Nat}

end Misfits

end MultiViewDepth
