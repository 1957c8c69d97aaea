import MultiViewDepth.Scalar

/-!
The numbers that arrays hold, in one of four kinds.

Estimation computes in single precision. The other kinds are kept exactly and meet only numbers of
their own kind; `Elements.derive` is the one way to compute with numbers of any kind.
-/
namespace MultiViewDepth

/-- How the numbers of an array are stored. -/
inductive ElementKind where
  | single | double
  /-- Whole numbers of 32 bits without sign. -/
  | word
  /-- Whole numbers of 64 bits with sign. -/
  | long
  deriving DecidableEq, Repr

/-- Numbers of one kind in a row; those of single precision are of type `α`. -/
inductive Elements (α : Type) where
  | single (entries : Array α)
  | double (entries : Array Float)
  | word (entries : Array UInt32)
  | long (entries : Array Int64)

namespace Elements

variable {α : Type}

def kind : Elements α → ElementKind
  | single _ => .single
  | double _ => .double
  | word _ => .word
  | long _ => .long

def size : Elements α → Nat
  | single entries => entries.size
  | double entries => entries.size
  | word entries => entries.size
  | long entries => entries.size

def none : ElementKind → Elements α
  | .single => .single #[]
  | .double => .double #[]
  | .word => .word #[]
  | .long => .long #[]

@[simp] theorem kind_none (k : ElementKind) : (none k : Elements α).kind = k := by cases k <;> rfl
@[simp] theorem size_none (k : ElementKind) : (none k : Elements α).size = 0 := by cases k <;> rfl

def singles : Elements α → Array α
  | single entries => entries
  | _ => #[]

def doubles : Elements α → Array Float
  | double entries => entries
  | _ => #[]

def words : Elements α → Array UInt32
  | word entries => entries
  | _ => #[]

def longs : Elements α → Array Int64
  | long entries => entries
  | _ => #[]

theorem eq_single_of_kind {e : Elements α} (h : e.kind = .single) : e = single e.singles := by
  cases e <;> simp_all [kind, singles]

/-- Applies `f` to single-precision numbers; numbers of another kind stay as they are. -/
def map (f : α → α) : Elements α → Elements α
  | single entries => single (entries.map f)
  | other => other

@[simp] theorem kind_map (f : α → α) (e : Elements α) : (e.map f).kind = e.kind := by
  cases e <;> rfl

@[simp] theorem size_map (f : α → α) (e : Elements α) : (e.map f).size = e.size := by
  cases e <;> simp [map, size]

/-- Number `k` of a row, zero behind its end. -/
@[inline] def entry {β : Type} [Zero β] (entries : Array β) (k : Nat) : β := entries.getD k 0

/-- `n` numbers of the kind of `s`: number `k` is computed by `f` from those of `s` and `t`, which
it reads by position. Numbers of `t` that are of another kind are read as zero. -/
def derive [Arithmetic α] (s t : Elements α) (n : Nat)
    (f : ∀ {β : Type} [Arithmetic β], (Nat → β) → (Nat → β) → Nat → β) : Elements α :=
  match s with
  | single entries =>
    let others := t.singles
    single (.ofFn fun k : Fin n => f (entry entries) (entry others) k)
  | double entries =>
    let others := t.doubles
    double (.ofFn fun k : Fin n => f (entry entries) (entry others) k)
  | word entries =>
    let others := t.words
    word (.ofFn fun k : Fin n => f (entry entries) (entry others) k)
  | long entries =>
    let others := t.longs
    long (.ofFn fun k : Fin n => f (entry entries) (entry others) k)

section Derive

variable [Arithmetic α] (s t : Elements α) (n : Nat)
  (f : ∀ {β : Type} [Arithmetic β], (Nat → β) → (Nat → β) → Nat → β)

@[simp] theorem kind_derive : (derive s t n f).kind = s.kind := by cases s <;> rfl

@[simp] theorem size_derive : (derive s t n f).size = n := by cases s <;> simp [derive, size]

end Derive

end Elements

end MultiViewDepth
