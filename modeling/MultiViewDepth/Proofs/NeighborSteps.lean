import MultiViewDepth.Neighbors.Pattern
import Mathlib.Tactic

/-!
Offsets of neighbors as whole numbers.

The offsets of a pattern are those of the cells around a pixel, as many times as its distance says;
large patterns have a second ring at twice that distance. As long as no step of the computation
leaves 32 bits, a pattern is its outline, enlarged (`toInts_of_lossless`). How far neighbors may lie
apart for that is said by `lossless_iff`.
-/
namespace MultiViewDepth

section Numbers

variable {d : Nat}

theorem toInt_distance (h : d < 2 ^ 31) : (Int32.ofNat d).toInt = d :=
  Int32.toInt_ofNat_of_lt h

theorem toInt_neg_distance (h : d < 2 ^ 31) : (-Int32.ofNat d).toInt = -d := by
  rw [Int32.toInt_neg, toInt_distance h]
  exact Int.bmod_eq_of_le (by omega) (by omega)

theorem toInt_twice_of_fits {x : Int32} (hlower : -2 ^ 30 ≤ x.toInt) (hupper : x.toInt < 2 ^ 30) :
    (2 * x).toInt = 2 * x.toInt := by
  rw [Int32.toInt_mul]
  exact Int.bmod_eq_of_le (by simp; omega) (by simp; omega)

end Numbers

def Offset.toInts (o : Offset) : Int × Int := (o.dy.toInt, o.dx.toInt)

@[simp] theorem Offset.toInts_center : Offset.center.toInts = 0 := rfl

namespace Pattern

/-- The pixel and the eight around it, row by row. -/
def cells : List (ℤ × ℤ) := [-1, 0, 1] ×ˢ [-1, 0, 1]

def around : List (ℤ × ℤ) := cells.filter (· ≠ (0, 0))

def beside : List (ℤ × ℤ) := around.filter fun c => c.1 = 0 ∨ c.2 = 0

/-- The offsets of a pattern in units of its distance. -/
def outline : NeighborUse → Nat → List (ℤ × ℤ)
  | .propagation, 4 => beside
  | .propagation, 8 => around
  | .propagation, 16 => around ++ around.map (2 • ·)
  | .evaluation, 9 => cells
  | .evaluation, 17 => cells ++ around.map (2 • ·)
  | _, _ => []

/-- No step of a pattern's computation leaves 32 bits: neither that to its distance, nor the
negation and, in large patterns, the doubling of what is computed from it. -/
structure Lossless (count distance : Nat) : Prop where
  converted : (Int32.ofNat distance).toInt = distance
  negated : 0 < count → (-Int32.ofNat distance).toInt = -(Int32.ofNat distance).toInt
  doubled : count = 16 ∨ count = 17 →
    ∀ o ∈ ring (Int32.ofNat distance), o.double.toInts = 2 • o.toInts

theorem coordinates_of_mem_ring {d : Int32} {o : Offset} (h : o ∈ ring d) :
    (o.dy = 0 ∨ o.dy = d ∨ o.dy = -d) ∧ (o.dx = 0 ∨ o.dx = d ∨ o.dx = -d) := by
  simp only [ring, ringBefore, ringAfter, List.cons_append, List.nil_append, List.mem_cons,
    List.not_mem_nil, or_false] at h
  rcases h with rfl | rfl | rfl | rfl | rfl | rfl | rfl | rfl <;> simp

theorem lossless_iff {count distance : Nat} : Lossless count distance ↔
    distance < 2 ^ 31 ∧ (count = 16 ∨ count = 17 → distance < 2 ^ 30) := by
  constructor
  · intro h
    have hconverted := h.converted
    have hlt := (Int32.ofNat distance).toInt_lt
    refine ⟨by omega, fun hlarge => ?_⟩
    have hdoubled : (2 * Int32.ofNat distance).toInt = 2 * (Int32.ofNat distance).toInt :=
      congrArg Prod.snd (h.doubled hlarge ⟨0, Int32.ofNat distance⟩ (by simp [ring, ringAfter]))
    have hlt' := (2 * Int32.ofNat distance).toInt_lt
    omega
  · rintro ⟨hsmall, hhalf⟩
    have hconverted := toInt_distance hsmall
    have hnegated := toInt_neg_distance hsmall
    refine ⟨hconverted, fun _ => by rw [hnegated, hconverted], fun hlarge o ho => ?_⟩
    have hdistance := hhalf hlarge
    have hcoordinate {x : Int32} (hx : x = 0 ∨ x = Int32.ofNat distance ∨
        x = -Int32.ofNat distance) : (2 * x).toInt = 2 * x.toInt := by
      rcases hx with rfl | rfl | rfl
      · rfl
      · exact toInt_twice_of_fits (by omega) (by omega)
      · exact toInt_twice_of_fits (by omega) (by omega)
    obtain ⟨hrow, hcolumn⟩ := coordinates_of_mem_ring ho
    exact Prod.ext (hcoordinate hrow) (hcoordinate hcolumn)

section Outlines

variable {role : NeighborUse} {count distance : Nat} {pattern : Pattern} {d : Int32}

theorem toInts_ring (hd : (-d).toInt = -d.toInt) :
    (ring d).map Offset.toInts = around.map (d.toInt • ·) := by
  have haround : around = [(-1, -1), (-1, 0), (-1, 1), (0, -1), (0, 1), (1, -1), (1, 0), (1, 1)] :=
    rfl
  simp [haround, ring, ringBefore, ringAfter, Offset.toInts, hd, -zsmul_eq_mul]

theorem toInts_square (hd : (-d).toInt = -d.toInt) :
    (square d).map Offset.toInts = cells.map (d.toInt • ·) := by
  have hcells : cells =
      [(-1, -1), (-1, 0), (-1, 1), (0, -1), (0, 0), (0, 1), (1, -1), (1, 0), (1, 1)] := rfl
  simp [hcells, square, ringBefore, ringAfter, Offset.toInts, Offset.center, hd, -zsmul_eq_mul]

theorem toInts_cross (hd : (-d).toInt = -d.toInt) :
    (cross d).map Offset.toInts = beside.map (d.toInt • ·) := by
  have hbeside : beside = [(-1, 0), (0, -1), (0, 1), (1, 0)] := rfl
  simp [hbeside, cross, Offset.toInts, hd, -zsmul_eq_mul]

theorem toInts_outerRing (hd : (-d).toInt = -d.toInt)
    (hdouble : ∀ o ∈ ring d, o.double.toInts = 2 • o.toInts) :
    ((ring d).map Offset.double).map Offset.toInts = (around.map (2 • ·)).map (d.toInt • ·) := by
  have hmap : ((ring d).map Offset.double).map Offset.toInts =
      ((ring d).map Offset.toInts).map (2 • ·) := by
    rw [List.map_map, List.map_map]
    exact List.map_congr_left hdouble
  rw [hmap, toInts_ring hd, List.map_map, List.map_map]
  exact List.map_congr_left fun c _ => smul_comm 2 d.toInt c

/-- A pattern that is computed without loss is its outline at its distance. -/
theorem toInts_of_lossless (h : build role count distance = .ok pattern)
    (hlossless : Lossless count distance) :
    pattern.map Offset.toInts = (outline role count).map ((distance : ℤ) • ·) := by
  obtain ⟨hconverted, hnegated, hdoubled⟩ := hlossless
  rw [← hconverted]
  unfold build ofDistance at h
  split at h <;> cases h
  · rfl
  · exact toInts_cross (hnegated (by decide))
  · exact toInts_ring (hnegated (by decide))
  · have hneg := hnegated (by decide)
    rw [outline, List.map_append, List.map_append, toInts_ring hneg,
      toInts_outerRing hneg (hdoubled (.inl rfl))]
  · exact toInts_square (hnegated (by decide))
  · have hneg := hnegated (by decide)
    rw [outline, List.map_append, List.map_append, toInts_square hneg,
      toInts_outerRing hneg (hdoubled (.inr rfl))]

end Outlines

end Pattern

/-- The pattern of adjacent pixels, enlarged to a distance. -/
def Pattern.Enlarged (pattern : Pattern) (role : NeighborUse) (count distance : Nat) : Prop :=
  ∃ adjacent, Pattern.build role count 1 = .ok adjacent ∧
    pattern.map Offset.toInts =
      adjacent.map fun o => (o.dy.toInt * (distance : Int), o.dx.toInt * (distance : Int))

/-- Patterns at a distance that 32 bits can double are exact. -/
theorem Pattern.enlarged_of_build {role : NeighborUse} {count distance : Nat} {pattern : Pattern}
    (h : Pattern.build role count distance = .ok pattern) (hdistance : distance < 2 ^ 30) :
    pattern.Enlarged role count distance := by
  have hone : (build role count 1).isOk := by
    rw [build_isOk role count 1 distance, h]
    rfl
  cases hadjacent : build role count 1 with
  | error e =>
    rw [hadjacent] at hone
    cases hone
  | ok adjacent =>
    have hunits := toInts_of_lossless hadjacent (lossless_iff.2 ⟨by omega, fun _ => by omega⟩)
    have henlarge : (adjacent.map fun o =>
        (o.dy.toInt * (distance : Int), o.dx.toInt * (distance : Int))) =
        (adjacent.map Offset.toInts).map ((distance : ℤ) • ·) := by
      rw [List.map_map]
      exact List.map_congr_left fun o _ => Prod.ext (mul_comm _ _) (mul_comm _ _)
    refine ⟨adjacent, hadjacent, ?_⟩
    rw [toInts_of_lossless h (lossless_iff.2 ⟨by omega, fun _ => hdistance⟩), henlarge, hunits,
      List.map_map]
    exact List.map_congr_left fun c _ => congrArg _ (one_smul ℤ c).symm

end MultiViewDepth
