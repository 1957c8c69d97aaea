import MultiViewDepth.Proofs.VariedScenes
import MultiViewDepth.Proofs.NeighborSteps

/-!
How far apart the neighbors of accepted settings may lie.

A range is bounded from below only. The patterns of a stage are what they are meant to be just if 32
bits hold the range, and twice the distance of a pattern that has a second ring.
-/
namespace MultiViewDepth

namespace Pattern

variable {count distance : Nat} {pattern : Pattern} {units : List (ℤ × ℤ)} {d : ℤ}

theorem count_of_lending (h : build .propagation count distance = .ok pattern) :
    count ∈ [0, 4, 8, 16] := by
  unfold build ofDistance at h
  split at h <;> simp_all

theorem count_of_support (h : build .evaluation count distance = .ok pattern) :
    count ∈ [9, 17] := by
  unfold build ofDistance at h
  split at h <;> simp_all

/-- What lends depths is around the pixel, and beyond eight neighbors around it twice as far. -/
theorem outline_lending : ∀ count ∈ [0, 4, 8, 16],
    (∀ c ∈ (outline .propagation count).take 8, c ∈ around) ∧
      (∀ c ∈ (outline .propagation count).drop 8, ∃ unit ∈ around, c = (2 : ℤ) • unit) ∧
      (outline .propagation count).Nodup ∧
      ∀ c ∈ outline .propagation count, -c ∈ outline .propagation count := by
  decide

/-- What supports a cost is the pixel in the middle of a square, and beyond that twice as far. -/
theorem outline_support : ∀ count ∈ [9, 17],
    (∀ c ∈ (outline .evaluation count).take 9, c ∈ cells) ∧
      (outline .evaluation count)[4]? = some 0 ∧
      ∀ c ∈ (outline .evaluation count).drop 9, ∃ unit ∈ around, c = (2 : ℤ) • unit := by
  decide

theorem unit_of_mem (h : pattern.map Offset.toInts = units.map (d • ·)) {o : Offset}
    (ho : o ∈ pattern) : ∃ c ∈ units, o.toInts = d • c := by
  have hmem : o.toInts ∈ units.map (d • ·) := h ▸ List.mem_map_of_mem ho
  obtain ⟨c, hc, heq⟩ := List.mem_map.1 hmem
  exact ⟨c, hc, heq.symm⟩

theorem take_units (h : pattern.map Offset.toInts = units.map (d • ·)) (n : Nat) :
    (pattern.take n).map Offset.toInts = (units.take n).map (d • ·) := by
  rw [List.map_take, List.map_take, h]

theorem drop_units (h : pattern.map Offset.toInts = units.map (d • ·)) (n : Nat) :
    (pattern.drop n).map Offset.toInts = (units.drop n).map (d • ·) := by
  rw [List.map_drop, List.map_drop, h]

end Pattern

namespace StageSettings

open Pattern

variable {δ : Type} {settings : StageSettings δ} {lending support : Pattern}

/-- The patterns of a stage are what they are meant to be, as whole numbers, and nothing that they
are computed with leaves 32 bits. -/
structure ExactPatterns (settings : StageSettings δ) (lending support : Pattern) : Prop where
  lending_inner : ∀ o ∈ lending.take 8, ∃ c ∈ around, o.toInts = (settings.range : ℤ) • c
  lending_outer : ∀ o ∈ lending.drop 8, ∃ c ∈ around, o.toInts = (2 * settings.range : ℤ) • c
  lending_nodup : (lending.map Offset.toInts).Nodup
  lending_symmetric : ∀ o ∈ lending, ∃ o' ∈ lending, o'.toInts = -o.toInts
  support_inner : ∀ o ∈ support.take 9, ∃ c ∈ cells, o.toInts = (settings.range - 1 : ℤ) • c
  support_center : ∃ o, support[4]? = some o ∧ o.toInts = (0, 0)
  support_outer : ∀ o ∈ support.drop 9, ∃ c ∈ around,
    o.toInts = (2 * (settings.range - 1) : ℤ) • c
  lending_order : lending.map Offset.toInts =
    (outline .propagation settings.lenders).map ((settings.range : ℤ) • ·)
  support_order : support.map Offset.toInts =
    (outline .evaluation settings.supporters).map ((settings.range - 1 : ℤ) • ·)
  lending_lossless : Lossless settings.lenders settings.range
  support_lossless : Lossless settings.supporters settings.supportDistance

theorem exactPatterns_of_lossless (hlending : settings.lendingPattern = .ok lending)
    (hsupport : settings.supportPattern = .ok support) (hrange : 0 < settings.range)
    (hlend : Lossless settings.lenders settings.range)
    (hsupp : Lossless settings.supporters settings.supportDistance) :
    settings.ExactPatterns lending support := by
  have hdistance : ((settings.supportDistance : ℕ) : ℤ) = settings.range - 1 := by
    rw [supportDistance, Nat.cast_sub hrange, Nat.cast_one]
  have hlendUnits := toInts_of_lossless hlending hlend
  have hsuppUnits := toInts_of_lossless hsupport hsupp
  rw [hdistance] at hsuppUnits
  obtain ⟨hinner, houter, hnodup, hsymmetric⟩ := outline_lending _ (count_of_lending hlending)
  obtain ⟨hsquare, hcenter, hsecond⟩ := outline_support _ (count_of_support hsupport)
  have hne : (settings.range : ℤ) ≠ 0 := by exact_mod_cast hrange.ne'
  refine ⟨fun o ho => ?_, fun o ho => ?_, ?_, fun o ho => ?_, fun o ho => ?_, ?_, fun o ho => ?_,
    hlendUnits, hsuppUnits, hlend, hsupp⟩
  · obtain ⟨c, hc, heq⟩ := unit_of_mem (take_units hlendUnits 8) ho
    exact ⟨c, hinner c hc, heq⟩
  · obtain ⟨c, hc, heq⟩ := unit_of_mem (drop_units hlendUnits 8) ho
    obtain ⟨unit, hunit, rfl⟩ := houter c hc
    exact ⟨unit, hunit, by rw [heq, smul_smul, mul_comm]⟩
  · rw [hlendUnits]
    exact hnodup.map (smul_right_injective _ hne)
  · obtain ⟨c, hc, heq⟩ := unit_of_mem hlendUnits ho
    have hmem : (settings.range : ℤ) • -c ∈ lending.map Offset.toInts :=
      hlendUnits ▸ List.mem_map_of_mem (hsymmetric c hc)
    obtain ⟨o', ho', heq'⟩ := List.mem_map.1 hmem
    exact ⟨o', ho', by rw [heq', heq, smul_neg]⟩
  · obtain ⟨c, hc, heq⟩ := unit_of_mem (take_units hsuppUnits 9) ho
    exact ⟨c, hsquare c hc, heq⟩
  · have hfourth := congrArg (·[4]?) hsuppUnits
    simp only [List.getElem?_map, hcenter, Option.map_some, smul_zero] at hfourth
    exact Option.map_eq_some_iff.1 hfourth
  · obtain ⟨c, hc, heq⟩ := unit_of_mem (drop_units hsuppUnits 9) ho
    obtain ⟨unit, hunit, rfl⟩ := hsecond c hc
    exact ⟨unit, hunit, by rw [heq, smul_smul, mul_comm]⟩

/-- Accepted settings have both patterns. They are exact just if 32 bits hold the range of the
neighbors, and twice the distance of a pattern with two rings. -/
theorem patterns_exact_iff [Scalar δ] {stage : Nat} (h : settings.validate stage = .ok ()) :
    ∃ lending support, settings.lendingPattern = .ok lending ∧
      settings.supportPattern = .ok support ∧
      (settings.ExactPatterns lending support ↔
        settings.range < 2 ^ 31 ∧ (settings.lenders = 16 → settings.range < 2 ^ 30) ∧
          (settings.supporters = 17 → settings.range ≤ 2 ^ 30)) := by
  have hvalid := validate_eq_ok.1 h
  obtain ⟨lending, support, hlending, hsupport⟩ := hvalid.patterns
  have hrange := hvalid.range_pos
  have hlenders := count_of_lending hlending
  have hsupporters := count_of_support hsupport
  simp only [List.mem_cons, List.not_mem_nil, or_false] at hlenders hsupporters
  refine ⟨lending, support, hlending, hsupport, fun hexact => ?_, fun hbounds => ?_⟩
  · obtain ⟨hsmall, hlend⟩ := lossless_iff.1 hexact.lending_lossless
    obtain ⟨-, hsupp⟩ := lossless_iff.1 hexact.support_lossless
    rw [supportDistance] at hsupp
    exact ⟨hsmall, fun hlarge => hlend (.inl hlarge), fun hlarge => by
      have := hsupp (.inr hlarge)
      omega⟩
  · obtain ⟨hsmall, hlend, hsupp⟩ := hbounds
    refine exactPatterns_of_lossless hlending hsupport hrange (lossless_iff.2 ⟨hsmall, ?_⟩)
      (lossless_iff.2 ⟨by rw [supportDistance]; omega, ?_⟩)
    · intro hlarge
      exact hlend (by omega)
    · intro hlarge
      rw [supportDistance]
      have := hsupp (by omega)
      omega

noncomputable def widest : StageSettings ℝ :=
  { coarse with range := 2 ^ 30 - 1, supporters := 17 }

theorem patterns_exact_iff_widest : widest.validate 0 = .ok () ∧
    ∃ lending support, widest.lendingPattern = .ok lending ∧
      widest.supportPattern = .ok support ∧ widest.ExactPatterns lending support := by
  have hvalid : widest.validate 0 = .ok () :=
    validate_eq_ok.2 ⟨by decide, by decide, by norm_num [widest, coarse], rfl, by decide,
      by decide, by decide, ⟨_, _, rfl, rfl⟩⟩
  obtain ⟨lending, support, hlending, hsupport, hexact⟩ := patterns_exact_iff hvalid
  exact ⟨hvalid, lending, support, hlending, hsupport, hexact.2 ⟨by decide, by decide, by decide⟩⟩

/-- Neighbors so far away that 32 bits keep nothing of their distance. -/
noncomputable def overreaching : StageSettings ℝ := { middle with range := 2 ^ 32 }

/-- Settings whose neighbors lie beyond 32 bits pass all checks, and all their neighbors that lend
depths are the pixel itself. -/
theorem not_exactPatterns_overreaching : overreaching.validate 0 = .ok () ∧
    overreaching.lendingPattern = .ok (List.replicate 8 Offset.center) ∧
    ∀ support, ¬ overreaching.ExactPatterns (List.replicate 8 Offset.center) support := by
  refine ⟨validate_eq_ok.2 ⟨by decide, by decide, by norm_num [overreaching, middle], rfl,
    by decide, by decide, by decide, ⟨_, _, rfl, rfl⟩⟩, by decide, fun support hexact => ?_⟩
  exact absurd hexact.lending_nodup (by decide)

end StageSettings

end MultiViewDepth
