/- PlateChat/Foundation/Span
   digest: An interval within limits, its ends moved one at a time or both together. -/

import Mathlib.Algebra.Order.Group.Defs
import Mathlib.Algebra.Order.Monoid.Unbundled.MinMax
import Mathlib.Tactic.Abel

set_option autoImplicit false
set_option relaxedAutoImplicit false

namespace PlateChat.Foundation.Span

universe u

/-- How far the ends of an interval may go, and how far apart they have to stay. -/
structure Limits (k : Type u) where
  least : k
  greatest : k
  distance : k

variable {k : Type u} [LinearOrder k]

/-- The value, or the limit that it is beyond. -/
def boundValue (value lower upper : k) : k := min (max value lower) upper

theorem boundValue_of_mem {value lower upper : k} (hl : lower ≤ value) (hu : value ≤ upper) :
    boundValue value lower upper = value := by
  rw [boundValue, max_eq_left hl, min_eq_left hu]

theorem boundValue_le (value lower upper : k) : boundValue value lower upper ≤ upper :=
  min_le_right _ _

theorem le_boundValue {lower upper : k} (value : k) (h : lower ≤ upper) :
    lower ≤ boundValue value lower upper :=
  le_min (le_max_right _ _) h

variable [AddCommGroup k]

structure Limits.Holds (L : Limits k) (lower upper : k) : Prop where
  least : L.least ≤ lower
  apart : lower + L.distance ≤ upper
  greatest : upper ≤ L.greatest

variable [IsOrderedAddMonoid k] {L : Limits k} {lower upper : k}

theorem Limits.Holds.sendLower (h : L.Holds lower upper) (value : k) :
    L.Holds (boundValue value L.least (upper - L.distance)) upper where
  least := le_boundValue value (h.least.trans (le_sub_iff_add_le.mpr h.apart))
  apart := le_sub_iff_add_le.mp (boundValue_le _ _ _)
  greatest := h.greatest

omit [IsOrderedAddMonoid k] in
theorem Limits.Holds.sendUpper (h : L.Holds lower upper) (value : k) :
    L.Holds lower (boundValue value (lower + L.distance) L.greatest) where
  least := h.least
  apart := le_boundValue value (h.apart.trans h.greatest)
  greatest := boundValue_le _ _ _

/-- An interval that is shifted as a whole keeps its length. -/
theorem Limits.Holds.shift (h : L.Holds lower upper) {by' : k} (hl : L.least ≤ lower + by')
    (hu : upper + by' ≤ L.greatest) : L.Holds (lower + by') (upper + by') where
  least := hl
  apart := by
    rw [add_right_comm]
    exact add_le_add_left h.apart by'
  greatest := hu

section Both

variable {gap step : k}

/-- Upwards: the upper end leads, and the lower one follows at the old distance. -/
theorem Limits.Holds.sendUp (h : L.Holds lower upper) (hgap : gap = upper - lower) (hstep : 0 ≤ step) :
    let upper' := boundValue (upper + step) (lower + gap) L.greatest
    let lower' := boundValue (lower + step) L.least (upper' - gap)
    L.Holds lower' upper' ∧ upper' - lower' = upper - lower := by
  intro upper' lower'
  subst hgap
  have hupper : upper' = upper + min step (L.greatest - upper) := by
    show min (max (upper + step) (lower + (upper - lower))) L.greatest = _
    rw [add_sub_cancel, max_eq_left (le_add_of_nonneg_right hstep), ← min_add_add_left,
      add_sub_cancel]
  have hroom : 0 ≤ min step (L.greatest - upper) := le_min hstep (sub_nonneg.mpr h.greatest)
  have hlower : lower' = lower + min step (L.greatest - upper) := by
    show min (max (lower + step) L.least) (upper' - (upper - lower)) = _
    rw [hupper, max_eq_left (h.least.trans (le_add_of_nonneg_right hstep))]
    have hback : upper + min step (L.greatest - upper) - (upper - lower) =
        lower + min step (L.greatest - upper) := by abel
    rw [hback, min_eq_right (add_le_add_right (min_le_left _ _) lower)]
  rw [hlower, hupper]
  refine ⟨h.shift (h.least.trans (le_add_of_nonneg_right hroom)) ?_, by abel⟩
  calc upper + min step (L.greatest - upper)
      ≤ upper + (L.greatest - upper) := add_le_add_right (min_le_right _ _) upper
    _ = L.greatest := add_sub_cancel _ _

theorem Limits.Holds.sendDown (h : L.Holds lower upper) (hgap : gap = upper - lower)
    (hstep : step ≤ 0) :
    let lower' := boundValue (lower + step) L.least (upper - gap)
    let upper' := boundValue (upper + step) (lower' + gap) L.greatest
    L.Holds lower' upper' ∧ upper' - lower' = upper - lower := by
  intro lower' upper'
  subst hgap
  have hlower : lower' = lower + max step (L.least - lower) := by
    show min (max (lower + step) L.least) (upper - (upper - lower)) = _
    rw [sub_sub_cancel, ← max_add_add_left, add_sub_cancel]
    exact min_eq_left (max_le (add_le_of_nonpos_right hstep) h.least)
  have hroom : max step (L.least - lower) ≤ 0 := max_le hstep (sub_nonpos.mpr h.least)
  have hupper : upper' = upper + max step (L.least - lower) := by
    show min (max (upper + step) (lower' + (upper - lower))) L.greatest = _
    rw [hlower]
    have hback : lower + max step (L.least - lower) + (upper - lower) =
        upper + max step (L.least - lower) := by abel
    rw [hback, max_eq_right (add_le_add_right (le_max_left _ _) upper)]
    exact min_eq_left ((add_le_of_nonpos_right hroom).trans h.greatest)
  rw [hlower, hupper]
  refine ⟨h.shift ?_ ((add_le_of_nonpos_right hroom).trans h.greatest), by abel⟩
  calc L.least = lower + (L.least - lower) := (add_sub_cancel _ _).symm
    _ ≤ lower + max step (L.least - lower) := add_le_add_right (le_max_right _ _) lower

end Both

end PlateChat.Foundation.Span
