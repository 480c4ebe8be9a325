/- PlateChat/Foundation/Rounding
   digest: Rounding towards zero, and the whole units that a quantity has. -/

import Mathlib.Algebra.Order.Floor.Ring
import Mathlib.Algebra.Order.Round

set_option autoImplicit false
set_option relaxedAutoImplicit false

namespace PlateChat.Foundation.Rounding

universe u

variable {k : Type u} [Field k] [LinearOrder k] [FloorRing k] {x y : k}

/-- What is left of a number without its fraction. -/
def truncated (x : k) : Int := if 0 ≤ x then ⌊x⌋ else ⌈x⌉

theorem truncated_of_nonneg (h : 0 ≤ x) : truncated x = ⌊x⌋ := if_pos h

theorem truncated_of_neg (h : x < 0) : truncated x = ⌈x⌉ := if_neg (not_le.mpr h)

theorem truncated_nonneg (h : 0 ≤ x) : 0 ≤ truncated x := by
  rw [truncated_of_nonneg h]
  exact Int.floor_nonneg.mpr h

variable [IsStrictOrderedRing k]

theorem truncated_intCast (n : Int) : truncated (n : k) = n := by
  rcases le_or_gt 0 (n : k) with h | h
  · rw [truncated_of_nonneg h, Int.floor_intCast]
  · rw [truncated_of_neg h, Int.ceil_intCast]

theorem truncated_zero : truncated (0 : k) = 0 := by
  rw [truncated_of_nonneg le_rfl, Int.floor_zero]

theorem truncated_neg (x : k) : truncated (-x) = -truncated x := by
  rcases lt_trichotomy x 0 with h | h | h
  · rw [truncated_of_neg h, truncated_of_nonneg (neg_nonneg.mpr h.le), Int.floor_neg]
  · rw [h, neg_zero, truncated_zero, neg_zero]
  · rw [truncated_of_nonneg h.le, truncated_of_neg (neg_neg_of_pos h), Int.ceil_neg]

theorem truncated_nonpos (h : x ≤ 0) : truncated x ≤ 0 := by
  have hneg := truncated_nonneg (neg_nonneg.mpr h)
  rw [truncated_neg] at hneg
  omega

theorem truncated_mono (h : x ≤ y) : truncated x ≤ truncated y := by
  rcases le_or_gt 0 x with hx | hx
  · rw [truncated_of_nonneg hx, truncated_of_nonneg (hx.trans h)]
    exact Int.floor_mono h
  rcases le_or_gt 0 y with hy | hy
  · exact (truncated_nonpos hx.le).trans (truncated_nonneg hy)
  · rw [truncated_of_neg hx, truncated_of_neg hy]
    exact Int.ceil_mono h

theorem truncated_tdiv (x : k) (n : Nat) : (truncated x).tdiv n = truncated (x / n) := by
  have hpast : ∀ y : k, 0 ≤ y → (truncated y).tdiv n = truncated (y / n) := by
    intro y hy
    rw [truncated_of_nonneg (div_nonneg hy n.cast_nonneg), Int.floor_div_natCast,
      Int.tdiv_eq_ediv_of_nonneg (truncated_nonneg hy), truncated_of_nonneg hy]
  rcases le_or_gt 0 x with h | h
  · exact hpast x h
  · have hneg := hpast (-x) (neg_nonneg.mpr h.le)
    rw [truncated_neg, neg_div, truncated_neg, Int.neg_tdiv] at hneg
    exact Int.neg_inj.mp hneg

theorem truncated_tdiv_ofNat (x : k) (n : Nat) [n.AtLeastTwo] :
    (truncated x).tdiv ofNat(n) = truncated (x / ofNat(n)) :=
  truncated_tdiv x n

/-- Halves go away from zero. -/
def rounded (x : k) : Int := if 0 ≤ x then round x else -round (-x)

theorem rounded_intCast (n : Int) : rounded (n : k) = n := by
  unfold rounded
  split
  · exact round_intCast n
  · rw [← Int.cast_neg, round_intCast, neg_neg]

theorem round_le_round (h : x ≤ y) : round x ≤ round y := by
  rw [round_eq, round_eq]
  exact Int.floor_mono (add_le_add_left h _)

theorem round_nonneg (h : 0 ≤ x) : 0 ≤ round x := by
  rw [← round_zero (α := k)]
  exact round_le_round h

theorem rounded_mono (h : x ≤ y) : rounded x ≤ rounded y := by
  unfold rounded
  split <;> split
  · exact round_le_round h
  · rename_i hx hy
    exact absurd (hx.trans h) hy
  · rename_i hx hy
    have hneg := round_nonneg (neg_nonneg.mpr (not_le.mp hx).le)
    have hpos := round_nonneg hy
    omega
  · exact neg_le_neg (round_le_round (neg_le_neg h))

end PlateChat.Foundation.Rounding
