/- PlateChat/Foundation/Progress
   digest: Endless executions, and what follows sooner or later in them. -/

import Mathlib.Order.Monotone.Basic

set_option autoImplicit false
set_option relaxedAutoImplicit false

namespace PlateChat.Foundation.Progress

universe u v

section LeadsTo

variable {p q e : ℕ → Prop}

/-- Whenever the first holds, the second holds then or later. -/
def LeadsTo (p q : ℕ → Prop) : Prop := ∀ k, p k → ∃ j, k ≤ j ∧ q j

theorem LeadsTo.of_imp (h : ∀ k, p k → q k) : LeadsTo p q :=
  fun k hp => ⟨k, le_refl k, h k hp⟩

/-- What holds until the goal is met is met by what it leads to, or by the goal. -/
theorem LeadsTo.of_until (holds : ∀ k, p k → q k ∨ p (k + 1)) (again : LeadsTo p e) :
    LeadsTo p fun k => q k ∨ p k ∧ e k := by
  intro k hp
  obtain ⟨j, hkj, he⟩ := again k hp
  have hreach : ∀ d, (∃ i, k ≤ i ∧ q i) ∨ p (k + d) := by
    intro d
    induction d with
    | zero => exact .inr hp
    | succ d ih =>
      rcases ih with hmet | hd
      · exact .inl hmet
      · rcases holds (k + d) hd with hq | hnext
        · exact .inl ⟨k + d, Nat.le_add_right k d, hq⟩
        · exact .inr hnext
  rcases hreach (j - k) with ⟨i, hki, hq⟩ | hj
  · exact ⟨i, hki, .inl hq⟩
  · rw [Nat.add_sub_cancel' hkj] at hj
    exact ⟨j, hkj, .inr ⟨hj, he⟩⟩

/-- A rank that goes down until the goal is met leads to the goal. -/
theorem LeadsTo.of_rank (rank : ℕ → ℕ)
    (down : ∀ n, LeadsTo (fun k => p k ∧ rank k = n) fun k => q k ∨ p k ∧ rank k < n) :
    LeadsTo p q := by
  have hrank : ∀ n k, p k → rank k = n → ∃ j, k ≤ j ∧ q j := by
    intro n
    induction n using Nat.strong_induction_on with
    | _ n ih =>
      intro k hp hn
      obtain ⟨i, hki, hq | ⟨hp', hless⟩⟩ := down n k ⟨hp, hn⟩
      · exact ⟨i, hki, hq⟩
      · obtain ⟨j, hij, hq⟩ := ih (rank i) hless i hp' rfl
        exact ⟨j, hki.trans hij, hq⟩
  exact fun k hp => hrank (rank k) k hp rfl

end LeadsTo

section Execution

variable {σ : Type u} {ε : Type v} {step : σ → ε → Option σ} {start : σ}

/-- A run without an end: each event is possible where it happens. -/
structure Execution (step : σ → ε → Option σ) (start : σ) where
  states : ℕ → σ
  events : ℕ → ε
  starts : states 0 = start
  steps : ∀ k, step (states k) (events k) = some (states (k + 1))

namespace Execution

/-- A choice of the next event that is always possible. -/
def ofNext (start : σ) (next : σ → ε) (possible : ∀ s, (step s (next s)).isSome) :
    Execution step start where
  states := Nat.rec start fun _ s => (step s (next s)).get (possible s)
  events k := next (Nat.rec start (fun _ s => (step s (next s)).get (possible s)) k)
  starts := rfl
  steps _ := (Option.some_get _).symm

/-- How many events before the `k`-th are of a kind. -/
def count (x : Execution step start) (kind : ε → Bool) : ℕ → ℕ
  | 0 => 0
  | k + 1 => x.count kind k + if kind (x.events k) then 1 else 0

theorem count_mono (x : Execution step start) (kind : ε → Bool) : Monotone (x.count kind) := by
  refine monotone_nat_of_le_succ fun k => ?_
  exact Nat.le_add_right _ _

theorem count_unbounded (x : Execution step start) {kind : ε → Bool}
    (again : ∀ k, ∃ j, k ≤ j ∧ kind (x.events j) = true) (m : ℕ) : ∃ k, m ≤ x.count kind k := by
  induction m with
  | zero => exact ⟨0, le_refl 0⟩
  | succ m ih =>
    obtain ⟨k, hk⟩ := ih
    obtain ⟨j, hkj, hj⟩ := again k
    refine ⟨j + 1, ?_⟩
    have hmono := x.count_mono kind hkj
    rw [count, if_pos hj]
    exact Nat.succ_le_succ (hk.trans hmono)

end Execution

end Execution

end PlateChat.Foundation.Progress
