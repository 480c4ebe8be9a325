/- PlateChat/Foundation/Fleet
   digest: Many clients of one backend, each with a session of its own. -/

import PlateChat.Foundation.EventLoop

set_option autoImplicit false
set_option relaxedAutoImplicit false

/-!
Every client runs an event loop of its own and sees the backend through its own session.
What a request of one client changes, all the others see from then on.
-/

namespace PlateChat.Foundation.Fleet

open PlateChat.Foundation.Run PlateChat.Foundation.EventLoop

variable {D S T C ν η ρ α ℓ δ : Type}

/-- What of a backend's state is shared: `adopt own new` is a client's view of the backend
once the shared part is that of `new`. -/
structure Sharing (S T : Type) where
  shared : S → T
  adopt : S → S → S
  shared_adopt : ∀ own new, shared (adopt own new) = shared new

abbrev Clients (D S C ρ α ℓ : Type) := D → World S C ρ α ℓ

/-- All clients see the same shared part. -/
def Agree (sharing : Sharing S T) (f : Clients D S C ρ α ℓ) (t : T) : Prop :=
  ∀ d, sharing.shared (f d).server = t

section Spread

variable [DecidableEq D] [DecidableEq δ] {p : Program S C ν η ρ α ℓ δ} {sharing : Sharing S T}
  {f : Clients D S C ρ α ℓ} {d e : D} {w : World S C ρ α ℓ}

/-- One client has moved to `w`; the others adopt what its backend shares. -/
def spread (p : Program S C ν η ρ α ℓ δ) (sharing : Sharing S T) (f : Clients D S C ρ α ℓ) (d : D)
    (w : World S C ρ α ℓ) : Clients D S C ρ α ℓ := fun e =>
  if e = d then w else (f e).install p (sharing.adopt (f e).server w.server)

@[simp] theorem spread_own : spread p sharing f d w d = w := if_pos rfl

theorem spread_other (h : e ≠ d) :
    spread p sharing f d w e = (f e).install p (sharing.adopt (f e).server w.server) := if_neg h

theorem agree_spread : Agree sharing (spread p sharing f d w) (sharing.shared w.server) := by
  intro e
  by_cases h : e = d
  · rw [h, spread_own]
  · rw [spread_other h]
    exact sharing.shared_adopt _ _

/-- What one client's own step keeps, and the others keep as they see another backend, all
clients keep. -/
theorem forall_spread {P : D → World S C ρ α ℓ → Prop} (h : ∀ e, P e (f e)) (own : P d w)
    (other : ∀ e, e ≠ d → P e (f e) →
      P e ((f e).install p (sharing.adopt (f e).server w.server))) :
    ∀ e, P e (spread p sharing f d w e) := by
  intro e
  by_cases he : e = d
  · rw [he, spread_own]
    exact own
  · rw [spread_other he]
    exact other e he (h e)

end Spread

section Steps

variable [DecidableEq D] [DecidableEq ℓ] [DecidableEq δ]

def step (p : Program S C ν η ρ α ℓ δ) (sharing : Sharing S T) (f : Clients D S C ρ α ℓ)
    (x : D × Event ν η) : Option (Clients D S C ρ α ℓ) :=
  (p.step (f x.1) x.2).map (spread p sharing f x.1)

theorem step_spread {p : Program S C ν η ρ α ℓ δ} {sharing : Sharing S T}
    {f f' : Clients D S C ρ α ℓ} {x : D × Event ν η} (h : step p sharing f x = some f') :
    ∃ w, Program.Fires p (f x.1) x.2 w ∧ f' = spread p sharing f x.1 w := by
  obtain ⟨w, hw, rfl⟩ := Option.map_eq_some_iff.mp h
  exact ⟨w, Program.step_fires hw, rfl⟩

theorem spread_step {p : Program S C ν η ρ α ℓ δ} {sharing : Sharing S T}
    {f : Clients D S C ρ α ℓ} {d : D} {e : Event ν η} {w : World S C ρ α ℓ}
    (h : Program.Fires p (f d) e w) : step p sharing f (d, e) = some (spread p sharing f d w) := by
  simp only [step, Program.fires_step h, Option.map_some]

end Steps

end PlateChat.Foundation.Fleet
