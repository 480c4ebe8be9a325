/- PlateChat/Foundation/Presentation
   digest: A stack of modally presented controllers: presenting and dismissing. -/

import Mathlib.Data.List.Basic

set_option autoImplicit false
set_option relaxedAutoImplicit false

/-!
The root controller presents a controller, which presents another, and so on. A
controller that presents one already cannot present another. Dismissing a controller
that presents something removes that and everything above it; dismissing the frontmost
removes itself.
-/

namespace PlateChat.Foundation.Presentation

universe u

variable {κ : Type u}

structure Controller (κ : Type u) where
  id : Nat
  kind : κ
  deriving DecidableEq

/-- What a dismissal of `id` leaves of the presented controllers, the frontmost first;
the root has id 0. -/
def dropped (id : Nat) : List (Controller κ) → List (Controller κ)
  | [] => []
  | c :: below =>
    if c.id = id then below
    else if id = 0 ∨ ∃ x ∈ below, x.id = id then below.dropWhile fun x => x.id ≠ id
    else c :: below

/-- The controller `id` and those above it. -/
def onOrAbove (id : Nat) : List (Controller κ) → List (Controller κ)
  | [] => []
  | c :: below =>
    if c.id = id then [c]
    else if id = 0 ∨ ∃ x ∈ below, x.id = id then c :: onOrAbove id below
    else []

theorem dropped_suffix (id : Nat) (controllers : List (Controller κ)) :
    dropped id controllers <:+ controllers := by
  cases controllers with
  | nil => exact List.suffix_refl []
  | cons c below =>
    rw [dropped]
    split
    · exact List.suffix_cons c below
    · split
      · exact (List.dropWhile_suffix _).trans (List.suffix_cons c below)
      · exact List.suffix_refl _

private theorem mem_dropWhile {id : Nat} {controllers : List (Controller κ)} {x : Controller κ}
    (found : id = 0 ∨ ∃ y ∈ controllers, y.id = id) (hx : x ∈ controllers)
    (hid : x ∉ onOrAbove id controllers) : x ∈ controllers.dropWhile fun y => y.id ≠ id := by
  induction controllers with
  | nil => cases hx
  | cons c below ih =>
    by_cases hc : c.id = id
    · have hstop : (c :: below).dropWhile (fun y => y.id ≠ id) = c :: below :=
        List.dropWhile_cons_of_neg (by simpa using hc)
      rw [hstop]
      exact hx
    · have found' : id = 0 ∨ ∃ y ∈ below, y.id = id := by
        rcases found with h | ⟨y, hy, h⟩
        · exact .inl h
        · rcases List.mem_cons.mp hy with rfl | hy
          · exact absurd h hc
          · exact .inr ⟨y, hy, h⟩
      rw [onOrAbove, if_neg hc, if_pos found', List.mem_cons, not_or] at hid
      have hbelow := ih found' ((List.mem_cons.mp hx).resolve_left hid.1) hid.2
      rw [List.dropWhile_cons_of_pos (by simpa using hc)]
      exact hbelow

theorem mem_dropped {id : Nat} {controllers : List (Controller κ)} {x : Controller κ}
    (hx : x ∈ controllers) (hid : x ∉ onOrAbove id controllers) : x ∈ dropped id controllers := by
  cases controllers with
  | nil => cases hx
  | cons c below =>
    rw [onOrAbove] at hid
    rw [dropped]
    split
    · rename_i hc
      rw [if_pos hc, List.mem_singleton] at hid
      exact (List.mem_cons.mp hx).resolve_left hid
    · rename_i hc
      rw [if_neg hc] at hid
      split
      · rename_i found
        rw [if_pos found, List.mem_cons, not_or] at hid
        exact mem_dropWhile found ((List.mem_cons.mp hx).resolve_left hid.1) hid.2
      · exact hx

/-- A presentation stack over the root: no two controllers share an id. -/
structure Stack (κ : Type u) where
  controllers : List (Controller κ) := []
  made : Nat := 0
  nodup : (controllers.map Controller.id).Nodup
  known : ∀ c ∈ controllers, 0 < c.id ∧ c.id ≤ made

namespace Stack

/-- Nothing is presented; `made` controllers were made before. -/
def bare (made : Nat) : Stack κ where
  controllers := []
  made := made
  nodup := List.nodup_nil
  known _ hc := nomatch hc

def front (s : Stack κ) : Nat := (s.controllers.head?.map Controller.id).getD 0

/-- `presenter` presents a new controller, unless it presents one already. -/
def present (s : Stack κ) (presenter : Nat) (kind : κ) : Stack κ :=
  if s.front = presenter then {
    controllers := ⟨s.made + 1, kind⟩ :: s.controllers
    made := s.made + 1
    nodup := by
      rw [List.map_cons, List.nodup_cons]
      refine ⟨fun hmem => ?_, s.nodup⟩
      obtain ⟨c, hc, hid⟩ := List.mem_map.mp hmem
      have hfresh : c.id = s.made + 1 := hid
      have hknown := (s.known c hc).2
      omega
    known := by
      intro c hc
      rcases List.mem_cons.mp hc with rfl | hc
      · exact ⟨Nat.succ_pos _, Nat.le_refl _⟩
      · have hknown := s.known c hc
        omega }
  else s

def dismiss (s : Stack κ) (id : Nat) : Stack κ where
  controllers := dropped id s.controllers
  made := s.made
  nodup := ((dropped_suffix id s.controllers).sublist.map _).nodup s.nodup
  known c hc := s.known c ((dropped_suffix id s.controllers).subset hc)

theorem dismiss_subset (s : Stack κ) (id : Nat) :
    (s.dismiss id).controllers ⊆ s.controllers :=
  (dropped_suffix id s.controllers).subset

theorem present_front (s : Stack κ) (kind : κ) :
    (s.present s.front kind).controllers = ⟨s.made + 1, kind⟩ :: s.controllers := by
  unfold present
  rw [if_pos rfl]

/-- A presentation adds its controller in front, or is refused. -/
theorem present_cases (s : Stack κ) (presenter : Nat) (kind : κ) :
    (s.present presenter kind).controllers = ⟨s.made + 1, kind⟩ :: s.controllers ∨
      s.present presenter kind = s := by
  unfold present
  split
  · exact .inl rfl
  · exact .inr rfl

theorem not_mem_dismiss_front {s : Stack κ} {c : Controller κ} {below : List (Controller κ)}
    (h : s.controllers = c :: below) : c ∉ (s.dismiss c.id).controllers := by
  have hnodup := s.nodup
  rw [h, List.map_cons, List.nodup_cons] at hnodup
  have hdropped : (s.dismiss c.id).controllers = below := by
    show dropped c.id s.controllers = below
    rw [h, dropped, if_pos rfl]
  rw [hdropped]
  exact fun hc => hnodup.1 (List.mem_map_of_mem hc)

end Stack

end PlateChat.Foundation.Presentation
