/- PlateChat/Foundation/Navigation
   digest: A navigation stack: instances of screens that are pushed once and popped. -/

import Mathlib.Data.List.Nodup
import Mathlib.Logic.Function.Iterate

set_option autoImplicit false
set_option relaxedAutoImplicit false

/-!
A screen is pushed on top of the others and popped from there; the root is never popped.
Pushing an instance that is on the stack already is refused.
-/

namespace PlateChat.Foundation.Navigation

universe u

structure Screen (κ : Type u) where
  id : Nat
  kind : κ
  deriving DecidableEq

/-- The screens of a navigation controller, `below` from the top down to the root. -/
structure Stack (κ : Type u) where
  top : Screen κ
  below : List (Screen κ)
  nodup : ((top :: below).map Screen.id).Nodup

namespace Stack

variable {κ : Type u}

def screens (s : Stack κ) : List (Screen κ) := s.top :: s.below

def ids (s : Stack κ) : List Nat := s.screens.map Screen.id

def root (id : Nat) (kind : κ) : Stack κ where
  top := ⟨id, kind⟩
  below := []
  nodup := List.nodup_singleton id

/-- The same instance is not pushed twice. -/
def push (s : Stack κ) (x : Screen κ) : Option (Stack κ) :=
  if h : x.id ∈ s.ids then none
  else some ⟨x, s.screens, List.nodup_cons.mpr ⟨h, s.nodup⟩⟩

def pop : Stack κ → Stack κ
  | ⟨_, x :: below, nodup⟩ => ⟨x, below, (List.nodup_cons.mp nodup).2⟩
  | ⟨x, [], nodup⟩ => ⟨x, [], nodup⟩

/-- `a` lies over `b`. -/
def Over (s : Stack κ) (a b : Nat) : Prop := [a, b].Sublist s.ids

theorem nodup_ids (s : Stack κ) : s.ids.Nodup := s.nodup

theorem mem_ids {s : Stack κ} {id : Nat} : id ∈ s.ids ↔ ∃ x ∈ s.screens, x.id = id :=
  List.mem_map

theorem top_mem (s : Stack κ) : s.top ∈ s.screens := List.mem_cons_self

theorem push_eq_none {s : Stack κ} {x : Screen κ} : s.push x = none ↔ x.id ∈ s.ids := by
  unfold push
  split <;> simp [*]

theorem push_spec {s s' : Stack κ} {x : Screen κ} (h : s.push x = some s') :
    x.id ∉ s.ids ∧ s'.top = x ∧ s'.screens = x :: s.screens := by
  unfold push at h
  split at h
  · cases h
  · rename_i hid
    obtain rfl := Option.some.inj h
    exact ⟨hid, rfl, rfl⟩

theorem push_of_fresh {s : Stack κ} {x : Screen κ} (h : x.id ∉ s.ids) :
    ∃ s', s.push x = some s' := by
  unfold push
  rw [dif_neg h]
  exact ⟨_, rfl⟩

theorem ids_push {s s' : Stack κ} {x : Screen κ} (h : s.push x = some s') :
    s'.ids = x.id :: s.ids := by
  unfold ids
  rw [(push_spec h).2.2, List.map_cons]

theorem ids_pop (s : Stack κ) : s.pop.ids = s.ids ∧ s.below = [] ∨ s.ids = s.top.id :: s.pop.ids := by
  rcases s with ⟨x, _ | ⟨y, below⟩, nodup⟩
  · exact .inl ⟨rfl, rfl⟩
  · exact .inr rfl

theorem screens_pop_suffix (s : Stack κ) : s.pop.screens <:+ s.screens := by
  rcases s with ⟨x, _ | ⟨y, below⟩, nodup⟩
  · exact List.suffix_refl _
  · exact List.suffix_cons x _

theorem mem_of_mem_pop {s : Stack κ} {x : Screen κ} (h : x ∈ s.pop.screens) : x ∈ s.screens :=
  s.screens_pop_suffix.subset h

theorem ids_of_pop {s : Stack κ} {id : Nat} (h : id ∈ s.pop.ids) : id ∈ s.ids := by
  obtain ⟨x, hx, hid⟩ := mem_ids.mp h
  exact mem_ids.mpr ⟨x, mem_of_mem_pop hx, hid⟩

theorem getLast_push {s s' : Stack κ} {x : Screen κ} (h : s.push x = some s') :
    s'.screens.getLast? = s.screens.getLast? := by
  rw [(push_spec h).2.2]
  exact List.getLast?_cons_cons

theorem getLast_pop (s : Stack κ) : s.pop.screens.getLast? = s.screens.getLast? := by
  rcases s with ⟨x, _ | ⟨y, below⟩, nodup⟩
  · rfl
  · exact List.getLast?_cons_cons.symm

theorem Over.ne_top {s : Stack κ} {a b : Nat} (h : s.Over a b) : s.top.id ≠ b := by
  rintro rfl
  have hsub : [a, s.top.id].Sublist (s.top.id :: s.below.map Screen.id) := h
  have hnot := (List.nodup_cons.mp s.nodup).1
  cases hsub with
  | cons _ h' =>
    have hmem := h'.subset
    simp only [List.cons_subset] at hmem
    exact hnot hmem.2.1
  | cons_cons _ h' => exact hnot (List.singleton_sublist.mp h')

theorem Over.push {s s' : Stack κ} {x : Screen κ} {a b : Nat} (h : s.Over a b)
    (hpush : s.push x = some s') : s'.Over a b := by
  unfold Over
  rw [ids_push hpush]
  exact h.cons x.id

theorem over_pushed {s s' : Stack κ} {x : Screen κ} {b : Nat} (hpush : s.push x = some s')
    (h : b ∈ s.ids) : s'.Over x.id b := by
  unfold Over
  rw [ids_push hpush]
  exact (List.singleton_sublist.mpr h).cons_cons x.id

theorem Over.pop {s : Stack κ} {a b : Nat} (h : s.Over a b) (ha : a ∈ s.pop.ids) :
    s.pop.Over a b := by
  rcases s.ids_pop with ⟨hsame, _⟩ | hids
  · unfold Over at h ⊢
    rwa [hsame]
  · have hnot := hids ▸ s.nodup_ids
    have hsub : [a, b].Sublist (s.top.id :: s.pop.ids) := hids ▸ h
    cases hsub with
    | cons _ h' => exact h'
    | cons_cons _ h' => exact absurd ha (List.nodup_cons.mp hnot).1

/-- As many pops as it takes bring a screen to the top. -/
theorem exists_pops {s : Stack κ} {id : Nat} (h : id ∈ s.ids) :
    ∃ n, (pop^[n] s).top.id = id := by
  obtain ⟨top, below, nodup⟩ := s
  induction below generalizing top with
  | nil =>
    obtain rfl := List.mem_singleton.mp h
    exact ⟨0, rfl⟩
  | cons y below ih =>
    rcases List.mem_cons.mp h with rfl | h
    · exact ⟨0, rfl⟩
    · obtain ⟨n, hn⟩ := ih y (List.nodup_cons.mp nodup).2 h
      exact ⟨n + 1, hn⟩

theorem exists_pops_gone {s : Stack κ} {id : Nat}
    (h : ∀ x ∈ s.screens.getLast?, x.id ≠ id) : ∃ n, id ∉ (pop^[n] s).ids := by
  obtain ⟨top, below, nodup⟩ := s
  induction below generalizing top with
  | nil =>
    refine ⟨0, ?_⟩
    have hne := h top rfl
    simp [ids, screens, hne.symm]
  | cons y below ih =>
    obtain ⟨n, hn⟩ := ih y (List.nodup_cons.mp nodup).2
      fun x hx => h x (by rwa [screens, List.getLast?_cons_cons])
    exact ⟨n + 1, hn⟩

end Stack

end PlateChat.Foundation.Navigation
