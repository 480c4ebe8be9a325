/- PlateChat/Foundation/Callbacks
   digest: Runs of one operation written in callbacks, and how often its handler is run. -/

import PlateChat.Foundation.Run

set_option autoImplicit false
set_option relaxedAutoImplicit false

/-!
An operation asks, is answered, and asks again; what it listens to may be handed to it any
number of times. Each of its callbacks runs the completion handler that it was given a number
of times. Nothing is assumed of the answers, or of their order.
-/

namespace PlateChat.Foundation.Callbacks

open PlateChat.Foundation.Run

/-- What one callback does. -/
structure Turn (ρ ℓ : Type) where
  completions : Nat := 0
  requests : List ρ := []
  listeners : List ℓ := []

/-- The callbacks for the answers to requests and for the deliveries to listeners. -/
structure Handlers (ρ ℓ : Type) (α : ρ → Type) (δ : ℓ → Type) where
  answered : ∀ r, α r → Turn ρ ℓ
  delivered : ∀ l, δ l → Turn ρ ℓ

inductive Event {ρ ℓ : Type} (α : ρ → Type) (δ : ℓ → Type)
  | answer (r : ρ) (a : α r)
  | deliver (l : ℓ) (d : δ l)

structure State (ρ ℓ : Type) where
  completed : Nat := 0
  inflight : List ρ := []
  listeners : List ℓ := []

variable {ρ ℓ : Type} {α : ρ → Type} {δ : ℓ → Type}

def State.after (s : State ρ ℓ) (t : Turn ρ ℓ) : State ρ ℓ where
  completed := s.completed + t.completions
  inflight := s.inflight ++ t.requests
  listeners := s.listeners ++ t.listeners

/-- The operation is called. -/
def begun (t : Turn ρ ℓ) : State ρ ℓ := ({} : State ρ ℓ).after t

@[simp] theorem begun_completed (t : Turn ρ ℓ) : (begun t).completed = t.completions :=
  Nat.zero_add _

@[simp] theorem begun_inflight (t : Turn ρ ℓ) : (begun t).inflight = t.requests := rfl

namespace Handlers

def turn (p : Handlers ρ ℓ α δ) : Event α δ → Turn ρ ℓ
  | .answer r a => p.answered r a
  | .deliver l d => p.delivered l d

variable [DecidableEq ρ] [DecidableEq ℓ]

def step (p : Handlers ρ ℓ α δ) (s : State ρ ℓ) : Event α δ → Option (State ρ ℓ)
  | .answer r a =>
    if r ∈ s.inflight then
      some ({ s with inflight := s.inflight.erase r }.after (p.answered r a))
    else none
  | .deliver l d => if l ∈ s.listeners then some (s.after (p.delivered l d)) else none

end Handlers

def weight (f : ρ → Nat) : List ρ → Nat
  | [] => 0
  | r :: rs => f r + weight f rs

/-- What an answer takes out of the flight. -/
def Event.taken (f : ρ → Nat) : Event α δ → Nat
  | .answer r _ => f r
  | .deliver _ _ => 0

@[simp] theorem weight_nil (f : ρ → Nat) : weight f [] = 0 := rfl

@[simp] theorem weight_cons (f : ρ → Nat) (r : ρ) (rs : List ρ) :
    weight f (r :: rs) = f r + weight f rs := rfl

@[simp] theorem weight_append (f : ρ → Nat) (rs rs' : List ρ) :
    weight f (rs ++ rs') = weight f rs + weight f rs' := by
  induction rs with
  | nil => exact (Nat.zero_add _).symm
  | cons r rs ih =>
    rw [List.cons_append, weight_cons, weight_cons, ih]
    omega

theorem weight_eq_zero {f : ρ → Nat} {rs : List ρ} (h : ∀ r ∈ rs, f r = 0) : weight f rs = 0 := by
  induction rs with
  | nil => rfl
  | cons r rs ih =>
    rw [weight_cons, h r List.mem_cons_self, ih fun q hq => h q (List.mem_cons_of_mem r hq)]

/-- The weight that counts the requests of a kind. -/
def indicator (q : ρ → Bool) (r : ρ) : Nat := if q r then 1 else 0

theorem indicator_eq_zero {q : ρ → Bool} {r : ρ} (h : ¬ q r = true) : indicator q r = 0 := if_neg h

def Event.answers (q : ρ → Bool) : Event α δ → Bool
  | .answer r _ => q r
  | .deliver _ _ => false

section Runs

variable [DecidableEq ρ] [DecidableEq ℓ] {p : Handlers ρ ℓ α δ} {s t : State ρ ℓ}
  {es : List (Event α δ)}

theorem weight_erase (f : ρ → Nat) {r : ρ} {rs : List ρ} (h : r ∈ rs) :
    weight f (rs.erase r) + f r = weight f rs := by
  induction rs with
  | nil => cases h
  | cons q rs ih =>
    by_cases hq : q = r
    · subst hq
      rw [List.erase_cons_head, weight_cons, Nat.add_comm]
    · have hmem : r ∈ rs := (List.mem_cons.mp h).resolve_left fun heq => hq heq.symm
      have hrest := ih hmem
      rw [List.erase_cons_tail (by simpa using hq), weight_cons, weight_cons]
      omega

theorem step_completed {e : Event α δ} (h : p.step s e = some t) :
    t.completed = s.completed + (p.turn e).completions := by
  cases e with
  | answer r a =>
    obtain ⟨_, h⟩ := Option.ite_none_right_eq_some.mp h
    obtain rfl := Option.some.inj h
    rfl
  | deliver l d =>
    obtain ⟨_, h⟩ := Option.ite_none_right_eq_some.mp h
    obtain rfl := Option.some.inj h
    rfl

theorem step_weight (f : ρ → Nat) {e : Event α δ} (h : p.step s e = some t) :
    weight f t.inflight + e.taken f = weight f s.inflight + weight f (p.turn e).requests := by
  cases e with
  | answer r a =>
    obtain ⟨hmem, h⟩ := Option.ite_none_right_eq_some.mp h
    obtain rfl := Option.some.inj h
    have herase := weight_erase f hmem
    show weight f (s.inflight.erase r ++ (p.answered r a).requests) + f r = _
    rw [weight_append]
    show _ = weight f s.inflight + weight f (p.answered r a).requests
    omega
  | deliver l d =>
    obtain ⟨_, h⟩ := Option.ite_none_right_eq_some.mp h
    obtain rfl := Option.some.inj h
    exact weight_append f s.inflight (p.delivered l d).requests

/-- If every callback passes on what its request carries, but for those that run the handler
once too often and those that forget it, then so does the whole run. -/
theorem run_balance {f : ρ → Nat} {repeats forgets : Event α δ → Bool}
    (balance : ∀ e, (p.turn e).completions + weight f (p.turn e).requests +
      (if forgets e then 1 else 0) = e.taken f + if repeats e then 1 else 0)
    (hr : run p.step s es = some t) :
    t.completed + weight f t.inflight + es.countP forgets =
      s.completed + weight f s.inflight + es.countP repeats := by
  induction es generalizing s with
  | nil =>
    obtain rfl := run_nil.mp hr
    rfl
  | cons e es ih =>
    obtain ⟨m, hm, ht⟩ := run_cons.mp hr
    have hcompleted := step_completed hm
    have hweight := step_weight f hm
    have hrest := ih ht
    have hbalance := balance e
    rw [List.countP_cons, List.countP_cons]
    omega

/-- Requests of a kind are answered no more often than they are issued. -/
theorem run_answers_le (q : ρ → Bool) {issues : Event α δ → Bool}
    (issued : ∀ e, weight (indicator q) (p.turn e).requests ≤ if issues e then 1 else 0)
    (hr : run p.step s es = some t) :
    es.countP (Event.answers q) ≤ weight (indicator q) s.inflight + es.countP issues := by
  induction es generalizing s with
  | nil => exact Nat.zero_le _
  | cons e es ih =>
    obtain ⟨m, hm, ht⟩ := run_cons.mp hr
    have hweight := step_weight (indicator q) hm
    have htaken : e.taken (indicator q) = if e.answers q then 1 else 0 := by
      cases e with
      | answer r a => rfl
      | deliver l d => rfl
    have hissued := issued e
    have hrest := ih ht
    rw [List.countP_cons, List.countP_cons]
    omega

/-- Every event of a run answers a request, or is delivered to a listener, of the kind that
the operation was called with, if the callbacks stay with the kind. -/
theorem run_kind {P : ρ → Prop} {Q : ℓ → Prop} {On : Event α δ → Prop}
    (answers : ∀ r a, P r → On (.answer r a)) (delivers : ∀ l d, Q l → On (.deliver l d))
    (keep : ∀ e, On e → (∀ r ∈ (p.turn e).requests, P r) ∧ ∀ l ∈ (p.turn e).listeners, Q l)
    (hr : run p.step s es = some t) (requests : ∀ r ∈ s.inflight, P r)
    (listeners : ∀ l ∈ s.listeners, Q l) : ∀ e ∈ es, On e := by
  induction es generalizing s with
  | nil => exact fun e he => nomatch he
  | cons e es ih =>
    obtain ⟨m, hm, ht⟩ := run_cons.mp hr
    have hfirst : On e ∧ (∀ r ∈ m.inflight, P r) ∧ ∀ l ∈ m.listeners, Q l := by
      cases e with
      | answer r a =>
        obtain ⟨hmem, h⟩ := Option.ite_none_right_eq_some.mp hm
        obtain rfl := Option.some.inj h
        have hon := answers r a (requests r hmem)
        obtain ⟨hrequests, hlisteners⟩ := keep _ hon
        refine ⟨hon, fun q hq => ?_, fun l hl => ?_⟩
        · rcases List.mem_append.mp hq with hq | hq
          · exact requests q (List.mem_of_mem_erase hq)
          · exact hrequests q hq
        · exact (List.mem_append.mp hl).elim (listeners l) (hlisteners l)
      | deliver l d =>
        obtain ⟨hmem, h⟩ := Option.ite_none_right_eq_some.mp hm
        obtain rfl := Option.some.inj h
        have hon := delivers l d (listeners l hmem)
        obtain ⟨hrequests, hlisteners⟩ := keep _ hon
        refine ⟨hon, fun q hq => ?_, fun k hk => ?_⟩
        · exact (List.mem_append.mp hq).elim (requests q) (hrequests q)
        · exact (List.mem_append.mp hk).elim (listeners k) (hlisteners k)
    intro e' he'
    rcases List.mem_cons.mp he' with rfl | he'
    · exact hfirst.1
    · exact ih ht hfirst.2.1 hfirst.2.2 e' he'

end Runs

end PlateChat.Foundation.Callbacks
