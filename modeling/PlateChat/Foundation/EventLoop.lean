/- PlateChat/Foundation/EventLoop
   digest: A client of a document backend: requests in flight, completion handlers, listeners. -/

import Mathlib.Data.List.Perm.Basic
import PlateChat.Foundation.Run

set_option autoImplicit false
set_option relaxedAutoImplicit false

/-!
A callback program never waits. An action or a handler changes the client,
issues requests and registers listeners; the backend answers each request at
some later moment, the handler of an answered request runs at some moment after
that, and a registered listener may be handed its query's result at any time.
Nothing orders these moments except that each follows what it answers.
-/

namespace PlateChat.Foundation.EventLoop

open PlateChat.Foundation.Run

/-- What an action or a handler leaves behind. -/
structure Effect (C ρ ℓ : Type) where
  client : C
  requests : List ρ := []
  listeners : List ℓ := []
  removed : List ℓ := []

namespace Effect

variable {C ρ ℓ : Type}

/-- Continue with the client an effect leaves, keeping what it issued before. -/
def andThen (e : Effect C ρ ℓ) (k : C → Effect C ρ ℓ) : Effect C ρ ℓ where
  client := (k e.client).client
  requests := e.requests ++ (k e.client).requests
  listeners := e.listeners ++ (k e.client).listeners
  removed := e.removed ++ (k e.client).removed

end Effect

/-- A request on its way; the answer is there once the backend has served it. -/
structure Call (ρ α : Type) where
  request : ρ
  answer : Option α
  deriving DecidableEq

/-- A registered listener, due while its query's result has changed since the last delivery. -/
structure Watch (ℓ : Type) where
  listener : ℓ
  due : Bool
  deriving DecidableEq

/-- A callback program over server states `S` and client states `C`: actions `ν`,
requests `ρ` with answers `α`, listeners `ℓ` with snapshots `δ`, and the changes
`η` that other parties make on the server. A handler that traps yields `none`. -/
structure Program (S C ν η ρ α ℓ δ : Type) where
  act : S → C → ν → Option (Effect C ρ ℓ)
  serve : S → ρ → Bool → S × α
  handle : S → C → ρ → α → Option (Effect C ρ ℓ)
  snapshot : S → ℓ → δ
  notify : S → C → ℓ → Option δ → Option (Effect C ρ ℓ)
  env : S → η → S

structure World (S C ρ α ℓ : Type) where
  server : S
  client : C
  inflight : List (Call ρ α) := []
  watches : List (Watch ℓ) := []

/-- `serve i ok` lets the backend accept or reject the `i`-th request, `handle i`
runs its handler, `deliver j ok` hands the `j`-th listener a snapshot or an error. -/
inductive Event (ν η : Type)
  | act (v : ν)
  | serve (i : Nat) (ok : Bool)
  | handle (i : Nat)
  | deliver (j : Nat) (ok : Bool)
  | env (h : η)
  deriving DecidableEq

variable {S C ν η ρ α ℓ δ : Type}

namespace World

/-- The `i`-th request leaves the flight as its handler starts. -/
def landed (w : World S C ρ α ℓ) (i : Nat) : World S C ρ α ℓ :=
  { w with inflight := w.inflight.eraseIdx i }

/-- The `j`-th listener is handed the current result. -/
def delivered (w : World S C ρ α ℓ) (j : Nat) (l : ℓ) : World S C ρ α ℓ :=
  { w with watches := w.watches.set j ⟨l, false⟩ }

theorem calls_landed {P : Call ρ α → Prop} {w : World S C ρ α ℓ} {i : Nat}
    (h : ∀ q ∈ w.inflight, P q) : ∀ q ∈ (w.landed i).inflight, P q :=
  fun q hq => h q (List.mem_of_mem_eraseIdx hq)

section Perform

variable [DecidableEq ℓ]

def perform (w : World S C ρ α ℓ) (e : Effect C ρ ℓ) : World S C ρ α ℓ where
  server := w.server
  client := e.client
  inflight := w.inflight ++ e.requests.map (fun r => ⟨r, none⟩)
  watches := w.watches.filter (fun x => x.listener ∉ e.removed) ++
    e.listeners.map (fun l => ⟨l, true⟩)

@[simp] theorem perform_client (w : World S C ρ α ℓ) (e : Effect C ρ ℓ) :
    (w.perform e).client = e.client := rfl

@[simp] theorem perform_inflight (w : World S C ρ α ℓ) (e : Effect C ρ ℓ) :
    (w.perform e).inflight = w.inflight ++ e.requests.map (fun r => ⟨r, none⟩) := rfl

theorem calls_perform {P : Call ρ α → Prop} {w : World S C ρ α ℓ} {e : Effect C ρ ℓ}
    (h : ∀ q ∈ w.inflight, P q) (issued : ∀ r ∈ e.requests, P ⟨r, none⟩) :
    ∀ q ∈ (w.perform e).inflight, P q := by
  intro q hq
  rcases List.mem_append.mp hq with hq | hq
  · exact h q hq
  · obtain ⟨r, hr, rfl⟩ := List.mem_map.mp hq
    exact issued r hr

theorem perform_watches (w : World S C ρ α ℓ) (e : Effect C ρ ℓ) (h : e.removed = []) :
    (w.perform e).watches = w.watches ++ e.listeners.map (fun l => ⟨l, true⟩) := by
  simp [perform, h]

end Perform

section Install

variable [DecidableEq δ]

/-- Install a server state; listeners whose query result differs become due. -/
def install (p : Program S C ν η ρ α ℓ δ) (w : World S C ρ α ℓ) (s : S) : World S C ρ α ℓ :=
  { w with
    server := s
    watches := w.watches.map fun x =>
      { x with due := x.due || decide (p.snapshot w.server x.listener ≠ p.snapshot s x.listener) } }

/-- The backend serves the `i`-th request. -/
def served (p : Program S C ν η ρ α ℓ δ) (w : World S C ρ α ℓ) (i : Nat) (r : ρ) (ok : Bool) :
    World S C ρ α ℓ :=
  let answer := p.serve w.server r ok
  { w.install p answer.1 with inflight := w.inflight.set i ⟨r, some answer.2⟩ }

@[simp] theorem served_inflight (p : Program S C ν η ρ α ℓ δ) (w : World S C ρ α ℓ) (i : Nat)
    (r : ρ) (ok : Bool) :
    (w.served p i r ok).inflight = w.inflight.set i ⟨r, some (p.serve w.server r ok).2⟩ := rfl

theorem calls_served {P : Call ρ α → Prop} {p : Program S C ν η ρ α ℓ δ} {w : World S C ρ α ℓ}
    {i : Nat} {r : ρ} {ok : Bool} (h : ∀ q ∈ w.inflight, P q)
    (answered : P ⟨r, some (p.serve w.server r ok).2⟩) :
    ∀ q ∈ (w.served p i r ok).inflight, P q := by
  intro q hq
  rcases List.mem_or_eq_of_mem_set hq with hq | rfl
  · exact h q hq
  · exact answered

theorem watches_install (p : Program S C ν η ρ α ℓ δ) {w : World S C ρ α ℓ} (s : S) {k : Nat}
    {x : Watch ℓ} (h : w.watches[k]? = some x) :
    (w.install p s).watches[k]? = some { x with
      due := x.due || decide (p.snapshot w.server x.listener ≠ p.snapshot s x.listener) } := by
  show (w.watches.map _)[k]? = _
  rw [List.getElem?_map, h]
  rfl

theorem install_watches_same (p : Program S C ν η ρ α ℓ δ) (w : World S C ρ α ℓ) (s : S)
    (h : ∀ x ∈ w.watches, p.snapshot s x.listener = p.snapshot w.server x.listener) :
    (w.install p s).watches = w.watches := by
  show w.watches.map _ = w.watches
  conv_rhs => rw [← List.map_id w.watches]
  apply List.map_congr_left
  intro x hx
  simp [h x hx]

theorem listeners_install (p : Program S C ν η ρ α ℓ δ) (w : World S C ρ α ℓ) (s : S) :
    (w.install p s).watches.map Watch.listener = w.watches.map Watch.listener := by
  simp [install, Function.comp_def]

end Install

theorem listeners_delivered {w : World S C ρ α ℓ} {j : Nat} {x : Watch ℓ}
    (h : w.watches[j]? = some x) :
    (w.delivered j x.listener).watches.map Watch.listener = w.watches.map Watch.listener := by
  obtain ⟨hlt, rfl⟩ := List.getElem?_eq_some_iff.mp h
  have hself := List.set_getElem_self
    (show j < (w.watches.map Watch.listener).length by rw [List.length_map]; exact hlt)
  rw [List.getElem_map] at hself
  show (w.watches.set _ _).map Watch.listener = _
  rw [List.map_set]
  exact hself

theorem listeners_perform [DecidableEq ℓ] {w : World S C ρ α ℓ} {e : Effect C ρ ℓ}
    (h : e.removed = []) :
    (w.perform e).watches.map Watch.listener = w.watches.map Watch.listener ++ e.listeners := by
  rw [perform_watches w e h]
  simp [Function.comp_def]

/-- What the event is about is there. -/
def Enabled (w : World S C ρ α ℓ) : Event ν η → Prop
  | .act _ | .env _ => True
  | .serve i _ => ∃ r, w.inflight[i]? = some ⟨r, none⟩
  | .handle i => ∃ r a, w.inflight[i]? = some ⟨r, some a⟩
  | .deliver j _ => ∃ x, w.watches[j]? = some x

end World

section Steps

variable [DecidableEq ℓ] [DecidableEq δ]

namespace Program

def step (p : Program S C ν η ρ α ℓ δ) (w : World S C ρ α ℓ) : Event ν η → Option (World S C ρ α ℓ)
  | .act v => (p.act w.server w.client v).map w.perform
  | .serve i ok => match w.inflight[i]? with
    | some ⟨r, none⟩ => some (w.served p i r ok)
    | _ => none
  | .handle i => match w.inflight[i]? with
    | some ⟨r, some a⟩ => (p.handle w.server w.client r a).map (w.landed i).perform
    | _ => none
  | .deliver j ok => match w.watches[j]? with
    | some x =>
        (p.notify w.server w.client x.listener
          (if ok then some (p.snapshot w.server x.listener) else none)).map
          (w.delivered j x.listener).perform
    | none => none
  | .env h => some (w.install p (p.env w.server h))

/-- What a step can do, one constructor for each kind of event. -/
inductive Fires (p : Program S C ν η ρ α ℓ δ) (w : World S C ρ α ℓ) :
    Event ν η → World S C ρ α ℓ → Prop
  | act {v : ν} {e : Effect C ρ ℓ} : p.act w.server w.client v = some e →
      Fires p w (.act v) (w.perform e)
  | serve {i : Nat} {ok : Bool} {r : ρ} : w.inflight[i]? = some ⟨r, none⟩ →
      Fires p w (.serve i ok) (w.served p i r ok)
  | handle {i : Nat} {r : ρ} {a : α} {e : Effect C ρ ℓ} : w.inflight[i]? = some ⟨r, some a⟩ →
      p.handle w.server w.client r a = some e → Fires p w (.handle i) ((w.landed i).perform e)
  | deliver {j : Nat} {ok : Bool} {x : Watch ℓ} {e : Effect C ρ ℓ} : w.watches[j]? = some x →
      p.notify w.server w.client x.listener
        (if ok then some (p.snapshot w.server x.listener) else none) = some e →
      Fires p w (.deliver j ok) ((w.delivered j x.listener).perform e)
  | env {h : η} : Fires p w (.env h) (w.install p (p.env w.server h))

theorem step_fires {p : Program S C ν η ρ α ℓ δ} {w w' : World S C ρ α ℓ} {e : Event ν η}
    (h : p.step w e = some w') : Fires p w e w' := by
  cases e with
  | act v =>
    obtain ⟨e, he, rfl⟩ := Option.map_eq_some_iff.mp h
    exact .act he
  | serve i ok =>
    simp only [step] at h
    split at h
    · obtain rfl := Option.some.inj h
      exact .serve ‹_›
    · cases h
  | handle i =>
    simp only [step] at h
    split at h
    · obtain ⟨e, he, rfl⟩ := Option.map_eq_some_iff.mp h
      exact .handle ‹_› he
    · cases h
  | deliver j ok =>
    simp only [step] at h
    split at h
    · obtain ⟨e, he, rfl⟩ := Option.map_eq_some_iff.mp h
      exact .deliver ‹_› he
    · cases h
  | env h' =>
    obtain rfl := Option.some.inj h
    exact .env

theorem fires_step {p : Program S C ν η ρ α ℓ δ} {w w' : World S C ρ α ℓ} {e : Event ν η}
    (h : Fires p w e w') : p.step w e = some w' := by
  cases h with
  | act he => simp [step, he]
  | serve hi => simp [step, hi]
  | handle hi he => simp [step, hi, he]
  | deliver hj he => simp only [step, hj, he, Option.map_some]
  | env => rfl

/-- An answer in flight is one that the backend gives to its request. -/
def Answered (p : Program S C ν η ρ α ℓ δ) (q : Call ρ α) : Prop :=
  ∀ a, q.answer = some a → ∃ s ok, (p.serve s q.request ok).2 = a

theorem answered_step {p : Program S C ν η ρ α ℓ δ} {w w' : World S C ρ α ℓ} {e : Event ν η}
    (h : ∀ q ∈ w.inflight, p.Answered q) (hstep : p.step w e = some w') :
    ∀ q ∈ w'.inflight, p.Answered q := by
  have hissued : ∀ r, p.Answered ⟨r, none⟩ := by
    intro r a ha
    cases ha
  cases step_fires hstep with
  | act he => exact World.calls_perform h fun r _ => hissued r
  | serve hi =>
    refine World.calls_served h fun a ha => ?_
    exact ⟨_, _, Option.some.inj ha⟩
  | handle hi he => exact World.calls_perform (World.calls_landed h) fun r _ => hissued r
  | deliver hj he => exact World.calls_perform h fun r _ => hissued r
  | env => exact h

theorem served_of_run {p : Program S C ν η ρ α ℓ δ} {w w' : World S C ρ α ℓ}
    {es : List (Event ν η)} (idle : w.inflight = []) (h : run p.step w es = some w') {i : Nat}
    {r : ρ} {a : α} (hi : w'.inflight[i]? = some ⟨r, some a⟩) :
    ∃ s ok, a = (p.serve s r ok).2 := by
  have hstart : ∀ q ∈ w.inflight, p.Answered q := by
    rw [idle]
    exact fun q hq => absurd hq List.not_mem_nil
  have hall : ∀ q ∈ w'.inflight, p.Answered q := run_invariant
    (P := fun w => ∀ q ∈ w.inflight, p.Answered q)
    (fun _ _ _ hw hstep => answered_step hw hstep) h hstart
  obtain ⟨s, ok, hanswer⟩ := hall _ (List.mem_of_getElem? hi) a rfl
  exact ⟨s, ok, hanswer.symm⟩

/-- The event can happen, and the code that it runs does not come to its end. -/
def Traps (p : Program S C ν η ρ α ℓ δ) (w : World S C ρ α ℓ) (e : Event ν η) : Prop :=
  w.Enabled e ∧ p.step w e = none

theorem traps_act {p : Program S C ν η ρ α ℓ δ} {w : World S C ρ α ℓ} {v : ν} :
    p.Traps w (.act v) ↔ p.act w.server w.client v = none := by
  unfold Traps World.Enabled step
  rw [true_and, Option.map_eq_none_iff]

theorem traps_handle {p : Program S C ν η ρ α ℓ δ} {w : World S C ρ α ℓ} {i : Nat} :
    p.Traps w (.handle i) ↔ ∃ r a, w.inflight[i]? = some ⟨r, some a⟩ ∧
      p.handle w.server w.client r a = none := by
  constructor
  · rintro ⟨⟨r, a, hi⟩, htrap⟩
    simp only [step, hi, Option.map_eq_none_iff] at htrap
    exact ⟨r, a, hi, htrap⟩
  · rintro ⟨r, a, hi, htrap⟩
    exact ⟨⟨r, a, hi⟩, by simp only [step, hi, htrap, Option.map_none]⟩

theorem not_traps_serve {p : Program S C ν η ρ α ℓ δ} {w : World S C ρ α ℓ} {i : Nat} {ok : Bool} :
    ¬ p.Traps w (.serve i ok) := by
  rintro ⟨⟨r, hi⟩, htrap⟩
  simp only [step, hi] at htrap
  cases htrap

theorem not_traps_env {p : Program S C ν η ρ α ℓ δ} {w : World S C ρ α ℓ} {h : η} :
    ¬ p.Traps w (.env h) := by
  rintro ⟨_, htrap⟩
  cases htrap

/-- Without listeners and with calls that come to their end, what traps in a run is an answer
of the backend that is handled. -/
theorem handled_of_traps [IsEmpty ℓ] {p : Program S C ν η ρ α ℓ δ} {w w' : World S C ρ α ℓ}
    {es : List (Event ν η)} (idle : w.inflight = []) (h : run p.step w es = some w')
    {e : Event ν η} (acts : ∀ v, e = .act v → p.act w'.server w'.client v ≠ none)
    (htraps : p.Traps w' e) : ∃ i r s ok, e = .handle i ∧
      w'.inflight[i]? = some ⟨r, some (p.serve s r ok).2⟩ ∧
      p.handle w'.server w'.client r (p.serve s r ok).2 = none := by
  cases e with
  | act v => exact absurd (traps_act.mp htraps) (acts v rfl)
  | serve i ok => exact absurd htraps not_traps_serve
  | env e => exact absurd htraps not_traps_env
  | deliver j ok =>
    obtain ⟨⟨x, _⟩, _⟩ := htraps
    exact isEmptyElim x.listener
  | handle i =>
    obtain ⟨r, a, hi, hnone⟩ := traps_handle.mp htraps
    obtain ⟨s, ok, rfl⟩ := served_of_run idle h hi
    exact ⟨i, r, s, ok, rfl, hi, hnone⟩

end Program

end Steps

section Positions

variable {β : Type}

theorem perm_landed {l : List β} {i : Nat} {x : β} (h : l[i]? = some x) :
    l.Perm (x :: l.eraseIdx i) := by
  obtain ⟨hi, rfl⟩ := List.getElem?_eq_some_iff.mp h
  exact (List.getElem_cons_eraseIdx_perm hi).symm

theorem perm_served {l : List β} {i : Nat} {x : β} (y : β) (h : l[i]? = some x) :
    (l.set i y).Perm (y :: l.eraseIdx i) :=
  List.set_perm_cons_eraseIdx (List.getElem?_eq_some_iff.mp h).1 y

theorem mem_landed_of_ne {l : List β} {i : Nat} {x y : β} (h : l[i]? = some x) (hy : y ∈ l)
    (hne : y ≠ x) : y ∈ l.eraseIdx i :=
  (List.mem_cons.mp ((perm_landed h).mem_iff.mp hy)).resolve_left hne

theorem mem_served_of_ne {l : List β} {i : Nat} {x y : β} (z : β) (h : l[i]? = some x)
    (hy : y ∈ l) (hne : y ≠ x) : y ∈ l.set i z :=
  (perm_served z h).mem_iff.mpr (List.mem_cons_of_mem z (mem_landed_of_ne h hy hne))

theorem countP_landed (f : β → Bool) {l : List β} {i : Nat} {x : β} (h : l[i]? = some x) :
    l.countP f = (l.eraseIdx i).countP f + if f x then 1 else 0 := by
  rw [(perm_landed h).countP_eq f, List.countP_cons]

theorem countP_served (f : β → Bool) {l : List β} {i : Nat} {x : β} (y : β)
    (h : l[i]? = some x) :
    (l.set i y).countP f + (if f x then 1 else 0) = l.countP f + if f y then 1 else 0 := by
  have hbefore := countP_landed f h
  have hafter : (l.set i y).countP f = (l.eraseIdx i).countP f + if f y then 1 else 0 := by
    rw [(perm_served y h).countP_eq f, List.countP_cons]
  omega

theorem rest_of_countP_le_one {f : β → Bool} {l : List β} (h : l.countP f ≤ 1) {i : Nat} {x : β}
    (hi : l[i]? = some x) (hx : f x = true) : ∀ y ∈ l.eraseIdx i, f y = false := by
  have hcount := countP_landed f hi
  rw [hx] at hcount
  simp only [if_true] at hcount
  have hzero : (l.eraseIdx i).countP f = 0 := by omega
  intro y hy
  exact Bool.eq_false_iff.mpr (List.countP_eq_zero.mp hzero y hy)

theorem eq_of_countP_le_one {f : β → Bool} {l : List β} (h : l.countP f ≤ 1) {i : Nat} {x y : β}
    (hi : l[i]? = some x) (hx : f x = true) (hmem : y ∈ l) (hy : f y = true) : y = x := by
  rcases List.mem_cons.mp ((perm_landed hi).mem_iff.mp hmem) with heq | hrest
  · exact heq
  · rw [rest_of_countP_le_one h hi hx y hrest] at hy
    cases hy

/-- A test that passes nothing new, and fails once, passes fewer. -/
theorem countP_lt {p q : β → Bool} {l : List β} (hle : ∀ x ∈ l, p x = true → q x = true) {x : β}
    (hx : x ∈ l) (hq : q x = true) (hp : p x = false) : l.countP p < l.countP q := by
  obtain ⟨l₁, l₂, rfl⟩ := List.append_of_mem hx
  rw [List.countP_append, List.countP_append, List.countP_cons, List.countP_cons, hq, hp]
  have h₁ := List.countP_mono_left (p := p) (q := q) (l := l₁)
    fun y hy => hle y (List.mem_append_left _ hy)
  have h₂ := List.countP_mono_left (p := p) (q := q) (l := l₂)
    fun y hy => hle y (List.mem_append_right _ (List.mem_cons_of_mem _ hy))
  simp only [Bool.false_eq_true, if_false, if_true]
  omega

end Positions

end PlateChat.Foundation.EventLoop
