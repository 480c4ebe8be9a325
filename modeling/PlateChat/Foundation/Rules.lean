/- PlateChat/Foundation/Rules
   digest: Invariants checked one request and one listener at a time, and totals over the flight. -/

import PlateChat.Foundation.EventLoop

set_option autoImplicit false
set_option relaxedAutoImplicit false

namespace PlateChat.Foundation.Rules

open PlateChat.Foundation.Run PlateChat.Foundation.EventLoop

variable {S C ν η ρ α ℓ δ : Type}

/-! An invariant in parts: one predicate for the server, one for the client, one for
each request in flight and one for each listener. -/

structure Parts (S C ρ α ℓ : Type) where
  server : S → Prop
  client : S → C → Prop
  call : S → Call ρ α → Prop
  watch : S → ℓ → Prop

namespace Parts

/-- Every part holds where it belongs. -/
structure Holds (P : Parts S C ρ α ℓ) (w : World S C ρ α ℓ) : Prop where
  server : P.server w.server
  client : P.client w.server w.client
  calls : ∀ c ∈ w.inflight, P.call w.server c
  watches : ∀ x ∈ w.watches, P.watch w.server x.listener

/-- What an action or a handler leaves behind fits the parts. -/
structure Admits (P : Parts S C ρ α ℓ) (s : S) (e : Effect C ρ ℓ) : Prop where
  client : P.client s e.client
  requests : ∀ r ∈ e.requests, P.call s ⟨r, none⟩
  listeners : ∀ l ∈ e.listeners, P.watch s l

/-- A server change that no other part notices. -/
structure Stable (P : Parts S C ρ α ℓ) (s t : S) : Prop where
  client : ∀ c, P.client s c → P.client t c
  call : ∀ q, P.call s q → P.call t q
  watch : ∀ l, P.watch s l → P.watch t l

theorem Stable.refl (P : Parts S C ρ α ℓ) (s : S) : P.Stable s s :=
  ⟨fun _ h => h, fun _ h => h, fun _ h => h⟩

theorem Admits.quiet {P : Parts S C ρ α ℓ} {s : S} {e : Effect C ρ ℓ}
    (client : P.client s e.client) (requests : e.requests = []) (listeners : e.listeners = []) :
    P.Admits s e where
  client := client
  requests _ hr := absurd (requests ▸ hr) List.not_mem_nil
  listeners _ hl := absurd (listeners ▸ hl) List.not_mem_nil

theorem Admits.one {P : Parts S C ρ α ℓ} {s : S} {c : C} {r : ρ} (client : P.client s c)
    (call : P.call s ⟨r, none⟩) : P.Admits s { client := c, requests := [r] } where
  client := client
  requests q hq := by
    obtain rfl := List.mem_singleton.mp hq
    exact call
  listeners _ hl := absurd hl List.not_mem_nil

theorem Admits.listen {P : Parts S C ρ α ℓ} {s : S} {c : C} {l : ℓ} (client : P.client s c)
    (watch : P.watch s l) : P.Admits s { client := c, listeners := [l] } where
  client := client
  requests _ hr := absurd hr List.not_mem_nil
  listeners k hk := by
    obtain rfl := List.mem_singleton.mp hk
    exact watch

variable [DecidableEq ℓ] [DecidableEq δ]

/-- The local obligations, one for each kind of event. -/
structure Kept (P : Parts S C ρ α ℓ) (p : Program S C ν η ρ α ℓ δ)
    (guard : World S C ρ α ℓ → Event ν η → Prop) : Prop where
  act : ∀ {w v e}, P.Holds w → guard w (.act v) → p.act w.server w.client v = some e →
    P.Admits w.server e
  serve : ∀ {w i ok r}, P.Holds w → guard w (.serve i ok) → w.inflight[i]? = some ⟨r, none⟩ →
    P.server (p.serve w.server r ok).1 ∧ P.Stable w.server (p.serve w.server r ok).1 ∧
      P.call (p.serve w.server r ok).1 ⟨r, some (p.serve w.server r ok).2⟩
  handle : ∀ {w i r a e}, P.Holds w → guard w (.handle i) → w.inflight[i]? = some ⟨r, some a⟩ →
    p.handle w.server w.client r a = some e → P.Admits w.server e
  deliver : ∀ {w j ok x e}, P.Holds w → guard w (.deliver j ok) → w.watches[j]? = some x →
    p.notify w.server w.client x.listener
      (if ok then some (p.snapshot w.server x.listener) else none) = some e → P.Admits w.server e
  env : ∀ {w h}, P.Holds w → guard w (.env h) →
    P.server (p.env w.server h) ∧ P.Stable w.server (p.env w.server h)

variable {P : Parts S C ρ α ℓ} {p : Program S C ν η ρ α ℓ δ}
  {guard : World S C ρ α ℓ → Event ν η → Prop} {w w' : World S C ρ α ℓ}

private theorem holds_perform (e : Effect C ρ ℓ) (hserver : P.server w.server)
    (hcalls : ∀ c ∈ w.inflight, P.call w.server c)
    (hwatches : ∀ x ∈ w.watches, P.watch w.server x.listener) (admits : P.Admits w.server e) :
    P.Holds (w.perform e) where
  server := hserver
  client := admits.client
  calls := World.calls_perform hcalls admits.requests
  watches := by
    intro x hx
    rcases List.mem_append.mp hx with hx | hx
    · exact hwatches x (List.mem_of_mem_filter hx)
    · obtain ⟨l, hl, rfl⟩ := List.mem_map.mp hx
      exact admits.listeners l hl

omit [DecidableEq ℓ] in
private theorem holds_install {s : S} (h : P.Holds w) (hs : P.server s)
    (stable : P.Stable w.server s) : P.Holds (w.install p s) where
  server := hs
  client := stable.client _ h.client
  calls c hc := stable.call c (h.calls c hc)
  watches := by
    intro x hx
    obtain ⟨y, hy, rfl⟩ := List.mem_map.mp hx
    exact stable.watch _ (h.watches y hy)

theorem Kept.step {ev : Event ν η} (kept : P.Kept p guard) (h : P.Holds w) (hg : guard w ev)
    (hstep : p.step w ev = some w') : P.Holds w' := by
  cases Program.step_fires hstep with
  | act he => exact holds_perform _ h.server h.calls h.watches (kept.act h hg he)
  | @serve i ok r hi =>
    obtain ⟨hserver, stable, hcall⟩ := kept.serve h hg hi
    have installed := holds_install (p := p) h hserver stable
    refine ⟨installed.server, installed.client, ?_, installed.watches⟩
    intro c hc
    rcases List.mem_or_eq_of_mem_set hc with hc | rfl
    · exact installed.calls c hc
    · exact hcall
  | handle hi he =>
    have admits := kept.handle h hg hi he
    exact holds_perform (w := w.landed _) _ h.server (World.calls_landed h.calls) h.watches admits
  | deliver hj he =>
    have admits := kept.deliver h hg hj he
    refine holds_perform (w := w.delivered _ _) _ h.server h.calls ?_ admits
    intro x hx
    rcases List.mem_or_eq_of_mem_set hx with hx | rfl
    · exact h.watches x hx
    · have hold := h.watches _ (List.mem_of_getElem? hj)
      exact hold
  | env =>
    obtain ⟨hserver, stable⟩ := kept.env h hg
    exact holds_install h hserver stable

/-- Parts that every event keeps hold at the end of every admitted run. -/
theorem Kept.run (kept : P.Kept p guard) {es : List (Event ν η)} (along : Along p.step guard w es)
    (hr : Run.run p.step w es = some w') (h : P.Holds w) : P.Holds w' :=
  run_keeps (fun _ _ _ h hg hstep => kept.step h hg hstep) along hr h

end Parts

/-- A weight summed over the requests in flight. -/
def total (f : Call ρ α → Nat) : List (Call ρ α) → Nat
  | [] => 0
  | c :: flight => f c + total f flight

section Total

variable (f : Call ρ α → Nat) {flight : List (Call ρ α)}

theorem total_perm {flight' : List (Call ρ α)} (h : flight.Perm flight') :
    total f flight = total f flight' := by
  induction h with
  | nil => rfl
  | cons c _ ih =>
    unfold total
    rw [ih]
  | swap c d rest =>
    unfold total total
    omega
  | trans _ _ ih ih' => exact ih.trans ih'

theorem total_landed {i : Nat} {c : Call ρ α} (h : flight[i]? = some c) :
    total f flight = f c + total f (flight.eraseIdx i) :=
  total_perm f (perm_landed h)

theorem total_served {i : Nat} {c : Call ρ α} (d : Call ρ α) (h : flight[i]? = some c) :
    total f (flight.set i d) + f c = total f flight + f d := by
  have hbefore := total_landed f h
  have hafter : total f (flight.set i d) = f d + total f (flight.eraseIdx i) :=
    total_perm f (perm_served d h)
  omega

theorem total_append (more : List (Call ρ α)) :
    total f (flight ++ more) = total f flight + total f more := by
  induction flight with
  | nil => exact (Nat.zero_add _).symm
  | cons c rest ih =>
    have hcons : total f (c :: rest ++ more) = f c + total f (rest ++ more) := rfl
    have htotal : total f (c :: rest) = f c + total f rest := rfl
    omega

theorem total_eq_zero (h : ∀ c ∈ flight, f c = 0) : total f flight = 0 := by
  induction flight with
  | nil => rfl
  | cons c rest ih =>
    have hrest := ih fun d hd => h d (List.mem_cons_of_mem _ hd)
    have hc := h c List.mem_cons_self
    have htotal : total f (c :: rest) = f c + total f rest := rfl
    omega

end Total

end PlateChat.Foundation.Rules
