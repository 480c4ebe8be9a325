/- PlateChat/Foundation/Listening
   digest: Listener registrations, and the fields of an object that each hold the last one. -/

import Mathlib.Data.List.Basic
import Mathlib.Logic.Function.Basic

set_option autoImplicit false
set_option relaxedAutoImplicit false

/-!
A registration is numbered by its place in the order of registrations. A field holds at
most one; a new registration through the field takes the place of the one it held, which
goes on listening and which nothing can remove any more. An error ends a listener by itself.
-/

namespace PlateChat.Foundation.Listening

variable {H Q : Type}

structure Listener (Q : Type) where
  query : Q
  removed : Bool := false
  ended : Bool := false

namespace Listener

/-- The listener may still be handed snapshots. -/
def Active (l : Listener Q) : Prop := l.removed = false ∧ l.ended = false

instance (l : Listener Q) : Decidable l.Active := inferInstanceAs (Decidable (_ ∧ _))

def remove (l : Listener Q) : Listener Q := { l with removed := true }

def fail (l : Listener Q) : Listener Q := { l with ended := true }

theorem not_active_remove (l : Listener Q) : ¬ l.remove.Active := fun h => nomatch h.1

theorem not_active_fail (l : Listener Q) : ¬ l.fail.Active := fun h => nomatch h.2

end Listener

/-- The registrations of an object and what its fields hold: no registration is in two
fields. -/
structure Handles (H Q : Type) where
  listeners : List (Listener Q)
  held : H → Option Nat
  known : ∀ h n, held h = some n → n < listeners.length
  apart : ∀ h h' n, held h = some n → held h' = some n → h = h'

namespace Handles

def none : Handles H Q where
  listeners := []
  held _ := .none
  known _ _ h := nomatch h
  apart _ _ _ h := nomatch h

/-- The registration `n` is there, and its listener passes the test. -/
def Holds (s : Handles H Q) (R : Listener Q → Prop) (n : Nat) : Prop :=
  ∃ l ∈ s.listeners[n]?, R l

/-- The registration `n` is still listening. -/
def Active (s : Handles H Q) (n : Nat) : Prop := s.Holds Listener.Active n

instance (s : Handles H Q) (n : Nat) : Decidable (s.Active n) :=
  inferInstanceAs (Decidable (∃ l ∈ s.listeners[n]?, l.Active))

section Holds

variable {s : Handles H Q} {R : Listener Q → Prop} {n : Nat}

theorem lt_of_holds (h : s.Holds R n) : n < s.listeners.length := by
  obtain ⟨l, hl, _⟩ := h
  exact (List.getElem?_eq_some_iff.mp hl).1

theorem exists_holds_iff : (∃ n, s.Holds R n) ↔ ∃ l ∈ s.listeners, R l := by
  constructor
  · rintro ⟨n, l, hl, hR⟩
    exact ⟨l, List.mem_of_getElem? hl, hR⟩
  · rintro ⟨l, hl, hR⟩
    obtain ⟨n, hn⟩ := List.mem_iff_getElem?.mp hl
    exact ⟨n, l, hn, hR⟩

theorem lt_of_active (h : s.Active n) : n < s.listeners.length := lt_of_holds h

end Holds

/-- The listener `n` is marked; the fields hold what they held. -/
def mark (s : Handles H Q) (n : Nat) (f : Listener Q → Listener Q) : Handles H Q where
  listeners := s.listeners.modify n f
  held := s.held
  known h k hk := by
    rw [List.length_modify]
    exact s.known h k hk
  apart := s.apart

def fail (s : Handles H Q) (n : Nat) : Handles H Q := s.mark n Listener.fail

/-- `remove()` on what the field holds, if it holds anything. -/
def remove (s : Handles H Q) (h : H) : Handles H Q :=
  match s.held h with
  | some n => s.mark n Listener.remove
  | .none => s

/-- The object is replaced by another, whose fields are empty. -/
def forget (s : Handles H Q) : Handles H Q where
  listeners := s.listeners
  held _ := .none
  known _ _ h := nomatch h
  apart _ _ _ h := nomatch h

@[simp] theorem held_remove (s : Handles H Q) (h : H) : (s.remove h).held = s.held := by
  unfold remove
  split <;> rfl

theorem length_mark (s : Handles H Q) (n : Nat) (f : Listener Q → Listener Q) :
    (s.mark n f).listeners.length = s.listeners.length :=
  List.length_modify f s.listeners n

@[simp] theorem length_fail (s : Handles H Q) (n : Nat) :
    (s.fail n).listeners.length = s.listeners.length := s.length_mark n _

@[simp] theorem length_remove (s : Handles H Q) (h : H) :
    (s.remove h).listeners.length = s.listeners.length := by
  unfold remove
  split
  · exact s.length_mark _ _
  · rfl

section Mark

variable {s : Handles H Q} {R : Listener Q → Prop} {m n : Nat} {f : Listener Q → Listener Q}

private theorem holds_mark_ne (hmn : m ≠ n) : (s.mark m f).Holds R n ↔ s.Holds R n := by
  show (∃ l ∈ (s.listeners.modify m f)[n]?, R l) ↔ _
  rw [List.getElem?_modify]
  simp only [hmn, if_false]
  have hsame : (fun l : Listener Q => l) <$> s.listeners[n]? = s.listeners[n]? := id_map _
  rw [hsame]
  exact Iff.rfl

private theorem holds_mark_self : (s.mark n f).Holds R n ↔ s.Holds (fun l => R (f l)) n := by
  show (∃ l ∈ (s.listeners.modify n f)[n]?, R l) ↔ _
  rw [List.getElem?_modify]
  simp only [if_true]
  constructor
  · rintro ⟨l, hl, hR⟩
    obtain ⟨l', hl', rfl⟩ := Option.map_eq_some_iff.mp hl
    exact ⟨l', hl', hR⟩
  · rintro ⟨l, hl, hR⟩
    exact ⟨f l, Option.map_eq_some_iff.mpr ⟨l, hl, rfl⟩, hR⟩

/-- A mark after which a listener fails the test takes exactly the marked one away. -/
theorem holds_mark_of_stops (stops : ∀ l, ¬ R (f l)) :
    (s.mark m f).Holds R n ↔ s.Holds R n ∧ m ≠ n := by
  by_cases hmn : m = n
  · subst hmn
    refine iff_of_false (fun h => ?_) (fun h => h.2 rfl)
    obtain ⟨l, _, hR⟩ := holds_mark_self.mp h
    exact stops l hR
  · rw [holds_mark_ne hmn]
    exact (and_iff_left hmn).symm

theorem holds_mark_of_keeps (keeps : ∀ l, R (f l) ↔ R l) :
    (s.mark m f).Holds R n ↔ s.Holds R n := by
  by_cases hmn : m = n
  · subst hmn
    rw [holds_mark_self]
    simp only [keeps]
  · exact holds_mark_ne hmn

theorem holds_remove {h : H} (stops : ∀ l : Listener Q, ¬ R l.remove) :
    (s.remove h).Holds R n ↔ s.Holds R n ∧ s.held h ≠ some n := by
  unfold remove
  split
  · rename_i m hm
    rw [holds_mark_of_stops stops, hm, ne_eq, ne_eq, Option.some.injEq]
  · rename_i hm
    rw [hm]
    exact (and_iff_left (fun h => nomatch h)).symm

theorem active_fail : (s.fail m).Active n ↔ s.Active n ∧ m ≠ n :=
  holds_mark_of_stops Listener.not_active_fail

theorem active_remove {h : H} : (s.remove h).Active n ↔ s.Active n ∧ s.held h ≠ some n :=
  holds_remove Listener.not_active_remove

end Mark

section Register

variable [DecidableEq H]

/-- `handler = query.addSnapshotListener { .. }`: what the field held is not removed. -/
def register (s : Handles H Q) (h : H) (q : Q) : Handles H Q where
  listeners := s.listeners ++ [{ query := q }]
  held := Function.update s.held h (some s.listeners.length)
  known h' n hn := by
    rw [List.length_append, List.length_singleton]
    rw [Function.update_apply] at hn
    split at hn
    · obtain rfl := Option.some.inj hn
      omega
    · have hlt := s.known h' n hn
      omega
  apart h₁ h₂ n hn₁ hn₂ := by
    rw [Function.update_apply] at hn₁ hn₂
    split at hn₁ <;> split at hn₂
    · simp only [*]
    · obtain rfl := Option.some.inj hn₁
      exact absurd (s.known h₂ _ hn₂) (Nat.lt_irrefl _)
    · obtain rfl := Option.some.inj hn₂
      exact absurd (s.known h₁ _ hn₁) (Nat.lt_irrefl _)
    · exact s.apart h₁ h₂ n hn₁ hn₂

@[simp] theorem length_register (s : Handles H Q) (h : H) (q : Q) :
    (s.register h q).listeners.length = s.listeners.length + 1 :=
  List.length_append

theorem held_register (s : Handles H Q) (h : H) (q : Q) :
    (s.register h q).held h = some s.listeners.length :=
  Function.update_self h _ s.held

theorem held_register_ne (s : Handles H Q) {h h' : H} (q : Q) (hne : h' ≠ h) :
    (s.register h q).held h' = s.held h' :=
  Function.update_of_ne hne _ s.held

theorem getElem?_register_of_lt {s : Handles H Q} {h : H} {q : Q} {n : Nat}
    (hn : n < s.listeners.length) : (s.register h q).listeners[n]? = s.listeners[n]? :=
  List.getElem?_append_left hn

theorem getElem?_register_self (s : Handles H Q) (h : H) (q : Q) :
    (s.register h q).listeners[s.listeners.length]? = some { query := q } :=
  List.getElem?_concat_length

theorem holds_register {s : Handles H Q} {R : Listener Q → Prop} {h : H} {q : Q} {n : Nat} :
    (s.register h q).Holds R n ↔ n = s.listeners.length ∧ R { query := q } ∨ s.Holds R n := by
  rcases Nat.lt_trichotomy n s.listeners.length with hlt | rfl | hgt
  · have hn : n ≠ s.listeners.length := Nat.ne_of_lt hlt
    simp only [Holds, getElem?_register_of_lt hlt, hn, false_and, false_or]
  · have hnone : ¬ s.Holds R s.listeners.length := fun h => Nat.lt_irrefl _ (lt_of_holds h)
    simp only [Holds, getElem?_register_self, Option.mem_some_iff, exists_eq_left', true_and]
    exact (or_iff_left hnone).symm
  · refine iff_of_false (fun hholds => ?_) (fun hor => ?_)
    · have hlt := lt_of_holds hholds
      rw [length_register] at hlt
      omega
    · rcases hor with ⟨heq, _⟩ | hholds
      · omega
      · have hlt := lt_of_holds hholds
        omega

theorem active_register {s : Handles H Q} {h : H} {q : Q} {n : Nat} :
    (s.register h q).Active n ↔ n = s.listeners.length ∨ s.Active n := by
  have hnew : ({ query := q } : Listener Q).Active := ⟨rfl, rfl⟩
  rw [Active, holds_register, and_iff_left hnew]
  exact Iff.rfl

end Register

def queryOf (s : Handles H Q) (n : Nat) : Option Q := s.listeners[n]?.map Listener.query

section QueryOf

variable {s : Handles H Q} {n : Nat}

theorem queryOf_eq_some {q : Q} :
    s.queryOf n = some q ↔ ∃ l, s.listeners[n]? = some l ∧ l.query = q :=
  Option.map_eq_some_iff

theorem lt_of_queryOf {q : Q} (h : s.queryOf n = some q) : n < s.listeners.length := by
  obtain ⟨l, hl, _⟩ := queryOf_eq_some.mp h
  exact (List.getElem?_eq_some_iff.mp hl).1

theorem queryOf_of_active (h : s.Active n) : ∃ q, s.queryOf n = some q := by
  obtain ⟨l, hl, _⟩ := h
  exact ⟨l.query, queryOf_eq_some.mpr ⟨l, hl, rfl⟩⟩

theorem queryOf_mark {m : Nat} {f : Listener Q → Listener Q} (same : ∀ l, (f l).query = l.query) :
    (s.mark m f).queryOf n = s.queryOf n := by
  show (s.listeners.modify m f)[n]?.map Listener.query = _
  rw [List.getElem?_modify, Option.map_eq_map, Option.map_map, queryOf]
  congr 1
  funext l
  by_cases hm : m = n
  · simp [hm, same]
  · simp [hm]

@[simp] theorem queryOf_fail {m : Nat} : (s.fail m).queryOf n = s.queryOf n :=
  queryOf_mark fun _ => rfl

@[simp] theorem queryOf_remove {h : H} : (s.remove h).queryOf n = s.queryOf n := by
  unfold remove
  split
  · exact queryOf_mark fun _ => rfl
  · rfl

theorem queryOf_register_of_lt [DecidableEq H] {h : H} {q : Q} (hn : n < s.listeners.length) :
    (s.register h q).queryOf n = s.queryOf n := by
  rw [queryOf, getElem?_register_of_lt hn, queryOf]

theorem queryOf_register_self [DecidableEq H] {h : H} {q : Q} :
    (s.register h q).queryOf s.listeners.length = some q := by
  rw [queryOf, getElem?_register_self, Option.map_some]

end QueryOf

end Handles

/-- One change of the registrations. -/
inductive Move (H : Type)
  | register (h : H)
  | remove (h : H)
  | fail (n : Nat)
  deriving DecidableEq

section Takes

open Handles

variable [DecidableEq H]

/-- The moves lead from one set of registrations to the other. -/
inductive Takes : Handles H Q → List (Move H) → Handles H Q → Prop
  | done (s : Handles H Q) : Takes s [] s
  | register {s t : Handles H Q} {moves : List (Move H)} (h : H) (q : Q) :
      Takes (s.register h q) moves t → Takes s (.register h :: moves) t
  | remove {s t : Handles H Q} {moves : List (Move H)} (h : H) :
      Takes (s.remove h) moves t → Takes s (.remove h :: moves) t
  | fail {s t : Handles H Q} {moves : List (Move H)} (n : Nat) :
      Takes (s.fail n) moves t → Takes s (.fail n :: moves) t

theorem Takes.append {s t u : Handles H Q} {first last : List (Move H)} (h : Takes s first t)
    (h' : Takes t last u) : Takes s (first ++ last) u := by
  induction h with
  | done s => exact h'
  | register h q _ ih => exact .register h q (ih h')
  | remove h _ ih => exact .remove h (ih h')
  | fail n _ ih => exact .fail n (ih h')

/-- The moves end the registration `n`, which the field `h` holds: an error ends it, or it is
removed through the field before another registration takes the field over. -/
def Ends (n : Nat) (h : H) : List (Move H) → Prop
  | [] => False
  | .register h' :: rest => if h' = h then .fail n ∈ rest else Ends n h rest
  | .remove h' :: rest => h' = h ∨ Ends n h rest
  | .fail m :: rest => m = n ∨ Ends n h rest

/-- Every registration among the moves is ended by those that follow; `n` were made before. -/
def EachEnds : Nat → List (Move H) → Prop
  | _, [] => True
  | n, .register h :: rest => Ends n h rest ∧ EachEnds (n + 1) rest
  | n, .remove _ :: rest => EachEnds n rest
  | n, .fail _ :: rest => EachEnds n rest

instance decidableEnds (n : Nat) (h : H) : ∀ moves : List (Move H), Decidable (Ends n h moves)
  | [] => .isFalse id
  | .register h' :: rest =>
    have := decidableEnds n h rest
    inferInstanceAs (Decidable (if h' = h then _ else _))
  | .remove h' :: rest =>
    have := decidableEnds n h rest
    inferInstanceAs (Decidable (h' = h ∨ _))
  | .fail m :: rest =>
    have := decidableEnds n h rest
    inferInstanceAs (Decidable (m = n ∨ _))

instance decidableEachEnds : ∀ (n : Nat) (moves : List (Move H)), Decidable (EachEnds n moves)
  | _, [] => .isTrue trivial
  | n, .register _ :: rest =>
    have := decidableEachEnds (n + 1) rest
    inferInstanceAs (Decidable (_ ∧ _))
  | n, .remove _ :: rest => decidableEachEnds n rest
  | n, .fail _ :: rest => decidableEachEnds n rest

theorem inactive_of_takes {s t : Handles H Q} {moves : List (Move H)} (takes : Takes s moves t)
    {n : Nat} (hn : n < s.listeners.length) (inactive : ¬ s.Active n) : ¬ t.Active n := by
  induction takes with
  | done s => exact inactive
  | register h q _ ih =>
    apply ih
    · rw [length_register]
      omega
    · intro hactive
      rcases active_register.mp hactive with heq | hactive
      · omega
      · exact inactive hactive
  | remove h _ ih =>
    apply ih
    · rw [length_remove]
      exact hn
    · exact fun hactive => inactive (active_remove.mp hactive).1
  | fail m _ ih =>
    apply ih
    · rw [length_fail]
      exact hn
    · exact fun hactive => inactive (active_fail.mp hactive).1

theorem queryOf_of_takes {s t : Handles H Q} {moves : List (Move H)} (takes : Takes s moves t)
    {n : Nat} (hn : n < s.listeners.length) : t.queryOf n = s.queryOf n := by
  induction takes with
  | done s => rfl
  | register h q _ ih =>
    rw [ih (by rw [length_register]; omega), queryOf_register_of_lt hn]
  | remove h _ ih => rw [ih (by rwa [length_remove]), queryOf_remove]
  | fail m _ ih => rw [ih (by rwa [length_fail]), queryOf_fail]

private theorem inactive_of_fail {s t : Handles H Q} {moves : List (Move H)} {n : Nat}
    (takes : Takes (s.fail n) moves t) (active : s.Active n) : ¬ t.Active n := by
  have hinactive : ¬ (s.fail n).Active n := fun h => (active_fail.mp h).2 rfl
  refine inactive_of_takes takes ?_ hinactive
  rw [length_fail]
  exact lt_of_active active

/-- A listener that no field holds is ended by an error only. -/
theorem active_of_unheld {s t : Handles H Q} {moves : List (Move H)} (takes : Takes s moves t)
    {n : Nat} (active : s.Active n) (unheld : ∀ h, s.held h ≠ some n) :
    t.Active n ↔ .fail n ∉ moves := by
  induction takes with
  | done s => exact iff_of_true active List.not_mem_nil
  | register h q _ ih =>
    rw [List.mem_cons, not_or, and_iff_right (fun h => nomatch h)]
    refine ih (active_register.mpr (.inr active)) fun k => ?_
    by_cases hk : k = h
    · subst hk
      rw [held_register]
      intro hlen
      have hlt := lt_of_active active
      rw [Option.some.inj hlen] at hlt
      exact Nat.lt_irrefl n hlt
    · rw [held_register_ne _ q hk]
      exact unheld k
  | remove h _ ih =>
    rw [List.mem_cons, not_or, and_iff_right (fun h => nomatch h)]
    apply ih
    · exact active_remove.mpr ⟨active, unheld h⟩
    · rw [held_remove]
      exact unheld
  | fail m rest ih =>
    rw [List.mem_cons, not_or, Move.fail.injEq]
    by_cases hm : n = m
    · subst hm
      exact iff_of_false (inactive_of_fail rest active) (fun h => h.1 rfl)
    · rw [and_iff_right hm]
      exact ih (active_fail.mpr ⟨active, Ne.symm hm⟩) unheld

theorem active_of_held {s t : Handles H Q} {moves : List (Move H)} (takes : Takes s moves t)
    {n : Nat} {h : H} (active : s.Active n) (held : s.held h = some n) :
    t.Active n ↔ ¬ Ends n h moves := by
  induction takes with
  | done s => exact iff_of_true active id
  | register h' q rest ih =>
    have hactive := active_register (q := q) (h := h') |>.mpr (.inr active)
    rw [Ends]
    split
    · rename_i he
      refine active_of_unheld rest hactive fun k hk => ?_
      by_cases hkh : k = h'
      · subst hkh
        rw [held_register] at hk
        have hlt := lt_of_active active
        rw [Option.some.inj hk] at hlt
        exact Nat.lt_irrefl n hlt
      · rw [held_register_ne _ q hkh] at hk
        exact hkh ((Handles.apart _ k h n hk held).trans he.symm)
    · rename_i he
      exact ih hactive ((held_register_ne _ q (Ne.symm he)).trans held)
  | remove h' rest ih =>
    rw [Ends, not_or]
    by_cases he : h' = h
    · subst he
      refine iff_of_false (inactive_of_takes rest ?_ ?_) (fun h => h.1 rfl)
      · rw [length_remove]
        exact lt_of_active active
      · exact fun hactive => (active_remove.mp hactive).2 held
    · rw [and_iff_right he]
      apply ih
      · exact active_remove.mpr ⟨active, fun hh => he (Handles.apart _ h' h n hh held)⟩
      · rw [held_remove]
        exact held
  | fail m rest ih =>
    rw [Ends, not_or]
    by_cases hm : m = n
    · subst hm
      exact iff_of_false (inactive_of_fail rest active) (fun h => h.1 rfl)
    · rw [and_iff_right hm]
      exact ih (active_fail.mpr ⟨active, hm⟩) held

private theorem quiet_of_takes {s t : Handles H Q} {moves : List (Move H)}
    (takes : Takes s moves t) : (∀ n, ¬ t.Active n) ↔
      (∀ n < s.listeners.length, ¬ t.Active n) ∧ EachEnds s.listeners.length moves := by
  induction takes with
  | done s => exact ⟨fun h => ⟨fun n _ => h n, trivial⟩, fun h n hn => h.1 n (lt_of_active hn) hn⟩
  | @register s t moves h q rest ih =>
    have hends : ¬ t.Active s.listeners.length ↔ Ends s.listeners.length h moves := by
      rw [active_of_held rest (active_register.mpr (.inl rfl)) (held_register s h q), not_not]
    rw [ih, length_register, EachEnds, ← hends, ← and_assoc]
    refine and_congr_left' ⟨fun hall => ⟨fun n hn => hall n (by omega), hall _ (by omega)⟩, ?_⟩
    rintro ⟨hbelow, hlast⟩ n hn
    rcases Nat.lt_succ_iff_lt_or_eq.mp hn with hlt | rfl
    · exact hbelow n hlt
    · exact hlast
  | remove h _ ih =>
    rw [length_remove] at ih
    exact ih
  | fail n _ ih =>
    rw [length_fail] at ih
    exact ih

/-- From an object nobody listens for, the moves leave nobody listening exactly if they end
every registration they make. -/
theorem quiet_iff {s t : Handles H Q} {moves : List (Move H)} (takes : Takes s moves t)
    (quiet : ∀ n, ¬ s.Active n) : (∀ n, ¬ t.Active n) ↔ EachEnds s.listeners.length moves :=
  (quiet_of_takes takes).trans
    (and_iff_right fun n hn => inactive_of_takes takes hn (quiet n))

end Takes

end PlateChat.Foundation.Listening
