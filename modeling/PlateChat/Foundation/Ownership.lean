/- PlateChat/Foundation/Ownership
   digest: Marks that clients write into the records of their sessions, one record for each mark. -/

import Mathlib.Logic.Basic

set_option autoImplicit false
set_option relaxedAutoImplicit false

/-!
A client knows some marks, writes them into the record that its session is for, and moves
from session to session. A mark stays in one record as long as no two clients know it and
no client leaves a session whose record holds one of its marks.
-/

namespace PlateChat.Foundation.Ownership

variable {D U M : Type}

/-- `writes d u m` says that a write of `m` into the record of `u` is on its way from `d`. -/
structure Ledger (D U M : Type) where
  session : D → Option U
  knows : D → M → Prop
  writes : D → U → M → Prop
  holds : U → M → Prop
  knows_of_writes : ∀ {d u m}, writes d u m → knows d m

/-- Each mark is in one record at most, and is known at most to the client whose session
that record belongs to. -/
structure Exclusive (L : Ledger D U M) : Prop where
  alone : ∀ {u v m}, L.holds u m → L.holds v m → u = v
  own : ∀ {d u m}, L.knows d m → L.holds u m → L.session d = some u
  written : ∀ {d u m}, L.writes d u m → L.session d = some u
  apart : ∀ {d e m}, L.knows d m → L.knows e m → d = e

/-- Nothing is known, written or held that was not before, up to what is named. -/
structure Within (L L' : Ledger D U M) (known : D → M → Prop) (issued : D → U → M → Prop)
    (held : U → M → Prop) : Prop where
  knows : ∀ {d m}, L'.knows d m → L.knows d m ∨ known d m
  writes : ∀ {d u m}, L'.writes d u m → L.writes d u m ∨ issued d u m
  holds : ∀ {u m}, L'.holds u m → L.holds u m ∨ held u m

/-- What a system may do to its ledger: `issue` sends known marks to the record of the
session, with `write` one of them arrives, with `learn` a client hears of a mark that no
other client knows and no other record holds, and with `enter` it changes its session. -/
inductive Step (L L' : Ledger D U M) : Prop
  | issue : L'.session = L.session →
      Within L L' (fun _ _ => False) (fun d u _ => L.session d = some u) (fun _ _ => False) →
      Step L L'
  | write (d : D) (u : U) (m : M) : L.writes d u m → L'.session = L.session →
      Within L L' (fun _ _ => False) (fun _ _ _ => False) (fun v n => v = u ∧ n = m) →
      Step L L'
  | learn (d : D) (m : M) : (∀ e, L.knows e m → e = d) →
      (∀ u, L.holds u m → L.session d = some u) → L'.session = L.session →
      Within L L' (fun e n => e = d ∧ n = m) (fun e u _ => L.session e = some u)
        (fun _ _ => False) → Step L L'
  | enter (d : D) (u : U) :
      (L.session d = some u ∨
        ∀ m, L.knows d m → (∀ v, ¬ L.holds v m) ∧ ∀ v, ¬ L.writes d v m) →
      L'.session d = some u → (∀ e, e ≠ d → L'.session e = L.session e) →
      Within L L' (fun _ _ => False) (fun _ _ _ => False) (fun _ _ => False) → Step L L'

variable {L L' : Ledger D U M}

theorem Within.mono {known known' : D → M → Prop} {issued issued' : D → U → M → Prop}
    {held held' : U → M → Prop} (within : Within L L' known issued held)
    (hknown : ∀ d m, known d m → known' d m) (hissued : ∀ d u m, issued d u m → issued' d u m)
    (hheld : ∀ u m, held u m → held' u m) : Within L L' known' issued' held' where
  knows h := (within.knows h).imp_right (hknown _ _)
  writes h := (within.writes h).imp_right (hissued _ _ _)
  holds h := (within.holds h).imp_right (hheld _ _)

private theorem old {P : Prop} (h : P ∨ False) : P := h.resolve_right id

theorem exclusive_issue (ex : Exclusive L) (hs : L'.session = L.session)
    (within : Within L L' (fun _ _ => False) (fun d u _ => L.session d = some u)
      (fun _ _ => False)) : Exclusive L' where
  alone hu hv := ex.alone (old (within.holds hu)) (old (within.holds hv))
  own hd hu := by
    rw [hs]
    exact ex.own (old (within.knows hd)) (old (within.holds hu))
  written hw := by
    rw [hs]
    exact (within.writes hw).elim ex.written id
  apart hd he := ex.apart (old (within.knows hd)) (old (within.knows he))

theorem exclusive_write (ex : Exclusive L) {d : D} {u : U} {m : M} (hw : L.writes d u m)
    (hs : L'.session = L.session)
    (within : Within L L' (fun _ _ => False) (fun _ _ _ => False)
      (fun v n => v = u ∧ n = m)) : Exclusive L' := by
  have hm := L.knows_of_writes hw
  have hsession := ex.written hw
  have hheld : ∀ {v}, L.holds v m → v = u := fun hv =>
    Option.some.inj ((ex.own hm hv).symm.trans hsession)
  refine ⟨fun hu hv => ?_, fun hd hu => ?_, fun hw' => ?_, fun hd he => ?_⟩
  · rcases within.holds hu with hu | ⟨hu, hn⟩ <;> rcases within.holds hv with hv | ⟨hv, hn'⟩
    · exact ex.alone hu hv
    · rw [hv]
      exact hheld (hn' ▸ hu)
    · rw [hu]
      exact (hheld (hn ▸ hv)).symm
    · rw [hu, hv]
  · rw [hs]
    have hd := old (within.knows hd)
    rcases within.holds hu with hu | ⟨rfl, rfl⟩
    · exact ex.own hd hu
    · rw [ex.apart hd hm]
      exact hsession
  · rw [hs]
    exact ex.written (old (within.writes hw'))
  · exact ex.apart (old (within.knows hd)) (old (within.knows he))

theorem exclusive_learn (ex : Exclusive L) {d : D} {m : M} (hnew : ∀ e, L.knows e m → e = d)
    (hheld : ∀ u, L.holds u m → L.session d = some u) (hs : L'.session = L.session)
    (within : Within L L' (fun e n => e = d ∧ n = m) (fun e u _ => L.session e = some u)
      (fun _ _ => False)) : Exclusive L' := by
  refine ⟨fun hu hv => ?_, fun he hu => ?_, fun hw => ?_, fun he he' => ?_⟩
  · exact ex.alone (old (within.holds hu)) (old (within.holds hv))
  · rw [hs]
    have hu := old (within.holds hu)
    rcases within.knows he with he | ⟨rfl, rfl⟩
    · exact ex.own he hu
    · exact hheld _ hu
  · rw [hs]
    exact (within.writes hw).elim ex.written id
  · rcases within.knows he with he | ⟨rfl, rfl⟩ <;> rcases within.knows he' with he' | ⟨rfl, hm⟩
    · exact ex.apart he he'
    · exact hnew _ (hm ▸ he)
    · exact (hnew _ he').symm
    · rfl

/-- Where the session changes, nothing that the client knows is held. -/
theorem exclusive_enter (ex : Exclusive L) {d : D} {u : U}
    (hfree : L.session d = some u ∨
      ∀ m, L.knows d m → (∀ v, ¬ L.holds v m) ∧ ∀ v, ¬ L.writes d v m)
    (hs : L'.session d = some u) (hother : ∀ e, e ≠ d → L'.session e = L.session e)
    (within : Within L L' (fun _ _ => False) (fun _ _ _ => False) (fun _ _ => False)) :
    Exclusive L' := by
  have hsame : L.session d = some u → ∀ e, L'.session e = L.session e := by
    intro hstay e
    by_cases he : e = d
    · rw [he, hs, hstay]
    · exact hother e he
  refine ⟨fun hu hv => ?_, fun {e} _ _ he hv => ?_, fun {e} _ _ hw => ?_, fun he he' => ?_⟩
  · exact ex.alone (old (within.holds hu)) (old (within.holds hv))
  · have he := old (within.knows he)
    have hv := old (within.holds hv)
    rcases hfree with hstay | hfree
    · rw [hsame hstay]
      exact ex.own he hv
    · by_cases hd : e = d
      · subst hd
        exact absurd hv ((hfree _ he).1 _)
      · rw [hother e hd]
        exact ex.own he hv
  · have hw := old (within.writes hw)
    rcases hfree with hstay | hfree
    · rw [hsame hstay]
      exact ex.written hw
    · by_cases hd : e = d
      · subst hd
        exact absurd hw ((hfree _ (L.knows_of_writes hw)).2 _)
      · rw [hother e hd]
        exact ex.written hw
  · exact ex.apart (old (within.knows he)) (old (within.knows he'))

theorem Step.exclusive (h : Step L L') (ex : Exclusive L) : Exclusive L' := by
  cases h with
  | issue hs within => exact exclusive_issue ex hs within
  | write d u m hw hs within => exact exclusive_write ex hw hs within
  | learn d m hnew hheld hs within => exact exclusive_learn ex hnew hheld hs within
  | enter d u hfree hs hother within => exact exclusive_enter ex hfree hs hother within

end PlateChat.Foundation.Ownership
