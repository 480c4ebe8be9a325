/- PlateChat/Foundation/Run
   digest: Runs of a partial step function, what they preserve, and when they rest. -/

import Mathlib.Logic.Relation
import Mathlib.Data.List.Induction
import Mathlib.Data.Prod.Lex
import Mathlib.Order.WellFounded

set_option autoImplicit false
set_option relaxedAutoImplicit false

namespace PlateChat.Foundation.Run

universe u v w

variable {σ : Type u} {ε : Type v}

/-- Feed a finite event list to a partial step; a refused event ends the run. -/
def run (step : σ → ε → Option σ) : σ → List ε → Option σ
  | s, [] => some s
  | s, e :: es => (step s e).bind fun t => run step t es

/-- Every event of the run is met in a state whose guard admits it. -/
def Along (step : σ → ε → Option σ) (guard : σ → ε → Prop) : σ → List ε → Prop
  | _, [] => True
  | s, e :: es => guard s e ∧ ∀ t, step s e = some t → Along step guard t es

/-- A run can be checked event by event. -/
instance decidableAlong (step : σ → ε → Option σ) (guard : σ → ε → Prop)
    [∀ s e, Decidable (guard s e)] : ∀ s es, Decidable (Along step guard s es)
  | _, [] => .isTrue trivial
  | s, e :: es =>
    match h : step s e with
    | none => decidable_of_iff (guard s e) ⟨fun hg => ⟨hg, by simp [h]⟩, fun ha => ha.1⟩
    | some t =>
      have := decidableAlong step guard t es
      decidable_of_iff (guard s e ∧ Along step guard t es)
        ⟨fun hg => ⟨hg.1, by simpa [h] using hg.2⟩, fun ha => ⟨ha.1, ha.2 t h⟩⟩

variable {step : σ → ε → Option σ} {guard : σ → ε → Prop}

theorem run_nil {s t : σ} : run step s [] = some t ↔ s = t := by
  simp only [run, Option.some_inj]

theorem run_cons {s t : σ} {e : ε} {es : List ε} :
    run step s (e :: es) = some t ↔ ∃ m, step s e = some m ∧ run step m es = some t := by
  simp only [run, Option.bind_eq_some_iff]

theorem run_append {s m t : σ} {es es' : List ε} (h : run step s es = some m)
    (h' : run step m es' = some t) : run step s (es ++ es') = some t := by
  induction es generalizing s with
  | nil =>
    obtain rfl := run_nil.mp h
    exact h'
  | cons e es ih =>
    obtain ⟨u, hu, hm⟩ := run_cons.mp h
    exact run_cons.mpr ⟨u, hu, ih hm⟩

theorem next_iff {P : σ → Prop} {s t : σ} {e : ε} (h : step s e = some t) :
    (∀ t' ∈ step s e, P t') ↔ P t := by
  rw [h]
  simp

theorem Along.cons {s t : σ} {e : ε} {es : List ε} (hg : guard s e) (he : step s e = some t)
    (h : Along step guard t es) : Along step guard s (e :: es) := by
  refine ⟨hg, fun u hu => ?_⟩
  obtain rfl := Option.some.inj (he.symm.trans hu)
  exact h

/-- What every admitted step keeps, every admitted run keeps. -/
theorem run_keeps {P : σ → Prop}
    (keep : ∀ s e t, P s → guard s e → step s e = some t → P t)
    {s t : σ} {es : List ε} (along : Along step guard s es)
    (hr : run step s es = some t) (hs : P s) : P t := by
  induction es generalizing s with
  | nil =>
    exact run_nil.mp hr ▸ hs
  | cons e es ih =>
    obtain ⟨m, hm, ht⟩ := run_cons.mp hr
    exact ih (along.2 m hm) ht (keep s e m hs along.1 hm)

theorem along_and {guard' : σ → ε → Prop} {s : σ} {es : List ε} (h : Along step guard s es)
    (h' : Along step guard' s es) : Along step (fun s e => guard s e ∧ guard' s e) s es := by
  induction es generalizing s with
  | nil => trivial
  | cons e es ih => exact ⟨⟨h.1, h'.1⟩, fun t ht => ih (h.2 t ht) (h'.2 t ht)⟩

theorem along_and_iff {guard' : σ → ε → Prop} {s : σ} {es : List ε} :
    Along step (fun s e => guard s e ∧ guard' s e) s es ↔
      Along step guard s es ∧ Along step guard' s es := by
  refine ⟨fun h => ?_, fun h => along_and h.1 h.2⟩
  induction es generalizing s with
  | nil => exact ⟨trivial, trivial⟩
  | cons e es ih =>
    exact ⟨⟨h.1.1, fun t ht => (ih (h.2 t ht)).1⟩, ⟨h.1.2, fun t ht => (ih (h.2 t ht)).2⟩⟩

theorem along_true (s : σ) (es : List ε) : Along step (fun _ _ => True) s es := by
  induction es generalizing s with
  | nil => trivial
  | cons e es ih => exact ⟨trivial, fun t _ => ih t⟩

theorem along_keeps {P : σ → Prop} {goal : σ → ε → Prop}
    (keep : ∀ s e t, P s → guard s e → step s e = some t → P t)
    (imp : ∀ s e, P s → guard s e → goal s e) {s : σ} {es : List ε}
    (along : Along step guard s es) (hs : P s) : Along step goal s es := by
  induction es generalizing s with
  | nil => trivial
  | cons e es ih =>
    exact ⟨imp s e hs along.1, fun t ht => ih (along.2 t ht) (keep s e t hs along.1 ht)⟩

theorem along_last {P : σ → Prop} {s t : σ} {es : List ε} (hne : es ≠ [])
    (h : Along step (fun s e => ∀ t ∈ step s e, P t) s es) (hr : run step s es = some t) : P t := by
  induction es generalizing s with
  | nil => exact absurd rfl hne
  | cons e es ih =>
    obtain ⟨m, hm, ht⟩ := run_cons.mp hr
    cases es with
    | nil =>
      exact run_nil.mp ht ▸ h.1 m hm
    | cons e' es => exact ih (List.cons_ne_nil e' es) (h.2 m hm) ht

/-- Two guards that agree wherever an invariant holds admit the same runs. -/
theorem along_congr {P : σ → Prop} {goal : σ → ε → Prop}
    (same : ∀ s e, P s → (guard s e ↔ goal s e))
    (keep : ∀ s e t, P s → guard s e → step s e = some t → P t) {s : σ} {es : List ε}
    (hs : P s) : Along step guard s es ↔ Along step goal s es := by
  induction es generalizing s with
  | nil => exact Iff.rfl
  | cons e es ih =>
    constructor
    · rintro ⟨hg, hrest⟩
      exact ⟨(same s e hs).mp hg, fun t ht => (ih (keep s e t hs hg ht)).mp (hrest t ht)⟩
    · rintro ⟨hg, hrest⟩
      have hg' := (same s e hs).mpr hg
      exact ⟨hg', fun t ht => (ih (keep s e t hs hg' ht)).mpr (hrest t ht)⟩

/-- How many events of a kind a run meets. -/
def occurrences (step : σ → ε → Option σ) (kind : σ → ε → Prop) [∀ s e, Decidable (kind s e)] :
    σ → List ε → Nat
  | _, [] => 0
  | s, e :: es => (if kind s e then 1 else 0) + match step s e with
    | some t => occurrences step kind t es
    | none => 0

/-- A run meets no more events of a kind than there is stock, if each of them uses some up and
nothing restocks, unless it has reached what puts an end to that. -/
theorem occurrences_le {kind : σ → ε → Prop} [∀ s e, Decidable (kind s e)] (P ended : σ → Prop)
    (stock : σ → Nat) (keep : ∀ s e t, P s → guard s e → step s e = some t → P t)
    (stay : ∀ s e t, P s → guard s e → step s e = some t → ended s → ended t)
    (use : ∀ s e t, P s → guard s e → step s e = some t → ended s ∨
      stock t + (if kind s e then 1 else 0) ≤ stock s) {s t : σ} {es : List ε}
    (along : Along step guard s es) (hr : run step s es = some t) (hs : P s) :
    ended t ∨ stock t + occurrences step kind s es ≤ stock s := by
  induction es generalizing s with
  | nil =>
    obtain rfl := run_nil.mp hr
    exact .inr (Nat.le_refl _)
  | cons e es ih =>
    obtain ⟨m, hm, ht⟩ := run_cons.mp hr
    have hkept := keep s e m hs along.1 hm
    rcases use s e m hs along.1 hm with hended | hused
    · have hreached := stay s e m hs along.1 hm hended
      have hlast := run_keeps (P := fun s => P s ∧ ended s)
        (fun s e t h hg he => ⟨keep s e t h.1 hg he, stay s e t h.1 hg he h.2⟩)
        (along.2 m hm) ht ⟨hkept, hreached⟩
      exact .inl hlast.2
    · refine (ih (along.2 m hm) ht hkept).imp_right fun hrest => ?_
      simp only [occurrences, hm]
      omega

theorem run_invariant {P : σ → Prop} (keep : ∀ s e t, P s → step s e = some t → P t)
    {s t : σ} {es : List ε} (hr : run step s es = some t) (hs : P s) : P t :=
  run_keeps (fun s e t h _ => keep s e t h) (along_true s es) hr hs

/-- The run has met an event of which `P` held, after the events `before` and in the state `s`. -/
def Past (step : σ → ε → Option σ) (start : σ) (P : List ε → σ → ε → Prop) (es : List ε) : Prop :=
  ∃ before e after s, es = before ++ e :: after ∧ run step start before = some s ∧ P before s e

theorem run_snoc {s t : σ} {e : ε} {es : List ε} :
    run step s (es ++ [e]) = some t ↔ ∃ m, run step s es = some m ∧ step m e = some t := by
  induction es generalizing s with
  | nil => simp [run]
  | cons e' es ih =>
    simp only [List.cons_append, run_cons, ih]
    constructor
    · rintro ⟨u, hu, m, hm, ht⟩
      exact ⟨m, ⟨u, hu, hm⟩, ht⟩
    · rintro ⟨m, ⟨u, hu, hm⟩, ht⟩
      exact ⟨u, hu, m, hm, ht⟩

theorem Past.later {start : σ} {P : List ε → σ → ε → Prop} {es : List ε}
    (h : Past step start P es) (e : ε) : Past step start P (es ++ [e]) := by
  obtain ⟨before, e', after, s, rfl, hs, hP⟩ := h
  exact ⟨before, e', after ++ [e], s, by simp, hs, hP⟩

theorem past_now {start s : σ} {P : List ε → σ → ε → Prop} {es : List ε} {e : ε}
    (hr : run step start es = some s) (h : P es s e) : Past step start P (es ++ [e]) :=
  ⟨es, e, [], s, rfl, hr, h⟩

/-- The invariant rule for what a state says of the events before it. -/
theorem run_past {start : σ} {Q : List ε → σ → Prop} (nil : Q [] start)
    (snoc : ∀ es s e t, run step start es = some s → Q es s → step s e = some t →
      Q (es ++ [e]) t) {es : List ε} {s : σ} (hr : run step start es = some s) : Q es s := by
  induction es using List.reverseRecOn generalizing s with
  | nil =>
    obtain rfl := run_nil.mp hr
    exact nil
  | append_singleton es e ih =>
    obtain ⟨m, hm, ht⟩ := run_snoc.mp hr
    exact snoc es m e s hm (ih hm) ht

/-- One admitted step, with its event forgotten. -/
def Moves (step : σ → ε → Option σ) (guard : σ → ε → Prop) (s t : σ) : Prop :=
  ∃ e, guard s e ∧ step s e = some t

/-- No admitted step is left. -/
def Halted (step : σ → ε → Option σ) (guard : σ → ε → Prop) (s : σ) : Prop :=
  ∀ t, ¬ Moves step guard s t

/-- States reached by admitted steps. -/
def Reaches (step : σ → ε → Option σ) (guard : σ → ε → Prop) : σ → σ → Prop :=
  Relation.ReflTransGen (Moves step guard)

/-- Every sequence of admitted steps from the state is finite. -/
def Rests (step : σ → ε → Option σ) (guard : σ → ε → Prop) (s : σ) : Prop :=
  Acc (fun t s => Moves step guard s t) s

theorem Reaches.keeps {P : σ → Prop}
    (keep : ∀ s e t, P s → guard s e → step s e = some t → P t)
    {s t : σ} (h : Reaches step guard s t) (hs : P s) : P t := by
  induction h with
  | refl => exact hs
  | tail _ hm ih =>
    obtain ⟨e, hg, he⟩ := hm
    exact keep _ e _ ih hg he

theorem Reaches.mono {goal : σ → ε → Prop} (imp : ∀ s e, guard s e → goal s e) {s t : σ}
    (h : Reaches step guard s t) : Reaches step goal s t := by
  induction h with
  | refl => exact .refl
  | tail _ hm ih =>
    obtain ⟨e, hg, he⟩ := hm
    exact ih.tail ⟨e, imp _ e hg, he⟩

theorem reaches_of_run {s t : σ} {es : List ε} (along : Along step guard s es)
    (hr : run step s es = some t) : Reaches step guard s t := by
  induction es generalizing s with
  | nil =>
    exact run_nil.mp hr ▸ .refl
  | cons e es ih =>
    obtain ⟨m, hm, ht⟩ := run_cons.mp hr
    exact .head ⟨e, along.1, hm⟩ (ih (along.2 m hm) ht)

theorem Rests.halts {s : σ} (h : Rests step guard s) :
    ∃ t, Reaches step guard s t ∧ Halted step guard t := by
  induction h with
  | intro s _ ih =>
    by_cases hh : Halted step guard s
    · exact ⟨s, .refl, hh⟩
    · simp only [Halted, not_forall, not_not] at hh
      obtain ⟨m, hm⟩ := hh
      obtain ⟨t, ht, halt⟩ := ih m hm
      exact ⟨t, Relation.ReflTransGen.head hm ht, halt⟩

/-- A rank that every admitted step lowers makes the system rest. -/
theorem rests_of_rank {β : Type w} {lt : β → β → Prop} (wf : WellFounded lt) (rank : σ → β)
    {P : σ → Prop} (keep : ∀ s e t, P s → guard s e → step s e = some t → P t)
    (fall : ∀ s e t, P s → guard s e → step s e = some t → lt (rank t) (rank s))
    {s : σ} (hs : P s) : Rests step guard s := by
  have key : ∀ b s, rank s = b → P s → Rests step guard s := by
    intro b
    induction b using wf.induction with
    | _ b ih =>
      rintro s rfl hs
      refine Acc.intro s ?_
      rintro t ⟨e, hg, he⟩
      exact ih (rank t) (fall s e t hs hg he) t rfl (keep s e t hs hg he)
  exact key (rank s) s rfl hs

/-- Ranks compared first by one number, then by the next. -/
abbrev Rank4 := ℕ ×ₗ ℕ ×ₗ ℕ ×ₗ ℕ

def rank4 (a b c d : ℕ) : Rank4 := toLex (a, toLex (b, toLex (c, d)))

/-- A rank falls when one component falls and none before it grows. -/
theorem rank4_lt {a b c d a' b' c' d' : ℕ}
    (h : a < a' ∨ a ≤ a' ∧ (b < b' ∨ b ≤ b' ∧ (c < c' ∨ c ≤ c' ∧ d < d'))) :
    rank4 a b c d < rank4 a' b' c' d' := by
  simp only [rank4, Prod.Lex.toLex_lt_toLex]
  omega

end PlateChat.Foundation.Run
