/- PlateChat/Passcode/Setting
   digest: What the pads store, whether they store anything, and that the lock can be opened. -/

import Mathlib.Data.List.Nodup
import PlateChat.Passcode.Pads

set_option autoImplicit false
set_option relaxedAutoImplicit false

namespace PlateChat.Passcode.Setting

open PlateChat.Foundation.Run PlateChat.Foundation.Presentation PlateChat.Passcode.Pads
open PlateChat.Passcode.Lock hiding Event step

/-- A pin pad lies on its lock, and an ordinary controller on ordinary ones. -/
def Over (c : Controller Screen) (below : List (Controller Screen)) : Prop :=
  match c.kind with
  | .pin lock => ∃ x ∈ below.head?, x.id = lock ∧ x.kind = .lock
  | .lock => True
  | .ordinary _ => ∀ x ∈ below.head?, x.kind.isOrdinary = true

def Built : List (Controller Screen) → Prop
  | [] => True
  | c :: below => Over c below ∧ Built below

theorem Built.suffix {l l' : List (Controller Screen)} (h : Built l) (hsuffix : l' <:+ l) :
    Built l' := by
  induction l with
  | nil =>
    rw [List.suffix_nil.mp hsuffix]
    trivial
  | cons c below ih =>
    rcases List.suffix_cons_iff.mp hsuffix with rfl | hbelow
    · exact h
    · exact ih h.2 hbelow

/-- Under an ordinary controller there are only such. -/
theorem Built.ordinary {l : List (Controller Screen)} (h : Built l)
    (hfront : ∀ c ∈ l.head?, c.kind.isOrdinary = true) : ∀ c ∈ l, c.kind.isOrdinary = true := by
  induction l with
  | nil => exact fun _ hc => nomatch hc
  | cons c below ih =>
    have hc : c.kind.isOrdinary = true := hfront c rfl
    have hunder : ∀ x ∈ below.head?, x.kind.isOrdinary = true := by
      have hover := h.1
      unfold Over at hover
      split at hover
      · rename_i hkind
        rw [hkind] at hc
        cases hc
      · rename_i hkind
        rw [hkind] at hc
        cases hc
      · exact hover
    intro x hx
    rcases List.mem_cons.mp hx with rfl | hx
    · exact hc
    · exact ih h.2 hunder x hx

/-- The stack is built so, and a lock or a pin pad is on it only with a passcode set. -/
structure Layered (a : App) : Prop where
  built : Built a.stack.controllers
  set : ∀ c ∈ a.stack.controllers, c.kind.isOrdinary = false → a.passcode ≠ none

theorem frontKind_isOrdinary {a : App} (h : a.frontKind.isOrdinary = true) :
    ∀ c ∈ a.stack.controllers.head?, c.kind.isOrdinary = true := by
  intro c hc
  unfold App.frontKind at h
  rw [Option.mem_def.mp hc] at h
  exact h

theorem Layered.ordinary {a : App} (h : Layered a) (hfront : a.frontKind.isOrdinary = true) :
    ∀ c ∈ a.stack.controllers, c.kind.isOrdinary = true :=
  h.built.ordinary (frontKind_isOrdinary hfront)

theorem passcode_of_hasPasscode {a : App} (h : a.hasPasscode = true) : a.passcode ≠ none := by
  intro hnone
  unfold App.hasPasscode at h
  rw [hnone] at h
  cases h

/-- The lock's own steps leave the stack as it is, cut it, or put a lock or a pin pad on it. -/
structure Covers (a b : App) : Prop where
  made : a.stack.made ≤ b.stack.made
  stack : b.stack.controllers <:+ a.stack.controllers ∨
    ∃ c, c.kind.isOrdinary = false ∧ Over c a.stack.controllers ∧ a.passcode ≠ none ∧
      b.stack.controllers = c :: a.stack.controllers

theorem Covers.cut {a b : App} (hmade : b.stack.made = a.stack.made)
    (h : b.stack.controllers <:+ a.stack.controllers) : Covers a b :=
  ⟨Nat.le_of_eq hmade.symm, .inl h⟩

theorem Covers.same {a b : App} (h : b.stack = a.stack) : Covers a b :=
  .cut (h ▸ rfl) (h ▸ List.suffix_refl _)

theorem Layered.add {a b : App} {c : Controller Screen} (h : Layered a)
    (hstack : b.stack.controllers = c :: a.stack.controllers)
    (hpass : b.passcode = a.passcode) (hover : Over c a.stack.controllers)
    (hset : c.kind.isOrdinary = false → a.passcode ≠ none) : Layered b := by
  refine ⟨hstack ▸ ⟨hover, h.built⟩, fun x hx hk => ?_⟩
  rw [hstack] at hx
  rw [hpass]
  rcases List.mem_cons.mp hx with rfl | hx
  · exact hset hk
  · exact h.set x hx hk

theorem Layered.covers {a b : App} (h : Layered a) (hcovers : Covers a b)
    (hset : a.passcode ≠ none → b.passcode ≠ none) : Layered b := by
  rcases hcovers.stack with hcut | ⟨c, -, hover, hpass, hstack⟩
  · exact ⟨h.built.suffix hcut, fun c hc hk => hset (h.set c (hcut.subset hc) hk)⟩
  · refine ⟨hstack ▸ ⟨hover, h.built⟩, fun _ _ _ => hset hpass⟩

theorem made_present (s : Stack Screen) (presenter : Nat) (kind : Screen) :
    s.made ≤ (s.present presenter kind).made := by
  unfold Stack.present
  split
  · exact Nat.le_succ _
  · exact Nat.le_refl _

theorem presentLock_covers {a : App} (h : a.hasPasscode = true) (presenter : Nat) :
    Covers a (a.presentLock presenter) ∧ (a.presentLock presenter).passcode = a.passcode := by
  unfold App.presentLock
  split
  · rename_i hfront
    subst hfront
    have hstack := Stack.present_front a.stack .lock
    refine ⟨⟨?_, .inr ⟨⟨a.stack.made + 1, .lock⟩, rfl, trivial, passcode_of_hasPasscode h,
      hstack⟩⟩, rfl⟩
    exact made_present a.stack _ _
  · exact ⟨.same rfl, rfl⟩

theorem front_lock {a : App} {lock : Nat} (hlock : lock ∈ a.locks) (hfront : a.stack.front = lock) :
    ∃ c ∈ a.stack.controllers.head?, c.id = lock ∧ c.kind = .lock := by
  obtain ⟨x, hx, hid⟩ := List.mem_map.mp hlock
  obtain ⟨hmem, hkind⟩ := List.mem_filter.mp hx
  cases hs : a.stack.controllers with
  | nil =>
    rw [hs] at hmem
    cases hmem
  | cons c below =>
    have hc : c.id = lock := by
      rw [Stack.front, hs] at hfront
      exact hfront
    have hsame : x = c := List.inj_on_of_nodup_map a.stack.nodup hmem
      (hs ▸ List.mem_cons_self) (hid.trans hc.symm)
    exact ⟨c, rfl, hc, hsame ▸ of_decide_eq_true hkind⟩

theorem openPasscodeLock_covers (a : App) :
    Covers a a.openPasscodeLock ∧ a.openPasscodeLock.passcode = a.passcode := by
  unfold App.openPasscodeLock
  split
  · rename_i hpass
    split
    · exact ⟨.same rfl, rfl⟩
    · exact presentLock_covers hpass.1 _
  · exact ⟨.same rfl, rfl⟩

theorem close_covers (a : App) (c : Nat) : Covers a (a.close c) :=
  .cut rfl (dropped_suffix c a.stack.controllers)

theorem lockDidAppear_covers {a : App} {lock : Nat} (hlock : lock ∈ a.locks) :
    Covers a (a.lockDidAppear lock) ∧ (a.lockDidAppear lock).passcode = a.passcode := by
  unfold App.lockDidAppear
  split
  · exact ⟨close_covers a lock, rfl⟩
  · rename_i hpass
    split
    · refine ⟨⟨made_present a.stack _ _, ?_⟩, rfl⟩
      unfold Stack.present
      split
      · rename_i hfront
        exact .inr ⟨⟨a.stack.made + 1, .pin lock⟩, rfl, front_lock hlock hfront, by simp [hpass],
          rfl⟩
      · exact .inl (List.suffix_refl _)
    · exact ⟨close_covers a lock, rfl⟩

theorem isPinValid_covers (a : App) (lock : Nat) (pin : String) :
    Covers a (a.isPinValid lock pin) ∧ (a.isPinValid lock pin).passcode = a.passcode := by
  unfold App.isPinValid
  split
  · exact ⟨.cut rfl (dropped_suffix lock a.stack.controllers), rfl⟩
  · exact ⟨.same rfl, rfl⟩

theorem layered_launch (a : App) : Layered a.launch := by
  have hbare : Layered { a with
      isShowingPasscordLockView := false, stack := Stack.bare a.stack.made } :=
    ⟨trivial, fun _ hc => nomatch hc⟩
  unfold App.launch App.displayPasscodeLockScreenIfNeeded
  split
  · rename_i hpass
    obtain ⟨hcovers, hsame⟩ := presentLock_covers hpass.1 0
    exact hbare.covers hcovers fun h => hsame ▸ h
  · exact hbare

/-- The controllers of the stack by their ids. -/
def Shown (s : Phone) (c : Nat) : Prop := ∃ x ∈ s.app.stack.controllers, x.id = c

/-- Nothing but a lock comes over the pads, and a pin is confirmed in the time that the first pad
has left, as long as no passcode is set. -/
structure Kept (s : Phone) : Prop where
  layered : Layered s.app
  known : ∀ f ∈ s.flow, f.nvc ≤ s.app.stack.made
  alone : ∀ f ∈ s.flow, s.app.stack.controllers.Pairwise fun above below =>
    below.id = f.nvc → above.kind.isOrdinary = false
  waits : ∀ f ∈ s.flow, f.inputPasscode.isSome → Shown s f.nvc → s.app.passcode = none →
    .first f.nvc f.settings ∈ s.timers

section Kept

variable {s t : Phone}

theorem Kept.covers (h : Kept s) (hcovers : Covers s.app t.app) (hflow : t.flow = s.flow)
    (hset : s.app.passcode ≠ none → t.app.passcode ≠ none)
    (htimers : s.timers ⊆ t.timers) : Kept t := by
  refine ⟨h.layered.covers hcovers hset, ?_, ?_, ?_⟩
  · rw [hflow]
    exact fun f hf => (h.known f hf).trans hcovers.made
  · rw [hflow]
    intro f hf
    rcases hcovers.stack with hcut | ⟨c, hc, -, -, hstack⟩
    · exact (h.alone f hf).sublist hcut.sublist
    · rw [hstack]
      exact List.pairwise_cons.mpr ⟨fun _ _ _ => hc, h.alone f hf⟩
  · rw [hflow]
    intro f hf hinput ⟨x, hx, hid⟩ hnone
    have hbefore : s.app.passcode = none := by
      by_contra hpass
      exact hset hpass hnone
    rcases hcovers.stack with hcut | ⟨c, -, -, hpass, -⟩
    · exact htimers (h.waits f hf hinput ⟨x, hcut.subset hx, hid⟩ hbefore)
    · exact absurd hbefore hpass

theorem Kept.not_shown (h : Kept s) (hopen : s.Open) {f : Flow} (hf : f ∈ s.flow) :
    ¬ Shown s f.nvc := by
  rintro ⟨x, hx, hid⟩
  obtain ⟨hfront, hpad⟩ := hopen
  have halone := h.alone f hf
  have hordinary := frontKind_isOrdinary hfront
  unfold Phone.frontPad at hpad
  cases hs : s.app.stack.controllers with
  | nil =>
    rw [hs] at hx
    cases hx
  | cons c below =>
    rw [hs] at hx hpad halone hordinary
    have hc : c.kind.isOrdinary = true := hordinary c rfl
    rcases List.mem_cons.mp hx with rfl | hx
    · rw [Option.mem_def.mp hf] at hpad
      cases hk : x.kind with
      | ordinary children => simp [hk, hid] at hpad
      | lock => simp [hk, Screen.isOrdinary] at hc
      | pin lock => simp [hk, Screen.isOrdinary] at hc
    · rw [(List.pairwise_cons.mp halone).1 x hx hid] at hc
      cases hc

theorem Kept.present (h : Kept s) (presenter children : Nat) :
    Kept (s.present presenter children) := by
  unfold Phone.present
  split
  · rename_i hopen
    rcases Stack.present_cases s.app.stack presenter (.ordinary children) with hstack | hsame
    · have hover : Over ⟨s.app.stack.made + 1, .ordinary children⟩ s.app.stack.controllers :=
        frontKind_isOrdinary hopen.1
      refine ⟨h.layered.add hstack rfl hover (fun hk => nomatch hk), fun f hf => ?_, fun f hf => ?_,
        fun f hf hinput hshown hnone => ?_⟩
      · exact (h.known f hf).trans (made_present s.app.stack _ _)
      · show (s.app.stack.present presenter (.ordinary children)).controllers.Pairwise _
        rw [hstack]
        refine List.pairwise_cons.mpr ⟨fun x hx hid => ?_, h.alone f hf⟩
        exact absurd ⟨x, hx, hid⟩ (h.not_shown hopen hf)
      · obtain ⟨x, hx, hid⟩ := hshown
        have hx' : x ∈ (s.app.stack.present presenter (.ordinary children)).controllers := hx
        rw [hstack] at hx'
        rcases List.mem_cons.mp hx' with rfl | hx'
        · have hknown := h.known f hf
          have hid' : s.app.stack.made + 1 = f.nvc := hid
          omega
        · exact absurd ⟨x, hx', hid⟩ (h.not_shown hopen hf)
    · exact h.covers (.same hsame) rfl id (List.Subset.refl _)
  · exact h

theorem Kept.update (h : Kept s) (pad : Pad) (v : PinView) : Kept (s.update pad v) :=
  h.covers (.same rfl) rfl id (List.Subset.refl _)

theorem Kept.dismiss (h : Kept s) (c : Nat) : Kept (s.dismiss c) :=
  h.covers (.cut rfl (dropped_suffix c _)) rfl id (List.Subset.refl _)

/-- A pad in front is that of a lock, or of the new passcode. -/
theorem frontPad_cases {pad : Pad} (h : s.frontPad = some pad) :
    (∃ lock c below, pad = .lock lock c ∧ s.app.stack.controllers = ⟨c, .pin lock⟩ :: below) ∨
      ∃ f, s.flow = some f ∧ pad = f.pad ∧ Shown s f.nvc := by
  unfold Phone.frontPad at h
  cases hs : s.app.stack.controllers with
  | nil => simp [hs] at h
  | cons c below =>
    obtain ⟨id, kind⟩ := c
    rw [hs] at h
    cases kind with
    | lock => cases h
    | pin lock =>
      obtain rfl := Option.some.inj h
      exact .inl ⟨lock, id, below, rfl, rfl⟩
    | ordinary children =>
      obtain ⟨f, hf, rfl⟩ := Option.map_eq_some_iff.mp h
      obtain ⟨hflow, hid⟩ := Option.filter_eq_some_iff.mp hf
      exact .inr ⟨f, hflow, rfl, ⟨id, .ordinary children⟩, hs ▸ List.mem_cons_self,
        (of_decide_eq_true hid).symm⟩

theorem flow_of_first {nvc settings : Nat} (h : s.frontPad = some (.first nvc settings)) :
    s.flow = some { nvc := nvc, settings := settings } := by
  rcases frontPad_cases h with ⟨_, _, _, hpad, -⟩ | ⟨⟨_, _, input⟩, hflow, hpad, -⟩
  · cases hpad
  · cases input with
    | none =>
      cases hpad
      exact hflow
    | some pin => cases hpad

theorem flow_of_confirm {nvc settings : Nat} (h : s.frontPad = some (.confirm nvc settings)) :
    Shown s nvc ∧ ∃ pin, s.flow = some ⟨nvc, settings, some pin⟩ := by
  rcases frontPad_cases h with ⟨_, _, _, hpad, -⟩ | ⟨⟨_, _, input⟩, hflow, hpad, hshown⟩
  · cases hpad
  · cases input with
    | none => cases hpad
    | some pin =>
      cases hpad
      exact ⟨hshown, pin, hflow⟩

theorem Kept.isPinValid (h : Kept s) {pad : Pad} (hpad : s.frontPad = some pad) (pin : String) :
    Kept (s.isPinValid pin pad) := by
  cases pad with
  | first nvc settings =>
    have hflow := flow_of_first hpad
    refine ⟨h.layered, fun f hf => ?_, fun f hf => ?_, fun f hf _ _ _ => ?_⟩
    · obtain rfl := Option.some.inj hf
      exact h.known { nvc := nvc, settings := settings } hflow
    · obtain rfl := Option.some.inj hf
      exact h.alone { nvc := nvc, settings := settings } hflow
    · obtain rfl := Option.some.inj hf
      exact List.mem_append_right _ List.mem_cons_self
  | confirm nvc settings =>
    dsimp only [Phone.isPinValid]
    split
    · exact h.covers (.same rfl) rfl (fun _ => Option.some_ne_none pin)
        (List.subset_append_left _ _)
    · exact h.update _ _
  | lock lock c =>
    dsimp only [Phone.isPinValid]
    split
    · obtain ⟨hcovers, hpass⟩ := isPinValid_covers s.app lock pin
      exact h.covers hcovers rfl (fun hset => hpass.symm ▸ hset) (List.subset_append_left _ _)
    · exact h.update _ _

theorem numberTapped_cases (s : Phone) (pad : Pad) (number : Fin 10) :
    ∃ v, s.numberTapped pad number = s.update pad v ∨
      ∃ pin, ((s.pads pad).numberTapped number).2 = some pin ∧
        s.numberTapped pad number = (s.update pad v).isPinValid pin pad := by
  refine ⟨((s.pads pad).numberTapped number).1, ?_⟩
  unfold Phone.numberTapped
  cases h : ((s.pads pad).numberTapped number).2 with
  | none => exact .inl (by simp [h])
  | some pin => exact .inr ⟨pin, rfl, by simp [h]⟩

theorem Kept.numberTapped (h : Kept s) {pad : Pad} (hpad : s.frontPad = some pad)
    (number : Fin 10) : Kept (s.numberTapped pad number) := by
  obtain ⟨v, heq | ⟨pin, -, heq⟩⟩ := numberTapped_cases s pad number
  · exact heq ▸ h.update pad v
  · exact heq ▸ (h.update pad v).isPinValid hpad pin

/-- Without a passcode the pads are in front, and a dismissal removes them. -/
theorem Kept.gone (h : Kept s) {f : Flow} (hf : f ∈ s.flow) (hnone : s.app.passcode = none) :
    ¬ Shown (s.dismiss f.nvc) f.nvc := by
  rintro ⟨x, hx, hid⟩
  have hmem : x ∈ s.app.stack.controllers := Stack.dismiss_subset s.app.stack f.nvc hx
  have halone := h.alone f hf
  cases hs : s.app.stack.controllers with
  | nil =>
    rw [hs] at hmem
    cases hmem
  | cons c below =>
    have hordinary : c.kind.isOrdinary = true := by
      by_contra hk
      exact h.layered.set c (hs ▸ List.mem_cons_self) (Bool.eq_false_of_not_eq_true hk) hnone
    have hc : c.id = f.nvc := by
      rw [hs] at hmem halone
      rcases List.mem_cons.mp hmem with rfl | hmem
      · exact hid
      · rw [(List.pairwise_cons.mp halone).1 x hmem hid] at hordinary
        cases hordinary
    have hsame : x = c := List.inj_on_of_nodup_map s.app.stack.nodup hmem
      (hs ▸ List.mem_cons_self) (hid.trans hc.symm)
    have hgone := Stack.not_mem_dismiss_front hs
    rw [hc, ← hsame] at hgone
    exact hgone hx

/-- A timer runs out: that of the first pad ends the time for the second one. -/
theorem Kept.elapsed (h : Kept s) {i : Nat} {pad : Pad} (hi : s.timers[i]? = some pad) :
    Kept ({ s with timers := s.timers.eraseIdx i }.correctPinWasEntered pad) := by
  have hdismissed := h.dismiss pad.controller
  have hwaits : ∀ f ∈ s.flow, f.inputPasscode.isSome → Shown (s.dismiss pad.controller) f.nvc →
      s.app.passcode = none → .first f.nvc f.settings ∈ s.timers.eraseIdx i := by
    intro f hf hinput hshown hnone
    obtain ⟨j, hj⟩ := List.mem_iff_getElem?.mp (hdismissed.waits f hf hinput hshown hnone)
    refine List.mem_eraseIdx_iff_getElem?.mpr ⟨j, ?_, hj⟩
    rintro rfl
    obtain rfl := Option.some.inj (hi.symm.trans hj)
    exact h.gone hf hnone hshown
  cases pad with
  | first nvc settings => exact ⟨hdismissed.layered, hdismissed.known, hdismissed.alone, hwaits⟩
  | confirm nvc settings => exact ⟨hdismissed.layered, hdismissed.known, hdismissed.alone, hwaits⟩
  | lock lock pin => exact ⟨hdismissed.layered, hdismissed.known, hdismissed.alone, hwaits⟩

theorem Kept.completion (h : Kept s) (settings : Nat) (isSuccess : Bool) :
    Kept (s.completion settings isSuccess) := by
  have htold : Kept { s with settings := some (settings, isSuccess) } :=
    h.covers (.same rfl) rfl id (List.Subset.refl _)
  unfold Phone.completion
  split
  · cases isSuccess with
    | false => exact htold
    | true => exact htold.present settings 0
  · exact h

theorem Kept.openSettings (h : Kept s) : Kept s.openSettings :=
  (h.present s.app.stack.front 1).covers (.same rfl) rfl id (List.Subset.refl _)

theorem Kept.removePasscode (h : Kept s) (hopen : s.Open) (settings : Nat) :
    Kept (s.removePasscode settings) := by
  refine ⟨⟨h.layered.built, fun c hc hk => ?_⟩, h.known, h.alone, fun f hf _ hshown _ => ?_⟩
  · rw [h.layered.ordinary hopen.1 c hc] at hk
    cases hk
  · exact absurd hshown (h.not_shown hopen hf)

theorem presented {presenter : Nat} (hopen : s.Open) (hfront : s.app.stack.front = presenter)
    (children : Nat) : (s.present presenter children).app.stack.controllers =
        ⟨s.app.stack.made + 1, .ordinary children⟩ :: s.app.stack.controllers ∧
      (s.present presenter children).app.stack.made = s.app.stack.made + 1 := by
  subst hfront
  unfold Phone.present Stack.present
  simp [hopen]

theorem Kept.newPasscode (h : Kept s) {settings : Nat} (hopen : s.Open)
    (hfront : s.app.stack.front = settings) : Kept (s.newPasscode settings) := by
  have hkept := h.present settings 1
  obtain ⟨hstack, hmade⟩ := presented hopen hfront 1
  have hnvc : (s.present settings 1).app.stack.front = s.app.stack.made + 1 := by
    rw [Stack.front, hstack]
    rfl
  refine ⟨hkept.layered, fun f hf => ?_, fun f hf => ?_, fun f hf hinput => ?_⟩
  · obtain rfl := Option.some.inj hf
    show (s.present settings 1).app.stack.front ≤ (s.present settings 1).app.stack.made
    omega
  · obtain rfl := Option.some.inj hf
    show (s.present settings 1).app.stack.controllers.Pairwise fun above below =>
      below.id = (s.present settings 1).app.stack.front → above.kind.isOrdinary = false
    have hnew : ∀ x ∈ s.app.stack.controllers, x.id ≠ s.app.stack.made + 1 := by
      intro x hx hid
      have hknown := (s.app.stack.known x hx).2
      omega
    rw [hnvc, hstack, List.pairwise_cons]
    refine ⟨fun x hx hid => absurd hid (hnew x hx), ?_⟩
    exact List.pairwise_of_forall_mem_list fun _ _ x hx hid => absurd hid (hnew x hx)
  · obtain rfl := Option.some.inj hf
    cases hinput

end Kept

theorem kept_step {s t : Phone} {e : Event} (h : Kept s) (hstep : step s e = some t) : Kept t := by
  cases e with
  | launch =>
    obtain rfl := Option.some.inj hstep
    exact ⟨layered_launch s.app, nofun, nofun, nofun⟩
  | willDeactivate =>
    obtain rfl := Option.some.inj hstep
    obtain ⟨hcovers, hpass⟩ := openPasscodeLock_covers s.app
    exact h.covers ⟨hcovers.made, hcovers.stack⟩ rfl (fun hset => hpass.symm ▸ hset)
      (List.Subset.refl _)
  | lockDidAppear lock =>
    obtain ⟨hlock, hstep⟩ := Option.ite_none_right_eq_some.mp hstep
    obtain rfl := Option.some.inj hstep
    obtain ⟨hcovers, hpass⟩ := lockDidAppear_covers hlock
    exact h.covers hcovers rfl (fun hset => hpass.symm ▸ hset) (List.Subset.refl _)
  | present presenter children =>
    obtain rfl := Option.some.inj hstep
    exact h.present presenter children
  | dismiss c =>
    obtain rfl := Option.some.inj hstep
    exact h.dismiss c
  | openSettings =>
    obtain ⟨_, hstep⟩ := Option.ite_none_right_eq_some.mp hstep
    obtain rfl := Option.some.inj hstep
    exact h.openSettings
  | passcodeSwitch =>
    simp only [step] at hstep
    split at hstep
    · rename_i settings isOn _
      obtain ⟨⟨hopen, hfront⟩, hstep⟩ := Option.ite_none_right_eq_some.mp hstep
      obtain rfl := Option.some.inj hstep
      cases isOn with
      | false => exact h.newPasscode hopen hfront
      | true => exact h.removePasscode hopen settings
    · cases hstep
  | numberTapped number =>
    obtain ⟨pad, hpad, rfl⟩ := Option.map_eq_some_iff.mp hstep
    exact h.numberTapped hpad number
  | delete =>
    simp only [step] at hstep
    split at hstep
    · obtain ⟨_, hstep⟩ := Option.ite_none_left_eq_some.mp hstep
      obtain rfl := Option.some.inj hstep
      exact h.update _ _
    · cases hstep
  | pressCloseButton =>
    simp only [step] at hstep
    split at hstep
    · obtain rfl := Option.some.inj hstep
      exact (h.dismiss _).covers (.same rfl) rfl id (List.Subset.refl _)
    · obtain rfl := Option.some.inj hstep
      exact (h.dismiss _).covers (.same rfl) rfl id (List.Subset.refl _)
    · cases hstep
    · cases hstep
  | shaken pad =>
    obtain ⟨_, hstep⟩ := Option.ite_none_right_eq_some.mp hstep
    obtain rfl := Option.some.inj hstep
    exact h.update _ _
  | elapsed i =>
    obtain ⟨pad, hi, rfl⟩ := Option.map_eq_some_iff.mp hstep
    exact h.elapsed hi
  | completed i =>
    obtain ⟨c, _, rfl⟩ := Option.map_eq_some_iff.mp hstep
    have hwaits : Kept { s with completions := s.completions.eraseIdx i } :=
      h.covers (.same rfl) rfl id (List.Subset.refl _)
    exact hwaits.completion c.1 c.2

theorem kept_new : Kept new := by
  have hlayered : Layered (start none false) := layered_launch _
  exact ⟨hlayered, nofun, nofun, nofun⟩

theorem kept_run {es : List Event} {s : Phone} (hr : run step new es = some s) : Kept s :=
  run_invariant (fun _ _ _ => kept_step) hr kept_new

/-- A digit completes a pin on a pad. -/
def Enters (pad : Pad) (pin : String) (s : Phone) (e : Event) : Prop :=
  s.frontPad = some pad ∧
    ∃ number, e = .numberTapped number ∧ ((s.pads pad).numberTapped number).2 = some pin

/-- What a step does to the new passcode and to the stored one. -/
inductive Turn (s : Phone) (e : Event) (t : Phone) : Prop
  | same : t.flow = s.flow → t.app.passcode = s.app.passcode → Turn s e t
  | fresh : (∀ f ∈ t.flow, f.inputPasscode = none) → t.app.passcode = s.app.passcode → Turn s e t
  | removed : t.flow = s.flow → t.app.passcode = none → Turn s e t
  | entered {nvc settings : Nat} {pin : String} : Enters (.first nvc settings) pin s e →
      t.flow = some ⟨nvc, settings, some pin⟩ → t.app.passcode = s.app.passcode → Turn s e t
  | confirmed {nvc settings : Nat} {pin : String} : Enters (.confirm nvc settings) pin s e →
      s.flow = some ⟨nvc, settings, some pin⟩ → Shown s nvc → t.flow = s.flow →
      t.app.passcode = some pin → Turn s e t

section Turn

variable {s t : Phone} {e : Event}

theorem present_turn (s : Phone) (presenter children : Nat) :
    (s.present presenter children).flow = s.flow ∧
      (s.present presenter children).app.passcode = s.app.passcode := by
  unfold Phone.present
  split <;> exact ⟨rfl, rfl⟩

theorem completion_turn (s : Phone) (settings : Nat) (isSuccess : Bool) :
    (s.completion settings isSuccess).flow = s.flow ∧
      (s.completion settings isSuccess).app.passcode = s.app.passcode := by
  unfold Phone.completion
  split
  · cases isSuccess with
    | false => exact ⟨rfl, rfl⟩
    | true => exact present_turn _ settings 0
  · exact ⟨rfl, rfl⟩

theorem launch_passcode (a : App) : a.launch.passcode = a.passcode := by
  unfold App.launch App.displayPasscodeLockScreenIfNeeded
  split
  · rename_i hpass
    exact (presentLock_covers hpass.1 0).2
  · rfl

theorem numberTapped_turn {pad : Pad} (hpad : s.frontPad = some pad) (number : Fin 10) :
    Turn s (.numberTapped number) (s.numberTapped pad number) := by
  obtain ⟨v, heq | ⟨pin, hpin, heq⟩⟩ := numberTapped_cases s pad number
  · exact heq ▸ .same rfl rfl
  rw [heq]
  have henters : Enters pad pin s (.numberTapped number) := ⟨hpad, number, rfl, hpin⟩
  cases pad with
  | first nvc settings => exact .entered henters rfl rfl
  | confirm nvc settings =>
    obtain ⟨hshown, input, hflow⟩ := flow_of_confirm hpad
    dsimp only [Phone.isPinValid]
    split
    · rename_i hsame
      have hsame : s.flow.bind Flow.inputPasscode = some pin := hsame
      rw [hflow] at hsame
      obtain rfl : input = pin := Option.some.inj hsame
      exact .confirmed henters hflow hshown rfl rfl
    · exact .same rfl rfl
  | lock lock c =>
    dsimp only [Phone.isPinValid]
    split
    · exact .same rfl (isPinValid_covers s.app lock pin).2
    · exact .same rfl rfl

theorem step_turn (hstep : step s e = some t) : Turn s e t := by
  cases e with
  | launch =>
    obtain rfl := Option.some.inj hstep
    exact .fresh nofun (launch_passcode s.app)
  | willDeactivate =>
    obtain rfl := Option.some.inj hstep
    exact .same rfl (openPasscodeLock_covers s.app).2
  | lockDidAppear lock =>
    obtain ⟨hlock, hstep⟩ := Option.ite_none_right_eq_some.mp hstep
    obtain rfl := Option.some.inj hstep
    exact .same rfl (lockDidAppear_covers hlock).2
  | present presenter children =>
    obtain rfl := Option.some.inj hstep
    exact .same (present_turn s presenter children).1 (present_turn s presenter children).2
  | dismiss c =>
    obtain rfl := Option.some.inj hstep
    exact .same rfl rfl
  | openSettings =>
    obtain ⟨_, hstep⟩ := Option.ite_none_right_eq_some.mp hstep
    obtain rfl := Option.some.inj hstep
    exact .same (present_turn s _ 1).1 (present_turn s _ 1).2
  | passcodeSwitch =>
    simp only [step] at hstep
    split at hstep
    · rename_i settings isOn _
      obtain ⟨_, hstep⟩ := Option.ite_none_right_eq_some.mp hstep
      obtain rfl := Option.some.inj hstep
      cases isOn with
      | false =>
        refine .fresh (fun f hf => ?_) (present_turn s settings 1).2
        obtain rfl := Option.some.inj hf
        rfl
      | true => exact .removed rfl rfl
    · cases hstep
  | numberTapped number =>
    obtain ⟨pad, hpad, rfl⟩ := Option.map_eq_some_iff.mp hstep
    exact numberTapped_turn hpad number
  | delete =>
    simp only [step] at hstep
    split at hstep
    · obtain ⟨_, hstep⟩ := Option.ite_none_left_eq_some.mp hstep
      obtain rfl := Option.some.inj hstep
      exact .same rfl rfl
    · cases hstep
  | pressCloseButton =>
    simp only [step] at hstep
    split at hstep
    · obtain rfl := Option.some.inj hstep
      exact .same rfl rfl
    · obtain rfl := Option.some.inj hstep
      exact .same rfl rfl
    · cases hstep
    · cases hstep
  | shaken pad =>
    obtain ⟨_, hstep⟩ := Option.ite_none_right_eq_some.mp hstep
    obtain rfl := Option.some.inj hstep
    exact .same rfl rfl
  | elapsed i =>
    obtain ⟨pad, _, rfl⟩ := Option.map_eq_some_iff.mp hstep
    cases pad <;> exact .same rfl rfl
  | completed i =>
    obtain ⟨c, _, rfl⟩ := Option.map_eq_some_iff.mp hstep
    exact .same (completion_turn _ c.1 c.2).1 (completion_turn _ c.1 c.2).2

end Turn

/-- The pin was entered on a first pad, and then again on the pad that confirms it. -/
def TypedTwice (pin : String) (es : List Event) : Prop := ∃ nvc settings,
  Past step new (fun before s e => Enters (.confirm nvc settings) pin s e ∧
    Past step new (fun _ s e => Enters (.first nvc settings) pin s e) before) es

structure Told (es : List Event) (s : Phone) : Prop where
  entered : ∀ f ∈ s.flow, ∀ pin ∈ f.inputPasscode,
    Past step new (fun _ s e => Enters (.first f.nvc f.settings) pin s e) es
  typed : ∀ pin, s.app.passcode = some pin → TypedTwice pin es

theorem TypedTwice.later {pin : String} {es : List Event} (h : TypedTwice pin es) (e : Event) :
    TypedTwice pin (es ++ [e]) := by
  obtain ⟨nvc, settings, hpast⟩ := h
  exact ⟨nvc, settings, hpast.later e⟩

theorem told_step {es : List Event} {s t : Phone} {e : Event} (hr : run step new es = some s)
    (told : Told es s) (hstep : step s e = some t) : Told (es ++ [e]) t := by
  have hentered : ∀ f ∈ s.flow, ∀ pin ∈ f.inputPasscode,
      Past step new (fun _ s e => Enters (.first f.nvc f.settings) pin s e) (es ++ [e]) :=
    fun f hf pin hpin => (told.entered f hf pin hpin).later e
  have htyped : ∀ pin, s.app.passcode = some pin → TypedTwice pin (es ++ [e]) :=
    fun pin hpin => (told.typed pin hpin).later e
  cases step_turn hstep with
  | same hflow hpass => exact ⟨hflow ▸ hentered, hpass ▸ htyped⟩
  | fresh hflow hpass =>
    refine ⟨fun f hf pin hpin => ?_, hpass ▸ htyped⟩
    rw [hflow f hf] at hpin
    cases hpin
  | removed hflow hpass =>
    refine ⟨hflow ▸ hentered, fun pin hpin => ?_⟩
    rw [hpass] at hpin
    cases hpin
  | entered henters hflow hpass =>
    refine ⟨fun f hf pin hpin => ?_, hpass ▸ htyped⟩
    obtain rfl := Option.some.inj (hflow.symm.trans hf)
    obtain rfl := Option.some.inj hpin
    exact past_now hr henters
  | confirmed henters hflow _ hsame hpass =>
    refine ⟨hsame ▸ hentered, fun pin hpin => ?_⟩
    obtain rfl := Option.some.inj (hpass.symm.trans hpin)
    exact ⟨_, _, past_now hr ⟨henters, told.entered _ hflow _ rfl⟩⟩

theorem told_new : Told [] new := by
  have hflow : new.flow = none := rfl
  have hpass : new.app.passcode = none := rfl
  constructor
  · simp [hflow]
  · simp [hpass]

theorem told_run {es : List Event} {s : Phone} (hr : run step new es = some s) : Told es s :=
  run_past (Q := Told) told_new (fun _ _ _ _ hr told hstep => told_step hr told hstep) hr

/-- Whatever passcode is stored was entered on both pads, and one is stored where there was none
only while the 0.3 seconds of the first pad are running. -/
theorem typed_twice (es : List Event) (s : Phone) (hr : run step new es = some s) :
    (∀ pin, s.app.passcode = some pin → TypedTwice pin es) ∧
      ∀ e t pin, step s e = some t → s.app.passcode = none → t.app.passcode = some pin →
        ∃ nvc settings, Enters (.confirm nvc settings) pin s e ∧
          .first nvc settings ∈ s.timers := by
  refine ⟨(told_run hr).typed, fun e t pin hstep hnone hpass => ?_⟩
  have hkept := kept_run hr
  cases step_turn hstep with
  | same _ hsame | fresh _ hsame | entered _ _ hsame =>
    rw [hsame, hnone] at hpass
    cases hpass
  | removed _ hremoved =>
    rw [hremoved] at hpass
    cases hpass
  | confirmed henters hflow hshown _ hconfirmed =>
    obtain rfl := Option.some.inj (hconfirmed.symm.trans hpass)
    exact ⟨_, _, henters, hkept.waits _ hflow rfl hshown hnone⟩

def IsTouch : Event → Bool
  | .passcodeSwitch | .numberTapped _ | .delete | .pressCloseButton => true
  | _ => false

section Touches

variable {s : Phone} {pad : Pad}

@[simp] theorem pads_update (s : Phone) (pad : Pad) (v : PinView) :
    (s.update pad v).pads pad = v := Function.update_self (f := s.pads) ..

theorem update_update (s : Phone) (pad : Pad) (v w : PinView) :
    (s.update pad v).update pad w = s.update pad w := by
  simp [Phone.update]

theorem tap_step (hpad : s.frontPad = some pad) (number : Fin 10)
    (hlength : (s.pads pad).input.length + 1 < pinLength) :
    ∃ v, v.input = (s.pads pad).input ++ [number] ∧
      step s (.numberTapped number) = some (s.update pad v) := by
  refine ⟨{ s.pads pad with input := (s.pads pad).input ++ [number] }, rfl, ?_⟩
  have hshort : ¬ (s.pads pad).input.length ≥ pinLength := by omega
  simp [step, hpad, Phone.numberTapped, PinView.numberTapped, hshort, hlength]

theorem tap_last (hpad : s.frontPad = some pad) (number : Fin 10)
    (hlength : (s.pads pad).input.length + 1 = pinLength) :
    ∃ v, step s (.numberTapped number) =
      some ((s.update pad v).isPinValid (text ((s.pads pad).input ++ [number])) pad) := by
  refine ⟨{ s.pads pad with input := (s.pads pad).input ++ [number] }, ?_⟩
  have hshort : ¬ (s.pads pad).input.length ≥ pinLength := by omega
  simp [step, hpad, Phone.numberTapped, PinView.numberTapped, hshort, hlength]

theorem run_taps (rest : List (Fin 10)) {s : Phone} (hpad : s.frontPad = some pad) (hne : rest ≠ [])
    (hlength : (s.pads pad).input.length + rest.length = pinLength) :
    ∃ v, run step s (rest.map .numberTapped) =
      some ((s.update pad v).isPinValid (text ((s.pads pad).input ++ rest)) pad) := by
  induction rest generalizing s with
  | nil => exact absurd rfl hne
  | cons number rest ih =>
    rw [List.length_cons] at hlength
    cases rest with
    | nil =>
      obtain ⟨v, hstep⟩ := tap_last hpad number (by simpa using hlength)
      exact ⟨v, run_cons.mpr ⟨_, hstep, rfl⟩⟩
    | cons next rest =>
      obtain ⟨v, hinput, hstep⟩ := tap_step hpad number (by
        rw [List.length_cons] at hlength
        omega)
      have hpad' : (s.update pad v).frontPad = some pad := hpad
      have hinput' : ((s.update pad v).pads pad).input = (s.pads pad).input ++ [number] := by
        rw [pads_update, hinput]
      obtain ⟨w, hrun⟩ := ih hpad' (List.cons_ne_nil _ _) (by
        rw [hinput', List.length_append, List.length_singleton]
        omega)
      rw [hinput', List.append_assoc, List.singleton_append, update_update] at hrun
      exact ⟨w, run_cons.mpr ⟨_, hstep, hrun⟩⟩

theorem run_deletes (hpad : s.frontPad = some pad) :
    ∃ n v, v.input = [] ∧ run step s (List.replicate n .delete) = some (s.update pad v) := by
  induction hn : (s.pads pad).input.length generalizing s with
  | zero =>
    have hempty := List.eq_nil_of_length_eq_zero hn
    refine ⟨0, s.pads pad, hempty, ?_⟩
    simp [run, Phone.update]
  | succ n ih =>
    have hne : (s.pads pad).input ≠ [] := by
      intro hempty
      simp [hempty] at hn
    have hstep : step s .delete = some (s.update pad (s.pads pad).delete) := by
      simp only [step, hpad]
      rw [if_neg hne]
    have hshorter : ((s.update pad (s.pads pad).delete).pads pad).input.length = n := by
      rw [pads_update]
      unfold PinView.delete PinView.resetInput
      split
      · simp only [List.length_nil]
        omega
      · simp only [List.length_dropLast]
        omega
    have hpad' : (s.update pad (s.pads pad).delete).frontPad = some pad := hpad
    obtain ⟨m, v, hempty, hrun⟩ := ih hpad' hshorter
    rw [update_update] at hrun
    exact ⟨m + 1, v, hempty, run_cons.mpr ⟨_, hstep, hrun⟩⟩

theorem run_entered (hpad : s.frontPad = some pad) {input : List (Fin 10)}
    (hlength : input.length = pinLength) :
    ∃ touches v, (∀ e ∈ touches, IsTouch e = true) ∧
      run step s touches = some ((s.update pad v).isPinValid (text input) pad) := by
  obtain ⟨n, v, hempty, hdeletes⟩ := run_deletes hpad
  have hpad' : (s.update pad v).frontPad = some pad := hpad
  have hinput : ((s.update pad v).pads pad).input = [] := by rw [pads_update, hempty]
  have hne : input ≠ [] := by
    rintro rfl
    cases hlength
  obtain ⟨w, htaps⟩ := run_taps input hpad' hne (by
    rw [hinput, List.length_nil]
    omega)
  rw [hinput, List.nil_append, update_update] at htaps
  refine ⟨_, w, fun e he => ?_, run_append hdeletes htaps⟩
  rcases List.mem_append.mp he with he | he
  · rw [List.eq_of_mem_replicate he]
    rfl
  · obtain ⟨_, _, rfl⟩ := List.mem_map.mp he
    rfl

end Touches

theorem four_digits {v : PinView} {number : Fin 10} {pin : String}
    (h : (v.numberTapped number).2 = some pin) :
    ∃ input : List (Fin 10), input.length = pinLength ∧ pin = text input := by
  unfold PinView.numberTapped at h
  split at h
  · cases h
  · rename_i hshort
    dsimp only at h
    obtain ⟨hlong, heq⟩ := Option.ite_none_left_eq_some.mp h
    refine ⟨v.input ++ [number], ?_, (Option.some.inj heq).symm⟩
    rw [List.length_append, List.length_singleton] at hlong ⊢
    omega

theorem TypedTwice.four_digits {pin : String} {es : List Event} (h : TypedTwice pin es) :
    ∃ input : List (Fin 10), input.length = pinLength ∧ pin = text input := by
  obtain ⟨_, _, _, _, _, _, _, _, ⟨_, _, _, hpin⟩, _⟩ := h
  exact Setting.four_digits hpin

/-- Four digits on the pad of a lock are a pin that is entered into it. -/
theorem isPinValid_lock (s : Phone) (lock c : Nat) (pin : String) :
    (s.isPinValid pin (.lock lock c)).app = s.app.isPinValid lock pin := by
  dsimp only [Phone.isPinValid]
  split
  · rfl
  · rename_i hwrong
    unfold App.isPinValid
    rw [if_neg hwrong]
    rfl

theorem isPinValid_opens {a : App} {lock c : Nat} {pin : String} {below : List (Controller Screen)}
    (hpass : a.passcode = some pin)
    (hstack : a.stack.controllers = ⟨c, .pin lock⟩ :: ⟨lock, .lock⟩ :: below) :
    (a.isPinValid lock pin).isShowingPasscordLockView = false ∧
      (a.isPinValid lock pin).stack.controllers = ⟨lock, .lock⟩ :: below := by
  have hne : c ≠ lock := by
    have hnodup := a.stack.nodup
    rw [hstack, List.map_cons, List.nodup_cons] at hnodup
    rintro rfl
    exact hnodup.1 List.mem_cons_self
  unfold App.isPinValid
  rw [if_pos hpass.symm]
  refine ⟨rfl, ?_⟩
  show dropped lock a.stack.controllers = ⟨lock, .lock⟩ :: below
  rw [hstack, dropped, if_neg hne, if_pos (.inr ⟨_, List.mem_cons_self, rfl⟩)]
  exact List.dropWhile_cons_of_neg (by simp)

theorem opened_leaves {a : App} {lock : Nat} {below : List (Controller Screen)}
    (hflag : a.isShowingPasscordLockView = false)
    (hstack : a.stack.controllers = ⟨lock, .lock⟩ :: below) :
    (a.lockDidAppear lock).isShowingPasscordLockView = false ∧
      (a.lockDidAppear lock).stack.controllers = below := by
  have hclosed : (a.close lock).stack.controllers = below := by
    show dropped lock a.stack.controllers = below
    rw [hstack, dropped, if_pos rfl]
  unfold App.lockDidAppear
  split
  · exact ⟨hflag, hclosed⟩
  · rw [hflag]
    exact ⟨hflag, hclosed⟩

theorem Kept.lock_beneath {s : Phone} (h : Kept s) {lock c : Nat}
    (hpad : s.frontPad = some (.lock lock c)) : ∃ below,
      s.app.stack.controllers = ⟨c, .pin lock⟩ :: ⟨lock, .lock⟩ :: below := by
  rcases frontPad_cases hpad with ⟨lock', c', below, heq, hstack⟩ | ⟨f, -, heq, -⟩
  · cases heq
    have hover := h.layered.built
    rw [hstack] at hover
    obtain ⟨⟨x, hx, rfl, hkind⟩, -⟩ := hover
    cases below with
    | nil => cases hx
    | cons y below =>
      obtain rfl := Option.some.inj hx
      obtain ⟨id, kind⟩ := y
      cases hkind
      exact ⟨below, hstack⟩
  · unfold Flow.pad at heq
    split at heq <;> cases heq

/-- Wherever the pad of a lock is in front, touches of the pad open it, and it leaves when it
next appears; other pins leave the program as it is. -/
theorem never_locked_out (es : List Event) (s : Phone) (lock c : Nat)
    (hr : run step new es = some s) (hpad : s.frontPad = some (.lock lock c)) :
    (∃ touches t, (∀ e ∈ touches, IsTouch e = true) ∧
      run step s (touches ++ [.lockDidAppear lock]) = some t ∧
      t.app.isShowingPasscordLockView = false ∧
      s.app.stack.controllers = ⟨c, .pin lock⟩ :: ⟨lock, .lock⟩ :: t.app.stack.controllers) ∧
    ∀ input : List (Fin 10), input.length = pinLength → s.app.passcode ≠ some (text input) →
      ∃ touches t, (∀ e ∈ touches, IsTouch e = true) ∧ run step s touches = some t ∧
        t.app = s.app := by
  have hkept := kept_run hr
  obtain ⟨below, hstack⟩ := hkept.lock_beneath hpad
  constructor
  · obtain ⟨pin, hpass⟩ := Option.ne_none_iff_exists'.mp
      (hkept.layered.set ⟨c, .pin lock⟩ (hstack ▸ List.mem_cons_self) rfl)
    obtain ⟨input, hlength, rfl⟩ := ((told_run hr).typed pin hpass).four_digits
    obtain ⟨touches, v, htouches, hrun⟩ := run_entered hpad hlength
    generalize hm : (s.update (.lock lock c) v).isPinValid (text input) (.lock lock c) = m at hrun
    have happ : m.app = s.app.isPinValid lock (text input) := by
      rw [← hm, isPinValid_lock]
      rfl
    obtain ⟨hflag, hopened⟩ := isPinValid_opens hpass hstack
    rw [← happ] at hflag hopened
    have hlock : lock ∈ m.app.locks := by
      simp [App.locks, hopened]
    obtain ⟨hflag', hleft⟩ := opened_leaves hflag hopened
    refine ⟨touches, { m with app := m.app.lockDidAppear lock }, htouches, ?_, hflag', ?_⟩
    · exact run_append hrun (run_cons.mpr ⟨_, if_pos hlock, rfl⟩)
    · rw [hstack]
      exact congrArg _ (congrArg _ hleft.symm)
  · intro input hlength hwrong
    obtain ⟨touches, v, htouches, hrun⟩ := run_entered hpad hlength
    refine ⟨touches, _, htouches, hrun, ?_⟩
    rw [isPinValid_lock]
    exact if_neg (Ne.symm hwrong)

/-- Nothing is touched while a pad's 0.3 seconds run. -/
def Unhurried (s : Phone) (e : Event) : Prop := IsTouch e = true → s.timers = []

instance (s : Phone) (e : Event) : Decidable (Unhurried s e) :=
  inferInstanceAs (Decidable (_ → _))

theorem unset_step {s t : Phone} {e : Event} (h : Kept s ∧ s.app.passcode = none)
    (unhurried : Unhurried s e) (hstep : step s e = some t) : Kept t ∧ t.app.passcode = none := by
  obtain ⟨hkept, hnone⟩ := h
  refine ⟨kept_step hkept hstep, ?_⟩
  cases step_turn hstep with
  | same _ hpass | fresh _ hpass | entered _ _ hpass => exact hpass.trans hnone
  | removed _ hpass => exact hpass
  | confirmed henters hflow hshown _ _ =>
    obtain ⟨-, number, rfl, -⟩ := henters
    have hwaits := hkept.waits _ hflow rfl hshown hnone
    rw [unhurried rfl] at hwaits
    cases hwaits

theorem newPasscode_front {s : Phone} {settings : Nat} (hopen : s.Open)
    (hfront : s.app.stack.front = settings) :
    (s.newPasscode settings).app.stack.controllers =
        ⟨s.app.stack.made + 1, .ordinary 1⟩ :: s.app.stack.controllers ∧
      (s.newPasscode settings).frontPad = some (.first (s.app.stack.made + 1) settings) ∧
      ((s.newPasscode settings).pads (.first (s.app.stack.made + 1) settings)).input = [] ∧
      (s.newPasscode settings).timers = s.timers := by
  obtain ⟨hstack, -⟩ := presented hopen hfront 1
  have hnvc : (s.present settings 1).app.stack.front = s.app.stack.made + 1 := by
    rw [Stack.front, hstack]
    rfl
  have htimers : (s.present settings 1).timers = s.timers := by
    unfold Phone.present
    split <;> rfl
  have hstack' : (s.newPasscode settings).app.stack.controllers =
      ⟨s.app.stack.made + 1, .ordinary 1⟩ :: s.app.stack.controllers := hstack
  refine ⟨hstack', ?_, ?_, htimers⟩
  · unfold Phone.frontPad
    rw [hstack']
    simp [Phone.newPasscode, hnvc, Flow.pad]
  · simp [Phone.newPasscode, hnvc, Flow.pad]

/-- Turning the switch on and entering four digits ends with the switch on, once the first pad
has gone. -/
theorem attempt_ends {s : Phone} {settings : Nat} (hsettings : s.settings = some (settings, false))
    (hopen : s.Open) (hfront : s.app.stack.front = settings) (htimers : s.timers = [])
    {input : List (Fin 10)} (hlength : input.length = pinLength) :
    ∃ t, run step s (.passcodeSwitch :: (input.map .numberTapped ++ [.elapsed 0])) = some t ∧
      t.settings = some (settings, true) ∧ t.app.passcode = s.app.passcode ∧
      t.app.stack.controllers = s.app.stack.controllers ∧ t.timers = [] := by
  obtain ⟨hstack, hpad, hempty, hsame⟩ := newPasscode_front hopen hfront
  have hswitch : step s .passcodeSwitch = some (s.newPasscode settings) := by
    simp [step, hsettings, hopen, hfront]
  have hne : input ≠ [] := by
    rintro rfl
    cases hlength
  obtain ⟨v, htaps⟩ := run_taps input hpad hne (by
    rw [hempty, List.length_nil]
    omega)
  generalize hm : ((s.newPasscode settings).update (.first (s.app.stack.made + 1) settings)
    v).isPinValid (text _) (.first (s.app.stack.made + 1) settings) = m at htaps
  have hwaits : m.timers = [.first (s.app.stack.made + 1) settings] := by
    rw [← hm]
    show (s.newPasscode settings).timers ++ _ = _
    rw [hsame, htimers]
    rfl
  have hunder : m.app.stack.controllers =
      ⟨s.app.stack.made + 1, .ordinary 1⟩ :: s.app.stack.controllers := by
    rw [← hm]
    exact hstack
  have helapsed : step m (.elapsed 0) =
      some ({ m with timers := [] }.dismiss (s.app.stack.made + 1)) := by
    simp [step, hwaits, Phone.correctPinWasEntered]
  refine ⟨_, run_cons.mpr ⟨_, hswitch, run_append htaps (run_cons.mpr ⟨_, helapsed, rfl⟩)⟩,
    ?_, ?_, ?_, rfl⟩
  · rw [← hm]
    rfl
  · rw [← hm]
    exact (present_turn s settings 1).2
  · show dropped (s.app.stack.made + 1) m.app.stack.controllers = s.app.stack.controllers
    rw [hunder, dropped, if_pos rfl]

/-- In a run at an ordinary pace no passcode is ever stored and no lock comes up; and each time
the switch is turned on and four digits are entered, it stays on. -/
theorem unhurried_run (es : List Event) (s : Phone) (unhurried : Along step Unhurried new es)
    (hr : run step new es = some s) :
    s.app.passcode = none ∧ (∀ c ∈ s.app.stack.controllers, c.kind.isOrdinary = true) ∧
      ∀ settings, s.settings = some (settings, false) → s.Open → s.app.stack.front = settings →
        s.timers = [] → ∀ input : List (Fin 10), input.length = pinLength →
          ∃ t, run step s (.passcodeSwitch :: (input.map .numberTapped ++ [.elapsed 0])) = some t ∧
            t.settings = some (settings, true) ∧ t.app.passcode = none ∧
            t.app.stack.controllers = s.app.stack.controllers ∧ t.timers = [] := by
  obtain ⟨hkept, hnone⟩ := run_keeps (P := fun s => Kept s ∧ s.app.passcode = none)
    (fun _ _ _ h hg hstep => unset_step h hg hstep) unhurried hr ⟨kept_new, rfl⟩
  refine ⟨hnone, fun c hc => ?_, fun settings hsettings hopen hfront htimers input hlength => ?_⟩
  · by_contra hk
    exact hkept.layered.set c hc (Bool.eq_false_of_not_eq_true hk) hnone
  · rw [← hnone]
    exact attempt_ends hsettings hopen hfront htimers hlength

section Example

/-- The settings are opened and the switch is turned on. -/
private def begun : List Event := [.openSettings, .passcodeSwitch]

/-- 1234 is entered. -/
private def digits : List Event :=
  [.numberTapped 1, .numberTapped 2, .numberTapped 3, .numberTapped 4]

/-- It is entered again before the first pad goes, the settings are told, and the lock comes. -/
private def hurried : List Event :=
  begun ++ digits ++ digits ++
    [.elapsed 0, .elapsed 0, .completed 0, .willDeactivate, .lockDidAppear 4]

theorem typed_twice_hurried : ∃ s, run step new hurried = some s ∧
    s.app.passcode = some "1234" ∧ TypedTwice "1234" hurried := by
  have hseen : (run step new hurried).map (fun s => s.app.passcode) = some (some "1234") := by
    decide
  obtain ⟨s, hr, hpass⟩ := Option.map_eq_some_iff.mp hseen
  exact ⟨s, hr, hpass, (typed_twice hurried s hr).1 "1234" hpass⟩

theorem never_locked_out_hurried : ∃ s, run step new hurried = some s ∧
    ∃ touches t, run step s (touches ++ [.lockDidAppear 4]) = some t ∧
      t.app.isShowingPasscordLockView = false := by
  have hseen : (run step new hurried).map Phone.frontPad = some (some (.lock 4 5)) := by
    decide
  obtain ⟨s, hr, hpad⟩ := Option.map_eq_some_iff.mp hseen
  obtain ⟨⟨touches, t, -, hrun, hflag, -⟩, -⟩ := never_locked_out hurried s 4 5 hr hpad
  exact ⟨s, hr, touches, t, hrun, hflag⟩

theorem unhurried_run_begun : ∃ s, run step new (begun ++ digits ++ [.elapsed 0]) = some s ∧
    s.settings = some (1, true) ∧ s.app.passcode = none := by
  have hseen : (run step new (begun ++ digits ++ [.elapsed 0])).map Phone.settings =
      some (some (1, true)) := by
    decide
  obtain ⟨s, hr, hsettings⟩ := Option.map_eq_some_iff.mp hseen
  exact ⟨s, hr, hsettings, (unhurried_run _ s (by decide) hr).1⟩

end Example

end PlateChat.Passcode.Setting
