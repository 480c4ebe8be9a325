/- PlateChat/Passcode/Lock
   digest: The passcode lock on the presentation stack, and how long it stays there. -/

import PlateChat.Foundation.Presentation
import PlateChat.Foundation.Run

set_option autoImplicit false
set_option relaxedAutoImplicit false

/-!
The lock is a modal controller like any other, presented on whatever is in front when
the scene is deactivated. A persisted flag says that it is showing: its view sets the
flag when it loads, and a right pin clears it before the lock itself is dismissed.
-/

namespace PlateChat.Passcode.Lock

open PlateChat.Foundation.Run PlateChat.Foundation.Presentation

/-- The controllers of the program: ordinary ones with their children, the lock, and the
pin pad that a lock presents. -/
inductive Screen
  | ordinary (children : Nat)
  | lock
  | pin (lock : Nat)
  deriving DecidableEq

/-- The lock is only ever presented, never made a child. -/
def Screen.children : Screen → List Screen
  | .ordinary children => List.replicate children (.ordinary 0)
  | .lock | .pin _ => []

def Screen.isOrdinary : Screen → Bool
  | .ordinary _ => true
  | .lock | .pin _ => false

/-- The program as far as the lock depends on it. `due` says that the scene has been
deactivated with a passcode set and no right pin has been entered since; `opened` lists
the locks that were on the stack when a right pin was entered. -/
structure App where
  passcode : Option String
  isShowingPasscordLockView : Bool
  stack : Stack Screen
  due : Bool := false
  opened : List Nat := []

namespace App

def hasPasscode (a : App) : Bool :=
  match a.passcode with
  | some pass => pass ≠ ""
  | none => false

/-- The kind of the frontmost controller; the root is an ordinary one. -/
def frontKind (a : App) : Screen := (a.stack.controllers.head?.map Controller.kind).getD (.ordinary 0)

/-- The view of the lock loads as it is presented, and sets the flag. -/
def presentLock (a : App) (presenter : Nat) : App :=
  if a.stack.front = presenter then { a with
    stack := a.stack.present presenter .lock
    isShowingPasscordLockView := true }
  else a

def openPasscodeLock (a : App) : App :=
  if a.hasPasscode ∧ ¬ a.isShowingPasscordLockView then
    if a.frontKind.children.any (· = .lock) then a else a.presentLock a.stack.front
  else a

/-- The home screen presents the lock as its view loads. -/
def displayPasscodeLockScreenIfNeeded (a : App) : App :=
  if a.hasPasscode ∧ ¬ a.isShowingPasscordLockView then a.presentLock 0 else a

/-- A new process: nothing is presented, and the flag is reset. -/
def launch (a : App) : App :=
  displayPasscodeLockScreenIfNeeded { a with
    isShowingPasscordLockView := false
    stack := Stack.bare a.stack.made }

/-- `appWillResignActive`. -/
def willDeactivate (a : App) : App :=
  { a.openPasscodeLock with due := a.due || a.hasPasscode }

def close (a : App) (lock : Nat) : App := { a with stack := a.stack.dismiss lock }

/-- `viewDidAppear` of a lock: the pin pad while the flag is set, the way out otherwise. -/
def lockDidAppear (a : App) (lock : Nat) : App :=
  match a.passcode with
  | none => a.close lock
  | some _ =>
    if a.isShowingPasscordLockView then { a with stack := a.stack.present lock (.pin lock) }
    else a.close lock

def locks (a : App) : List Nat :=
  (a.stack.controllers.filter fun c => c.kind = .lock).map Controller.id

/-- The lock decides on the pin entered in its pin pad. -/
def isPinValid (a : App) (lock : Nat) (pin : String) : App :=
  if some pin = a.passcode then
    { a with isShowingPasscordLockView := false, due := false, opened := a.locks }.close lock
  else a

end App

/-- `dismiss` is any call of the program on a controller, by its user or by the
completion of asynchronous work, other than a lock's own; `present` an ordinary
presentation; `setPasscode` what the settings screens store or remove. -/
inductive Event
  | launch
  | willDeactivate
  | didActivate
  | lockDidAppear (lock : Nat)
  | pinEntered (pin : String)
  | present (presenter children : Nat)
  | dismiss (c : Nat)
  | setPasscode (passcode : Option String)

open App in
/-- A touch reaches the frontmost controller only. -/
def step (a : App) : Event → Option App
  | .launch => some a.launch
  | .willDeactivate => some a.willDeactivate
  | .didActivate => some a
  | .lockDidAppear lock => if lock ∈ a.locks then some (a.lockDidAppear lock) else none
  | .pinEntered pin => match a.frontKind with
    | .pin lock => some (a.isPinValid lock pin)
    | .ordinary _ | .lock => none
  | .present presenter children =>
    if a.frontKind.isOrdinary then
      some { a with stack := a.stack.present presenter (.ordinary children) }
    else some a
  | .dismiss c => some { a with stack := a.stack.dismiss c }
  | .setPasscode passcode =>
    if a.frontKind.isOrdinary then some { a with passcode := passcode } else none

/-- The first launch after an earlier process has left `passcode` and the flag behind. -/
def start (passcode : Option String) (flag : Bool) : App :=
  ({ passcode := passcode, isShowingPasscordLockView := flag, stack := Stack.bare 0 } : App).launch

def OnStack (a : App) : Prop := ∃ c ∈ a.stack.controllers, c.kind = .lock

instance (a : App) : Decidable (OnStack a) :=
  inferInstanceAs (Decidable (∃ c ∈ a.stack.controllers, c.kind = .lock))

/-- No dismissal is called on the lock or on a controller beneath it. -/
def NotBeneath (a : App) : Event → Prop
  | .dismiss c => ∀ x ∈ onOrAbove c a.stack.controllers, x.kind ≠ .lock
  | _ => True

instance (a : App) : ∀ ev, Decidable (NotBeneath a ev)
  | .dismiss c => inferInstanceAs (Decidable (∀ x ∈ onOrAbove c a.stack.controllers, x.kind ≠ .lock))
  | .launch | .willDeactivate | .didActivate | .lockDidAppear _ | .pinEntered _ | .present _ _
  | .setPasscode _ => .isTrue trivial

/-- The lock stays until the right pin, the flag says that it is there, and a lock that is
there while the flag is clear has been opened and goes when it next appears in front. -/
structure Kept (a : App) : Prop where
  stays : a.due = true → OnStack a
  shown : a.isShowingPasscordLockView = true → OnStack a
  opened : a.isShowingPasscordLockView = false →
    ∀ c ∈ a.stack.controllers, c.kind = .lock → c.id ∈ a.opened
  closes : a.isShowingPasscordLockView = false →
    ∀ c ∈ a.stack.controllers.head?, c.kind = .lock →
      ∀ a' ∈ step a (.lockDidAppear c.id), c ∉ a'.stack.controllers

/-- No presented controller has a lock among its children, so the search never finds one. -/
theorem lock_never_child (k : Screen) : k.children.any (· = .lock) = false := by
  cases k with
  | ordinary children =>
    simp only [Screen.children, List.any_replicate, reduceCtorEq, decide_false, ite_self]
  | lock | pin => rfl

/-- Only locks and pin pads lie above a lock. -/
def Covered (controllers : List (Controller Screen)) : Prop :=
  controllers.Pairwise fun above below => below.kind = .lock → above.kind.isOrdinary = false

structure Inv (a : App) : Prop where
  covered : Covered a.stack.controllers
  shown : a.isShowingPasscordLockView = true → OnStack a
  set : a.isShowingPasscordLockView = true → a.hasPasscode = true
  due : a.due = true → a.isShowingPasscordLockView = true
  opened : a.isShowingPasscordLockView = false →
    ∀ c ∈ a.stack.controllers, c.kind = .lock → c.id ∈ a.opened

private theorem front_ordinary {a : App} (h : Covered a.stack.controllers)
    (hfront : a.frontKind.isOrdinary = true) : ¬ OnStack a := by
  rintro ⟨c, hc, hlock⟩
  unfold App.frontKind at hfront
  cases hs : a.stack.controllers with
  | nil =>
    rw [hs] at hc
    cases hc
  | cons front below =>
    rw [hs] at hc hfront h
    have hordinary : front.kind.isOrdinary = true := hfront
    rcases List.mem_cons.mp hc with rfl | hc
    · rw [hlock] at hordinary
      cases hordinary
    · rw [(List.pairwise_cons.mp h).1 c hc hlock] at hordinary
      cases hordinary

private theorem inv_clear {a : App} {stack : Stack Screen} (h : Inv a)
    (hflag : a.isShowingPasscordLockView = false)
    (hsub : stack.controllers.Sublist a.stack.controllers) : Inv { a with stack := stack } := by
  refine ⟨h.covered.sublist hsub, fun hshown => ?_, h.set, h.due, ?_⟩
  · rw [hflag] at hshown
    cases hshown
  · exact fun hclear c hc hlock => h.opened hclear c (hsub.subset hc) hlock

private theorem inv_presentLock {a : App} (hcovered : Covered a.stack.controllers)
    (hpass : a.hasPasscode = true) {presenter : Nat} (hfront : a.stack.front = presenter) :
    Inv (a.presentLock presenter) := by
  subst hfront
  have hstack : (a.stack.present a.stack.front .lock).controllers =
      ⟨a.stack.made + 1, .lock⟩ :: a.stack.controllers := Stack.present_front a.stack .lock
  unfold App.presentLock
  rw [if_pos rfl]
  refine ⟨?_, fun _ => ?_, fun _ => hpass, fun _ => rfl, fun hclear => nomatch hclear⟩
  · show Covered (a.stack.present a.stack.front .lock).controllers
    rw [hstack]
    exact List.pairwise_cons.mpr ⟨fun _ _ _ => rfl, hcovered⟩
  · show ∃ c ∈ (a.stack.present a.stack.front .lock).controllers, c.kind = .lock
    rw [hstack]
    exact ⟨_, List.mem_cons_self, rfl⟩

private theorem inv_launch {a : App} (hdue : a.due = true → a.hasPasscode = true) :
    Inv a.launch := by
  unfold App.launch App.displayPasscodeLockScreenIfNeeded
  split
  · rename_i hpass
    refine inv_presentLock ?_ hpass.1 rfl
    exact List.Pairwise.nil
  · rename_i hpass
    refine ⟨List.Pairwise.nil, fun h => (nomatch h), fun h => (nomatch h), fun h => ?_,
      fun _ c hc => (nomatch hc)⟩
    exact absurd ⟨hdue h, Bool.false_ne_true⟩ hpass

/-- A deactivation presents the lock exactly when a passcode is set and no lock is showing. -/
private theorem openPasscodeLock_eq (a : App) :
    a.openPasscodeLock = if a.hasPasscode ∧ ¬ a.isShowingPasscordLockView then
      a.presentLock a.stack.front else a := by
  unfold App.openPasscodeLock
  rw [lock_never_child]
  rfl

private theorem inv_willDeactivate {a : App} (h : Inv a) : Inv a.willDeactivate := by
  have hopened : Inv a.openPasscodeLock ∧
      (a.hasPasscode = true → a.openPasscodeLock.isShowingPasscordLockView = true) ∧
      (a.due = true → a.openPasscodeLock.isShowingPasscordLockView = true) := by
    rw [openPasscodeLock_eq]
    split
    · rename_i hpass
      have hshown : (a.presentLock a.stack.front).isShowingPasscordLockView = true := by
        unfold App.presentLock
        rw [if_pos rfl]
      exact ⟨inv_presentLock h.covered hpass.1 rfl, fun _ => hshown, fun _ => hshown⟩
    · rename_i hpass
      refine ⟨h, fun hset => ?_, h.due⟩
      by_contra hclear
      exact hpass ⟨hset, hclear⟩
  obtain ⟨hinv, hset, hdue⟩ := hopened
  refine ⟨hinv.covered, hinv.shown, hinv.set, fun h => ?_, hinv.opened⟩
  have hor : (a.due || a.hasPasscode) = true := h
  rcases Bool.or_eq_true_iff.mp hor with h | h
  · exact hdue h
  · exact hset h

private theorem inv_present {a : App} (h : Inv a) (presenter : Nat) (kind : Screen)
    (hkind : kind ≠ .lock) (hcovers : OnStack a → kind.isOrdinary = false) :
    Inv { a with stack := a.stack.present presenter kind } := by
  rcases Stack.present_cases a.stack presenter kind with hstack | hrefused
  · refine ⟨?_, fun hshown => ?_, h.set, h.due, fun hclear c hc hlock => ?_⟩
    · show Covered (a.stack.present presenter kind).controllers
      rw [hstack]
      refine List.pairwise_cons.mpr ⟨fun below hbelow hlock => ?_, h.covered⟩
      exact hcovers ⟨below, hbelow, hlock⟩
    · obtain ⟨c, hc, hlock⟩ := h.shown hshown
      refine ⟨c, ?_, hlock⟩
      show c ∈ (a.stack.present presenter kind).controllers
      rw [hstack]
      exact List.mem_cons_of_mem _ hc
    · have hmem : c ∈ (a.stack.present presenter kind).controllers := hc
      rw [hstack] at hmem
      rcases List.mem_cons.mp hmem with rfl | hmem
      · exact absurd hlock hkind
      · exact h.opened hclear c hmem hlock
  · rw [hrefused]
    exact h

private theorem inv_lockDidAppear {a : App} (h : Inv a) (lock : Nat) :
    Inv (a.lockDidAppear lock) := by
  have hclose : a.isShowingPasscordLockView = false → Inv (a.close lock) := fun hflag =>
    inv_clear h hflag (dropped_suffix lock a.stack.controllers).sublist
  unfold App.lockDidAppear
  split
  · rename_i hpass
    refine hclose ?_
    by_contra hflag
    have hset := h.set (Bool.eq_true_of_not_eq_false hflag)
    unfold App.hasPasscode at hset
    rw [hpass] at hset
    cases hset
  · split
    · exact inv_present h lock (.pin lock) (fun hk => nomatch hk) fun _ => rfl
    · rename_i hflag
      exact hclose (Bool.eq_false_of_not_eq_true hflag)

private theorem inv_isPinValid {a : App} (h : Inv a) (lock : Nat) (pin : String) :
    Inv (a.isPinValid lock pin) := by
  unfold App.isPinValid
  split
  · refine ⟨?_, fun hshown => (nomatch hshown), fun hshown => (nomatch hshown),
      fun hdue => (nomatch hdue), fun _ c hc hlock => ?_⟩
    · have hsub := (dropped_suffix lock a.stack.controllers).sublist
      exact h.covered.sublist hsub
    · have hmem : c ∈ a.stack.controllers := Stack.dismiss_subset a.stack lock hc
      exact List.mem_map_of_mem (List.mem_filter.mpr ⟨hmem, decide_eq_true hlock⟩)
  · exact h

private theorem inv_dismiss {a : App} (h : Inv a) (c : Nat) (clear : NotBeneath a (.dismiss c)) :
    Inv { a with stack := a.stack.dismiss c } := by
  have hsub : (a.stack.dismiss c).controllers ⊆ a.stack.controllers :=
    Stack.dismiss_subset a.stack c
  refine ⟨?_, fun hshown => ?_, h.set, h.due, fun hclear x hx hlock => ?_⟩
  · have hbelow := (dropped_suffix c a.stack.controllers).sublist
    exact h.covered.sublist hbelow
  · obtain ⟨x, hx, hlock⟩ := h.shown hshown
    have hbeneath : x ∉ onOrAbove c a.stack.controllers := fun habove => clear x habove hlock
    exact ⟨x, mem_dropped hx hbeneath, hlock⟩
  · exact h.opened hclear x (hsub hx) hlock

private theorem inv_setPasscode {a : App} (h : Inv a) (hfront : a.frontKind.isOrdinary = true)
    (passcode : Option String) : Inv { a with passcode := passcode } := by
  have hflag : a.isShowingPasscordLockView ≠ true := fun hshown =>
    front_ordinary h.covered hfront (h.shown hshown)
  exact ⟨h.covered, h.shown, fun hshown => absurd hshown hflag, h.due, h.opened⟩

private theorem inv_step {a a' : App} {ev : Event} (h : Inv a) (clear : NotBeneath a ev)
    (hstep : step a ev = some a') : Inv a' := by
  cases ev with
  | launch =>
    obtain rfl := Option.some.inj hstep
    exact inv_launch fun hdue => h.set (h.due hdue)
  | willDeactivate =>
    obtain rfl := Option.some.inj hstep
    exact inv_willDeactivate h
  | didActivate =>
    obtain rfl := Option.some.inj hstep
    exact h
  | lockDidAppear lock =>
    simp only [step] at hstep
    split at hstep
    · obtain rfl := Option.some.inj hstep
      exact inv_lockDidAppear h lock
    · cases hstep
  | pinEntered pin =>
    simp only [step] at hstep
    split at hstep
    · obtain rfl := Option.some.inj hstep
      exact inv_isPinValid h _ pin
    · cases hstep
    · cases hstep
  | present presenter children =>
    simp only [step] at hstep
    split at hstep
    · rename_i hfront
      obtain rfl := Option.some.inj hstep
      exact inv_present h presenter _ (fun hk => nomatch hk) fun hlock =>
        absurd hlock (front_ordinary h.covered hfront)
    · obtain rfl := Option.some.inj hstep
      exact h
  | dismiss c =>
    obtain rfl := Option.some.inj hstep
    exact inv_dismiss h c clear
  | setPasscode passcode =>
    simp only [step] at hstep
    split at hstep
    · rename_i hfront
      obtain rfl := Option.some.inj hstep
      exact inv_setPasscode h hfront passcode
    · cases hstep

private theorem closes_front {a a' : App} {c : Controller Screen}
    (hflag : a.isShowingPasscordLockView = false) (hfront : c ∈ a.stack.controllers.head?)
    (hstep : step a (.lockDidAppear c.id) = some a') : c ∉ a'.stack.controllers := by
  obtain ⟨below, hstack⟩ : ∃ below, a.stack.controllers = c :: below := by
    cases hs : a.stack.controllers with
    | nil =>
      rw [hs] at hfront
      cases hfront
    | cons front below =>
      rw [hs] at hfront
      obtain rfl := Option.some.inj hfront
      exact ⟨below, rfl⟩
  have hgone : c ∉ (a.close c.id).stack.controllers := Stack.not_mem_dismiss_front hstack
  simp only [step] at hstep
  split at hstep
  · obtain rfl := Option.some.inj hstep
    unfold App.lockDidAppear
    rw [hflag]
    split
    · exact hgone
    · exact hgone
  · cases hstep

private theorem inv_start (passcode : Option String) (flag : Bool) : Inv (start passcode flag) :=
  inv_launch fun hdue => nomatch hdue

/-- As long as nothing is dismissed beneath it, the lock stays from a deactivation to the
right pin; the flag is set only while it is there, and clear only once it is opened. -/
theorem lock_kept (passcode : Option String) (flag : Bool) (es : List Event) (a : App)
    (clear : Along step NotBeneath (start passcode flag) es)
    (hr : run step (start passcode flag) es = some a) : Kept a := by
  have hinv : Inv a :=
    run_keeps (fun _ _ _ h hg hs => inv_step h hg hs) clear hr (inv_start passcode flag)
  refine ⟨fun hdue => hinv.shown (hinv.due hdue), hinv.shown, hinv.opened, ?_⟩
  intro hflag c hfront _ a' hstep
  exact closes_front hflag hfront hstep

section Example

/-- The lock of a launch is opened. -/
private def opened : List Event := [.lockDidAppear 1, .pinEntered "0000", .pinEntered "1234"]

/-- It leaves, the write screen is presented, and the scene is deactivated and comes back. -/
private def locked : List Event :=
  opened ++ [.lockDidAppear 1, .present 0 0, .willDeactivate, .didActivate, .lockDidAppear 4]

/-- The flag is clear before the lock has left; and the end of a post dismisses the write
screen's presented lock. -/
theorem lock_rule_broken :
    (¬ ∀ (passcode : Option String) (flag : Bool) (es : List Event) (a : App),
      run step (start passcode flag) es = some a →
        (a.isShowingPasscordLockView = true ↔ OnStack a)) ∧
    ¬ ∀ (passcode : Option String) (flag : Bool) (es : List Event) (a : App),
      run step (start passcode flag) es = some a → a.due = true → OnStack a := by
  constructor
  · intro claim
    have hseen : (run step (start (some "1234") false) opened).map
        (fun a => (a.isShowingPasscordLockView, decide (OnStack a))) = some (false, true) := by
      decide
    obtain ⟨a, ha, hval⟩ := Option.map_eq_some_iff.mp hseen
    obtain ⟨hflag, hstack⟩ := Prod.mk.inj hval
    have hshown := (claim _ _ _ a ha).mpr (of_decide_eq_true hstack)
    rw [hflag] at hshown
    cases hshown
  · intro claim
    have hseen : (run step (start (some "1234") false) (locked ++ [.dismiss 3])).map
        (fun a => (a.due, decide (OnStack a))) = some (true, false) := by
      decide
    obtain ⟨a, ha, hval⟩ := Option.map_eq_some_iff.mp hseen
    obtain ⟨hdue, hstack⟩ := Prod.mk.inj hval
    exact of_decide_eq_false hstack (claim _ _ _ a ha hdue)

theorem lock_kept_after_deactivation :
    ∃ a, run step (start (some "1234") false) locked = some a ∧ Kept a := by
  have hran : (run step (start (some "1234") false) locked).map
      (fun a => a.stack.controllers.length) = some 3 := by decide
  obtain ⟨a, ha, _⟩ := Option.map_eq_some_iff.mp hran
  exact ⟨a, ha, lock_kept (some "1234") false locked a (by decide) ha⟩

end Example

end PlateChat.Passcode.Lock
