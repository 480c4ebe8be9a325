/- PlateChat/Passcode/Pads
   digest: The pads for four digits: a passcode is entered twice, and the lock asks for it. -/

import Mathlib.Logic.Function.Basic
import PlateChat.Passcode.Lock

set_option autoImplicit false
set_option relaxedAutoImplicit false

/-!
The settings have a new passcode entered on two pads of a navigation controller of their own.
A pad hands over its input when it is complete, and dismisses its controller 0.3 seconds after a
right pin. The first pad takes every pin for right and pushes the second one at once.
-/

namespace PlateChat.Passcode.Pads

open PlateChat.Foundation.Run PlateChat.Foundation.Presentation PlateChat.Passcode.Lock

def pinLength : Nat := 4

/-- The digits as the text that is handed over. -/
def text (input : List (Fin 10)) : String :=
  String.ofList (input.map fun number => Nat.digitChar number)

/-- The input of a pad, and whether a wrong one is being shaken off. -/
structure PinView where
  input : List (Fin 10) := []
  shaking : Bool := false

namespace PinView

/-- The pad after a digit, and the pin that it has checked. -/
def numberTapped (v : PinView) (number : Fin 10) : PinView × Option String :=
  if v.input.length ≥ pinLength then (v, none)
  else
    let input := v.input ++ [number]
    ({ v with input := input }, if input.length < pinLength then none else some (text input))

def resetInput (v : PinView) : PinView := { v with input := [] }

def delete (v : PinView) : PinView :=
  if v.input.length < 2 then v.resetInput else { v with input := v.input.dropLast }

/-- What the shake ends with. -/
def shaken (v : PinView) : PinView := { v.resetInput with shaking := false }

end PinView

/-- The two pads of the settings by their navigation controller and the settings screen that
is told, and the pad of a lock. -/
inductive Pad
  | first (nvc settings : Nat)
  | confirm (nvc settings : Nat)
  | lock (lock pin : Nat)
  deriving DecidableEq

/-- What a dismissal by the pad is called on. -/
def Pad.controller : Pad → Nat
  | .first nvc _ | .confirm nvc _ => nvc
  | .lock _ pin => pin

/-- The navigation controller with the two pads; the second is there once a pin is to be
confirmed. -/
structure Flow where
  nvc : Nat
  settings : Nat
  inputPasscode : Option String := none

def Flow.pad (f : Flow) : Pad :=
  if f.inputPasscode.isSome then .confirm f.nvc f.settings else .first f.nvc f.settings

/-- The program with the settings screen and its switch, the pads, and what waits on the main
queue: the pads that have taken a pin for right, and the completions of the new passcode. -/
structure Phone where
  app : App
  settings : Option (Nat × Bool) := none
  flow : Option Flow := none
  pads : Pad → PinView := fun _ => {}
  timers : List Pad := []
  completions : List (Nat × Bool) := []

namespace Phone

/-- The pad that is touched. -/
def frontPad (s : Phone) : Option Pad :=
  match s.app.stack.controllers.head? with
  | none => none
  | some c => match c.kind with
    | .pin lock => some (.lock lock c.id)
    | .lock => none
    | .ordinary _ => (s.flow.filter fun f => f.nvc = c.id).map Flow.pad

/-- An ordinary controller other than the pads' is in front. -/
def Open (s : Phone) : Prop := s.app.frontKind.isOrdinary = true ∧ s.frontPad = none

instance (s : Phone) : Decidable s.Open := inferInstanceAs (Decidable (_ ∧ _))

/-- A pad presents nothing. -/
def present (s : Phone) (presenter children : Nat) : Phone :=
  if s.Open then
    { s with app := { s.app with stack := s.app.stack.present presenter (.ordinary children) } }
  else s

def dismiss (s : Phone) (c : Nat) : Phone :=
  { s with app := { s.app with stack := s.app.stack.dismiss c } }

def update (s : Phone) (pad : Pad) (v : PinView) : Phone :=
  { s with pads := Function.update s.pads pad v }

/-- The settings screen is presented, and `bind` sets its switch. -/
def openSettings (s : Phone) : Phone :=
  let t := s.present s.app.stack.front 1
  { t with settings := some (t.app.stack.front, t.app.hasPasscode) }

/-- The switch is turned on: the first pad is presented. -/
def newPasscode (s : Phone) (settings : Nat) : Phone :=
  let t := s.present settings 1
  let flow : Flow := { nvc := t.app.stack.front, settings := settings }
  { t.update flow.pad {} with settings := some (settings, true), flow := some flow }

/-- The switch is turned off. -/
def removePasscode (s : Phone) (settings : Nat) : Phone :=
  { s with settings := some (settings, false), app := { s.app with passcode := none } }

/-- A wrong pin is shaken off. -/
def shake (s : Phone) (pad : Pad) : Phone :=
  s.update pad { s.pads pad with shaking := true }

/-- The delegate of the pad checks the pin. -/
def isPinValid (s : Phone) (pin : String) : Pad → Phone
  | .first nvc settings =>
    { s.update (.confirm nvc settings) {} with
      flow := some { nvc := nvc, settings := settings, inputPasscode := some pin }
      timers := s.timers ++ [.first nvc settings] }
  | .confirm nvc settings =>
    if s.flow.bind Flow.inputPasscode = some pin then { s with
      app := { s.app with passcode := some pin }
      timers := s.timers ++ [.confirm nvc settings] }
    else s.shake (.confirm nvc settings)
  | .lock lock c =>
    if some pin = s.app.passcode then { s with
      app := s.app.isPinValid lock pin
      timers := s.timers ++ [.lock lock c] }
    else s.shake (.lock lock c)

def numberTapped (s : Phone) (pad : Pad) (number : Fin 10) : Phone :=
  let (v, pin) := (s.pads pad).numberTapped number
  match pin with
  | none => s.update pad v
  | some pin => (s.update pad v).isPinValid pin pad

/-- The close button of the pads. -/
def pressCloseButton (s : Phone) (nvc settings : Nat) : Phone :=
  { s.dismiss nvc with completions := s.completions ++ [(settings, false)] }

/-- 0.3 seconds after a right pin: only the second pad tells the settings. -/
def correctPinWasEntered (s : Phone) (pad : Pad) : Phone :=
  match pad with
  | .first nvc _ => s.dismiss nvc
  | .confirm nvc settings =>
    { s.dismiss nvc with completions := s.completions ++ [(settings, true)] }
  | .lock _ pin => s.dismiss pin

/-- The settings screen is told, and says so with an alert, if it is still there. -/
def completion (s : Phone) (settings : Nat) (isSuccess : Bool) : Phone :=
  if s.settings.map Prod.fst = some settings then
    let t := { s with settings := some (settings, isSuccess) }
    if isSuccess then t.present settings 0 else t
  else s

end Phone

/-- `present` and `dismiss` stand for the rest of the program. -/
inductive Event
  | launch
  | willDeactivate
  | lockDidAppear (lock : Nat)
  | present (presenter children : Nat)
  | dismiss (c : Nat)
  | openSettings
  | passcodeSwitch
  | numberTapped (number : Fin 10)
  | delete
  | pressCloseButton
  | shaken (pad : Pad)
  | elapsed (i : Nat)
  | completed (i : Nat)

open Phone in
/-- A touch reaches what is in front; the delete button is hidden without an input. -/
def step (s : Phone) : Event → Option Phone
  | .launch => some { app := s.app.launch }
  | .willDeactivate => some { s with app := s.app.willDeactivate }
  | .lockDidAppear lock =>
    if lock ∈ s.app.locks then some { s with app := s.app.lockDidAppear lock } else none
  | .present presenter children => some (s.present presenter children)
  | .dismiss c => some (s.dismiss c)
  | .openSettings => if s.Open then some s.openSettings else none
  | .passcodeSwitch => match s.settings with
    | some (settings, isOn) =>
      if s.Open ∧ s.app.stack.front = settings then
        some (if isOn then s.removePasscode settings else s.newPasscode settings)
      else none
    | none => none
  | .numberTapped number => s.frontPad.map fun pad => s.numberTapped pad number
  | .delete => match s.frontPad with
    | some pad =>
      if (s.pads pad).input = [] then none else some (s.update pad (s.pads pad).delete)
    | none => none
  | .pressCloseButton => match s.frontPad with
    | some (.first nvc settings) | some (.confirm nvc settings) =>
      some (s.pressCloseButton nvc settings)
    | some (.lock _ _) | none => none
  | .shaken pad =>
    if (s.pads pad).shaking then some (s.update pad (s.pads pad).shaken) else none
  | .elapsed i => (s.timers[i]?).map fun pad =>
    { s with timers := s.timers.eraseIdx i }.correctPinWasEntered pad
  | .completed i => (s.completions[i]?).map fun c =>
    { s with completions := s.completions.eraseIdx i }.completion c.1 c.2

/-- A new phone. -/
def new : Phone := { app := start none false }

end PlateChat.Passcode.Pads
