/- PlateChat/Screen/Slider
   digest: The slider with two knobs: what touches do to its values, and which can be reached. -/

import Mathlib.Tactic.FieldSimp
import Mathlib.Tactic.Linarith
import Mathlib.Tactic.Ring
import PlateChat.Foundation.Run
import PlateChat.Foundation.Span

set_option autoImplicit false
set_option relaxedAutoImplicit false

/-!
A touch takes hold of a knob if it starts on one. Two knobs may lie on one another, at
either end of the track too, where one of them cannot move at all; the slider then takes
hold of the one that is farther from its end. Lengths and values are rational numbers.
-/

namespace PlateChat.Screen.Slider

open PlateChat.Foundation.Run PlateChat.Foundation.Span

structure Point where
  x : ℚ
  y : ℚ
  deriving DecidableEq

inductive Knob
  | neither
  | lower
  | upper
  | both
  deriving DecidableEq

def KnobDelta : ℚ := 2

/-- What no touch changes. Knobs are not enlarged when they are selected. -/
structure Attributes where
  minimumValue : ℚ := 0
  maximumValue : ℚ := 10
  minimumDistance : ℚ := 0
  stepValue : ℚ := 0
  dragTrack : Bool := false
  knobSize : ℚ := 95 / 100
  trueKnobSize : Bool := false
  width : ℚ
  height : ℚ
  deriving DecidableEq

namespace Attributes

/-- The diameter of a knob. -/
def KnobSize (s : Attributes) : ℚ := if s.trueKnobSize then s.knobSize else s.knobSize * s.height

def trackRange (s : Attributes) : ℚ := s.maximumValue - s.minimumValue

def percentageForValue (s : Attributes) (value : ℚ) : ℚ :=
  if s.minimumValue = s.maximumValue then 0
  else (value - s.minimumValue) / (s.maximumValue - s.minimumValue)

/-- The centre of a knob. -/
def positionForValue (s : Attributes) (value : ℚ) : Point :=
  if s.maximumValue = s.minimumValue then ⟨0, 0⟩
  else {
    x := (s.width - (s.KnobSize - KnobDelta * 2)) * s.percentageForValue value +
      (s.KnobSize / 2 - KnobDelta)
    y := s.height / 2 }

/-- `frame.contains` of the knob at a value; a frame is open to the right and below. -/
def knobContains (s : Attributes) (value : ℚ) (p : Point) : Bool :=
  let center := s.positionForValue value
  center.x - s.KnobSize / 2 ≤ p.x && p.x < center.x + s.KnobSize / 2 &&
    (center.y - s.KnobSize / 2 ≤ p.y && p.y < center.y + s.KnobSize / 2)

end Attributes

/-- `lowerKnob` and `upperKnob` say which knobs are highlighted, `isTracking` whether a touch
is being followed. -/
structure RangeSlider extends Attributes where
  lowerValue : ℚ := 2
  upperValue : ℚ := 8
  previousLocation : Point := ⟨0, 0⟩
  previouslySelectedKnob : Knob := .neither
  lowerKnob : Bool := false
  upperKnob : Bool := false
  isTracking : Bool := false
  deriving DecidableEq

namespace RangeSlider

def knobsAreClose (s : RangeSlider) : Bool := s.upperValue ≤ s.lowerValue + s.trackRange * (5 / 100)

def knobsAreCloserToMinimum (s : RangeSlider) : Bool :=
  s.lowerValue - s.minimumValue < s.maximumValue - s.upperValue

def highlightKnob (s : RangeSlider) : Knob → RangeSlider
  | .lower => { s with lowerKnob := true, previouslySelectedKnob := .lower }
  | .upper => { s with upperKnob := true, previouslySelectedKnob := .upper }
  | .neither | .both => s

/-- The knob that a touch takes hold of, if it starts on one. -/
def touchedKnob (s : RangeSlider) (p : Point) : Option Knob :=
  if s.knobContains s.lowerValue p ∧ s.knobContains s.upperValue p then
    if s.knobsAreClose then some (if s.knobsAreCloserToMinimum then .upper else .lower)
    else some (if s.previouslySelectedKnob = .lower then .lower else .upper)
  else if s.knobContains s.lowerValue p then some .lower
  else if s.knobContains s.upperValue p then some .upper
  else none

/-- `isTracking` is what the source's function returns. -/
def beginTracking (s : RangeSlider) (p : Point) : RangeSlider :=
  let s := { s with previousLocation := p }
  match s.touchedKnob p with
  | some knob => { s.highlightKnob knob with isTracking := true }
  | none =>
    if s.dragTrack then { s with upperKnob := true, lowerKnob := true, isTracking := true }
    else { s with isTracking := false }

def moveLower (s : RangeSlider) (deltaValue : ℚ) : RangeSlider :=
  { s with lowerValue :=
      boundValue (s.lowerValue + deltaValue) s.minimumValue (s.upperValue - s.minimumDistance) }

def moveUpper (s : RangeSlider) (deltaValue : ℚ) : RangeSlider :=
  { s with upperValue :=
      boundValue (s.upperValue + deltaValue) (s.lowerValue + s.minimumDistance) s.maximumValue }

/-- The knob that leads moves first. -/
def moveBoth (s : RangeSlider) (deltaValue : ℚ) : RangeSlider :=
  let gap := s.upperValue - s.lowerValue
  if 0 < deltaValue then
    let upperValue := boundValue (s.upperValue + deltaValue)
      (s.lowerValue + max s.minimumDistance gap) s.maximumValue
    { s with
      upperValue := upperValue
      lowerValue := boundValue (s.lowerValue + deltaValue) s.minimumValue
        (upperValue - max s.minimumDistance gap) }
  else
    let lowerValue := boundValue (s.lowerValue + deltaValue) s.minimumValue
      (s.upperValue - max s.minimumDistance gap)
    { s with
      lowerValue := lowerValue
      upperValue := boundValue (s.upperValue + deltaValue)
        (lowerValue + max s.minimumDistance gap) s.maximumValue }

def dragged (s : RangeSlider) (deltaValue : ℚ) : RangeSlider :=
  if s.lowerKnob ∧ s.upperKnob then s.moveBoth deltaValue
  else if s.lowerKnob then s.moveLower deltaValue
  else if s.upperKnob then s.moveUpper deltaValue
  else s

/-- What a way on the screen amounts to as a value. -/
def deltaValue (s : RangeSlider) (p : Point) : ℚ :=
  (s.maximumValue - s.minimumValue) * (p.x - s.previousLocation.x) / (s.width - s.KnobSize)

/-- The slider and whether `valueChanged` is sent. -/
def continueTracking (s : RangeSlider) (p : Point) : RangeSlider × Bool :=
  let deltaValue := s.deltaValue p
  if |deltaValue| < s.stepValue then (s, false)
  else
    let deltaValue :=
      if s.stepValue ≠ 0 then if deltaValue < 0 then -s.stepValue else s.stepValue
      else deltaValue
    (({ s with previousLocation := p } : RangeSlider).dragged deltaValue, true)

def endTracking (s : RangeSlider) : RangeSlider :=
  { s with lowerKnob := false, upperKnob := false, isTracking := false }

/-- Nothing but the control's own flag; the knobs stay highlighted. -/
def cancelTracking (s : RangeSlider) : RangeSlider := { s with isTracking := false }

end RangeSlider

/-- The touches of a control, one finger at a time. -/
inductive Touch
  | began (p : Point)
  | moved (p : Point)
  | ended
  | cancelled
  deriving DecidableEq

open RangeSlider in
/-- The slider after a touch, and whether it has sent `valueChanged`. -/
def touched (s : RangeSlider) : Touch → Option (RangeSlider × Bool)
  | .began p => if s.isTracking then none else some (s.beginTracking p, false)
  | .moved p => if s.isTracking then some (s.continueTracking p) else some (s, false)
  | .ended => if s.isTracking then some (s.endTracking, false) else some (s, false)
  | .cancelled => if s.isTracking then some (s.cancelTracking, false) else some (s, false)

def step (s : RangeSlider) (t : Touch) : Option RangeSlider := (touched s t).map Prod.fst

def limits (s : Attributes) : Limits ℚ := ⟨s.minimumValue, s.maximumValue, s.minimumDistance⟩

def InOrder (s : RangeSlider) : Prop := (limits s.toAttributes).Holds s.lowerValue s.upperValue

theorem dragged_eq (s : RangeSlider) (deltaValue : ℚ) : ∃ lower upper,
    s.dragged deltaValue = { s with lowerValue := lower, upperValue := upper } ∧
      (InOrder s → (limits s.toAttributes).Holds lower upper) := by
  unfold RangeSlider.dragged
  split
  · have hgap : InOrder s → max s.minimumDistance (s.upperValue - s.lowerValue) =
        s.upperValue - s.lowerValue := fun h => max_eq_right (le_sub_iff_add_le'.mpr h.apart)
    unfold RangeSlider.moveBoth
    dsimp only
    split
    · rename_i hup
      exact ⟨_, _, rfl, fun h => (h.sendUp (hgap h) hup.le).1⟩
    · rename_i hdown
      exact ⟨_, _, rfl, fun h => (h.sendDown (hgap h) (not_lt.mp hdown)).1⟩
  · split
    · exact ⟨_, _, rfl, fun h => h.sendLower _⟩
    · split
      · exact ⟨_, _, rfl, fun h => h.sendUpper _⟩
      · exact ⟨_, _, rfl, id⟩

/-- What a touch leaves alone: the attributes, the order of the values, and the values
themselves unless it is told. -/
structure Follows (s s' : RangeSlider) (sent : Bool) : Prop where
  attributes : s'.toAttributes = s.toAttributes
  inOrder : InOrder s → InOrder s'
  silent : sent = false → s'.lowerValue = s.lowerValue ∧ s'.upperValue = s.upperValue

private theorem follows_of_values {s s' : RangeSlider} {sent : Bool}
    (attributes : s'.toAttributes = s.toAttributes)
    (values : s'.lowerValue = s.lowerValue ∧ s'.upperValue = s.upperValue) :
    Follows s s' sent where
  attributes := attributes
  inOrder h := by
    unfold InOrder
    rw [attributes, values.1, values.2]
    exact h
  silent _ := values

private theorem beginTracking_values (s : RangeSlider) (p : Point) :
    (s.beginTracking p).toAttributes = s.toAttributes ∧
      (s.beginTracking p).lowerValue = s.lowerValue ∧
        (s.beginTracking p).upperValue = s.upperValue := by
  unfold RangeSlider.beginTracking
  dsimp only
  split
  · rename_i knob _
    cases knob <;> exact ⟨rfl, rfl, rfl⟩
  · split <;> exact ⟨rfl, rfl, rfl⟩

private theorem follows_continueTracking (s : RangeSlider) (p : Point) :
    Follows s (s.continueTracking p).1 (s.continueTracking p).2 := by
  unfold RangeSlider.continueTracking
  dsimp only
  split
  · exact follows_of_values rfl ⟨rfl, rfl⟩
  · generalize (if s.stepValue ≠ 0 then _ else _ : ℚ) = deltaValue
    obtain ⟨lower, upper, heq, hinOrder⟩ :=
      dragged_eq ({ s with previousLocation := p } : RangeSlider) deltaValue
    rw [heq]
    exact ⟨rfl, hinOrder, fun hsent => nomatch hsent⟩

theorem touched_follows {s s' : RangeSlider} {t : Touch} {sent : Bool}
    (h : touched s t = some (s', sent)) : Follows s s' sent := by
  cases t with
  | began p =>
    simp only [touched] at h
    split at h
    · cases h
    · cases h
      exact follows_of_values (beginTracking_values s p).1 (beginTracking_values s p).2
  | moved p =>
    simp only [touched] at h
    split at h
    · obtain ⟨rfl, rfl⟩ := Prod.mk.inj (Option.some.inj h)
      exact follows_continueTracking s p
    · cases h
      exact follows_of_values rfl ⟨rfl, rfl⟩
  | ended =>
    simp only [touched] at h
    split at h <;> cases h <;> exact follows_of_values rfl ⟨rfl, rfl⟩
  | cancelled =>
    simp only [touched] at h
    split at h <;> cases h <;> exact follows_of_values rfl ⟨rfl, rfl⟩

/-- A slider whose values can be dragged anywhere on a track that is longer than a knob. -/
structure Usable (s : Attributes) : Prop where
  step : s.stepValue = 0
  knob : 0 < s.KnobSize
  room : s.KnobSize < s.width
  range : s.minimumValue < s.maximumValue
  distance : 0 ≤ s.minimumDistance

section Geometry

variable {a : Attributes}

private theorem positionForValue_y (h : Usable a) (value : ℚ) :
    (a.positionForValue value).y = a.height / 2 := by
  unfold Attributes.positionForValue
  rw [if_neg h.range.ne']

private theorem positionForValue_lt (h : Usable a) {v w : ℚ} (hvw : v < w) :
    (a.positionForValue v).x < (a.positionForValue w).x := by
  have hpercentage : a.percentageForValue v < a.percentageForValue w := by
    unfold Attributes.percentageForValue
    rw [if_neg h.range.ne, if_neg h.range.ne]
    exact div_lt_div_of_pos_right (sub_lt_sub_right hvw _) (sub_pos.mpr h.range)
  have hroom : 0 < a.width - (a.KnobSize - KnobDelta * 2) := by
    have := h.room
    unfold KnobDelta
    linarith
  unfold Attributes.positionForValue
  rw [if_neg h.range.ne', if_neg h.range.ne']
  exact add_lt_add_left (mul_lt_mul_of_pos_left hpercentage hroom) _

private theorem knobContains_iff (h : Usable a) (value x : ℚ) :
    a.knobContains value ⟨x, a.height / 2⟩ = true ↔
      (a.positionForValue value).x - a.KnobSize / 2 ≤ x ∧
        x < (a.positionForValue value).x + a.KnobSize / 2 := by
  unfold Attributes.knobContains
  have hknob := h.knob
  have hbelow : a.height / 2 - a.KnobSize / 2 ≤ a.height / 2 := by linarith
  have habove : a.height / 2 < a.height / 2 + a.KnobSize / 2 := by linarith
  simp only [positionForValue_y h, hbelow, habove, decide_true, Bool.and_true, Bool.and_eq_true,
    decide_eq_true_eq]

end Geometry

/-- No touch is followed and no knob highlighted. -/
structure Released (s : RangeSlider) : Prop where
  lowerKnob : s.lowerKnob = false
  upperKnob : s.upperKnob = false
  isTracking : s.isTracking = false

section Reach

variable {s : RangeSlider}

private theorem touch_apart (h : Usable s.toAttributes) (hlt : s.lowerValue < s.upperValue)
    (knob : Knob) (hknob : knob = .lower ∨ knob = .upper) :
    ∃ p, s.touchedKnob p = some knob := by
  have hplaces := positionForValue_lt h hlt
  have hsize := h.knob
  generalize hlower : (s.positionForValue s.lowerValue).x = lower at hplaces
  generalize hupper : (s.positionForValue s.upperValue).x = upper at hplaces
  rcases hknob with rfl | rfl
  · refine ⟨⟨lower - s.KnobSize / 2, s.height / 2⟩, ?_⟩
    have hin : s.knobContains s.lowerValue ⟨lower - s.KnobSize / 2, s.height / 2⟩ = true := by
      rw [knobContains_iff h, hlower]
      constructor <;> linarith
    have hout : ¬ s.knobContains s.upperValue ⟨lower - s.KnobSize / 2, s.height / 2⟩ = true := by
      rw [knobContains_iff h, hupper]
      rintro ⟨hleft, _⟩
      linarith
    unfold RangeSlider.touchedKnob
    rw [if_neg fun hboth => hout hboth.2, if_pos hin]
  · refine ⟨⟨max (lower + s.KnobSize / 2) (upper - s.KnobSize / 2), s.height / 2⟩, ?_⟩
    have hin : s.knobContains s.upperValue
        ⟨max (lower + s.KnobSize / 2) (upper - s.KnobSize / 2), s.height / 2⟩ = true := by
      rw [knobContains_iff h, hupper]
      exact ⟨le_max_right _ _, max_lt (by linarith) (by linarith)⟩
    have hout : ¬ s.knobContains s.lowerValue
        ⟨max (lower + s.KnobSize / 2) (upper - s.KnobSize / 2), s.height / 2⟩ = true := by
      rw [knobContains_iff h, hlower]
      rintro ⟨_, hright⟩
      exact absurd hright (not_lt.mpr (le_max_left _ _))
    unfold RangeSlider.touchedKnob
    rw [if_neg fun hboth => hout hboth.1, if_neg hout, if_pos hin]

/-- A knob that is touched can be dragged by any amount. -/
private theorem drag (h : Usable s.toAttributes) (released : Released s) {p : Point} {knob : Knob}
    (hp : s.touchedKnob p = some knob) (deltaValue : ℚ) : ∃ q,
      run step s [.began p, .moved q, .ended] = some
        (({ s.highlightKnob knob with isTracking := true, previousLocation := q } :
          RangeSlider).dragged deltaValue).endTracking := by
  have hroom : s.width - s.KnobSize ≠ 0 := (sub_pos.mpr h.room).ne'
  have hrange : s.maximumValue - s.minimumValue ≠ 0 := (sub_pos.mpr h.range).ne'
  let q : Point :=
    ⟨p.x + deltaValue * (s.width - s.KnobSize) / (s.maximumValue - s.minimumValue), p.y⟩
  refine ⟨q, ?_⟩
  have hbegan : s.beginTracking p =
      { s.highlightKnob knob with isTracking := true, previousLocation := p } := by
    unfold RangeSlider.beginTracking
    dsimp only
    have htouched : ({ s with previousLocation := p } : RangeSlider).touchedKnob p = some knob := hp
    rw [htouched]
    cases knob <;> rfl
  have hfirst : step s (.began p) = some
      { s.highlightKnob knob with isTracking := true, previousLocation := p } := by
    unfold step touched
    dsimp only
    rw [released.isTracking, if_neg Bool.false_ne_true, hbegan]
    rfl
  generalize hheld : s.highlightKnob knob = held at hfirst
  have hattributes : held.toAttributes = s.toAttributes := by
    rw [← hheld]
    cases knob <;> rfl
  have hdelta : ({ held with isTracking := true, previousLocation := p } : RangeSlider).deltaValue q
      = deltaValue := by
    show (held.maximumValue - held.minimumValue) * (q.x - p.x) / (held.width - held.KnobSize) = _
    rw [hattributes]
    show (s.maximumValue - s.minimumValue) * (p.x + _ - p.x) / (s.width - s.KnobSize) = _
    field_simp
    ring
  have hstep : ¬ |deltaValue| < held.stepValue := by
    rw [hattributes, h.step]
    exact not_lt.mpr (abs_nonneg _)
  have hwhole : ¬ held.stepValue ≠ 0 := by
    rw [hattributes]
    exact not_not.mpr h.step
  have hsecond : step { held with isTracking := true, previousLocation := p } (.moved q) = some
      (({ held with isTracking := true, previousLocation := q } : RangeSlider).dragged
        deltaValue) := by
    unfold step touched RangeSlider.continueTracking
    dsimp only
    rw [hdelta, if_pos rfl, if_neg hstep, if_neg hwhole]
    rfl
  obtain ⟨lower, upper, hdragged, _⟩ := dragged_eq
    ({ held with isTracking := true, previousLocation := q } : RangeSlider) deltaValue
  refine run_cons.mpr ⟨_, hfirst, run_cons.mpr ⟨_, hsecond, run_cons.mpr ⟨_, ?_, rfl⟩⟩⟩
  rw [hdragged]
  rfl

private theorem drag_lower (h : Usable s.toAttributes) (released : Released s) {p : Point}
    (hp : s.touchedKnob p = some .lower) (value : ℚ) (least : s.minimumValue ≤ value)
    (apart : value + s.minimumDistance ≤ s.upperValue) : ∃ ts s', run step s ts = some s' ∧
      Released s' ∧ s'.toAttributes = s.toAttributes ∧ s'.lowerValue = value ∧
        s'.upperValue = s.upperValue := by
  obtain ⟨q, hq⟩ := drag h released hp (value - s.lowerValue)
  refine ⟨_, _, hq, ⟨rfl, rfl, rfl⟩, ?_⟩
  have hmoved : ({ s.highlightKnob .lower with isTracking := true, previousLocation := q } :
      RangeSlider).dragged (value - s.lowerValue) =
      { s with
        lowerKnob := true, previouslySelectedKnob := .lower, isTracking := true
        previousLocation := q, lowerValue := value } := by
    have hvalue : boundValue (s.lowerValue + (value - s.lowerValue)) s.minimumValue
        (s.upperValue - s.minimumDistance) = value := by
      rw [add_sub_cancel, boundValue_of_mem least (le_sub_iff_add_le.mpr apart)]
    unfold RangeSlider.dragged RangeSlider.moveLower RangeSlider.highlightKnob
    dsimp only
    rw [hvalue, released.upperKnob]
    rfl
  rw [hmoved]
  exact ⟨rfl, rfl, rfl⟩

private theorem drag_upper (h : Usable s.toAttributes) (released : Released s) {p : Point}
    (hp : s.touchedKnob p = some .upper) (value : ℚ)
    (apart : s.lowerValue + s.minimumDistance ≤ value) (greatest : value ≤ s.maximumValue) :
    ∃ ts s', run step s ts = some s' ∧ Released s' ∧ s'.toAttributes = s.toAttributes ∧
      s'.lowerValue = s.lowerValue ∧ s'.upperValue = value := by
  obtain ⟨q, hq⟩ := drag h released hp (value - s.upperValue)
  refine ⟨_, _, hq, ⟨rfl, rfl, rfl⟩, ?_⟩
  have hmoved : ({ s.highlightKnob .upper with isTracking := true, previousLocation := q } :
      RangeSlider).dragged (value - s.upperValue) =
      { s with
        upperKnob := true, previouslySelectedKnob := .upper, isTracking := true
        previousLocation := q, upperValue := value } := by
    have hvalue : boundValue (s.upperValue + (value - s.upperValue))
        (s.lowerValue + s.minimumDistance) s.maximumValue = value := by
      rw [add_sub_cancel, boundValue_of_mem apart greatest]
    unfold RangeSlider.dragged RangeSlider.moveUpper RangeSlider.highlightKnob
    dsimp only
    rw [hvalue, released.lowerKnob]
    rfl
  rw [hmoved]
  exact ⟨rfl, rfl, rfl⟩

/-- Two knobs in one place are told apart by their ends: one of them can move away. -/
private theorem separate (h : Usable s.toAttributes) (inOrder : InOrder s) (released : Released s) :
    ∃ ts s', run step s ts = some s' ∧ Released s' ∧ s'.toAttributes = s.toAttributes ∧
      InOrder s' ∧ s'.lowerValue < s'.upperValue := by
  rcases lt_or_ge s.lowerValue s.upperValue with hlt | hge
  · exact ⟨[], s, rfl, released, rfl, inOrder, hlt⟩
  have hvalues : s.lowerValue + s.minimumDistance ≤ s.upperValue := inOrder.apart
  have hdistance := h.distance
  have heq : s.upperValue = s.lowerValue := le_antisymm hge (by linarith)
  -- the middle of both knobs is touched
  let p : Point := ⟨(s.positionForValue s.lowerValue).x, s.height / 2⟩
  have hin : s.knobContains s.lowerValue p = true := by
    have hknob := h.knob
    rw [knobContains_iff h]
    constructor <;> linarith
  have hclose : s.knobsAreClose = true := by
    have hrange := sub_pos.mpr h.range
    unfold RangeSlider.knobsAreClose Attributes.trackRange
    rw [decide_eq_true_eq]
    linarith
  have htouched : s.touchedKnob p =
      some (if s.knobsAreCloserToMinimum then .upper else .lower) := by
    unfold RangeSlider.touchedKnob
    rw [if_pos ⟨hin, heq ▸ hin⟩, if_pos hclose]
  have hleast : s.minimumValue ≤ s.lowerValue := inOrder.least
  have hgreatest : s.upperValue ≤ s.maximumValue := inOrder.greatest
  have hrange := h.range
  by_cases hcloser : s.knobsAreCloserToMinimum = true
  · rw [if_pos hcloser] at htouched
    have hfree : s.lowerValue - s.minimumValue < s.maximumValue - s.upperValue :=
      of_decide_eq_true hcloser
    obtain ⟨ts, s', hrun, hreleased, hattributes, hlower, hupper⟩ :=
      drag_upper h released htouched _ (hvalues.trans hgreatest) (le_refl s.maximumValue)
    refine ⟨ts, s', hrun, hreleased, hattributes, ⟨?_, ?_, ?_⟩, ?_⟩
    · rw [hattributes, hlower]
      exact hleast
    · rw [hattributes, hlower, hupper]
      exact hvalues.trans hgreatest
    · rw [hattributes, hupper]
      exact le_refl s.maximumValue
    · rw [hlower, hupper]
      linarith
  · rw [if_neg hcloser] at htouched
    have hfree : s.maximumValue - s.upperValue ≤ s.lowerValue - s.minimumValue :=
      not_lt.mp fun hlt => hcloser (decide_eq_true hlt)
    have hroom : s.minimumValue + s.minimumDistance ≤ s.upperValue := by linarith
    obtain ⟨ts, s', hrun, hreleased, hattributes, hlower, hupper⟩ :=
      drag_lower h released htouched _ (le_refl s.minimumValue) hroom
    refine ⟨ts, s', hrun, hreleased, hattributes, ⟨?_, ?_, ?_⟩, ?_⟩
    · rw [hattributes, hlower]
      exact le_refl s.minimumValue
    · rw [hattributes, hlower, hupper]
      exact hroom
    · rw [hattributes, hupper]
      exact hgreatest
    · rw [hlower, hupper]
      linarith

/-- The touch that is followed ends; knobs that an earlier one has left highlighted are
touched once more. -/
private theorem release (h : Usable s.toAttributes) : ∃ ts s', run step s ts = some s' ∧
    Released s' ∧ s'.toAttributes = s.toAttributes ∧ s'.lowerValue = s.lowerValue ∧
      s'.upperValue = s.upperValue := by
  by_cases htracking : s.isTracking = true
  · refine ⟨[.ended], s.endTracking, run_cons.mpr ⟨_, ?_, rfl⟩, ⟨rfl, rfl, rfl⟩, rfl, rfl, rfl⟩
    unfold step touched
    dsimp only
    rw [if_pos htracking]
    rfl
  · let p : Point := ⟨(s.positionForValue s.lowerValue).x, s.height / 2⟩
    have hin : s.knobContains s.lowerValue p = true := by
      have hknob := h.knob
      rw [knobContains_iff h]
      constructor <;> linarith
    obtain ⟨knob, hknob⟩ : ∃ knob, s.touchedKnob p = some knob := by
      unfold RangeSlider.touchedKnob
      rw [if_pos hin]
      split
      · split <;> exact ⟨_, rfl⟩
      · exact ⟨_, rfl⟩
    have hbegan : step s (.began p) = some (s.beginTracking p) := by
      unfold step touched
      dsimp only
      rw [if_neg htracking]
      rfl
    have hfollowed : (s.beginTracking p).isTracking = true := by
      unfold RangeSlider.beginTracking
      dsimp only
      have htouched : ({ s with previousLocation := p } : RangeSlider).touchedKnob p =
        some knob := hknob
      rw [htouched]
    have hended : step (s.beginTracking p) .ended = some (s.beginTracking p).endTracking := by
      unfold step touched
      dsimp only
      rw [if_pos hfollowed]
      rfl
    obtain ⟨hattributes, hlower, hupper⟩ := beginTracking_values s p
    exact ⟨[.began p, .ended], _, run_cons.mpr ⟨_, hbegan, run_cons.mpr ⟨_, hended, rfl⟩⟩,
      ⟨rfl, rfl, rfl⟩, hattributes, hlower, hupper⟩

/-- From any state whose values are in order, all values that are in order can be reached. -/
theorem reaches_values (h : Usable s.toAttributes) (inOrder : InOrder s) {lower upper : ℚ}
    (holds : (limits s.toAttributes).Holds lower upper) : ∃ ts s', run step s ts = some s' ∧
      s'.lowerValue = lower ∧ s'.upperValue = upper := by
  obtain ⟨ts₁, s₁, hrun₁, hreleased₁, hattributes₁, hlower₁, hupper₁⟩ := release (s := s) h
  have hinOrder₁ : InOrder s₁ := by
    unfold InOrder
    rw [hattributes₁, hlower₁, hupper₁]
    exact inOrder
  obtain ⟨ts₂, s₂, hrun₂, hreleased₂, hattributes₂, hinOrder₂, hlt₂⟩ :=
    separate (hattributes₁ ▸ h) hinOrder₁ hreleased₁
  rw [hattributes₁] at hattributes₂
  rw [InOrder, hattributes₂] at hinOrder₂
  have hdistance := h.distance
  have hsame : (limits s.toAttributes).distance = s.minimumDistance := rfl
  have hends : lower + s.minimumDistance ≤ upper := holds.apart
  have hends₂ : s₂.lowerValue + s.minimumDistance ≤ s₂.upperValue := hinOrder₂.apart
  have hgreatest : upper ≤ s.maximumValue := holds.greatest
  have hgreatest₂ : s₂.upperValue ≤ s.maximumValue := hinOrder₂.greatest
  -- the upper knob makes room at the end of the track, and the lower one takes its place
  obtain ⟨p₂, hp₂⟩ := touch_apart (hattributes₂ ▸ h) hlt₂ .upper (.inr rfl)
  obtain ⟨ts₃, s₃, hrun₃, hreleased₃, hattributes₃, hlower₃, hupper₃⟩ :=
    drag_upper (hattributes₂ ▸ h) hreleased₂ hp₂ s.maximumValue
      (by rw [hattributes₂]; exact hends₂.trans hgreatest₂) (by rw [hattributes₂])
  rw [hattributes₂] at hattributes₃
  obtain ⟨p₃, hp₃⟩ := touch_apart (hattributes₃ ▸ h)
    (by rw [hlower₃, hupper₃]; exact hlt₂.trans_le hgreatest₂) .lower (.inl rfl)
  obtain ⟨ts₄, s₄, hrun₄, hreleased₄, hattributes₄, hlower₄, hupper₄⟩ :=
    drag_lower (hattributes₃ ▸ h) hreleased₃ hp₃ lower
      (by rw [hattributes₃]; exact holds.least)
      (by rw [hattributes₃, hupper₃]; exact hends.trans hgreatest)
  rw [hattributes₃] at hattributes₄
  have hrun := run_append hrun₁ (run_append hrun₂ (run_append hrun₃ hrun₄))
  rcases lt_or_ge lower s.maximumValue with hlt | hge
  · obtain ⟨p₄, hp₄⟩ := touch_apart (hattributes₄ ▸ h)
      (by rw [hlower₄, hupper₄, hupper₃]; exact hlt) .upper (.inr rfl)
    obtain ⟨ts₅, s₅, hrun₅, _, _, hlower₅, hupper₅⟩ :=
      drag_upper (hattributes₄ ▸ h) hreleased₄ hp₄ upper
        (by rw [hattributes₄, hlower₄]; exact hends) (by rw [hattributes₄]; exact hgreatest)
    exact ⟨_, s₅, run_append hrun hrun₅, hlower₅.trans hlower₄, hupper₅⟩
  · refine ⟨_, s₄, hrun, hlower₄, ?_⟩
    rw [hupper₄, hupper₃]
    linarith

end Reach

end PlateChat.Screen.Slider
