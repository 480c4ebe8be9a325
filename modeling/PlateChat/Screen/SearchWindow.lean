/- PlateChat/Screen/SearchWindow
   digest: The window of the search criteria: what it stores, what it shows, what can be chosen. -/

import Mathlib.Data.Rat.Floor
import PlateChat.Account.RoundTrip
import PlateChat.Foundation.Rounding
import PlateChat.Screen.Feeds
import PlateChat.Screen.Slider

set_option autoImplicit false
set_option relaxedAutoImplicit false

/-!
The ages and the sex are stored as they are chosen, the prefecture only as the search is
started, from the row of the picker. A tap on the field puts the picker back to the stored
prefecture and leaves the text of the field as it was.
-/

namespace PlateChat.Screen.SearchWindow

open PlateChat.Foundation.Rounding PlateChat.Foundation.Run PlateChat.Foundation.Span
open PlateChat.Model.Profile
open PlateChat.Account.RoundTrip (SexButton UIPickerView element element_of_range prefNameArray
  length_prefNameArray)
open PlateChat.Screen.Feeds PlateChat.Screen.Slider

/-- The names of the picker, the first of which says that no prefecture is asked for. -/
def prefNames : List String := prefNameArray.set 0 "指定しない"

/-- `"\(UserSearchData.ageLower)歳 〜 \(UserSearchData.ageUpper)歳"`. -/
def ageText (c : UserSearchData) : String := c.ageLower.repr ++ "歳 〜 " ++ c.ageUpper.repr ++ "歳"

/-- The controls of `SearchWindowViewController`; the buttons are those that are selected. -/
structure Window where
  rangeSlider : RangeSlider
  ageLabel : String := ""
  manButton : Bool := false
  womanButton : Bool := false
  noneButton : Bool := false
  prefTextField : String := ""
  pickerView : Int := 0
  deriving DecidableEq

def Window.isSelected (w : Window) : SexButton → Bool
  | .manButton => w.manButton
  | .womanButton => w.womanButton
  | .noneButton => w.noneButton

/-- The persisted criteria and the window, while it is open. -/
structure App where
  criteria : UserSearchData := {}
  window : Option Window := none
  deriving DecidableEq

/-- The device: the pickers of its system, the row that a picker reports if it was told to
select one before it had titles, and how wide the slider is laid out. -/
structure System where
  picker : UIPickerView
  untitled : Int → Int
  untitled_row : ∀ row, 0 ≤ untitled row ∧ untitled row < prefNames.length
  width : ℚ

def showAge (c : UserSearchData) (w : Window) : Window := { w with ageLabel := ageText c }

def buttonSelect (button : SexButton) (c : UserSearchData) (w : Window) : UserSearchData × Window :=
  if w.isSelected button then (c, w)
  else
    let w := { w with manButton := false, womanButton := false, noneButton := false }
    ({ c with sex := button.tag }, match button with
      | .manButton => { w with manButton := true }
      | .womanButton => { w with womanButton := true }
      | .noneButton => { w with noneButton := true })

def setUserData (c : UserSearchData) (w : Window) : UserSearchData × Window :=
  let w := showAge c w
  if c.sex = 0 then buttonSelect .noneButton c w
  else if c.sex = 1 then buttonSelect .manButton c w
  else if c.sex = 2 then buttonSelect .womanButton c w
  else (c, w)

/-- What `bind` sets up; the stored prefecture is an index that may trap. -/
def bind (sys : System) (c : UserSearchData) (w : Window) : Option Window :=
  let rangeSlider := { w.rangeSlider with minimumValue := 18, maximumValue := 99 }
  (element prefNames c.prefectureId).map fun prefText => showAge c { w with
    rangeSlider := { rangeSlider with
      lowerValue := if 0 < c.ageLower then c.ageLower else rangeSlider.minimumValue
      upperValue := if 0 < c.ageUpper then c.ageUpper else rangeSlider.maximumValue }
    pickerView := sys.untitled c.prefectureId
    prefTextField := prefText }

/-- The window as the storyboard has it. -/
def storyboard (sys : System) : Window where
  rangeSlider := {
    minimumValue := 18
    maximumValue := 99
    lowerValue := 18
    upperValue := 99
    width := sys.width
    height := 30 }

def viewWillAppear (sys : System) (c : UserSearchData) (w : Window) :
    Option (UserSearchData × Window) :=
  let (c, w) := setUserData c w
  (bind sys c w).map fun w => (c, w)

/-- A slider that has moved stores the nearest ages. -/
def valueChanged (c : UserSearchData) (w : Window) : UserSearchData × Window :=
  let c := { c with
    ageLower := rounded w.rangeSlider.lowerValue
    ageUpper := rounded w.rangeSlider.upperValue }
  (c, showAge c w)

def touchSlider (t : Touch) (c : UserSearchData) (w : Window) : Option (UserSearchData × Window) :=
  (touched w.rangeSlider t).map fun (rangeSlider, sent) =>
    if sent then valueChanged c { w with rangeSlider := rangeSlider }
    else (c, { w with rangeSlider := rangeSlider })

/-- The field of the prefecture is tapped. -/
def prefEditingDidBegin (sys : System) (c : UserSearchData) (w : Window) : Window :=
  { w with pickerView := sys.picker.selectedRow prefNames.length c.prefectureId }

def itemSelected (row : Int) (w : Window) : Option Window :=
  (element prefNames row).map fun name => { w with pickerView := row, prefTextField := name }

/-- `open` is a tap on the button of the search screen, `search` and `close` one on the
buttons of the window, which both close it. -/
inductive Event
  | open
  | touch (t : Touch)
  | tap (button : SexButton)
  | prefEditingDidBegin
  | itemSelected (row : Int)
  | search
  | close
  deriving DecidableEq

def step (sys : System) (a : App) : Event → Option App
  | .open => match a.window with
    | some _ => none
    | none => (viewWillAppear sys a.criteria (storyboard sys)).map fun (c, w) => ⟨c, some w⟩
  | .touch t => a.window.bind fun w => (touchSlider t a.criteria w).map fun (c, w) => ⟨c, some w⟩
  | .tap button => a.window.map fun w =>
    let (c, w) := buttonSelect button a.criteria w
    ⟨c, some w⟩
  | .prefEditingDidBegin => a.window.map fun w =>
    ⟨a.criteria, some (SearchWindow.prefEditingDidBegin sys a.criteria w)⟩
  | .itemSelected row => a.window.bind fun w =>
    (SearchWindow.itemSelected row w).map fun w => ⟨a.criteria, some w⟩
  | .search => a.window.map fun w => ⟨{ a.criteria with prefectureId := w.pickerView }, none⟩
  | .close => a.window.map fun _ => ⟨a.criteria, none⟩

/-- Criteria that the window can show. -/
structure Valid (c : UserSearchData) : Prop where
  lower : 18 ≤ c.ageLower
  ordered : c.ageLower ≤ c.ageUpper
  upper : c.ageUpper ≤ 99
  sex : ∃ button : SexButton, button.tag = c.sex
  prefecture : 0 ≤ c.prefectureId ∧ c.prefectureId < prefNames.length

/-- The label and the knobs show the stored ages, and one button, that of the stored sex, is
selected. -/
structure Shows (sys : System) (c : UserSearchData) (w : Window) : Prop where
  label : w.ageLabel = ageText c
  lower : rounded w.rangeSlider.lowerValue = c.ageLower
  upper : rounded w.rangeSlider.upperValue = c.ageUpper
  inOrder : InOrder w.rangeSlider
  track : w.rangeSlider.toAttributes = (storyboard sys).rangeSlider.toAttributes
  button : ∀ button, w.isSelected button = true ↔ button.tag = c.sex
  row : 0 ≤ w.pickerView ∧ w.pickerView < prefNames.length

structure Sound (sys : System) (a : App) : Prop where
  valid : Valid a.criteria
  shows : ∀ w ∈ a.window, Shows sys a.criteria w

theorem length_prefNames : prefNames.length = 49 := by
  rw [prefNames, List.length_set, length_prefNameArray]

private theorem prefNames_isSome {index : Int} (h : 0 ≤ index ∧ index < prefNames.length) :
    (element prefNames index).isSome = true := by
  have hrow : index.toNat < prefNames.length := by omega
  rw [element_of_range h.1, List.getElem?_eq_getElem hrow]
  rfl

private theorem row_of_element {index : Int} {name : String}
    (h : element prefNames index = some name) : 0 ≤ index ∧ index < prefNames.length := by
  unfold element at h
  split at h
  · cases h
  · obtain ⟨hrow, _⟩ := List.getElem?_eq_some_iff.mp h
    omega

private theorem tag_injective {b b' : SexButton} (h : b.tag = b'.tag) : b = b' := by
  cases b <;> cases b' <;> first | rfl | exact absurd h (by decide)

private theorem buttonSelect_spec (button : SexButton) {c : UserSearchData} {w : Window}
    (h : w.isSelected button = true → ∀ b, w.isSelected b = true ↔ b.tag = c.sex) :
    (buttonSelect button c w).1 = { c with sex := (buttonSelect button c w).1.sex } ∧
      (∃ b : SexButton, b.tag = (buttonSelect button c w).1.sex) ∧
      (buttonSelect button c w).2 = { w with
        manButton := (buttonSelect button c w).2.manButton
        womanButton := (buttonSelect button c w).2.womanButton
        noneButton := (buttonSelect button c w).2.noneButton } ∧
      ∀ b, (buttonSelect button c w).2.isSelected b = true ↔
        b.tag = (buttonSelect button c w).1.sex := by
  unfold buttonSelect
  split
  · rename_i hselected
    exact ⟨rfl, ⟨button, (h hselected button).mp hselected⟩, rfl, h hselected⟩
  · refine ⟨rfl, ⟨button, rfl⟩, ?_, fun b => ?_⟩
    · cases button <;> rfl
    · constructor
      · intro hb
        cases button <;> cases b <;> first | rfl | cases hb
      · intro htag
        obtain rfl := tag_injective htag
        cases b <;> rfl

private theorem viewWillAppear_spec (sys : System) {c : UserSearchData} (valid : Valid c) :
    ∃ w, viewWillAppear sys c (storyboard sys) = some (c, w) ∧ Shows sys c w ∧
      w.pickerView = sys.untitled c.prefectureId ∧
        element prefNames c.prefectureId = some w.prefTextField := by
  have hset : ∃ w, setUserData c (storyboard sys) = (c, w) ∧
      w.rangeSlider = (storyboard sys).rangeSlider ∧
        ∀ b, w.isSelected b = true ↔ b.tag = c.sex := by
    obtain ⟨button, hbutton⟩ := valid.sex
    have hspec := buttonSelect_spec button (c := c) (w := showAge c (storyboard sys))
      fun hselected => by cases button <;> cases hselected
    have hsex : (buttonSelect button c (showAge c (storyboard sys))).1 = c := by
      have hstored : { c with sex := button.tag } = c := by rw [hbutton]
      cases button <;> exact hstored
    have heq : setUserData c (storyboard sys) =
        buttonSelect button c (showAge c (storyboard sys)) := by
      unfold setUserData
      cases button with
      | noneButton =>
        have h0 : c.sex = 0 := hbutton.symm
        rw [if_pos h0]
      | manButton =>
        have h1 : c.sex = 1 := hbutton.symm
        rw [if_neg (by rw [h1]; decide), if_pos h1]
      | womanButton =>
        have h2 : c.sex = 2 := hbutton.symm
        rw [if_neg (by rw [h2]; decide), if_neg (by rw [h2]; decide), if_pos h2]
    refine ⟨_, heq.trans (Prod.ext hsex rfl), ?_, ?_⟩
    · have hcontrols := congrArg Window.rangeSlider hspec.2.2.1
      exact hcontrols
    · have hshows := hspec.2.2.2
      rw [hsex] at hshows
      exact hshows
  obtain ⟨w, hw, hslider, hbuttons⟩ := hset
  obtain ⟨name, hname⟩ := Option.isSome_iff_exists.mp (prefNames_isSome valid.prefecture)
  have hlower : 0 < c.ageLower := by have := valid.lower; omega
  have hupper : 0 < c.ageUpper := by have := valid.ordered; omega
  unfold viewWillAppear
  rw [hw]
  dsimp only
  unfold bind
  rw [hname, Option.map_some, Option.map_some, if_pos hlower, if_pos hupper, hslider]
  refine ⟨_, rfl, ⟨rfl, rounded_intCast c.ageLower, rounded_intCast c.ageUpper, ⟨?_, ?_, ?_⟩, rfl,
    hbuttons, sys.untitled_row _⟩, rfl, rfl⟩
  · exact Int.cast_le.mpr valid.lower
  · have hordered : (c.ageLower : ℚ) ≤ c.ageUpper := Int.cast_le.mpr valid.ordered
    show (c.ageLower : ℚ) + 0 ≤ c.ageUpper
    rw [add_zero]
    exact hordered
  · exact Int.cast_le.mpr valid.upper

private theorem valid_valueChanged {sys : System} {c : UserSearchData} {w : Window}
    (valid : Valid c) (inOrder : InOrder w.rangeSlider)
    (track : w.rangeSlider.toAttributes = (storyboard sys).rangeSlider.toAttributes) :
    Valid (valueChanged c w).1 := by
  have hleast : (18 : ℚ) ≤ w.rangeSlider.lowerValue := by
    have := inOrder.least
    rw [track] at this
    exact this
  have hapart : w.rangeSlider.lowerValue ≤ w.rangeSlider.upperValue := by
    have := inOrder.apart
    rw [track] at this
    have hzero : w.rangeSlider.lowerValue + 0 ≤ w.rangeSlider.upperValue := this
    rwa [add_zero] at hzero
  have hgreatest : w.rangeSlider.upperValue ≤ (99 : ℚ) := by
    have := inOrder.greatest
    rw [track] at this
    exact this
  have h18 : rounded (18 : ℚ) = 18 := rounded_intCast 18
  have h99 : rounded (99 : ℚ) = 99 := rounded_intCast 99
  exact ⟨h18 ▸ rounded_mono hleast, rounded_mono hapart, h99 ▸ rounded_mono hgreatest, valid.sex,
    valid.prefecture⟩

private theorem sound_step {sys : System} {a a' : App} {e : Event} (h : Sound sys a)
    (hstep : step sys a e = some a') : Sound sys a' := by
  cases e with
  | «open» =>
    simp only [step] at hstep
    split at hstep
    · cases hstep
    · obtain ⟨w, hw, hshows, _⟩ := viewWillAppear_spec sys h.valid
      rw [hw] at hstep
      obtain rfl := Option.some.inj hstep
      exact ⟨h.valid, fun v hv => Option.some.inj hv ▸ hshows⟩
  | touch t =>
    obtain ⟨w, hw, hstep⟩ := Option.bind_eq_some_iff.mp hstep
    have hshows := h.shows w hw
    obtain ⟨⟨c', w'⟩, htouch, rfl⟩ := Option.map_eq_some_iff.mp hstep
    obtain ⟨⟨slider, sent⟩, htouched, heq⟩ := Option.map_eq_some_iff.mp htouch
    have hfollows := touched_follows htouched
    have hinOrder := hfollows.inOrder hshows.inOrder
    have htrack := hfollows.attributes.trans hshows.track
    cases sent with
    | true =>
      have hstored : valueChanged a.criteria { w with rangeSlider := slider } = (c', w') := heq
      obtain ⟨rfl, rfl⟩ := Prod.mk.inj hstored
      exact ⟨valid_valueChanged (w := { w with rangeSlider := slider }) h.valid hinOrder htrack,
        fun v hv => Option.some.inj hv ▸
          ⟨rfl, rfl, rfl, hinOrder, htrack, hshows.button, hshows.row⟩⟩
    | false =>
      have hkept : (a.criteria, { w with rangeSlider := slider }) = (c', w') := heq
      obtain ⟨rfl, rfl⟩ := Prod.mk.inj hkept
      obtain ⟨hlower, hupper⟩ := hfollows.silent rfl
      refine ⟨h.valid, fun v hv => Option.some.inj hv ▸ ⟨hshows.label, ?_, ?_, hinOrder, htrack,
        hshows.button, hshows.row⟩⟩
      · exact (congrArg rounded hlower).trans hshows.lower
      · exact (congrArg rounded hupper).trans hshows.upper
  | tap button =>
    obtain ⟨w, hw, rfl⟩ := Option.map_eq_some_iff.mp hstep
    have hshows := h.shows w hw
    obtain ⟨hstored, hsex, hcontrols, hbuttons⟩ :=
      buttonSelect_spec button fun _ => hshows.button
    refine ⟨?_, fun v hv => Option.some.inj hv ▸ ?_⟩
    · dsimp only
      rw [hstored]
      exact ⟨h.valid.lower, h.valid.ordered, h.valid.upper, hsex, h.valid.prefecture⟩
    · dsimp only
      refine ⟨?_, ?_, ?_, ?_, ?_, hbuttons, ?_⟩ <;> rw [hcontrols] <;> try rw [hstored]
      · exact hshows.label
      · exact hshows.lower
      · exact hshows.upper
      · exact hshows.inOrder
      · exact hshows.track
      · exact hshows.row
  | prefEditingDidBegin =>
    obtain ⟨w, hw, rfl⟩ := Option.map_eq_some_iff.mp hstep
    have hshows := h.shows w hw
    have hrow := sys.picker.selects prefNames.length a.criteria.prefectureId h.valid.prefecture.1
      h.valid.prefecture.2
    refine ⟨h.valid, fun v hv => Option.some.inj hv ▸ ⟨hshows.label, hshows.lower, hshows.upper,
      hshows.inOrder, hshows.track, hshows.button, ?_⟩⟩
    dsimp only [prefEditingDidBegin]
    rw [hrow]
    exact h.valid.prefecture
  | itemSelected row =>
    obtain ⟨w, hw, hstep⟩ := Option.bind_eq_some_iff.mp hstep
    obtain ⟨w', hselected, rfl⟩ := Option.map_eq_some_iff.mp hstep
    obtain ⟨name, hname, rfl⟩ := Option.map_eq_some_iff.mp hselected
    have hshows := h.shows w hw
    exact ⟨h.valid, fun v hv => Option.some.inj hv ▸ ⟨hshows.label, hshows.lower, hshows.upper,
      hshows.inOrder, hshows.track, hshows.button, row_of_element hname⟩⟩
  | search =>
    obtain ⟨w, hw, rfl⟩ := Option.map_eq_some_iff.mp hstep
    exact ⟨⟨h.valid.lower, h.valid.ordered, h.valid.upper, h.valid.sex, (h.shows w hw).row⟩,
      fun v hv => nomatch hv⟩
  | close =>
    obtain ⟨w, _, rfl⟩ := Option.map_eq_some_iff.mp hstep
    exact ⟨h.valid, fun v hv => nomatch hv⟩

section Runs

variable {sys : System} {c : UserSearchData} {es : List Event} {a : App}

private theorem sound_run (valid : Valid c) (hr : run (step sys) ⟨c, none⟩ es = some a) :
    Sound sys a :=
  run_invariant (fun _ _ _ => sound_step) hr ⟨valid, fun _ hw => nomatch hw⟩

end Runs

/-- The field names the row of the picker. -/
def Named (a : App) : Prop :=
  ∀ w ∈ a.window, element prefNames w.pickerView = some w.prefTextField

/-- The picker of a window that opens keeps the row that it is told to select before it has
titles; and the field is not tapped while it names another prefecture than the stored one. -/
def Undisturbed (sys : System) (a : App) : Event → Prop
  | .open => a.window = none → sys.untitled a.criteria.prefectureId = a.criteria.prefectureId
  | .prefEditingDidBegin => ∀ w ∈ a.window,
    element prefNames a.criteria.prefectureId = some w.prefTextField
  | _ => True

instance (sys : System) (a : App) : ∀ e, Decidable (Undisturbed sys a e)
  | .open => inferInstanceAs (Decidable (a.window = none → _ = _))
  | .prefEditingDidBegin => inferInstanceAs (Decidable (∀ w ∈ a.window, _ = _))
  | .touch _ | .tap _ | .itemSelected _ | .search | .close => .isTrue trivial

private theorem prefNames_injective {i j : Int} {name : String}
    (hi : element prefNames i = some name) (hj : element prefNames j = some name) : i = j := by
  have hnodup : prefNames.Nodup := by decide +kernel
  have hlowi := row_of_element hi
  have hlowj := row_of_element hj
  rw [element_of_range hlowi.1] at hi
  rw [element_of_range hlowj.1] at hj
  have hrow := (List.getElem?_inj (by omega) hnodup).mp (hi.trans hj.symm)
  omega

private theorem touchSlider_picker {t : Touch} {c c' : UserSearchData} {w w' : Window}
    (h : touchSlider t c w = some (c', w')) :
    w'.pickerView = w.pickerView ∧ w'.prefTextField = w.prefTextField := by
  obtain ⟨⟨slider, sent⟩, _, heq⟩ := Option.map_eq_some_iff.mp h
  cases sent with
  | true =>
    have hstored : valueChanged c { w with rangeSlider := slider } = (c', w') := heq
    obtain ⟨rfl, rfl⟩ := Prod.mk.inj hstored
    exact ⟨rfl, rfl⟩
  | false =>
    have hkept : (c, { w with rangeSlider := slider }) = (c', w') := heq
    obtain ⟨rfl, rfl⟩ := Prod.mk.inj hkept
    exact ⟨rfl, rfl⟩

private theorem buttonSelect_picker (button : SexButton) (c : UserSearchData) (w : Window) :
    (buttonSelect button c w).2.pickerView = w.pickerView ∧
      (buttonSelect button c w).2.prefTextField = w.prefTextField := by
  unfold buttonSelect
  split
  · exact ⟨rfl, rfl⟩
  · cases button <;> exact ⟨rfl, rfl⟩

/-- The field names the row of the picker after an event exactly if the event is undisturbed. -/
private theorem named_iff {sys : System} {a : App} (hsound : Sound sys a) (hnamed : Named a)
    (e : Event) : (∀ a' ∈ step sys a e, Named a') ↔ Undisturbed sys a e := by
  cases e with
  | «open» =>
    cases hwindow : a.window with
    | some w => simp only [step, hwindow, Undisturbed, Option.mem_def, reduceCtorEq,
        IsEmpty.forall_iff, implies_true]
    | none =>
      obtain ⟨w, hw, _, hrow, hname⟩ := viewWillAppear_spec sys hsound.valid
      have hstep : step sys a .open = some ⟨a.criteria, some w⟩ := by
        simp only [step, hwindow, hw, Option.map_some]
      rw [next_iff hstep]
      constructor
      · intro hopened _
        have hshown := hopened w rfl
        rw [hrow] at hshown
        exact prefNames_injective hshown hname
      · intro hkept v hv
        obtain rfl := Option.some.inj hv
        rw [hrow, hkept hwindow]
        exact hname
  | prefEditingDidBegin =>
    have hrow := sys.picker.selects prefNames.length a.criteria.prefectureId
      hsound.valid.prefecture.1 hsound.valid.prefecture.2
    cases hwindow : a.window with
    | none => simp only [step, hwindow, Undisturbed, Option.map_none, Option.mem_def, reduceCtorEq,
        IsEmpty.forall_iff, implies_true]
    | some w =>
      have hstep : step sys a .prefEditingDidBegin =
          some ⟨a.criteria, some (prefEditingDidBegin sys a.criteria w)⟩ := by
        simp only [step, hwindow, Option.map_some]
      rw [next_iff hstep]
      simp only [Named, Undisturbed, hwindow, Option.mem_def, Option.some_inj, forall_eq',
        prefEditingDidBegin, hrow]
  | touch t =>
    refine iff_of_true (fun a' hstep => ?_) trivial
    obtain ⟨w, hw, hstep⟩ := Option.bind_eq_some_iff.mp hstep
    obtain ⟨⟨c', w'⟩, htouch, rfl⟩ := Option.map_eq_some_iff.mp hstep
    obtain ⟨hrow, htext⟩ := touchSlider_picker htouch
    intro v hv
    obtain rfl := Option.some.inj hv
    rw [hrow, htext]
    exact hnamed w hw
  | tap button =>
    refine iff_of_true (fun a' hstep => ?_) trivial
    obtain ⟨w, hw, rfl⟩ := Option.map_eq_some_iff.mp hstep
    obtain ⟨hrow, htext⟩ := buttonSelect_picker button a.criteria w
    intro v hv
    obtain rfl := Option.some.inj hv
    rw [hrow, htext]
    exact hnamed w hw
  | itemSelected row =>
    refine iff_of_true (fun a' hstep => ?_) trivial
    obtain ⟨w, _, hstep⟩ := Option.bind_eq_some_iff.mp hstep
    obtain ⟨w', hselected, rfl⟩ := Option.map_eq_some_iff.mp hstep
    obtain ⟨name, hname, rfl⟩ := Option.map_eq_some_iff.mp hselected
    intro v hv
    obtain rfl := Option.some.inj hv
    exact hname
  | search =>
    refine iff_of_true (fun a' hstep => ?_) trivial
    obtain ⟨w, _, rfl⟩ := Option.map_eq_some_iff.mp hstep
    exact fun v hv => nomatch hv
  | close =>
    refine iff_of_true (fun a' hstep => ?_) trivial
    obtain ⟨w, _, rfl⟩ := Option.map_eq_some_iff.mp hstep
    exact fun v hv => nomatch hv

/-- The field names the row of the picker in every state if and only if the picker keeps the
stored row as the window opens and the field is never tapped again after another choice. -/
theorem prefecture_shown_iff (sys : System) (c : UserSearchData) (valid : Valid c)
    (es : List Event) :
    Along (step sys) (fun a e => ∀ a' ∈ step sys a e, Named a') ⟨c, none⟩ es ↔
      Along (step sys) (Undisturbed sys) ⟨c, none⟩ es := by
  refine along_congr (P := fun a => Sound sys a ∧ Named a) (fun a e h => named_iff h.1 h.2 e) ?_
    ⟨⟨valid, fun _ hw => nomatch hw⟩, fun _ hw => nomatch hw⟩
  exact fun a e a' h hgoal hstep => ⟨sound_step h.1 hstep, hgoal a' hstep⟩

private theorem run_touches (sys : System) {ts : List Touch} {s s' : RangeSlider}
    (hr : run Slider.step s ts = some s') {c : UserSearchData} {w : Window}
    (hw : w.rangeSlider = s) : ∃ c' w', run (step sys) ⟨c, some w⟩ (ts.map .touch) =
      some ⟨c', some w'⟩ ∧ w'.rangeSlider = s' := by
  induction ts generalizing s c w with
  | nil =>
    obtain rfl := run_nil.mp hr
    exact ⟨c, w, rfl, hw⟩
  | cons t ts ih =>
    obtain ⟨m, hm, hrest⟩ := run_cons.mp hr
    obtain ⟨⟨m', sent⟩, htouched, rfl⟩ := Option.map_eq_some_iff.mp hm
    obtain ⟨c₁, w₁, htouch, hslider⟩ : ∃ c₁ w₁, touchSlider t c w = some (c₁, w₁) ∧
        w₁.rangeSlider = m' := by
      unfold touchSlider
      rw [hw, htouched]
      cases sent with
      | true => exact ⟨_, _, rfl, rfl⟩
      | false => exact ⟨_, _, rfl, rfl⟩
    obtain ⟨c', w', hrun, hlast⟩ := ih hrest (c := c₁) hslider
    refine ⟨c', w', run_cons.mpr ⟨⟨c₁, some w₁⟩, ?_, hrun⟩, hlast⟩
    simp only [step, Option.bind_some, htouch, Option.map_some]

/-- From every state of the window touches lead to every range of ages. -/
theorem every_range_chosen (sys : System) (width : 57 / 2 < sys.width) (c : UserSearchData)
    (valid : Valid c) (es : List Event) (a : App) (hr : run (step sys) ⟨c, none⟩ es = some a)
    (opened : a.window.isSome = true) (lower upper : Int) (least : 18 ≤ lower)
    (ordered : lower ≤ upper) (greatest : upper ≤ 99) : ∃ (ts : List Touch) (a' : App),
      run (step sys) a (ts.map .touch) = some a' ∧ a'.window.isSome = true ∧
        a'.criteria.ageLower = lower ∧ a'.criteria.ageUpper = upper := by
  obtain ⟨criteria, window⟩ := a
  obtain ⟨w, rfl⟩ := Option.isSome_iff_exists.mp opened
  have hsound := sound_run valid hr
  have hshows := hsound.shows w rfl
  have hsize : (storyboard sys).rangeSlider.KnobSize = 57 / 2 := by
    show (95 / 100 : ℚ) * 30 = 57 / 2
    norm_num
  have husable : Usable w.rangeSlider.toAttributes := by
    rw [hshows.track]
    refine ⟨rfl, ?_, ?_, ?_, le_refl _⟩
    · rw [hsize]
      norm_num
    · rw [hsize]
      exact width
    · show (18 : ℚ) < 99
      norm_num
  have hholds : (limits w.rangeSlider.toAttributes).Holds (lower : ℚ) upper := by
    rw [hshows.track]
    refine ⟨Int.cast_le.mpr least, ?_, Int.cast_le.mpr greatest⟩
    show (lower : ℚ) + 0 ≤ upper
    rw [add_zero]
    exact Int.cast_le.mpr ordered
  obtain ⟨ts, s', hrun, hlower, hupper⟩ := reaches_values husable hshows.inOrder hholds
  obtain ⟨c', w', hrun', hslider⟩ := run_touches sys hrun (c := criteria) rfl
  have hsound' := run_invariant (P := Sound sys) (fun _ _ _ => sound_step) hrun' hsound
  have hshows' := hsound'.shows w' rfl
  refine ⟨ts, _, hrun', rfl, ?_, ?_⟩
  · rw [← hshows'.lower, hslider, hlower]
    exact rounded_intCast lower
  · rw [← hshows'.upper, hslider, hupper]
    exact rounded_intCast upper

section Example

private def sys : System where
  picker := ⟨fun _ row => row, fun _ _ _ _ => rfl⟩
  untitled _ := 0
  untitled_row _ := by rw [length_prefNames]; decide
  width := 250

private theorem valid_default : Valid {} := by
  refine ⟨by decide, by decide, by decide, ⟨.noneButton, rfl⟩, by decide, ?_⟩
  rw [length_prefNames]
  decide

/-- The sex and the prefecture are chosen, and the field is tapped again. -/
private def chosen : List Event :=
  [.open, .tap .womanButton, .itemSelected 13, .prefEditingDidBegin]

private theorem chosen_runs :
    (run (step sys) ⟨{}, none⟩ chosen).map (fun a => a.window.isSome) = some true := by
  decide +kernel

/-- Everything is chosen, the search starts, and the window is opened again. -/
private def searched : List Event :=
  [.open, .tap .womanButton, .touch (.began ⟨14, 15⟩), .touch (.moved ⟨90, 15⟩), .touch .ended,
    .itemSelected 13, .search, .open]

/-- The second tap puts the picker back while the field still names Hokkaido. -/
theorem prefecture_shown_iff_tapped :
    ¬ Along (step sys) (fun a e => ∀ a' ∈ step sys a e, Named a') ⟨{}, none⟩ chosen := by
  rw [prefecture_shown_iff sys {} valid_default chosen]
  decide +kernel

theorem every_range_chosen_twenties : ∃ (a : App) (ts : List Touch) (a' : App),
    run (step sys) ⟨{}, none⟩ chosen = some a ∧ run (step sys) a (ts.map .touch) = some a' ∧
      a'.window.isSome = true ∧ a'.criteria.ageLower = 20 ∧ a'.criteria.ageUpper = 29 := by
  obtain ⟨a, ha, hopened⟩ := Option.map_eq_some_iff.mp chosen_runs
  have hwidth : 57 / 2 < sys.width := by
    show (57 / 2 : ℚ) < 250
    norm_num
  obtain ⟨ts, a', hrun, hages⟩ := every_range_chosen sys hwidth {} valid_default chosen a ha hopened
    20 29 (by decide) (by decide) (by decide)
  exact ⟨a, ts, a', ha, hrun, hages⟩

end Example

end PlateChat.Screen.SearchWindow
