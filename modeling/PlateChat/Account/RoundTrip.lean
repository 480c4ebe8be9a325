/- PlateChat/Account/RoundTrip
   digest: The two profile screens from the stored profile to the saved one. -/

import Mathlib.Data.List.Sort
import PlateChat.Account.Editors

set_option autoImplicit false
set_option relaxedAutoImplicit false

/-!
The ages leave out those below 18, so that the row of an age is not the age. The screens
select the age's own number as the row, and save the age of the selected row. Both pickers are
told to select a row before their titles are bound, so that there is no such row yet.
-/

namespace PlateChat.Account.RoundTrip

open PlateChat.Model.LocalData PlateChat.Model.Profile
open PlateChat.Account.Service (Device profileCached)
open PlateChat.Account.Editors

inductive ProfileScreen
  | profileEdit
  | registProfile
  deriving DecidableEq

inductive SexButton
  | noneButton
  | manButton
  | womanButton
  deriving DecidableEq

def SexButton.tag : SexButton → Int
  | .noneButton => 0
  | .manButton => 1
  | .womanButton => 2

/-- What `selectedRow` returns after `selectRow`, which selects the rows that there are. -/
structure UIPickerView where
  selectedRow (rows : Nat) (selectRow : Int) : Int
  selects : ∀ (rows : Nat) (row : Int), 0 ≤ row → row < rows → selectedRow rows row = row

def prefs : List (Int × String) :=
  [(0, "未設定"), (1, "東京都"), (2, "神奈川県"), (3, "埼玉県"), (4, "千葉県"), (5, "大阪府"),
    (6, "京都府"), (7, "兵庫県"), (8, "奈良県"), (9, "愛知県"), (10, "岐阜県"), (11, "三重県"),
    (12, "福岡県"), (13, "北海道"), (14, "青森県"), (15, "岩手県"), (16, "宮城県"), (17, "秋田県"),
    (18, "山形県"), (19, "福島県"), (20, "茨城県"), (21, "栃木県"), (22, "群馬県"), (23, "新潟県"),
    (24, "富山県"), (25, "石川県"), (26, "福井県"), (27, "山梨県"), (28, "長野県"), (29, "静岡県"),
    (30, "滋賀県"), (31, "和歌山県"), (32, "鳥取県"), (33, "島根県"), (34, "岡山県"), (35, "広島県"),
    (36, "山口県"), (37, "徳島県"), (38, "香川県"), (39, "愛媛県"), (40, "高知県"), (41, "佐賀県"),
    (42, "長崎県"), (43, "熊本県"), (44, "大分県"), (45, "宮崎県"), (46, "鹿児島県"), (47, "沖縄県"),
    (48, "海外")]

/-- 0 and the ages from 18 to 99. -/
def ages : List (Int × String) :=
  (0, "未設定") :: (List.range 82).map fun i : Nat => ((i : Int) + 18, ((i : Int) + 18).repr)

/-- `sorted(by: {$0.0 < $1.0})` -/
def sorted (names : List (Int × String)) : List (Int × String) :=
  names.insertionSort fun a b => a.1 ≤ b.1

def prefNameArray : List String := (sorted prefs).map Prod.snd

def ageNameArray : List String := (sorted ages).map Prod.snd

def ageIndexArray : List Int := (sorted ages).map Prod.fst

/-- An index that is out of range traps. -/
def element {τ : Type} (array : List τ) (index : Int) : Option τ :=
  if index < 0 then none else array[index.toNat]?

/-- The controls of a screen and its view model. -/
structure Controls where
  nicknameTextField : String := ""
  selectedButton : Option SexButton := none
  profileTextView : String := ""
  prefTextField : String := ""
  pickerView : Int := 0
  ageTextField : String := ""
  agePickerView : Int := 0
  nickName : String := ""
  sex : Int := 0
  profileText : String := ""
  deriving DecidableEq

namespace Controls

def buttonSelect (s : Controls) (button : SexButton) : Controls :=
  if s.selectedButton = some button then s
  else { s with selectedButton := some button, sex := button.tag }

def setSex (s : Controls) (sex : Int) : Controls :=
  if sex = 0 then s.buttonSelect .noneButton
  else if sex = 1 then s.buttonSelect .manButton
  else if sex = 2 then s.buttonSelect .womanButton
  else s

/-- The text view is there on one of the screens only. -/
def setUserData (screen : ProfileScreen) (a : AccountData) (s : Controls) : Controls :=
  let s := { s with nicknameTextField := a.nickname.getD "" }.setSex a.sex
  match screen with
  | .profileEdit => { s with profileTextView := a.profileText.getD "" }
  | .registProfile => s

/-- A text that is bound to the view model is handed over at once. The rows are selected before
there are any: `untitled` is what a picker that gets so many rows afterwards reports then. -/
def bind (screen : ProfileScreen) (untitled : Nat → Int → Int) (a : AccountData) (s : Controls) :
    Option Controls :=
  (element prefNameArray a.prefectureId).bind fun prefText =>
    (if a.age.repr ∈ ageNameArray then some a.age.repr else element ageNameArray a.age).map
      fun ageText => { s with
        nickName := s.nicknameTextField
        pickerView := untitled prefNameArray.length a.prefectureId
        prefTextField := prefText
        agePickerView := untitled ageNameArray.length a.age
        ageTextField := ageText
        profileText := match screen with
          | .profileEdit => s.profileTextView
          | .registProfile => s.profileText }

def viewDidLoad (screen : ProfileScreen) (untitled : Nat → Int → Int) (a : AccountData) :
    Option Controls :=
  bind screen untitled a (setUserData screen a {})

/-- Only one of the screens fills in the data again. -/
def viewWillAppear (screen : ProfileScreen) (a : AccountData) (s : Controls) : Controls :=
  match screen with
  | .profileEdit => setUserData .profileEdit a s
  | .registProfile => s

/-- The prefecture field is tapped; the picker has its rows by then. -/
def prefEditingDidBegin (picker : UIPickerView) (a : AccountData) (s : Controls) : Controls :=
  { s with pickerView := picker.selectedRow prefNameArray.length a.prefectureId }

/-- The age field is tapped, and the row of the age is selected. -/
def ageEditingDidBegin (picker : UIPickerView) (a : AccountData) (s : Controls) : Controls :=
  if a.age.repr ∈ ageNameArray then
    { s with agePickerView := picker.selectedRow ageNameArray.length (a.age - 17) }
  else s

/-- What the save button takes from the controls. -/
def form (s : Controls) (age : Int) : ProfileForm where
  nicknameText := s.nicknameTextField
  nickName := s.nickName
  sex := s.sex
  prefectureId := s.pickerView
  age := age
  profileText := s.profileText

/-- A tap on the save button: an alert, or what is handed to `updateLoginUser`. -/
def save (screen : ProfileScreen) (count : String → Nat) (s : Controls) :
    Option (Option LoginUserDoc) :=
  if s.nicknameTextField.isEmpty then some none
  else if screen = .profileEdit ∧ 100 < count s.profileTextView then some none
  else (element ageIndexArray s.agePickerView).map fun age => some (s.form age).dic

end Controls

/-- The screen is opened and saved without a touch in between. -/
def savedBack (screen : ProfileScreen) (untitled : Nat → Int → Int) (count : String → Nat)
    (a : AccountData) : Option (Option LoginUserDoc) :=
  (Controls.viewDidLoad screen untitled a).bind fun s =>
    (s.viewWillAppear screen a).save screen count

/-- The form that the other accounts of these screens speak of. -/
def Controls.toForm (screen : ProfileScreen) (s : Controls) (age : Int) : Form :=
  match screen with
  | .profileEdit => .profileEdit (s.form age) s.profileTextView
  | .registProfile => .registProfile (s.form age)

/-- Unless the age traps the screen saves what its form does. -/
theorem save_of_age {screen : ProfileScreen} {count : String → Nat} {s : Controls} {age : Int}
    (h : element ageIndexArray s.agePickerView = some age) :
    s.save screen count = some ((s.toForm screen age).save count) := by
  rw [Controls.save, h]
  by_cases hnickname : s.nicknameTextField.isEmpty
  · rw [if_pos hnickname]
    cases screen <;> exact congrArg some (if_pos hnickname).symm
  rw [if_neg hnickname]
  cases screen with
  | registProfile =>
    rw [if_neg fun h => nomatch h.1]
    exact congrArg some (if_neg hnickname).symm
  | profileEdit =>
    by_cases hlong : 100 < count s.profileTextView
    · rw [if_pos ⟨rfl, hlong⟩]
      exact congrArg some ((if_neg hnickname).trans (if_pos hlong)).symm
    · rw [if_neg fun h => hlong h.2]
      exact congrArg some ((if_neg hnickname).trans (if_neg hlong)).symm

theorem element_of_range {τ : Type} {array : List τ} {index : Int} (lower : 0 ≤ index) :
    element array index = array[index.toNat]? := if_neg (not_lt.mpr lower)

theorem length_prefNameArray : prefNameArray.length = 49 := by
  decide +kernel

theorem prefName_isSome {prefectureId : Int} (lower : 0 ≤ prefectureId)
    (upper : prefectureId ≤ 48) : (element prefNameArray prefectureId).isSome = true := by
  have hrow : prefectureId.toNat < prefNameArray.length := by
    rw [length_prefNameArray]
    omega
  rw [element_of_range lower, List.getElem?_eq_getElem hrow]
  rfl

private theorem sorted_ages : sorted ages = ages := by
  refine List.Pairwise.insertionSort_eq ?_
  rw [ages, List.pairwise_cons, List.pairwise_map]
  refine ⟨fun a ha => ?_, ?_⟩
  · obtain ⟨i, _, rfl⟩ := List.mem_map.mp ha
    exact Int.add_nonneg (Int.natCast_nonneg i) (by decide)
  · exact List.pairwise_lt_range.imp fun {i j} h => by
      show (i : Int) + 18 ≤ j + 18
      omega

theorem ageIndexArray_eq :
    ageIndexArray = 0 :: (List.range 82).map fun i : Nat => (i : Int) + 18 := by
  rw [ageIndexArray, sorted_ages, ages, List.map_cons, List.map_map]
  rfl

theorem length_ageNameArray : ageNameArray.length = 83 := by
  rw [ageNameArray, sorted_ages, ages]
  simp

/-- Row 0 has no age, and row `r` the age `r + 17`. -/
theorem element_ageIndexArray {row age : Int} : element ageIndexArray row = some age ↔
    row = 0 ∧ age = 0 ∨ 1 ≤ row ∧ row ≤ 82 ∧ age = row + 17 := by
  rcases lt_or_ge row 0 with hneg | hrow
  · rw [element, if_pos hneg]
    refine iff_of_false (fun h => nomatch h) ?_
    omega
  obtain ⟨n, rfl⟩ := Int.eq_ofNat_of_zero_le hrow
  rw [element_of_range hrow, Int.toNat_natCast, ageIndexArray_eq]
  cases n with
  | zero =>
    rw [List.getElem?_cons_zero, Option.some_inj]
    omega
  | succ n =>
    rw [List.getElem?_cons_succ, List.getElem?_map]
    rcases lt_or_ge n 82 with hlt | hge
    · rw [List.getElem?_range hlt, Option.map_some, Option.some_inj]
      omega
    · rw [List.getElem?_eq_none (by rwa [List.length_range]), Option.map_none]
      refine iff_of_false (fun h => nomatch h) ?_
      omega

theorem ageName_mem {age : Int} (lower : 18 ≤ age) (upper : age ≤ 99) :
    age.repr ∈ ageNameArray := by
  rw [ageNameArray, sorted_ages, ages, List.map_cons, List.map_map]
  refine List.mem_cons_of_mem _ (List.mem_map.mpr ⟨(age - 18).toNat, ?_, ?_⟩)
  · rw [List.mem_range]
    omega
  · have hage : (((age - 18).toNat : Int) + 18) = age := by omega
    exact congrArg Int.repr hage

theorem prefecture_of_editing (picker : UIPickerView) {a : AccountData} (s : Controls)
    (lower : 0 ≤ a.prefectureId) (upper : a.prefectureId ≤ 48) :
    (s.prefEditingDidBegin picker a).pickerView = a.prefectureId := by
  have hselects := picker.selects prefNameArray.length a.prefectureId lower
  rw [length_prefNameArray] at hselects
  rw [Controls.prefEditingDidBegin, length_prefNameArray]
  exact hselects (by omega)

theorem age_of_editing (picker : UIPickerView) {a : AccountData} (s : Controls)
    (lower : 18 ≤ a.age) (upper : a.age ≤ 99) :
    element ageIndexArray (s.ageEditingDidBegin picker a).agePickerView = some a.age := by
  rw [Controls.ageEditingDidBegin, if_pos (ageName_mem lower upper), element_ageIndexArray,
    length_ageNameArray]
  have hselects := picker.selects 83 (a.age - 17)
  dsimp only
  omega

/-- A profile as the screens let it be saved. -/
structure Stored (count : String → Nat) (user : LoginUser) : Prop where
  nickname : user.nickname ≠ ""
  profileText : count user.profileText ≤ 100
  sex : 0 ≤ user.sex ∧ user.sex ≤ 2
  prefectureId : 0 ≤ user.prefectureId ∧ user.prefectureId ≤ 48
  age : user.age = 0 ∨ 18 ≤ user.age ∧ user.age ≤ 99

/-- The fields that the screens are about, as they are stored. -/
def profileDic (user : LoginUser) : LoginUserDoc where
  nickname := some user.nickname
  sex := some user.sex
  prefectureId := some user.prefectureId
  age := some user.age
  profileText := some user.profileText

section RoundTrip

variable {count : String → Nat} {untitled : Nat → Int → Int} {screen : ProfileScreen}
  {device : Device} {user : LoginUser}

/-- The view model has the tag of the button that is selected. -/
private def Follows (s : Controls) : Prop := ∀ button ∈ s.selectedButton, s.sex = button.tag

private theorem buttonSelect_eq {s : Controls} (follows : Follows s) (button : SexButton) :
    s.buttonSelect button = { s with selectedButton := some button, sex := button.tag } := by
  by_cases hselected : s.selectedButton = some button
  · have hsex := follows button hselected
    rw [Controls.buttonSelect, if_pos hselected]
    cases s
    cases hselected
    cases hsex
    rfl
  · exact if_neg hselected

private theorem setSex_eq {s : Controls} (follows : Follows s) {sex : Int} (lower : 0 ≤ sex)
    (upper : sex ≤ 2) : ∃ button : SexButton, button.tag = sex ∧
      s.setSex sex = { s with selectedButton := some button, sex := sex } := by
  have hsex : sex = 0 ∨ sex = 1 ∨ sex = 2 := by omega
  rcases hsex with rfl | rfl | rfl
  · exact ⟨.noneButton, rfl, buttonSelect_eq follows .noneButton⟩
  · exact ⟨.manButton, rfl, buttonSelect_eq follows .manButton⟩
  · exact ⟨.womanButton, rfl, buttonSelect_eq follows .womanButton⟩

/-- The text that reaches the view model. -/
def boundText (screen : ProfileScreen) (text : String) : String :=
  match screen with
  | .profileEdit => text
  | .registProfile => ""

private theorem ageText_isSome (h : user.age = 0 ∨ 18 ≤ user.age ∧ user.age ≤ 99) :
    ∃ ageText, (if user.age.repr ∈ ageNameArray then some user.age.repr
      else element ageNameArray user.age) = some ageText := by
  by_cases hname : user.age.repr ∈ ageNameArray
  · exact ⟨_, if_pos hname⟩
  · rw [if_neg hname]
    rcases h with hzero | ⟨lower, upper⟩
    · have hrow : 0 < ageNameArray.length := by
        rw [length_ageNameArray]
        decide
      rw [hzero, element_of_range le_rfl]
      exact ⟨_, List.getElem?_eq_getElem hrow⟩
    · exact absurd (ageName_mem lower upper) hname

/-- The controls show the profile. -/
private structure Filled (screen : ProfileScreen) (user : LoginUser) (s : Controls) : Prop where
  follows : Follows s
  nicknameTextField : s.nicknameTextField = user.nickname
  sex : s.sex = user.sex
  profileTextView : screen = .profileEdit → s.profileTextView = user.profileText

/-- The pickers and the view model have been given the profile. -/
private structure Bound (screen : ProfileScreen) (untitled : Nat → Int → Int) (user : LoginUser)
    (s : Controls) : Prop where
  nickName : s.nickName = user.nickname
  pickerView : s.pickerView = untitled 49 user.prefectureId
  agePickerView : s.agePickerView = untitled 83 user.age
  profileText : s.profileText = boundText screen user.profileText

private theorem setUserData_eq (screen : ProfileScreen) (device : Device) (h : Stored count user)
    {s : Controls} (follows : Follows s) :
    ∃ button : SexButton, ∃ text, button.tag = user.sex ∧
      (screen = .profileEdit → text = user.profileText) ∧
      Controls.setUserData screen (profileCached device user).account s = { s with
        nicknameTextField := user.nickname
        selectedButton := some button
        sex := user.sex
        profileTextView := text } := by
  obtain ⟨button, htag, hset⟩ := setSex_eq (s := { s with nicknameTextField := user.nickname })
    follows h.sex.1 h.sex.2
  cases screen with
  | profileEdit =>
    refine ⟨button, user.profileText, htag, fun _ => rfl, ?_⟩
    exact congrArg (fun s : Controls => { s with profileTextView := user.profileText }) hset
  | registProfile => exact ⟨button, s.profileTextView, htag, (fun h => nomatch h), hset⟩

private theorem filled_setUserData (screen : ProfileScreen) (device : Device)
    (h : Stored count user) {s : Controls} (follows : Follows s) :
    Filled screen user (Controls.setUserData screen (profileCached device user).account s) := by
  obtain ⟨button, text, htag, htext, heq⟩ := setUserData_eq screen device h follows
  rw [heq]
  refine ⟨fun other hother => ?_, rfl, rfl, htext⟩
  obtain rfl := Option.some.inj hother
  exact htag.symm

private theorem bound_setUserData (h : Stored count user) {s : Controls} (follows : Follows s)
    (bound : Bound screen untitled user s) : Bound screen untitled user
      (Controls.setUserData screen (profileCached device user).account s) := by
  obtain ⟨button, text, _, _, heq⟩ := setUserData_eq screen device h follows
  rw [heq]
  exact ⟨bound.nickName, bound.pickerView, bound.agePickerView, bound.profileText⟩

private theorem bind_of_filled (untitled : Nat → Int → Int) (device : Device)
    (h : Stored count user) {s : Controls} (filled : Filled screen user s) (fresh : s.profileText = "") :
    ∃ t, Controls.bind screen untitled (profileCached device user).account s = some t ∧
      Filled screen user t ∧ Bound screen untitled user t := by
  obtain ⟨ageText, hage⟩ := ageText_isSome h.age
  obtain ⟨prefText, hpref⟩ := Option.isSome_iff_exists.mp
    (prefName_isSome h.prefectureId.1 h.prefectureId.2)
  have hbind : Controls.bind screen untitled (profileCached device user).account s = some _ :=
    (congrArg (fun o => Option.bind o _) hpref).trans (congrArg (Option.map _) hage)
  refine ⟨_, hbind, ⟨filled.follows, filled.nicknameTextField, filled.sex,
    filled.profileTextView⟩, ⟨filled.nicknameTextField, ?_, ?_, ?_⟩⟩
  · rw [← length_prefNameArray]
    rfl
  · rw [← length_ageNameArray]
    rfl
  · cases screen with
    | profileEdit => exact filled.profileTextView rfl
    | registProfile => exact fresh

private theorem opened (screen : ProfileScreen) (untitled : Nat → Int → Int) (device : Device)
    (h : Stored count user) :
    ∃ s, Controls.viewDidLoad screen untitled (profileCached device user).account = some s ∧
      Filled screen user (s.viewWillAppear screen (profileCached device user).account) ∧
      Bound screen untitled user (s.viewWillAppear screen (profileCached device user).account) := by
  have hstart : Follows {} := fun _ hbutton => nomatch hbutton
  obtain ⟨button, text, _, _, heq⟩ := setUserData_eq screen device h hstart
  have hfilled := filled_setUserData screen device h hstart
  obtain ⟨s, hs, hfilled', hbound⟩ := bind_of_filled untitled device h hfilled
    (by rw [heq])
  refine ⟨s, hs, ?_⟩
  cases screen with
  | profileEdit =>
    exact ⟨filled_setUserData _ _ h hfilled'.follows,
      bound_setUserData h hfilled'.follows hbound⟩
  | registProfile => exact ⟨hfilled', hbound⟩

/-- A save writes the profile, but the rows that the pickers report, and the text that was
bound. -/
theorem savedBack_eq (h : Stored count user) :
    savedBack screen untitled count (profileCached device user).account =
      (element ageIndexArray (untitled 83 user.age)).map fun age =>
        some { profileDic user with
          prefectureId := some (untitled 49 user.prefectureId)
          age := some age
          profileText := some (boundText screen user.profileText) } := by
  obtain ⟨s, hs, filled, bound⟩ := opened screen untitled device h
  rw [savedBack, hs, Option.bind_some]
  generalize s.viewWillAppear screen (profileCached device user).account = t at filled bound ⊢
  have hnickname : ¬ t.nicknameTextField.isEmpty = true := by
    rw [String.isEmpty_iff, filled.nicknameTextField]
    exact h.nickname
  have hshort : ¬ (screen = .profileEdit ∧ 100 < count t.profileTextView) := by
    rintro ⟨hscreen, hlong⟩
    rw [filled.profileTextView hscreen] at hlong
    exact absurd h.profileText (not_le.mpr hlong)
  rw [Controls.save, if_neg hnickname, if_neg hshort, bound.agePickerView]
  have hform : ∀ age, (t.form age).dic = { profileDic user with
      prefectureId := some (untitled 49 user.prefectureId)
      age := some age
      profileText := some (boundText screen user.profileText) } := by
    intro age
    unfold Controls.form ProfileForm.dic
    rw [bound.nickName, filled.sex, bound.pickerView, bound.profileText]
    rfl
  simp only [hform]

/-- Row 0 says that there is no age. -/
def ageRow (age : Int) : Int := if age = 0 then 0 else age - 17

private theorem age_saved_iff (h : user.age = 0 ∨ 18 ≤ user.age ∧ user.age ≤ 99) :
    element ageIndexArray (untitled 83 user.age) = some user.age ↔
      untitled 83 user.age = ageRow user.age := by
  rw [element_ageIndexArray, ageRow]
  split <;> omega

private theorem boundText_iff {text : String} :
    boundText screen text = text ↔ screen = .profileEdit ∨ text = "" := by
  cases screen with
  | profileEdit => exact iff_of_true rfl (.inl rfl)
  | registProfile =>
    refine ⟨fun h => .inr h.symm, fun h => ?_⟩
    rcases h with h | h
    · cases h
    · exact h.symm

end RoundTrip

/-- A stored profile comes back as it is from the screen exactly if the two pickers, which have
been told the prefecture and the age before they had rows, report the rows of the prefecture and
of the age; and if it has no text, or the screen has the text. -/
theorem savedBack_iff (screen : ProfileScreen) (untitled : Nat → Int → Int) (count : String → Nat)
    (device : Device) (user : LoginUser) (h : Stored count user) :
    savedBack screen untitled count (profileCached device user).account =
        some (some (profileDic user)) ↔
      untitled 49 user.prefectureId = user.prefectureId ∧
        untitled 83 user.age = ageRow user.age ∧
        (screen = .profileEdit ∨ user.profileText = "") := by
  rw [savedBack_eq h, ← age_saved_iff h.age, ← boundText_iff, Option.map_eq_some_iff]
  constructor
  · rintro ⟨age, hage, hdic⟩
    have hdic := Option.some.inj hdic
    have hprefecture := congrArg LoginUserDoc.prefectureId hdic
    have hown := congrArg LoginUserDoc.age hdic
    have htext := congrArg LoginUserDoc.profileText hdic
    exact ⟨Option.some.inj hprefecture, hage.trans hown, Option.some.inj htext⟩
  · rintro ⟨hprefecture, hage, htext⟩
    refine ⟨user.age, hage, ?_⟩
    rw [hprefecture, htext]
    rfl

section Example

private def device : Device where
  emails := toString

/-- A picker that keeps the row that it has been told before it has rows. -/
private def kept (_ : Nat) (row : Int) : Int := row

/-- A picker that is back at its first row when it gets its rows. -/
private def reset (_ : Nat) (_ : Int) : Int := 0

private def profile (age : Int) (profileText : String) : LoginUser where
  key := "alice"
  email := "1_a@p-chat.net"
  password := "password1234"
  loginEmail := ""
  loginPassword := ""
  nickname := "Alice"
  sex := 2
  prefectureId := 13
  age := age
  profileText := profileText
  profileImageUrl := ""
  status := 1
  notificationOn := true
  createdDate := 0
  updatedDate := 0
  notificationReply := true
  notificationMessage := true
  notificationFootprint := true

private theorem stored_profile {age : Int} {text : String} (hage : age = 0 ∨ 18 ≤ age ∧ age ≤ 99)
    (htext : text.length ≤ 100) : Stored String.length (profile age text) := by
  refine ⟨?_, htext, ?_, ?_, hage⟩
  · show "Alice" ≠ ""
    decide
  · show (0 : Int) ≤ 2 ∧ (2 : Int) ≤ 2
    decide
  · show (0 : Int) ≤ 13 ∧ (13 : Int) ≤ 48
    decide

/-- Whatever the pickers report, the second screen drops the text that Alice has stored. The
first one makes her thirty-five, or lets her live nowhere. -/
theorem eighteen_not_saved_back :
    (∀ untitled : Nat → Int → Int, ¬ ∀ (screen : ProfileScreen) (count : String → Nat)
      (device : Device) (user : LoginUser), Stored count user →
        savedBack screen untitled count (profileCached device user).account =
          some (some (profileDic user))) ∧
    ∀ untitled ∈ [kept, reset], ¬ ∀ (count : String → Nat) (device : Device) (user : LoginUser),
      Stored count user →
        savedBack .profileEdit untitled count (profileCached device user).account =
          some (some (profileDic user)) := by
  have eighteen : (18 : Int) = 0 ∨ 18 ≤ (18 : Int) ∧ (18 : Int) ≤ 99 := .inr (by decide)
  constructor
  · intro untitled claim
    have hstored : Stored String.length (profile 18 "hello") :=
      stored_profile eighteen (by decide)
    have hsaved := claim .registProfile String.length device (profile 18 "hello") hstored
    rw [savedBack_eq hstored] at hsaved
    obtain ⟨_, _, hdic⟩ := Option.map_eq_some_iff.mp hsaved
    have htext : "" = "hello" :=
      Option.some.inj (congrArg LoginUserDoc.profileText (Option.some.inj hdic))
    exact absurd htext (by decide)
  · have hstored : Stored String.length (profile 18 "") := stored_profile eighteen (by decide)
    intro untitled huntitled claim
    have hsaved := claim String.length device (profile 18 "") hstored
    rw [savedBack_eq hstored] at hsaved
    rcases List.mem_pair.mp huntitled with rfl | rfl
    · revert hsaved
      decide +kernel
    · revert hsaved
      decide +kernel

theorem savedBack_iff_ageless : savedBack .profileEdit kept String.length
    (profileCached device (profile 0 "hello")).account =
      some (some (profileDic (profile 0 "hello"))) :=
  (savedBack_iff .profileEdit kept String.length device (profile 0 "hello")
    (stored_profile (.inl rfl) (by decide))).mpr ⟨rfl, rfl, .inl rfl⟩

end Example

end PlateChat.Account.RoundTrip
