/- PlateChat/Account/Editors
   digest: The screens that save profile fields, with the checks before each save. -/

import PlateChat.Account.Service

set_option autoImplicit false
set_option relaxedAutoImplicit false

/-!
Three screens call `updateLoginUser`, each with fields of its own. The profile screens
look at the text field and save what their view model holds, which follows the typing
but not the text that the screen itself fills in.
-/

namespace PlateChat.Account.Editors

open PlateChat.Foundation.Dictionary PlateChat.Foundation.Run PlateChat.Foundation.EventLoop
open PlateChat.Model.Members PlateChat.Model.LocalData PlateChat.Model.Profile
open PlateChat.Account.Service

/-- A profile screen as its save button is tapped. -/
structure ProfileForm where
  nicknameText : String
  nickName : String
  sex : Int := 0
  prefectureId : Int := 0
  age : Int := 0
  profileText : String := ""
  deriving DecidableEq

def ProfileForm.dic (form : ProfileForm) : LoginUserDoc where
  nickname := some form.nickName
  sex := some form.sex
  prefectureId := some form.prefectureId
  age := some form.age
  profileText := some form.profileText

def accountDic (loginEmail loginPassword : String) : LoginUserDoc where
  loginEmail := some loginEmail
  loginPassword := some loginPassword

def userCharacter (c : Char) : Bool := c.isAlphanum || c = '.' || c = '_' || c = '+' || c = '-'

def hostCharacter (c : Char) : Bool := c.isAlphanum || c = '.' || c = '-'

/-- `[A-Z0-9a-z._+-]+@[A-Za-z0-9.-]+\.[A-Za-z]{2,4}`: no class before the end has the
separator behind it, so the first `@` and the last `.` are the ones that match. -/
def isValidEmail (string : String) : Bool :=
  let user := string.toList.takeWhile (· ≠ '@')
  let rest := (string.toList.drop (user.length + 1)).reverse
  let top := rest.takeWhile (· ≠ '.')
  let host := rest.drop (top.length + 1)
  !user.isEmpty && user.all userCharacter && !host.isEmpty && host.all hostCharacter &&
    top.all Char.isAlpha && decide (2 ≤ top.length ∧ top.length ≤ 4)

inductive Form
  | registProfile (form : ProfileForm)
  | profileEdit (form : ProfileForm) (profileTextView : String)
  | account (loginEmail loginPassword : String)
  deriving DecidableEq

/-- What a screen saves, if its checks pass; `count` is the number of characters. -/
def Form.save (count : String → Nat) : Form → Option LoginUserDoc
  | .registProfile form => if form.nicknameText.isEmpty then none else some form.dic
  | .profileEdit form profileTextView =>
    if form.nicknameText.isEmpty then none
    else if 100 < count profileTextView then none
    else some form.dic
  | .account loginEmail loginPassword =>
    if loginEmail.isEmpty then none
    else if loginPassword.isEmpty then none
    else if isValidEmail loginEmail = false then none
    else some (accountDic loginEmail loginPassword)

/-- The document that a screen saves. -/
def Form.dic : Form → LoginUserDoc
  | .registProfile form | .profileEdit form _ => form.dic
  | .account loginEmail loginPassword => accountDic loginEmail loginPassword

/-- The checks decide whether it is saved, not what. -/
theorem Form.eq_dic {count : String → Nat} {form : Form} {dic : LoginUserDoc}
    (h : form.save count = some dic) : dic = form.dic := by
  cases form with
  | registProfile form =>
    obtain ⟨_, h⟩ := Option.ite_none_left_eq_some.mp h
    exact (Option.some.inj h).symm
  | profileEdit form profileTextView =>
    obtain ⟨_, h⟩ := Option.ite_none_left_eq_some.mp h
    obtain ⟨_, h⟩ := Option.ite_none_left_eq_some.mp h
    exact (Option.some.inj h).symm
  | account loginEmail loginPassword =>
    obtain ⟨_, h⟩ := Option.ite_none_left_eq_some.mp h
    obtain ⟨_, h⟩ := Option.ite_none_left_eq_some.mp h
    obtain ⟨_, h⟩ := Option.ite_none_left_eq_some.mp h
    exact (Option.some.inj h).symm

/-- No screen saves what the account itself consists of. -/
structure Editable (dic : LoginUserDoc) : Prop where
  email : dic.email = none
  password : dic.password = none
  status : dic.status = none
  fcmToken : dic.fcmToken = none

theorem Form.editable {count : String → Nat} {form : Form} {dic : LoginUserDoc}
    (h : form.save count = some dic) : Editable dic := by
  rw [Form.eq_dic h]
  cases form with
  | registProfile form => exact ⟨rfl, rfl, rfl, rfl⟩
  | profileEdit form profileTextView => exact ⟨rfl, rfl, rfl, rfl⟩
  | account loginEmail loginPassword => exact ⟨rfl, rfl, rfl, rfl⟩

inductive Action
  | save (form : Form)
  | createUser
  | setLastLogin
  | uploadProfileImage
  | deleteAccount
  | changeLoginUser (loginEmail loginPassword : String)
  | didBecomeActive
  | didReceiveRegistrationToken (token : String)
  deriving DecidableEq

/-- What an action asks of the account service; a refused save asks nothing. -/
def Action.operation (count : String → Nat) : Action → Option Service.Action
  | .save form => (form.save count).map .updateLoginUser
  | .createUser => some .createUser
  | .setLastLogin => some .setLastLogin
  | .uploadProfileImage => some .uploadProfileImage
  | .deleteAccount => some .deleteAccount
  | .changeLoginUser loginEmail loginPassword => some (.changeLoginUser loginEmail loginPassword)
  | .didBecomeActive => some .didBecomeActive
  | .didReceiveRegistrationToken token => some (.didReceiveRegistrationToken token)

def act (count : String → Nat) (s : Backend) (d : Device) (v : Action) : Outcome :=
  match v.operation count with
  | some operation => Service.act s d operation
  | none => { client := d }

end PlateChat.Account.Editors
