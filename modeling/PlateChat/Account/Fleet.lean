/- PlateChat/Account/Fleet
   digest: Any number of devices on one backend, and what their requests do to the profiles. -/

import PlateChat.Account.Editors
import PlateChat.Foundation.Fleet

set_option autoImplicit false
set_option relaxedAutoImplicit false

/-!
The documents and the accounts are the backend's, the signed-in user is each device's
own. The devices are all there is: no document changes but by a request of one of them.
-/

namespace PlateChat.Account.Fleet

open PlateChat.Foundation.Dictionary PlateChat.Foundation.Run PlateChat.Foundation.EventLoop
open PlateChat.Foundation.Fleet (Sharing Clients)
open PlateChat.Model.Members PlateChat.Model.LocalData PlateChat.Model.Profile
open PlateChat.Account.Service
open PlateChat.Account.Editors (Editable)

/-- What the devices share of the accounts. -/
structure Registry where
  loginUser : Dict Uid LoginUserDoc
  accounts : List Credential

def registry (s : Backend) : Registry := ⟨s.loginUser, s.accounts⟩

/-- The session stays the device's own. -/
def adopt (own new : Backend) : Backend :=
  { new with currentUser := own.currentUser, epoch := own.epoch, signedIn := own.signedIn }

def sharing : Sharing Backend Registry where
  shared := registry
  adopt := adopt
  shared_adopt _ _ := rfl

def program (count : String → Nat) :
    Program Backend Device Editors.Action Empty Request Answer Listener Snapshot where
  act s d v := some (Editors.act count s d v)
  serve := Service.serve
  handle := Service.handle
  snapshot := Service.snapshot
  notify := Service.notify
  env s _ := s

abbrev Phones (D : Type) := Clients D Backend Device Request Answer Listener

abbrev step {D : Type} [DecidableEq D] (count : String → Nat) :
    Phones D → D × Event Editors.Action Empty → Option (Phones D) :=
  Foundation.Fleet.step (program count) sharing

/-- All devices as they are launched, on one backend. -/
structure Launch (D : Type) where
  backend : Backend
  currentUser : D → Option Uid
  device : D → Device

def Launch.phones {D : Type} (launch : Launch D) : Phones D := fun d =>
  Service.start { launch.backend with currentUser := launch.currentUser d } (launch.device d)

/-- The account that a served request signs the device in to. -/
def signsInto (s : Backend) : Request → Bool → Option Uid
  | .createAuth email _, true =>
    if s.accounts.any fun a => a.email = email then none else some (s.uids s.accounts.length)
  | .signInCreated email password, true => s.account email password
  | .signIn _ user, true => s.account user.email user.password
  | _, _ => none

theorem serve_currentUser (s : Backend) (r : Request) (ok : Bool) :
    (Service.serve s r ok).1.currentUser = (signsInto s r ok).or s.currentUser := by
  cases ok with
  | false => cases r <;> rfl
  | true =>
    cases r with
    | createAuth email password =>
      simp only [Service.serve, createAuth, signsInto]
      split <;> rfl
    | signInCreated email password =>
      simp only [Service.serve, Service.signInCreated, signsInto]
      split <;> simp_all [Backend.signInAs]
    | signIn call user =>
      simp only [Service.serve, Service.signIn, signsInto]
      split <;> simp_all [Backend.signInAs]
    | _ => rfl

/-- The fields that a request merges into a profile. -/
def merged (s : Backend) : Request → Option (Uid × LoginUserDoc)
  | .setProfile uid dic => some (uid, dic)
  | .setDeleted uid => some (uid, { status := some 0, fcmToken := some "" })
  | .setLogin uid token => some (uid, { lastLoginDate := some s.clock, fcmToken := token })
  | .setImage uid url => some (uid, { profileImageUrl := some url })
  | _ => none

/-- The profiles that a request stores. -/
inductive Stored (s : Backend) : Request → Uid → LoginUserDoc → Prop
  | created (uid : Uid) (email password : String) :
      Stored s (.setNewUser uid email password) uid (newUser email password s.clock)
  | merged {r : Request} {uid : Uid} {dic : LoginUserDoc} : merged s r = some (uid, dic) →
      Stored s r uid (dic.merge ((s.loginUser.lookup uid).getD {}))

private theorem lookup_putUser {s : Backend} {uid v : Uid} {d d' : LoginUserDoc}
    (h : (s.putUser uid d).loginUser.lookup v = some d') :
    s.loginUser.lookup v = some d' ∨ v = uid ∧ d' = d := by
  by_cases hv : v = uid
  · subst hv
    exact .inr ⟨rfl, (Option.some.inj ((AList.lookup_insert _).symm.trans h)).symm⟩
  · exact .inl ((AList.lookup_insert_ne hv).symm.trans h)

theorem serve_lookup {s : Backend} {r : Request} {ok : Bool} {v : Uid} {d : LoginUserDoc}
    (h : (Service.serve s r ok).1.loginUser.lookup v = some d) :
    s.loginUser.lookup v = some d ∨ ok = true ∧ Stored s r v d := by
  cases ok with
  | false => cases r <;> exact .inl h
  | true =>
    cases r with
    | setNewUser uid email password =>
      refine (lookup_putUser h).imp_right ?_
      rintro ⟨rfl, rfl⟩
      exact ⟨rfl, .created v email password⟩
    | setProfile | setDeleted | setLogin | setImage =>
      refine (lookup_putUser h).imp_right ?_
      rintro ⟨rfl, rfl⟩
      exact ⟨rfl, .merged rfl⟩
    | createAuth email password =>
      simp only [Service.serve, createAuth] at h
      split at h <;> exact .inl h
    | signInCreated email password =>
      simp only [Service.serve, Service.signInCreated] at h
      split at h <;> exact .inl h
    | signIn call user =>
      simp only [Service.serve, Service.signIn] at h
      split at h <;> exact .inl h
    | getProfile | putAvatar | downloadURL | getBlockUser | getBlockedUser | setArticle =>
      exact .inl h

/-- A request leaves an active account with the document of a new user, or with its own, still
active, and some fields merged into it. -/
theorem serve_active {s : Backend} {r : Request} {ok : Bool} {uid : Uid} {d : LoginUserDoc}
    (hdic : ∀ v dic, r = .setProfile v dic → Editable dic)
    (h : (Service.serve s r ok).1.loginUser.lookup uid = some d) (hactive : d.status = some 1) :
    s.loginUser.lookup uid = some d ∨ ok = true ∧
      ((∃ email password, r = .setNewUser uid email password ∧
          d = newUser email password s.clock) ∨
        ∃ old dic, s.loginUser.lookup uid = some old ∧ old.status = some 1 ∧
          merged s r = some (uid, dic) ∧ d = dic.merge old) := by
  refine (serve_lookup h).imp_right fun hstored => ?_
  obtain ⟨hok, hstored⟩ := hstored
  refine ⟨hok, ?_⟩
  cases hstored with
  | created _ email password => exact .inl ⟨email, password, rfl, rfl⟩
  | @merged _ _ dic hmerged =>
    have hkept : dic.status = none ∨ dic.status = some 0 := by
      cases r with
      | setProfile v saved =>
        cases hmerged
        exact .inl (hdic _ _ rfl).status
      | setDeleted v =>
        cases hmerged
        exact .inr rfl
      | setLogin | setImage =>
        cases hmerged
        exact .inl rfl
      | _ => cases hmerged
    rcases hkept with hkept | hended
    · simp only [LoginUserDoc.merge, hkept, Option.none_or] at hactive
      cases hlookup : s.loginUser.lookup uid with
      | none =>
        rw [hlookup] at hactive
        cases hactive
      | some old =>
        rw [hlookup] at hactive
        exact .inr ⟨old, dic, rfl, hactive, hmerged, rfl⟩
    · simp only [LoginUserDoc.merge, hended] at hactive
      cases hactive

/-- The SDK's token, or the one in the cache. -/
def Cached (d : Device) (token : String) : Prop :=
  d.messagingToken = some token ∨ d.account.fcmToken = some token

/-- The requests that store a token, a profile or a new user, and the sign-ins of switches. -/
def keepsAccount : Request → Bool
  | .setLogin _ _ | .setProfile _ _ | .setNewUser _ _ _ | .signIn _ _ => true
  | _ => false

/-- No token is cached that was not, a token goes to the profile of the signed-in user, and
the other requests of these kinds are as `Issued` says. -/
structure Ordinary (Issued : Request → Prop) (s : Backend) (d : Device) (o : Outcome) : Prop where
  cached : ∀ token, Cached o.client token → Cached d token
  setLogin : ∀ uid token, .setLogin uid (some token) ∈ o.requests →
    s.currentUser = some uid ∧ Cached d token
  setProfile : ∀ uid dic, .setProfile uid dic ∈ o.requests → Issued (.setProfile uid dic)
  setNewUser : ∀ uid email password, .setNewUser uid email password ∈ o.requests →
    Issued (.setNewUser uid email password)
  signIn : ∀ call user, .signIn call user ∈ o.requests → Issued (.signIn call user)

variable {Issued : Request → Prop} {s : Backend} {d d' : Device} {o : Outcome}

theorem Ordinary.mono (h : Ordinary Issued s d' o)
    (hsub : ∀ token, Cached d' token → Cached d token) : Ordinary Issued s d o :=
  { h with
    cached := fun token ht => hsub token (h.cached token ht)
    setLogin := fun uid token hr => (h.setLogin uid token hr).imp_right (hsub token) }

theorem ordinary_of_silent (hcached : ∀ token, Cached o.client token → Cached d token)
    (hsilent : ∀ r ∈ o.requests, keepsAccount r = false) : Ordinary Issued s d o where
  cached := hcached
  setLogin _ _ hr := nomatch hsilent _ hr
  setProfile _ _ hr := nomatch hsilent _ hr
  setNewUser _ _ _ hr := nomatch hsilent _ hr
  signIn _ _ hr := nomatch hsilent _ hr

theorem ordinary_of_one {r : Request} (hone : o.requests = [r])
    (hcached : ∀ token, Cached o.client token → Cached d token)
    (hlogin : ∀ uid token, r = .setLogin uid (some token) →
      s.currentUser = some uid ∧ Cached d token)
    (hissued : (∀ uid token, r ≠ .setLogin uid token) → Issued r) : Ordinary Issued s d o := by
  have hmem : ∀ {q}, q ∈ o.requests → q = r := fun hq => List.mem_singleton.mp (hone ▸ hq)
  refine ⟨hcached, fun uid token hq => hlogin uid token (hmem hq).symm, fun uid dic hq => ?_,
    fun uid email password hq => ?_, fun call user hq => ?_⟩
  all_goals
    rw [hmem hq]
    refine hissued fun uid token heq => ?_
    cases (hmem hq).trans heq

theorem ordinary_same (s : Backend) (d : Device) : Ordinary Issued s d { client := d } :=
  ordinary_of_silent (fun _ h => h) (by simp)

theorem cached_of_eq (hm : d'.messagingToken = d.messagingToken)
    (ha : d'.account.fcmToken = d.account.fcmToken) :
    ∀ token, Cached d' token → Cached d token := by
  intro token h
  rwa [Cached, hm, ha] at h

theorem ordinary_setLastLogin (s : Backend) (d : Device) :
    Ordinary Issued s d (setLastLogin s d) := by
  unfold setLastLogin
  split
  · exact ordinary_same s d
  · rename_i uid huser
    refine ordinary_of_one rfl (fun token h => ?_) (fun v token hr => ?_)
      fun hother => absurd rfl (hother _ _)
    · cases hm : d.messagingToken with
      | none =>
        rw [hm] at h
        rcases h with h | h
        · cases h
        · exact .inr h
      | some sent =>
        rw [hm] at h
        rcases h with h | h <;> exact .inl (hm.trans h)
    · obtain ⟨rfl, htoken⟩ := Request.setLogin.inj hr
      refine ⟨huser, ?_⟩
      cases hm : d.messagingToken with
      | none =>
        rw [hm] at htoken
        exact .inr htoken
      | some sent =>
        rw [hm] at htoken
        exact .inl (hm.trans htoken)

theorem silent_getBlockUser (s : Backend) : ∀ r ∈ getBlockUser s, keepsAccount r = false := by
  intro r hr
  unfold getBlockUser at hr
  split at hr
  · rw [List.mem_singleton.mp hr]
    rfl
  · cases hr

theorem blockUserReceived_messagingToken (s : Backend) (d : Device) (uid : Uid)
    (answer : Except ServiceError (Option MembersDoc)) :
    (blockUserReceived s d uid answer).messagingToken = d.messagingToken := by
  unfold blockUserReceived
  split <;> rfl

theorem blockedUserReceived_messagingToken (s : Backend) (d : Device) (uid : Uid)
    (answer : Except ServiceError (Option MembersDoc)) :
    (blockedUserReceived s d uid answer).messagingToken = d.messagingToken := by
  unfold blockedUserReceived
  split
  · split <;> rfl
  · rfl

theorem cached_blockUserReceived (s : Backend) (d : Device) (uid : Uid)
    (answer : Except ServiceError (Option MembersDoc)) :
    ∀ token, Cached (blockUserReceived s d uid answer) token → Cached d token :=
  cached_of_eq (blockUserReceived_messagingToken s d uid answer)
    (congrArg AccountData.fcmToken (blockUserReceived_account s d uid answer))

theorem cached_blockedUserReceived (s : Backend) (d : Device) (uid : Uid)
    (answer : Except ServiceError (Option MembersDoc)) :
    ∀ token, Cached (blockedUserReceived s d uid answer) token → Cached d token :=
  cached_of_eq (blockedUserReceived_messagingToken s d uid answer)
    (congrArg AccountData.fcmToken (blockedUserReceived_account s d uid answer))

private theorem cached_settle (s : Backend) (d : Device) (uid : Uid) :
    ∀ token, Cached (settle s d uid) token → Cached d token := by
  unfold settle
  split <;> exact fun _ h => h

theorem ordinary_handle {r : Request} {a : Answer}
    (hnew : ∀ uid email password, r = .createAuth email password → a = .created (some uid) →
      Issued (.setNewUser uid email password))
    (ho : handle s d r a = some o) : Ordinary Issued s d o := by
  cases handle_handled ho with
  | createAuth email password uid =>
    cases uid with
    | none => exact ordinary_same s d
    | some uid =>
      refine ⟨fun _ h => h, ?_, ?_, ?_, ?_⟩ <;> intros <;>
        simp_all [createAuthCompletion]
  | signInCreated email password ok =>
    cases ok with
    | true => exact ordinary_same s d
    | false => exact ordinary_setLastLogin s d
  | setNewUser uid email password ok =>
    cases ok with
    | false => exact ordinary_same s d
    | true =>
      refine (ordinary_setLastLogin s _).mono fun token h => ?_
      exact cached_settle s (clearUserInfo d) uid token h
  | setProfile uid dic ok | setLogin uid token ok | putAvatar uid ok =>
    refine ordinary_of_silent (fun _ h => h) ?_
    cases ok <;> simp [keepsAccount]
  | setDeleted uid ok =>
    cases ok with
    | false => exact ordinary_same s d
    | true => exact ordinary_of_silent (fun _ h => h) (by simp [keepsAccount])
  | getProfile uid purpose answer =>
    unfold profileCompletion
    split
    · exact ordinary_same s d
    · cases purpose with
      | updateLoginUser | setLastLogin =>
        exact ordinary_of_silent (fun _ h => h) (silent_getBlockUser s)
      | deleteLoginUser =>
        refine ordinary_of_silent (fun _ h => h) fun r hr => ?_
        rcases List.mem_append.mp hr with hr | hr
        · exact silent_getBlockUser s r hr
        · rw [List.mem_singleton.mp hr]
          rfl
  | downloadURL uid url =>
    refine ordinary_of_silent (fun _ h => h) ?_
    cases url <;> simp [keepsAccount]
  | setImage uid url ok =>
    cases ok with
    | false => exact ordinary_same s d
    | true => exact ordinary_of_silent (fun _ h => h) (by simp [setImageCompletion])
  | getBlockUser uid answer =>
    refine ordinary_of_silent (cached_blockUserReceived s d uid answer) ?_
    dsimp only [getBlockUserCompletion]
    split <;> simp [keepsAccount]
  | getBlockedUser otherUid answer =>
    exact ordinary_of_silent (cached_blockedUserReceived s d otherUid answer) (by simp)
  | signIn call user uid =>
    cases uid with
    | none => exact ordinary_of_silent (fun _ h => h) (by simp [signInCompletion])
    | some uid =>
      refine ordinary_of_silent (fun token h => cached_settle s (clearUserInfo d) uid token h) ?_
      intro r hr
      rcases List.mem_append.mp hr with hr | hr
      · exact silent_getBlockUser s r hr
      · cases hr
  | setArticle key data ok => exact ordinary_same s d

theorem ordinary_notify {l : Listener} {x : Option Snapshot}
    (hswitch : ∀ call email password document rest user, l = .switchUser call email password →
      x = some (.users (document :: rest)) → LoginUser.ofDocument s.clock document = .ok user →
      Issued (.signIn call user))
    (ho : notify s d l x = some o) : Ordinary Issued s d o := by
  cases notify_notified ho with
  | failed | switchFailed => exact ordinary_of_silent (fun _ h => h) (by simp)
  | propagate uid documents | propagateImage uid documents =>
    unfold articlesDelivered
    split
    · refine ordinary_of_silent (fun _ h => h) fun r hr => ?_
      obtain ⟨article, -, rfl⟩ := List.mem_map.mp hr
      rfl
    · exact ordinary_same s d
  | endArticles uid documents =>
    unfold endArticlesDelivered
    split
    · refine ordinary_of_silent (fun _ h => h) fun r hr => ?_
      obtain ⟨article, -, rfl⟩ := List.mem_map.mp hr
      rfl
    · exact ordinary_same s d
  | switchUser call loginEmail loginPassword documents =>
    unfold switchDelivered
    split
    · exact ordinary_of_silent (fun _ h => h) (by simp)
    · split
      · rename_i document rest _ user hparsed
        exact ordinary_of_one rfl (fun _ h => h) (fun _ _ hr => by cases hr)
          fun _ => hswitch call loginEmail loginPassword document rest user rfl rfl hparsed
      · exact ordinary_of_silent (fun _ h => h) (by simp)
  | syncBlockUser uid document =>
    exact ordinary_of_silent (cached_blockUserReceived s d uid _) (by simp)
  | syncBlockedUser otherUid document =>
    exact ordinary_of_silent (cached_blockedUserReceived s d otherUid _) (by simp)

theorem ordinary_operation (s : Backend) (d : Device) {v : Service.Action}
    (hv : ∀ token, v ≠ .didReceiveRegistrationToken token)
    (hdic : ∀ uid dic, v = .updateLoginUser dic → s.currentUser = some uid →
      Issued (.setProfile uid dic)) :
    Ordinary Issued s d (Service.act s d v) := by
  cases v with
  | createUser =>
    exact ordinary_of_silent (fun _ h => h) (by simp [Service.act, createUser, keepsAccount])
  | setLastLogin => exact ordinary_setLastLogin s d
  | updateLoginUser dic =>
    simp only [Service.act, updateLoginUser]
    split
    · exact ordinary_same s d
    · rename_i user huser
      exact ordinary_of_one rfl (fun _ h => h) (fun _ _ hr => by cases hr)
        fun _ => hdic user dic rfl huser
  | uploadProfileImage =>
    simp only [Service.act, uploadProfileImage]
    split
    · exact ordinary_same s d
    · exact ordinary_of_silent (fun _ h => h) (by simp [keepsAccount])
  | deleteAccount =>
    simp only [Service.act, deleteLoginUser]
    split
    · exact ordinary_same s d
    · exact ordinary_of_silent (fun _ h => h) (by simp [keepsAccount])
  | changeLoginUser loginEmail loginPassword =>
    exact ordinary_of_silent (fun _ h => h) (by simp [Service.act, changeLoginUser])
  | didBecomeActive =>
    simp only [Service.act, didBecomeActive]
    split
    · exact ordinary_same s d
    · exact ordinary_of_silent (fun _ h => h) (by simp)
  | didReceiveRegistrationToken token => exact absurd rfl (hv token)

theorem ordinary_act (count : String → Nat) (s : Backend) (d : Device) {v : Editors.Action}
    (hv : ∀ token, v ≠ .didReceiveRegistrationToken token)
    (hsave : ∀ form uid dic, v = .save form → form.save count = some dic →
      s.currentUser = some uid → Issued (.setProfile uid dic)) :
    Ordinary Issued s d (Editors.act count s d v) := by
  unfold Editors.act
  split
  · rename_i operation hoperation
    refine ordinary_operation s d ?_ ?_
    · rintro token rfl
      cases v with
      | save form =>
        obtain ⟨dic, -, hdic⟩ := Option.map_eq_some_iff.mp hoperation
        cases hdic
      | didReceiveRegistrationToken sent => exact hv sent rfl
      | _ => cases hoperation
    · rintro uid dic rfl huser
      cases v with
      | save form =>
        obtain ⟨saved, hsaved, hdic⟩ := Option.map_eq_some_iff.mp hoperation
        cases hdic
        exact hsave form uid dic rfl hsaved huser
      | _ => cases hoperation
  · exact ordinary_same s d

end PlateChat.Account.Fleet
