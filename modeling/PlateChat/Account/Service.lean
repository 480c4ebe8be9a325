/- PlateChat/Account/Service
   digest: One device's account: sign-ins, profile reads and writes, and the listeners they leave. -/

import PlateChat.Foundation.Rules
import PlateChat.Model.LocalData
import PlateChat.Model.Profile

set_option autoImplicit false
set_option relaxedAutoImplicit false

/-!
The services remember the uid they were started for, the device keeps one set of
caches for whoever is signed in, and no listener registered here is ever removed.
The signed-in user changes when the sign-in is served, before its completion runs.
-/

namespace PlateChat.Account.Service

open PlateChat.Foundation.Dictionary PlateChat.Foundation.Run PlateChat.Foundation.EventLoop
open PlateChat.Model.Members PlateChat.Model.LocalData PlateChat.Model.Profile

/-- An account of the authentication service. -/
structure Credential where
  uid : Uid
  email : String
  password : String
  deriving DecidableEq

/-- The backend with its SDK's own state. `uids` and `urls` are the ids and addresses it
hands out; `epoch` counts changes of the signed-in user, `history` lists every profile
version ever stored, and `signedIn` the switches that signed in. -/
structure Backend where
  currentUser : Option Uid := none
  epoch : Nat := 0
  accounts : List Credential := []
  uids : Nat → Uid
  urls : Nat → String
  uploads : Nat := 0
  loginUser : Dict Uid LoginUserDoc := ∅
  userBlock : Dict Uid MembersDoc := ∅
  userBlocked : Dict Uid MembersDoc := ∅
  articles : List (Nat × ArticleDoc) := []
  clock : Nat := 0
  history : List (Uid × LoginUserDoc) := []
  signedIn : List Nat := []

namespace Backend

def signInAs (s : Backend) (uid : Uid) : Backend :=
  { s with
    currentUser := some uid
    epoch := if s.currentUser = some uid then s.epoch else s.epoch + 1 }

def account (s : Backend) (email password : String) : Option Uid :=
  (s.accounts.find? fun a => a.email = email ∧ a.password = password).map Credential.uid

/-- `setData` on a profile. -/
def putUser (s : Backend) (uid : Uid) (d : LoginUserDoc) : Backend :=
  { s with
    loginUser := s.loginUser.insert uid d
    history := (uid, d) :: s.history
    clock := s.clock + 1 }

/-- `setData` with `merge: true` on a profile. -/
def mergeUser (s : Backend) (uid : Uid) (d : LoginUserDoc) : Backend :=
  s.putUser uid (d.merge ((s.loginUser.lookup uid).getD {}))

def mergeArticle (s : Backend) (key : Nat) (p : ArticlePatch) : Backend :=
  { s with
    articles := s.articles.map fun a => if a.1 = key then (a.1, p.merge a.2) else a
    clock := s.clock + 1 }

end Backend

/-- What a profile is read again for. -/
inductive Purpose
  | updateLoginUser
  | deleteLoginUser
  | setLastLogin
  deriving DecidableEq

inductive Request
  | createAuth (email password : String)
  | signInCreated (email password : String)
  | setNewUser (uid : Uid) (email password : String)
  | setProfile (uid : Uid) (dic : LoginUserDoc)
  | setDeleted (uid : Uid)
  | setLogin (uid : Uid) (token : Option String)
  | getProfile (uid : Uid) (purpose : Purpose)
  | putAvatar (uid : Uid)
  | downloadURL (uid : Uid)
  | setImage (uid : Uid) (url : String)
  | getBlockUser (uid : Uid)
  | getBlockedUser (otherUid : Uid)
  | signIn (call : Nat) (user : LoginUser)
  | setArticle (key : Nat) (data : ArticlePatch)
  deriving DecidableEq

inductive Answer
  | created (uid : Option Uid)
  | written (ok : Bool)
  | profile (document : Except ServiceError (Option LoginUserDoc))
  | url (url : Option String)
  | members (document : Except ServiceError (Option MembersDoc))
  | signedIn (uid : Option Uid)

inductive Listener
  | propagate (uid : Uid)
  | propagateImage (uid : Uid)
  | endArticles (uid : Uid)
  | switchUser (call : Nat) (loginEmail loginPassword : String)
  | syncBlockUser (uid : Uid)
  | syncBlockedUser (otherUid : Uid)
  deriving DecidableEq

inductive Snapshot
  | articles (documents : List (Nat × ArticleDoc))
  | users (documents : List (Uid × LoginUserDoc))
  | members (document : Option MembersDoc)
  deriving DecidableEq

inductive Cache
  | profile
  | userBlock
  | userBlocked
  deriving DecidableEq

/-- What an observer of the device notes: data written to an article by a propagating
listener, what became of each switch, and data that a cache received from the
documents of `source` while the account `settled` was signed in and cleared for. -/
inductive Obs
  | propagated (article : Article) (data : ArticlePatch)
  | signInIssued (call : Nat)
  | switchRefused (call : Nat)
  | switchFinished (call : Nat) (result : Except ServiceError Uid)
  | received (cache : Cache) (source : Uid) (settled : Option Uid)

/-- The device: its caches, the token of the messaging SDK, what has been noted, whose
profile and image the caches hold, and the epoch for which they were cleared last. -/
structure Device where
  account : AccountData := {}
  users : UsersData := {}
  messagingToken : Option String := none
  emails : Nat → String
  created : Nat := 0
  calls : Nat := 0
  log : List Obs := []
  profileOf : Option Uid := none
  imageOf : Option Uid := none
  clearedAt : Option Nat := none

abbrev Outcome := Effect Device Request Listener

/-- The account whose sign-in has been followed by `clearUserInfo`, while it stays signed in. -/
def settledFor (s : Backend) (d : Device) : Option Uid :=
  if d.clearedAt = some s.epoch then s.currentUser else none

def note (d : Device) (o : Obs) : Device := { d with log := o :: d.log }

def received (s : Backend) (d : Device) (cache : Cache) (source : Uid) : Device :=
  note d (.received cache source (settledFor s d))

/-- The clearing that follows a sign-in to `uid` settles the account, if it is still signed in. -/
def settle (s : Backend) (d : Device) (uid : Uid) : Device :=
  if s.currentUser = some uid then { d with clearedAt := some s.epoch } else d

def clearUserInfo (d : Device) : Device :=
  { d with
    account := { d.account with
      nickname := some ""
      sex := 0
      prefectureId := 0
      age := 0
      profileText := some ""
      loginEmail := some ""
      loginPassword := some ""
      myProfileImage := some ""
      notificationOn := true
      notificationReply := true
      notificationMessage := true
      notificationFootprint := true }
    users := {}
    profileOf := none
    imageOf := none }

/-- The cache after `setUserInfo`. -/
def profileCached (d : Device) (user : LoginUser) : Device :=
  { d with
    account := { d.account with
      nickname := some user.nickname
      sex := user.sex
      prefectureId := user.prefectureId
      age := user.age
      profileText := some user.profileText
      loginEmail := some user.loginEmail
      loginPassword := some user.loginPassword
      myProfileImage := some user.profileImageUrl
      notificationOn := user.notificationOn
      notificationReply := user.notificationReply
      notificationMessage := user.notificationMessage
      notificationFootprint := user.notificationFootprint }
    profileOf := some user.key
    imageOf := some user.key }

def getBlockUser (s : Backend) : List Request :=
  match s.currentUser with
  | some uid => [.getBlockUser uid]
  | none => []

def setUserInfo (s : Backend) (d : Device) (user : LoginUser) : Outcome where
  client := received s (profileCached d user) .profile user.key
  requests := getBlockUser s

/-- `createUser` with an address made up from the time and a random string. -/
def createUser (d : Device) : Outcome where
  client := { d with created := d.created + 1 }
  requests := [.createAuth (d.emails d.created) "password1234"]

def setLastLogin (s : Backend) (d : Device) : Outcome :=
  match s.currentUser with
  | none => { client := d }
  | some uid =>
    let account := match d.messagingToken with
      | some token => { d.account with fcmToken := some token }
      | none => d.account
    { client := { d with account := account }, requests := [.setLogin uid account.fcmToken] }

def updateLoginUser (s : Backend) (d : Device) (dic : LoginUserDoc) : Outcome :=
  match s.currentUser with
  | none => { client := d }
  | some uid => { client := d, requests := [.setProfile uid dic] }

def uploadProfileImage (s : Backend) (d : Device) : Outcome :=
  match s.currentUser with
  | none => { client := d }
  | some uid => { client := d, requests := [.putAvatar uid] }

def deleteLoginUser (s : Backend) (d : Device) : Outcome :=
  match s.currentUser with
  | none => { client := d }
  | some uid => { client := d, requests := [.setDeleted uid] }

def changeLoginUser (d : Device) (loginEmail loginPassword : String) : Outcome where
  client := { d with calls := d.calls + 1 }
  listeners := [.switchUser d.calls loginEmail loginPassword]

def syncBlockUser (s : Backend) : List Listener :=
  match s.currentUser with
  | some uid => [.syncBlockUser uid]
  | none => []

def syncBlockedUser (s : Backend) (otherUid : Uid) : List Listener :=
  if s.currentUser.isSome then [.syncBlockedUser otherUid] else []

/-- `appDidBecomeActive`. -/
def didBecomeActive (s : Backend) (d : Device) : Outcome :=
  match s.currentUser with
  | none => { client := d }
  | some uid => { client := d, listeners := syncBlockUser s ++ syncBlockedUser s uid }

/-- The messaging SDK hands over a registration token. -/
def didReceiveRegistrationToken (s : Backend) (d : Device) (token : String) : Outcome :=
  setLastLogin s { d with
    messagingToken := some token
    account := { d.account with fcmToken := some token } }

inductive Action
  | createUser
  | setLastLogin
  | updateLoginUser (dic : LoginUserDoc)
  | uploadProfileImage
  | deleteAccount
  | changeLoginUser (loginEmail loginPassword : String)
  | didBecomeActive
  | didReceiveRegistrationToken (token : String)
  deriving DecidableEq

def act (s : Backend) (d : Device) : Action → Outcome
  | .createUser => Service.createUser d
  | .setLastLogin => Service.setLastLogin s d
  | .updateLoginUser dic => Service.updateLoginUser s d dic
  | .uploadProfileImage => Service.uploadProfileImage s d
  | .deleteAccount => deleteLoginUser s d
  | .changeLoginUser loginEmail loginPassword => Service.changeLoginUser d loginEmail loginPassword
  | .didBecomeActive => Service.didBecomeActive s d
  | .didReceiveRegistrationToken token => Service.didReceiveRegistrationToken s d token

/-- The document of a new user. -/
def newUser (email password : String) (serverTimestamp : Nat) : LoginUserDoc where
  email := some email
  password := some password
  prefectureId := some 0
  notificationOn := some true
  notificationReply := some true
  notificationMessage := some true
  notificationFootprint := some false
  status := some 1
  lastLoginDate := some serverTimestamp
  createdAt := some serverTimestamp

def createAuth (s : Backend) (email password : String) : Backend × Answer :=
  if s.accounts.any fun a => a.email = email then (s, .created none)
  else
    let uid := s.uids s.accounts.length
    (({ s with accounts := s.accounts ++ [⟨uid, email, password⟩] } : Backend).signInAs uid,
      .created (some uid))

def signInCreated (s : Backend) (email password : String) : Backend × Answer :=
  match s.account email password with
  | some uid => (s.signInAs uid, .written true)
  | none => (s, .written false)

def signIn (s : Backend) (call : Nat) (user : LoginUser) : Backend × Answer :=
  match s.account user.email user.password with
  | some uid => ({ s.signInAs uid with signedIn := call :: s.signedIn }, .signedIn (some uid))
  | none => (s, .signedIn none)

def downloadURL (s : Backend) : Backend × Answer :=
  ({ s with uploads := s.uploads + 1 }, .url (some (s.urls s.uploads)))

def serve (s : Backend) : Request → Bool → Backend × Answer
  | .createAuth email password, true => createAuth s email password
  | .signInCreated email password, true => signInCreated s email password
  | .setNewUser uid email password, true =>
    (s.putUser uid (newUser email password s.clock), .written true)
  | .setProfile uid dic, true => (s.mergeUser uid dic, .written true)
  | .setDeleted uid, true =>
    (s.mergeUser uid { status := some 0, fcmToken := some "" }, .written true)
  | .setLogin uid token, true =>
    (s.mergeUser uid { lastLoginDate := some s.clock, fcmToken := token }, .written true)
  | .getProfile uid _, true => (s, .profile (.ok (s.loginUser.lookup uid)))
  | .putAvatar _, true => (s, .written true)
  | .downloadURL _, true => downloadURL s
  | .setImage uid url, true => (s.mergeUser uid { profileImageUrl := some url }, .written true)
  | .getBlockUser uid, true => (s, .members (.ok (s.userBlock.lookup uid)))
  | .getBlockedUser otherUid, true => (s, .members (.ok (s.userBlocked.lookup otherUid)))
  | .signIn call user, true => signIn s call user
  | .setArticle key data, true => (s.mergeArticle key data, .written true)
  | .createAuth _ _, false => (s, .created none)
  | .getProfile _ _, false => (s, .profile (.error .fetchError))
  | .downloadURL _, false => (s, .url none)
  | .getBlockUser _, false | .getBlockedUser _, false => (s, .members (.error .fetchError))
  | .signIn _ _, false => (s, .signedIn none)
  | .signInCreated _ _, false | .setNewUser _ _ _, false | .setProfile _ _, false
  | .setDeleted _, false | .setLogin _ _, false | .putAvatar _, false | .setImage _ _, false
  | .setArticle _ _, false => (s, .written false)

/-- The profile of an answer, if it is there and parses. -/
def parsedProfile (s : Backend) (uid : Uid) :
    Except ServiceError (Option LoginUserDoc) → Option LoginUser
  | .ok (some d) =>
    match LoginUser.ofDocument s.clock (uid, d) with
    | .ok user => some user
    | .error _ => none
  | _ => none

/-- The members of an answer, if they are there and parse. -/
def parsedMembers (uid : Uid) : Except ServiceError (Option MembersDoc) → Option MemberList
  | .ok (some d) =>
    match MemberList.ofDocument uid d with
    | .ok list => some list
    | .error _ => none
  | _ => none

/-- Both account screens follow a creation by `setLastLogin`. -/
def createCompletion (s : Backend) (d : Device) : Outcome := setLastLogin s d

def createAuthCompletion (d : Device) (email password : String) : Option Uid → Outcome
  | none => { client := d }
  | some uid => {
      client := d
      requests := [.signInCreated email password, .setNewUser uid email password] }

def setNewUserCompletion (s : Backend) (d : Device) (uid : Uid) : Bool → Outcome
  | false => { client := d }
  | true => createCompletion s (settle s (clearUserInfo d) uid)

/-- Where a profile is read again, the read decides how the operation goes on. -/
def profileCompletion (s : Backend) (d : Device) (uid : Uid) (purpose : Purpose)
    (answer : Except ServiceError (Option LoginUserDoc)) : Outcome :=
  match parsedProfile s uid answer with
  | none => { client := d }
  | some user =>
    match purpose with
    | .updateLoginUser => { setUserInfo s d user with listeners := [.propagate uid] }
    | .deleteLoginUser =>
      let after := (setUserInfo s d user).andThen fun d => createUser d
      { after with listeners := [.endArticles uid] }
    | .setLastLogin =>
      { setUserInfo s d user with listeners := syncBlockUser s ++ syncBlockedUser s uid }

def setImageCompletion (d : Device) (uid : Uid) (url : String) : Bool → Outcome
  | false => { client := d }
  | true => {
      client := { d with
        account := { d.account with myProfileImage := some url }
        imageOf := some uid }
      listeners := [.propagateImage uid] }

/-- `getBlockUser` caches what it read without asking who is signed in by now. -/
def blockUserReceived (s : Backend) (d : Device) (uid : Uid)
    (answer : Except ServiceError (Option MembersDoc)) : Device :=
  match parsedMembers uid answer with
  | some userBlock =>
    received s { d with users := { d.users with userBlock := userBlock.members } } .userBlock uid
  | none => d

/-- `getBlockedUser` caches only the signed-in account's own document. -/
def blockedUserReceived (s : Backend) (d : Device) (otherUid : Uid)
    (answer : Except ServiceError (Option MembersDoc)) : Device :=
  match parsedMembers otherUid answer with
  | some userBlocked =>
    if s.currentUser = some otherUid then
      received s { d with users := { d.users with userBlocked := userBlocked.members } }
        .userBlocked otherUid
    else d
  | none => d

def getBlockUserCompletion (s : Backend) (d : Device) (uid : Uid)
    (answer : Except ServiceError (Option MembersDoc)) : Outcome where
  client := blockUserReceived s d uid answer
  requests := match s.currentUser with
    | some uid => [.getBlockedUser uid]
    | none => []

def signInCompletion (s : Backend) (d : Device) (call : Nat) (user : LoginUser) :
    Option Uid → Outcome
  | none => { client := note d (.switchFinished call (.error .noExistsError)) }
  | some uid =>
    (setUserInfo s (settle s (clearUserInfo d) uid) user).andThen fun d =>
      { client := note d (.switchFinished call (.ok user.key)) }

def handle (s : Backend) (d : Device) : Request → Answer → Option Outcome
  | .createAuth email password, .created uid => some (createAuthCompletion d email password uid)
  | .signInCreated _ _, .written ok => some (if ok then { client := d } else createCompletion s d)
  | .setNewUser uid _ _, .written ok => some (setNewUserCompletion s d uid ok)
  | .setProfile uid _, .written ok =>
    some { client := d, requests := if ok then [.getProfile uid .updateLoginUser] else [] }
  | .setDeleted uid, .written ok =>
    some (if ok then { client := clearUserInfo d, requests := [.getProfile uid .deleteLoginUser] }
      else { client := d })
  | .setLogin uid _, .written ok =>
    some { client := d, requests := if ok then [.getProfile uid .setLastLogin] else [] }
  | .getProfile uid purpose, .profile answer => some (profileCompletion s d uid purpose answer)
  | .putAvatar uid, .written ok =>
    some { client := d, requests := if ok then [.downloadURL uid] else [] }
  | .downloadURL uid, .url url =>
    some { client := d, requests := match url with
      | some url => [.setImage uid url]
      | none => [] }
  | .setImage uid url, .written ok => some (setImageCompletion d uid url ok)
  | .getBlockUser uid, .members answer => some (getBlockUserCompletion s d uid answer)
  | .getBlockedUser otherUid, .members answer =>
    some { client := blockedUserReceived s d otherUid answer }
  | .signIn call user, .signedIn uid => some (signInCompletion s d call user uid)
  | .setArticle _ _, .written _ => some { client := d }
  | _, _ => none

def articleLimit : Nat := 200

def deletedArticleLimit : Nat := 500

def snapshot (s : Backend) : Listener → Snapshot
  | .propagate uid | .propagateImage uid =>
    .articles ((articlesOf s.articles uid).take articleLimit)
  | .endArticles uid => .articles ((articlesOf s.articles uid).take deletedArticleLimit)
  | .switchUser _ loginEmail loginPassword =>
    -- a query without an order lists its documents by their ids
    .users ((s.loginUser.entries.filterMap fun e =>
      if e.2.loginEmail = some loginEmail ∧ e.2.loginPassword = some loginPassword ∧
        e.2.status = some 1 then some (e.1, e.2) else none).insertionSort fun a b => a.1 ≤ b.1)
  | .syncBlockUser uid => .members (s.userBlock.lookup uid)
  | .syncBlockedUser otherUid => .members (s.userBlocked.lookup otherUid)

theorem mem_switchDocuments {s : Backend} {call : Nat} {loginEmail loginPassword : String}
    {documents : List (Uid × LoginUserDoc)} {document : Uid × LoginUserDoc}
    (h : snapshot s (.switchUser call loginEmail loginPassword) = .users documents)
    (hmem : document ∈ documents) :
    s.loginUser.lookup document.1 = some document.2 ∧ document.2.loginEmail = some loginEmail ∧
      document.2.loginPassword = some loginPassword ∧ document.2.status = some 1 := by
  obtain rfl := Snapshot.users.inj h
  obtain ⟨⟨uid, d⟩, hentry, hsome⟩ := List.mem_filterMap.mp ((List.mem_insertionSort _).mp hmem)
  split at hsome
  · rename_i hpair
    obtain rfl := Option.some.inj hsome
    exact ⟨AList.mem_lookup_iff.mpr hentry, hpair⟩
  · cases hsome

/-- What the listener of `updateLoginUser` changes in an article: every field that
differs from the cached account. -/
def profileData (account : AccountData) (article : Article) : ArticlePatch where
  userNickname :=
    if some article.userNickname ≠ account.nickname then account.nickname else none
  userPrefectureId :=
    if article.userPrefectureId ≠ account.prefectureId then some account.prefectureId else none
  userSex := if article.userSex ≠ account.sex then some account.sex else none
  userProfileImageUrl :=
    if some article.userProfileImageUrl ≠ account.myProfileImage then account.myProfileImage
    else none

/-- What the listener of `uploadProfileImage` changes. -/
def imageData (account : AccountData) (article : Article) : ArticlePatch where
  userProfileImageUrl :=
    if some article.userProfileImageUrl ≠ account.myProfileImage then account.myProfileImage
    else none

/-- One write for every article whose data is not empty. -/
def propagateTo (d : Device) (data : AccountData → Article → ArticlePatch)
    (articles : List Article) : Outcome :=
  let changed := articles.filter fun a => data d.account a ≠ {}
  { client := { d with log := (changed.map fun a => .propagated a (data d.account a)) ++ d.log }
    requests := changed.map fun a => .setArticle a.key (data d.account a) }

def articlesDelivered (s : Backend) (d : Device) (data : AccountData → Article → ArticlePatch)
    (documents : List (Nat × ArticleDoc)) : Outcome :=
  match parseAll (Article.ofDocument s.clock) documents with
  | .ok articles => propagateTo d data articles
  | .error _ => { client := d }

def endArticlesDelivered (s : Backend) (d : Device) (documents : List (Nat × ArticleDoc)) :
    Outcome :=
  match parseAll (Article.ofDocument s.clock) documents with
  | .ok articles => {
      client := d
      requests := articles.map fun a => .setArticle a.key { status := some 0 } }
  | .error _ => { client := d }

def switchDelivered (s : Backend) (d : Device) (call : Nat) :
    List (Uid × LoginUserDoc) → Outcome
  | [] => { client := note d (.switchRefused call) }
  | document :: _ =>
    match LoginUser.ofDocument s.clock document with
    | .ok user => { client := note d (.signInIssued call), requests := [.signIn call user] }
    | .error _ => { client := note d (.switchRefused call) }

/-- A listener is handed a snapshot of its own query, or nothing after an error. -/
def notify (s : Backend) (d : Device) : Listener → Option Snapshot → Option Outcome
  | .propagate _, some (.articles documents) => some (articlesDelivered s d profileData documents)
  | .propagateImage _, some (.articles documents) =>
    some (articlesDelivered s d imageData documents)
  | .endArticles _, some (.articles documents) => some (endArticlesDelivered s d documents)
  | .switchUser call _ _, some (.users documents) => some (switchDelivered s d call documents)
  | .syncBlockUser uid, some (.members document) =>
    some { client := blockUserReceived s d uid (.ok document) }
  | .syncBlockedUser otherUid, some (.members document) =>
    some { client := blockedUserReceived s d otherUid (.ok document) }
  | .switchUser call _ _, none => some { client := note d (.switchRefused call) }
  | _, none => some { client := d }
  | _, _ => none

/-- What other devices do to the documents. -/
inductive Change
  | profile (uid : Uid) (d : LoginUserDoc)
  | articles (documents : List (Nat × ArticleDoc))
  | userBlock (uid : Uid) (d : MembersDoc)
  | userBlocked (uid : Uid) (d : MembersDoc)

def env (s : Backend) : Change → Backend
  | .profile uid d => s.putUser uid d
  | .articles documents => { s with articles := documents }
  | .userBlock uid d => { s with userBlock := s.userBlock.insert uid d }
  | .userBlocked uid d => { s with userBlocked := s.userBlocked.insert uid d }

def program : Program Backend Device Action Change Request Answer Listener Snapshot where
  act s d v := some (Service.act s d v)
  serve := Service.serve
  handle := Service.handle
  snapshot := Service.snapshot
  notify := Service.notify
  env := Service.env

abbrev Phone := World Backend Device Request Answer Listener

abbrev step : Phone → Event Action Change → Option Phone := program.step

/-- A launch: documents and caches as they are, nothing in flight and nobody listening.
The stored profiles are the first versions; nothing is known of the caches' origin. -/
def start (s : Backend) (d : Device) : Phone where
  server := { s with
    history := s.loginUser.entries.map fun e => (e.1, e.2)
    signedIn := [] }
  client := { d with calls := 0, log := [], profileOf := none, imageOf := none, clearedAt := none }

/-- Only listeners write articles, and only the listener of a switch signs in with a profile. -/
def fromListener : Request → Bool
  | .signIn _ _ | .setArticle _ _ => true
  | _ => false

/-- Only the listener of a switch signs in with a profile. -/
def Plain (r : Request) : Prop := ∀ call user, r ≠ .signIn call user

theorem plain_of_fromListener {r : Request} (h : fromListener r = false) : Plain r := by
  rintro call user rfl
  cases h

private theorem fromListener_singleton {q r : Request} (h : r ∈ [q]) (hq : fromListener q = false) :
    fromListener r = false :=
  List.mem_singleton.mp h ▸ hq

theorem setLastLogin_fromListener (s : Backend) (d : Device) :
    ∀ r ∈ (setLastLogin s d).requests, fromListener r = false := by
  intro r hr
  unfold setLastLogin at hr
  split at hr
  · cases hr
  · exact fromListener_singleton hr rfl

theorem getBlockUser_fromListener (s : Backend) : ∀ r ∈ getBlockUser s, fromListener r = false := by
  intro r hr
  unfold getBlockUser at hr
  split at hr
  · exact fromListener_singleton hr rfl
  · cases hr

theorem act_fromListener (s : Backend) (d : Device) (v : Action) :
    ∀ r ∈ (act s d v).requests, fromListener r = false := by
  intro r hr
  cases v with
  | createUser => exact fromListener_singleton hr rfl
  | setLastLogin => exact setLastLogin_fromListener s d r hr
  | didReceiveRegistrationToken token => exact setLastLogin_fromListener s _ r hr
  | changeLoginUser => cases hr
  | didBecomeActive =>
    simp only [act, didBecomeActive] at hr
    split at hr <;> cases hr
  | updateLoginUser dic =>
    simp only [act, updateLoginUser] at hr
    split at hr
    · cases hr
    · exact fromListener_singleton hr rfl
  | uploadProfileImage =>
    simp only [act, uploadProfileImage] at hr
    split at hr
    · cases hr
    · exact fromListener_singleton hr rfl
  | deleteAccount =>
    simp only [act, deleteLoginUser] at hr
    split at hr
    · cases hr
    · exact fromListener_singleton hr rfl

theorem act_plain (s : Backend) (d : Device) (v : Action) :
    ∀ r ∈ (act s d v).requests, Plain r :=
  fun r hr => plain_of_fromListener (act_fromListener s d v r hr)

/-- What a handler can do, one constructor for each kind of request. -/
inductive Handled (s : Backend) (d : Device) : Request → Answer → Outcome → Prop
  | createAuth (email password : String) (uid : Option Uid) :
      Handled s d (.createAuth email password) (.created uid)
        (createAuthCompletion d email password uid)
  | signInCreated (email password : String) (ok : Bool) :
      Handled s d (.signInCreated email password) (.written ok)
        (if ok then { client := d } else createCompletion s d)
  | setNewUser (uid : Uid) (email password : String) (ok : Bool) :
      Handled s d (.setNewUser uid email password) (.written ok) (setNewUserCompletion s d uid ok)
  | setProfile (uid : Uid) (dic : LoginUserDoc) (ok : Bool) :
      Handled s d (.setProfile uid dic) (.written ok)
        { client := d, requests := if ok then [.getProfile uid .updateLoginUser] else [] }
  | setDeleted (uid : Uid) (ok : Bool) :
      Handled s d (.setDeleted uid) (.written ok)
        (if ok then { client := clearUserInfo d, requests := [.getProfile uid .deleteLoginUser] }
          else { client := d })
  | setLogin (uid : Uid) (token : Option String) (ok : Bool) :
      Handled s d (.setLogin uid token) (.written ok)
        { client := d, requests := if ok then [.getProfile uid .setLastLogin] else [] }
  | getProfile (uid : Uid) (purpose : Purpose)
      (answer : Except ServiceError (Option LoginUserDoc)) :
      Handled s d (.getProfile uid purpose) (.profile answer)
        (profileCompletion s d uid purpose answer)
  | putAvatar (uid : Uid) (ok : Bool) :
      Handled s d (.putAvatar uid) (.written ok)
        { client := d, requests := if ok then [.downloadURL uid] else [] }
  | downloadURL (uid : Uid) (url : Option String) :
      Handled s d (.downloadURL uid) (.url url)
        { client := d, requests := (url.map fun url => .setImage uid url).toList }
  | setImage (uid : Uid) (url : String) (ok : Bool) :
      Handled s d (.setImage uid url) (.written ok) (setImageCompletion d uid url ok)
  | getBlockUser (uid : Uid) (answer : Except ServiceError (Option MembersDoc)) :
      Handled s d (.getBlockUser uid) (.members answer) (getBlockUserCompletion s d uid answer)
  | getBlockedUser (otherUid : Uid) (answer : Except ServiceError (Option MembersDoc)) :
      Handled s d (.getBlockedUser otherUid) (.members answer)
        { client := blockedUserReceived s d otherUid answer }
  | signIn (call : Nat) (user : LoginUser) (uid : Option Uid) :
      Handled s d (.signIn call user) (.signedIn uid) (signInCompletion s d call user uid)
  | setArticle (key : Nat) (data : ArticlePatch) (ok : Bool) :
      Handled s d (.setArticle key data) (.written ok) { client := d }

theorem handle_handled {s : Backend} {d : Device} {r : Request} {a : Answer} {o : Outcome}
    (ho : handle s d r a = some o) : Handled s d r a o := by
  unfold handle at ho
  split at ho
  case h_9 uid url =>
    obtain rfl := Option.some.inj ho
    cases url with
    | none => exact .downloadURL uid none
    | some url => exact .downloadURL uid (some url)
  case h_15 => cases ho
  all_goals
    obtain rfl := Option.some.inj ho
    constructor

theorem handle_fromListener {s : Backend} {d : Device} {r : Request} {a : Answer} {o : Outcome}
    (ho : handle s d r a = some o) : ∀ q ∈ o.requests, fromListener q = false := by
  intro q hq
  cases handle_handled ho with
  | createAuth email password uid =>
    cases uid with
    | none => cases hq
    | some uid =>
      rcases List.mem_cons.mp hq with rfl | hq
      · rfl
      · exact fromListener_singleton hq rfl
  | signInCreated email password ok =>
    cases ok with
    | true => cases hq
    | false => exact setLastLogin_fromListener s d q hq
  | setNewUser uid email password ok =>
    cases ok with
    | false => cases hq
    | true => exact setLastLogin_fromListener s _ q hq
  | setProfile uid | setDeleted uid | setLogin uid | putAvatar uid =>
    rename_i ok
    cases ok with
    | false => cases hq
    | true => exact fromListener_singleton hq rfl
  | getProfile uid purpose answer =>
    unfold profileCompletion at hq
    split at hq
    · cases hq
    · cases purpose with
      | updateLoginUser | setLastLogin => exact getBlockUser_fromListener s q hq
      | deleteLoginUser =>
        rcases List.mem_append.mp hq with hq | hq
        · exact getBlockUser_fromListener s q hq
        · exact fromListener_singleton hq rfl
  | downloadURL uid url =>
    cases url with
    | none => cases hq
    | some url => exact fromListener_singleton hq rfl
  | setImage uid url ok => cases ok <;> cases hq
  | getBlockUser uid answer =>
    dsimp only [getBlockUserCompletion] at hq
    split at hq
    · exact fromListener_singleton hq rfl
    · cases hq
  | getBlockedUser otherUid answer => cases hq
  | signIn call user uid =>
    cases uid with
    | none => cases hq
    | some uid =>
      rcases List.mem_append.mp hq with hq | hq
      · exact getBlockUser_fromListener s q hq
      · cases hq
  | setArticle key data ok => cases hq

theorem handle_plain {s : Backend} {d : Device} {r : Request} {a : Answer} {o : Outcome}
    (ho : handle s d r a = some o) : ∀ q ∈ o.requests, Plain q :=
  fun q hq => plain_of_fromListener (handle_fromListener ho q hq)

/-- What a listener can do, one constructor for each kind, and what it does after an error. -/
inductive Notified (s : Backend) (d : Device) : Listener → Option Snapshot → Outcome → Prop
  | failed {l : Listener} : (∀ call email password, l ≠ .switchUser call email password) →
      Notified s d l none { client := d }
  | propagate (uid : Uid) (documents : List (Nat × ArticleDoc)) :
      Notified s d (.propagate uid) (some (.articles documents))
        (articlesDelivered s d profileData documents)
  | propagateImage (uid : Uid) (documents : List (Nat × ArticleDoc)) :
      Notified s d (.propagateImage uid) (some (.articles documents))
        (articlesDelivered s d imageData documents)
  | endArticles (uid : Uid) (documents : List (Nat × ArticleDoc)) :
      Notified s d (.endArticles uid) (some (.articles documents))
        (endArticlesDelivered s d documents)
  | switchFailed (call : Nat) (loginEmail loginPassword : String) :
      Notified s d (.switchUser call loginEmail loginPassword) none
        { client := note d (.switchRefused call) }
  | switchUser (call : Nat) (loginEmail loginPassword : String)
      (documents : List (Uid × LoginUserDoc)) :
      Notified s d (.switchUser call loginEmail loginPassword) (some (.users documents))
        (switchDelivered s d call documents)
  | syncBlockUser (uid : Uid) (document : Option MembersDoc) :
      Notified s d (.syncBlockUser uid) (some (.members document))
        { client := blockUserReceived s d uid (.ok document) }
  | syncBlockedUser (otherUid : Uid) (document : Option MembersDoc) :
      Notified s d (.syncBlockedUser otherUid) (some (.members document))
        { client := blockedUserReceived s d otherUid (.ok document) }

theorem notify_notified {s : Backend} {d : Device} {l : Listener} {x : Option Snapshot}
    {o : Outcome} (ho : notify s d l x = some o) : Notified s d l x o := by
  unfold notify at ho
  split at ho
  case h_8 hother =>
    obtain rfl := Option.some.inj ho
    refine .failed fun call email password heq => ?_
    exact hother call email password heq
  case h_9 => cases ho
  all_goals
    obtain rfl := Option.some.inj ho
    constructor

theorem notify_steady {s : Backend} {d : Device} {l : Listener} {x : Option Snapshot} {o : Outcome}
    (ho : notify s d l x = some o) : o.listeners = [] ∧ o.removed = [] := by
  cases notify_notified ho with
  | propagate uid documents | propagateImage uid documents =>
    unfold articlesDelivered
    split <;> exact ⟨rfl, rfl⟩
  | endArticles uid documents =>
    unfold endArticlesDelivered
    split <;> exact ⟨rfl, rfl⟩
  | switchUser call loginEmail loginPassword documents =>
    unfold switchDelivered
    split
    · exact ⟨rfl, rfl⟩
    · split <;> exact ⟨rfl, rfl⟩
  | failed | switchFailed | syncBlockUser | syncBlockedUser => exact ⟨rfl, rfl⟩

/-- The operations that only issue a request or register listeners. -/
def Action.Untouching : Action → Prop
  | .updateLoginUser _ | .uploadProfileImage | .deleteAccount | .didBecomeActive => True
  | _ => False

theorem act_client_same (s : Backend) (d : Device) {v : Action} (h : v.Untouching) :
    (act s d v).client = d := by
  cases v with
  | updateLoginUser dic =>
    simp only [act, updateLoginUser]
    split <;> rfl
  | uploadProfileImage =>
    simp only [act, uploadProfileImage]
    split <;> rfl
  | deleteAccount =>
    simp only [act, deleteLoginUser]
    split <;> rfl
  | didBecomeActive =>
    simp only [act, didBecomeActive]
    split <;> rfl
  | createUser | setLastLogin | changeLoginUser | didReceiveRegistrationToken => exact h.elim

theorem setLastLogin_log (s : Backend) (d : Device) : (setLastLogin s d).client.log = d.log := by
  unfold setLastLogin
  split
  · rfl
  · rfl

theorem setLastLogin_removed (s : Backend) (d : Device) : (setLastLogin s d).removed = [] := by
  unfold setLastLogin
  split
  · rfl
  · rfl

theorem act_log (s : Backend) (d : Device) (v : Action) : (act s d v).client.log = d.log := by
  cases v with
  | createUser | changeLoginUser => rfl
  | setLastLogin => exact setLastLogin_log s d
  | didReceiveRegistrationToken token => exact setLastLogin_log s _
  | updateLoginUser | uploadProfileImage | deleteAccount | didBecomeActive =>
    rw [act_client_same s d (by trivial)]

def blockUserNotes (s : Backend) (d : Device) (uid : Uid)
    (answer : Except ServiceError (Option MembersDoc)) : List Obs :=
  if (parsedMembers uid answer).isSome then [.received .userBlock uid (settledFor s d)] else []

def blockedUserNotes (s : Backend) (d : Device) (otherUid : Uid)
    (answer : Except ServiceError (Option MembersDoc)) : List Obs :=
  if (parsedMembers otherUid answer).isSome ∧ s.currentUser = some otherUid then
    [.received .userBlocked otherUid (settledFor s d)]
  else []

def handleNotes (s : Backend) (d : Device) : Request → Answer → List Obs
  | .getProfile uid _, .profile answer =>
    match parsedProfile s uid answer with
    | some user => [.received .profile user.key (settledFor s d)]
    | none => []
  | .getBlockUser uid, .members answer => blockUserNotes s d uid answer
  | .getBlockedUser otherUid, .members answer => blockedUserNotes s d otherUid answer
  | .signIn call _, .signedIn none => [.switchFinished call (.error .noExistsError)]
  | .signIn call user, .signedIn (some uid) =>
    [.switchFinished call (.ok user.key), .received .profile user.key (settledFor s (settle s d uid))]
  | _, _ => []

theorem blockUserReceived_account (s : Backend) (d : Device) (uid : Uid)
    (answer : Except ServiceError (Option MembersDoc)) :
    (blockUserReceived s d uid answer).account = d.account := by
  unfold blockUserReceived
  split
  · rfl
  · rfl

theorem blockedUserReceived_account (s : Backend) (d : Device) (otherUid : Uid)
    (answer : Except ServiceError (Option MembersDoc)) :
    (blockedUserReceived s d otherUid answer).account = d.account := by
  unfold blockedUserReceived
  split
  · split
    · rfl
    · rfl
  · rfl

theorem articlesDelivered_account (s : Backend) (d : Device)
    (data : AccountData → Article → ArticlePatch) (documents : List (Nat × ArticleDoc)) :
    (articlesDelivered s d data documents).client.account = d.account := by
  unfold articlesDelivered
  split
  · rfl
  · rfl

theorem blockUserReceived_log (s : Backend) (d : Device) (uid : Uid)
    (answer : Except ServiceError (Option MembersDoc)) :
    (blockUserReceived s d uid answer).log = blockUserNotes s d uid answer ++ d.log := by
  unfold blockUserReceived blockUserNotes
  cases parsedMembers uid answer with
  | none => rfl
  | some userBlock => rfl

theorem blockedUserReceived_log (s : Backend) (d : Device) (otherUid : Uid)
    (answer : Except ServiceError (Option MembersDoc)) :
    (blockedUserReceived s d otherUid answer).log =
      blockedUserNotes s d otherUid answer ++ d.log := by
  unfold blockedUserReceived blockedUserNotes
  cases parsedMembers otherUid answer with
  | none => rfl
  | some userBlocked =>
    by_cases h : s.currentUser = some otherUid
    · simp only [h, if_true, Option.isSome_some, and_self]
      rfl
    · simp only [h, if_false, and_false]
      rfl

private theorem settle_settled (s : Backend) (d : Device) (uid : Uid) :
    settledFor s (settle s (clearUserInfo d) uid) = settledFor s (settle s d uid) := by
  unfold settle
  split <;> rfl

private theorem settle_log (s : Backend) (d : Device) (uid : Uid) :
    (settle s d uid).log = d.log := by
  unfold settle
  split <;> rfl

theorem handle_log {s : Backend} {d : Device} {r : Request} {a : Answer} {o : Outcome}
    (ho : handle s d r a = some o) : o.client.log = handleNotes s d r a ++ d.log := by
  cases handle_handled ho with
  | createAuth email password uid => cases uid <;> rfl
  | signInCreated email password ok =>
    cases ok with
    | true => rfl
    | false => exact setLastLogin_log s d
  | setNewUser uid email password ok =>
    cases ok with
    | false => rfl
    | true => exact (setLastLogin_log s _).trans (settle_log s (clearUserInfo d) uid)
  | setDeleted uid ok => cases ok <;> rfl
  | getProfile uid purpose answer =>
    simp only [profileCompletion, handleNotes]
    cases parsedProfile s uid answer with
    | none => rfl
    | some user => cases purpose <;> rfl
  | setImage uid url ok => cases ok <;> rfl
  | getBlockUser uid answer => exact blockUserReceived_log s d uid answer
  | getBlockedUser otherUid answer => exact blockedUserReceived_log s d otherUid answer
  | signIn call user uid =>
    cases uid with
    | none => rfl
    | some uid =>
      show _ :: .received _ _ (settledFor s (settle s (clearUserInfo d) uid)) ::
        (settle s (clearUserInfo d) uid).log = _
      rw [settle_settled, settle_log]
      rfl
  -- a write or a fetch that notes nothing
  | setProfile | setLogin | putAvatar | downloadURL | setArticle => rfl

/-- What a listener notes of a snapshot of its query, or of an error. -/
def notifyNotes (s : Backend) (d : Device) : Listener → Option Snapshot → List Obs
  | .propagate _, some (.articles documents) =>
    match parseAll (Article.ofDocument s.clock) documents with
    | .ok articles => (articles.filter fun a => profileData d.account a ≠ {}).map fun a =>
        .propagated a (profileData d.account a)
    | .error _ => []
  | .propagateImage _, some (.articles documents) =>
    match parseAll (Article.ofDocument s.clock) documents with
    | .ok articles => (articles.filter fun a => imageData d.account a ≠ {}).map fun a =>
        .propagated a (imageData d.account a)
    | .error _ => []
  | .switchUser call _ _, some (.users (document :: _)) =>
    match LoginUser.ofDocument s.clock document with
    | .ok _ => [.signInIssued call]
    | .error _ => [.switchRefused call]
  | .switchUser call _ _, _ => [.switchRefused call]
  | .syncBlockUser uid, some (.members document) => blockUserNotes s d uid (.ok document)
  | .syncBlockedUser otherUid, some (.members document) =>
    blockedUserNotes s d otherUid (.ok document)
  | _, _ => []

theorem notify_log {s : Backend} {d : Device} {l : Listener} {x : Option Snapshot} {o : Outcome}
    (ho : notify s d l x = some o) : o.client.log = notifyNotes s d l x ++ d.log := by
  cases notify_notified ho with
  | failed hother =>
    cases l with
    | switchUser call email password => exact absurd rfl (hother call email password)
    | propagate | propagateImage | endArticles | syncBlockUser | syncBlockedUser => rfl
  | propagate uid documents | propagateImage uid documents =>
    simp only [articlesDelivered, notifyNotes]
    cases parseAll (Article.ofDocument s.clock) documents <;> rfl
  | endArticles uid documents =>
    unfold endArticlesDelivered
    split <;> rfl
  | switchFailed call loginEmail loginPassword => rfl
  | switchUser call loginEmail loginPassword documents =>
    rcases documents with _ | ⟨document, rest⟩
    · rfl
    · simp only [switchDelivered, notifyNotes]
      cases LoginUser.ofDocument s.clock document <;> rfl
  | syncBlockUser uid document => exact blockUserReceived_log s d uid _
  | syncBlockedUser otherUid document => exact blockedUserReceived_log s d otherUid _

end PlateChat.Account.Service
