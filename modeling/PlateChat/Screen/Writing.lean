/- PlateChat/Screen/Writing
   digest: Every way into the write view, and the nickname that its articles carry. -/

import PlateChat.Account.Editors
import PlateChat.Thread.Service

set_option autoImplicit false
set_option relaxedAutoImplicit false

/-!
Home and the thread look at the cached nickname before they open the write view; the own
profile and another user's page do not, and nobody looks again when the article is
posted. Which of a screen's views `close()` dismisses differs from screen to screen;
here a view may be closed at any time.
-/

namespace PlateChat.Screen.Writing

open PlateChat.Foundation.Dictionary PlateChat.Foundation.Run PlateChat.Foundation.EventLoop
open PlateChat.Model.Members PlateChat.Model.LocalData PlateChat.Model.Profile
open PlateChat.Thread.Service (KeyNames createData)
open PlateChat.Account.Service (Backend Device Listener Snapshot Change Purpose Handled
  parsedProfile handle_handled notify_notified setLastLogin clearUserInfo setUserInfo settle)

/-- The character set `.whitespaces`: the space separators and the tab. -/
def whitespaces (c : Char) : Bool :=
  c = '\t' || c = ' ' || c = '\u00A0' || c = '\u1680' ||
    ('\u2000' ≤ c && c ≤ '\u200A') || c = '\u202F' || c = '\u205F' || c = '\u3000'

def trimmingCharacters (s : String) : String :=
  String.ofList (((s.toList.dropWhile whitespaces).reverse.dropWhile whitespaces).reverse)

def Blank (s : String) : Prop := trimmingCharacters s = ""

instance (s : String) : Decidable (Blank s) := inferInstanceAs (Decidable (_ = _))

/-- The nickname that a new article would carry is not blank. -/
def Named (account : AccountData) : Prop := ¬ Blank (account.nickname.getD "")

instance (account : AccountData) : Decidable (Named account) := inferInstanceAs (Decidable (¬ _))

/-- The buttons that open the write view, with the article that is answered. -/
inductive Button
  | homeWrite
  | homeReply (article : Article)
  | threadReply (article : Article)
  | myProfileReply (article : Article)
  | userDetailReply (article : Article)
  deriving DecidableEq

def Button.article : Button → Option Article
  | .homeWrite => none
  | .homeReply article | .threadReply article => some article
  | .myProfileReply article | .userDetailReply article => some article

/-- `if let name = AccountData.nickname { if name.trimmingCharacters(in: .whitespaces) == "" }` -/
def nicknameMissing (account : AccountData) : Bool :=
  match account.nickname with
  | some name => decide (trimmingCharacters name = "")
  | none => false

def Button.Checks : Button → Prop
  | .homeWrite | .homeReply _ | .threadReply _ => True
  | .myProfileReply _ | .userDetailReply _ => False

instance : DecidablePred Button.Checks
  | .homeWrite | .homeReply _ | .threadReply _ => isTrue trivial
  | .myProfileReply _ | .userDetailReply _ => isFalse id

structure WriteVC where
  id : Nat
  article : Option Article
  text : String := ""
  postButton : Bool := false
  deriving DecidableEq

/-- The device with the write views that are open. -/
structure Desk where
  device : Device
  writeVCs : List WriteVC := []
  opened : Nat := 0

/-- The backend, and the articles that were added, as they were added. -/
structure Server where
  backend : Backend
  next : Nat := 0
  added : List ArticleDoc := []

inductive Request
  | account (request : Account.Service.Request)
  | addArticle (data : ArticleDoc)
  deriving DecidableEq

inductive Answer
  | account (answer : Account.Service.Answer)
  | added (ok : Bool)

abbrev Outcome := Effect Desk Request Listener

inductive Action
  | account (action : Account.Editors.Action)
  | tap (button : Button)
  | edit (id : Nat) (text : String)
  | post (id : Nat)
  | close (id : Nat)
  deriving DecidableEq

section Program

variable (names : KeyNames) (count : String → Nat)

/-- What the account service does, it does to the device. -/
def onDevice (d : Desk) (o : Account.Service.Outcome) : Outcome where
  client := { d with device := o.client }
  requests := o.requests.map .account
  listeners := o.listeners
  removed := o.removed

def tap (d : Desk) (button : Button) : Outcome :=
  if button.Checks ∧ nicknameMissing d.device.account then { client := d }
  else {
    client := { d with
      writeVCs := ⟨d.opened, button.article, "", false⟩ :: d.writeVCs
      opened := d.opened + 1 } }

/-- The view follows its text: the post button wants ten to two hundred characters. -/
def edit (d : Desk) (id : Nat) (text : String) : Outcome where
  client := { d with
    writeVCs := d.writeVCs.map fun vc =>
      if vc.id = id then
        { vc with text := text, postButton := decide (10 ≤ count text ∧ count text ≤ 200) }
      else vc }

def createArticle (s : Server) (d : Desk) (vc : WriteVC) : List Request :=
  match s.backend.currentUser with
  | none => []
  | some uid => [.addArticle (createData names uid d.device.account vc.text vc.article)]

def post (s : Server) (d : Desk) (id : Nat) : Outcome :=
  match d.writeVCs.find? fun vc => vc.id = id ∧ vc.postButton with
  | none => { client := d }
  | some vc =>
    if 200 < count vc.text then { client := d }
    else {
      client := { d with
        writeVCs := d.writeVCs.map fun vc =>
          if vc.id = id then { vc with postButton := false } else vc }
      requests := createArticle names s d vc }

def close (d : Desk) (id : Nat) : Outcome where
  client := { d with writeVCs := d.writeVCs.filter fun vc => vc.id ≠ id }

def act (s : Server) (d : Desk) : Action → Outcome
  | .account action => onDevice d (Account.Editors.act count s.backend d.device action)
  | .tap button => Writing.tap d button
  | .edit id text => Writing.edit count d id text
  | .post id => Writing.post names count s d id
  | .close id => Writing.close d id

/-- `addDocument`; the server fills in the time. -/
def Server.add (s : Server) (data : ArticleDoc) : Server where
  backend := { s.backend with
    articles := (s.next, { data with createdAt := some s.backend.clock }) :: s.backend.articles
    clock := s.backend.clock + 1 }
  next := s.next + 1
  added := { data with createdAt := some s.backend.clock } :: s.added

def serve (s : Server) : Request → Bool → Server × Answer
  | .account request, ok =>
    let served := Account.Service.serve s.backend request ok
    ({ s with backend := served.1 }, .account served.2)
  | .addArticle data, true => (s.add data, .added true)
  | .addArticle _, false => (s, .added false)

def handle (s : Server) (d : Desk) : Request → Answer → Option Outcome
  | .account request, .account answer =>
    (Account.Service.handle s.backend d.device request answer).map (onDevice d)
  | .addArticle _, .added _ => some { client := d }
  | _, _ => none

def program : Program Server Desk Action Change Request Answer Listener Snapshot where
  act s d v := some (act names count s d v)
  serve := Writing.serve
  handle := Writing.handle
  snapshot s l := Account.Service.snapshot s.backend l
  notify s d l x := (Account.Service.notify s.backend d.device l x).map (onDevice d)
  env s h := { s with backend := Account.Service.env s.backend h }

abbrev Phone := World Server Desk Request Answer Listener

abbrev step : Phone → Event Action Change → Option Phone := (program names count).step

end Program

/-- A launch: no view is open and nothing has been added yet. -/
def start (s : Backend) (d : Device) (next : Nat) : Phone where
  server := ⟨s, next, []⟩
  client := ⟨d, [], 0⟩

/-- The answers whose handlers leave a blank nickname in the cache. -/
def blanks (s : Backend) : Account.Service.Request → Account.Service.Answer → Bool
  | .setNewUser _ _ _, .written ok => ok
  | .setDeleted _, .written ok => ok
  | .getProfile uid _, .profile answer =>
    match parsedProfile s uid answer with
    | some user => decide (Blank user.nickname)
    | none => false
  | .signIn _ user, .signedIn uid => uid.isSome && decide (Blank user.nickname)
  | _, _ => false

/-- A view is opened with a nickname, by the button's own check or without one, and while
one is open no answer blanks the nickname. -/
def Watched (w : Phone) : Event Action Change → Prop
  | .act (.tap button) =>
    button.Checks ∧ w.client.device.account.nickname ≠ none ∨ Named w.client.device.account
  | .handle i => w.client.writeVCs = [] ∨
    ∀ r a, w.inflight[i]? = some ⟨.account r, some (.account a)⟩ →
      blanks w.server.backend r a = false
  | _ => True

theorem setLastLogin_nickname (s : Backend) (d : Device) :
    (setLastLogin s d).client.account.nickname = d.account.nickname := by
  unfold setLastLogin
  split
  · rfl
  · dsimp only
    split
    · rfl
    · rfl

theorem act_nickname (count : String → Nat) (s : Backend) (d : Device)
    (v : Account.Editors.Action) :
    (Account.Editors.act count s d v).client.account.nickname = d.account.nickname := by
  have huntouched : ∀ {v : Account.Service.Action}, v.Untouching →
      (Account.Service.act s d v).client.account.nickname = d.account.nickname := by
    intro v hv
    rw [Account.Service.act_client_same s d hv]
  unfold Account.Editors.act
  cases v with
  | save form =>
    simp only [Account.Editors.Action.operation]
    cases form.save count with
    | none => rfl
    | some dic => exact huntouched (v := .updateLoginUser dic) trivial
  | createUser => rfl
  | changeLoginUser loginEmail loginPassword => rfl
  | setLastLogin => exact setLastLogin_nickname s d
  | uploadProfileImage => exact huntouched (v := .uploadProfileImage) trivial
  | deleteAccount => exact huntouched (v := .deleteAccount) trivial
  | didBecomeActive => exact huntouched (v := .didBecomeActive) trivial
  | didReceiveRegistrationToken token => exact setLastLogin_nickname s _

theorem notify_nickname {s : Backend} {d : Device} {l : Listener} {x : Option Snapshot}
    {o : Account.Service.Outcome} (ho : Account.Service.notify s d l x = some o) :
    o.client.account.nickname = d.account.nickname := by
  cases notify_notified ho with
  | failed | switchFailed => rfl
  | propagate uid documents | propagateImage uid documents =>
    rw [Account.Service.articlesDelivered_account]
  | endArticles uid documents =>
    unfold Account.Service.endArticlesDelivered
    split <;> rfl
  | switchUser call loginEmail loginPassword documents =>
    unfold Account.Service.switchDelivered
    split
    · rfl
    · split <;> rfl
  | syncBlockUser uid document =>
    exact congrArg AccountData.nickname (Account.Service.blockUserReceived_account s d uid _)
  | syncBlockedUser otherUid document =>
    exact congrArg AccountData.nickname (Account.Service.blockedUserReceived_account s d otherUid _)

/-- A handler keeps the nickname, or caches another that is not blank, unless it blanks it. -/
theorem handle_named {s : Backend} {d : Device} {r : Account.Service.Request}
    {a : Account.Service.Answer} {o : Account.Service.Outcome}
    (ho : Account.Service.handle s d r a = some o) (hkept : blanks s r a = false)
    (hd : Named d.account) : Named o.client.account := by
  cases handle_handled ho with
  | createAuth email password uid => cases uid <;> exact hd
  | signInCreated email password ok =>
    cases ok with
    | true => exact hd
    | false =>
      show Named (setLastLogin s d).client.account
      rw [Named, setLastLogin_nickname]
      exact hd
  | setNewUser uid email password ok =>
    cases ok with
    | false => exact hd
    | true => cases hkept
  | setDeleted uid ok =>
    cases ok with
    | false => exact hd
    | true => cases hkept
  | getProfile uid purpose answer =>
    simp only [blanks] at hkept
    unfold Account.Service.profileCompletion
    split
    · exact hd
    · rename_i user hparsed
      rw [hparsed] at hkept
      have hnamed : ¬ Blank user.nickname := of_decide_eq_false hkept
      cases purpose <;> exact hnamed
  | setImage uid url ok => cases ok <;> exact hd
  | getBlockUser uid answer =>
    show Named (Account.Service.blockUserReceived s d uid answer).account
    rw [Account.Service.blockUserReceived_account]
    exact hd
  | getBlockedUser otherUid answer =>
    show Named (Account.Service.blockedUserReceived s d otherUid answer).account
    rw [Account.Service.blockedUserReceived_account]
    exact hd
  | signIn call user uid =>
    cases uid with
    | none => exact hd
    | some uid =>
      have hnamed : ¬ Blank user.nickname := by simpa [blanks] using hkept
      exact hnamed
  -- a write or a fetch that caches no profile
  | setProfile | setLogin | putAvatar | downloadURL | setArticle => exact hd

theorem named_of_checked {account : AccountData} (hcached : account.nickname ≠ none)
    (hchecked : nicknameMissing account = false) : Named account := by
  unfold nicknameMissing at hchecked
  unfold Named
  cases hname : account.nickname with
  | none => exact absurd hname hcached
  | some name =>
    rw [hname] at hchecked
    exact of_decide_eq_false hchecked

/-- The data that may be added or is on its way. -/
def Carries (data : ArticleDoc) : Prop := ¬ Blank (data.userNickname.getD "")

structure Kept (w : Phone) : Prop where
  named : w.client.writeVCs ≠ [] → Named w.client.device.account
  posted : ∀ q ∈ w.inflight, ∀ data, q.request = .addArticle data → Carries data
  added : ∀ data ∈ w.server.added, Carries data

theorem kept_start (s : Backend) (d : Device) (next : Nat) : Kept (start s d next) where
  named h := absurd rfl h
  posted _ hq := nomatch hq
  added _ hdata := nomatch hdata

theorem Kept.onDevice {w : Phone} (kept : Kept w) {o : Account.Service.Outcome}
    (hnamed : w.client.writeVCs ≠ [] → Named o.client.account) :
    Kept (w.perform (onDevice w.client o)) where
  named := hnamed
  posted := by
    refine World.calls_perform kept.posted ?_
    intro r hr data hdata
    obtain ⟨request, -, rfl⟩ := List.mem_map.mp hr
    cases hdata
  added := kept.added

theorem Kept.desk {w : Phone} (kept : Kept w) {d : Desk}
    (hnamed : d.writeVCs ≠ [] → Named d.device.account) : Kept (w.perform { client := d }) where
  named := hnamed
  posted := World.calls_perform kept.posted fun _ hr => absurd hr List.not_mem_nil
  added := kept.added

theorem createArticle_carries {names : KeyNames} {s : Server} {d : Desk} {vc : WriteVC}
    (hd : Named d.device.account) {r : Request} (hr : r ∈ createArticle names s d vc)
    {data : ArticleDoc} (hdata : r = .addArticle data) : Carries data := by
  unfold createArticle at hr
  split at hr
  · cases hr
  · obtain rfl := List.mem_singleton.mp hr
    cases hdata
    exact hd

section Steps

variable {names : KeyNames} {count : String → Nat}

private theorem kept_act {w : Phone} (kept : Kept w) (v : Action)
    (hv : Watched w (.act v)) : Kept (w.perform (act names count w.server w.client v)) := by
  cases v with
  | account action =>
    refine kept.onDevice fun hopen => ?_
    rw [Named, act_nickname]
    exact kept.named hopen
  | tap button =>
    show Kept (w.perform (tap w.client button))
    unfold tap
    split
    · exact kept.desk kept.named
    · rename_i hopened
      refine kept.desk fun _ => ?_
      rcases hv with ⟨hchecks, hcached⟩ | hnamed
      · have hchecked : nicknameMissing w.client.device.account = false := by
          simpa [hchecks] using hopened
        exact named_of_checked hcached hchecked
      · exact hnamed
  | edit id text =>
    refine kept.desk fun hopen => kept.named ?_
    exact fun hnone => hopen (by simp [hnone])
  | post id =>
    show Kept (w.perform (post names count w.server w.client id))
    unfold post
    split
    · exact kept.desk kept.named
    · rename_i vc hfound
      have hopen : w.client.writeVCs ≠ [] := List.ne_nil_of_mem (List.mem_of_find?_eq_some hfound)
      split
      · exact kept.desk kept.named
      · refine ⟨fun _ => kept.named hopen, World.calls_perform kept.posted ?_, kept.added⟩
        intro r hr data hdata
        exact createArticle_carries (kept.named hopen) hr hdata
  | close id =>
    refine kept.desk fun hopen => kept.named ?_
    exact fun hnone => hopen (by simp [hnone])

private theorem kept_served {w : Phone} (kept : Kept w) {i : Nat} {r : Request} {ok : Bool}
    (hi : w.inflight[i]? = some ⟨r, none⟩) : Kept (w.served (program names count) i r ok) := by
  have hr := List.mem_of_getElem? hi
  refine ⟨kept.named, World.calls_served kept.posted ?_, ?_⟩
  · exact fun data hdata => kept.posted _ hr data hdata
  · cases r with
    | account request => exact kept.added
    | addArticle data =>
      cases ok with
      | false => exact kept.added
      | true =>
        intro a ha
        rcases List.mem_cons.mp ha with rfl | ha
        · exact kept.posted _ hr data rfl
        · exact kept.added a ha

/-- One watched step keeps every open view with a nickname. -/
theorem kept_step {w w' : Phone} {e : Event Action Change} (kept : Kept w)
    (hw : Watched w e) (h : step names count w e = some w') : Kept w' := by
  cases Program.step_fires h with
  | act he =>
    obtain rfl := Option.some.inj he
    exact kept_act kept _ hw
  | serve hi => exact kept_served kept hi
  | @handle i r a o hi ho =>
    have hlanded : Kept (w.landed i) := ⟨kept.named, World.calls_landed kept.posted, kept.added⟩
    cases r with
    | account request =>
      cases a with
      | account answer =>
        obtain ⟨after, hafter, rfl⟩ := Option.map_eq_some_iff.mp ho
        refine hlanded.onDevice fun hopen => ?_
        rcases hw with hnone | hkept
        · exact absurd hnone hopen
        · exact handle_named hafter (hkept request answer hi) (kept.named hopen)
      | added ok => cases ho
    | addArticle data =>
      cases a with
      | account answer => cases ho
      | added ok =>
        obtain rfl := Option.some.inj ho
        exact hlanded.desk kept.named
  | @deliver j ok x o hj ho =>
    obtain ⟨after, hafter, rfl⟩ := Option.map_eq_some_iff.mp ho
    have hdelivered : Kept (w.delivered j x.listener) := ⟨kept.named, kept.posted, kept.added⟩
    refine hdelivered.onDevice fun hopen => ?_
    rw [Named, notify_nickname hafter]
    exact kept.named hopen
  | env => exact ⟨kept.named, kept.posted, kept.added⟩

/-- In a run whose steps are all watched, no article is added without a nickname. -/
theorem articles_named {s : Backend} {d : Device} {next : Nat} {w : Phone}
    {es : List (Event Action Change)} (along : Along (step names count) Watched (start s d next) es)
    (hr : run (step names count) (start s d next) es = some w) :
    ∀ article ∈ w.server.added, trimmingCharacters (article.userNickname.getD "") ≠ "" :=
  (run_keeps (fun _ _ _ kept hw h => kept_step kept hw h) along hr (kept_start s d next)).added

end Steps

section Example

/-- A backend that bob has used before; it hands out "alice" next. -/
private def firstLaunch : Backend where
  uids _ := "alice"
  urls _ := "url"

private def newDevice : Device where
  emails _ := "20180818_x@p-chat.net"

private def fromBob : Article :=
  ⟨7, "bob", "Who is here?", 3, 1, "Bob", "", 0, 0, "", "", ""⟩

/-- The account is created, its nickname is the empty one, and bob's page lets it answer. -/
private def unnamedReply : List (Event Action Change) :=
  [.act (.account .createUser), .serve 0 true, .handle 0, .serve 1 true, .handle 1,
    .act (.tap (.userDetailReply fromBob)), .act (.edit 0 "Hello, it's me"), .act (.post 0),
    .serve 2 true]

theorem unnamed_article_added : ∃ w,
    run (step .plain String.length) (start firstLaunch newDevice 8) unnamedReply = some w ∧
      w.server.added.map ArticleDoc.userNickname = [some ""] ∧ trimmingCharacters "" = "" :=
  ⟨_, rfl, by decide, by decide⟩

private def ann : LoginUserDoc where
  email := some "ann@p-chat.net"
  password := some "password1234"
  nickname := some " Ann "
  status := some 1

private def annSignedIn : Backend :=
  { firstLaunch with currentUser := some "ann", loginUser := AList.singleton "ann" ann }

private def annsDevice : Device := { newDevice with account := { nickname := some " Ann " } }

/-- Ann posts while her profile is read, and answers bob from a button that does not check. -/
private def namedPosts : List (Event Action Change) :=
  [.act (.tap .homeWrite), .act (.account .setLastLogin), .act (.edit 0 "Hello, it's me"),
    .act (.post 0), .serve 1 true, .serve 0 true, .handle 0, .serve 1 true, .handle 1,
    .act (.tap (.userDetailReply fromBob)), .act (.edit 1 "I am here, too"), .act (.post 1),
    .serve 2 true]

private theorem namedPosts_watched :
    Along (step .plain String.length) Watched (start annSignedIn annsDevice 8) namedPosts := by
  refine .cons (.inl ⟨trivial, by decide⟩) rfl (.cons trivial rfl (.cons trivial rfl
    (.cons trivial rfl (.cons trivial rfl (.cons trivial rfl (.cons (.inr ?_) rfl
      (.cons trivial rfl (.cons (.inr ?_) rfl (.cons (.inr ?_) rfl (.cons trivial rfl
        (.cons trivial rfl (.cons trivial rfl trivial))))))))))))
  · intro r a h
    cases h
    rfl
  · intro r a h
    cases h
    decide
  · show ¬ Blank " Ann "
    decide

theorem articles_named_ann : ∃ w,
    run (step .plain String.length) (start annSignedIn annsDevice 8) namedPosts = some w ∧
      w.server.added.length = 2 ∧
      ∀ article ∈ w.server.added, trimmingCharacters (article.userNickname.getD "") ≠ "" :=
  ⟨_, rfl, rfl, articles_named namedPosts_watched rfl⟩

end Example

end PlateChat.Screen.Writing
