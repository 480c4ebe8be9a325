/- PlateChat/Account/Cache
   digest: Whose documents fill the caches while an account is signed in. -/

import PlateChat.Account.Service

set_option autoImplicit false
set_option relaxedAutoImplicit false

/-!
The handlers of the blocked-users document compare the account they were started for
with the signed-in one before they touch the cache. The handlers of a profile, of a
sign-in and of the block list do not, so what they cache is whatever they were started
for, no matter who has signed in since: what is left of the account before, when the caches
are cleared for another one.
-/

namespace PlateChat.Account.Cache

open PlateChat.Foundation.Run PlateChat.Foundation.EventLoop
open PlateChat.Model.Members PlateChat.Model.LocalData PlateChat.Model.Profile
open PlateChat.Account.Service

/-- Data received while an account is settled is from that account's own document. -/
def OwnDocument : Obs → Prop
  | .received _ source settled => ∀ uid ∈ settled, source = uid
  | _ => True

instance : ∀ o, Decidable (OwnDocument o)
  | .received _ source settled => inferInstanceAs (Decidable (∀ uid ∈ settled, source = uid))
  | .propagated _ _ | .signInIssued _ | .switchRefused _ | .switchFinished _ _ => .isTrue trivial

/-- No cache has received another account's data since the signed-in account was cleared for. -/
def CachesOwn (w : Phone) : Prop := ∀ o ∈ w.client.log, OwnDocument o

instance (w : Phone) : Decidable (CachesOwn w) :=
  inferInstanceAs (Decidable (∀ o ∈ w.client.log, OwnDocument o))

/-- What the cache of blocking users received while an account was settled is that account's. -/
def BlockedOwn : Obs → Prop
  | .received .userBlocked source settled => ∀ uid ∈ settled, source = uid
  | _ => True

/-- The account whose document a handler caches without asking who is signed in. -/
def unasked (s : Backend) : Request → Answer → Option Uid
  | .getProfile uid _, .profile answer => (parsedProfile s uid answer).map fun _ => uid
  | .getBlockUser uid, .members answer => (parsedMembers uid answer).map fun _ => uid
  | .signIn _ user, .signedIn (some _) => some user.key
  | _, _ => none

/-- A sign-in clears the caches before it fills them. -/
def clearedFirst (s : Backend) (d : Device) : Request → Answer → Device
  | .signIn _ _, .signedIn (some uid) => settle s d uid
  | _, _ => d

/-- The account whose block list a listener caches without asking who is signed in. -/
def unaskedListener (s : Backend) : Listener → Option Uid
  | .syncBlockUser uid => (parsedMembers uid (.ok (s.userBlock.lookup uid))).map fun _ => uid
  | _ => none

/-- The account whose document the event caches unasked. -/
def unaskedAt (w : Phone) : Event Action Change → Option Uid
  | .handle i => w.inflight[i]?.bind fun c => c.answer.bind (unasked w.server c.request)
  | .deliver j true => w.watches[j]?.bind fun x => unaskedListener w.server x.listener
  | _ => none

/-- The account that is signed in and cleared for when the event fills a cache. -/
def settledAt (w : Phone) : Event Action Change → Option Uid
  | .handle i => w.inflight[i]?.bind fun c => c.answer.bind fun a =>
      settledFor w.server (clearedFirst w.server w.client c.request a)
  | _ => settledFor w.server w.client

/-- The account whose data the handler of a request caches unasked, or the handler of the read
that follows it. -/
def source : Request → Option Uid
  | .setProfile uid _ | .setDeleted uid | .setLogin uid _ | .getProfile uid _
  | .getBlockUser uid => some uid
  | .signIn _ user => some user.key
  | _ => none

/-- An answer after which the handler goes on: the write is done, or the document is there and
parses. -/
def Succeeded : Answer → Prop
  | .written ok => ok = true
  | .profile (.ok (some document)) => document.Parses
  | .members (.ok (some document)) => document.members.isSome
  | .signedIn uid => uid.isSome
  | _ => False

instance : ∀ a, Decidable (Succeeded a)
  | .written ok => inferInstanceAs (Decidable (ok = true))
  | .profile (.ok (some document)) => inferInstanceAs (Decidable document.Parses)
  | .members (.ok (some document)) => inferInstanceAs (Decidable (document.members.isSome = true))
  | .signedIn uid => inferInstanceAs (Decidable (uid.isSome = true))
  | .profile (.ok none) | .profile (.error _) | .members (.ok none) | .members (.error _)
  | .created _ | .url _ => .isFalse id

/-- The account whose data a call in flight may still bring into the caches of the account that
is signed in. A sign-in that is not answered yet changes that account. -/
def brings : Call Request Answer → Option Uid
  | ⟨.signIn _ _, none⟩ => none
  | ⟨r, none⟩ => source r
  | ⟨r, some a⟩ => if Succeeded a then source r else none

/-- The same of a registered listener. -/
def listens : Listener → Option Uid
  | .syncBlockUser uid => some uid
  | _ => none

/-- Nothing in flight and no listener brings another account's data. -/
def Only (uid : Uid) (w : Phone) : Prop :=
  (∀ c ∈ w.inflight, ∀ source ∈ brings c, source = uid) ∧
    ∀ x ∈ w.watches, ∀ source ∈ listens x.listener, source = uid

instance (uid : Uid) (w : Phone) : Decidable (Only uid w) :=
  inferInstanceAs (Decidable (_ ∧ _))

/-- The account that the handler of a sign-in or of a creation clears the caches for, if it is
the one that is signed in. -/
def clearsFor (s : Backend) : Call Request Answer → Option Uid
  | ⟨.signIn _ _, some (.signedIn (some uid))⟩ | ⟨.setNewUser uid _ _, some (.written true)⟩ =>
    if s.currentUser = some uid then some uid else none
  | _ => none

/-- The profile of a sign-in that is still to be served. -/
def signingIn : Call Request Answer → Option LoginUser
  | ⟨.signIn _ user, none⟩ => some user
  | _ => none

/-- A sign-in with the email and the password of a profile signs in that profile's account. -/
def OwnAccount (s : Backend) (c : Call Request Answer) : Prop :=
  ∀ user ∈ signingIn c, ∀ uid ∈ s.account user.email user.password, uid = user.key

instance (s : Backend) (c : Call Request Answer) : Decidable (OwnAccount s c) :=
  inferInstanceAs (Decidable (∀ user ∈ signingIn c, _))

/-- When the caches are cleared for an account, nothing of another account is under way; and
the profiles that are signed in with are those of the accounts. -/
def SwitchesAlone (w : Phone) : Event Action Change → Prop
  | .handle i => ∀ c ∈ w.inflight[i]?, ∀ uid ∈ clearsFor w.server c, Only uid (w.landed i)
  | .serve i true => ∀ c ∈ w.inflight[i]?, OwnAccount w.server c
  | _ => True

instance (w : Phone) : ∀ ev, Decidable (SwitchesAlone w ev)
  | .handle i => inferInstanceAs (Decidable (∀ c ∈ w.inflight[i]?, _))
  | .serve i true => inferInstanceAs (Decidable (∀ c ∈ w.inflight[i]?, _))
  | .serve _ false | .act _ | .deliver _ _ | .env _ => .isTrue trivial

/-- What a note says about its source: the cache of blocking users is filled for the signed-in
account, every other cache for whatever account the handler was started for. -/
def Fills (current unasked settled : Option Uid) : Obs → Prop
  | .received .userBlocked source at' => at' = settled ∧ current = some source
  | .received _ source at' => at' = settled ∧ unasked = some source
  | _ => True

private theorem fills_blockUser (s : Backend) (d : Device) (uid : Uid)
    (answer : Except ServiceError (Option MembersDoc)) :
    ∀ o ∈ blockUserNotes s d uid answer,
      Fills s.currentUser ((parsedMembers uid answer).map fun _ => uid) (settledFor s d) o := by
  intro o ho
  unfold blockUserNotes at ho
  split at ho
  · rename_i parsed
    obtain ⟨members, hmembers⟩ := Option.isSome_iff_exists.mp parsed
    obtain rfl := List.mem_singleton.mp ho
    exact ⟨rfl, Option.map_eq_some_iff.mpr ⟨members, hmembers, rfl⟩⟩
  · cases ho

private theorem fills_blockedUser (s : Backend) (d : Device) (otherUid : Uid)
    (answer : Except ServiceError (Option MembersDoc)) (source : Option Uid) :
    ∀ o ∈ blockedUserNotes s d otherUid answer,
      Fills s.currentUser source (settledFor s d) o := by
  intro o ho
  unfold blockedUserNotes at ho
  split at ho
  · rename_i asked
    obtain rfl := List.mem_singleton.mp ho
    exact ⟨rfl, asked.2⟩
  · cases ho

private theorem parsedProfile_key {s : Backend} {uid : Uid}
    {answer : Except ServiceError (Option LoginUserDoc)} {user : LoginUser}
    (h : parsedProfile s uid answer = some user) : user.key = uid := by
  unfold parsedProfile at h
  split at h
  · split at h
    · obtain rfl := Option.some.inj h
      rename_i parsed
      exact (LoginUser.of_parsed parsed).1
    · cases h
  · cases h

private theorem fills_handle (s : Backend) (d : Device) (r : Request) (a : Answer) :
    ∀ o ∈ handleNotes s d r a,
      Fills s.currentUser (unasked s r a) (settledFor s (clearedFirst s d r a)) o := by
  intro o ho
  unfold handleNotes at ho
  split at ho
  · split at ho
    · rename_i user parsed
      obtain rfl := List.mem_singleton.mp ho
      refine ⟨rfl, Option.map_eq_some_iff.mpr ⟨user, parsed, ?_⟩⟩
      exact (parsedProfile_key parsed).symm
    · cases ho
  · exact fills_blockUser s d _ _ o ho
  · exact fills_blockedUser s d _ _ _ o ho
  · obtain rfl := List.mem_singleton.mp ho
    trivial
  · rcases List.mem_cons.mp ho with rfl | ho
    · trivial
    · obtain rfl := List.mem_singleton.mp ho
      exact ⟨rfl, rfl⟩
  · cases ho

private theorem fills_articles {articles : List Article} {data : Article → ArticlePatch}
    {current unasked settled : Option Uid} :
    ∀ o ∈ articles.map fun a => Obs.propagated a (data a), Fills current unasked settled o := by
  intro o ho
  obtain ⟨a, _, rfl⟩ := List.mem_map.mp ho
  trivial

private theorem fills_switch (s : Backend) (d : Device) (call : Nat)
    (loginEmail loginPassword : String) (x : Option Snapshot)
    (current unasked settled : Option Uid) :
    ∀ o ∈ notifyNotes s d (.switchUser call loginEmail loginPassword) x,
      Fills current unasked settled o := by
  intro o ho
  have hnote : o = .signInIssued call ∨ o = .switchRefused call := by
    rcases x with _ | documents | (_ | ⟨document, rest⟩) | document
    · exact .inr (List.mem_singleton.mp ho)
    · exact .inr (List.mem_singleton.mp ho)
    · exact .inr (List.mem_singleton.mp ho)
    · simp only [notifyNotes] at ho
      split at ho
      · exact .inl (List.mem_singleton.mp ho)
      · exact .inr (List.mem_singleton.mp ho)
    · exact .inr (List.mem_singleton.mp ho)
  rcases hnote with rfl | rfl <;> trivial

private theorem fills_notify (s : Backend) (d : Device) (l : Listener) (ok : Bool) :
    ∀ o ∈ notifyNotes s d l (if ok then some (snapshot s l) else none),
      Fills s.currentUser (if ok then unaskedListener s l else none) (settledFor s d) o := by
  cases l with
  | propagate uid | propagateImage uid =>
    cases ok with
    | false => exact List.forall_mem_nil _
    | true =>
      simp only [if_true, snapshot, notifyNotes]
      split
      · exact fills_articles
      · exact List.forall_mem_nil _
  | endArticles uid => cases ok <;> exact List.forall_mem_nil _
  | switchUser call loginEmail loginPassword => exact fills_switch s d call _ _ _ _ _ _
  | syncBlockUser uid =>
    cases ok with
    | false => exact List.forall_mem_nil _
    | true => exact fills_blockUser s d uid _
  | syncBlockedUser otherUid =>
    cases ok with
    | false => exact List.forall_mem_nil _
    | true => exact fills_blockedUser s d otherUid _ _

private theorem step_fills {w w' : Phone} {ev : Event Action Change} (h : step w ev = some w') :
    ∀ o ∈ w'.client.log,
      o ∈ w.client.log ∨ Fills w.server.currentUser (unaskedAt w ev) (settledAt w ev) o := by
  intro o ho
  cases Program.step_fires h with
  | @act v e he =>
    obtain rfl := Option.some.inj he
    rw [World.perform_client, act_log] at ho
    exact .inl ho
  | serve | env => exact .inl ho
  | @handle i r a e hi he =>
    rw [World.perform_client, handle_log he] at ho
    rcases List.mem_append.mp ho with ho | ho
    · have hfills := fills_handle w.server w.client r a o ho
      have hunasked : unaskedAt w (.handle i) = unasked w.server r a := by
        simp only [unaskedAt, hi, Option.bind_some]
      have hsettled : settledAt w (.handle i) =
          settledFor w.server (clearedFirst w.server w.client r a) := by
        simp only [settledAt, hi, Option.bind_some]
      rw [hunasked, hsettled]
      exact .inr hfills
    · exact .inl ho
  | @deliver j ok x e hj he =>
    rw [World.perform_client, notify_log he] at ho
    rcases List.mem_append.mp ho with ho | ho
    · have hfills := fills_notify w.server w.client x.listener ok o ho
      have hunasked : unaskedAt w (.deliver j ok) =
          if ok then unaskedListener w.server x.listener else none := by
        cases ok with
        | false => rfl
        | true => simp only [unaskedAt, hj, Option.bind_some, if_true]
      rw [hunasked]
      exact .inr hfills
    · exact .inl ho

private theorem settledFor_current {s : Backend} {d : Device} {uid : Uid}
    (h : uid ∈ settledFor s d) : s.currentUser = some uid := by
  unfold settledFor at h
  split at h
  · exact h
  · cases h

private theorem settledAt_current {w : Phone} {ev : Event Action Change} {uid : Uid}
    (h : uid ∈ settledAt w ev) : w.server.currentUser = some uid := by
  cases ev with
  | handle i =>
    obtain ⟨c, _, hc⟩ := Option.bind_eq_some_iff.mp h
    obtain ⟨a, _, ha⟩ := Option.bind_eq_some_iff.mp hc
    exact settledFor_current ha
  | act | serve | deliver | env => exact settledFor_current h

private theorem blocked_of_fills {w : Phone} {ev : Event Action Change} {o : Obs}
    (h : Fills w.server.currentUser (unaskedAt w ev) (settledAt w ev) o) : BlockedOwn o := by
  rcases o with _ | _ | _ | _ | ⟨_ | _ | _, source, settled⟩
  case received.userBlocked =>
    obtain ⟨rfl, hcurrent⟩ := h
    intro uid huid
    rw [settledAt_current huid] at hcurrent
    exact (Option.some.inj hcurrent).symm
  all_goals trivial

private theorem blocked_step {w w' : Phone} {ev : Event Action Change}
    (h : ∀ o ∈ w.client.log, BlockedOwn o) (hstep : step w ev = some w') :
    ∀ o ∈ w'.client.log, BlockedOwn o := by
  intro o ho
  rcases step_fills hstep o ho with hold | hfills
  · exact h o hold
  · exact blocked_of_fills hfills

/-- The comparison with the signed-in account keeps foreign documents out of the cache
of blocking users, in every run. -/
theorem blocked_users_own (s : Backend) (d : Device) (es : List (Event Action Change)) (w : Phone)
    (hr : run step (start s d) es = some w) : ∀ o ∈ w.client.log, BlockedOwn o :=
  run_invariant (P := fun w : Phone => ∀ o ∈ w.client.log, BlockedOwn o)
    (fun _ _ _ h hs => blocked_step h hs) hr fun _ ho => nomatch ho

private theorem settledFor_iff {s : Backend} {d : Device} {uid : Uid} :
    uid ∈ settledFor s d ↔ d.clearedAt = some s.epoch ∧ s.currentUser = some uid := by
  rw [settledFor, Option.mem_def]
  split
  · rw [and_iff_right ‹_›]
  · rename_i hcleared
    exact iff_of_false (fun h => nomatch h) fun h => hcleared h.1

/-- The same account is signed in, or a new epoch has begun. -/
private def Advances (s s' : Backend) : Prop :=
  s'.currentUser = s.currentUser ∧ s'.epoch = s.epoch ∨ s'.epoch = s.epoch + 1

private theorem advances_signInAs {s t : Backend} (uid : Uid)
    (hcurrent : t.currentUser = s.currentUser) (hepoch : t.epoch = s.epoch) :
    Advances s (t.signInAs uid) := by
  by_cases h : t.currentUser = some uid
  · have hkept : (t.signInAs uid).epoch = t.epoch := if_pos h
    exact .inl ⟨h.symm.trans hcurrent, hkept.trans hepoch⟩
  · have hnext : (t.signInAs uid).epoch = t.epoch + 1 := if_neg h
    exact .inr (hnext.trans (congrArg (· + 1) hepoch))

private theorem advances_serve (s : Backend) (r : Request) (ok : Bool) :
    Advances s (serve s r ok).1 := by
  cases ok with
  | false => cases r <;> exact .inl ⟨rfl, rfl⟩
  | true =>
    cases r with
    | createAuth email password =>
      change Advances s (createAuth s email password).1
      unfold createAuth
      split
      · exact .inl ⟨rfl, rfl⟩
      · exact advances_signInAs _ rfl rfl
    | signInCreated email password =>
      change Advances s (signInCreated s email password).1
      unfold signInCreated
      split
      · exact advances_signInAs _ rfl rfl
      · exact .inl ⟨rfl, rfl⟩
    | signIn call user =>
      change Advances s (signIn s call user).1
      unfold signIn
      split
      · exact advances_signInAs (s := s) _ rfl rfl
      · exact .inl ⟨rfl, rfl⟩
    | setNewUser | setProfile | setDeleted | setLogin | getProfile | putAvatar | downloadURL
    | setImage | getBlockUser | getBlockedUser | setArticle => exact .inl ⟨rfl, rfl⟩

private theorem serve_signIn {s : Backend} {call : Nat} {user : LoginUser} {ok : Bool} {uid : Uid}
    (h : (serve s (.signIn call user) ok).2 = .signedIn (some uid)) :
    ok = true ∧ s.account user.email user.password = some uid ∧
      (serve s (.signIn call user) ok).1.currentUser = some uid := by
  cases ok with
  | false => cases h
  | true =>
    change (signIn s call user).2 = _ at h
    change _ ∧ _ ∧ (signIn s call user).1.currentUser = _
    unfold signIn at h ⊢
    split at h
    · rename_i v haccount
      obtain rfl := Option.some.inj (Answer.signedIn.inj h)
      rw [haccount]
      exact ⟨rfl, rfl, rfl⟩
    · cases h

private theorem setLastLogin_clearedAt (s : Backend) (d : Device) :
    (setLastLogin s d).client.clearedAt = d.clearedAt := by
  unfold setLastLogin
  split <;> rfl

private theorem act_clearedAt (s : Backend) (d : Device) (v : Action) :
    (act s d v).client.clearedAt = d.clearedAt := by
  cases v with
  | createUser | changeLoginUser => rfl
  | setLastLogin => exact setLastLogin_clearedAt s d
  | didReceiveRegistrationToken token => exact setLastLogin_clearedAt s _
  | updateLoginUser | uploadProfileImage | deleteAccount | didBecomeActive =>
    rw [act_client_same s d (by trivial)]

private theorem blockUserReceived_clearedAt (s : Backend) (d : Device) (uid : Uid)
    (answer : Except ServiceError (Option MembersDoc)) :
    (blockUserReceived s d uid answer).clearedAt = d.clearedAt := by
  unfold blockUserReceived
  split <;> rfl

private theorem blockedUserReceived_clearedAt (s : Backend) (d : Device) (otherUid : Uid)
    (answer : Except ServiceError (Option MembersDoc)) :
    (blockedUserReceived s d otherUid answer).clearedAt = d.clearedAt := by
  unfold blockedUserReceived
  split
  · split <;> rfl
  · rfl

private theorem notify_clearedAt {s : Backend} {d : Device} {l : Listener} {x : Option Snapshot}
    {o : Outcome} (ho : notify s d l x = some o) : o.client.clearedAt = d.clearedAt := by
  cases notify_notified ho with
  | failed | switchFailed => rfl
  | propagate uid documents | propagateImage uid documents =>
    unfold articlesDelivered
    split <;> rfl
  | endArticles uid documents =>
    unfold endArticlesDelivered
    split <;> rfl
  | switchUser call loginEmail loginPassword documents =>
    unfold switchDelivered
    split
    · rfl
    · split <;> rfl
  | syncBlockUser uid document => exact blockUserReceived_clearedAt s d uid _
  | syncBlockedUser otherUid document => exact blockedUserReceived_clearedAt s d otherUid _

private theorem settle_clearedAt (s : Backend) (d : Device) (uid : Uid) :
    (settle s (clearUserInfo d) uid).clearedAt =
      if s.currentUser = some uid then some s.epoch else d.clearedAt := by
  unfold settle
  split <;> rfl

private theorem handle_clearedAt {s : Backend} {d : Device} {r : Request} {a : Answer}
    {o : Outcome} (ho : handle s d r a = some o) :
    o.client.clearedAt = d.clearedAt ∨
      (clearsFor s ⟨r, some a⟩).isSome ∧ o.client.clearedAt = some s.epoch := by
  have settled : ∀ uid, (settle s (clearUserInfo d) uid).clearedAt = d.clearedAt ∨
      (if s.currentUser = some uid then some uid else none).isSome ∧
        (settle s (clearUserInfo d) uid).clearedAt = some s.epoch := by
    intro uid
    rw [settle_clearedAt]
    split
    · exact .inr ⟨rfl, rfl⟩
    · exact .inl rfl
  cases handle_handled ho with
  | createAuth email password uid => cases uid <;> exact .inl rfl
  | signInCreated email password ok =>
    cases ok with
    | true => exact .inl rfl
    | false => exact .inl (setLastLogin_clearedAt s d)
  | setNewUser uid email password ok =>
    cases ok with
    | false => exact .inl rfl
    | true =>
      have hlogin : (setNewUserCompletion s d uid true).client.clearedAt =
          (settle s (clearUserInfo d) uid).clearedAt := setLastLogin_clearedAt s _
      rw [hlogin]
      exact settled uid
  | setDeleted uid ok => cases ok <;> exact .inl rfl
  | getProfile uid purpose answer =>
    unfold profileCompletion
    split
    · exact .inl rfl
    · cases purpose <;> exact .inl rfl
  | setImage uid url ok => cases ok <;> exact .inl rfl
  | getBlockUser uid answer => exact .inl (blockUserReceived_clearedAt s d uid answer)
  | getBlockedUser otherUid answer => exact .inl (blockedUserReceived_clearedAt s d otherUid answer)
  | signIn call user uid =>
    cases uid with
    | none => exact .inl rfl
    | some uid => exact settled uid
  | setProfile | setLogin | putAvatar | downloadURL | setArticle => exact .inl rfl

private theorem setLastLogin_brings (s : Backend) (d : Device) :
    ∀ q ∈ (setLastLogin s d).requests, ∀ source ∈ brings ⟨q, none⟩, s.currentUser = some source := by
  intro q hq source hsource
  unfold setLastLogin at hq
  split at hq
  · cases hq
  · obtain rfl := List.mem_singleton.mp hq
    obtain rfl := Option.some.inj hsource
    assumption

private theorem getBlockUser_brings (s : Backend) :
    ∀ q ∈ getBlockUser s, ∀ source ∈ brings ⟨q, none⟩, s.currentUser = some source := by
  intro q hq source hsource
  unfold getBlockUser at hq
  split at hq
  · obtain rfl := List.mem_singleton.mp hq
    obtain rfl := Option.some.inj hsource
    assumption
  · cases hq

private theorem syncBlockUser_listens (s : Backend) :
    ∀ l ∈ syncBlockUser s, ∀ source ∈ listens l, s.currentUser = some source := by
  intro l hl source hsource
  unfold syncBlockUser at hl
  split at hl
  · obtain rfl := List.mem_singleton.mp hl
    obtain rfl := Option.some.inj hsource
    assumption
  · cases hl

private theorem syncBlockedUser_listens (s : Backend) (otherUid : Uid) :
    ∀ l ∈ syncBlockedUser s otherUid, listens l = none := by
  intro l hl
  unfold syncBlockedUser at hl
  split at hl
  · obtain rfl := List.mem_singleton.mp hl
    rfl
  · cases hl

private theorem act_brings (s : Backend) (d : Device) (v : Action) :
    (∀ q ∈ (act s d v).requests, ∀ source ∈ brings ⟨q, none⟩, s.currentUser = some source) ∧
      ∀ l ∈ (act s d v).listeners, ∀ source ∈ listens l, s.currentUser = some source := by
  have setLastLogin_listeners : ∀ d, (setLastLogin s d).listeners = [] := by
    intro d
    unfold setLastLogin
    split <;> rfl
  cases v with
  | createUser =>
    refine ⟨fun q hq source hsource => ?_, List.forall_mem_nil _⟩
    obtain rfl := List.mem_singleton.mp hq
    cases hsource
  | setLastLogin =>
    refine ⟨setLastLogin_brings s d, fun l hl => ?_⟩
    rw [act, setLastLogin_listeners] at hl
    cases hl
  | didReceiveRegistrationToken token =>
    refine ⟨setLastLogin_brings s _, fun l hl => ?_⟩
    rw [act, didReceiveRegistrationToken, setLastLogin_listeners] at hl
    cases hl
  | changeLoginUser loginEmail loginPassword =>
    refine ⟨List.forall_mem_nil _, fun l hl source hsource => ?_⟩
    obtain rfl := List.mem_singleton.mp hl
    cases hsource
  | didBecomeActive =>
    simp only [act, didBecomeActive]
    split
    · exact ⟨List.forall_mem_nil _, List.forall_mem_nil _⟩
    · refine ⟨List.forall_mem_nil _, fun l hl source hsource => ?_⟩
      rcases List.mem_append.mp hl with hl | hl
      · exact syncBlockUser_listens s l hl source hsource
      · rw [syncBlockedUser_listens s _ l hl] at hsource
        cases hsource
  | updateLoginUser dic =>
    simp only [act, updateLoginUser]
    split
    · exact ⟨List.forall_mem_nil _, List.forall_mem_nil _⟩
    · refine ⟨fun q hq source hsource => ?_, List.forall_mem_nil _⟩
      obtain rfl := List.mem_singleton.mp hq
      obtain rfl := Option.some.inj hsource
      assumption
  | uploadProfileImage =>
    simp only [act, uploadProfileImage]
    split
    · exact ⟨List.forall_mem_nil _, List.forall_mem_nil _⟩
    · refine ⟨fun q hq source hsource => ?_, List.forall_mem_nil _⟩
      obtain rfl := List.mem_singleton.mp hq
      cases hsource
  | deleteAccount =>
    simp only [act, deleteLoginUser]
    split
    · exact ⟨List.forall_mem_nil _, List.forall_mem_nil _⟩
    · refine ⟨fun q hq source hsource => ?_, List.forall_mem_nil _⟩
      obtain rfl := List.mem_singleton.mp hq
      obtain rfl := Option.some.inj hsource
      assumption

private theorem handle_brings {s : Backend} {d : Device} {r : Request} {a : Answer} {o : Outcome}
    (ho : handle s d r a = some o) : ∀ q ∈ o.requests, ∀ source ∈ brings ⟨q, none⟩,
      s.currentUser = some source ∨ source ∈ brings ⟨r, some a⟩ := by
  intro q hq source hsource
  have read : ∀ uid purpose, q ∈ [Request.getProfile uid purpose] → source = uid := by
    intro uid purpose hq
    obtain rfl := List.mem_singleton.mp hq
    exact (Option.some.inj hsource).symm
  have unsourced : ∀ q', q ∈ [q'] → brings ⟨q', none⟩ = none → False := by
    intro q' hq hnone
    obtain rfl := List.mem_singleton.mp hq
    rw [hnone] at hsource
    cases hsource
  cases handle_handled ho with
  | createAuth email password uid =>
    cases uid with
    | none => cases hq
    | some uid =>
      rcases List.mem_cons.mp hq with rfl | hq
      · cases hsource
      · exact (unsourced _ hq rfl).elim
  | signInCreated email password ok =>
    cases ok with
    | true => cases hq
    | false => exact .inl (setLastLogin_brings s d q hq source hsource)
  | setNewUser uid email password ok =>
    cases ok with
    | false => cases hq
    | true => exact .inl (setLastLogin_brings s _ q hq source hsource)
  | setProfile uid dic ok | setDeleted uid ok | setLogin uid token ok =>
    cases ok with
    | false => cases hq
    | true => exact .inr (congrArg some (read _ _ hq).symm)
  | getProfile uid purpose answer =>
    unfold profileCompletion at hq
    split at hq
    · cases hq
    · cases purpose with
      | updateLoginUser | setLastLogin => exact .inl (getBlockUser_brings s q hq source hsource)
      | deleteLoginUser =>
        rcases List.mem_append.mp hq with hq | hq
        · exact .inl (getBlockUser_brings s q hq source hsource)
        · exact (unsourced _ hq rfl).elim
  | putAvatar uid ok =>
    cases ok with
    | false => cases hq
    | true => exact (unsourced _ hq rfl).elim
  | downloadURL uid url =>
    cases url with
    | none => cases hq
    | some url => exact (unsourced _ hq rfl).elim
  | setImage uid url ok => cases ok <;> cases hq
  | getBlockUser uid answer =>
    dsimp only [getBlockUserCompletion] at hq
    split at hq
    · exact (unsourced _ hq rfl).elim
    · cases hq
  | signIn call user uid =>
    cases uid with
    | none => cases hq
    | some uid =>
      rcases List.mem_append.mp hq with hq | hq
      · exact .inl (getBlockUser_brings s q hq source hsource)
      · cases hq
  | getBlockedUser | setArticle => cases hq

private theorem handle_listens {s : Backend} {d : Device} {r : Request} {a : Answer} {o : Outcome}
    (ho : handle s d r a = some o) :
    ∀ l ∈ o.listeners, ∀ source ∈ listens l, s.currentUser = some source := by
  have silent : ∀ l' : Listener, listens l' = none →
      ∀ l ∈ [l'], ∀ source ∈ listens l, s.currentUser = some source := by
    intro l' hnone l hl source hsource
    obtain rfl := List.mem_singleton.mp hl
    rw [hnone] at hsource
    cases hsource
  have none : ∀ l ∈ ([] : List Listener), ∀ source ∈ listens l, s.currentUser = some source :=
    List.forall_mem_nil _
  have setLastLogin_none : ∀ d, ∀ l ∈ (setLastLogin s d).listeners, ∀ source ∈ listens l,
      s.currentUser = some source := by
    intro d
    unfold setLastLogin
    split <;> exact none
  cases handle_handled ho with
  | createAuth email password uid => cases uid <;> exact none
  | signInCreated email password ok =>
    cases ok with
    | true => exact none
    | false => exact setLastLogin_none d
  | setNewUser uid email password ok =>
    cases ok with
    | false => exact none
    | true => exact setLastLogin_none _
  | setDeleted uid ok => cases ok <;> exact none
  | getProfile uid purpose answer =>
    unfold profileCompletion
    split
    · exact none
    · cases purpose with
      | updateLoginUser | deleteLoginUser => exact silent _ rfl
      | setLastLogin =>
        intro l hl source hsource
        rcases List.mem_append.mp hl with hl | hl
        · exact syncBlockUser_listens s l hl source hsource
        · rw [syncBlockedUser_listens s _ l hl] at hsource
          cases hsource
  | setImage uid url ok =>
    cases ok with
    | false => exact none
    | true => exact silent _ rfl
  | signIn call user uid => cases uid <;> exact none
  | setProfile | setLogin | putAvatar | downloadURL | getBlockUser | getBlockedUser
  | setArticle => exact none

private theorem notify_brings {s : Backend} {d : Device} {l : Listener} {x : Option Snapshot}
    {o : Outcome} (ho : notify s d l x = some o) : ∀ q ∈ o.requests, brings ⟨q, none⟩ = none := by
  intro q hq
  cases notify_notified ho with
  | failed | switchFailed | syncBlockUser | syncBlockedUser => cases hq
  | propagate uid documents | propagateImage uid documents =>
    unfold articlesDelivered at hq
    split at hq
    · obtain ⟨article, _, rfl⟩ := List.mem_map.mp hq
      rfl
    · cases hq
  | endArticles uid documents =>
    unfold endArticlesDelivered at hq
    split at hq
    · obtain ⟨article, _, rfl⟩ := List.mem_map.mp hq
      rfl
    · cases hq
  | switchUser call loginEmail loginPassword documents =>
    unfold switchDelivered at hq
    split at hq
    · cases hq
    · split at hq
      · obtain rfl := List.mem_singleton.mp hq
        rfl
      · cases hq

/-- A sign-in that has succeeded is to the account of its profile. -/
def OwnSignIn : Call Request Answer → Prop
  | ⟨.signIn _ user, some (.signedIn (some uid))⟩ => uid = user.key
  | _ => True

/-- What every step of a run with undisturbed switches keeps. -/
structure Kept (w : Phone) : Prop where
  own : CachesOwn w
  signIns : ∀ c ∈ w.inflight, OwnSignIn c
  cleared : ∀ e ∈ w.client.clearedAt, e ≤ w.server.epoch
  only : ∀ uid ∈ settledFor w.server w.client, Only uid w

private theorem ownSignIn_none (r : Request) : OwnSignIn ⟨r, none⟩ := by
  cases r <;> trivial

private theorem brings_of_unasked {s : Backend} {r : Request} {a : Answer} {source : Uid}
    (h : source ∈ unasked s r a) : source ∈ brings ⟨r, some a⟩ := by
  unfold unasked at h
  split at h
  · rename_i uid purpose answer
    obtain ⟨user, huser, rfl⟩ := Option.map_eq_some_iff.mp h
    have parses : Succeeded (.profile answer) := by
      unfold parsedProfile at huser
      split at huser
      · split at huser
        · rename_i document _ parsed
          exact LoginUser.parses_iff.mp ⟨_, parsed⟩
        · cases huser
      · cases huser
    exact if_pos parses
  · rename_i uid answer
    obtain ⟨list, hlist, rfl⟩ := Option.map_eq_some_iff.mp h
    have parses : Succeeded (.members answer) := by
      unfold parsedMembers at hlist
      split at hlist
      · split at hlist
        · rename_i document _ list' parsed
          rcases document with ⟨_ | members⟩
          · cases parsed
          · rfl
        · cases hlist
      · cases hlist
    exact if_pos parses
  · exact h
  · cases h

private theorem unasked_own {w : Phone} (h : Kept w) {i : Nat} {r : Request} {a : Answer}
    (hi : w.inflight[i]? = some ⟨r, some a⟩) {source uid : Uid}
    (hsource : source ∈ unasked w.server r a)
    (huid : uid ∈ settledFor w.server (clearedFirst w.server w.client r a)) : source = uid := by
  have hc := List.mem_of_getElem? hi
  have hbrings := brings_of_unasked hsource
  unfold clearedFirst at huid
  split at huid
  · rename_i call user v
    have hown : v = user.key := h.signIns _ hc
    unfold settle at huid
    split at huid
    · rename_i hcurrent
      have hnow := (settledFor_iff.mp huid).2
      rw [hcurrent] at hnow
      obtain rfl := Option.some.inj hnow
      obtain rfl : user.key = source := Option.some.inj hsource
      exact hown.symm
    · exact (h.only uid huid).1 _ hc source hbrings
  · exact (h.only uid huid).1 _ hc source hbrings

private theorem unaskedAt_own {w : Phone} (h : Kept w) {ev : Event Action Change}
    {source uid : Uid} (hsource : source ∈ unaskedAt w ev) (huid : uid ∈ settledAt w ev) :
    source = uid := by
  cases ev with
  | act | serve | env => cases hsource
  | handle i =>
    obtain ⟨⟨r, answer⟩, hi, hsource⟩ := Option.bind_eq_some_iff.mp hsource
    obtain ⟨a, rfl, hsource⟩ := Option.bind_eq_some_iff.mp hsource
    simp only [settledAt, hi, Option.bind_some] at huid
    exact unasked_own h hi hsource huid
  | deliver j ok =>
    cases ok with
    | false => cases hsource
    | true =>
      obtain ⟨x, hj, hsource⟩ := Option.bind_eq_some_iff.mp hsource
      have hlistens : source ∈ listens x.listener := by
        unfold unaskedListener at hsource
        split at hsource
        · rename_i uid hlistener
          obtain ⟨_, _, rfl⟩ := Option.map_eq_some_iff.mp hsource
          rw [hlistener]
          rfl
        · cases hsource
      exact (h.only uid huid).2 x (List.mem_of_getElem? hj) source hlistens

private theorem own_step {w w' : Phone} {ev : Event Action Change} (h : Kept w)
    (hstep : step w ev = some w') : CachesOwn w' := by
  intro o ho
  rcases step_fills hstep o ho with hold | hfills
  · exact h.own o hold
  · have hblocked := blocked_of_fills hfills
    rcases o with _ | _ | _ | _ | ⟨_ | _ | _, source, settled⟩
    case received.profile | received.userBlock =>
      obtain ⟨rfl, hunasked⟩ := hfills
      exact fun uid huid => unaskedAt_own h hunasked huid
    case received.userBlocked => exact hblocked
    all_goals trivial

private theorem only_landed {w : Phone} {uid : Uid} (h : Only uid w) (i : Nat) :
    Only uid (w.landed i) :=
  ⟨World.calls_landed h.1, h.2⟩

private theorem only_delivered {w : Phone} {uid : Uid} (h : Only uid w) {j : Nat}
    {x : Watch Listener} (hj : w.watches[j]? = some x) : Only uid (w.delivered j x.listener) := by
  refine ⟨h.1, fun y hy => ?_⟩
  rcases List.mem_or_eq_of_mem_set hy with hy | rfl
  · exact h.2 y hy
  · exact h.2 x (List.mem_of_getElem? hj)

private theorem only_perform {w : Phone} {uid : Uid} (h : Only uid w) {e : Outcome}
    (requests : ∀ q ∈ e.requests, ∀ source ∈ brings ⟨q, none⟩, source = uid)
    (listeners : ∀ l ∈ e.listeners, ∀ source ∈ listens l, source = uid) :
    Only uid (w.perform e) := by
  refine ⟨World.calls_perform h.1 requests, fun y hy => ?_⟩
  rcases List.mem_append.mp hy with hy | hy
  · exact h.2 y (List.mem_filter.mp hy).1
  · obtain ⟨l, hl, rfl⟩ := List.mem_map.mp hy
    exact listeners l hl

private theorem only_install {w : Phone} {uid : Uid} (h : Only uid w) (s : Backend) :
    Only uid (w.install program s) := by
  refine ⟨h.1, fun y hy => ?_⟩
  obtain ⟨x, hx, rfl⟩ := List.mem_map.mp hy
  exact h.2 x hx

private theorem settled_before {s : Backend} {d d' : Device} {uid : Uid}
    (same : d'.clearedAt = d.clearedAt) (h : uid ∈ settledFor s d') : uid ∈ settledFor s d := by
  rw [settledFor_iff] at h ⊢
  rwa [← same]

private theorem clearsFor_spec {s : Backend} {r : Request} {a : Answer} {uid : Uid}
    (h : uid ∈ clearsFor s ⟨r, some a⟩) (own : OwnSignIn ⟨r, some a⟩) :
    s.currentUser = some uid ∧ ∀ source ∈ brings ⟨r, some a⟩, source = uid := by
  unfold clearsFor at h
  split at h
  · rename_i call user v heq
    cases heq
    split at h
    · rename_i hcurrent
      obtain rfl := Option.some.inj h
      refine ⟨hcurrent, fun source hsource => ?_⟩
      obtain rfl : user.key = source := Option.some.inj hsource
      exact Eq.symm own
    · cases h
  · rename_i v email password heq
    cases heq
    split at h
    · rename_i hcurrent
      obtain rfl := Option.some.inj h
      exact ⟨hcurrent, fun source hsource => nomatch hsource⟩
    · cases h
  · cases h

private theorem ownSignIn_served {s : Backend} {r : Request} {ok : Bool}
    (own : ok = true → OwnAccount s ⟨r, none⟩) : OwnSignIn ⟨r, some (serve s r ok).2⟩ := by
  unfold OwnSignIn
  split
  · rename_i call user uid heq
    obtain ⟨rfl, hanswer⟩ := Call.mk.inj heq
    obtain ⟨hok, haccount, _⟩ := serve_signIn (Option.some.inj hanswer)
    exact own hok user rfl uid haccount
  · trivial

private theorem brings_served {s : Backend} {r : Request} {ok : Bool} {uid : Uid}
    (own : OwnSignIn ⟨r, some (serve s r ok).2⟩)
    (before : ∀ source ∈ brings ⟨r, none⟩, source = uid)
    (current : (serve s r ok).1.currentUser = some uid) :
    ∀ source ∈ brings ⟨r, some (serve s r ok).2⟩, source = uid := by
  intro source hsource
  cases r with
  | signIn call user =>
    simp only [brings] at hsource
    split at hsource
    · rename_i succeeded
      obtain rfl := Option.some.inj hsource
      rcases hanswer : (serve s (.signIn call user) ok).2 with _ | _ | _ | _ | _ | v
      case signedIn =>
        rw [hanswer] at succeeded own
        obtain ⟨v, rfl⟩ := Option.isSome_iff_exists.mp succeeded
        have hnow := (serve_signIn hanswer).2.2
        rw [current] at hnow
        exact Eq.symm ((Option.some.inj hnow).trans own)
      all_goals
        cases ok with
        | false => cases hanswer
        | true =>
          change (signIn s call user).2 = _ at hanswer
          unfold signIn at hanswer
          split at hanswer <;> cases hanswer
    · cases hsource
  | createAuth | signInCreated | setNewUser | setProfile | setDeleted | setLogin | getProfile
  | putAvatar | downloadURL | setImage | getBlockUser | getBlockedUser | setArticle =>
    simp only [brings] at hsource
    split at hsource
    · exact before source hsource
    · cases hsource

private theorem kept_step {w w' : Phone} {ev : Event Action Change} (h : Kept w)
    (alone : SwitchesAlone w ev) (hstep : step w ev = some w') : Kept w' := by
  have hown := own_step h hstep
  cases Program.step_fires hstep with
  | @act v e he =>
    obtain rfl := Option.some.inj he
    have hcleared := act_clearedAt w.server w.client v
    obtain ⟨hbrings, hlistens⟩ := act_brings w.server w.client v
    refine ⟨hown, World.calls_perform h.signIns fun r _ => ownSignIn_none r, ?_, fun uid huid => ?_⟩
    · rw [World.perform_client, hcleared]
      exact h.cleared
    · have hcurrent := (settledFor_iff.mp huid).2
      refine only_perform (h.only uid (settled_before hcleared huid)) ?_ ?_
      · exact fun q hq source hsource =>
          Option.some.inj ((hbrings q hq source hsource).symm.trans hcurrent)
      · exact fun l hl source hsource =>
          Option.some.inj ((hlistens l hl source hsource).symm.trans hcurrent)
  | @serve i ok r hi =>
    have own : OwnSignIn ⟨r, some (serve w.server r ok).2⟩ := ownSignIn_served fun hok => by
      subst hok
      exact alone _ hi
    refine ⟨hown, World.calls_served h.signIns own, fun e he => ?_, fun uid huid => ?_⟩
    · have hbefore := h.cleared e he
      rcases advances_serve w.server r ok with ⟨_, hsame⟩ | hnext
      · exact hbefore.trans hsame.ge
      · exact hbefore.trans (Nat.le_trans (Nat.le_succ _) hnext.ge)
    · obtain ⟨hclear, hcurrent⟩ := settledFor_iff.mp huid
      rcases advances_serve w.server r ok with ⟨hkept, hsame⟩ | hnext
      · have hsettled : uid ∈ settledFor w.server w.client :=
          settledFor_iff.mpr ⟨hclear.trans (congrArg some hsame), hkept.symm.trans hcurrent⟩
        obtain ⟨hcalls, hwatches⟩ := h.only uid hsettled
        have hinstalled := only_install ⟨hcalls, hwatches⟩ (serve w.server r ok).1
        refine ⟨World.calls_served hcalls ?_, hinstalled.2⟩
        exact brings_served own (hcalls _ (List.mem_of_getElem? hi)) hcurrent
      · -- cleared for an epoch that has only begun
        have hbefore : (serve w.server r ok).1.epoch ≤ w.server.epoch := h.cleared _ hclear
        omega
  | @handle i r a e hi he =>
    have hbrings := handle_brings he
    have hlistens := handle_listens he
    have hc := List.mem_of_getElem? hi
    refine ⟨hown, World.calls_perform (World.calls_landed h.signIns) fun r _ => ownSignIn_none r,
      ?_, fun uid huid => ?_⟩
    · rw [World.perform_client]
      rcases handle_clearedAt he with hsame | ⟨_, hnow⟩
      · rw [hsame]
        exact h.cleared
      · intro epoch hepoch
        rw [hnow] at hepoch
        exact (Option.some.inj hepoch).ge
    · obtain ⟨hclear, hcurrent⟩ := settledFor_iff.mp huid
      obtain ⟨hothers, hcall⟩ : Only uid (w.landed i) ∧
          ∀ source ∈ brings ⟨r, some a⟩, source = uid := by
        rcases handle_clearedAt he with hsame | ⟨hclears, _⟩
        · have honly := h.only uid (settled_before hsame huid)
          exact ⟨only_landed honly i, honly.1 _ hc⟩
        · obtain ⟨v, hv⟩ := Option.isSome_iff_exists.mp hclears
          obtain ⟨hnow, hcall⟩ := clearsFor_spec hv (h.signIns _ hc)
          obtain rfl : v = uid := Option.some.inj (hnow.symm.trans hcurrent)
          exact ⟨alone _ hi v hv, hcall⟩
      refine only_perform hothers ?_ ?_
      · intro q hq source hsource
        rcases hbrings q hq source hsource with hnow | hfollows
        · exact Option.some.inj (hnow.symm.trans hcurrent)
        · exact hcall source hfollows
      · exact fun l hl source hsource =>
          Option.some.inj ((hlistens l hl source hsource).symm.trans hcurrent)
  | @deliver j ok x e hj he =>
    have hcleared := notify_clearedAt he
    refine ⟨hown, World.calls_perform h.signIns fun r _ => ownSignIn_none r, ?_, fun uid huid => ?_⟩
    · rw [World.perform_client, hcleared]
      exact h.cleared
    · have honly := h.only uid (settled_before hcleared huid)
      refine only_perform (only_delivered honly hj) ?_ ?_
      · intro q hq source hsource
        rw [notify_brings he q hq] at hsource
        cases hsource
      · rw [(notify_steady he).1]
        exact List.forall_mem_nil _
  | @env change =>
    have hsame : (env w.server change).epoch = w.server.epoch ∧
        (env w.server change).currentUser = w.server.currentUser := by
      cases change <;> exact ⟨rfl, rfl⟩
    refine ⟨hown, h.signIns, fun e he => (h.cleared e he).trans hsame.1.ge, fun uid huid => ?_⟩
    obtain ⟨hclear, hcurrent⟩ := settledFor_iff.mp huid
    have hsettled : uid ∈ settledFor w.server w.client :=
      settledFor_iff.mpr ⟨hclear.trans (congrArg some hsame.1), hsame.2.symm.trans hcurrent⟩
    exact only_install (h.only uid hsettled) _

/-- If nothing of another account is under way whenever the caches are cleared for one, no cache
receives another account's data while that one is signed in. -/
theorem caches_own (s : Backend) (d : Device) (es : List (Event Action Change)) (w : Phone)
    (alone : Along step SwitchesAlone (start s d) es) (hr : run step (start s d) es = some w) :
    CachesOwn w := by
  have hstart : Kept (start s d) :=
    ⟨fun _ ho => (nomatch ho), fun _ hc => (nomatch hc), fun _ he => (nomatch he),
      fun _ huid => nomatch (settledFor_iff.mp huid).1⟩
  have hkept : Kept w := run_keeps (fun _ _ _ h hg hs => kept_step h hg hs) alone hr hstart
  exact hkept.own

section Example

private def ann : LoginUserDoc where
  email := some "ann@p-chat.net"
  password := some "p"
  status := some 1

private def bob : LoginUserDoc where
  email := some "bob@p-chat.net"
  password := some "q"
  loginEmail := some "bob@mail.net"
  loginPassword := some "secret"
  status := some 1

/-- `a` is signed in and blocks `c`; `b` can be switched to and blocks nobody. -/
private def twoAccounts : Backend where
  currentUser := some "a"
  accounts := [⟨"a", "ann@p-chat.net", "p"⟩, ⟨"b", "bob@p-chat.net", "q"⟩]
  uids _ := "d"
  urls _ := ""
  loginUser := (AList.singleton "a" ann).insert "b" bob
  userBlock := (AList.singleton "a" { members := some (AList.singleton "c" true) }).insert "b"
    { members := some ∅ }

private def phone : Device where
  emails _ := ""

/-- The last login of `a` is stored and read again, which starts the listeners of `a`. -/
private def opened : List (Event Action Change) :=
  [.act .setLastLogin, .serve 0 true, .handle 0, .serve 0 true, .handle 0]

/-- The switch to `b`, completed while the block list of `a` is still to be fetched. -/
private def switched : List (Event Action Change) :=
  [.act (.changeLoginUser "bob@mail.net" "secret"), .deliver 2 true, .serve 1 true, .handle 1]

theorem foreign_block_list_cached :
    ¬ ∀ (s : Backend) (d : Device) (es : List (Event Action Change)) (w : Phone),
      run step (start s d) es = some w → CachesOwn w := by
  intro claim
  have hseen : (run step (start twoAccounts phone) (opened ++ switched ++ [.deliver 0 true])).map
      (fun w => decide (CachesOwn w)) = some false := by decide
  obtain ⟨w, hw, hval⟩ := Option.map_eq_some_iff.mp hseen
  exact of_decide_eq_false hval (claim twoAccounts phone _ w hw)

/-- A profile is saved by `a`, down to the block lists that are fetched again, and then the
device is switched to `b`, whose block list is fetched. -/
private def oneAfterTheOther : List (Event Action Change) :=
  [.act (.updateLoginUser { nickname := some "Ann" }), .serve 0 true, .handle 0, .serve 0 true,
    .handle 0, .serve 0 true, .handle 0, .serve 0 true, .handle 0,
    .act (.changeLoginUser "bob@mail.net" "secret"), .deliver 1 true, .serve 0 true, .handle 0,
    .serve 0 true, .handle 0]

theorem own_block_list_cached :
    ∃ w, run step (start twoAccounts phone) oneAfterTheOther = some w ∧ CachesOwn w := by
  have hran : (run step (start twoAccounts phone) oneAfterTheOther).map
      (fun w => w.client.log.length) = some 6 := by decide
  obtain ⟨w, hw, _⟩ := Option.map_eq_some_iff.mp hran
  exact ⟨w, hw, caches_own twoAccounts phone _ w (by decide) hw⟩

end Example

end PlateChat.Account.Cache
