/- PlateChat/Account/Edit
   digest: A profile edit on one device, and the articles that carry it in the end. -/

import PlateChat.Account.Window
import PlateChat.Foundation.Rules
import PlateChat.Foundation.Settle

set_option autoImplicit false
set_option relaxedAutoImplicit false

/-!
An edit is written, read again and cached, and only then a listener is registered that
propagates the cache. From there on everything moves towards the new profile: older writes
run out, and no listener of the device wants anything else.
-/

namespace PlateChat.Account.Edit

open PlateChat.Foundation.Run PlateChat.Foundation.EventLoop PlateChat.Foundation.Rules
open PlateChat.Foundation.Settle
open PlateChat.Model.Members PlateChat.Model.LocalData PlateChat.Model.Profile
open PlateChat.Account.Service PlateChat.Account.Window

/-- The signed-in user has called `updateLoginUser`. -/
def edited (w : Phone) (dic : LoginUserDoc) : Phone :=
  w.perform (updateLoginUser w.server w.client dic)

/-- The profile once the edit is written. -/
def profileAfter (s : Backend) (u : Uid) (dic : LoginUserDoc) : LoginUserDoc :=
  dic.merge ((s.loginUser.lookup u).getD {})

/-- The article reads as the profile does. -/
structure Carries (profile : LoginUserDoc) (d : ArticleDoc) : Prop where
  nickname : d.userNickname.getD "" = profile.nickname.getD ""
  prefectureId : d.userPrefectureId.getD 0 = profile.prefectureId.getD 0
  sex : d.userSex.getD 0 = profile.sex.getD 0
  image : d.userProfileImageUrl.getD "" = profile.profileImageUrl.getD ""

/-- Listeners of earlier operations that an edit can meet: no account switch, and no deletion
that still has articles to end. -/
def Lingers (s : Backend) : Listener → Prop
  | .propagate _ | .propagateImage _ | .syncBlockUser _ | .syncBlockedUser _ => True
  | .endArticles uid => articlesOf s.articles uid = []
  | .switchUser _ _ _ => False

/-- Requests of earlier operations that an edit can meet. -/
def Settling : Request → Prop
  | .setArticle _ p => p.status = none
  | .getBlockUser _ | .getBlockedUser _ => True
  | _ => False

/-- `u` is signed in, and no other operation on the account is under way. -/
structure Ready (u : Uid) (w : Phone) : Prop where
  signedIn : w.server.currentUser = some u
  calls : ∀ q ∈ w.inflight, Settling q.request
  watches : ∀ x ∈ w.watches, Lingers w.server x.listener

/-- The requests of an edit itself. -/
def ofEdit : Request → Bool
  | .setProfile _ _ | .getProfile _ _ => true
  | _ => false

theorem settling_not_ofEdit {r : Request} (h : Settling r) : ofEdit r = false := by
  cases r <;> first | rfl | exact h.elim

theorem countP_settling {calls : List (Call Request Answer)}
    (h : ∀ q ∈ calls, Settling q.request) : calls.countP (fun q => ofEdit q.request) = 0 := by
  refine List.countP_eq_zero.mpr fun q hq => ?_
  rw [settling_not_ofEdit (h q hq)]
  exact Bool.false_ne_true

/-- What the profile wants of an article. -/
def goal (profile : LoginUserDoc) : ArticlePatch where
  userNickname := some (profile.nickname.getD "")
  userPrefectureId := some (profile.prefectureId.getD 0)
  userSex := some (profile.sex.getD 0)
  userProfileImageUrl := some (profile.profileImageUrl.getD "")

theorem carries_of_missing {profile : LoginUserDoc} {d : ArticleDoc}
    (h : missing (goal profile) d = {}) : Carries profile d := by
  have hwithin : Within (goal profile) (readings d) := (missing_eq_empty rfl).mp h
  have hvalue : ∀ {α : Type} {v r : α}, Sets (some v) (some r) → r = v := by
    rintro α v r (hnone | hsome)
    · cases hnone
    · exact (Option.some.inj hsome).symm
  exact ⟨hvalue hwithin.nickname, hvalue hwithin.prefectureId, hvalue hwithin.sex,
    hvalue hwithin.image⟩

/-- What the listener of the edit has to issue for what it is shown. -/
def fixes (profile : LoginUserDoc) : Listener → Snapshot → List Request
  | .propagate _, .articles documents => repairs (goal profile) documents
  | _, _ => []

/-- How far the edit of the profile to `profile` has come. -/
inductive Stage (u : Uid) (dic profile : LoginUserDoc) (w : Phone) : Prop
  | writing : ⟨.setProfile u dic, none⟩ ∈ w.inflight → profileAfter w.server u dic = profile →
      Stage u dic profile w
  | written : ⟨.setProfile u dic, some (.written true)⟩ ∈ w.inflight →
      w.server.loginUser.lookup u = some profile → Stage u dic profile w
  | reading : ⟨.getProfile u .updateLoginUser, none⟩ ∈ w.inflight →
      w.server.loginUser.lookup u = some profile → Stage u dic profile w
  | read : ⟨.getProfile u .updateLoginUser, some (.profile (.ok (some profile)))⟩ ∈ w.inflight →
      w.server.loginUser.lookup u = some profile → Stage u dic profile w
  | applied : (∀ q ∈ w.inflight, Settling q.request) →
      w.server.loginUser.lookup u = some profile → wanted w.client.account = goal profile →
      Attended (fixes profile) program (.propagate u) w → Stage u dic profile w

/-- The edit is at one of its stages, beside what lingers. -/
structure Editing (u : Uid) (dic profile : LoginUserDoc) (w : Phone) : Prop where
  signedIn : w.server.currentUser = some u
  watches : ∀ x ∈ w.watches, Lingers w.server x.listener
  calls : ∀ q ∈ w.inflight, ofEdit q.request = true ∨ Settling q.request
  one : w.inflight.countP (fun q => ofEdit q.request) ≤ 1
  stage : Stage u dic profile w

theorem serve_settling (s : Backend) {r : Request} (h : ofEdit r = true ∨ Settling r) :
    (serve s r true).1.currentUser = s.currentUser ∧
      (serve s r true).1.userBlock = s.userBlock ∧
      (serve s r true).1.userBlocked = s.userBlocked ∧
      ((∀ uid dic, r ≠ .setProfile uid dic) →
        (serve s r true).1.loginUser = s.loginUser) ∧
      ((∀ key p, r ≠ .setArticle key p) → (serve s r true).1.articles = s.articles) := by
  cases r with
  | setProfile uid dic =>
    exact ⟨rfl, rfl, rfl, fun hne => absurd rfl (hne uid dic), fun _ => rfl⟩
  | setArticle key p => exact ⟨rfl, rfl, rfl, fun _ => rfl, fun hne => absurd rfl (hne key p)⟩
  | getProfile | getBlockUser | getBlockedUser => exact ⟨rfl, rfl, rfl, fun _ => rfl, fun _ => rfl⟩
  | createAuth | signInCreated | setNewUser | setDeleted | setLogin | putAvatar | downloadURL
  | setImage | signIn =>
    rcases h with h | h
    · cases h
    · exact h.elim

theorem lingers_served {s : Backend} {r : Request} (h : ofEdit r = true ∨ Settling r)
    {l : Listener} (lingers : Lingers s l) : Lingers (serve s r true).1 l := by
  cases l with
  | endArticles uid =>
    change articlesOf s.articles uid = [] at lingers
    show articlesOf (serve s r true).1.articles uid = []
    rcases serve_articles s r true with hsame | ⟨key, p, rfl, -, hmap⟩
    · rw [hsame, lingers]
    · have hstatus : p.status = none := h.resolve_left Bool.false_ne_true
      rw [hmap, articlesOf_patched hstatus, lingers, List.map_nil]
  | propagate | propagateImage | syncBlockUser | syncBlockedUser => exact trivial
  | switchUser => exact lingers

theorem snapshot_served {s : Backend} {r : Request} (h : ofEdit r = true ∨ Settling r)
    {l : Listener} (lingers : Lingers s l)
    (articles : (serve s r true).1.articles = s.articles) :
    snapshot (serve s r true).1 l = snapshot s l := by
  obtain ⟨-, hblock, hblocked, -, -⟩ := serve_settling s h
  cases l with
  | propagate | propagateImage | endArticles => simp only [snapshot, articles]
  | syncBlockUser => simp only [snapshot, hblock]
  | syncBlockedUser => simp only [snapshot, hblocked]
  | switchUser => exact lingers.elim

theorem delivered_lingering {s : Backend} {d : Device} {l : Listener} (lingers : Lingers s l)
    {e : Outcome} (he : notify s d l (some (snapshot s l)) = some e) :
    (∃ want documents, Within want (wanted d.account) ∧ e.requests = repairs want documents) ∧
      e.client.account = d.account := by
  have hall : Within (wanted d.account) (wanted d.account) :=
    ⟨rfl, .inr rfl, .inr rfl, .inr rfl, .inr rfl⟩
  have hnothing : ∃ want documents, Within want (wanted d.account) ∧
      ([] : List Request) = repairs want documents := ⟨_, [], hall, rfl⟩
  cases l with
  | propagate uid =>
    obtain rfl := Option.some.inj he
    exact ⟨⟨_, _, hall, articlesDelivered_repairs (fun _ _ _ => profileData_missing) _ _⟩,
      articlesDelivered_account _ _ _ _⟩
  | propagateImage uid =>
    obtain rfl := Option.some.inj he
    exact ⟨⟨wantedImage d.account, _, ⟨rfl, .inl rfl, .inl rfl, .inl rfl, .inr rfl⟩,
      articlesDelivered_repairs (fun _ _ _ => imageData_missing) _ _⟩,
      articlesDelivered_account _ _ _ _⟩
  | endArticles uid =>
    change articlesOf s.articles uid = [] at lingers
    obtain rfl := Option.some.inj he
    rw [lingers, endArticlesDelivered_ends]
    exact ⟨hnothing, rfl⟩
  | syncBlockUser uid =>
    obtain rfl := Option.some.inj he
    exact ⟨hnothing, blockUserReceived_account s d uid _⟩
  | syncBlockedUser otherUid =>
    obtain rfl := Option.some.inj he
    exact ⟨hnothing, blockedUserReceived_account s d otherUid _⟩
  | switchUser => exact lingers.elim

/-- How many handlers a request can still bring about. -/
def weight (q : Call Request Answer) : Nat :=
  match q.request with
  | .setProfile _ _ => 4
  | .getProfile _ _ => 3
  | .getBlockUser _ => 2
  | .getBlockedUser _ => 1
  | _ => 0

private theorem weight_getBlockUser (s : Backend) :
    total weight ((getBlockUser s).map fun r => ⟨r, none⟩) ≤ 2 := by
  unfold getBlockUser
  split
  · exact Nat.le_refl _
  · exact Nat.zero_le _

theorem handled_weight {s : Backend} {d : Device} {r : Request} {a : Answer} {e : Outcome}
    (h : ofEdit r = true ∨ Settling r) (he : handle s d r a = some e) :
    total weight (e.requests.map fun r => ⟨r, none⟩) < weight ⟨r, some a⟩ ∨ e = { client := d } := by
  cases handle_handled he with
  | setProfile uid dic ok =>
    left
    cases ok with
    | true => exact Nat.le_refl _
    | false => exact Nat.le_add_left 1 3
  | getProfile uid purpose answer =>
    left
    show total weight (List.map _ (profileCompletion s d uid purpose answer).requests) < 3
    have hblock := weight_getBlockUser s
    unfold profileCompletion
    split
    · exact Nat.le_add_left 1 2
    · cases purpose with
      | updateLoginUser | setLastLogin => exact Nat.lt_succ_of_le hblock
      | deleteLoginUser =>
        show total weight (List.map _ (getBlockUser s ++ [_])) < 3
        rw [List.map_append, total_append]
        exact Nat.lt_succ_of_le hblock
  | getBlockUser uid answer =>
    left
    show total weight (List.map _ (getBlockUserCompletion s d uid answer).requests) < 2
    unfold getBlockUserCompletion
    cases s.currentUser with
    | none => exact Nat.le_add_left 1 1
    | some uid => exact Nat.le_refl _
  | getBlockedUser otherUid answer => exact .inl (Nat.le_refl _)
  | setArticle key p ok => exact .inr rfl
  | createAuth | signInCreated | setNewUser | setDeleted | setLogin | putAvatar | downloadURL
  | setImage | signIn =>
    rcases h with h | h
    · cases h
    · exact h.elim

theorem handled_settling {s : Backend} {d : Device} {r : Request} {a : Answer} {e : Outcome}
    (h : Settling r) (he : handle s d r a = some e) : e.client.account = d.account ∧
      e.listeners = [] ∧ ∀ q ∈ e.requests, Settling q := by
  cases handle_handled he with
  | getBlockUser uid answer =>
    refine ⟨blockUserReceived_account s d uid answer, rfl, fun q hq => ?_⟩
    dsimp only [getBlockUserCompletion] at hq
    split at hq
    · obtain rfl := List.mem_singleton.mp hq
      exact trivial
    · cases hq
  | getBlockedUser otherUid answer =>
    exact ⟨blockedUserReceived_account s d otherUid answer, rfl, List.forall_mem_nil _⟩
  | setArticle key p ok => exact ⟨rfl, rfl, List.forall_mem_nil _⟩
  | createAuth | signInCreated | setNewUser | setProfile | setDeleted | setLogin | getProfile
  | putAvatar | downloadURL | setImage | signIn => exact h.elim

theorem lasting : Lasting program where
  handle {s c r a e} h := by
    cases handle_handled h with
    | createAuth email password uid => cases uid <;> rfl
    | signInCreated email password ok =>
      cases ok with
      | true => rfl
      | false => exact setLastLogin_removed s c
    | setNewUser uid email password ok =>
      cases ok with
      | true => exact setLastLogin_removed s _
      | false => rfl
    | setDeleted uid ok => cases ok <;> rfl
    | getProfile uid purpose answer =>
      unfold profileCompletion
      split
      · rfl
      · cases purpose <;> rfl
    | setImage uid url ok => cases ok <;> rfl
    | signIn call user uid => cases uid <;> rfl
    | setProfile | setLogin | putAvatar | downloadURL | getBlockUser | getBlockedUser
    | setArticle => rfl
  notify h := (notify_steady h).2

section Steps

variable {u : Uid} {dic profile : LoginUserDoc} {w w' : Phone}

/-- The edit's listener issues what it finds missing, and sees what comes of it. -/
theorem repairs_program (applied : wanted w.client.account = goal profile) :
    Repairs (fixes profile) program (.propagate u) w where
  shows r hr := by
    intro heq
    exact window_repaired hr (Snapshot.articles.inj heq)
  issues {e} he r hr := by
    obtain rfl := Option.some.inj he
    show r ∈ (articlesDelivered w.server w.client profileData _).requests
    rw [articlesDelivered_repairs fun _ _ _ => profileData_missing, applied]
    exact hr

private theorem stage_other (own : Own program w w') (stage : Stage u dic profile w)
    (stays : ∀ q ∈ w.inflight, ofEdit q.request = true → q ∈ w'.inflight)
    (settles : (∀ q ∈ w.inflight, Settling q.request) → ∀ q ∈ w'.inflight, Settling q.request)
    (login : w'.server.loginUser = w.server.loginUser)
    (account : w'.client.account = w.client.account) : Stage u dic profile w' := by
  cases stage with
  | writing hc hprofile =>
    exact .writing (stays _ hc rfl) (by rw [profileAfter, login]; exact hprofile)
  | written hc hlookup => exact .written (stays _ hc rfl) (login ▸ hlookup)
  | reading hc hlookup => exact .reading (stays _ hc rfl) (login ▸ hlookup)
  | read hc hlookup => exact .read (stays _ hc rfl) (login ▸ hlookup)
  | applied hcalls hlookup hwanted hattended =>
    exact .applied (settles hcalls) (login ▸ hlookup) (account ▸ hwanted)
      (hattended.own lasting (repairs_program hwanted) own)

private theorem stage_served (editing : Editing u dic profile w) {i : Nat} {r : Request}
    (hi : w.inflight[i]? = some ⟨r, none⟩) :
    Stage u dic profile (w.served program i r true) := by
  have hr := editing.calls _ (List.mem_of_getElem? hi)
  obtain ⟨-, -, -, hlogin, -⟩ := serve_settling w.server hr
  by_cases hedit : ofEdit r = true
  · -- the served request is the one that the stage waits for
    have hself : ∀ q ∈ w.inflight, ofEdit q.request = true → q = ⟨r, none⟩ :=
      fun q hq hf => eq_of_countP_le_one editing.one hi hedit hq hf
    have hmem : ⟨r, some (serve w.server r true).2⟩ ∈ (w.served program i r true).inflight :=
      (perm_served _ hi).mem_iff.mpr List.mem_cons_self
    cases editing.stage with
    | writing hc hprofile =>
      cases hself _ hc rfl
      refine .written hmem ?_
      show (w.server.loginUser.insert u (profileAfter w.server u dic)).lookup u = _
      rw [AList.lookup_insert, hprofile]
    | written hc => cases hself _ hc rfl
    | reading hc hlookup =>
      cases hself _ hc rfl
      refine .read ?_ hlookup
      rw [← hlookup]
      exact hmem
    | read hc => cases hself _ hc rfl
    | applied hcalls =>
      have hsettling := hcalls _ (List.mem_of_getElem? hi)
      rw [settling_not_ofEdit hsettling] at hedit
      cases hedit
  · refine stage_other (.served hi) editing.stage (fun q hq hf => ?_) (fun hcalls => ?_) ?_ rfl
    · refine mem_served hi hq ?_
      rintro rfl
      exact hedit hf
    · exact World.calls_served hcalls (hr.resolve_left hedit)
    · refine hlogin ?_
      rintro uid dic rfl
      exact hedit rfl

private theorem editing_served (editing : Editing u dic profile w) {i : Nat} {r : Request}
    (hi : w.inflight[i]? = some ⟨r, none⟩) :
    Editing u dic profile (w.served program i r true) := by
  have hr := editing.calls _ (List.mem_of_getElem? hi)
  obtain ⟨huser, -⟩ := serve_settling w.server hr
  refine ⟨huser.trans editing.signedIn, fun y hy => ?_, World.calls_served editing.calls hr, ?_,
    stage_served editing hi⟩
  · obtain ⟨x, hx, rfl⟩ := List.mem_map.mp hy
    exact lingers_served hr (editing.watches x hx)
  · have hcount := countP_served (fun q : Call Request Answer => ofEdit q.request)
      ⟨r, some (serve w.server r true).2⟩ hi
    have hsame : (w.inflight.set i ⟨r, some (serve w.server r true).2⟩).countP
        (fun q => ofEdit q.request) = w.inflight.countP fun q => ofEdit q.request :=
      Nat.add_right_cancel hcount
    exact hsame.trans_le editing.one

private theorem applied_of_read (dic : LoginUserDoc) (parses : profile.Parses)
    (signedIn : w.server.currentUser = some u) {i : Nat}
    (settles : ∀ q ∈ (w.landed i).inflight, Settling q.request)
    (hlookup : w.server.loginUser.lookup u = some profile) :
    Stage u dic profile ((w.landed i).perform (profileCompletion w.server w.client u
      .updateLoginUser (.ok (some profile)))) ∧
    (profileCompletion w.server w.client u .updateLoginUser
      (.ok (some profile))).requests = [.getBlockUser u] ∧
    (profileCompletion w.server w.client u .updateLoginUser
      (.ok (some profile))).listeners = [.propagate u] := by
  obtain ⟨user, huser⟩ : ∃ user, LoginUser.ofDocument w.server.clock (u, profile) = .ok user :=
    LoginUser.parses_iff.mpr parses
  obtain ⟨-, hnickname, hsex, hprefecture, himage⟩ := LoginUser.of_parsed huser
  have hparsed : parsedProfile w.server u (.ok (some profile)) = some user := by
    simp only [parsedProfile, huser]
  have hcompletion : profileCompletion w.server w.client u .updateLoginUser
      (.ok (some profile)) =
        { setUserInfo w.server w.client user with listeners := [.propagate u] } := by
    simp only [profileCompletion, hparsed]
  have hrequests : getBlockUser w.server = [.getBlockUser u] := by
    simp only [getBlockUser, signedIn]
  rw [hcompletion]
  refine ⟨.applied ?_ hlookup ?_ ?_, hrequests, rfl⟩
  · refine World.calls_perform settles fun r hr => ?_
    change r ∈ getBlockUser w.server at hr
    rw [hrequests] at hr
    obtain rfl := List.mem_singleton.mp hr
    exact trivial
  · show wanted (profileCached w.client user).account = goal profile
    simp only [wanted, goal, profileCached, hnickname, hsex, hprefecture, himage]
  · refine ⟨⟨.propagate u, true⟩, ?_, rfl, .inl rfl⟩
    exact List.mem_append_right _ List.mem_cons_self

private theorem lingers_handled (editing : Editing u dic profile w) (i : Nat) {e : Outcome}
    (registers : ∀ l ∈ e.listeners, Lingers w.server l) :
    ∀ x ∈ ((w.landed i).perform e).watches, Lingers w.server x.listener := by
  intro x hx
  rcases List.mem_append.mp hx with hx | hx
  · exact editing.watches x (List.mem_of_mem_filter hx)
  · obtain ⟨l, hl, rfl⟩ := List.mem_map.mp hx
    exact registers l hl

private theorem editing_answered (parses : profile.Parses) (editing : Editing u dic profile w)
    {i : Nat} {r : Request} {a : Answer} {e : Outcome} (hi : w.inflight[i]? = some ⟨r, some a⟩)
    (he : handle w.server w.client r a = some e) (hedit : ofEdit r = true) :
    Editing u dic profile ((w.landed i).perform e) := by
  have hself : ∀ q ∈ w.inflight, ofEdit q.request = true → q = ⟨r, some a⟩ :=
    fun q hq hf => eq_of_countP_le_one editing.one hi hedit hq hf
  -- nothing else of the edit is left
  have hsettles : ∀ q ∈ (w.landed i).inflight, Settling q.request := by
    intro q hq
    refine (editing.calls q (List.mem_of_mem_eraseIdx hq)).resolve_left fun hf => ?_
    rw [rest_of_countP_le_one editing.one hi hedit q hq] at hf
    cases hf
  cases editing.stage with
  | writing hc => cases hself _ hc rfl
  | written hc hlookup =>
    cases hself _ hc rfl
    obtain rfl := Option.some.inj he
    refine ⟨editing.signedIn, lingers_handled editing i (List.forall_mem_nil _), ?_, ?_, ?_⟩
    · refine World.calls_perform (fun q hq => .inr (hsettles q hq)) fun q hq => ?_
      obtain rfl := List.mem_singleton.mp hq
      exact .inl rfl
    · rw [World.perform_inflight, List.countP_append, countP_settling hsettles]
      exact Nat.le_refl _
    · exact .reading (List.mem_append_right _ List.mem_cons_self) hlookup
  | reading hc => cases hself _ hc rfl
  | read hc hlookup =>
    cases hself _ hc rfl
    obtain rfl := Option.some.inj he
    obtain ⟨hstage, hrequests, hlisteners⟩ :=
      applied_of_read dic parses editing.signedIn hsettles hlookup
    refine ⟨editing.signedIn, lingers_handled editing i ?_, ?_, ?_, hstage⟩
    · rw [hlisteners]
      intro l hl
      obtain rfl := List.mem_singleton.mp hl
      exact trivial
    · refine World.calls_perform (fun q hq => .inr (hsettles q hq)) ?_
      rw [hrequests]
      intro q hq
      obtain rfl := List.mem_singleton.mp hq
      exact .inr trivial
    · rw [World.perform_inflight, List.countP_append, countP_settling hsettles, hrequests]
      exact Nat.zero_le _
  | applied hcalls =>
    have hsettling := hcalls _ (List.mem_of_getElem? hi)
    rw [settling_not_ofEdit hsettling] at hedit
    cases hedit

private theorem editing_handled (parses : profile.Parses) (editing : Editing u dic profile w)
    {i : Nat} {r : Request} {a : Answer} {e : Outcome} (hi : w.inflight[i]? = some ⟨r, some a⟩)
    (he : handle w.server w.client r a = some e) :
    Editing u dic profile ((w.landed i).perform e) := by
  have hr := editing.calls _ (List.mem_of_getElem? hi)
  by_cases hedit : ofEdit r = true
  · exact editing_answered parses editing hi he hedit
  · obtain ⟨haccount, hlisteners, hrequests⟩ := handled_settling (hr.resolve_left hedit) he
    have hlanded : (w.landed i).inflight.countP (fun q => ofEdit q.request) ≤ 1 :=
      (List.Sublist.countP_le (List.eraseIdx_sublist _ _)).trans editing.one
    refine ⟨editing.signedIn, lingers_handled editing i ?_, ?_, ?_, ?_⟩
    · rw [hlisteners]
      exact List.forall_mem_nil _
    · exact World.calls_perform (World.calls_landed editing.calls) fun q hq => .inr (hrequests q hq)
    · rw [World.perform_inflight, List.countP_append,
        countP_settling (List.forall_mem_map.mpr hrequests)]
      exact hlanded
    · refine stage_other (.handled hi he) editing.stage (fun q hq hf => ?_) (fun hcalls => ?_)
        rfl haccount
      · refine pending_perform (mem_landed hi hq ?_)
        rintro rfl
        exact hedit hf
      · exact World.calls_perform (World.calls_landed hcalls) hrequests

private theorem editing_delivered (editing : Editing u dic profile w) {j : Nat}
    {x : Watch Listener} {e : Outcome} (hj : w.watches[j]? = some x) (hdue : x.due = true)
    (he : notify w.server w.client x.listener (some (snapshot w.server x.listener)) = some e) :
    Editing u dic profile ((w.delivered j x.listener).perform e) := by
  have hx := List.mem_of_getElem? hj
  obtain ⟨⟨want, documents, -, hreq⟩, haccount⟩ := delivered_lingering (editing.watches x hx) he
  have hsettles : ∀ r ∈ e.requests, Settling r := by
    rw [hreq]
    intro r hr
    obtain ⟨-, a, -, -, rfl⟩ := mem_repairs.mp hr
    exact rfl
  refine ⟨editing.signedIn, fun y hy => ?_, ?_, ?_, ?_⟩
  · obtain ⟨z, hz, hlistener⟩ := mem_delivered_watches hj (notify_steady he).1 hy
    rw [← hlistener]
    exact editing.watches z hz
  · exact World.calls_perform editing.calls fun r hr => .inr (hsettles r hr)
  · rw [World.perform_inflight, List.countP_append,
      countP_settling (List.forall_mem_map.mpr hsettles)]
    exact editing.one
  · refine stage_other (.delivered hj hdue he) editing.stage (fun q hq _ => pending_perform hq)
      (fun hcalls => World.calls_perform hcalls hsettles) rfl haccount

theorem editing_own (parses : profile.Parses) (editing : Editing u dic profile w)
    (own : Own program w w') : Editing u dic profile w' := by
  cases own with
  | served hi => exact editing_served editing hi
  | handled hi he => exact editing_handled parses editing hi he
  | delivered hj hdue he => exact editing_delivered editing hj hdue he

/-- The handlers an edit can still bring about, then the stale writes, then the fields of the
articles that are not as the device wants them. -/
def work (w : Phone) : ℕ ×ₗ ℕ ×ₗ ℕ :=
  toLex (total weight w.inflight, unsettled (wanted w.client.account) w.inflight w.server)

private theorem work_lt_of_weight {w w' : Phone}
    (h : total weight w'.inflight < total weight w.inflight) : work w' < work w := by
  unfold work
  exact Prod.Lex.toLex_lt_toLex.mpr (.inl h)

theorem descent : Descent program work (Editing u dic profile) where
  serve {w i r} editing hi := by
    have hr := editing.calls _ (List.mem_of_getElem? hi)
    have hweight := total_served weight ⟨r, some (serve w.server r true).2⟩ hi
    have htotal : total weight (w.inflight.set i ⟨r, some (serve w.server r true).2⟩) =
        total weight w.inflight := Nat.add_right_cancel hweight
    have hwork : ∀ s : Backend, s = (serve w.server r true).1 →
        work (w.served program i r true) = toLex (total weight w.inflight,
          unsettled (wanted w.client.account)
            (w.inflight.set i ⟨r, some (serve w.server r true).2⟩) s) := by
      rintro s rfl
      exact congrArg (fun n => toLex (n, _)) htotal
    by_cases hset : ∃ key p, r = .setArticle key p
    · obtain ⟨key, p, rfl⟩ := hset
      rw [hwork (w.server.mergeArticle key p) rfl]
      rcases unsettled_served (wanted w.client.account) hi w.server (.written true) with
        hlt | ⟨heq, hsame⟩
      · exact .inl (Prod.Lex.toLex_lt_toLex.mpr (.inr ⟨rfl, hlt⟩))
      · refine .inr ⟨congrArg (fun x => toLex (_, x)) heq, fun x hx => ?_⟩
        exact snapshot_served hr (editing.watches x hx) hsame
    · have hother : ∀ key p, r ≠ .setArticle key p := fun key p heq => hset ⟨key, p, heq⟩
      have harticles := (serve_settling w.server hr).2.2.2.2 hother
      rw [hwork _ rfl, unsettled_other _ hi hother harticles]
      exact .inr ⟨rfl, fun x hx => snapshot_served hr (editing.watches x hx) harticles⟩
  handle {w i r a e} editing hi he := by
    have hr := editing.calls _ (List.mem_of_getElem? hi)
    rcases handled_weight hr he with hless | rfl
    · left
      apply work_lt_of_weight
      rw [World.perform_inflight, total_append, total_landed weight hi]
      exact Nat.add_comm _ _ ▸ Nat.add_lt_add_right hless _
    · by_cases hzero : weight ⟨r, some a⟩ = 0
      · right
        refine ⟨?_, rfl, rfl⟩
        have htotal := total_landed weight hi
        rw [hzero, Nat.zero_add] at htotal
        show toLex (total weight (w.inflight.eraseIdx i ++ []), unsettled (wanted w.client.account)
          (w.inflight.eraseIdx i ++ []) w.server) = _
        rw [List.append_nil, ← htotal, unsettled_landed _ hi]
        rfl
      · left
        apply work_lt_of_weight
        show total weight (w.inflight.eraseIdx i ++ []) < _
        rw [List.append_nil, total_landed weight hi]
        exact Nat.lt_add_of_pos_left (Nat.pos_of_ne_zero hzero)
  deliver {w j x e} editing hj hdue he := by
    obtain ⟨⟨want, documents, hwithin, hreq⟩, haccount⟩ :=
      delivered_lingering (editing.watches x (List.mem_of_getElem? hj)) he
    refine .inr ⟨?_, (notify_steady he).1⟩
    have hnothing : total weight ((repairs want documents).map fun r => ⟨r, none⟩) = 0 := by
      refine total_eq_zero weight fun q hq => ?_
      obtain ⟨r, hr, rfl⟩ := List.mem_map.mp hq
      obtain ⟨-, a, -, -, rfl⟩ := mem_repairs.mp hr
      rfl
    show toLex (total weight (w.inflight ++ e.requests.map _), unsettled (wanted e.client.account)
      (w.inflight ++ e.requests.map _) w.server) = _
    rw [hreq, haccount, total_append, hnothing, Nat.add_zero, unsettled_repairs hwithin]
    rfl

/-- An edit that has come to rest is applied, and its listener has nothing left to do. -/
theorem applied_of_halted (editing : Editing u dic profile w)
    (halt : Halted step OnItsOwn w) : w.server.loginUser.lookup u = some profile ∧
      repairs (goal profile) (window w.server u) = [] := by
  cases editing.stage with
  | writing hc => exact absurd rfl (halted_served halt _ hc)
  | written hc =>
    have hhandle := halted_handled halt hc
    cases hhandle
  | reading hc => exact absurd rfl (halted_served halt _ hc)
  | read hc =>
    have hhandle := halted_handled halt hc
    cases hhandle
  | applied hcalls hlookup hwanted hattended =>
    have hsettled := hattended.settled halt rfl
    exact ⟨hlookup, hsettled⟩

theorem editing_edited (ready : Ready u w) (dic : LoginUserDoc) :
    Editing u dic (profileAfter w.server u dic) (edited w dic) := by
  have hcall : updateLoginUser w.server w.client dic =
      { client := w.client, requests := [.setProfile u dic] } := by
    simp only [updateLoginUser, ready.signedIn]
  unfold edited
  rw [hcall]
  refine ⟨ready.signedIn, fun x hx => ?_, ?_, ?_, ?_⟩
  · rw [World.perform_watches _ _ rfl, List.map_nil, List.append_nil] at hx
    exact ready.watches x hx
  · refine World.calls_perform (fun q hq => .inr (ready.calls q hq)) fun q hq => ?_
    obtain rfl := List.mem_singleton.mp hq
    exact .inl rfl
  · rw [World.perform_inflight, List.countP_append, countP_settling ready.calls]
    exact Nat.le_refl _
  · exact .writing (List.mem_append_right _ List.mem_cons_self) rfl

private theorem parses_own (editing : Editing u dic profile w)
    (readable : ∀ a ∈ window w.server u, a.2.Parses) (own : Own program w w') :
    ∀ a ∈ window w'.server u, a.2.Parses := by
  cases own with
  | @served i r hi =>
    have hr := editing.calls _ (List.mem_of_getElem? hi)
    show ∀ a ∈ window (serve w.server r true).1 u, a.2.Parses
    rcases serve_articles w.server r true with hsame | ⟨key, p, rfl, -, -⟩
    · rw [window, hsame]
      exact readable
    · have hstatus : p.status = none := hr.resolve_left Bool.false_ne_true
      intro b hb
      rw [show window (serve w.server (.setArticle key p) true).1 u =
        (window w.server u).map (patched key p) from window_mergeArticle hstatus w.server u] at hb
      obtain ⟨a, ha, rfl⟩ := List.mem_map.mp hb
      exact (patched_parses hstatus).mpr (readable a ha)
  | handled | delivered => exact readable

/-- An edit comes to rest, and then the newest 200 active articles carry the profile, if all of
them can be read. -/
theorem profile_carried (ready : Ready u w) (dic : LoginUserDoc)
    (parses : (profileAfter w.server u dic).Parses) :
    Rests step OnItsOwn (edited w dic) ∧
      ∀ w', Reaches step OnItsOwn (edited w dic) w' → Halted step OnItsOwn w' →
        w'.server.loginUser.lookup u = some (profileAfter w.server u dic) ∧
          ((∀ a ∈ window w.server u, a.2.Parses) →
            ∀ a ∈ window w'.server u, Carries (profileAfter w.server u dic) a.2) := by
  have hstart := editing_edited ready dic
  refine ⟨descent.rests lasting (editing_own parses) hstart, fun w' hreach halt => ?_⟩
  have hediting : Editing u dic (profileAfter w.server u dic) w' :=
    reaches_own (fun h own => editing_own parses h own) hreach hstart
  obtain ⟨hlookup, hnone⟩ := applied_of_halted hediting halt
  refine ⟨hlookup, fun readable a ha => carries_of_missing ?_⟩
  have hreadable : ∀ a ∈ window w'.server u, a.2.Parses :=
    (reaches_own
      (P := fun w' => Editing u dic (profileAfter w.server u dic) w' ∧
        ∀ a ∈ window w'.server u, a.2.Parses)
      (fun h own => ⟨editing_own parses h.1 own, parses_own h.1 h.2 own⟩) hreach
      ⟨hstart, readable⟩).2
  by_contra hmissing
  have hrepair := mem_repairs.mpr ⟨hreadable, a, ha, hmissing, rfl⟩
  rw [hnone] at hrepair
  cases hrepair

end Steps

section Example

private def profile : LoginUserDoc where
  email := some "a@p-chat.net"
  password := some "password1234"
  nickname := some "Alice"
  status := some 1

private def posted (nickname : String) (date : Nat) : Nat × ArticleDoc :=
  (date, {
    uid := some "alice"
    text := some "hello"
    status := some 1
    createdAt := some date
    userNickname := some nickname })

private def signedIn (articles : List (Nat × ArticleDoc)) : Phone where
  server := {
    currentUser := some "alice"
    uids := fun _ => "dave"
    urls := fun _ => ""
    loginUser := AList.singleton "alice" profile
    articles := articles }
  client := { emails := fun _ => "" }

private def rename : LoginUserDoc := { nickname := some "Alicia" }

/-- The newest 200 articles have the new name already, the oldest one has another. -/
private def manyArticles : List (Nat × ArticleDoc) :=
  (List.range 200).map (fun i => posted "Alicia" (200 - i)) ++ [posted "Alice" 0]

private def throughout : List (Event Action Change) :=
  [.serve 0 true, .handle 0, .serve 0 true, .handle 0, .deliver 0 true, .serve 0 true, .handle 0,
    .serve 0 true, .handle 0]

private theorem ready_signedIn (articles : List (Nat × ArticleDoc)) :
    Ready "alice" (signedIn articles) :=
  ⟨rfl, List.forall_mem_nil _, List.forall_mem_nil _⟩

/-- The 201st article is never looked at. -/
theorem oldest_article_left :
    Ready "alice" (signedIn manyArticles) ∧
      ∃ w, Reaches step OnItsOwn (edited (signedIn manyArticles) rename) w ∧
        Halted step OnItsOwn w ∧ ∃ d, (0, d) ∈ w.server.articles ∧ d.uid = some "alice" ∧
          d.status = some 1 ∧ w.server.loginUser.lookup "alice" = some (rename.merge profile) ∧
          ¬ Carries (rename.merge profile) d := by
  have along : Along step OnItsOwn (edited (signedIn manyArticles) rename) throughout := by
    decide +kernel
  have hrun : ((run step (edited (signedIn manyArticles) rename) throughout).map fun w =>
      (w.inflight.isEmpty, w.watches.all fun x => !x.due)) = some (true, true) := by
    decide +kernel
  have hlast : ((run step (edited (signedIn manyArticles) rename) throughout).map fun w =>
      (decide (posted "Alice" 0 ∈ w.server.articles),
        decide (w.server.loginUser.lookup "alice" = some (rename.merge profile)))) =
        some (true, true) := by
    decide +kernel
  obtain ⟨w, hw, hidle⟩ := Option.map_eq_some_iff.mp hrun
  rw [hw] at hlast
  simp only [Prod.mk.injEq, Option.map_some, Option.some.injEq, decide_eq_true_eq] at hidle hlast
  obtain ⟨hflight, hdue⟩ := hidle
  refine ⟨ready_signedIn _, w, reaches_of_run along hw, ?_, _, hlast.1, rfl, rfl, hlast.2, ?_⟩
  · refine halted_of_idle (List.isEmpty_iff.mp hflight) fun x hx => ?_
    exact Bool.not_eq_true' _ ▸ List.all_eq_true.mp hdue x hx
  · intro carries
    have hname := carries.nickname
    revert hname
    decide

/-- With two articles, the older one is renamed. -/
theorem profile_carried_alice :
    Ready "alice" (signedIn [posted "Alicia" 1, posted "Alice" 0]) ∧
      Rests step OnItsOwn (edited (signedIn [posted "Alicia" 1, posted "Alice" 0]) rename) ∧
      ∀ w', Reaches step OnItsOwn (edited (signedIn [posted "Alicia" 1, posted "Alice" 0]) rename)
        w' → Halted step OnItsOwn w' →
        w'.server.loginUser.lookup "alice" = some (rename.merge profile) ∧
          ∀ a ∈ window w'.server "alice", Carries (rename.merge profile) a.2 := by
  obtain ⟨rests, carried⟩ := profile_carried
    (ready_signedIn [posted "Alicia" 1, posted "Alice" 0]) rename (by decide)
  refine ⟨ready_signedIn _, rests, fun w' hreach halt => ?_⟩
  obtain ⟨hlookup, hcarries⟩ := carried w' hreach halt
  exact ⟨hlookup, hcarries (by decide)⟩

end Example

end PlateChat.Account.Edit
