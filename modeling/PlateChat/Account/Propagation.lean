/- PlateChat/Account/Propagation
   digest: Whose values the propagating listeners write into an author's articles. -/

import PlateChat.Account.Service

set_option autoImplicit false
set_option relaxedAutoImplicit false

/-!
A propagating listener remembers the author in its query and takes the values from
the account cache of the moment it fires. The cache knows whose document it was
filled from, and every version of that document is on record.
-/

namespace PlateChat.Account.Propagation

open PlateChat.Foundation.Dictionary PlateChat.Foundation.Run PlateChat.Foundation.EventLoop
open PlateChat.Foundation.Rules
open PlateChat.Model.Members PlateChat.Model.LocalData PlateChat.Model.Profile
open PlateChat.Account.Service

/-- The versions of the profiles, as `Backend.history` records them. -/
abbrev Versions := List (Uid × LoginUserDoc)

/-- Some stored version of the profile of `uid` reads as `v`. -/
def Stored {β : Type} (versions : Versions) (uid : Uid) (read : LoginUserDoc → β) (v : β) : Prop :=
  ∃ d ∈ versions, d.1 = uid ∧ read d.2 = v

instance {β : Type} [DecidableEq β] (versions : Versions) (uid : Uid) (read : LoginUserDoc → β)
    (v : β) : Decidable (Stored versions uid read v) :=
  inferInstanceAs (Decidable (∃ d ∈ versions, _ ∧ _))

def nicknameOf (d : LoginUserDoc) : String := d.nickname.getD ""

def prefectureOf (d : LoginUserDoc) : Int := d.prefectureId.getD 0

def sexOf (d : LoginUserDoc) : Int := d.sex.getD 0

def imageOf (d : LoginUserDoc) : String := d.profileImageUrl.getD ""

/-- Every value of the data is stored in the profile of `uid`. -/
def FromProfile (versions : Versions) (uid : Uid) (data : ArticlePatch) : Prop :=
  (∀ v ∈ data.userNickname, Stored versions uid nicknameOf v) ∧
  (∀ v ∈ data.userPrefectureId, Stored versions uid prefectureOf v) ∧
  (∀ v ∈ data.userSex, Stored versions uid sexOf v) ∧
  ∀ v ∈ data.userProfileImageUrl, Stored versions uid imageOf v

instance (versions : Versions) (uid : Uid) (data : ArticlePatch) :
    Decidable (FromProfile versions uid data) :=
  inferInstanceAs (Decidable (_ ∧ _ ∧ _ ∧ _))

def FromAuthor (versions : Versions) : Obs → Prop
  | .propagated article data => FromProfile versions article.uid data
  | _ => True

instance (versions : Versions) : ∀ o, Decidable (FromAuthor versions o)
  | .propagated article data => inferInstanceAs (Decidable (FromProfile versions article.uid data))
  | .signInIssued _ | .switchRefused _ | .switchFinished _ _ | .received _ _ _ => .isTrue trivial

/-- Every propagated value comes from the profile of the article's own author. -/
def AuthorsOnly (w : Phone) : Prop := ∀ o ∈ w.client.log, FromAuthor w.server.history o

instance (w : Phone) : Decidable (AuthorsOnly w) :=
  inferInstanceAs (Decidable (∀ o ∈ w.client.log, FromAuthor w.server.history o))

/-- The article repeats another nickname, prefecture or sex than the cached ones. -/
def CardDiffers (account : AccountData) (a : Article) : Prop :=
  some a.userNickname ≠ account.nickname ∨ a.userPrefectureId ≠ account.prefectureId ∨
    a.userSex ≠ account.sex

def ImageDiffers (account : AccountData) (a : Article) : Prop :=
  some a.userProfileImageUrl ≠ account.myProfileImage

instance (account : AccountData) (a : Article) : Decidable (CardDiffers account a) :=
  inferInstanceAs (Decidable (_ ∨ _ ∨ _))

instance (account : AccountData) (a : Article) : Decidable (ImageDiffers account a) :=
  inferInstanceAs (Decidable (_ ≠ _))

/-- The articles of `uid` that a propagating listener is handed. -/
def handed (s : Backend) (uid : Uid) : List Article :=
  match parseAll (Article.ofDocument s.clock) ((articlesOf s.articles uid).take articleLimit) with
  | .ok articles => articles
  | .error _ => []

/-- The cache holds the author's own profile wherever the author's articles differ from it. -/
def OwnCard (s : Backend) (d : Device) (uid : Uid) : Prop :=
  ∀ a ∈ handed s uid, CardDiffers d.account a → d.profileOf = some uid

def OwnImage (s : Backend) (d : Device) (uid : Uid) : Prop :=
  ∀ a ∈ handed s uid, ImageDiffers d.account a → d.imageOf = some uid

instance (s : Backend) (d : Device) (uid : Uid) : Decidable (OwnCard s d uid) :=
  inferInstanceAs (Decidable (∀ a ∈ handed s uid, _ → _))

instance (s : Backend) (d : Device) (uid : Uid) : Decidable (OwnImage s d uid) :=
  inferInstanceAs (Decidable (∀ a ∈ handed s uid, _ → _))

def OwnListener (s : Backend) (d : Device) : Listener → Prop
  | .propagate uid => OwnCard s d uid ∧ OwnImage s d uid
  | .propagateImage uid => OwnImage s d uid
  | _ => True

instance (s : Backend) (d : Device) : ∀ l, Decidable (OwnListener s d l)
  | .propagate uid => inferInstanceAs (Decidable (OwnCard s d uid ∧ OwnImage s d uid))
  | .propagateImage uid => inferInstanceAs (Decidable (OwnImage s d uid))
  | .endArticles _ | .switchUser _ _ _ | .syncBlockUser _ | .syncBlockedUser _ => .isTrue trivial

/-- A propagating listener is delivered only while the cache is the author's own. -/
def OwnData (w : Phone) : Event Action Change → Prop
  | .deliver j true => ∀ x ∈ w.watches[j]?, OwnListener w.server w.client x.listener
  | _ => True

instance (w : Phone) : ∀ ev, Decidable (OwnData w ev)
  | .deliver j true =>
    inferInstanceAs (Decidable (∀ x ∈ w.watches[j]?, OwnListener w.server w.client x.listener))
  | .deliver _ false | .act _ | .serve _ _ | .handle _ | .env _ => .isTrue trivial

private theorem stored_mono {β : Type} {versions versions' : Versions} (h : versions ⊆ versions')
    {uid : Uid} {read : LoginUserDoc → β} {v : β} (hs : Stored versions uid read v) :
    Stored versions' uid read v := by
  obtain ⟨d, hd, hread⟩ := hs
  exact ⟨d, h hd, hread⟩

private theorem fromAuthor_mono {versions versions' : Versions} (h : versions ⊆ versions') {o : Obs}
    (ho : FromAuthor versions o) : FromAuthor versions' o := by
  cases o with
  | propagated article data =>
    obtain ⟨h₁, h₂, h₃, h₄⟩ := ho
    exact ⟨fun v hv => stored_mono h (h₁ v hv), fun v hv => stored_mono h (h₂ v hv),
      fun v hv => stored_mono h (h₃ v hv), fun v hv => stored_mono h (h₄ v hv)⟩
  | signInIssued | switchRefused | switchFinished | received => trivial

/-- The cache, as far as its origin is known, and what has been propagated so far. -/
structure Known (versions : Versions) (d : Device) : Prop where
  log : ∀ o ∈ d.log, FromAuthor versions o
  nickname : ∀ uid ∈ d.profileOf, ∀ v ∈ d.account.nickname, Stored versions uid nicknameOf v
  prefecture : ∀ uid ∈ d.profileOf, Stored versions uid prefectureOf d.account.prefectureId
  sex : ∀ uid ∈ d.profileOf, Stored versions uid sexOf d.account.sex
  image : ∀ uid ∈ d.imageOf, ∀ v ∈ d.account.myProfileImage, Stored versions uid imageOf v

/-- A parsed profile repeats a stored version. -/
def KnownUser (versions : Versions) (user : LoginUser) : Prop :=
  Stored versions user.key nicknameOf user.nickname ∧
  Stored versions user.key prefectureOf user.prefectureId ∧
  Stored versions user.key sexOf user.sex ∧
  Stored versions user.key imageOf user.profileImageUrl

def KnownCall (versions : Versions) : Call Request Answer → Prop
  | ⟨.getProfile uid _, some (.profile (.ok (some d)))⟩ => (uid, d) ∈ versions
  | ⟨.signIn _ user, _⟩ => KnownUser versions user
  | ⟨.setImage uid url, some (.written true)⟩ => Stored versions uid imageOf url
  | _ => True

private theorem known_mono {versions versions' : Versions} (h : versions ⊆ versions') {d : Device}
    (hd : Known versions d) : Known versions' d where
  log o ho := fromAuthor_mono h (hd.log o ho)
  nickname uid hu v hv := stored_mono h (hd.nickname uid hu v hv)
  prefecture uid hu := stored_mono h (hd.prefecture uid hu)
  sex uid hu := stored_mono h (hd.sex uid hu)
  image uid hu v hv := stored_mono h (hd.image uid hu v hv)

private theorem knownUser_mono {versions versions' : Versions} (h : versions ⊆ versions')
    {user : LoginUser} (hu : KnownUser versions user) : KnownUser versions' user := by
  obtain ⟨h₁, h₂, h₃, h₄⟩ := hu
  exact ⟨stored_mono h h₁, stored_mono h h₂, stored_mono h h₃, stored_mono h h₄⟩

private theorem knownCall_mono {versions versions' : Versions} (h : versions ⊆ versions')
    {c : Call Request Answer} (hc : KnownCall versions c) : KnownCall versions' c := by
  unfold KnownCall at hc ⊢
  split
  · exact h hc
  · exact knownUser_mono h hc
  · exact stored_mono h hc
  · trivial

private theorem knownUser_parsed {versions : Versions} {date : Nat} {document : Uid × LoginUserDoc}
    {user : LoginUser} (hd : document ∈ versions)
    (h : LoginUser.ofDocument date document = .ok user) : KnownUser versions user := by
  obtain ⟨hkey, hnick, hsex, hpref, himage⟩ := LoginUser.of_parsed h
  have hstored : ∀ {β : Type} {read : LoginUserDoc → β} {v : β}, v = read document.2 →
      Stored versions user.key read v :=
    fun hread => ⟨document, hd, hkey.symm, hread.symm⟩
  exact ⟨hstored hnick, hstored hpref, hstored hsex, hstored himage⟩

/-- Every stored profile is on record. -/
def Recorded (s : Backend) : Prop :=
  ∀ uid d, s.loginUser.lookup uid = some d → (uid, d) ∈ s.history

def parts : Parts Backend Device Request Answer Listener where
  server := Recorded
  client s d := Known s.history d
  call s c := KnownCall s.history c
  watch _ _ := True

private theorem stable_of_subset {s t : Backend} (h : s.history ⊆ t.history) : parts.Stable s t :=
  ⟨fun _ hd => known_mono h hd, fun _ hc => knownCall_mono h hc, fun _ _ => trivial⟩

private theorem recorded_putUser {s : Backend} (h : Recorded s) (uid : Uid) (d : LoginUserDoc) :
    Recorded (s.putUser uid d) := by
  intro uid' d' hlookup
  by_cases hu : uid' = uid
  · subst hu
    have hd : d = d' := by
      have := hlookup
      simpa [Backend.putUser] using this
    rw [hd]
    exact List.mem_cons_self
  · have hold : s.loginUser.lookup uid' = some d' := by
      rw [← AList.lookup_insert_ne hu]
      exact hlookup
    exact List.mem_cons_of_mem _ (h uid' d' hold)

private theorem recorded_serve {s : Backend} (h : Recorded s) (r : Request) (ok : Bool) :
    Recorded (serve s r ok).1 ∧ s.history ⊆ (serve s r ok).1.history := by
  have hput : ∀ uid d, Recorded (s.putUser uid d) ∧ s.history ⊆ (s.putUser uid d).history :=
    fun uid d => ⟨recorded_putUser h uid d, List.subset_cons_self _ _⟩
  have hkeep : Recorded s ∧ s.history ⊆ s.history := ⟨h, fun _ hx => hx⟩
  cases ok with
  | false => cases r <;> exact hkeep
  | true =>
    cases r with
    | createAuth email password =>
      simp only [serve, createAuth]
      split <;> exact hkeep
    | signInCreated email password =>
      simp only [serve, signInCreated]
      split <;> exact hkeep
    | signIn call user =>
      simp only [serve, signIn]
      split <;> exact hkeep
    | setNewUser uid email password => exact hput uid _
    | setProfile uid dic => exact hput uid _
    | setDeleted uid => exact hput uid _
    | setLogin uid token => exact hput uid _
    | setImage uid url => exact hput uid _
    | getProfile | putAvatar | downloadURL | getBlockUser | getBlockedUser | setArticle =>
      exact hkeep

private theorem knownCall_served {s : Backend} (h : Recorded s) {r : Request} (ok : Bool)
    (hr : KnownCall s.history ⟨r, none⟩) :
    KnownCall (serve s r ok).1.history ⟨r, some (serve s r ok).2⟩ := by
  cases r with
  | getProfile uid purpose =>
    cases ok with
    | false => trivial
    | true =>
      show KnownCall s.history
        ⟨.getProfile uid purpose, some (.profile (.ok (s.loginUser.lookup uid)))⟩
      cases hlookup : s.loginUser.lookup uid with
      | none => trivial
      | some d => exact h uid d hlookup
  | signIn call user =>
    have hsubset := (recorded_serve h (.signIn call user) ok).2
    exact knownUser_mono hsubset hr
  | setImage uid url =>
    cases ok with
    | false => trivial
    | true => exact ⟨_, List.mem_cons_self, rfl, rfl⟩
  | createAuth | signInCreated | setNewUser | setProfile | setDeleted | setLogin | putAvatar
  | downloadURL | getBlockUser | getBlockedUser | setArticle => trivial

private theorem known_of_same {versions : Versions} {d e : Device} (h : Known versions d)
    (hlog : ∀ o ∈ e.log, o ∈ d.log ∨ FromAuthor versions o)
    (hnick : e.account.nickname = d.account.nickname)
    (hpref : e.account.prefectureId = d.account.prefectureId)
    (hsex : e.account.sex = d.account.sex)
    (himage : e.account.myProfileImage = d.account.myProfileImage)
    (hprofileOf : e.profileOf = d.profileOf) (himageOf : e.imageOf = d.imageOf) :
    Known versions e where
  log o ho := (hlog o ho).elim (h.log o) id
  nickname := by
    rw [hnick, hprofileOf]
    exact h.nickname
  prefecture := by
    rw [hpref, hprofileOf]
    exact h.prefecture
  sex := by
    rw [hsex, hprofileOf]
    exact h.sex
  image := by
    rw [himage, himageOf]
    exact h.image

private theorem known_note {versions : Versions} {d : Device} (h : Known versions d) {o : Obs}
    (ho : FromAuthor versions o) : Known versions (note d o) := by
  refine known_of_same h ?_ rfl rfl rfl rfl rfl rfl
  intro o' ho'
  rcases List.mem_cons.mp ho' with rfl | ho'
  · exact .inr ho
  · exact .inl ho'

private theorem known_clear {versions : Versions} {d : Device} (h : Known versions d) :
    Known versions (clearUserInfo d) where
  log := h.log
  nickname _ hu := nomatch hu
  prefecture _ hu := nomatch hu
  sex _ hu := nomatch hu
  image _ hu := nomatch hu

private theorem known_settle {versions : Versions} {d : Device} (h : Known versions d) (s : Backend)
    (uid : Uid) : Known versions (settle s d uid) := by
  unfold settle
  split
  · exact known_of_same h (fun o ho => .inl ho) rfl rfl rfl rfl rfl rfl
  · exact h

private theorem known_profileCached {versions : Versions} {d : Device} (h : Known versions d)
    {user : LoginUser} (hu : KnownUser versions user) : Known versions (profileCached d user) where
  log := h.log
  nickname := by
    intro uid hv v hw
    obtain rfl := Option.some.inj hv
    obtain rfl := Option.some.inj hw
    exact hu.1
  prefecture := by
    intro uid hv
    obtain rfl := Option.some.inj hv
    exact hu.2.1
  sex := by
    intro uid hv
    obtain rfl := Option.some.inj hv
    exact hu.2.2.1
  image := by
    intro uid hv v hw
    obtain rfl := Option.some.inj hv
    obtain rfl := Option.some.inj hw
    exact hu.2.2.2

private theorem known_setUserInfo {versions : Versions} {d : Device} (h : Known versions d)
    (s : Backend) {user : LoginUser} (hu : KnownUser versions user) :
    Known versions (setUserInfo s d user).client :=
  known_note (known_profileCached h hu) trivial

private theorem known_setLastLogin {versions : Versions} {d : Device} (h : Known versions d)
    (s : Backend) : Known versions (setLastLogin s d).client := by
  unfold setLastLogin
  split
  · exact h
  · dsimp only
    split <;> exact known_of_same h (fun o ho => .inl ho) rfl rfl rfl rfl rfl rfl

private theorem known_received {versions : Versions} {d : Device} (h : Known versions d)
    (s : Backend) (users : UsersData) (cache : Cache) (source : Uid) :
    Known versions (received s { d with users := users } cache source) :=
  have hsame : Known versions { d with users := users } :=
    known_of_same h (fun _ ho => .inl ho) rfl rfl rfl rfl rfl rfl
  known_note hsame trivial

private theorem known_blockUser {versions : Versions} {d : Device} (h : Known versions d)
    (s : Backend) (uid : Uid) (answer : Except ServiceError (Option MembersDoc)) :
    Known versions (blockUserReceived s d uid answer) := by
  unfold blockUserReceived
  split
  · exact known_received h s _ _ _
  · exact h

private theorem known_blockedUser {versions : Versions} {d : Device} (h : Known versions d)
    (s : Backend) (uid : Uid) (answer : Except ServiceError (Option MembersDoc)) :
    Known versions (blockedUserReceived s d uid answer) := by
  unfold blockedUserReceived
  split
  · split
    · exact known_received h s _ _ _
    · exact h
  · exact h

private theorem knownCall_plain {versions : Versions} {r : Request} (h : Plain r) :
    KnownCall versions ⟨r, none⟩ := by
  cases r with
  | signIn call user => exact absurd rfl (h call user)
  | createAuth | signInCreated | setNewUser | setProfile | setDeleted | setLogin | getProfile
  | putAvatar | downloadURL | setImage | getBlockUser | getBlockedUser | setArticle => trivial

private theorem admits_plain {s : Backend} {o : Outcome} (hclient : Known s.history o.client)
    (hplain : ∀ r ∈ o.requests, Plain r) : parts.Admits s o :=
  ⟨hclient, fun r hr => knownCall_plain (hplain r hr), fun _ _ => trivial⟩

private theorem admits_act {s : Backend} {d : Device} (h : Known s.history d) (v : Action) :
    parts.Admits s (act s d v) := by
  refine admits_plain ?_ (act_plain s d v)
  cases v with
  | createUser | changeLoginUser =>
    exact known_of_same h (fun o ho => .inl ho) rfl rfl rfl rfl rfl rfl
  | setLastLogin => exact known_setLastLogin h s
  | updateLoginUser | uploadProfileImage | deleteAccount | didBecomeActive =>
    rw [act_client_same s d (by trivial)]
    exact h
  | didReceiveRegistrationToken token =>
    refine known_setLastLogin ?_ s
    exact known_of_same h (fun o ho => .inl ho) rfl rfl rfl rfl rfl rfl

private theorem knownUser_answered {s : Backend} {uid : Uid} {purpose : Purpose}
    {answer : Except ServiceError (Option LoginUserDoc)} {user : LoginUser}
    (hc : KnownCall s.history ⟨.getProfile uid purpose, some (.profile answer)⟩)
    (h : parsedProfile s uid answer = some user) : KnownUser s.history user := by
  unfold parsedProfile at h
  split at h
  · split at h
    · obtain rfl := Option.some.inj h
      exact knownUser_parsed hc ‹_›
    · cases h
  · cases h

private theorem known_handle {s : Backend} {d : Device} {r : Request} {a : Answer} {o : Outcome}
    (h : Known s.history d) (hc : KnownCall s.history ⟨r, some a⟩) (ho : handle s d r a = some o) :
    Known s.history o.client := by
  cases handle_handled ho with
  | createAuth email password uid => cases uid <;> exact h
  | signInCreated email password ok =>
    cases ok with
    | true => exact h
    | false => exact known_setLastLogin h s
  | setNewUser uid email password ok =>
    cases ok with
    | false => exact h
    | true => exact known_setLastLogin (known_settle (known_clear h) s uid) s
  | setDeleted uid ok =>
    cases ok with
    | false => exact h
    | true => exact known_clear h
  | getProfile uid purpose answer =>
    unfold profileCompletion
    split
    · exact h
    · have hu : KnownUser s.history _ := knownUser_answered hc ‹_›
      have hset := known_setUserInfo h s hu
      cases purpose with
      | updateLoginUser | setLastLogin => exact hset
      | deleteLoginUser =>
        exact known_of_same hset (fun o ho => .inl ho) rfl rfl rfl rfl rfl rfl
  | setImage uid url ok =>
    cases ok with
    | false => exact h
    | true =>
      refine ⟨h.log, h.nickname, h.prefecture, h.sex, ?_⟩
      intro uid' hu v hv
      obtain rfl := Option.some.inj hu
      obtain rfl := Option.some.inj hv
      exact hc
  | getBlockUser uid answer => exact known_blockUser h s uid answer
  | getBlockedUser otherUid answer => exact known_blockedUser h s otherUid answer
  | signIn call user uid =>
    cases uid with
    | none => exact known_note h trivial
    | some uid =>
      have hcleared := known_settle (known_clear h) s uid
      exact known_note (known_setUserInfo hcleared s hc) trivial
  -- the cache stays as it is
  | setProfile | setLogin | putAvatar | downloadURL | setArticle => exact h

/-- What a propagating listener writes comes from the cache, field by field. -/
private theorem fromProfile_profileData {s : Backend} {d : Device} {uid : Uid} {a : Article}
    (h : Known s.history d) (hcard : CardDiffers d.account a → d.profileOf = some uid)
    (himage : ImageDiffers d.account a → d.imageOf = some uid) :
    FromProfile s.history uid (profileData d.account a) := by
  refine ⟨?_, ?_, ?_, ?_⟩
  · intro v hv
    simp only [profileData, Option.mem_def, Option.ite_none_right_eq_some] at hv
    have hown : d.profileOf = some uid := hcard (.inl hv.1)
    exact h.nickname uid hown v hv.2
  · intro v hv
    simp only [profileData, Option.mem_def, Option.ite_none_right_eq_some, Option.some_inj] at hv
    obtain ⟨hne, rfl⟩ := hv
    have hown : d.profileOf = some uid := hcard (.inr (.inl hne))
    exact h.prefecture uid hown
  · intro v hv
    simp only [profileData, Option.mem_def, Option.ite_none_right_eq_some, Option.some_inj] at hv
    obtain ⟨hne, rfl⟩ := hv
    have hown : d.profileOf = some uid := hcard (.inr (.inr hne))
    exact h.sex uid hown
  · intro v hv
    simp only [profileData, Option.mem_def, Option.ite_none_right_eq_some] at hv
    have hown : d.imageOf = some uid := himage hv.1
    exact h.image uid hown v hv.2

private theorem fromProfile_imageData {s : Backend} {d : Device} {uid : Uid} {a : Article}
    (h : Known s.history d) (himage : ImageDiffers d.account a → d.imageOf = some uid) :
    FromProfile s.history uid (imageData d.account a) := by
  refine ⟨(fun _ hv => nomatch hv), (fun _ hv => nomatch hv), (fun _ hv => nomatch hv), ?_⟩
  intro v hv
  simp only [imageData, Option.mem_def, Option.ite_none_right_eq_some] at hv
  have hown : d.imageOf = some uid := himage hv.1
  exact h.image uid hown v hv.2

private theorem uid_of_handed {s : Backend} {uid : Uid} {a : Article} (h : a ∈ handed s uid) :
    a.uid = uid := by
  unfold handed at h
  split at h
  · obtain ⟨document, hd, hparsed⟩ := mem_parseAll ‹_› h
    have hquery := (mem_articlesOf (List.mem_of_mem_take hd)).2
    rw [(Article.uid_of_parsed hparsed).2] at hquery
    exact Option.some.inj hquery
  · cases h

private theorem admits_articles {s : Backend} {d : Device} (h : Known s.history d) (uid : Uid)
    {data : AccountData → Article → ArticlePatch}
    (hdata : ∀ a ∈ handed s uid, FromProfile s.history uid (data d.account a)) :
    parts.Admits s
      (articlesDelivered s d data ((articlesOf s.articles uid).take articleLimit)) := by
  unfold articlesDelivered
  cases hparsed : parseAll (Article.ofDocument s.clock)
      ((articlesOf s.articles uid).take articleLimit) with
  | error e => exact admits_plain h fun r hr => nomatch hr
  | ok articles =>
    have hhanded : handed s uid = articles := by
      unfold handed
      rw [hparsed]
    refine admits_plain (known_of_same h ?_ rfl rfl rfl rfl rfl rfl) ?_
    · intro o ho
      rcases List.mem_append.mp ho with ho | ho
      · obtain ⟨a, ha, rfl⟩ := List.mem_map.mp ho
        have hmem : a ∈ handed s uid := by
          rw [hhanded]
          exact List.mem_of_mem_filter ha
        refine .inr ?_
        show FromProfile s.history a.uid _
        rw [uid_of_handed hmem]
        exact hdata a hmem
      · exact .inl ho
    · intro r hr
      obtain ⟨a, _, rfl⟩ := List.mem_map.mp hr
      exact fun _ _ h => nomatch h

private theorem admits_switch {s : Backend} {d : Device} (hs : Recorded s) (h : Known s.history d)
    {call : Nat} {loginEmail loginPassword : String} {documents : List (Uid × LoginUserDoc)}
    (hdocs : snapshot s (.switchUser call loginEmail loginPassword) = .users documents) :
    parts.Admits s (switchDelivered s d call documents) := by
  have hmem : ∀ document ∈ documents, document ∈ s.history :=
    fun document hd => hs document.1 document.2 (mem_switchDocuments hdocs hd).1
  cases documents with
  | nil => exact admits_plain (known_note h trivial) (List.forall_mem_nil _)
  | cons document rest =>
    simp only [switchDelivered]
    split
    · refine ⟨known_note h trivial, ?_, fun _ _ => trivial⟩
      intro r hr
      obtain rfl := List.mem_singleton.mp hr
      exact knownUser_parsed (hmem document List.mem_cons_self) ‹_›
    · exact admits_plain (known_note h trivial) (List.forall_mem_nil _)

private theorem admits_notify {s : Backend} {d : Device} {l : Listener} {ok : Bool} {o : Outcome}
    (hs : Recorded s) (h : Known s.history d) (own : ok = true → OwnListener s d l)
    (ho : notify s d l (if ok then some (snapshot s l) else none) = some o) :
    parts.Admits s o := by
  cases ok with
  | false =>
    cases l with
    | switchUser call loginEmail loginPassword =>
      obtain rfl := Option.some.inj ho
      exact admits_plain (known_note h trivial) fun r hr => nomatch hr
    | propagate | propagateImage | endArticles | syncBlockUser | syncBlockedUser =>
      obtain rfl := Option.some.inj ho
      exact admits_plain h fun r hr => nomatch hr
  | true =>
    have own := own rfl
    cases l with
    | propagate uid =>
      obtain rfl := Option.some.inj ho
      exact admits_articles h uid fun a ha =>
        fromProfile_profileData h (own.1 a ha) (own.2 a ha)
    | propagateImage uid =>
      obtain rfl := Option.some.inj ho
      exact admits_articles h uid fun a ha => fromProfile_imageData h (own a ha)
    | endArticles uid =>
      obtain rfl := Option.some.inj ho
      unfold endArticlesDelivered
      split
      · refine admits_plain h fun r hr => ?_
        obtain ⟨a, _, rfl⟩ := List.mem_map.mp hr
        exact fun _ _ h => nomatch h
      · exact admits_plain h fun r hr => nomatch hr
    | switchUser call loginEmail loginPassword =>
      obtain rfl := Option.some.inj ho
      exact admits_switch hs h rfl
    | syncBlockUser uid =>
      obtain rfl := Option.some.inj ho
      exact admits_plain (known_blockUser h s uid _) fun r hr => nomatch hr
    | syncBlockedUser uid =>
      obtain rfl := Option.some.inj ho
      exact admits_plain (known_blockedUser h s uid _) fun r hr => nomatch hr

private theorem kept : parts.Kept program OwnData where
  act := by
    intro w v e h _ he
    obtain rfl := Option.some.inj he
    exact admits_act h.client v
  serve := by
    intro w i ok r h _ hi
    obtain ⟨hrecorded, hsubset⟩ := recorded_serve h.server r ok
    have hbefore := h.calls _ (List.mem_of_getElem? hi)
    have hcall := knownCall_served h.server ok hbefore
    exact ⟨hrecorded, stable_of_subset hsubset, hcall⟩
  handle := by
    intro w i r a e h _ hi he
    have hcall := h.calls _ (List.mem_of_getElem? hi)
    have hknown : Known w.server.history e.client := known_handle h.client hcall he
    exact admits_plain hknown (handle_plain he)
  deliver := by
    intro w j ok x e h own hj he
    refine admits_notify h.server h.client ?_ he
    rintro rfl
    exact own x hj
  env := by
    intro w change h _
    cases change with
    | profile uid d =>
      exact ⟨recorded_putUser h.server uid d, stable_of_subset (List.subset_cons_self _ _)⟩
    | articles | userBlock | userBlocked =>
      exact ⟨h.server, stable_of_subset fun _ hx => hx⟩

private theorem holds_start (s : Backend) (d : Device) : parts.Holds (start s d) where
  server := by
    intro uid doc hlookup
    exact List.mem_map.mpr ⟨⟨uid, doc⟩, AList.mem_lookup_iff.mp hlookup, rfl⟩
  client := {
    log := fun _ ho => nomatch ho
    nickname := fun _ hu => nomatch hu
    prefecture := fun _ hu => nomatch hu
    sex := fun _ hu => nomatch hu
    image := fun _ hu => nomatch hu }
  calls _ hc := nomatch hc
  watches _ hx := nomatch hx

/-- In every run whose propagating listeners find the author's own data in the cache
wherever it differs from the articles, only the author's values are propagated. -/
theorem authors_only (s : Backend) (d : Device) (es : List (Event Action Change)) (w : Phone)
    (own : Along step OwnData (start s d) es) (hr : run step (start s d) es = some w) :
    AuthorsOnly w := by
  have holds : parts.Holds w := kept.run own hr (holds_start s d)
  exact holds.client.log

section Example

private def ann : LoginUserDoc where
  email := some "ann@p-chat.net"
  password := some "p"
  nickname := some "Ann"
  status := some 1

private def bob : LoginUserDoc where
  email := some "bob@p-chat.net"
  password := some "q"
  loginEmail := some "bob@mail.net"
  loginPassword := some "secret"
  nickname := some "Bob"
  status := some 1

/-- `a` is signed in and has written an article; `b` can be switched to. -/
private def twoAccounts : Backend where
  currentUser := some "a"
  accounts := [⟨"a", "ann@p-chat.net", "p"⟩, ⟨"b", "bob@p-chat.net", "q"⟩]
  uids _ := "c"
  urls _ := ""
  loginUser := (AList.singleton "a" ann).insert "b" bob
  articles := [(0, { uid := some "a", text := some "hello", status := some 1, createdAt := some 1
                     userNickname := some "Ann" })]

private def phone : Device where
  emails _ := ""

/-- `a` saves the profile; after a switch to `b` the listener is delivered again. -/
private def savedThenSwitched : List (Event Action Change) :=
  [.act (.updateLoginUser { nickname := some "Ann" }), .serve 0 true, .handle 0, .serve 0 true,
    .handle 0, .act (.changeLoginUser "bob@mail.net" "secret"), .deliver 1 true, .serve 1 true,
    .handle 1, .deliver 0 true]

/-- `a` changes the nickname and the listener is delivered. -/
private def savedAndDelivered : List (Event Action Change) :=
  [.act (.updateLoginUser { nickname := some "Anna" }), .serve 0 true, .handle 0, .serve 0 true,
    .handle 0, .deliver 0 true, .serve 0 true]

theorem other_account_propagated :
    ¬ ∀ (s : Backend) (d : Device) (es : List (Event Action Change)) (w : Phone),
      run step (start s d) es = some w → AuthorsOnly w := by
  intro claim
  have hseen : (run step (start twoAccounts phone) savedThenSwitched).map
      (fun w => decide (AuthorsOnly w)) = some false := by decide
  obtain ⟨w, hw, hval⟩ := Option.map_eq_some_iff.mp hseen
  exact of_decide_eq_false hval (claim twoAccounts phone savedThenSwitched w hw)

theorem authors_only_delivered :
    ∃ w, run step (start twoAccounts phone) savedAndDelivered = some w ∧ AuthorsOnly w := by
  have hran : (run step (start twoAccounts phone) savedAndDelivered).map
      (fun w => w.client.log.length) = some 2 := by decide
  obtain ⟨w, hw, _⟩ := Option.map_eq_some_iff.mp hran
  exact ⟨w, hw, authors_only twoAccounts phone savedAndDelivered w (by decide) hw⟩

end Example

end PlateChat.Account.Propagation
