/- PlateChat/Screen/Cells
   digest: Reused cells, the profiles they fetch, and whose name they show. -/

import PlateChat.Foundation.EventLoop
import PlateChat.Model.Profile
import PlateChat.Screen.Lists

set_option autoImplicit false
set_option relaxedAutoImplicit false

/-!
Configuring a cell clears its labels, fills them from what the device has cached, and
fetches a profile. The completion of the fetch fills the labels of the same cell, which
may have been configured for another user by then: it does not look.

The labels that are filled from the configured value alone, and the pictures, are left out.
-/

namespace PlateChat.Screen.Cells

open PlateChat.Foundation.Dictionary PlateChat.Foundation.Run PlateChat.Foundation.EventLoop
open PlateChat.Model.Members PlateChat.Model.Profile
open PlateChat.Model.Room (ChatRoom)
open PlateChat.Screen.Lists (KeyOrder otherMember)

/-- The classes of cells, by the list they stand in. -/
inductive Kind
  | article
  | chatRoom
  | block
  | notice
  | footprint
  deriving DecidableEq

structure CellId where
  kind : Kind
  index : Nat
  deriving DecidableEq

/-- A text and the user whose article, profile or cache entry it was read from. -/
structure Label where
  user : Uid
  text : String
  deriving DecidableEq

/-- A cell, and the user it was configured for last. `toLabel` names whom the article replies to. -/
structure Cell where
  user : Option Uid := none
  nickname : Option Label := none
  attr : Option Label := none
  toLabel : Option Label := none
  deriving DecidableEq

/-- What `UsersData` keeps of other users, by their uid. -/
structure Caches where
  profileImages : Dict Uid String := ∅
  nickNames : Dict Uid String := ∅
  profileTexts : Dict Uid String := ∅
  genders : Dict Uid Int := ∅
  ages : Dict Uid Int := ∅
  prefectureIds : Dict Uid Int := ∅

/-- `date` is the moment at which a profile is parsed. -/
structure Device where
  currentUser : Option Uid
  date : Nat := 0
  caches : Caches := {}

structure Tables where
  device : Device
  cells : CellId → Cell := fun _ => {}

/-- The profile of `uid` is fetched, for a cell or for the caches alone. -/
structure Fetch where
  uid : Uid
  cell : Option CellId
  deriving DecidableEq

abbrev Outcome := Effect Tables Fetch Empty

def genders : List String := ["未設定", "男性", "女性"]

def prefs : List String :=
  ["未設定", "東京都", "神奈川県", "埼玉県", "千葉県", "大阪府", "京都府", "兵庫県", "奈良県", "愛知県",
    "岐阜県", "三重県", "福岡県", "北海道", "青森県", "岩手県", "宮城県", "秋田県", "山形県", "福島県",
    "茨城県", "栃木県", "群馬県", "新潟県", "富山県", "石川県", "福井県", "山梨県", "長野県", "静岡県",
    "滋賀県", "和歌山県", "鳥取県", "島根県", "岡山県", "広島県", "山口県", "徳島県", "香川県", "愛媛県",
    "高知県", "佐賀県", "長崎県", "熊本県", "大分県", "宮崎県", "鹿児島県", "沖縄県", "海外"]

/-- `none` is an index out of range. -/
def genderText (gender : Int) : Option String := if gender < 0 then none else genders[gender.toNat]?

def ageText (age : Int) : String := if age > 0 then toString age ++ " " else "未設定"

def prefText (prefectureId : Int) : String :=
  if prefectureId < 0 then "未設定" else prefs[prefectureId.toNat]?.getD "未設定"

def noticeText (nickname : String) : String := nickname ++ "さんがあたなの投稿に返信しました"

namespace Cell

/-- `clear()`; the label of the addressee is not among those that are emptied. -/
def clear (c : Cell) : Cell := { c with user := none, nickname := none, attr := none }

end Cell

namespace Tables

def set (d : Tables) (id : CellId) (cell : Cell) : Tables :=
  { d with cells := Function.update d.cells id cell }

def cache (d : Tables) (caches : Caches) : Tables :=
  { d with device := { d.device with caches := caches } }

@[simp] theorem set_cells (d : Tables) (id : CellId) (cell : Cell) :
    (d.set id cell).cells = Function.update d.cells id cell := rfl

@[simp] theorem cache_cells (d : Tables) (caches : Caches) :
    (d.cache caches).cells = d.cells := rfl

end Tables

def getUserInfo (d : Tables) (uid : Uid) (cell : Option CellId) : List Fetch :=
  match d.device.currentUser with
  | some _ => [⟨uid, cell⟩]
  | none => []

/-- The nickname that is cached under `uid`. -/
def cachedNickname (d : Tables) (uid : Uid) (text : String → String) : Option Label :=
  (d.device.caches.nickNames.lookup uid).map fun nickname => ⟨uid, text nickname⟩

/-- `none` if the sex of the user has no name. -/
def setUserAttr (d : Tables) (id : CellId) (uid : Uid) : Option Tables :=
  match d.device.caches.ages.lookup uid, d.device.caches.genders.lookup uid,
      d.device.caches.prefectureIds.lookup uid with
  | some age, some gender, some prefectureId =>
    (genderText gender).map fun sex => d.set id { d.cells id with
      attr := some ⟨uid, sex ++ ", " ++ ageText age ++ ", " ++ prefText prefectureId⟩ }
  | _, _, _ => some d

/-- What the cells that are configured with a uid have in common. -/
def configureUser (d : Tables) (id : CellId) (uid : Uid) (text : String → String) : Tables :=
  d.set id { (d.cells id).clear with user := some uid, nickname := cachedNickname d uid text }

/-- Signed out, the cell stays cleared; a room without another member, or without counts, traps. -/
def chatRoomListCell (keys : KeyOrder) (d : Tables) (id : CellId) (chatRoom : ChatRoom) :
    Option Outcome :=
  match d.device.currentUser with
  | none => some { client := d.set id (d.cells id).clear }
  | some uid =>
    match otherMember keys (some uid) chatRoom, chatRoom.unreadCounts with
    | some otherUid, some _ => some {
        client := configureUser d id otherUid (fun nickname => nickname)
        requests := getUserInfo d otherUid (some id) }
    | _, _ => none

def blockListCell (d : Tables) (id : CellId) (otherUid : Uid) : Outcome where
  client := configureUser d id otherUid (fun nickname => nickname)
  requests := getUserInfo d otherUid (some id)

/-- The profile is fetched only while there is no picture of the user. -/
def noticeTableViewCell (d : Tables) (id : CellId) (uid : Uid) : Outcome where
  client := configureUser d id uid noticeText
  requests :=
    if d.device.caches.profileImages.lookup uid = none then getUserInfo d uid (some id) else []

def footprintTableViewCell (d : Tables) (id : CellId) (uid : Uid) : Outcome where
  client := configureUser d id uid (fun nickname => nickname)
  requests :=
    if d.device.caches.profileImages.lookup uid = none then getUserInfo d uid (some id) else []

/-- An article with a picture is cached on the way. -/
def cacheArticle (c : Caches) (article : Article) : Caches :=
  if 0 < article.userProfileImageUrl.length then
    { c with
      profileImages := c.profileImages.insert article.uid article.userProfileImageUrl
      nickNames := c.nickNames.insert article.uid article.userNickname }
  else c

/-- The label of the addressee, and the fetch when his nickname is not cached. -/
def configureTo (d : Tables) (id : CellId) (article : Article) : Tables × List Fetch :=
  if article.toUid ≠ "" then
    match cachedNickname d article.toUid (fun nickname => nickname) with
    | some label => (d.set id { d.cells id with toLabel := some label }, [])
    | none => (d, getUserInfo d article.toUid none)
  else (d, [])

def articleTableViewCell (d : Tables) (id : CellId) (article : Article) : Option Outcome :=
  let d := d.cache (cacheArticle d.device.caches article)
  let d := d.set id { (d.cells id).clear with
    user := some article.uid
    nickname := some ⟨article.uid, article.userNickname⟩ }
  (setUserAttr d id article.uid).map fun d =>
    let configured := configureTo d id article
    { client := configured.1
      requests := getUserInfo d article.uid (some id) ++ configured.2 }

def cacheUser (c : Caches) (user : LoginUser) : Caches where
  profileImages := c.profileImages.insert user.key user.profileImageUrl
  nickNames := c.nickNames.insert user.key user.nickname
  profileTexts := c.profileTexts.insert user.key user.profileText
  genders := c.genders.insert user.key user.sex
  ages := c.ages.insert user.key user.age
  prefectureIds := c.prefectureIds.insert user.key user.prefectureId

/-- A cell shows the nickname that has arrived. -/
def showNickname (d : Tables) (id : CellId) (user : LoginUser) (text : String → String) : Tables :=
  d.set id { d.cells id with nickname := some ⟨user.key, text user.nickname⟩ }

/-- The user that a fetch has brought. -/
def fetchedUser (d : Tables) (f : Fetch) : Except ServiceError (Option LoginUserDoc) →
    Option LoginUser
  | .ok (some document) => (LoginUser.ofDocument d.device.date (f.uid, document)).toOption
  | .ok none => none
  | .error _ => none

def cellCompletion (d : Tables) (id : CellId) (user : LoginUser) : Option Tables :=
  match id.kind with
  | .article => setUserAttr (d.cache (cacheUser d.device.caches user)) id user.key
  | .chatRoom =>
    let caches := { d.device.caches with
      profileImages := d.device.caches.profileImages.insert user.key user.profileImageUrl }
    some (showNickname (d.cache caches) id user fun nickname => nickname)
  | .block => some (showNickname d id user fun nickname => nickname)
  | .notice =>
    let caches := { d.device.caches with
      profileImages := d.device.caches.profileImages.insert user.key user.profileImageUrl
      nickNames := d.device.caches.nickNames.insert user.key user.nickname }
    some (showNickname (d.cache caches) id user noticeText)
  | .footprint =>
    let caches := { d.device.caches with
      profileImages := d.device.caches.profileImages.insert user.key user.profileImageUrl
      nickNames := d.device.caches.nickNames.insert user.key user.nickname }
    some (showNickname (d.cache caches) id user fun nickname => nickname)

def completion (d : Tables) (f : Fetch) (answer : Except ServiceError (Option LoginUserDoc)) :
    Option Outcome :=
  match fetchedUser d f answer with
  | none => some { client := d }
  | some user =>
    match f.cell with
    | none => some { client := d.cache (cacheUser d.device.caches user) }
    | some id => (cellCompletion d id user).map fun d => { client := d }

/-- What a cell is configured with. -/
inductive Content
  | article (article : Article)
  | chatRoom (chatRoom : ChatRoom)
  | block (otherUid : Uid)
  | notice (uid : Uid)
  | footprint (uid : Uid)

def Content.kind : Content → Kind
  | .article _ => .article
  | .chatRoom _ => .chatRoom
  | .block _ => .block
  | .notice _ => .notice
  | .footprint _ => .footprint

/-- A table configures a cell, new or used; the rest of the program changes the device. -/
inductive Action
  | configure (index : Nat) (content : Content)
  | device (device : Device)

def configure (keys : KeyOrder) (d : Tables) (id : CellId) : Content → Option Outcome
  | .article article => articleTableViewCell d id article
  | .chatRoom chatRoom => chatRoomListCell keys d id chatRoom
  | .block otherUid => some (blockListCell d id otherUid)
  | .notice uid => some (noticeTableViewCell d id uid)
  | .footprint uid => some (footprintTableViewCell d id uid)

def act (keys : KeyOrder) (d : Tables) : Action → Option Outcome
  | .configure index content => configure keys d ⟨content.kind, index⟩ content
  | .device device => some { client := { d with device := device } }

abbrev Server := Dict Uid LoginUserDoc

def serve (s : Server) (f : Fetch) : Bool → Server × Except ServiceError (Option LoginUserDoc)
  | true => (s, .ok (s.lookup f.uid))
  | false => (s, .error .fetchError)

def program (keys : KeyOrder) : Program Server Tables Action (Uid × LoginUserDoc) Fetch
    (Except ServiceError (Option LoginUserDoc)) Empty Unit where
  act _ d v := Cells.act keys d v
  serve := Cells.serve
  handle _ d f a := completion d f a
  snapshot _ _ := ()
  notify _ _ l _ := nomatch l
  env s profile := s.insert profile.1 profile.2

abbrev Network := World Server Tables Fetch (Except ServiceError (Option LoginUserDoc)) Empty

/-- No cell is configured yet. -/
def start (s : Server) (device : Device) : Network where
  server := s
  client := { device := device }

abbrev step (keys : KeyOrder) : Network → Event Action (Uid × LoginUserDoc) → Option Network :=
  (program keys).step

/-- The labels belong to the user the cell was configured for. -/
structure Cell.Own (c : Cell) : Prop where
  nickname : ∀ label, c.nickname = some label → c.user = some label.user
  attr : ∀ label, c.attr = some label → c.user = some label.user

def Own (d : Tables) : Prop := ∀ id, (d.cells id).Own

theorem own_set {d : Tables} (h : Own d) (id : CellId) (cell : Cell) :
    Own (d.set id cell) ↔ cell.Own := by
  constructor
  · intro hset
    have hcell := hset id
    rwa [Tables.set_cells, Function.update_self] at hcell
  · intro hcell other
    rw [Tables.set_cells]
    by_cases heq : other = id
    · subst heq
      rw [Function.update_self]
      exact hcell
    · rw [Function.update_of_ne heq]
      exact h other

theorem own_cleared (c : Cell) : c.clear.Own where
  nickname _ h := nomatch h
  attr _ h := nomatch h

theorem own_configureUser {d : Tables} (h : Own d) (id : CellId) (uid : Uid)
    (text : String → String) : Own (configureUser d id uid text) := by
  refine (own_set h id _).mpr ⟨fun label hlabel => ?_, fun _ hlabel => nomatch hlabel⟩
  obtain ⟨nickname, _, rfl⟩ := Option.map_eq_some_iff.mp hlabel
  rfl

theorem own_setUserAttr {d e : Tables} (h : Own d) {id : CellId} {uid : Uid}
    (huser : (d.cells id).user = some uid) (he : setUserAttr d id uid = some e) : Own e := by
  unfold setUserAttr at he
  split at he
  · obtain ⟨sex, _, rfl⟩ := Option.map_eq_some_iff.mp he
    refine (own_set h id _).mpr ⟨(h id).nickname, fun label hlabel => ?_⟩
    obtain rfl := Option.some.inj hlabel
    exact huser
  · obtain rfl := Option.some.inj he
    exact h

theorem own_configureTo {d : Tables} (h : Own d) (id : CellId) (article : Article) :
    Own (configureTo d id article).1 := by
  unfold configureTo
  split
  · split
    · exact (own_set h id _).mpr ⟨(h id).nickname, (h id).attr⟩
    · exact h
  · exact h

theorem own_configure {keys : KeyOrder} {d : Tables} (h : Own d) {id : CellId} {content : Content}
    {o : Outcome} (ho : configure keys d id content = some o) : Own o.client := by
  cases content with
  | article article =>
    simp only [configure, articleTableViewCell] at ho
    obtain ⟨e, he, rfl⟩ := Option.map_eq_some_iff.mp ho
    refine own_configureTo ?_ id article
    refine own_setUserAttr ?_ ?_ he
    · refine (own_set (d := d.cache _) h id _).mpr ⟨fun label hlabel => ?_, fun _ hl => nomatch hl⟩
      obtain rfl := Option.some.inj hlabel
      rfl
    · rw [Tables.set_cells, Function.update_self]
  | chatRoom chatRoom =>
    simp only [configure, chatRoomListCell] at ho
    split at ho
    · obtain rfl := Option.some.inj ho
      exact (own_set h id _).mpr (own_cleared _)
    · split at ho
      · obtain rfl := Option.some.inj ho
        exact own_configureUser h id _ _
      · cases ho
  | block otherUid =>
    obtain rfl := Option.some.inj ho
    exact own_configureUser h id _ _
  | notice uid =>
    obtain rfl := Option.some.inj ho
    exact own_configureUser h id _ _
  | footprint uid =>
    obtain rfl := Option.some.inj ho
    exact own_configureUser h id _ _

theorem own_nickname {c : Cell} (h : c.Own) (label : Label) :
    { c with nickname := some label : Cell }.Own ↔ c.user = some label.user := by
  refine ⟨fun hown => hown.nickname label rfl, fun huser => ⟨fun l hl => ?_, h.attr⟩⟩
  obtain rfl := Option.some.inj hl
  exact huser

theorem own_attr {c : Cell} (h : c.Own) (label : Label) :
    { c with attr := some label : Cell }.Own ↔ c.user = some label.user := by
  refine ⟨fun hown => hown.attr label rfl, fun huser => ⟨h.nickname, fun l hl => ?_⟩⟩
  obtain rfl := Option.some.inj hl
  exact huser

theorem setUserAttr_cached (d : Tables) (id : CellId) (user : LoginUser) :
    ∃ text : String → String,
      setUserAttr (d.cache (cacheUser d.device.caches user)) id user.key =
        (genderText user.sex).map fun sex =>
          (d.cache (cacheUser d.device.caches user)).set id
            { d.cells id with attr := some ⟨user.key, text sex⟩ } := by
  refine ⟨fun sex => sex ++ ", " ++ ageText user.age ++ ", " ++ prefText user.prefectureId, ?_⟩
  unfold setUserAttr Tables.cache cacheUser
  dsimp only
  rw [AList.lookup_insert, AList.lookup_insert, AList.lookup_insert]

/-- The label that is filled belongs to the user of the cell. -/
def Timely (d : Tables) (f : Fetch) (answer : Except ServiceError (Option LoginUserDoc)) : Prop :=
  ∀ user, fetchedUser d f answer = some user → ∀ id, f.cell = some id →
    (id.kind = .article → (genderText user.sex).isSome) → (d.cells id).user = some user.key

/-- All other cells show the nickname that has arrived. -/
theorem cellCompletion_nickname (d : Tables) {id : CellId} (user : LoginUser)
    (other : id.kind ≠ .article) :
    ∃ caches text,
      cellCompletion d id user = some (showNickname (d.cache caches) id user text) := by
  unfold cellCompletion
  cases hkind : id.kind with
  | article => exact absurd hkind other
  | chatRoom => exact ⟨_, _, rfl⟩
  | block => exact ⟨d.device.caches, _, rfl⟩
  | notice => exact ⟨_, _, rfl⟩
  | footprint => exact ⟨_, _, rfl⟩

theorem own_cellCompletion_iff {d : Tables} (h : Own d) (id : CellId) (user : LoginUser) :
    (∀ e, cellCompletion d id user = some e → Own e) ↔
      ((id.kind = .article → (genderText user.sex).isSome) →
        (d.cells id).user = some user.key) := by
  by_cases hkind : id.kind = .article
  · obtain ⟨text, htext⟩ := setUserAttr_cached d id user
    have hcompletion : cellCompletion d id user = (genderText user.sex).map fun sex =>
        (d.cache (cacheUser d.device.caches user)).set id
          { d.cells id with attr := some ⟨user.key, text sex⟩ } := by
      unfold cellCompletion
      rw [hkind]
      exact htext
    have hown : ∀ sex, Own ((d.cache (cacheUser d.device.caches user)).set id
        { d.cells id with attr := some ⟨user.key, text sex⟩ }) ↔
          (d.cells id).user = some user.key :=
      fun sex => (own_set (d := d.cache _) h id _).trans (own_attr (h id) _)
    rw [hcompletion]
    rcases hsex : genderText user.sex with _ | sex
    · exact iff_of_true (fun _ he => nomatch he) fun hsome => nomatch hsome hkind
    · rw [← hown sex]
      constructor
      · exact fun hall _ => hall _ rfl
      · rintro hone e he
        obtain rfl := Option.some.inj he
        exact hone fun _ => rfl
  · obtain ⟨caches, text, hcompletion⟩ := cellCompletion_nickname d user hkind
    have hown : Own (showNickname (d.cache caches) id user text) ↔
        (d.cells id).user = some user.key :=
      (own_set (d := d.cache caches) h id _).trans (own_nickname (h id) _)
    rw [hcompletion, ← hown]
    constructor
    · exact fun hall _ => hall _ rfl
    · rintro hone e he
      obtain rfl := Option.some.inj he
      exact hone fun harticle => absurd harticle hkind

/-- A completion leaves every label where it belongs exactly when it is in time. -/
theorem own_completion_iff {d : Tables} (h : Own d) (f : Fetch)
    (answer : Except ServiceError (Option LoginUserDoc)) :
    (∀ o, completion d f answer = some o → Own o.client) ↔ Timely d f answer := by
  unfold completion Timely
  rcases huser : fetchedUser d f answer with _ | user
  · refine iff_of_true (fun o ho => ?_) fun _ hnone => nomatch hnone
    obtain rfl := Option.some.inj ho
    exact h
  · rcases hcell : f.cell with _ | id
    · refine iff_of_true (fun o ho => ?_) fun _ _ _ hnone => nomatch hnone
      obtain rfl := Option.some.inj ho
      exact h
    · have hcompletion := own_cellCompletion_iff h id user
      constructor
      · rintro hall user' hsame id' hid hsex
        obtain rfl := Option.some.inj hsame
        obtain rfl := Option.some.inj hid
        refine hcompletion.mp (fun e he => hall { client := e } ?_) hsex
        show (cellCompletion d id user).map _ = _
        rw [he]
        rfl
      · intro htimely o ho
        obtain ⟨e, he, rfl⟩ := Option.map_eq_some_iff.mp ho
        exact hcompletion.mpr (htimely user rfl id rfl) e he

section Runs

variable {keys : KeyOrder}

/-- The completion that an event runs, if it runs one, is in time. -/
def TimelyNext (w : Network) : Event Action (Uid × LoginUserDoc) → Prop
  | .handle i => ∀ f answer, w.inflight[i]? = some ⟨f, some answer⟩ → Timely w.client f answer
  | _ => True

theorem own_next_iff {w : Network} (h : Own w.client) (ev : Event Action (Uid × LoginUserDoc)) :
    (∀ t ∈ step keys w ev, Own t.client) ↔ TimelyNext w ev := by
  cases ev with
  | act v =>
    refine iff_of_true (fun t ht => ?_) trivial
    obtain ⟨o, ho, rfl⟩ := Option.map_eq_some_iff.mp ht
    cases v with
    | configure index content => exact own_configure h ho
    | device device =>
      obtain rfl := Option.some.inj ho
      exact h
  | serve i ok =>
    refine iff_of_true (fun t ht => ?_) trivial
    cases Program.step_fires ht with
    | serve hi => exact h
  | handle i =>
    constructor
    · intro hall f answer hi
      refine (own_completion_iff h f answer).mp fun o ho => ?_
      have hstep : step keys w (.handle i) = some ((w.landed i).perform o) :=
        Program.fires_step (p := program keys) (.handle hi ho)
      exact hall _ hstep
    · intro htimely t ht
      cases Program.step_fires ht with
      | handle hi ho => exact (own_completion_iff h _ _).mpr (htimely _ _ hi) _ ho
  | deliver j ok =>
    refine iff_of_true (fun t ht => ?_) trivial
    cases Program.step_fires ht with
    | @deliver j ok x e hj he => exact x.listener.elim
  | env profile =>
    refine iff_of_true (fun t ht => ?_) trivial
    cases Program.step_fires ht with
    | env => exact h

/-- After every step of a run each cell shows its own user, exactly when every completion
that fills a label finds its cell configured for the user that it brings. -/
theorem labels_own_iff (keys : KeyOrder) (s : Server) (device : Device)
    (es : List (Event Action (Uid × LoginUserDoc))) :
    Along (step keys) (fun w ev => ∀ t ∈ step keys w ev, Own t.client) (start s device) es ↔
      Along (step keys) TimelyNext (start s device) es := by
  refine along_congr (P := fun w => Own w.client) (fun w ev h => own_next_iff h ev) ?_ ?_
  · exact fun w ev t _ hown ht => hown t ht
  · exact fun id => own_cleared {}

end Runs

section Example

private def orderListed : KeyOrder where
  order := id
  perm := List.Perm.refl

private def profiles : Server :=
  AList.singleton "bob" {
    email := some "bob@p-chat.net"
    password := some "p"
    status := some 1
    nickname := some "Bob" }

/-- The cell is used again for Carol before the profile of Bob has arrived. -/
private def usedAgain : List (Event Action (Uid × LoginUserDoc)) :=
  [.act (.configure 0 (.block "bob")), .serve 0 true, .act (.configure 0 (.block "carol")),
    .handle 0]

theorem cell_shows_other_user :
    ¬ ∀ (keys : KeyOrder) (s : Server) (device : Device)
      (es : List (Event Action (Uid × LoginUserDoc))),
      Along (step keys) (fun w ev => ∀ t ∈ step keys w ev, Own t.client) (start s device) es := by
  intro claim
  have hseen : (run (step orderListed) (start profiles ⟨some "alice", 0, {}⟩) usedAgain).map
      (fun w => (w.client.cells ⟨.block, 0⟩).user) = some (some "carol") ∧
    (run (step orderListed) (start profiles ⟨some "alice", 0, {}⟩) usedAgain).map
      (fun w => (w.client.cells ⟨.block, 0⟩).nickname) = some (some ⟨"bob", "Bob"⟩) := by decide
  obtain ⟨w, hw, huser⟩ := Option.map_eq_some_iff.mp hseen.1
  have hnickname := hseen.2
  rw [hw, Option.map_some, Option.some_inj] at hnickname
  have hown := along_last (List.cons_ne_nil _ _)
    (claim orderListed profiles ⟨some "alice", 0, {}⟩ usedAgain) hw
  have hsame := (hown ⟨.block, 0⟩).nickname _ hnickname
  rw [huser] at hsame
  revert hsame
  decide

end Example

end PlateChat.Screen.Cells
