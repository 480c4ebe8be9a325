/- PlateChat/Screen/Lists
   digest: The two list screens of an account, their paging services and their listeners. -/

import PlateChat.Account.Service
import PlateChat.Foundation.Merge
import PlateChat.Model.Room

set_option autoImplicit false
set_option relaxedAutoImplicit false

/-!
The screens outlive the account: they are the roots of two tabs, and what they hold is
merged with every page that any of their listeners delivers. The account services run
beside them; here they are the requests that the backend serves at any moment.
-/

namespace PlateChat.Screen.Lists

open PlateChat.Foundation.Dictionary PlateChat.Foundation.Run PlateChat.Foundation.EventLoop
open PlateChat.Model.Members PlateChat.Model.LocalData PlateChat.Model.Profile PlateChat.Model.Room

section Unique

variable {τ : Type} (key : τ → Nat)

def appendNew (result : List τ) (e : τ) : List τ :=
  if result.any fun r => key r = key e then result else result ++ [e]

/-- Of the elements with one key, the first. -/
def unique (elements : List τ) : List τ := elements.foldl (appendNew key) []

theorem unique_eq : unique key = Foundation.Merge.unique key := rfl

theorem mem_unique_append {models held : List τ} {x : τ} (h : x ∈ unique key (models ++ held)) :
    x ∈ models ∨ x ∈ held ∧ key x ∉ models.map key := by
  rw [unique_eq, Foundation.Merge.mem_unique, Foundation.Merge.version_append,
    Option.or_eq_some_iff] at h
  rcases h with hnew | ⟨hnone, hold⟩
  · exact .inl (Foundation.Merge.mem_of_version hnew)
  · exact .inr ⟨Foundation.Merge.mem_of_version hold, Foundation.Merge.version_eq_none.mp hnone⟩

end Unique

inductive BindStatus
  | loading
  | done
  | failed
  | none
  deriving DecidableEq

/-- A registration of a paging listener: by which service object, for whom, behind which
document, and in which epoch of the signed-in account. -/
structure Bind (κ : Type) where
  id : Nat
  object : Nat
  uid : Uid
  after : Option κ
  epoch : Nat
  deriving DecidableEq

/-- A paging service: the cursor moves with every delivery. -/
structure Service (κ : Type) where
  object : Nat
  status : BindStatus := .none
  last : Option κ := none
  handler : Option (Bind κ) := none

/-- What a list screen holds, and the epoch of the last load that reached it. -/
structure ListScreen (κ τ : Type) where
  service : Option (Service κ) := none
  items : List τ := []
  loaded : Option Nat := none

section Paging

variable {κ τ : Type}

/-- One page more, unless one is still loading. -/
def Service.bind (service : Service κ) (id epoch : Nat) (uid : Uid) :
    Option (Service κ × Bind κ) :=
  if service.status = .loading then none
  else
    let b : Bind κ := ⟨id, service.object, uid, service.last, epoch⟩
    some ({ service with status := .loading, handler := some b }, b)

/-- The object of a replaced service is gone, and with it its status and cursor. -/
def ListScreen.withService (v : ListScreen κ τ) (b : Bind κ) (f : Service κ → Service κ) :
    ListScreen κ τ :=
  { v with service := v.service.map fun service =>
      if service.object = b.object then f service else service }

def ListScreen.failed (v : ListScreen κ τ) (b : Bind κ) : ListScreen κ τ :=
  v.withService b fun service => { service with status := .failed }

def ListScreen.unreadable (v : ListScreen κ τ) (b : Bind κ) (page : List κ) : ListScreen κ τ :=
  v.withService b fun service => { service with status := .failed, last := page.getLast? }

/-- A page has been merged. -/
def ListScreen.received (v : ListScreen κ τ) (b : Bind κ) (page : List κ) (epoch : Nat)
    (items : List τ) : ListScreen κ τ :=
  { v.withService b fun service => { service with status := .done, last := page.getLast? } with
    items := items
    loaded := if b.epoch = epoch then some epoch else v.loaded }

end Paging

structure Backend where
  account : Account.Service.Backend
  rooms : List Document

def Backend.currentUser (s : Backend) : Option Uid := s.account.currentUser

def Backend.epoch (s : Backend) : Nat := s.account.epoch

abbrev ArticleDocument := Nat × ArticleDoc

/-- The order in which Swift lists the keys of a dictionary. -/
structure KeyOrder where
  order : List Uid → List Uid
  perm : ∀ keys, (order keys).Perm keys

structure Screens where
  users : UsersData := {}
  chatRoomList : ListScreen Document ChatRoom := {}
  myProfile : ListScreen ArticleDocument Article := {}
  objects : Nat := 0
  binds : Nat := 0
  keys : KeyOrder

def Screens.chatRooms (d : Screens) : List ChatRoom := d.chatRoomList.items

def Screens.articles (d : Screens) : List Article := d.myProfile.items

inductive Listener
  | chatRoom (b : Bind Document)
  | uidArticle (b : Bind ArticleDocument)
  deriving DecidableEq

inductive Snapshot
  | rooms (documents : List Document)
  | articles (documents : List ArticleDocument)
  deriving DecidableEq

inductive Request
  | deleteArticle (key : Nat)

abbrev Outcome := Effect Screens Request Listener

/-- `bindChatRoom` on the service the screen holds. -/
def observeChatRoomList (s : Backend) (d : Screens) : Outcome :=
  match d.chatRoomList.service, s.currentUser with
  | some service, some uid =>
    match service.bind d.binds s.epoch uid with
    | some (service, b) => {
        client := { d with
          chatRoomList := { d.chatRoomList with service := some service }
          binds := d.binds + 1 }
        listeners := [.chatRoom b] }
    | none => { client := d }
  | _, _ => { client := d }

/-- Every appearance takes a new service object. -/
def chatRoomListWillAppear (s : Backend) (d : Screens) : Outcome :=
  observeChatRoomList s { d with
    chatRoomList := { d.chatRoomList with service := some { object := d.objects } }
    objects := d.objects + 1 }

/-- `bindUidArticle` with the unwrapped uid, which traps while nobody is signed in. -/
def observeArticle (s : Backend) (d : Screens) : Option Outcome :=
  match d.myProfile.service with
  | none => some { client := d }
  | some service =>
    match s.currentUser with
    | none => none
    | some uid =>
      match service.bind d.binds s.epoch uid with
      | some (service, b) => some {
          client := { d with
            myProfile := { d.myProfile with service := some service }
            binds := d.binds + 1 }
          listeners := [.uidArticle b] }
      | none => some { client := d }

/-- The profile screen loads once and keeps its service. -/
def myProfileDidLoad (s : Backend) (d : Screens) : Option Outcome :=
  if d.myProfile.service.isSome then none
  else observeArticle s { d with
    myProfile := { d.myProfile with service := some { object := d.objects } }
    objects := d.objects + 1 }

def myProfileWillAppear (s : Backend) (d : Screens) : Option Outcome :=
  if d.articles = [] then observeArticle s d else some { client := d }

/-- The last article of the table is about to be displayed. -/
def myProfilePaging (s : Backend) (d : Screens) : Option Outcome :=
  if d.articles = [] then none else observeArticle s d

def deleteArticle (s : Backend) (d : Screens) (row : Nat) : Option Outcome :=
  match d.articles[row]? with
  | none => none
  | some article =>
    if s.currentUser = some article.uid then
      some { client := d, requests := [.deleteArticle article.key] }
    else some { client := d }

/-- The first member the dictionary lists beside the signed-in account. -/
def otherMember (keys : KeyOrder) (me : Option Uid) (room : ChatRoom) : Option Uid :=
  (keys.order (room.members.keys.filter fun uid => some uid ≠ me)).head?

def usersOf (members : Dict Uid Bool) : List Uid :=
  (members.entries.filter fun e => e.2 = true).map Sigma.fst

/-- Neither has the signed-in account blocked the other member, nor been blocked. -/
def Unblocked (s : Backend) (d : Screens) (room : ChatRoom) : Prop :=
  ∀ other ∈ otherMember d.keys s.currentUser room,
    other ∉ usersOf d.users.userBlock ∧ other ∉ usersOf d.users.userBlocked

instance (s : Backend) (d : Screens) (room : ChatRoom) : Decidable (Unblocked s d room) :=
  inferInstanceAs (Decidable (∀ other ∈ otherMember d.keys s.currentUser room, _))

/-- `filterBlock` traps on a room with no other member. -/
def filterBlock (s : Backend) (d : Screens) : Option Screens :=
  if ∀ room ∈ d.chatRooms, (otherMember d.keys s.currentUser room).isSome then
    some { d with chatRoomList := { d.chatRoomList with
      items := d.chatRooms.filter fun room => Unblocked s d room } }
  else none

/-- The lists are emptied before the account is deleted. The profile screen's service
removes a registration that only other screens make, so its own listener stays. -/
def deleteAccount (d : Screens) : Outcome where
  client := { d with
    chatRoomList := { d.chatRoomList with
      service := d.chatRoomList.service.map fun service => { service with last := none }
      items := [] }
    myProfile := { d.myProfile with
      service := d.myProfile.service.map fun service => { service with last := none }
      items := [] } }
  removed := match d.chatRoomList.service.bind Service.handler with
    | some b => [.chatRoom b]
    | none => []

inductive Action
  | chatRoomListWillAppear
  | refresh
  | myProfileDidLoad
  | myProfileWillAppear
  | myProfilePaging
  | deleteArticle (row : Nat)
  | filterBlock
  | usersData (users : UsersData)
  | deleteAccount

def act (s : Backend) (d : Screens) : Action → Option Outcome
  | .chatRoomListWillAppear => some (Lists.chatRoomListWillAppear s d)
  | .refresh => some (observeChatRoomList s d)
  | .myProfileDidLoad => Lists.myProfileDidLoad s d
  | .myProfileWillAppear => Lists.myProfileWillAppear s d
  | .myProfilePaging => Lists.myProfilePaging s d
  | .deleteArticle row => Lists.deleteArticle s d row
  | .filterBlock => (Lists.filterBlock s d).map fun d => { client := d }
  | .usersData users => some { client := { d with users := users } }
  | .deleteAccount => some (Lists.deleteAccount d)

def serve (s : Backend) : Request → Bool → Backend × Bool
  | .deleteArticle key, true =>
    ({ s with account := s.account.mergeArticle key { status := some 0 } }, true)
  | .deleteArticle _, false => (s, false)

/-- A deleted article takes the whole list with it, which is then loaded again. -/
def handle (s : Backend) (d : Screens) : Request → Bool → Option Outcome
  | .deleteArticle _, true =>
    observeArticle s { d with myProfile := { d.myProfile with items := [] } }
  | .deleteArticle _, false => some { client := d }

def chatRoomLimit : Nat := 1000

def uidArticleLimit : Nat := 30

/-- The rooms of `b.uid` behind the cursor, in the order of their ids. -/
def roomPage (s : Backend) (b : Bind Document) : List Document :=
  ((s.rooms.filter fun r => memberOf (some ⟨r.2.members⟩) b.uid = some true ∧
    ∀ cursor ∈ b.after, cursor.1 < r.1).insertionSort fun p q => p.1 ≤ q.1).take chatRoomLimit

/-- The articles of `b.uid` behind the cursor, the newest first. -/
def articlePage (s : Backend) (b : Bind ArticleDocument) : List ArticleDocument :=
  ((articlesOf s.account.articles b.uid).filter fun a =>
    ∀ cursor ∈ b.after, Precedes cursor a).take uidArticleLimit

def snapshot (s : Backend) : Listener → Snapshot
  | .chatRoom b => .rooms (roomPage s b)
  | .uidArticle b => .articles (articlePage s b)

/-- The rooms that `bindChatRoom` hands over, if all of them parse. -/
def roomModels (s : Backend) (documents : List Document) : Option (List ChatRoom) :=
  match ChatRoom.ofDocuments s.account.clock documents with
  | .ok rooms => some ((rooms.insertionSort fun a b => a.updatedDate ≤ b.updatedDate).filter
      fun room => room.status = 1)
  | .error _ => none

def articleModels (s : Backend) (documents : List ArticleDocument) : Option (List Article) :=
  match parseAll (Article.ofDocument s.account.clock) documents with
  | .ok articles => some ((articles.insertionSort fun a b => b.createdDate ≤ a.createdDate).filter
      fun article => article.status = 1)
  | .error _ => none

/-- New rooms go before the held ones; rooms without a message are not listed. -/
def mergeRooms (models held : List ChatRoom) : List ChatRoom :=
  ((unique ChatRoom.key (models ++ held)).filter fun room => room.lastUpdateMessage ≠ some "")
    |>.insertionSort fun a b => b.updatedDate ≤ a.updatedDate

def mergeArticles (models held : List Article) : List Article :=
  ((unique Article.key (models ++ held)).filter fun article => article.status = 1)
    |>.insertionSort fun a b => b.createdDate ≤ a.createdDate

def chatRoomDelivered (s : Backend) (d : Screens) (b : Bind Document) (documents : List Document) :
    Option Outcome :=
  match roomModels s documents with
  | some models =>
    let merged := d.chatRoomList.received b documents s.epoch (mergeRooms models d.chatRooms)
    (filterBlock s { d with chatRoomList := merged }).map fun d => { client := d }
  | none => some { client := { d with chatRoomList := d.chatRoomList.unreadable b documents } }

def uidArticleDelivered (s : Backend) (d : Screens) (b : Bind ArticleDocument)
    (documents : List ArticleDocument) : Outcome :=
  match articleModels s documents with
  | some models =>
    let merged := d.myProfile.received b documents s.epoch (mergeArticles models d.articles)
    { client := { d with myProfile := merged } }
  | none => { client := { d with myProfile := d.myProfile.unreadable b documents } }

def notify (s : Backend) (d : Screens) : Listener → Option Snapshot → Option Outcome
  | .chatRoom b, some (.rooms documents) => chatRoomDelivered s d b documents
  | .uidArticle b, some (.articles documents) => some (uidArticleDelivered s d b documents)
  | .chatRoom b, none => some { client := { d with chatRoomList := d.chatRoomList.failed b } }
  | .uidArticle b, none => some { client := { d with myProfile := d.myProfile.failed b } }
  | _, _ => none

/-- What happens to the backend beside the screens: a request of the account services is
served, other devices write, rooms are added, talked in and ended. -/
inductive Change
  | account (r : Account.Service.Request) (ok : Bool)
  | other (change : Account.Service.Change)
  | rooms (documents : List Document)

def env (s : Backend) : Change → Backend
  | .account r ok => { s with account := (Account.Service.serve s.account r ok).1 }
  | .other change => { s with account := Account.Service.env s.account change }
  | .rooms documents => { s with rooms := documents }

def program : Program Backend Screens Action Change Request Bool Listener Snapshot where
  act := Lists.act
  serve := Lists.serve
  handle := Lists.handle
  snapshot := Lists.snapshot
  notify := Lists.notify
  env := Lists.env

abbrev Phone := World Backend Screens Request Bool Listener

abbrev step : Phone → Event Action Change → Option Phone := program.step

/-- A launch: the screens are empty and nobody listens. -/
def start (s : Backend) (users : UsersData) (keys : KeyOrder) : Phone where
  server := s
  client := { users := users, keys := keys }

theorem otherMember_isSome (keys : KeyOrder) (me : Option Uid) (room : ChatRoom) :
    (otherMember keys me room).isSome ↔ ∃ uid ∈ room.members, me ≠ some uid := by
  unfold otherMember
  constructor
  · intro h
    obtain ⟨uid, huid⟩ := Option.isSome_iff_exists.mp h
    have hmem := (keys.perm _).mem_iff.mp (List.mem_of_mem_head? huid)
    obtain ⟨hmember, hother⟩ := List.mem_filter.mp hmem
    exact ⟨uid, hmember, fun hme => of_decide_eq_true hother hme.symm⟩
  · rintro ⟨uid, hmember, hne⟩
    rw [List.isSome_head?]
    intro hnil
    have hother : some uid ≠ me := fun hme => hne hme.symm
    have hmem : uid ∈ room.members.keys.filter fun uid => some uid ≠ me :=
      List.mem_filter.mpr ⟨hmember, decide_eq_true hother⟩
    rw [← (keys.perm _).mem_iff, hnil] at hmem
    cases hmem

/-- The filter traps exactly on a room that nobody but the signed-in account is in. -/
theorem filterBlock_traps (s : Backend) (d : Screens) :
    filterBlock s d = none ↔
      ∃ room ∈ d.chatRooms, ∀ uid ∈ room.members, s.currentUser = some uid := by
  unfold filterBlock
  simp only [otherMember_isSome]
  constructor
  · intro h
    split at h
    · cases h
    · rename_i hsome
      push Not at hsome
      exact hsome
  · rintro ⟨room, hroom, halone⟩
    rw [if_neg]
    intro hall
    obtain ⟨uid, huid, hne⟩ := hall room hroom
    exact hne (halone uid huid)

end PlateChat.Screen.Lists
