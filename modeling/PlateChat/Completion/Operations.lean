/- PlateChat/Completion/Operations
   digest: The services' operations, one call at a time, with the turns of their callbacks. -/

import PlateChat.Foundation.Callbacks
import PlateChat.Account.Service
import PlateChat.Block.Service
import PlateChat.ChatRoom.Service
import PlateChat.Thread.Service

set_option autoImplicit false
set_option relaxedAutoImplicit false

/-!
Each operation is given one completion handler by its caller. What an operation starts and
leaves to itself, the caches that `setUserInfo` reads, the entry in a reply log and the
listeners that write articles and rooms, has no completion handler at hand; its steps are
kept as one kind that may lead to any number of its own kind.
-/

namespace PlateChat.Completion.Operations

open PlateChat.Foundation.Dictionary PlateChat.Foundation.Callbacks
open PlateChat.Model.Members PlateChat.Model.Profile PlateChat.Model.Room
open PlateChat.Block.Service (Pair Edit parsed dataOf)
open PlateChat.Thread.Service (KeyNames)

inductive Request
  | createAuth (email password : String)
  | signInCreated (email password : String)
  | setNewUser (uid : Uid) (email password : String)
  | setProfile (uid : Uid) (dic : LoginUserDoc)
  | getUpdated (uid : Uid)
  | setDeleted (uid : Uid)
  | getDeleted (uid : Uid)
  | signIn (user : LoginUser)
  | addDocument (uid otherUid : Uid)
  | getDocuments (uid otherUid : Uid)
  | addArticle (uid : Uid) (text : String) (article : Option Article)
  | markRoot (key : Nat)
  | deleteArticle (article : Article)
  | getMembers (e : Edit)
  | setMembers (e : Edit) (data : Dict Uid Bool)
  | aside
  deriving DecidableEq

inductive Listener
  | switchUser (loginEmail loginPassword : String)
  | rooms (uid otherUid : Uid)
  | aside
  deriving DecidableEq

/-- How much more of its kind an aside step starts. -/
structure Aside where
  requests : Nat := 0
  listeners : Nat := 0

/-- Whether an article was added, and whether the completion still finds its service. -/
structure Added where
  ok : Bool
  service : Bool := true

/-- What the backend may answer: a failure, or any document at all. A document is parsed at
the date that it comes with. -/
abbrev Answer : Request → Type
  | .createAuth _ _ => Option Uid
  | .getUpdated _ | .getDeleted _ => Nat × Except ServiceError (Option LoginUserDoc)
  | .getDocuments _ _ => Except ServiceError (List Document)
  | .addArticle _ _ _ => Added
  | .getMembers _ => Except ServiceError (Option MembersDoc)
  | .aside => Aside
  | .signInCreated _ _ | .setNewUser _ _ _ | .setProfile _ _ | .setDeleted _ | .signIn _
  | .addDocument _ _ | .markRoot _ | .deleteArticle _ | .setMembers _ _ => Bool

/-- What a listener may be handed: an error, or any documents. -/
abbrev Delivery : Listener → Type
  | .switchUser _ _ => Nat × Option (List (Uid × LoginUserDoc))
  | .rooms _ _ => Nat × Option (List Document)
  | .aside => Aside

abbrev Turn := Foundation.Callbacks.Turn Request Listener

/-- The completion handler is run. -/
def completion : Turn := { completions := 1 }

/-- A write fails with the completion handler, or goes on. -/
def orFail (ok : Bool) (turn : Turn) : Turn := if ok then turn else completion

/-- A failure is only printed. -/
def createAuthCompletion (email password : String) : Option Uid → Turn
  | none => {}
  | some uid => { requests := [.signInCreated email password, .setNewUser uid email password] }

/-- The sign-in completes only with its error. -/
def signInCreatedCompletion (ok : Bool) : Turn := orFail ok {}

/-- A failure is only printed. -/
def setNewUserCompletion (ok : Bool) : Turn := if ok then completion else {}

/-- The profile is there and parses. -/
def parsedProfile (uid : Uid) (date : Nat) : Except ServiceError (Option LoginUserDoc) →
    Option LoginUser
  | .ok (some d) =>
    match LoginUser.ofDocument date (uid, d) with
    | .ok user => some user
    | .error _ => none
  | _ => none

/-- Where a profile was read again, `listeners` are registered before the completion. -/
def profileCompletion (uid : Uid) (listeners : List Listener)
    (answer : Nat × Except ServiceError (Option LoginUserDoc)) : Turn :=
  match parsedProfile uid answer.1 answer.2 with
  | some _ => { completions := 1, requests := [.aside], listeners := listeners }
  | none => completion

def signInCompletion (ok : Bool) : Turn := orFail ok { completions := 1, requests := [.aside] }

/-- The first of the profiles found is signed in to. -/
def switchDelivered (date : Nat) : Option (List (Uid × LoginUserDoc)) → Turn
  | none | some [] => completion
  | some (document :: _) =>
    match LoginUser.ofDocument date document with
    | .ok user => { requests := [.signIn user] }
    | .error _ => completion

/-- No room is found: one is added. Rooms that do not parse are passed over. -/
def roomsDelivered (uid otherUid : Uid) (date : Nat) : Option (List Document) → Turn
  | some [] => { requests := [.addDocument uid otherUid] }
  | some documents =>
    match ChatRoom.ofDocuments date documents with
    | .ok (_ :: _) => completion
    | _ => {}
  | none => completion

/-- The query that follows an addition tests the empty snapshot from before it. -/
def getDocumentsCompletion : Except ServiceError (List Document) → Turn
  | .error _ => completion
  | .ok _ => {}

/-- A reply is entered into a log; a root whose copy is not marked is marked, if the service
is still there. -/
def addArticleCompletion (article : Option Article) (added : Added) : Turn :=
  if added.ok then
    match article with
    | some article =>
      if article.parentKey = "" then {
        requests := .aside :: if added.service then [.markRoot article.key] else [] }
      else { completions := 1, requests := [.aside] }
    | none => completion
  else completion

/-- The root of a thread takes the thread with it. -/
def deleteArticleCompletion (names : KeyNames) (article : Article) (ok : Bool) : Turn :=
  orFail ok {
    completions := 1
    listeners := if names.name article.key = article.parentKey then [.aside] else [] }

def asideTurn (a : Aside) : Turn where
  requests := List.replicate a.requests .aside
  listeners := List.replicate a.listeners .aside

def answered (names : KeyNames) : (r : Request) → Answer r → Turn
  | .createAuth email password, uid => createAuthCompletion email password uid
  | .signInCreated _ _, ok => signInCreatedCompletion ok
  | .setNewUser _ _ _, ok => setNewUserCompletion ok
  | .setProfile uid _, ok => orFail ok { requests := [.getUpdated uid] }
  | .getUpdated uid, answer => profileCompletion uid [.aside] answer
  | .setDeleted uid, ok => orFail ok { requests := [.getDeleted uid] }
  | .getDeleted uid, answer => profileCompletion uid [.aside, .aside] answer
  | .signIn _, ok => signInCompletion ok
  | .addDocument uid otherUid, ok => orFail ok { requests := [.getDocuments uid otherUid] }
  | .getDocuments _ _, answer => getDocumentsCompletion answer
  | .addArticle _ _ article, added => addArticleCompletion article added
  | .markRoot _, _ => completion
  | .deleteArticle article, ok => deleteArticleCompletion names article ok
  | .getMembers e, answer => { requests := [.setMembers e (dataOf e (parsed e.document answer))] }
  | .setMembers _ _, _ => completion
  | .aside, a => asideTurn a

def delivered : (l : Listener) → Delivery l → Turn
  | .switchUser _ _, (date, documents) => switchDelivered date documents
  | .rooms uid otherUid, (date, documents) => roomsDelivered uid otherUid date documents
  | .aside, a => asideTurn a

def handlers (names : KeyNames) : Handlers Request Listener Answer Delivery where
  answered := Operations.answered names
  delivered := Operations.delivered

abbrev State := Foundation.Callbacks.State Request Listener

abbrev Event := Foundation.Callbacks.Event Answer Delivery

abbrev step (names : KeyNames) : State → Event → Option State := (handlers names).step

inductive Operation
  | createUser (email password : String)
  | updateLoginUser (dic : LoginUserDoc)
  | deleteLoginUser
  | changeLoginUser (loginEmail loginPassword : String)
  | cerateChatRoom (otherUid : Uid)
  | createArticle (text : String) (article : Option Article)
  | deleteArticle (article : Article)
  | addBlockUser (p : Pair)
  | releaseBlockUser (p : Pair)
  | addBlockedUser (p : Pair)
  | releaseBlockedUser (p : Pair)

def cerateChatRoom (uid otherUid : Uid) : Turn :=
  if uid = otherUid then {} else { listeners := [.rooms uid otherUid] }

def deleteArticle (uid : Uid) (article : Article) : Turn :=
  if article.uid ≠ uid then {} else { requests := [.deleteArticle article] }

def updateMembers (e : Edit) : Turn := { requests := [.getMembers e] }

def call (uid : Uid) : Operation → Turn
  | .createUser email password => { requests := [.createAuth email password] }
  | .updateLoginUser dic => { requests := [.setProfile uid dic] }
  | .deleteLoginUser => { requests := [.setDeleted uid] }
  | .changeLoginUser loginEmail loginPassword =>
    { listeners := [.switchUser loginEmail loginPassword] }
  | .cerateChatRoom otherUid => Operations.cerateChatRoom uid otherUid
  | .createArticle text article => { requests := [.addArticle uid text article] }
  | .deleteArticle article => Operations.deleteArticle uid article
  | .addBlockUser p => updateMembers ⟨.userBlock, p, true, false⟩
  | .releaseBlockUser p => updateMembers ⟨.userBlock, p, false, false⟩
  | .addBlockedUser p => updateMembers ⟨.userBlocked, p, true, false⟩
  | .releaseBlockedUser p => updateMembers ⟨.userBlocked, p, false, false⟩

def start (uid : Uid) (op : Operation) : State := begun (call uid op)

def ofRoom : ChatRoom.Service.Request → Request
  | .addDocument call => .addDocument call.uid call.otherUid
  | .getDocuments call => .getDocuments call.uid call.otherUid
  | .endRoom _ => .aside

def ofArticle (uid : Uid) (text : String) : Thread.Service.Request → Request
  | .addArticle _ article => .addArticle uid text article
  | .markRoot key => .markRoot key
  | .deleteArticle article => .deleteArticle article
  | .endArticle _ => .aside

def ofBlock : Block.Service.Request → Request
  | .get e => .getMembers e
  | .set e data => .setMembers e data

def ofAccount : Account.Service.Request → Request
  | .createAuth email password => .createAuth email password
  | .signInCreated email password => .signInCreated email password
  | .setNewUser uid email password => .setNewUser uid email password
  | .setProfile uid dic => .setProfile uid dic
  | .setDeleted uid => .setDeleted uid
  | .getProfile uid .updateLoginUser => .getUpdated uid
  | .getProfile uid .deleteLoginUser => .getDeleted uid
  | .signIn _ user => .signIn user
  | _ => .aside

section Services

/-- A room's turn hands over as many results, and issues the same requests. -/
def Takes (turn : Turn) (c : ChatRoom.Service.Devices) (e : ChatRoom.Service.Outcome) : Prop :=
  e.client.completed.length = c.completed.length + turn.completions ∧
    e.requests.map ofRoom = turn.requests

theorem createDelivered_takes (s : RoomStore) (c : ChatRoom.Service.Devices)
    (call : ChatRoom.Service.CreateCall) (documents : Option (List Document)) :
    Takes (roomsDelivered call.uid call.otherUid s.clock documents) c
      (ChatRoom.Service.createDelivered s c call documents) := by
  rcases documents with _ | _ | ⟨document, documents⟩
  · exact ⟨rfl, rfl⟩
  · exact ⟨rfl, rfl⟩
  · dsimp only [roomsDelivered, ChatRoom.Service.createDelivered]
    rcases ChatRoom.ofDocuments s.clock (document :: documents) with _ | _ | _
    · exact ⟨rfl, rfl⟩
    · exact ⟨rfl, rfl⟩
    · exact ⟨rfl, rfl⟩

theorem room_handle_takes (names : KeyNames) (c : ChatRoom.Service.Devices)
    (call : ChatRoom.Service.CreateCall) :
    (∀ ok, ∃ e, ChatRoom.Service.handle c (.addDocument call) (.written ok) = some e ∧
      Takes (answered names (.addDocument call.uid call.otherUid) ok) c e) ∧
    ∀ snapshot, ∃ e, ChatRoom.Service.handle c (.getDocuments call) (.documents snapshot) = some e ∧
      Takes (answered names (.getDocuments call.uid call.otherUid) snapshot) c e := by
  refine ⟨fun ok => ⟨_, rfl, ?_⟩, fun snapshot => ⟨_, rfl, ?_⟩⟩
  · cases ok <;> exact ⟨rfl, rfl⟩
  · cases snapshot <;> exact ⟨rfl, rfl⟩

/-- An article's turn issues the same requests, after the entry in the reply log. -/
theorem article_turn (names : KeyNames) (c : Thread.Service.Clients) (uid : Uid) (text : String)
    (article : Option Article) :
    (answered names (.addArticle uid text article) ⟨true, c.service⟩).requests =
      (if article.isSome then [.aside] else []) ++
        (Thread.Service.addCompletion c article).requests.map (ofArticle uid text) := by
  cases article with
  | none => rfl
  | some article =>
    dsimp only [answered, addArticleCompletion, Thread.Service.addCompletion]
    by_cases hroot : article.parentKey = ""
    · rw [if_pos hroot, if_pos hroot]
      cases c.service <;> rfl
    · rw [if_neg hroot, if_neg hroot]
      rfl

theorem block_turn (names : KeyNames) (c : Block.Service.Devices) (e : Edit)
    (document : Except ServiceError (Option MembersDoc)) :
    (Block.Service.fetchCompletion c e document).requests.map ofBlock =
      (answered names (.getMembers e) document).requests := rfl

/-- The account's turns issue the same requests, up to what the callers go on with. -/
theorem account_turn (names : KeyNames) (s : Account.Service.Backend)
    (d : Account.Service.Device) :
    (∀ email password uid,
      (Account.Service.createAuthCompletion d email password uid).requests.map ofAccount =
        (answered names (.createAuth email password) uid).requests) ∧
    (∀ uid dic ok, ∃ e, Account.Service.handle s d (.setProfile uid dic) (.written ok) = some e ∧
      e.requests.map ofAccount = (answered names (.setProfile uid dic) ok).requests) ∧
    ∀ uid ok, ∃ e, Account.Service.handle s d (.setDeleted uid) (.written ok) = some e ∧
      e.requests.map ofAccount = (answered names (.setDeleted uid) ok).requests := by
  refine ⟨fun email password uid => ?_, fun uid dic ok => ⟨_, rfl, ?_⟩,
    fun uid ok => ⟨_, rfl, ?_⟩⟩
  · cases uid <;> rfl
  · cases ok <;> rfl
  · cases ok <;> rfl

theorem switch_turn (s : Account.Service.Backend) (d : Account.Service.Device) (n : Nat)
    (documents : List (Uid × LoginUserDoc)) :
    (Account.Service.switchDelivered s d n documents).requests.map ofAccount =
      (switchDelivered s.clock (some documents)).requests := by
  cases documents with
  | nil => rfl
  | cons document documents =>
    dsimp only [switchDelivered, Account.Service.switchDelivered]
    cases LoginUser.ofDocument s.clock document <;> rfl

theorem parsedProfile_eq (s : Account.Service.Backend) (uid : Uid)
    (document : Except ServiceError (Option LoginUserDoc)) :
    Account.Service.parsedProfile s uid document = parsedProfile uid s.clock document := rfl

end Services

end PlateChat.Completion.Operations
