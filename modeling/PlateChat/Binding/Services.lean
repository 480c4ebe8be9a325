/- PlateChat/Binding/Services
   digest: The three paging services: what a bind registers, what a snapshot does, what is removed. -/

import PlateChat.Foundation.Listening
import PlateChat.Model.Message
import PlateChat.Model.Profile
import PlateChat.Model.Room
import PlateChat.Screen.Lists

set_option autoImplicit false
set_option relaxedAutoImplicit false

/-!
Each bind function asks for one page, keeps the registration in one of the fields of the
service, and moves one of its cursors when the page arrives. What the callbacks write to
outside of the service is a parameter, and so is each callback that a caller passes.
-/

namespace PlateChat.Binding.Services

open PlateChat.Foundation.Dictionary PlateChat.Foundation.Listening
open PlateChat.Model.Members PlateChat.Model.Profile PlateChat.Model.Room PlateChat.Model.Message
open PlateChat.Screen.Lists (BindStatus)

inductive FieldValue
  | int (value : Int)
  | string (value : String)
  | bool (value : Bool)
  deriving DecidableEq

structure Query (D : Type) where
  collection : String
  whereField : List (String × FieldValue)
  descending : Option String := none
  startAfter : Option D := none
  limit : Option Nat := none
  includeMetadataChanges : Bool := true
  deriving DecidableEq

/-- What a snapshot listener is handed; `date` is the moment of the call. -/
inductive Answer (D : Type)
  | error
  | nothing
  | snapshot (date : Nat) (documents : List D)
  deriving DecidableEq

inductive BindError
  | error
  | noExistsError
  deriving DecidableEq

abbrev Outcome (M : Type) := Except BindError (List M)

/-- An instance of a service, and the `lists` its callbacks write to. -/
structure Service (H C D Q L : Type) where
  handles : Handles H Q := .none
  cursors : C → Option D := fun _ => none
  status : BindStatus := .none
  lists : L

/-- The page that a bind function asks for, and the cursor that its snapshots move. -/
structure Page (C D M L : Type) where
  query : Query D
  cursor : Option C
  callbackHandler : Outcome M → L → L

namespace Service

variable {H C D M Q L : Type}

/-- No second page is asked for while one is loading. -/
def bind [DecidableEq H] (s : Service H C D Q L) (h : H) (q : Q) : Service H C D Q L :=
  if s.status = .loading then s
  else { s with handles := s.handles.register h q, status := .loading }

/-- The snapshot of a page, whose documents `models` parses. -/
def receive [DecidableEq C] (models : Nat → List D → Option (List M)) (page : Page C D M L)
    (s : Service H C D Q L) : Answer D → Service H C D Q L
  | .error =>
    { s with status := .failed, lists := page.callbackHandler (.error .error) s.lists }
  | .nothing =>
    { s with status := .failed, lists := page.callbackHandler (.error .noExistsError) s.lists }
  | .snapshot date documents =>
    let s : Service H C D Q L := match page.cursor with
      | some c => { s with cursors := Function.update s.cursors c documents.getLast? }
      | none => s
    match models date documents with
    | some ms => { s with status := .done, lists := page.callbackHandler (.ok ms) s.lists }
    | none => { s with status := .failed, lists := page.callbackHandler (.error .error) s.lists }

theorem receive_handles [DecidableEq C] (models : Nat → List D → Option (List M))
    (page : Page C D M L) (s : Service H C D Q L) (a : Answer D) :
    (s.receive models page a).handles = s.handles := by
  rcases a with _ | _ | ⟨date, documents⟩
  · rfl
  · rfl
  · unfold receive
    dsimp only
    split <;> split <;> rfl

end Service

section Articles

inductive ArticleHandler
  | bindArticleHandler
  | bindArticleListHandler
  | bindUidArticleListHandler
  deriving DecidableEq

inductive ArticleCursor
  | lastArticleDocument
  | lastArticle
  | lastUidArticle
  deriving DecidableEq

abbrev ArticleDocument := Nat × ArticleDoc

abbrev ArticlePage (L : Type) := Page ArticleCursor ArticleDocument Article L

abbrev ArticleService (L : Type) :=
  Service ArticleHandler ArticleCursor ArticleDocument (ArticlePage L) L

variable {L : Type}

/-- Thirty live articles, the newest first. -/
def articleQuery (whereField : List (String × FieldValue)) (startAfter : Option ArticleDocument) :
    Query ArticleDocument where
  collection := "/article/"
  whereField := whereField ++ [("status", .int 1)]
  descending := some "created_at"
  startAfter := startAfter
  limit := some 30

def articleModels (date : Nat) (documents : List ArticleDocument) : Option (List Article) :=
  match parseAll (Article.ofDocument date) documents with
  | .ok articles => some ((articles.insertionSort fun a b => b.createdDate ≤ a.createdDate).filter
      fun article => article.status = 1)
  | .error _ => none

namespace ArticleService

def bindArticle (s : ArticleService L) (callbackHandler : Outcome Article → L → L) :
    ArticleService L :=
  s.bind .bindArticleHandler {
    query := articleQuery [] (s.cursors .lastArticleDocument)
    cursor := some .lastArticleDocument
    callbackHandler := callbackHandler }

/-- The newest page again, through the field of `bindArticle` and without a cursor. -/
def bindNewArticle (s : ArticleService L) (callbackHandler : Outcome Article → L → L) :
    ArticleService L :=
  s.bind .bindArticleHandler {
    query := articleQuery [] none
    cursor := none
    callbackHandler := callbackHandler }

def bindUidArticle (s : ArticleService L) (uid : Uid)
    (callbackHandler : Outcome Article → L → L) : ArticleService L :=
  s.bind .bindUidArticleListHandler {
    query := articleQuery [("uid", .string uid)] (s.cursors .lastUidArticle)
    cursor := some .lastUidArticle
    callbackHandler := callbackHandler }

def bindArticleList (s : ArticleService L) (article : Article)
    (callbackHandler : Outcome Article → L → L) : ArticleService L :=
  s.bind .bindArticleListHandler {
    query := articleQuery [("parentKey", .string article.parentKey)] (s.cursors .lastArticle)
    cursor := some .lastArticle
    callbackHandler := callbackHandler }

/-- One of the three fields is removed; all three cursors are reset. -/
def removeBindArticleList (s : ArticleService L) : ArticleService L :=
  { s with
    handles := s.handles.remove .bindArticleListHandler
    cursors := fun _ => none }

end ArticleService

end Articles

section ChatMessages

inductive ChatMessageHandler
  | bindTalkHandler
  | bindUpdateChatHandler
  deriving DecidableEq

inductive ChatMessageCursor
  | lastChatMessageDocument
  deriving DecidableEq

abbrev ChatMessageDocument := Nat × ChatMessageDoc

/-- What the service writes to the backend. -/
inductive ChatRequest
  | addMessage (room : Nat) (sender : Uid) (text : String) (imageURL : Option String)
      (unreads : Dict Uid Bool)
  | unreadCounts (room : Nat) (counts : Dict Uid Int)
  deriving DecidableEq

/-- What the callbacks of the service write to: the caller's lists, and the backend. -/
structure ChatOutput (L : Type) where
  lists : L
  requests : List ChatRequest := []

abbrev ChatMessagePage (L : Type) :=
  Page ChatMessageCursor ChatMessageDocument ChatMessage (ChatOutput L)

inductive ChatMessageListener (L : Type)
  | talk (page : ChatMessagePage L)
  | unread (query : Query ChatMessageDocument) (uid : Uid) (unreadCounts : Dict Uid Int)

abbrev ChatMessageService (L : Type) :=
  Service ChatMessageHandler ChatMessageCursor ChatMessageDocument (ChatMessageListener L)
    (ChatOutput L)

variable {L : Type}

def messagesPath (chatRoom : ChatRoom) : String :=
  "/chat_room/" ++ toString chatRoom.key ++ "/messages/"

def chatMessageModels (date : Nat) (documents : List ChatMessageDocument) :
    Option (List ChatMessage) :=
  match parseAll (ChatMessage.ofDocument date) documents with
  | .ok messages => some (messages.insertionSort fun a b => a.sentDate ≤ b.sentDate)
  | .error _ => none

namespace ChatMessageService

/-- The next page behind the cursor. -/
def talkPage (chatRoom : ChatRoom) (s : ChatMessageService L)
    (callbackHandler : Outcome ChatMessage → L → L) : ChatMessagePage L where
  query := {
    collection := messagesPath chatRoom
    whereField := []
    descending := some "created_at"
    startAfter := s.cursors .lastChatMessageDocument
    limit := some 20 }
  cursor := some .lastChatMessageDocument
  callbackHandler := fun outcome o => { o with lists := callbackHandler outcome o.lists }

def bindChatMessage (chatRoom : ChatRoom) (currentUser : Option Uid) (s : ChatMessageService L)
    (callbackHandler : Outcome ChatMessage → L → L) : ChatMessageService L :=
  match currentUser with
  | some _ => s.bind .bindTalkHandler (.talk (talkPage chatRoom s callbackHandler))
  | none => s

/-- Neither looks at the status nor changes it. -/
def updateChatUnreadCounts (chatRoom : ChatRoom) (currentUser : Option Uid)
    (s : ChatMessageService L) : ChatMessageService L :=
  match currentUser, chatRoom.unreadCounts with
  | some uid, some unreadCounts =>
    if unreadCounts.lookup uid = some 0 then s
    else { s with handles := s.handles.register .bindUpdateChatHandler (.unread {
      collection := messagesPath chatRoom
      whereField := [("unreads." ++ uid, .bool true)]
      includeMetadataChanges := false } uid unreadCounts) }
  | _, _ => s

def removeSnapshotListener (s : ChatMessageService L) : ChatMessageService L :=
  { s with handles := (s.handles.remove .bindTalkHandler).remove .bindUpdateChatHandler }

/-- The number of unread messages never grows here. -/
def unreadReceived (chatRoom : ChatRoom) (uid : Uid) (unreadCounts : Dict Uid Int)
    (s : ChatMessageService L) : Answer ChatMessageDocument → ChatMessageService L
  | .snapshot _ documents =>
    match unreadCounts.lookup uid with
    | some count =>
      let unread : Int := if (documents.length : Int) < count then documents.length else count
      { s with lists := { s.lists with
          requests := s.lists.requests ++
            [.unreadCounts chatRoom.key (unreadCounts.insert uid unread)] } }
    | none => s
  | .error => s
  | .nothing => s

def notify (chatRoom : ChatRoom) (listener : ChatMessageListener L)
    (a : Answer ChatMessageDocument) (s : ChatMessageService L) : ChatMessageService L :=
  match listener with
  | .talk page => s.receive chatMessageModels page a
  | .unread _ uid unreadCounts => unreadReceived chatRoom uid unreadCounts s a

theorem notify_handles (chatRoom : ChatRoom) (listener : ChatMessageListener L)
    (a : Answer ChatMessageDocument) (s : ChatMessageService L) :
    (notify chatRoom listener a s).handles = s.handles := by
  rcases listener with page | ⟨query, uid, unreadCounts⟩
  · exact s.receive_handles chatMessageModels page a
  · rcases a with _ | _ | ⟨date, documents⟩
    · rfl
    · rfl
    · show (unreadReceived chatRoom uid unreadCounts s _).handles = _
      unfold unreadReceived
      dsimp only
      split <;> rfl

end ChatMessageService

end ChatMessages

section ChatRooms

inductive ChatRoomHandler
  | bindChatRoomHandler
  deriving DecidableEq

inductive ChatRoomCursor
  | lastChatRoomDocument
  deriving DecidableEq

abbrev ChatRoomPage (L : Type) := Page ChatRoomCursor Document ChatRoom L

abbrev ChatRoomService (L : Type) :=
  Service ChatRoomHandler ChatRoomCursor Document (ChatRoomPage L) L

variable {L : Type}

def chatRoomModels (date : Nat) (documents : List Document) : Option (List ChatRoom) :=
  match ChatRoom.ofDocuments date documents with
  | .ok rooms => some ((rooms.insertionSort fun a b => a.updatedDate ≤ b.updatedDate).filter
      fun room => room.status = 1)
  | .error _ => none

namespace ChatRoomService

def chatRoomPage (s : ChatRoomService L) (uid : Uid)
    (callbackHandler : Outcome ChatRoom → L → L) : ChatRoomPage L where
  query := {
    collection := "/chat_room/"
    whereField := [("members." ++ uid, .bool true)]
    startAfter := s.cursors .lastChatRoomDocument
    limit := some 1000 }
  cursor := some .lastChatRoomDocument
  callbackHandler := callbackHandler

def bindChatRoom (currentUser : Option Uid) (s : ChatRoomService L)
    (callbackHandler : Outcome ChatRoom → L → L) : ChatRoomService L :=
  match currentUser with
  | some uid => s.bind .bindChatRoomHandler (chatRoomPage s uid callbackHandler)
  | none => s

def removeBindChatRoomList (s : ChatRoomService L) : ChatRoomService L :=
  { s with
    handles := s.handles.remove .bindChatRoomHandler
    cursors := fun _ => none }

end ChatRoomService

end ChatRooms

end PlateChat.Binding.Services
