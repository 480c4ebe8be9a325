/- PlateChat/Binding/Hosting
   digest: What the backend finds for the query of a page, and how the services use pages. -/

import Mathlib.Data.Prod.Lex
import Mathlib.Data.String.Basic
import Mathlib.Order.WithBot
import PlateChat.Binding.Users
import PlateChat.Foundation.Paging

set_option autoImplicit false
set_option relaxedAutoImplicit false

namespace PlateChat.Binding.Hosting

open PlateChat.Foundation.Listening PlateChat.Foundation.Paging PlateChat.Model.Members
open PlateChat.Model.Profile PlateChat.Model.Room PlateChat.Model.Message
open PlateChat.Binding.Services PlateChat.Binding.Removal PlateChat.Binding.Users

/-- A collection as queries see it: what a field holds, whether the dates of the order are
there, and the place in the order, where ids tell equal dates apart. A date that the server
has still to set is there, and is the newest. The SDK orders such dates by the local time of
their writes and refuses to start a query at one; here ids tell them apart too and a query
starts there, so pages are those of the SDK where no date of the collection is pending. -/
structure Collection (K V ρ : Type) where
  field : K × V → String → Option FieldValue
  dated : K × V → Bool
  rank : K × V → ρ
  apart : ∀ a b, rank a = rank b → a.1 = b.1

/-- What a collection holds: no two documents have the same id. -/
structure Contents (K V : Type) where
  documents : List (K × V)
  keyed : (documents.map Prod.fst).Nodup

namespace Collection

variable {K V ρ : Type} [LinearOrder ρ] (col : Collection K V ρ)

def selects (q : Query (K × V)) (d : K × V) : Bool :=
  col.dated d && q.whereField.all fun condition => col.field d condition.1 = some condition.2

def selected (q : Query (K × V)) (documents : List (K × V)) : List (K × V) :=
  documents.filter (col.selects q)

def fetch (q : Query (K × V)) (documents : List (K × V)) : List (K × V) :=
  match q.limit with
  | some limit => page col.rank limit q.startAfter (col.selected q documents)
  | none => behind col.rank q.startAfter (col.selected q documents)

omit [LinearOrder ρ] in
theorem selected_keyed (q : Query (K × V)) (contents : Contents K V) :
    ((col.selected q contents.documents).map Prod.fst).Nodup :=
  contents.keyed.sublist (List.filter_sublist.map _)

omit [LinearOrder ρ] in
theorem selected_distinct (q : Query (K × V)) (contents : Contents K V) :
    ((col.selected q contents.documents).map col.rank).Nodup := by
  have hkeyed := List.pairwise_map.mp (col.selected_keyed q contents)
  exact List.pairwise_map.mpr (hkeyed.imp fun hne heq => hne (col.apart _ _ heq))

theorem fetch_of_limit {q : Query (K × V)} {limit : Nat} (h : q.limit = some limit)
    (documents : List (K × V)) :
    col.fetch q documents = page col.rank limit q.startAfter (col.selected q documents) := by
  rw [fetch, h]

theorem mem_of_fetch {q : Query (K × V)} {documents : List (K × V)} {d : K × V}
    (h : d ∈ col.fetch q documents) : d ∈ documents := by
  have hbehind : d ∈ behind col.rank q.startAfter (col.selected q documents) := by
    unfold fetch at h
    split at h
    · exact mem_behind_of_page h
    · exact h
  exact List.mem_of_mem_filter (mem_behind.mp hbehind).1

/-- The query reaches as far as the document `f`: its limit leaves room for all it finds before
`f`, and it finds one there or behind. -/
def Reaches (q : Query (K × V)) (documents : List (K × V)) (f : K × V) : Prop :=
  let candidates := behind col.rank q.startAfter (col.selected q documents)
  (∀ limit ∈ q.limit, candidates.countP (fun x => col.rank x < col.rank f) < limit) ∧
    ∃ x ∈ candidates, col.rank f ≤ col.rank x

theorem le_last_fetch_iff {q : Query (K × V)} {documents : List (K × V)} {d f : K × V}
    (last : (col.fetch q documents).getLast? = some d) :
    col.rank f ≤ col.rank d ↔ col.Reaches q documents f := by
  unfold Reaches
  rcases hlimit : q.limit with _ | limit
  · -- without a limit the page is as long as what it is chosen from
    rw [fetch, hlimit] at last
    dsimp only at last
    have hpage : (page col.rank (behind col.rank q.startAfter (col.selected q documents)).length
        q.startAfter (col.selected q documents)).getLast? = some d := by
      rw [page, List.take_length]
      exact last
    rw [le_last_iff hpage]
    refine and_congr_left fun hfar => ?_
    obtain ⟨x, hx, hfx⟩ := hfar
    refine iff_of_true (lt_of_le_of_ne List.countP_le_length fun hall => ?_) fun limit hl => ?_
    · exact not_lt.mpr hfx (of_decide_eq_true (List.countP_eq_length.mp hall x hx))
    · cases hl
  · rw [col.fetch_of_limit hlimit] at last
    rw [le_last_iff last]
    refine and_congr_left fun _ => ⟨fun h l hl => ?_, fun h => h limit rfl⟩
    obtain rfl := Option.some.inj hl
    exact h

end Collection

/-- The newest first, and of equal dates the last id. -/
abbrev DateRank (K : Type) := (WithTop ℕ)ᵒᵈ ×ₗ Kᵒᵈ

abbrev LoginRank := (WithTop ℕ)ᵒᵈ ×ₗ DateRank Uid

def dateRank {K : Type} (createdAt : Option Nat) (id : K) : DateRank K :=
  toLex (OrderDual.toDual createdAt, OrderDual.toDual id)

theorem dateRank_apart {K : Type} {a b : Option Nat} {i j : K}
    (h : dateRank a i = dateRank b j) : i = j :=
  congrArg (fun r : DateRank K => OrderDual.ofDual (ofLex r).2) h

def articles (dated : ArticleDocument → Bool) : Collection Nat ArticleDoc (DateRank Nat) where
  field d name :=
    if name = "uid" then d.2.uid.map .string
    else if name = "status" then d.2.status.map .int
    else if name = "parentKey" then d.2.parentKey.map .string
    else none
  dated := dated
  rank d := dateRank d.2.createdAt d.1
  apart _ _ h := dateRank_apart h

/-- The pages of a room test no field. -/
def messages (dated : ChatMessageDocument → Bool) :
    Collection Nat ChatMessageDoc (DateRank Nat) where
  field _ _ := none
  dated := dated
  rank d := dateRank d.2.createdAt d.1
  apart _ _ h := dateRank_apart h

/-- Ordered by the last login, then by the date of the account. -/
def loginUsers (dated : LoginUserDocument → Bool) : Collection Uid LoginUserDoc LoginRank where
  field d name := if name = "status" then d.2.status.map .int else none
  dated := dated
  rank d := toLex (OrderDual.toDual d.2.lastLoginDate, dateRank d.2.createdAt d.1)
  apart _ _ h := dateRank_apart (congrArg (fun r : LoginRank => (ofLex r).2) h)

/-- Ordered by id; `members.uid` is a field. -/
def chatRooms : Collection Nat ChatRoomDoc Nat where
  field d name :=
    if "members.".toList.isPrefixOf name.toList then
      (memberOf (some ⟨d.2.members⟩) (String.ofList (name.toList.drop 8))).map .bool
    else none
  dated _ := true
  rank d := d.1
  apart _ _ h := h

section Pager

variable {H C D M Q L ν : Type} [DecidableEq C]

theorem receive_status (models : Nat → List D → Option (List M)) (page : Page C D M L)
    (s : Service H C D Q L) (a : Answer D) : (s.receive models page a).status ≠ .loading := by
  rcases a with _ | _ | ⟨date, documents⟩
  · exact fun h => nomatch h
  · exact fun h => nomatch h
  · unfold Service.receive
    dsimp only
    split <;> split <;> exact fun h => nomatch h

/-- A snapshot moves the cursor of its page to its last document, readable or not. -/
theorem receive_cursors (models : Nat → List D → Option (List M)) (page : Page C D M L)
    (s : Service H C D Q L) (date : Nat) (documents : List D) :
    (s.receive models page (.snapshot date documents)).cursors = match page.cursor with
      | some c => Function.update s.cursors c documents.getLast?
      | none => s.cursors := by
  unfold Service.receive
  dsimp only
  split <;> split <;> simp only [*]

theorem receive_lists (models : Nat → List D → Option (List M)) (page : Page C D M L)
    (s : Service H C D Q L) (date : Nat) (documents : List D) :
    (s.receive models page (.snapshot date documents)).lists = match models date documents with
      | some ms => page.callbackHandler (.ok ms) s.lists
      | none => page.callbackHandler (.error .error) s.lists := by
  unfold Service.receive
  dsimp only
  split <;> split <;> simp only [*]

variable [DecidableEq H]

/-- How a service pages: which of its listeners hold a page, and what a call asks for unless
a page is loading. The other calls reset cursors at most, and the other listeners nothing. -/
structure Pager (H C D M Q L ν : Type) [DecidableEq H] [DecidableEq C] where
  api : Api H C D Q L ν
  models : Nat → List D → Option (List M)
  page : Q → Option (Page C D M L)
  asks : Service H C D Q L → ν → Option (H × Q)
  asked : ∀ s v h q, asks s v = some (h, q) → api.call s v = s.bind h q ∧ (page q).isSome
  other : ∀ s v, asks s v = none → (api.call s v).status = s.status ∧
    ∀ c, (api.call s v).cursors c = s.cursors c ∨ (api.call s v).cursors c = none
  receives : ∀ q p, page q = some p → ∀ a s, api.notify q a s = s.receive models p a
  ignores : ∀ q, page q = none → ∀ a s,
    (api.notify q a s).status = s.status ∧ (api.notify q a s).cursors = s.cursors

namespace Pager

variable (P : Pager H C D M Q L ν) {s : Service H C D Q L} {n : Nat} {a : Answer D}

/-- The page that the listener `n` holds. -/
def pageOf (s : Service H C D Q L) (n : Nat) : Option (Page C D M L) :=
  (s.handles.queryOf n).bind P.page

/-- An error ends the listener. -/
def told (s : Service H C D Q L) (n : Nat) : Answer D → Service H C D Q L
  | .error => { s with handles := s.handles.fail n }
  | .nothing => s
  | .snapshot _ _ => s

theorem deliver_of_query {q : Q} (active : s.handles.Active n) (hq : s.handles.queryOf n = some q) :
    P.api.deliver s n a = P.api.notify q a (told s n a) := by
  obtain ⟨l, hl, hactive⟩ := active
  obtain ⟨l', hl', rfl⟩ := Handles.queryOf_eq_some.mp hq
  obtain rfl := Option.some.inj ((Option.mem_def.mp hl).symm.trans hl')
  unfold Api.deliver
  rw [hl']
  dsimp only
  rw [if_pos hactive]
  cases a <;> rfl

theorem deliver_of_page {p : Page C D M L} (active : s.handles.Active n)
    (hp : P.pageOf s n = some p) :
    P.api.deliver s n a = (told s n a).receive P.models p a := by
  obtain ⟨q, hq, hpage⟩ := Option.bind_eq_some_iff.mp hp
  rw [P.deliver_of_query active hq, P.receives q p hpage]

theorem deliver_other (h : ¬ s.handles.Active n ∨ P.pageOf s n = none) :
    (P.api.deliver s n a).status = s.status ∧ (P.api.deliver s n a).cursors = s.cursors := by
  by_cases hactive : s.handles.Active n
  · obtain ⟨q, hq⟩ := Handles.queryOf_of_active hactive
    have hpage : P.page q = none := by
      have hnone := h.resolve_left (not_not.mpr hactive)
      rwa [pageOf, hq, Option.bind_some] at hnone
    rw [P.deliver_of_query hactive hq]
    have hignores := P.ignores q hpage a (told s n a)
    cases a <;> exact hignores
  · rw [P.api.deliver_inactive hactive]
    exact ⟨rfl, rfl⟩

theorem pageOf_deliver {m : Nat} : P.pageOf (P.api.deliver s n a) m = P.pageOf s m := by
  unfold pageOf
  rcases P.api.deliver_handles s n a with h | h
  · rw [h]
  · rw [h, Handles.queryOf_fail]

theorem pageOf_call {v : ν} {m : Nat} (hm : m < s.handles.listeners.length) :
    P.pageOf (P.api.call s v) m = P.pageOf s m := by
  unfold pageOf
  rw [queryOf_of_takes (P.api.takes s v) hm]

theorem lt_of_pageOf {p : Page C D M L} (h : P.pageOf s n = some p) :
    n < s.handles.listeners.length := by
  obtain ⟨q, hq, _⟩ := Option.bind_eq_some_iff.mp h
  exact Handles.lt_of_queryOf hq

theorem call_of_loading {v : ν} {h : H} {q : Q} (hasks : P.asks s v = some (h, q))
    (loading : s.status = .loading) : P.api.call s v = s := by
  rw [(P.asked s v h q hasks).1, Service.bind, if_pos loading]

theorem call_of_asks {v : ν} {h : H} {q : Q} (hasks : P.asks s v = some (h, q))
    (idle : s.status ≠ .loading) :
    P.api.call s v = { s with handles := s.handles.register h q, status := .loading } := by
  rw [(P.asked s v h q hasks).1, Service.bind, if_neg idle]

theorem call_cursors (s : Service H C D Q L) (v : ν) (c : C) :
    (P.api.call s v).cursors c = s.cursors c ∨ (P.api.call s v).cursors c = none := by
  rcases hasks : P.asks s v with _ | ⟨h, q⟩
  · exact (P.other s v hasks).2 c
  · by_cases hloading : s.status = .loading
    · rw [P.call_of_loading hasks hloading]
      exact .inl rfl
    · rw [P.call_of_asks hasks hloading]
      exact .inl rfl

/-- What the listener `n` finds among the documents. -/
def found {K V ρ : Type} [LinearOrder ρ] (P : Pager H C (K × V) M Q L ν) (col : Collection K V ρ)
    (documents : List (K × V)) (s : Service H C (K × V) Q L) (n : Nat) : List (K × V) :=
  match P.pageOf s n with
  | some p => col.fetch p.query documents
  | none => []

theorem found_of_page {K V ρ : Type} [LinearOrder ρ] (P : Pager H C (K × V) M Q L ν)
    (col : Collection K V ρ) {documents : List (K × V)} {s : Service H C (K × V) Q L}
    {p : Page C (K × V) M L} (h : P.pageOf s n = some p) :
    P.found col documents s n = col.fetch p.query documents := by
  rw [found, h]

end Pager

end Pager

section Services

variable {L : Type}

def articlePager : Pager ArticleHandler ArticleCursor ArticleDocument Article (ArticlePage L) L
    (ArticleCall L) where
  api := articleApi
  models := articleModels
  page := some
  asks s
    | .bindArticle callbackHandler => some (.bindArticleHandler, {
        query := articleQuery [] (s.cursors .lastArticleDocument)
        cursor := some .lastArticleDocument
        callbackHandler := callbackHandler })
    | .bindNewArticle callbackHandler => some (.bindArticleHandler, {
        query := articleQuery [] none
        cursor := none
        callbackHandler := callbackHandler })
    | .bindUidArticle uid callbackHandler => some (.bindUidArticleListHandler, {
        query := articleQuery [("uid", .string uid)] (s.cursors .lastUidArticle)
        cursor := some .lastUidArticle
        callbackHandler := callbackHandler })
    | .bindArticleList article callbackHandler => some (.bindArticleListHandler, {
        query := articleQuery [("parentKey", .string article.parentKey)] (s.cursors .lastArticle)
        cursor := some .lastArticle
        callbackHandler := callbackHandler })
    | .removeBindArticleList => none
  asked s v h q hasks := by
    cases v <;> cases hasks <;> exact ⟨rfl, rfl⟩
  other s v hasks := by
    cases v with
    | removeBindArticleList => exact ⟨rfl, fun _ => .inr rfl⟩
    | _ => cases hasks
  receives q p hp a s := by
    cases hp
    rfl
  ignores q hq := nomatch hq

def chatMessagePager (chatRoom : ChatRoom) : Pager ChatMessageHandler ChatMessageCursor
    ChatMessageDocument ChatMessage (ChatMessageListener L) (ChatOutput L) (ChatMessageCall L) where
  api := chatMessageApi chatRoom
  models := chatMessageModels
  page
    | .talk page => some page
    | .unread _ _ _ => none
  asks s
    | .bindChatMessage (some _) callbackHandler =>
      some (.bindTalkHandler, .talk (ChatMessageService.talkPage chatRoom s callbackHandler))
    | .bindChatMessage none _ => none
    | .updateChatUnreadCounts _ => none
    | .removeSnapshotListener => none
  asked s v h q hasks := by
    rcases v with ⟨_ | uid, callbackHandler⟩ | _ | _ <;> cases hasks
    exact ⟨rfl, rfl⟩
  other s v hasks := by
    rcases v with ⟨_ | uid, callbackHandler⟩ | currentUser | _
    · exact ⟨rfl, fun _ => .inl rfl⟩
    · cases hasks
    · show (ChatMessageService.updateChatUnreadCounts chatRoom currentUser s).status = _ ∧
        ∀ c, (ChatMessageService.updateChatUnreadCounts chatRoom currentUser s).cursors c = _ ∨ _
      unfold ChatMessageService.updateChatUnreadCounts
      split
      · split <;> exact ⟨rfl, fun _ => .inl rfl⟩
      · exact ⟨rfl, fun _ => .inl rfl⟩
    · exact ⟨rfl, fun _ => .inl rfl⟩
  receives q p hp a s := by
    cases q <;> cases hp
    rfl
  ignores q hq a s := by
    rcases q with page | ⟨query, uid, unreadCounts⟩
    · cases hq
    · rcases a with _ | _ | ⟨date, documents⟩
      · exact ⟨rfl, rfl⟩
      · exact ⟨rfl, rfl⟩
      · show (ChatMessageService.unreadReceived chatRoom uid unreadCounts s _).status = _ ∧
          (ChatMessageService.unreadReceived chatRoom uid unreadCounts s _).cursors = _
        unfold ChatMessageService.unreadReceived
        dsimp only
        split <;> exact ⟨rfl, rfl⟩

def userPager : Pager LoginUserHandler LoginUserCursor LoginUserDocument LoginUser
    (LoginUserPage L) L (UserCall L) where
  api := userApi
  models := loginUserModels
  page := fun page => some page.toPage
  asks s
    | .bindUser callbackHandler =>
      some (.bindLoginUserListHandler, UserService.loginUserPage s callbackHandler)
  asked s v h q hasks := by
    cases v with
    | bindUser callbackHandler =>
      cases hasks
      exact ⟨rfl, rfl⟩
  other s v hasks := by
    cases v with
    | bindUser callbackHandler => cases hasks
  receives q p hp a s := by
    cases hp
    rfl
  ignores q hq := nomatch hq

def chatRoomPager : Pager ChatRoomHandler ChatRoomCursor Document ChatRoom (ChatRoomPage L) L
    (ChatRoomCall L) where
  api := chatRoomApi
  models := chatRoomModels
  page := some
  asks s
    | .bindChatRoom (some uid) callbackHandler =>
      some (.bindChatRoomHandler, ChatRoomService.chatRoomPage s uid callbackHandler)
    | .bindChatRoom none _ => none
    | .removeBindChatRoomList => none
  asked s v h q hasks := by
    rcases v with ⟨_ | uid, callbackHandler⟩ | _ <;> cases hasks
    exact ⟨rfl, rfl⟩
  other s v hasks := by
    rcases v with ⟨_ | uid, callbackHandler⟩ | _
    · exact ⟨rfl, fun _ => .inl rfl⟩
    · cases hasks
    · exact ⟨rfl, fun _ => .inr rfl⟩
  receives q p hp a s := by
    cases hp
    rfl
  ignores q hq := nomatch hq

end Services

end PlateChat.Binding.Hosting
