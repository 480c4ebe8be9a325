/- PlateChat/Binding/Removal
   digest: Whom a service still listens for once its removal function has been called. -/

import PlateChat.Binding.Services

set_option autoImplicit false
set_option relaxedAutoImplicit false

/-!
A run of a service is any sequence of its calls, with the snapshots and errors of its
listeners between them at any moment. The moves of a run are the changes it makes to the
registrations: which of the calls register depends on the state each of them is made in.
-/

namespace PlateChat.Binding.Removal

open PlateChat.Foundation.Listening PlateChat.Model.Members PlateChat.Model.Profile
open PlateChat.Model.Room PlateChat.Model.Message PlateChat.Binding.Services
open PlateChat.Screen.Lists (mergeArticles)

inductive Event (ν D : Type)
  | call (v : ν)
  | deliver (n : Nat) (a : Answer D)

/-- The functions `ν` of a service, what its listeners do, and the registrations that each
call makes and removes. -/
structure Api (H C D Q L ν : Type) [DecidableEq H] where
  call : Service H C D Q L → ν → Service H C D Q L
  notify : Q → Answer D → Service H C D Q L → Service H C D Q L
  moves : Service H C D Q L → ν → List (Move H)
  takes : ∀ s v, Takes s.handles (moves s v) (call s v).handles
  keeps : ∀ q a s, (notify q a s).handles = s.handles

namespace Api

variable {H C D Q L ν : Type} [DecidableEq H] (api : Api H C D Q L ν)

/-- An answer reaches a listener that is still active; an error is the last it is told. -/
def deliver (s : Service H C D Q L) (n : Nat) (a : Answer D) : Service H C D Q L :=
  match s.handles.listeners[n]? with
  | some l =>
    if l.Active then
      match a with
      | .error => api.notify l.query .error { s with handles := s.handles.fail n }
      | .nothing => api.notify l.query .nothing s
      | .snapshot date documents => api.notify l.query (.snapshot date documents) s
    else s
  | none => s

def step (s : Service H C D Q L) : Event ν D → Service H C D Q L
  | .call v => api.call s v
  | .deliver n a => api.deliver s n a

def run (s : Service H C D Q L) (events : List (Event ν D)) : Service H C D Q L :=
  events.foldl api.step s

def eventMoves (s : Service H C D Q L) : Event ν D → List (Move H)
  | .call v => api.moves s v
  | .deliver n .error => if s.handles.Active n then [.fail n] else []
  | .deliver _ .nothing => []
  | .deliver _ (.snapshot _ _) => []

/-- The moves of a run, each event met in the state it comes in. -/
def trace : Service H C D Q L → List (Event ν D) → List (Move H)
  | _, [] => []
  | s, e :: events => api.eventMoves s e ++ trace (api.step s e) events

/-- Nobody listens any more: whatever the backend answers from now on, no callback runs, and
the lists stay as the caller leaves them. -/
structure Silenced (s : Service H C D Q L) : Prop where
  inactive : ∀ n, ¬ s.handles.Active n
  cleared : ∀ (lists : L) (answers : List (Nat × Answer D)),
    answers.foldl (fun s a => api.deliver s a.1 a.2) { s with lists := lists } =
      { s with lists := lists }

theorem deliver_inactive {s : Service H C D Q L} {n : Nat} (inactive : ¬ s.handles.Active n)
    (a : Answer D) : api.deliver s n a = s := by
  unfold deliver
  split
  · rename_i l hl
    exact if_neg fun hactive => inactive ⟨l, hl, hactive⟩
  · rfl

theorem deliver_handles (s : Service H C D Q L) (n : Nat) (a : Answer D) :
    (api.deliver s n a).handles = s.handles ∨ (api.deliver s n a).handles = s.handles.fail n := by
  unfold deliver
  split
  · split
    · rcases a with _ | _ | ⟨date, documents⟩
      · exact .inr (api.keeps _ _ _)
      · exact .inl (api.keeps _ _ _)
      · exact .inl (api.keeps _ _ _)
    · exact .inl rfl
  · exact .inl rfl

private theorem deliver_takes (s : Service H C D Q L) (n : Nat) (a : Answer D) :
    Takes s.handles (api.eventMoves s (.deliver n a)) (api.deliver s n a).handles := by
  by_cases hactive : s.handles.Active n
  · obtain ⟨l, hl, hactive'⟩ := hactive
    unfold deliver
    rw [Option.mem_def.mp hl]
    dsimp only
    rw [if_pos hactive']
    rcases a with _ | _ | ⟨date, documents⟩
    · dsimp only [eventMoves]
      rw [if_pos ⟨l, hl, hactive'⟩, api.keeps]
      exact .fail n (.done _)
    · rw [api.keeps]
      exact .done _
    · rw [api.keeps]
      exact .done _
  · rw [api.deliver_inactive hactive]
    have hnone : api.eventMoves s (.deliver n a) = [] := by
      rcases a with _ | _ | ⟨date, documents⟩
      · exact if_neg hactive
      · rfl
      · rfl
    rw [hnone]
    exact .done _

private theorem step_takes (s : Service H C D Q L) (e : Event ν D) :
    Takes s.handles (api.eventMoves s e) (api.step s e).handles := by
  cases e with
  | call v => exact api.takes s v
  | deliver n a => exact api.deliver_takes s n a

theorem run_takes (s : Service H C D Q L) (events : List (Event ν D)) :
    Takes s.handles (api.trace s events) (api.run s events).handles := by
  induction events generalizing s with
  | nil => exact .done _
  | cons e events ih => exact (api.step_takes s e).append (ih (api.step s e))

theorem silenced_of_inactive {s : Service H C D Q L} (inactive : ∀ n, ¬ s.handles.Active n) :
    api.Silenced s := by
  refine ⟨inactive, fun lists answers => ?_⟩
  induction answers with
  | nil => rfl
  | cons a answers ih =>
    have hsilent : ∀ n, ¬ ({ s with lists := lists } : Service H C D Q L).handles.Active n :=
      inactive
    rw [List.foldl_cons, api.deliver_inactive (hsilent a.1)]
    exact ih

/-- A run leaves nobody listening exactly if it ends every registration it makes. -/
theorem silenced_run_iff (lists : L) (events : List (Event ν D)) :
    api.Silenced (api.run { lists := lists } events) ↔
      EachEnds 0 (api.trace { lists := lists } events) := by
  have hquiet : ∀ n, ¬ (Handles.none : Handles H Q).Active n := fun n h => nomatch h
  have hends := quiet_iff (api.run_takes { lists := lists } events) hquiet
  exact ⟨fun h => hends.mp h.inactive, fun h => api.silenced_of_inactive (hends.mpr h)⟩

end Api

section Paging

variable {H C D Q L : Type} [DecidableEq H]

/-- A bind registers unless a page is loading. -/
def bindMoves (s : Service H C D Q L) (h : H) : List (Move H) :=
  if s.status = .loading then [] else [.register h]

private theorem bind_takes (s : Service H C D Q L) (h : H) (q : Q) :
    Takes s.handles (bindMoves s h) (s.bind h q).handles := by
  unfold bindMoves Service.bind
  split
  · exact .done _
  · exact .register h q (.done _)

private theorem remove_takes (s : Handles H Q) (h : H) : Takes s [.remove h] (s.remove h) :=
  .remove h (.done _)

end Paging

variable {L : Type}

inductive ArticleCall (L : Type)
  | bindArticle (callbackHandler : Outcome Article → L → L)
  | bindNewArticle (callbackHandler : Outcome Article → L → L)
  | bindUidArticle (uid : Uid) (callbackHandler : Outcome Article → L → L)
  | bindArticleList (article : Article) (callbackHandler : Outcome Article → L → L)
  | removeBindArticleList

def articleCall (s : ArticleService L) : ArticleCall L → ArticleService L
  | .bindArticle callbackHandler => ArticleService.bindArticle s callbackHandler
  | .bindNewArticle callbackHandler => ArticleService.bindNewArticle s callbackHandler
  | .bindUidArticle uid callbackHandler => ArticleService.bindUidArticle s uid callbackHandler
  | .bindArticleList article callbackHandler =>
    ArticleService.bindArticleList s article callbackHandler
  | .removeBindArticleList => ArticleService.removeBindArticleList s

def articleMoves (s : ArticleService L) : ArticleCall L → List (Move ArticleHandler)
  | .bindArticle _ => bindMoves s .bindArticleHandler
  | .bindNewArticle _ => bindMoves s .bindArticleHandler
  | .bindUidArticle _ _ => bindMoves s .bindUidArticleListHandler
  | .bindArticleList _ _ => bindMoves s .bindArticleListHandler
  | .removeBindArticleList => [.remove .bindArticleListHandler]

def articleApi : Api ArticleHandler ArticleCursor ArticleDocument (ArticlePage L) L
    (ArticleCall L) where
  call := articleCall
  notify page a s := s.receive articleModels page a
  moves := articleMoves
  takes s v := by
    cases v with
    | bindArticle callbackHandler => exact bind_takes s _ _
    | bindNewArticle callbackHandler => exact bind_takes s _ _
    | bindUidArticle uid callbackHandler => exact bind_takes s _ _
    | bindArticleList article callbackHandler => exact bind_takes s _ _
    | removeBindArticleList => exact remove_takes s.handles _
  keeps page a s := s.receive_handles articleModels page a

inductive ChatMessageCall (L : Type)
  | bindChatMessage (currentUser : Option Uid) (callbackHandler : Outcome ChatMessage → L → L)
  | updateChatUnreadCounts (currentUser : Option Uid)
  | removeSnapshotListener

def chatMessageCall (chatRoom : ChatRoom) (s : ChatMessageService L) :
    ChatMessageCall L → ChatMessageService L
  | .bindChatMessage currentUser callbackHandler =>
    ChatMessageService.bindChatMessage chatRoom currentUser s callbackHandler
  | .updateChatUnreadCounts currentUser =>
    ChatMessageService.updateChatUnreadCounts chatRoom currentUser s
  | .removeSnapshotListener => ChatMessageService.removeSnapshotListener s

/-- The signed-in account has messages of the room to read. -/
def HasUnread (chatRoom : ChatRoom) (currentUser : Option Uid) : Prop :=
  ∃ uid ∈ currentUser, ∃ counts ∈ chatRoom.unreadCounts, counts.lookup uid ≠ some 0

instance (chatRoom : ChatRoom) (currentUser : Option Uid) :
    Decidable (HasUnread chatRoom currentUser) :=
  inferInstanceAs (Decidable (∃ uid ∈ currentUser, ∃ counts ∈ chatRoom.unreadCounts, _))

def chatMessageMoves (chatRoom : ChatRoom) (s : ChatMessageService L) :
    ChatMessageCall L → List (Move ChatMessageHandler)
  | .bindChatMessage currentUser _ =>
    if currentUser.isSome then bindMoves s .bindTalkHandler else []
  | .updateChatUnreadCounts currentUser =>
    if HasUnread chatRoom currentUser then [.register .bindUpdateChatHandler] else []
  | .removeSnapshotListener => [.remove .bindTalkHandler, .remove .bindUpdateChatHandler]

private theorem updateChatUnreadCounts_takes (chatRoom : ChatRoom) (currentUser : Option Uid)
    (s : ChatMessageService L) :
    Takes s.handles (if HasUnread chatRoom currentUser then [.register .bindUpdateChatHandler]
      else []) (ChatMessageService.updateChatUnreadCounts chatRoom currentUser s).handles := by
  unfold ChatMessageService.updateChatUnreadCounts
  rcases currentUser with _ | uid
  · exact .done _
  rcases hcounts : chatRoom.unreadCounts with _ | unreadCounts
  · have hread : ¬ HasUnread chatRoom (some uid) := by simp [HasUnread, hcounts]
    rw [if_neg hread]
    exact .done _
  · have hunread : HasUnread chatRoom (some uid) ↔ unreadCounts.lookup uid ≠ some 0 := by
      simp [HasUnread, hcounts]
    dsimp only
    by_cases hzero : unreadCounts.lookup uid = some 0
    · rw [if_pos hzero, if_neg (fun h => hunread.mp h hzero)]
      exact .done _
    · rw [if_neg hzero, if_pos (hunread.mpr hzero)]
      exact .register _ _ (.done _)

def chatMessageApi (chatRoom : ChatRoom) : Api ChatMessageHandler ChatMessageCursor
    ChatMessageDocument (ChatMessageListener L) (ChatOutput L) (ChatMessageCall L) where
  call := chatMessageCall chatRoom
  notify := ChatMessageService.notify chatRoom
  moves := chatMessageMoves chatRoom
  takes s v := by
    cases v with
    | bindChatMessage currentUser callbackHandler =>
      cases currentUser with
      | none => exact .done _
      | some uid => exact bind_takes s _ _
    | updateChatUnreadCounts currentUser =>
      exact updateChatUnreadCounts_takes chatRoom currentUser s
    | removeSnapshotListener =>
      exact (remove_takes s.handles _).append (remove_takes _ _)
  keeps := ChatMessageService.notify_handles chatRoom

inductive ChatRoomCall (L : Type)
  | bindChatRoom (currentUser : Option Uid) (callbackHandler : Outcome ChatRoom → L → L)
  | removeBindChatRoomList

def chatRoomCall (s : ChatRoomService L) : ChatRoomCall L → ChatRoomService L
  | .bindChatRoom currentUser callbackHandler =>
    ChatRoomService.bindChatRoom currentUser s callbackHandler
  | .removeBindChatRoomList => ChatRoomService.removeBindChatRoomList s

def chatRoomMoves (s : ChatRoomService L) : ChatRoomCall L → List (Move ChatRoomHandler)
  | .bindChatRoom currentUser _ =>
    if currentUser.isSome then bindMoves s .bindChatRoomHandler else []
  | .removeBindChatRoomList => [.remove .bindChatRoomHandler]

def chatRoomApi : Api ChatRoomHandler ChatRoomCursor Document (ChatRoomPage L) L
    (ChatRoomCall L) where
  call := chatRoomCall
  notify page a s := s.receive chatRoomModels page a
  moves := chatRoomMoves
  takes s v := by
    cases v with
    | bindChatRoom currentUser callbackHandler =>
      cases currentUser with
      | none => exact .done _
      | some uid => exact bind_takes s _ _
    | removeBindChatRoomList => exact remove_takes s.handles _
  keeps page a s := s.receive_handles chatRoomModels page a

/-- A run that ends with the removal function silences the service exactly if each of its
registrations is removed through its field before the field is used again, or is ended by an
error. Of the fields of `ArticleService` the function removes only one. -/
theorem removal_silences_iff (lists : L) :
    (∀ events : List (Event (ArticleCall L) ArticleDocument),
      articleApi.Silenced (articleApi.run { lists := lists }
          (events ++ [.call .removeBindArticleList])) ↔
        EachEnds 0 (articleApi.trace { lists := lists }
          (events ++ [.call .removeBindArticleList]))) ∧
    (∀ (chatRoom : ChatRoom) (events : List (Event (ChatMessageCall L) ChatMessageDocument)),
      (chatMessageApi chatRoom).Silenced ((chatMessageApi chatRoom).run { lists := ⟨lists, []⟩ }
          (events ++ [.call .removeSnapshotListener])) ↔
        EachEnds 0 ((chatMessageApi chatRoom).trace { lists := ⟨lists, []⟩ }
          (events ++ [.call .removeSnapshotListener]))) ∧
    (∀ events : List (Event (ChatRoomCall L) Document),
      chatRoomApi.Silenced (chatRoomApi.run { lists := lists }
          (events ++ [.call .removeBindChatRoomList])) ↔
        EachEnds 0 (chatRoomApi.trace { lists := lists }
          (events ++ [.call .removeBindChatRoomList]))) := by
  refine ⟨fun events => ?_, fun chatRoom events => ?_, fun events => ?_⟩
  · exact articleApi.silenced_run_iff lists _
  · exact (chatMessageApi chatRoom).silenced_run_iff ⟨lists, []⟩ _
  · exact chatRoomApi.silenced_run_iff lists _

section Example

private def hello : ArticleDocument :=
  (7, { uid := some "bob", text := some "hello", status := some 1, createdAt := some 3 })

private def observeArticle : Outcome Article → List Article → List Article
  | .ok models, articles => mergeArticles models articles
  | .error _, articles => articles

/-- The home screen has loaded its first page when the account is deleted. -/
private def home : ArticleService (List Article) :=
  articleApi.run { lists := [] }
    ([.call (.bindArticle observeArticle), .deliver 0 (.snapshot 4 [hello])] ++
      [.call .removeBindArticleList])

private def room : ChatRoom where
  key := 1
  owner := "alice"
  members := (AList.singleton "alice" true).insert "bob" true
  unreadCounts := some ∅
  status := 1
  createdDate := 1
  updatedDate := 2
  lastUpdateMessage := some ""

private def count {M : Type} : Outcome M → Nat → Nat
  | .ok models, n => n + models.length
  | .error _, n => n

/-- A room is opened and pulled to refresh. -/
private def talk : ChatMessageService Nat :=
  (chatMessageApi room).run { lists := ⟨0, []⟩ }
    ([.call (.bindChatMessage (some "alice") count), .deliver 0 (.snapshot 4 []),
      .call (.bindChatMessage (some "alice") count)] ++ [.call .removeSnapshotListener])

/-- The list of rooms is refreshed once. -/
private def rooms : ChatRoomService Nat :=
  chatRoomApi.run { lists := 0 }
    ([.call (.bindChatRoom (some "alice") count), .deliver 0 (.snapshot 4 []),
      .call (.bindChatRoom (some "alice") count)] ++ [.call .removeBindChatRoomList])

/-- All three go on listening, and the emptied list of the home screen is filled again. -/
theorem listens_after_removal :
    ¬ articleApi.Silenced home ∧
      (articleApi.deliver { home with lists := [] } 0 (.snapshot 5 [hello])).lists.map Article.key =
        [7] ∧
      ¬ (chatMessageApi room).Silenced talk ∧ ¬ chatRoomApi.Silenced rooms := by
  refine ⟨fun h => ?_, by decide, fun h => ?_, fun h => ?_⟩
  · have hactive : home.handles.Active 0 := by decide
    exact h.inactive 0 hactive
  · have hactive : talk.handles.Active 0 := by decide
    exact h.inactive 0 hactive
  · have hactive : rooms.handles.Active 0 := by decide
    exact h.inactive 0 hactive

example : EachEnds 0 (articleApi.trace { lists := ([] : List Article) }
    [.call (.bindArticleList ⟨7, "bob", "hello", 3, 1, "", "", 0, 0, "", "", ""⟩ observeArticle),
      .deliver 0 (.snapshot 4 [hello]), .call .removeBindArticleList]) := by decide

end Example

end PlateChat.Binding.Removal
