/- PlateChat/Screen/Deleted
   digest: What the list screens go on showing after it has been deleted on the server. -/

import PlateChat.Binding.Hosting
import PlateChat.Foundation.Run
import PlateChat.Screen.Merging

set_option autoImplicit false
set_option relaxedAutoImplicit false

/-!
A deleted document is left out of the deliveries, by the query or by the service, and the
lists only take in what is delivered: the copy that is held stays, with the status that it
had. It is gone only where the list has been emptied or the filter hides it.
-/

namespace PlateChat.Screen.Deleted

open PlateChat.Foundation.Listening PlateChat.Foundation.Merge PlateChat.Foundation.Paging
open PlateChat.Foundation.Run PlateChat.Model.Members PlateChat.Model.Profile
open PlateChat.Model.Room PlateChat.Binding.Services PlateChat.Binding.Removal
open PlateChat.Binding.Hosting PlateChat.Screen.Feeds
open PlateChat.Screen.Lists (Backend Screens Unblocked filterBlock mergeRooms otherMember)
open PlateChat.Screen.Merging (HomeHandler homeCallback received_items mem_received_org)

/-- `delivered` are the listeners with the ids of the documents that each has delivered before
they were deleted. -/
structure Board (H C V Q L : Type) where
  service : Service H C (Nat × V) Q L
  contents : Contents Nat V
  delivered : List (Nat × Nat) := []

/-- The screen may do what it likes to its lists between the deliveries. -/
inductive Act (α L V : Type)
  | load (a : α)
  | lists (f : L → L)
  | contents (contents : Contents Nat V)
  | deliver (n date : Nat)
  | fail (n : Nat)
  | missing (n : Nat)

section General

variable {H C V ρ M Q L ν α : Type} [DecidableEq H] [DecidableEq C] [LinearOrder ρ]

/-- What a callback does to the displayed list: a delivery that says nothing of a document leaves
it to what was held, and an error leaves all. -/
structure Takes (key : M → Nat) (displayed : L → List Nat) (shows : L → List M → Nat → Prop)
    (callbackHandler : Outcome M → L → L) : Prop where
  silent : ∀ models lists k, k ∉ models.map key →
    (k ∈ displayed (callbackHandler (.ok models) lists) ↔ shows lists models k)
  error : ∀ e lists, displayed (callbackHandler (.error e) lists) = displayed lists

/-- How a screen loads and what it displays. The service hands over no document that it finds
deleted. -/
structure Shelf (P : Pager H C (Nat × V) M Q L ν) (α : Type) where
  load : α → ν
  key : M → Nat
  deleted : Nat × V → Bool
  displayed : L → List Nat
  shows : L → List M → Nat → Prop
  loads : ∀ s a, P.api.call s (load a) = s ∨ ∃ h q p, P.asks s (load a) = some (h, q) ∧
    P.page q = some p ∧ Takes key displayed shows p.callbackHandler
  paged : ∀ q, (P.page q).isSome
  alive : ∀ date documents models, P.models date documents = some models →
    ∀ m ∈ models, ∃ d ∈ documents, d.1 = key m ∧ deleted d = false

variable {P : Pager H C (Nat × V) M Q L ν} (shelf : Shelf P α) (col : Collection Nat V ρ)

def answer (s : Board H C V Q L) (n : Nat) (a : Answer (Nat × V)) : Board H C V Q L :=
  { s with service := P.api.deliver s.service n a }

def deliver (s : Board H C V Q L) (n date : Nat) : Board H C V Q L :=
  if s.service.handles.Active n then
    let documents := P.found col s.contents.documents s.service n
    { s with
      service := P.api.deliver s.service n (.snapshot date documents)
      delivered := ((documents.filter fun d => !shelf.deleted d).map fun d => (n, d.1)) ++
        s.delivered }
  else s

def step (s : Board H C V Q L) : Act α L V → Option (Board H C V Q L)
  | .load a => some { s with service := P.api.call s.service (shelf.load a) }
  | .lists f => some { s with service := { s.service with lists := f s.service.lists } }
  | .contents contents => some { s with contents := contents }
  | .deliver n date => some (deliver shelf col s n date)
  | .fail n => some (answer (P := P) s n .error)
  | .missing n => some (answer (P := P) s n .nothing)

/-- The listener has delivered the document, which now is deleted. -/
def Late (s : Board H C V Q L) (n k : Nat) : Prop :=
  (n, k) ∈ s.delivered ∧ ∃ d ∈ s.contents.documents, d.1 = k ∧ shelf.deleted d = true

/-- The document is displayed no longer once the listener has delivered again. -/
def GoneNext (s : Board H C V Q L) : Act α L V → Prop
  | .deliver n date => s.service.handles.Active n → ∀ k, Late shelf s n k →
    k ∉ shelf.displayed (deliver shelf col s n date).service.lists
  | _ => True

/-- No copy of it is held that the screen would show; where the delivery cannot be read, none is
displayed. -/
def Unheld (s : Board H C V Q L) : Act α L V → Prop
  | .deliver n date => s.service.handles.Active n → ∀ k, Late shelf s n k →
    match P.models date (P.found col s.contents.documents s.service n) with
    | some models => ¬ shelf.shows s.service.lists models k
    | none => k ∉ shelf.displayed s.service.lists
  | _ => True

/-- The listeners are the screen's. -/
def Owned (s : Board H C V Q L) : Prop :=
  ∀ n p, P.pageOf s.service n = some p →
    Takes shelf.key shelf.displayed shelf.shows p.callbackHandler

variable {shelf col} {s : Board H C V Q L}

private theorem owned_call (h : Owned shelf s) (a : α) :
    Owned shelf { s with service := P.api.call s.service (shelf.load a) } := by
  rcases shelf.loads s.service a with hsame | ⟨h', q, p, hasks, hpage, htakes⟩
  · rw [hsame]
    exact h
  by_cases hloading : s.service.status = .loading
  · rw [P.call_of_loading hasks hloading]
    exact h
  intro n p' hp'
  rcases Nat.lt_or_ge n s.service.handles.listeners.length with hlt | hge
  · rw [P.pageOf_call hlt] at hp'
    exact h n p' hp'
  · have hlen := P.lt_of_pageOf hp'
    dsimp only at hp' hlen
    rw [P.call_of_asks hasks hloading] at hp' hlen
    dsimp only at hlen
    rw [Handles.length_register] at hlen
    obtain rfl : n = s.service.handles.listeners.length := by omega
    rw [Pager.pageOf, Handles.queryOf_register_self, Option.bind_some, hpage] at hp'
    exact Option.some.inj hp' ▸ htakes

private theorem owned_answer (h : Owned shelf s) (n : Nat) (a : Answer (Nat × V)) :
    Owned shelf (answer (P := P) s n a) := by
  intro m p hp
  rw [answer] at hp
  dsimp only at hp
  rw [P.pageOf_deliver] at hp
  exact h m p hp

private theorem owned_step (h : Owned shelf s) {e : Act α L V} {t : Board H C V Q L}
    (hstep : step shelf col s e = some t) : Owned shelf t := by
  cases e with
  | load a =>
    obtain rfl := Option.some.inj hstep
    exact owned_call h a
  | lists f =>
    obtain rfl := Option.some.inj hstep
    exact h
  | contents contents =>
    obtain rfl := Option.some.inj hstep
    exact h
  | deliver n date =>
    obtain rfl := Option.some.inj hstep
    unfold deliver
    split
    · exact owned_answer h n _
    · exact h
  | fail n =>
    obtain rfl := Option.some.inj hstep
    exact owned_answer h n _
  | missing n =>
    obtain rfl := Option.some.inj hstep
    exact owned_answer h n _

private theorem mem_found {n : Nat} {d : Nat × V}
    (hd : d ∈ P.found col s.contents.documents s.service n) : d ∈ s.contents.documents := by
  rw [Pager.found] at hd
  split at hd
  · exact col.mem_of_fetch hd
  · cases hd

private theorem gone_iff (h : Owned shelf s) (e : Act α L V) :
    GoneNext shelf col s e ↔ Unheld shelf col s e := by
  cases e with
  | deliver n date =>
    refine forall_congr' fun hactive => forall₂_congr fun k hlate => ?_
    obtain ⟨q, hq⟩ := Handles.queryOf_of_active hactive
    obtain ⟨p, hpage⟩ := Option.isSome_iff_exists.mp (shelf.paged q)
    have hp : P.pageOf s.service n = some p := by
      rw [Pager.pageOf, hq, Option.bind_some, hpage]
    rw [deliver, if_pos hactive]
    dsimp only
    rw [P.deliver_of_page hactive hp, Pager.told, receive_lists]
    rcases hmodels : P.models date (P.found col s.contents.documents s.service n) with _ | models
    · dsimp only
      rw [(h n p hp).error]
    · have hsilent : k ∉ models.map shelf.key := by
        intro hmem
        obtain ⟨m, hm, hkey⟩ := List.mem_map.mp hmem
        obtain ⟨d, hd, hid, halive⟩ := shelf.alive _ _ _ hmodels m hm
        obtain ⟨d', hd', hid', hdeleted⟩ := hlate.2
        have hsame : d = d' := List.inj_on_of_nodup_map s.contents.keyed (mem_found hd) hd'
          (hid.trans (hkey.trans hid'.symm))
        rw [hsame, hdeleted] at halive
        cases halive
      exact not_congr ((h n p hp).silent models s.service.lists k hsilent)
  | _ => exact Iff.rfl

/-- In a run of the screen, what has been deleted is gone after each of its deliveries exactly if
no copy of it was held before. -/
def GoneIfUnheld (shelf : Shelf P α) (col : Collection Nat V ρ) : Prop :=
  ∀ (lists : L) (contents : Contents Nat V) (events : List (Act α L V)),
    Along (step shelf col) (GoneNext shelf col) ⟨{ lists := lists }, contents, []⟩ events ↔
      Along (step shelf col) (Unheld shelf col) ⟨{ lists := lists }, contents, []⟩ events

private theorem gone_if_unheld (shelf : Shelf P α) (col : Collection Nat V ρ) :
    GoneIfUnheld shelf col := by
  intro lists contents events
  refine along_congr (P := Owned shelf) (fun s e h => gone_iff h e)
    (fun s e t h _ ht => owned_step h ht) fun n p hp => ?_
  cases hp

end General

section Articles

private theorem received_shows {κ τ : Type} [DecidableEq κ] {key : τ → κ} {keep : τ → Bool}
    {r : τ → τ → Prop} [DecidableRel r] {visible : Device → τ → Bool} {models : List τ}
    {s : Feed τ} {k : κ} (hsilent : k ∉ models.map key) :
    k ∈ (s.received key keep r visible models).items.map key ↔ ∃ x, version key s.org k = some x ∧
      keep x = true ∧ visible s.device x = true := by
  have hnone : version key models k = none := version_eq_none.mpr hsilent
  rw [received_items, List.mem_map]
  constructor
  · rintro ⟨x, hx, rfl⟩
    obtain ⟨hx, hvisible⟩ := List.mem_filter.mp hx
    obtain ⟨hversion, hkeep⟩ := mem_received_org.mp hx
    rw [hnone, Option.none_or] at hversion
    exact ⟨x, hversion, hkeep, hvisible⟩
  · rintro ⟨x, hversion, hkeep, hvisible⟩
    obtain rfl := key_of_version hversion
    refine ⟨x, List.mem_filter.mpr ⟨mem_received_org.mpr ⟨?_, hkeep⟩, hvisible⟩, rfl⟩
    rw [hnone, Option.none_or, hversion]

def deletedArticle (a : ArticleDocument) : Bool := a.2.status = some 0

private theorem alive_articles (date : Nat) (documents : List ArticleDocument)
    (models : List Article) (h : articleModels date documents = some models) :
    ∀ m ∈ models, ∃ d ∈ documents, d.1 = m.key ∧ deletedArticle d = false := by
  intro m hm
  unfold articleModels at h
  split at h
  · rename_i articles hparsed
    obtain rfl := Option.some.inj h
    obtain ⟨hm, hstatus⟩ := List.mem_filter.mp hm
    obtain ⟨d, hd, hparse⟩ := mem_parseAll hparsed ((List.mem_insertionSort _).mp hm)
    obtain ⟨hkey, hlive⟩ := Article.status_of_parsed hparse
    refine ⟨d, hd, hkey.symm, ?_⟩
    rw [deletedArticle, hlive, of_decide_eq_true hstatus]
    rfl
  · cases h

/-- The id is displayed. -/
def displayedArticles (s : Feed Article) : List Nat := s.items.map Article.key

/-- The home screen: a held article is shown that is live and whose author is not blocked. -/
def homeShelf : Shelf (articlePager (L := Feed Article)) HomeHandler where
  load
    | .observeArticle => .bindArticle Home.observeArticle
    | .refresh => .bindNewArticle Home.refresh
  key := Article.key
  deleted := deletedArticle
  displayed := displayedArticles
  shows s _ k := ∃ a, version Article.key s.org k = some a ∧ Home.visible s.device a = true
  loads _ a := by
    have hactive : ∀ d a, Home.visible d a = true → active a = true := fun d a h =>
      (Bool.and_eq_true_iff.mp h).2
    cases a with
    | observeArticle =>
      refine .inr ⟨_, _, _, rfl, rfl, fun models lists k hsilent => ?_, fun _ _ => rfl⟩
      refine (received_shows hsilent).trans (exists_congr fun x => and_congr_right fun _ => ?_)
      exact and_iff_right_of_imp (hactive _ x)
    | refresh =>
      refine .inr ⟨_, _, _, rfl, rfl, fun models lists k hsilent => ?_, fun _ _ => rfl⟩
      refine (received_shows hsilent).trans (exists_congr fun x => and_congr_right fun _ => ?_)
      exact and_iff_right rfl
  paged _ := rfl
  alive := alive_articles

/-- The screen of a thread. -/
def articleListShelf (article : Article) : Shelf (articlePager (L := Feed Article)) Unit where
  load _ := .bindArticleList article ArticleList.observeArticle
  key := Article.key
  deleted := deletedArticle
  displayed := displayedArticles
  shows s _ k := ∃ a, version Article.key s.org k = some a ∧ active a = true ∧
    ArticleList.visible s.device a = true
  loads _ _ := .inr ⟨_, _, _, rfl, rfl, fun _ _ _ hsilent => received_shows hsilent, fun _ _ => rfl⟩
  paged _ := rfl
  alive := alive_articles

/-- The two profile screens hold what they display. -/
def profileShelf (observeArticle : Outcome Article → Feed Article → Feed Article)
    (single : ∀ outcome s, observeArticle outcome s =
      Feed.callback Article.key active newestFirst (fun _ => all) outcome s.single) (uid : Uid) :
    Shelf (articlePager (L := Feed Article)) Unit where
  load _ := .bindUidArticle uid observeArticle
  key := Article.key
  deleted := deletedArticle
  displayed := displayedArticles
  shows s _ k := ∃ a, version Article.key s.items k = some a ∧ active a = true
  loads s _ := by
    refine .inr ⟨_, _, _, rfl, rfl, fun models lists k hsilent => ?_, fun e lists => ?_⟩
    · dsimp only
      rw [single]
      refine (received_shows hsilent).trans (exists_congr fun x => and_congr_right fun _ => ?_)
      exact and_iff_left rfl
    · dsimp only
      rw [single]
      rfl
  paged _ := rfl
  alive := alive_articles

def myProfileShelf (uid : Uid) : Shelf (articlePager (L := Feed Article)) Unit :=
  profileShelf MyProfile.observeArticle (fun _ _ => rfl) uid

def userDetailShelf (uid : Uid) : Shelf (articlePager (L := Feed Article)) Unit :=
  profileShelf UserDetail.observeArticle (fun _ _ => rfl) uid

end Articles

section Rooms

/-- What the callback reads and writes; `none` once the filter has trapped. -/
abbrev RoomList := Option (Backend × Screens)

def withRooms (d : Screens) (rooms : List ChatRoom) : Screens :=
  { d with chatRoomList := { d.chatRoomList with items := rooms } }

def observeChatRoomList : Outcome ChatRoom → RoomList → RoomList
  | .ok models, some (s, d) =>
    (filterBlock s (withRooms d (mergeRooms models d.chatRooms))).map fun d => (s, d)
  | .ok _, none => none
  | .error _, lists => lists

def displayedRooms : RoomList → List Nat
  | some (_, d) => d.chatRooms.map ChatRoom.key
  | none => []

def deletedRoom (room : Document) : Bool := room.2.status = some 0

/-- A held room is shown that has a message and whose other member is not blocked; the filter
traps on a room without another member. -/
def ShowsRoom (lists : RoomList) (models : List ChatRoom) (k : Nat) : Prop :=
  ∃ s d, lists = some (s, d) ∧
    (∀ room ∈ mergeRooms models d.chatRooms, (otherMember d.keys s.currentUser room).isSome) ∧
      ∃ room, version ChatRoom.key d.chatRooms k = some room ∧
        room.lastUpdateMessage ≠ some "" ∧ Unblocked s d room

private theorem alive_rooms (date : Nat) (documents : List Document) (models : List ChatRoom)
    (h : chatRoomModels date documents = some models) :
    ∀ m ∈ models, ∃ d ∈ documents, d.1 = m.key ∧ deletedRoom d = false := by
  intro m hm
  unfold chatRoomModels at h
  split at h
  · rename_i rooms hparsed
    obtain rfl := Option.some.inj h
    obtain ⟨hm, hstatus⟩ := List.mem_filter.mp hm
    obtain ⟨d, hd, hparse⟩ := mem_parseAll hparsed ((List.mem_insertionSort _).mp hm)
    refine ⟨d, hd, (parses_of_ofDocument hparse).2.symm, ?_⟩
    rw [deletedRoom, status_of_parsed hparse, of_decide_eq_true hstatus]
    rfl
  · cases h

private theorem mem_mergeRooms {models held : List ChatRoom} {room : ChatRoom} :
    room ∈ mergeRooms models held ↔ (version ChatRoom.key models room.key).or
      (version ChatRoom.key held room.key) = some room ∧ room.lastUpdateMessage ≠ some "" := by
  rw [mergeRooms, List.mem_insertionSort, List.mem_filter, Lists.unique_eq, mem_unique,
    version_append, decide_eq_true_eq]

private theorem room_shown {models : List ChatRoom} {lists : RoomList} {k : Nat}
    (hsilent : k ∉ models.map ChatRoom.key) :
    k ∈ displayedRooms (observeChatRoomList (.ok models) lists) ↔ ShowsRoom lists models k := by
  rcases lists with _ | ⟨s, d⟩
  · refine iff_of_false (fun h => nomatch h) ?_
    rintro ⟨_, _, hnone, _⟩
    cases hnone
  have hnone : version ChatRoom.key models k = none := version_eq_none.mpr hsilent
  have hshows : ShowsRoom (some (s, d)) models k ↔
      (∀ room ∈ mergeRooms models d.chatRooms, (otherMember d.keys s.currentUser room).isSome) ∧
        ∃ room, version ChatRoom.key d.chatRooms k = some room ∧
          room.lastUpdateMessage ≠ some "" ∧ Unblocked s d room := by
    constructor
    · rintro ⟨_, _, heq, hshows⟩
      cases heq
      exact hshows
    · exact fun hshows => ⟨s, d, rfl, hshows⟩
  rw [hshows]
  by_cases hother : ∀ room ∈ mergeRooms models d.chatRooms,
      (otherMember d.keys s.currentUser room).isSome
  · have hfilter : filterBlock s (withRooms d (mergeRooms models d.chatRooms)) =
        some (withRooms d ((mergeRooms models d.chatRooms).filter fun room =>
          Unblocked s d room)) := if_pos hother
    have hrows : displayedRooms (observeChatRoomList (.ok models) (some (s, d))) =
        ((mergeRooms models d.chatRooms).filter fun room => Unblocked s d room).map
          ChatRoom.key := by
      rw [observeChatRoomList, hfilter]
      rfl
    rw [hrows, List.mem_map, and_iff_right hother]
    constructor
    · rintro ⟨room, hroom, rfl⟩
      obtain ⟨hroom, hunblocked⟩ := List.mem_filter.mp hroom
      obtain ⟨hversion, hmessage⟩ := mem_mergeRooms.mp hroom
      rw [hnone, Option.none_or] at hversion
      exact ⟨room, hversion, hmessage, of_decide_eq_true hunblocked⟩
    · rintro ⟨room, hversion, hmessage, hunblocked⟩
      obtain rfl := key_of_version hversion
      refine ⟨room, List.mem_filter.mpr ⟨mem_mergeRooms.mpr ⟨?_, hmessage⟩,
        decide_eq_true hunblocked⟩, rfl⟩
      rw [hnone, Option.none_or, hversion]
  · refine iff_of_false (fun h => ?_) fun h => hother h.1
    have htrap : filterBlock s (withRooms d (mergeRooms models d.chatRooms)) = none :=
      if_neg hother
    rw [observeChatRoomList, htrap] at h
    cases h

def chatRoomShelf (currentUser : Option Uid) : Shelf (chatRoomPager (L := RoomList)) Unit where
  load _ := .bindChatRoom currentUser observeChatRoomList
  key := ChatRoom.key
  deleted := deletedRoom
  displayed := displayedRooms
  shows := ShowsRoom
  loads s _ := by
    cases currentUser with
    | none => exact .inl rfl
    | some uid =>
      exact .inr ⟨_, _, _, rfl, rfl, fun _ _ _ hsilent => room_shown hsilent, fun _ _ => rfl⟩
  paged _ := rfl
  alive := alive_rooms

end Rooms

/-- On the home screen, in a thread, on the two profile screens and in the list of rooms. -/
theorem deleted_gone_iff (dated : ArticleDocument → Bool) (article : Article) (uid : Uid)
    (currentUser : Option Uid) :
    GoneIfUnheld homeShelf (articles dated) ∧
    GoneIfUnheld (articleListShelf article) (articles dated) ∧
    GoneIfUnheld (myProfileShelf uid) (articles dated) ∧
    GoneIfUnheld (userDetailShelf uid) (articles dated) ∧
    GoneIfUnheld (chatRoomShelf currentUser) chatRooms :=
  ⟨gone_if_unheld _ _, gone_if_unheld _ _, gone_if_unheld _ _, gone_if_unheld _ _,
    gone_if_unheld _ _⟩

section Example

private def hello (status : Int) : Contents Nat ArticleDoc where
  documents := [(7, {
    uid := some "bob"
    text := some "hello"
    status := some status
    createdAt := some 3 })]
  keyed := List.nodup_singleton 7

private def dated (a : ArticleDocument) : Bool := a.2.createdAt.isSome

/-- Bob deletes his article, and the page that had it is delivered again. -/
private def withdrawn : List (Act HomeHandler (Feed Article) ArticleDoc) :=
  [.load .observeArticle, .deliver 0 4, .contents (hello 0), .deliver 0 5]

private def home : Board ArticleHandler ArticleCursor ArticleDoc (ArticlePage (Feed Article))
    (Feed Article) :=
  ⟨{ lists := { device := { uid := "alice" } } }, hello 1, []⟩

/-- It is displayed as before. -/
theorem deleted_stays_displayed : ¬ Along (step homeShelf (articles dated))
    (GoneNext homeShelf (articles dated)) home withdrawn := by
  intro h
  have hlast := (((h.2 _ rfl).2 _ rfl).2 _ rfl).1 (by decide) 7
    ⟨by decide, _, List.mem_cons_self, rfl, by decide⟩
  exact absurd hlast (by decide)

end Example

end PlateChat.Screen.Deleted
