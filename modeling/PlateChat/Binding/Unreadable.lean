/- PlateChat/Binding/Unreadable
   digest: Where a page that cannot be read leaves the cursor, and what is then loaded. -/

import PlateChat.Binding.Pages

set_option autoImplicit false
set_option relaxedAutoImplicit false

/-!
The cursor is moved before the documents are parsed, and it is not moved back when one of
them does not parse. An error of the backend leaves it where it was.
-/

namespace PlateChat.Binding.Unreadable

open PlateChat.Foundation.Listening PlateChat.Foundation.Paging PlateChat.Model.Members
open PlateChat.Model.Profile PlateChat.Model.Room PlateChat.Model.Message
open PlateChat.Binding.Services PlateChat.Binding.Removal PlateChat.Binding.Users
open PlateChat.Binding.Hosting PlateChat.Binding.Pages

section Functions

variable {H C K V ρ M Q L ν : Type} [DecidableEq H] [DecidableEq C] [LinearOrder ρ]

/-- One of the functions that load page after page: the call asks for the next page of a query
behind the function's cursor, and what is delivered is parsed whole or not at all. -/
structure BindFunction (P : Pager H C (K × V) M Q L ν) where
  cursor : C
  query : Query (K × V)
  call : ν
  parse : Nat → K × V → Except ModelError M
  asks : AsksNext P cursor query call
  limit : Nat
  limited : query.limit = some limit
  whole : ∀ date documents,
    P.models date documents = none ↔ ∃ d ∈ documents, ∀ m, parse date d ≠ .ok m

variable {P : Pager H C (K × V) M Q L ν} (b : BindFunction P) (col : Collection K V ρ)
  (contents : Contents K V)

/-- The listener `n` holds a page that the function has asked for, and delivers one with a
document that does not parse. -/
structure Delivers (s : Service H C (K × V) Q L) (n date : Nat) (p : Page C (K × V) M L) :
    Prop where
  active : s.handles.Active n
  page : P.pageOf s n = some p
  own : p.cursor = some b.cursor ∧ p.query = { b.query with startAfter := p.query.startAfter }
  unreadable : ∃ d ∈ P.found col contents.documents s n, ∀ m, b.parse date d ≠ .ok m

/-- The service once the page of the listener `n` has been handled. -/
def handled (s : Service H C (K × V) Q L) (n date : Nat) : Service H C (K × V) Q L :=
  P.api.deliver s n (.snapshot date (P.found col contents.documents s n))

/-- The listener of the next call. -/
def nextCall (t : Service H C (K × V) Q L) : Service H C (K × V) Q L × Nat :=
  (P.api.call t b.call, t.handles.listeners.length)

/-- The cursor is the one from before, the next call asks for the page again, and finds there
what can be read of it. -/
structure Retries (s : Service H C (K × V) Q L) (n date : Nat) : Prop where
  cursor : (handled (P := P) col contents s n date).cursors b.cursor = s.cursors b.cursor
  page :
    let next := nextCall b (handled (P := P) col contents s n date)
    (P.pageOf next.1 next.2).map Page.query = (P.pageOf s n).map Page.query
  found :
    let next := nextCall b (handled (P := P) col contents s n date)
    ∀ d ∈ P.found col contents.documents s n, (∃ m, b.parse date d = .ok m) →
      d ∈ P.found col contents.documents next.1 next.2

/-- The error is reported, the cursor stands at the end of the page, and the next call finds
nothing of it. -/
structure Skips (s : Service H C (K × V) Q L) (n date : Nat) (p : Page C (K × V) M L) :
    Prop where
  reported : (handled (P := P) col contents s n date).lists =
    p.callbackHandler (.error .error) s.lists
  cursor : (handled (P := P) col contents s n date).cursors b.cursor =
    (P.found col contents.documents s n).getLast?
  skipped :
    let next := nextCall b (handled (P := P) col contents s n date)
    ∀ d ∈ P.found col contents.documents s n, d ∉ P.found col contents.documents next.1 next.2

variable {b col contents} {s : Service H C (K × V) Q L} {n date : Nat}
  {p : Page C (K × V) M L}

theorem found_own (h : Delivers b col contents s n date p) :
    P.found col contents.documents s n =
      page col.rank b.limit p.query.startAfter (col.selected b.query contents.documents) := by
  rw [P.found_of_page col h.page, h.own.2]
  exact col.fetch_of_limit (q := { b.query with startAfter := p.query.startAfter }) b.limited _

theorem handled_idle (h : Delivers b col contents s n date p) :
    (handled (P := P) col contents s n date).status ≠ .loading := by
  rw [handled, P.deliver_of_page h.active h.page]
  exact receive_status _ _ _ _

theorem skips (h : Delivers b col contents s n date p) : Skips b col contents s n date p := by
  have hreceived : handled (P := P) col contents s n date =
      s.receive P.models p (.snapshot date (P.found col contents.documents s n)) :=
    P.deliver_of_page h.active h.page
  have hcursor : (handled (P := P) col contents s n date).cursors b.cursor =
      (P.found col contents.documents s n).getLast? := by
    rw [hreceived, receive_cursors, h.own.1]
    exact Function.update_self _ _ _
  refine ⟨?_, hcursor, fun d hd hnext => ?_⟩
  · rw [hreceived, receive_lists, (b.whole date _).mpr h.unreadable]
  · rw [nextCall, found_next b.asks (handled_idle h) b.limited, hcursor] at hnext
    rw [found_own h] at hd hnext
    obtain ⟨last, hlast⟩ := Option.isSome_iff_exists.mp
      (List.getLast?_isSome.mpr (List.ne_nil_of_mem hd))
    -- the next page stands behind the last document, and this one does not
    rw [hlast] at hnext
    have hbehind := (mem_behind.mp (mem_behind_of_page hnext)).2 last rfl
    exact absurd hbehind (not_lt.mpr (le_last hlast hd))

/-- The cursor is where it was only if it stood at the end of the page already; the page is not
asked for again in any case. -/
theorem not_retries (h : Delivers b col contents s n date p) :
    ((handled (P := P) col contents s n date).cursors b.cursor = s.cursors b.cursor ↔
      s.cursors b.cursor = (P.found col contents.documents s n).getLast?) ∧
    ¬ Retries b col contents s n date := by
  have hskips := skips h
  refine ⟨?_, fun hretries => ?_⟩
  · rw [hskips.cursor]
    exact eq_comm
  · obtain ⟨d, hd, _⟩ := h.unreadable
    obtain ⟨p', hp', hsame⟩ : ∃ p', P.pageOf
        (nextCall b (handled (P := P) col contents s n date)).1
        (nextCall b (handled (P := P) col contents s n date)).2 = some p' ∧
        p'.query = p.query := by
      have hpage := hretries.page
      rw [h.page] at hpage
      exact Option.map_eq_some_iff.mp hpage
    have hagain : d ∈ P.found col contents.documents
        (nextCall b (handled (P := P) col contents s n date)).1
        (nextCall b (handled (P := P) col contents s n date)).2 := by
      rw [P.found_of_page col hp', hsame, ← P.found_of_page col h.page]
      exact hd
    exact hskips.skipped d hd hagain

end Functions

section Services

variable {L : Type}

/-- A page is parsed up to its first bad document, and then given up. -/
theorem given_up_iff {D M τ : Type} {parse : D → Except ModelError M} {documents : List D}
    {handed : Option τ} (ok : ∀ ms, parseAll parse documents = .ok ms → handed.isSome)
    (error : ∀ e, parseAll parse documents = .error e → handed = none) :
    handed = none ↔ ∃ d ∈ documents, ∀ m, parse d ≠ .ok m := by
  have hall : (∃ ms, parseAll parse documents = .ok ms) ↔
      ∀ d ∈ documents, ∃ m, parse d = .ok m := parseAll_isOk
  cases hparsed : parseAll parse documents with
  | ok ms =>
    rw [hparsed] at hall
    refine iff_of_false (Option.isSome_iff_ne_none.mp (ok ms hparsed)) ?_
    rintro ⟨d, hd, hbad⟩
    obtain ⟨m, hm⟩ := hall.mp ⟨ms, rfl⟩ d hd
    exact hbad m hm
  | error e =>
    rw [hparsed] at hall
    refine iff_of_true (error e hparsed) ?_
    by_contra hgood
    push Not at hgood
    obtain ⟨ms, hms⟩ := hall.mpr hgood
    cases hms

theorem articleModels_given_up (date : Nat) (documents : List ArticleDocument) :
    articleModels date documents = none ↔
      ∃ d ∈ documents, ∀ m, Article.ofDocument date d ≠ .ok m :=
  given_up_iff (fun ms h => by simp [articleModels, h]) fun e h => by simp [articleModels, h]

theorem chatMessageModels_given_up (date : Nat) (documents : List ChatMessageDocument) :
    chatMessageModels date documents = none ↔
      ∃ d ∈ documents, ∀ m, ChatMessage.ofDocument date d ≠ .ok m :=
  given_up_iff (fun ms h => by simp [chatMessageModels, h])
    fun e h => by simp [chatMessageModels, h]

theorem chatRoomModels_given_up (date : Nat) (documents : List Document) :
    chatRoomModels date documents = none ↔
      ∃ d ∈ documents, ∀ m, ChatRoom.ofDocument date d ≠ .ok m :=
  given_up_iff (fun ms h => by simp [chatRoomModels, ChatRoom.ofDocuments, h])
    fun e h => by simp [chatRoomModels, ChatRoom.ofDocuments, h]

theorem loginUserModels_given_up (date : Nat) (documents : List LoginUserDocument) :
    loginUserModels date documents = none ↔
      ∃ d ∈ documents, ∀ m, LoginUser.ofDocument date d ≠ .ok m :=
  given_up_iff (fun ms h => by simp [loginUserModels, h])
    fun e h => by simp [loginUserModels, h]

def bindArticle (callbackHandler : Outcome Article → L → L) :
    BindFunction (articlePager (L := L)) where
  cursor := .lastArticleDocument
  query := articleQuery [] none
  call := .bindArticle callbackHandler
  parse := Article.ofDocument
  asks _ := ⟨_, _, _, rfl, rfl, rfl, rfl⟩
  limit := 30
  limited := rfl
  whole := articleModels_given_up

def bindUidArticle (uid : Uid) (callbackHandler : Outcome Article → L → L) :
    BindFunction (articlePager (L := L)) where
  cursor := .lastUidArticle
  query := articleQuery [("uid", .string uid)] none
  call := .bindUidArticle uid callbackHandler
  parse := Article.ofDocument
  asks _ := ⟨_, _, _, rfl, rfl, rfl, rfl⟩
  limit := 30
  limited := rfl
  whole := articleModels_given_up

def bindArticleList (article : Article) (callbackHandler : Outcome Article → L → L) :
    BindFunction (articlePager (L := L)) where
  cursor := .lastArticle
  query := articleQuery [("parentKey", .string article.parentKey)] none
  call := .bindArticleList article callbackHandler
  parse := Article.ofDocument
  asks _ := ⟨_, _, _, rfl, rfl, rfl, rfl⟩
  limit := 30
  limited := rfl
  whole := articleModels_given_up

def bindChatMessage (chatRoom : ChatRoom) (uid : Uid)
    (callbackHandler : Outcome ChatMessage → L → L) :
    BindFunction (chatMessagePager (L := L) chatRoom) where
  cursor := .lastChatMessageDocument
  query := {
    collection := messagesPath chatRoom
    whereField := []
    descending := some "created_at"
    limit := some 20 }
  call := .bindChatMessage (some uid) callbackHandler
  parse := ChatMessage.ofDocument
  asks _ := ⟨_, _, _, rfl, rfl, rfl, rfl⟩
  limit := 20
  limited := rfl
  whole := chatMessageModels_given_up

def bindChatRoom (uid : Uid) (callbackHandler : Outcome ChatRoom → L → L) :
    BindFunction (chatRoomPager (L := L)) where
  cursor := .lastChatRoomDocument
  query := {
    collection := "/chat_room/"
    whereField := [("members." ++ uid, .bool true)]
    limit := some 1000 }
  call := .bindChatRoom (some uid) callbackHandler
  parse := ChatRoom.ofDocument
  asks _ := ⟨_, _, _, rfl, rfl, rfl, rfl⟩
  limit := 1000
  limited := rfl
  whole := chatRoomModels_given_up

def bindUser (callbackHandler : Outcome LoginUser → L → L) :
    BindFunction (userPager (L := L)) where
  cursor := .lastLoginUserDocument
  query := loginUserQuery none
  call := .bindUser callbackHandler
  parse := LoginUser.ofDocument
  asks _ := ⟨_, _, _, rfl, rfl, rfl, rfl⟩
  limit := 60
  limited := rfl
  whole := loginUserModels_given_up

end Services

/-- Whatever is stored and in whatever state the service is: a page that cannot be read is not
asked for again, nothing of it is found by the next call, and the cursor is where it was only
if it stood at the end of this page before. -/
def NeverRetries {H C K V ρ M Q L ν : Type} [DecidableEq H] [DecidableEq C] [LinearOrder ρ]
    {P : Pager H C (K × V) M Q L ν} (b : BindFunction P) (col : Collection K V ρ) : Prop :=
  ∀ (contents : Contents K V) (s : Service H C (K × V) Q L) (n date : Nat)
    (p : Page C (K × V) M L), Delivers b col contents s n date p →
      Skips b col contents s n date p ∧
      ((handled (P := P) col contents s n date).cursors b.cursor = s.cursors b.cursor ↔
        s.cursors b.cursor = (P.found col contents.documents s n).getLast?) ∧
      ¬ Retries b col contents s n date

private theorem never_retries {H C K V ρ M Q L ν : Type} [DecidableEq H] [DecidableEq C]
    [LinearOrder ρ] {P : Pager H C (K × V) M Q L ν} (b : BindFunction P)
    (col : Collection K V ρ) : NeverRetries b col :=
  fun _ _ _ _ _ h => ⟨skips h, not_retries h⟩

theorem unreadable_pages_skipped (L : Type) :
    (∀ (dated : ArticleDocument → Bool) (callbackHandler : Outcome Article → L → L),
      NeverRetries (bindArticle callbackHandler) (articles dated)) ∧
    (∀ (dated : ArticleDocument → Bool) (uid : Uid)
      (callbackHandler : Outcome Article → L → L),
      NeverRetries (bindUidArticle uid callbackHandler) (articles dated)) ∧
    (∀ (dated : ArticleDocument → Bool) (article : Article)
      (callbackHandler : Outcome Article → L → L),
      NeverRetries (bindArticleList article callbackHandler) (articles dated)) ∧
    (∀ (dated : ChatMessageDocument → Bool) (chatRoom : ChatRoom) (uid : Uid)
      (callbackHandler : Outcome ChatMessage → L → L),
      NeverRetries (bindChatMessage chatRoom uid callbackHandler) (messages dated)) ∧
    (∀ (uid : Uid) (callbackHandler : Outcome ChatRoom → L → L),
      NeverRetries (bindChatRoom uid callbackHandler) chatRooms) ∧
    (∀ (dated : LoginUserDocument → Bool) (callbackHandler : Outcome LoginUser → L → L),
      NeverRetries (bindUser callbackHandler) (loginUsers dated)) :=
  ⟨fun _ _ => never_retries _ _, fun _ _ _ => never_retries _ _, fun _ _ _ => never_retries _ _,
    fun _ _ _ _ => never_retries _ _, fun _ _ => never_retries _ _, fun _ _ => never_retries _ _⟩

section Example

private def dated (a : ArticleDocument) : Bool := a.2.createdAt.isSome

private def readable : ArticleDocument :=
  (7, { uid := some "bob", text := some "hello", status := some 1, createdAt := some 3 })

/-- An article without an author. -/
private def broken : ArticleDocument :=
  (8, { uid := none, text := some "hello", status := some 1, createdAt := some 4 })

private def two : Contents Nat ArticleDoc where
  documents := [readable, broken]
  keyed := by decide

private def count (_ : Outcome Article) (n : Nat) : Nat := n + 1

/-- The home screen waits for its first page. -/
private def waiting : ArticleService Nat :=
  articlePager.api.call { lists := 0 } (.bindArticle count)

private def firstPage : ArticlePage Nat where
  query := articleQuery [] none
  cursor := some .lastArticleDocument
  callbackHandler := count

private theorem delivers_broken :
    Delivers (bindArticle count) (articles dated) two waiting 0 9 firstPage where
  active := by decide
  page := rfl
  own := ⟨rfl, rfl⟩
  unreadable := ⟨broken, by decide, fun m hm => nomatch hm⟩

/-- The article that can be read is not found by the next call. -/
theorem readable_article_skipped :
    ¬ ∀ (contents : Contents Nat ArticleDoc) (s : ArticleService Nat) (n date : Nat)
      (p : ArticlePage Nat), Delivers (bindArticle count) (articles dated) contents s n date p →
        Retries (bindArticle count) (articles dated) contents s n date := by
  intro claim
  have hretries := claim two waiting 0 9 firstPage delivers_broken
  have hagain := hretries.found readable (by decide) ⟨_, rfl⟩
  exact absurd hagain (by decide)

theorem unreadable_pages_skipped_broken :
    Delivers (bindArticle count) (articles dated) two waiting 0 9 firstPage ∧
      Skips (bindArticle count) (articles dated) two waiting 0 9 firstPage ∧
      ¬ Retries (bindArticle count) (articles dated) two waiting 0 9 := by
  have hskipped := (unreadable_pages_skipped Nat).1 dated count two waiting 0 9 firstPage
    delivers_broken
  exact ⟨delivers_broken, hskipped.1, hskipped.2.2⟩

end Example

end PlateChat.Binding.Unreadable
