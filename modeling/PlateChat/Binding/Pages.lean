/- PlateChat/Binding/Pages
   digest: What loads made one after the other deliver while the collection stays the same. -/

import PlateChat.Binding.Hosting

set_option autoImplicit false
set_option relaxedAutoImplicit false

/-!
The cursor is moved by every snapshot, also by an empty one, which leaves none: the load
after the end starts from the first page again.
-/

namespace PlateChat.Binding.Pages

open PlateChat.Foundation.Listening PlateChat.Foundation.Paging PlateChat.Model.Members
open PlateChat.Model.Profile PlateChat.Model.Room PlateChat.Model.Message
open PlateChat.Binding.Services PlateChat.Binding.Removal PlateChat.Binding.Users
open PlateChat.Binding.Hosting

section Loads

variable {H C K V ρ M Q L ν : Type} [DecidableEq H] [DecidableEq C] [LinearOrder ρ]
  (P : Pager H C (K × V) M Q L ν) (col : Collection K V ρ) (contents : Contents K V)

/-- A call, and the one snapshot of the listener that it registers. -/
def load (s : Service H C (K × V) Q L) (v : ν) (date : Nat) : Service H C (K × V) Q L :=
  let t := P.api.call s v
  let n := s.handles.listeners.length
  P.api.deliver t n (.snapshot date (P.found col contents.documents t n))

/-- Loads made one after the other, each with its call and the moment of its snapshot. -/
def loads (s : Service H C (K × V) Q L) (requests : Nat → ν × Nat) : Nat → Service H C (K × V) Q L
  | 0 => s
  | j + 1 => load P col contents (loads s requests j) (requests j).1 (requests j).2

/-- What the load `j` delivers, counted from 0. -/
def delivered (s : Service H C (K × V) Q L) (requests : Nat → ν × Nat) (j : Nat) : List (K × V) :=
  let t := loads P col contents s requests j
  P.found col contents.documents (P.api.call t (requests j).1) t.handles.listeners.length

/-- The call asks for the next page of a query behind the cursor `c`. -/
def AsksNext (c : C) (q : Query (K × V)) (v : ν) : Prop :=
  ∀ s, ∃ h q' p, P.asks s v = some (h, q') ∧ P.page q' = some p ∧ p.cursor = some c ∧
    p.query = { q with startAfter := s.cursors c }

variable {P col contents} {s : Service H C (K × V) Q L} {c : C} {q : Query (K × V)} {limit : Nat}

theorem asked_next {v : ν} (next : AsksNext P c q v) (idle : s.status ≠ .loading) :
    ∃ p, P.pageOf (P.api.call s v) s.handles.listeners.length = some p ∧ p.cursor = some c ∧
      p.query = { q with startAfter := s.cursors c } ∧ (P.api.call s v).cursors = s.cursors ∧
      (P.api.call s v).handles.Active s.handles.listeners.length := by
  obtain ⟨h, q', p, hasks, hpage, hcursor, hquery⟩ := next s
  refine ⟨p, ?_, hcursor, hquery, ?_, ?_⟩
  · rw [P.call_of_asks hasks idle, Pager.pageOf, Handles.queryOf_register_self]
    exact hpage
  · rw [P.call_of_asks hasks idle]
  · rw [P.call_of_asks hasks idle]
    exact Handles.active_register.mpr (.inl rfl)

theorem found_next {v : ν} (next : AsksNext P c q v) (idle : s.status ≠ .loading)
    (hlimit : q.limit = some limit) :
    P.found col contents.documents (P.api.call s v) s.handles.listeners.length =
      page col.rank limit (s.cursors c) (col.selected q contents.documents) := by
  obtain ⟨p, hp, _, hquery, _, _⟩ := asked_next next idle
  rw [P.found_of_page col hp, hquery]
  exact col.fetch_of_limit (q := { q with startAfter := s.cursors c }) hlimit _

private theorem load_next {v : ν} (next : AsksNext P c q v) (idle : s.status ≠ .loading)
    (hlimit : q.limit = some limit) (date : Nat) :
    (load P col contents s v date).status ≠ .loading ∧
      (load P col contents s v date).cursors c =
        (page col.rank limit (s.cursors c) (col.selected q contents.documents)).getLast? := by
  obtain ⟨p, hp, hcursor, _, hcursors, hactive⟩ := asked_next next idle
  unfold load
  dsimp only
  rw [found_next next idle hlimit, P.deliver_of_page hactive hp, Pager.told]
  refine ⟨receive_status _ _ _ _, ?_⟩
  rw [receive_cursors, hcursor]
  exact Function.update_self _ _ _

private theorem loads_stand {requests : Nat → ν × Nat}
    (next : ∀ j, AsksNext P c q (requests j).1) (hlimit : q.limit = some limit) (pos : 0 < limit)
    (idle : s.status ≠ .loading) (start : s.cursors c = none) (j : Nat) :
    (loads P col contents s requests j).status ≠ .loading ∧
      StandsAt col.rank limit (col.selected q contents.documents)
        (j % lap limit (col.selected q contents.documents).length)
        ((loads P col contents s requests j).cursors c) := by
  induction j with
  | zero =>
    refine ⟨idle, ?_⟩
    show StandsAt _ _ _ _ (s.cursors c)
    rw [Nat.zero_mod, start]
    exact standsAt_none
  | succ j ih =>
    obtain ⟨hidle, hstands⟩ := ih
    have hload : (loads P col contents s requests (j + 1)).status ≠ .loading ∧
        (loads P col contents s requests (j + 1)).cursors c =
          (page col.rank limit ((loads P col contents s requests j).cursors c)
            (col.selected q contents.documents)).getLast? :=
      load_next (next j) hidle hlimit (requests j).2
    refine ⟨hload.1, ?_⟩
    rw [hload.2]
    exact hstands.load (col.selected_distinct q contents) pos

/-- The loads go on through the collection until one delivers nothing, and then from its
beginning: only the first round and the empty page of each later one are what they should be. -/
structure Rounds (col : Collection K V ρ) (contents : Contents K V) (q : Query (K × V))
    (limit : Nat) (delivered : Nat → List (K × V)) : Prop where
  round : ∀ j, delivered j = slice col.rank limit
    (j % lap limit (col.selected q contents.documents).length) (col.selected q contents.documents)
  exact_iff : ∀ j, delivered j = slice col.rank limit j (col.selected q contents.documents) ↔
    j < lap limit (col.selected q contents.documents).length ∨
      j % lap limit (col.selected q contents.documents).length + 1 =
        lap limit (col.selected q contents.documents).length

private theorem rounds {requests : Nat → ν × Nat} (next : ∀ j, AsksNext P c q (requests j).1)
    (hlimit : q.limit = some limit) (pos : 0 < limit) (idle : s.status ≠ .loading)
    (start : s.cursors c = none) :
    Rounds col contents q limit (delivered P col contents s requests) := by
  have hround : ∀ j, delivered P col contents s requests j = slice col.rank limit
      (j % lap limit (col.selected q contents.documents).length)
      (col.selected q contents.documents) := by
    intro j
    have hloads : (loads P col contents s requests j).status ≠ .loading ∧
        StandsAt col.rank limit _ _ ((loads P col contents s requests j).cursors c) :=
      loads_stand next hlimit pos idle start j
    obtain ⟨hidle, hstands⟩ := hloads
    unfold delivered
    dsimp only
    rw [found_next (next j) hidle hlimit, hstands.page_eq]
  refine ⟨hround, fun j => ?_⟩
  rw [hround]
  exact slice_mod_eq_iff pos

end Loads

section Binds

variable {L : Type}

/-- For each of the five functions, from an object that is not loading and has no cursor. -/
theorem pages_in_rounds :
    (∀ (dated : ArticleDocument → Bool) (contents : Contents Nat ArticleDoc) (s : ArticleService L)
      (callbacks : Nat → Outcome Article → L → L) (dates : Nat → Nat),
      s.status ≠ .loading → s.cursors .lastArticleDocument = none →
        Rounds (articles dated) contents (articleQuery [] none) 30
          (delivered articlePager (articles dated) contents s
            fun j => (.bindArticle (callbacks j), dates j))) ∧
    (∀ (dated : ArticleDocument → Bool) (contents : Contents Nat ArticleDoc) (s : ArticleService L)
      (uid : Uid) (callbacks : Nat → Outcome Article → L → L) (dates : Nat → Nat),
      s.status ≠ .loading → s.cursors .lastUidArticle = none →
        Rounds (articles dated) contents (articleQuery [("uid", .string uid)] none) 30
          (delivered articlePager (articles dated) contents s
            fun j => (.bindUidArticle uid (callbacks j), dates j))) ∧
    (∀ (dated : ArticleDocument → Bool) (contents : Contents Nat ArticleDoc) (s : ArticleService L)
      (article : Article) (callbacks : Nat → Outcome Article → L → L) (dates : Nat → Nat),
      s.status ≠ .loading → s.cursors .lastArticle = none →
        Rounds (articles dated) contents
          (articleQuery [("parentKey", .string article.parentKey)] none) 30
          (delivered articlePager (articles dated) contents s
            fun j => (.bindArticleList article (callbacks j), dates j))) ∧
    (∀ (dated : LoginUserDocument → Bool) (contents : Contents Uid LoginUserDoc) (s : UserService L)
      (callbacks : Nat → Outcome LoginUser → L → L) (dates : Nat → Nat),
      s.status ≠ .loading → s.cursors .lastLoginUserDocument = none →
        Rounds (loginUsers dated) contents (loginUserQuery none) 60
          (delivered userPager (loginUsers dated) contents s
            fun j => (.bindUser (callbacks j), dates j))) ∧
    (∀ (dated : ChatMessageDocument → Bool) (contents : Contents Nat ChatMessageDoc)
      (chatRoom : ChatRoom) (s : ChatMessageService L) (uid : Uid)
      (callbacks : Nat → Outcome ChatMessage → L → L) (dates : Nat → Nat),
      s.status ≠ .loading → s.cursors .lastChatMessageDocument = none →
        Rounds (messages dated) contents
          (ChatMessageService.talkPage chatRoom s (callbacks 0)).query 20
          (delivered (chatMessagePager chatRoom) (messages dated) contents s
            fun j => (.bindChatMessage (some uid) (callbacks j), dates j))) := by
  refine ⟨fun dated contents s callbacks dates idle start => ?_,
    fun dated contents s uid callbacks dates idle start => ?_,
    fun dated contents s article callbacks dates idle start => ?_,
    fun dated contents s callbacks dates idle start => ?_,
    fun dated contents chatRoom s uid callbacks dates idle start => ?_⟩
  · exact rounds (fun j s => ⟨_, _, _, rfl, rfl, rfl, rfl⟩) rfl (by decide) idle start
  · exact rounds (fun j s => ⟨_, _, _, rfl, rfl, rfl, rfl⟩) rfl (by decide) idle start
  · exact rounds (fun j s => ⟨_, _, _, rfl, rfl, rfl, rfl⟩) rfl (by decide) idle start
  · exact rounds (fun j s => ⟨_, _, _, rfl, rfl, rfl, rfl⟩) rfl (by decide) idle start
  · exact rounds (fun j s => ⟨_, _, _, rfl, rfl, rfl, rfl⟩) rfl (by decide) idle start

end Binds

section Example

private def hello : ArticleDocument :=
  (7, { uid := some "bob", text := some "hello", status := some 1, createdAt := some 3 })

private def one : Contents Nat ArticleDoc where
  documents := [hello]
  keyed := by decide

private def dated (a : ArticleDocument) : Bool := a.2.createdAt.isSome

private def home : ArticleService Nat := { lists := 0 }

/-- The third load of a single article delivers it again. -/
theorem page_after_end_is_first :
    let requests : Nat → ArticleCall Nat × Nat := fun j => (.bindArticle fun _ n => n + 1, j)
    delivered articlePager (articles dated) one home requests 0 = [hello] ∧
      delivered articlePager (articles dated) one home requests 1 = [] ∧
      delivered articlePager (articles dated) one home requests 2 = [hello] ∧
      slice (articles dated).rank 30 2
        ((articles dated).selected (articleQuery [] none) one.documents) = [] := by
  decide

theorem pages_in_rounds_one : home.status ≠ .loading ∧ home.cursors .lastArticleDocument = none ∧
    Rounds (articles dated) one (articleQuery [] none) 30
      (delivered articlePager (articles dated) one home
        fun j => (.bindArticle fun _ n => n + 1, j)) := by
  refine ⟨by decide, rfl, ?_⟩
  exact pages_in_rounds.1 dated one home (fun _ _ n => n + 1) (fun j => j) (by decide) rfl

end Example

end PlateChat.Binding.Pages
