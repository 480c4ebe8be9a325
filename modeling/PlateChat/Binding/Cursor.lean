/- PlateChat/Binding/Cursor
   digest: How the cursors of a service move as pages are loaded and delivered again. -/

import PlateChat.Binding.Hosting
import PlateChat.Foundation.Run

set_option autoImplicit false
set_option relaxedAutoImplicit false

/-!
Every page goes on listening, and each of its deliveries moves the one cursor of its
function: a first page that is delivered again takes the cursor back to its own end, unless
by then it reaches as far as the later pages have.
-/

namespace PlateChat.Binding.Cursor

open PlateChat.Foundation.Listening PlateChat.Foundation.Paging PlateChat.Foundation.Run
open PlateChat.Model.Members PlateChat.Model.Profile PlateChat.Model.Room
open PlateChat.Model.Message PlateChat.Binding.Services PlateChat.Binding.Removal
open PlateChat.Binding.Users PlateChat.Binding.Hosting

/-- A service and its collection; `furthest` is, for each cursor, the furthest of the last
documents delivered since the cursor was reset. -/
structure Journey (H C K V Q L : Type) where
  service : Service H C (K × V) Q L
  contents : Contents K V
  furthest : C → Option (K × V) := fun _ => none

/-- A snapshot of a page that moves its cursor. -/
structure Arrival (C K V M L : Type) where
  cursor : C
  page : Page C (K × V) M L
  documents : List (K × V)

inductive Act (ν C K V : Type)
  | service (e : Event ν (K × V))
  | contents (contents : Contents K V)
  | reset (c : C)

section Pager

variable {H C K V ρ M Q L ν : Type} [DecidableEq H] [DecidableEq C] [LinearOrder ρ]
  (P : Pager H C (K × V) M Q L ν) (col : Collection K V ρ)

def further : Option (K × V) → Option (K × V) → Option (K × V)
  | some f, some d => if col.rank f ≤ col.rank d then some d else some f
  | none, d => d
  | f, none => f

def arrival (s : Service H C (K × V) Q L) (n : Nat) :
    Answer (K × V) → Option (Arrival C K V M L)
  | .snapshot _ documents =>
    if s.handles.Active n then
      (P.pageOf s n).bind fun page => page.cursor.map fun cursor => ⟨cursor, page, documents⟩
    else none
  | .error => none
  | .nothing => none

def deliver (s : Journey H C K V Q L) (n : Nat) (a : Answer (K × V)) : Journey H C K V Q L :=
  { s with
    service := P.api.deliver s.service n a
    furthest := match arrival P s.service n a with
      | some x => Function.update s.furthest x.cursor
          (further col (s.furthest x.cursor) x.documents.getLast?)
      | none => s.furthest }

def call (s : Journey H C K V Q L) (v : ν) : Journey H C K V Q L :=
  let service := P.api.call s.service v
  { s with
    service := service
    furthest := fun c => if (service.cursors c).isSome then s.furthest c else none }

/-- The owner sets a cursor to nil. -/
def reset (s : Journey H C K V Q L) (c : C) : Journey H C K V Q L :=
  { s with
    service := { s.service with cursors := Function.update s.service.cursors c none }
    furthest := Function.update s.furthest c none }

def step (s : Journey H C K V Q L) : Act ν C K V → Option (Journey H C K V Q L)
  | .service (.call v) => some (call P s v)
  | .service (.deliver n a) => some (deliver P col s n a)
  | .contents contents => some { s with contents := contents }
  | .reset c => some (reset s c)

/-- Such a snapshot holds what the query of its page finds, and that is not nothing. -/
def Found (s : Journey H C K V Q L) : Act ν C K V → Prop
  | .service (.deliver n a) => ∀ x ∈ arrival P s.service n a,
    x.documents = col.fetch x.page.query s.contents.documents ∧ x.documents ≠ []
  | .service (.call _) => True
  | .contents _ => True
  | .reset _ => True

instance [DecidableEq K] [DecidableEq V] (s : Journey H C K V Q L) (e : Act ν C K V) :
    Decidable (Found P col s e) :=
  match e with
  | .service (.deliver n a) =>
    inferInstanceAs (Decidable (∀ x ∈ arrival P s.service n a, _ ∧ _))
  | .service (.call _) => .isTrue trivial
  | .contents _ => .isTrue trivial
  | .reset _ => .isTrue trivial

/-- No cursor stands before the furthest of the last documents delivered. -/
def Kept (s : Journey H C K V Q L) : Prop :=
  ∀ c, ∀ f ∈ s.furthest c, ∃ d ∈ s.service.cursors c, col.rank f ≤ col.rank d

def KeepsNext (s : Journey H C K V Q L) (e : Act ν C K V) : Prop :=
  ∀ t ∈ step P col s e, Kept col t

/-- The query of a page that is delivered reaches as far as the pages delivered before. -/
def ReachesFurthest (s : Journey H C K V Q L) : Act ν C K V → Prop
  | .service (.deliver n a) => ∀ x ∈ arrival P s.service n a, ∀ f ∈ s.furthest x.cursor,
    col.Reaches x.page.query s.contents.documents f
  | .service (.call _) => True
  | .contents _ => True
  | .reset _ => True

instance (s : Journey H C K V Q L) (e : Act ν C K V) : Decidable (ReachesFurthest P col s e) :=
  match e with
  | .service (.deliver n a) =>
    inferInstanceAs (Decidable (∀ x ∈ arrival P s.service n a, ∀ f ∈ s.furthest x.cursor,
      (∀ limit ∈ x.page.query.limit, _) ∧ ∃ y ∈ behind col.rank _ _, _))
  | .service (.call _) => .isTrue trivial
  | .contents _ => .isTrue trivial
  | .reset _ => .isTrue trivial

variable {P col} {s : Journey H C K V Q L}

private theorem mem_arrival {service : Service H C (K × V) Q L} {n : Nat} {a : Answer (K × V)}
    {x : Arrival C K V M L} (h : x ∈ arrival P service n a) :
    service.handles.Active n ∧ P.pageOf service n = some x.page ∧
      x.page.cursor = some x.cursor ∧ ∃ date, a = .snapshot date x.documents := by
  rcases a with _ | _ | ⟨date, documents⟩
  · cases h
  · cases h
  · obtain ⟨hactive, h⟩ := Option.ite_none_right_eq_some.mp h
    obtain ⟨p, hp, h⟩ := Option.bind_eq_some_iff.mp h
    obtain ⟨c, hc, rfl⟩ := Option.map_eq_some_iff.mp h
    exact ⟨hactive, hp, hc, date, rfl⟩

private theorem cursors_of_arrival {n : Nat} {a : Answer (K × V)} {x : Arrival C K V M L}
    (h : x ∈ arrival P s.service n a) : (P.api.deliver s.service n a).cursors =
      Function.update s.service.cursors x.cursor x.documents.getLast? := by
  obtain ⟨hactive, hp, hc, date, rfl⟩ := mem_arrival h
  rw [P.deliver_of_page hactive hp, Pager.told, receive_cursors, hc]

private theorem cursors_of_no_arrival {n : Nat} {a : Answer (K × V)}
    (h : arrival P s.service n a = none) :
    (P.api.deliver s.service n a).cursors = s.service.cursors := by
  by_cases hactive : s.service.handles.Active n
  swap
  · exact (P.deliver_other (.inl hactive)).2
  rcases hp : P.pageOf s.service n with _ | p
  · exact (P.deliver_other (.inr hp)).2
  · rw [P.deliver_of_page hactive hp]
    rcases a with _ | _ | ⟨date, documents⟩
    · rfl
    · rfl
    · have hc : p.cursor = none := by
        rw [arrival, if_pos hactive, hp, Option.bind_some] at h
        exact Option.map_eq_none_iff.mp h
      rw [Pager.told, receive_cursors, hc]

omit [DecidableEq H] in
/-- A cursor is moved and the furthest document with it, unless that one is passed by. -/
private theorem kept_update_iff {s : Journey H C K V Q L} (h : Kept col s) {c : C} {d : K × V} :
    Kept col { s with
        service := { s.service with cursors := Function.update s.service.cursors c (some d) }
        furthest := Function.update s.furthest c (further col (s.furthest c) (some d)) } ↔
      ∀ f, s.furthest c = some f → col.rank f ≤ col.rank d := by
  constructor
  · intro hkept f hf
    by_contra hlt
    have hnew := hkept c f
    dsimp only at hnew
    rw [Function.update_self, Function.update_self, hf, further, if_neg hlt] at hnew
    obtain ⟨d', hd', hle⟩ := hnew rfl
    obtain rfl := Option.some.inj hd'
    exact hlt hle
  · intro hle c' f hf
    dsimp only at hf ⊢
    by_cases hc : c' = c
    · subst hc
      rw [Function.update_self] at hf ⊢
      refine ⟨d, rfl, ?_⟩
      rcases hold : s.furthest c' with _ | f'
      · rw [hold, further] at hf
        obtain rfl := Option.some.inj hf
        exact le_refl _
      · rw [hold, further, if_pos (hle f' hold)] at hf
        obtain rfl := Option.some.inj hf
        exact le_refl _
    · rw [Function.update_of_ne hc] at hf ⊢
      exact h c' f hf

omit [DecidableEq H] [DecidableEq C] in
private theorem kept_of_eq {s t : Journey H C K V Q L} (h : Kept col s)
    (cursors : t.service.cursors = s.service.cursors) (furthest : t.furthest = s.furthest) :
    Kept col t := by
  intro c f hf
  rw [cursors]
  rw [furthest] at hf
  exact h c f hf

private theorem kept_deliver_iff (h : Kept col s) (n : Nat) (a : Answer (K × V))
    (found : Found P col s (.service (.deliver n a))) :
    Kept col (deliver P col s n a) ↔ ReachesFurthest P col s (.service (.deliver n a)) := by
  rcases harrival : arrival P s.service n a with _ | x
  · refine iff_of_true (kept_of_eq h (cursors_of_no_arrival harrival) ?_) ?_
    · simp only [deliver, harrival]
    · intro x hx
      rw [harrival] at hx
      cases hx
  · obtain ⟨hfetch, hne⟩ := found x harrival
    obtain ⟨d, hlast⟩ : ∃ d, x.documents.getLast? = some d :=
      Option.ne_none_iff_exists'.mp (mt List.getLast?_eq_none_iff.mp hne)
    have hdeliver : Kept col (deliver P col s n a) ↔ Kept col { s with
        service := { s.service with
          cursors := Function.update s.service.cursors x.cursor (some d) }
        furthest := Function.update s.furthest x.cursor
          (further col (s.furthest x.cursor) (some d)) } := by
      unfold Kept deliver
      rw [harrival]
      dsimp only
      rw [cursors_of_arrival harrival, hlast]
    rw [hdeliver, kept_update_iff h]
    rw [hfetch] at hlast
    constructor
    · intro hle y hy f hf
      obtain rfl := Option.some.inj (harrival.symm.trans hy)
      exact (col.le_last_fetch_iff hlast).mp (hle f hf)
    · intro hreaches f hf
      exact (col.le_last_fetch_iff hlast).mpr (hreaches x harrival f hf)

private theorem kept_call (h : Kept col s) (v : ν) : Kept col (call P s v) := by
  intro c f hf
  obtain ⟨hsome, hf⟩ := Option.ite_none_right_eq_some.mp hf
  have hcursor : (P.api.call s.service v).cursors c = s.service.cursors c := by
    refine (P.call_cursors s.service v c).resolve_right fun hnone => ?_
    rw [hnone] at hsome
    cases hsome
  show ∃ d, (P.api.call s.service v).cursors c = some d ∧ _
  rw [hcursor]
  exact h c f hf

omit [DecidableEq H] in
private theorem kept_reset (h : Kept col s) (c : C) : Kept col (reset s c) := by
  intro c' f hf
  by_cases hc : c' = c
  · subst hc
    rw [reset] at hf
    dsimp only at hf
    rw [Function.update_self] at hf
    cases hf
  · rw [reset] at hf ⊢
    dsimp only at hf ⊢
    rw [Function.update_of_ne hc] at hf ⊢
    exact h c' f hf

private theorem keepsNext_iff (h : Kept col s) (e : Act ν C K V) (found : Found P col s e) :
    KeepsNext P col s e ↔ ReachesFurthest P col s e := by
  have hnext : ∀ t, step P col s e = some t → (KeepsNext P col s e ↔ Kept col t) :=
    fun _ => next_iff
  rcases e with (v | ⟨n, a⟩) | contents | c
  · rw [hnext _ rfl]
    exact iff_of_true (kept_call h v) trivial
  · rw [hnext _ rfl]
    exact kept_deliver_iff h n a found
  · rw [hnext _ rfl]
    exact iff_of_true h trivial
  · rw [hnext _ rfl]
    exact iff_of_true (kept_reset h c) trivial

/-- In a run of non-empty deliveries, no cursor ever goes back behind what was delivered exactly
if every page that is delivered again reaches as far as those delivered before. -/
theorem kept_along_iff (lists : L) (contents : Contents K V) (events : List (Act ν C K V))
    (found : Along (step P col) (Found P col)
      ⟨{ lists := lists }, contents, fun _ => none⟩ events) :
    Along (step P col) (KeepsNext P col) ⟨{ lists := lists }, contents, fun _ => none⟩ events ↔
      Along (step P col) (ReachesFurthest P col)
        ⟨{ lists := lists }, contents, fun _ => none⟩ events := by
  have hfresh : Kept col (⟨{ lists := lists }, contents, fun _ => none⟩ : Journey H C K V Q L) :=
    fun _ _ hf => nomatch hf
  have hboth :
      Along (step P col) (fun s e => Found P col s e ∧ KeepsNext P col s e)
          ⟨{ lists := lists }, contents, fun _ => none⟩ events ↔
        Along (step P col) (fun s e => Found P col s e ∧ ReachesFurthest P col s e)
          ⟨{ lists := lists }, contents, fun _ => none⟩ events :=
    along_congr (P := Kept col) (fun s e h => and_congr_right fun hf => keepsNext_iff h e hf)
      (fun s e t _ hg ht => hg.2 t ht) hfresh
  rw [along_and_iff, along_and_iff, and_iff_right found, and_iff_right found] at hboth
  exact hboth

end Pager

/-- For each of the three services, whatever is added, changed or removed meanwhile. -/
theorem cursor_monotone_iff {L : Type} (lists : L) :
    (∀ (dated : ArticleDocument → Bool) (contents : Contents Nat ArticleDoc)
      (events : List (Act (ArticleCall L) ArticleCursor Nat ArticleDoc)),
      Along (step articlePager (articles dated)) (Found articlePager (articles dated))
          ⟨{ lists := lists }, contents, fun _ => none⟩ events →
        (Along (step articlePager (articles dated)) (KeepsNext articlePager (articles dated))
            ⟨{ lists := lists }, contents, fun _ => none⟩ events ↔
          Along (step articlePager (articles dated)) (ReachesFurthest articlePager (articles dated))
            ⟨{ lists := lists }, contents, fun _ => none⟩ events)) ∧
    (∀ (dated : ChatMessageDocument → Bool) (chatRoom : ChatRoom)
      (contents : Contents Nat ChatMessageDoc)
      (events : List (Act (ChatMessageCall L) ChatMessageCursor Nat ChatMessageDoc)),
      Along (step (chatMessagePager chatRoom) (messages dated))
          (Found (chatMessagePager chatRoom) (messages dated))
          ⟨{ lists := ⟨lists, []⟩ }, contents, fun _ => none⟩ events →
        (Along (step (chatMessagePager chatRoom) (messages dated))
            (KeepsNext (chatMessagePager chatRoom) (messages dated))
            ⟨{ lists := ⟨lists, []⟩ }, contents, fun _ => none⟩ events ↔
          Along (step (chatMessagePager chatRoom) (messages dated))
            (ReachesFurthest (chatMessagePager chatRoom) (messages dated))
            ⟨{ lists := ⟨lists, []⟩ }, contents, fun _ => none⟩ events)) ∧
    (∀ (dated : LoginUserDocument → Bool) (contents : Contents Uid LoginUserDoc)
      (events : List (Act (UserCall L) LoginUserCursor Uid LoginUserDoc)),
      Along (step userPager (loginUsers dated)) (Found userPager (loginUsers dated))
          ⟨{ lists := lists }, contents, fun _ => none⟩ events →
        (Along (step userPager (loginUsers dated)) (KeepsNext userPager (loginUsers dated))
            ⟨{ lists := lists }, contents, fun _ => none⟩ events ↔
          Along (step userPager (loginUsers dated)) (ReachesFurthest userPager (loginUsers dated))
            ⟨{ lists := lists }, contents, fun _ => none⟩ events)) := by
  refine ⟨fun dated contents events found => ?_, fun dated chatRoom contents events found => ?_,
    fun dated contents events found => ?_⟩
  · exact kept_along_iff lists contents events found
  · exact kept_along_iff _ contents events found
  · exact kept_along_iff lists contents events found

section Example

private def note (n : Nat) : ArticleDocument :=
  (n, { uid := some "bob", text := some "hello", status := some 1, createdAt := some n })

/-- One article more than a page holds. -/
private def notes : Contents Nat ArticleDoc where
  documents := (List.range 31).map note
  keyed := by decide

private def dated (a : ArticleDocument) : Bool := a.2.createdAt.isSome

/-- The newest thirty. -/
private def firstPage : List ArticleDocument := (List.range 30).map fun n => note (30 - n)

private def bindArticle : Act (ArticleCall Nat) ArticleCursor Nat ArticleDoc :=
  .service (.call (.bindArticle fun _ n => n))

private def listed (n date : Nat) (documents : List ArticleDocument) :
    Act (ArticleCall Nat) ArticleCursor Nat ArticleDoc :=
  .service (.deliver n (.snapshot date documents))

/-- Two pages are loaded, then the first is delivered again. -/
private def again : List (Act (ArticleCall Nat) ArticleCursor Nat ArticleDoc) :=
  [bindArticle, listed 0 40 firstPage, bindArticle, listed 1 41 [note 0], listed 0 42 firstPage]

private def start : Journey ArticleHandler ArticleCursor Nat ArticleDoc (ArticlePage Nat) Nat :=
  ⟨{ lists := 0 }, notes, fun _ => none⟩

private theorem found_again : Along (step articlePager (articles dated))
    (Found articlePager (articles dated)) start again := by
  decide +kernel

/-- The cursor then stands at the end of the first page, and the second has been delivered. -/
theorem cursor_goes_back :
    Along (step articlePager (articles dated)) (Found articlePager (articles dated)) start again ∧
      ¬ Along (step articlePager (articles dated)) (KeepsNext articlePager (articles dated))
        start again := by
  refine ⟨found_again, fun h => ?_⟩
  have hreaches := (kept_along_iff 0 notes again found_again).mp h
  have hshort : ¬ Along (step articlePager (articles dated))
      (ReachesFurthest articlePager (articles dated)) start again := by
    decide +kernel
  exact hshort hreaches

theorem cursor_monotone_iff_again :
    Along (step articlePager (articles dated)) (Found articlePager (articles dated)) start again ∧
      (Along (step articlePager (articles dated)) (KeepsNext articlePager (articles dated))
          start again ↔
        Along (step articlePager (articles dated)) (ReachesFurthest articlePager (articles dated))
          start again) :=
  ⟨found_again, (cursor_monotone_iff 0).1 dated notes again found_again⟩

end Example

end PlateChat.Binding.Cursor
