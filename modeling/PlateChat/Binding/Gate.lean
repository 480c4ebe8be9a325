/- PlateChat/Binding/Gate
   digest: How many pages of one service are awaited at a time. -/

import PlateChat.Binding.Hosting
import PlateChat.Foundation.Run

set_option autoImplicit false
set_option relaxedAutoImplicit false

/-!
The listeners of a service share its status: whichever of them delivers opens the gate, also
while another page is awaited.
-/

namespace PlateChat.Binding.Gate

open PlateChat.Foundation.Listening PlateChat.Foundation.Run PlateChat.Model.Members
open PlateChat.Model.Profile PlateChat.Model.Room PlateChat.Model.Message
open PlateChat.Binding.Services PlateChat.Binding.Removal PlateChat.Binding.Users
open PlateChat.Binding.Hosting

/-- A service with the listeners whose first delivery is awaited, and whether another page has
delivered since the last of them was registered. -/
structure Awaiting (H C D Q L : Type) where
  service : Service H C D Q L
  waiting : List Nat := []
  intruded : Bool := false

section Pager

variable {H C D M Q L ν : Type} [DecidableEq H] [DecidableEq C] (P : Pager H C D M Q L ν)

/-- The call passes the status check. -/
def Passes (s : Service H C D Q L) (v : ν) : Prop :=
  (P.asks s v).isSome ∧ s.status ≠ .loading

instance (s : Service H C D Q L) (v : ν) : Decidable (Passes P s v) :=
  inferInstanceAs (Decidable (_ ∧ _))

def call (s : Awaiting H C D Q L) (v : ν) : Awaiting H C D Q L :=
  if Passes P s.service v then {
    service := P.api.call s.service v
    waiting := s.waiting ++ [s.service.handles.listeners.length]
    intruded := false }
  else { s with service := P.api.call s.service v }

def deliver (s : Awaiting H C D Q L) (n : Nat) (a : Answer D) : Awaiting H C D Q L :=
  if s.service.handles.Active n then
    let waiting := s.waiting.filter fun m => m ≠ n
    { service := P.api.deliver s.service n a
      waiting := waiting
      intruded := waiting ≠ [] && (s.intruded || (P.pageOf s.service n).isSome) }
  else s

def step (s : Awaiting H C D Q L) : Event ν D → Option (Awaiting H C D Q L)
  | .call v => some (call P s v)
  | .deliver n a => some (deliver P s n a)

/-- After the event at most one bind call awaits the first delivery of its listener. -/
def OneAwaited (s : Awaiting H C D Q L) (e : Event ν D) : Prop :=
  ∀ t, step P s e = some t → t.waiting.length ≤ 1

/-- No page is asked for while one is awaited and another page has delivered meanwhile. -/
def Undisturbed (s : Awaiting H C D Q L) : Event ν D → Prop
  | .call v => (P.asks s.service v).isSome → s.waiting ≠ [] → s.intruded = false
  | .deliver _ _ => True

/-- While no more than one page is awaited, the gate is shut from the call on until any page
delivers. -/
structure Gated (s : Awaiting H C D Q L) : Prop where
  one : s.waiting.length ≤ 1
  pages : ∀ n ∈ s.waiting, (P.pageOf s.service n).isSome
  shut : s.service.status = .loading ↔ s.waiting ≠ [] ∧ s.intruded = false

variable {P} {s : Awaiting H C D Q L}

private theorem gated_fresh (lists : L) :
    Gated P ({ service := { lists := lists } } : Awaiting H C D Q L) where
  one := Nat.zero_le 1
  pages _ h := nomatch h
  shut := by simp

private theorem call_passed {v : ν} (hpass : Passes P s.service v) :
    call P s v = {
      service := P.api.call s.service v
      waiting := s.waiting ++ [s.service.handles.listeners.length]
      intruded := false } := if_pos hpass

private theorem call_stopped {v : ν} (hpass : ¬ Passes P s.service v) :
    call P s v = { s with service := P.api.call s.service v } := if_neg hpass

private theorem call_one_iff (h : Gated P s) (v : ν) :
    (call P s v).waiting.length ≤ 1 ↔ Undisturbed P s (.call v) := by
  by_cases hpass : Passes P s.service v
  · have hopen := (not_congr h.shut).mp hpass.2
    have hone : (call P s v).waiting.length ≤ 1 ↔ s.waiting = [] := by
      rw [call_passed hpass, List.length_append, List.length_singleton, ← List.length_eq_zero_iff]
      omega
    rw [hone]
    constructor
    · exact fun hnil _ hne => absurd hnil hne
    · intro hundisturbed
      by_contra hne
      exact hopen ⟨hne, hundisturbed hpass.1 hne⟩
  · rw [call_stopped hpass]
    refine iff_of_true h.one fun hasks hne => ?_
    have hloading : s.service.status = .loading := by
      by_contra hidle
      exact hpass ⟨hasks, hidle⟩
    exact (h.shut.mp hloading).2

private theorem gated_call (h : Gated P s) (v : ν) (hone : (call P s v).waiting.length ≤ 1) :
    Gated P (call P s v) := by
  by_cases hpass : Passes P s.service v
  · obtain ⟨⟨h', q⟩, hasks⟩ := Option.isSome_iff_exists.mp hpass.1
    rw [call_passed hpass] at hone ⊢
    have hnil : s.waiting = [] := by
      rw [List.length_append, List.length_singleton] at hone
      exact List.length_eq_zero_iff.mp (by omega)
    refine ⟨hone, fun n hn => ?_, ?_⟩
    · rw [hnil, List.nil_append, List.mem_singleton] at hn
      rw [hn]
      dsimp only
      rw [P.call_of_asks hasks hpass.2, Pager.pageOf, Handles.queryOf_register_self]
      exact (P.asked _ _ _ _ hasks).2
    · dsimp only
      rw [P.call_of_asks hasks hpass.2]
      simp
  · rw [call_stopped hpass]
    refine ⟨h.one, fun n hn => ?_, ?_⟩
    · obtain ⟨p, hp⟩ := Option.isSome_iff_exists.mp (h.pages n hn)
      dsimp only
      rw [P.pageOf_call (P.lt_of_pageOf hp), hp]
      rfl
    · have hstatus : (P.api.call s.service v).status = s.service.status := by
        rcases hasks : P.asks s.service v with _ | ⟨h', q⟩
        · exact (P.other _ _ hasks).1
        · have hloading : s.service.status = .loading := by
            by_contra hidle
            exact hpass ⟨by rw [hasks]; rfl, hidle⟩
          rw [P.call_of_loading hasks hloading]
      dsimp only
      rw [hstatus]
      exact h.shut

private theorem deliver_reached {n : Nat} (hactive : s.service.handles.Active n) (a : Answer D) :
    deliver P s n a = {
      service := P.api.deliver s.service n a
      waiting := s.waiting.filter fun m => m ≠ n
      intruded := s.waiting.filter (fun m => m ≠ n) ≠ [] &&
        (s.intruded || (P.pageOf s.service n).isSome) } := if_pos hactive

private theorem gated_deliver (h : Gated P s) (n : Nat) (a : Answer D) :
    Gated P (deliver P s n a) := by
  by_cases hactive : s.service.handles.Active n
  swap
  · rw [deliver, if_neg hactive]
    exact h
  rw [deliver_reached hactive]
  refine ⟨(List.length_filter_le _ _).trans h.one, fun m hm => ?_, ?_⟩
  · dsimp only
    rw [P.pageOf_deliver]
    exact h.pages m (List.mem_filter.mp hm).1
  rcases hpage : P.pageOf s.service n with _ | p
  · -- a listener without a page is not awaited and leaves the status as it is
    have hsame : s.waiting.filter (fun m => m ≠ n) = s.waiting := by
      rw [List.filter_eq_self]
      intro m hm
      have hsome := h.pages m hm
      apply decide_eq_true
      rintro rfl
      rw [hpage] at hsome
      cases hsome
    dsimp only
    rw [(P.deliver_other (.inr hpage)).1, hsame, h.shut]
    simp only [ne_eq, Option.isSome_none, Bool.or_false, Bool.and_eq_false_imp,
      decide_eq_true_eq]
    exact and_congr_right fun hne => ⟨fun hquiet _ => hquiet, fun hquiet => hquiet hne⟩
  · refine iff_of_false ?_ ?_
    · dsimp only
      rw [P.deliver_of_page hactive hpage]
      exact receive_status _ _ _ _
    · rintro ⟨hne, hquiet⟩
      dsimp only at hne hquiet
      rw [decide_eq_true hne, Option.isSome_some, Bool.or_true] at hquiet
      cases hquiet

/-- At most one page is awaited at every moment exactly in the runs without such a call. -/
theorem one_awaited_iff (lists : L) (events : List (Event ν D)) :
    Along (step P) (OneAwaited P) { service := { lists := lists } } events ↔
      Along (step P) (Undisturbed P) { service := { lists := lists } } events := by
  refine along_congr (P := Gated P) (fun s e h => ?_) (fun s e t h hone ht => ?_)
    (gated_fresh lists)
  · cases e with
    | call v =>
      rw [← call_one_iff h v]
      exact next_iff rfl
    | deliver n a =>
      refine iff_of_true (fun t ht => ?_) trivial
      obtain rfl := Option.some.inj ht
      exact (gated_deliver h n a).one
  · cases e with
    | call v =>
      obtain rfl := Option.some.inj ht
      exact gated_call h v (hone _ rfl)
    | deliver n a =>
      obtain rfl := Option.some.inj ht
      exact gated_deliver h n a

end Pager

/-- For each of the three services. -/
theorem loading_gate_iff {L : Type} (lists : L) :
    (∀ events : List (Event (ArticleCall L) ArticleDocument),
      Along (step articlePager) (OneAwaited articlePager)
          { service := { lists := lists } } events ↔
        Along (step articlePager) (Undisturbed articlePager)
          { service := { lists := lists } } events) ∧
    (∀ (chatRoom : ChatRoom) (events : List (Event (ChatMessageCall L) ChatMessageDocument)),
      Along (step (chatMessagePager chatRoom)) (OneAwaited (chatMessagePager chatRoom))
          { service := { lists := ⟨lists, []⟩ } } events ↔
        Along (step (chatMessagePager chatRoom)) (Undisturbed (chatMessagePager chatRoom))
          { service := { lists := ⟨lists, []⟩ } } events) ∧
    (∀ events : List (Event (UserCall L) LoginUserDocument),
      Along (step userPager) (OneAwaited userPager) { service := { lists := lists } } events ↔
        Along (step userPager) (Undisturbed userPager)
          { service := { lists := lists } } events) := by
  refine ⟨fun events => ?_, fun chatRoom events => ?_, fun events => ?_⟩
  · exact one_awaited_iff lists events
  · exact one_awaited_iff _ events
  · exact one_awaited_iff lists events

section Example

private def greeting : ArticleDocument :=
  (7, { uid := some "bob", text := some "hello", status := some 1, createdAt := some 3 })

/-- The second page is awaited when the first is delivered again and the list is scrolled. -/
private def scrolled : List (Event (ArticleCall Nat) ArticleDocument) :=
  [.call (.bindArticle fun _ n => n), .deliver 0 (.snapshot 4 [greeting]),
    .call (.bindArticle fun _ n => n), .deliver 0 (.snapshot 5 [greeting]),
    .call (.bindArticle fun _ n => n)]

/-- Two pages are then awaited, behind the same document. -/
theorem gate_lets_two_through :
    ¬ Along (step articlePager) (OneAwaited articlePager) { service := { lists := 0 } } scrolled ∧
      ((run (step articlePager) { service := { lists := 0 } } scrolled).map fun s =>
        s.waiting.map fun n => (articlePager.pageOf s.service n).map fun p => p.query.startAfter) =
          some [some (some greeting), some (some greeting)] := by
  refine ⟨fun h => ?_, by decide⟩
  have hlast := ((((h.2 _ rfl).2 _ rfl).2 _ rfl).2 _ rfl).1 _ rfl
  exact absurd hlast (by decide)

end Example

end PlateChat.Binding.Gate
