/- PlateChat/Screen/Talk
   digest: The screen of one room: which listeners it has while it is shown. -/

import PlateChat.Binding.Removal
import PlateChat.Foundation.Run

set_option autoImplicit false
set_option relaxedAutoImplicit false

/-!
The screen asks for the newest page when it is loaded and again after each posted image,
and for the page behind the cursor when it is pulled. Whatever covers it, the profile of
the other member or a picker, makes it disappear, and then its service removes what its
two fields hold; nothing asks for a page when it appears again. The writes to the document
of the room that follow a post are left out.
-/

namespace PlateChat.Screen.Talk

open PlateChat.Foundation.Dictionary PlateChat.Foundation.Run PlateChat.Foundation.Listening
open PlateChat.Model.Members PlateChat.Model.Room PlateChat.Model.Message
open PlateChat.Binding.Services PlateChat.Binding.Removal
open PlateChat.Screen.Lists (unique)

abbrev Chat := ChatMessageService (List ChatMessage)

/-- The service goes: its fields are removed. -/
def deinit (s : Chat) : Chat :=
  { s with handles := (s.handles.remove .bindTalkHandler).remove .bindUpdateChatHandler }

/-- `ChatMessageViewController`. Registrations are numbered over all services the screen has
had; the present one, the `object`-th, made those from `born` on. `uploads` are the images
on their way, each with its service and sender, and `posted` counts those whose follow-up
waits on the main queue. `asked` is set while the newest page has been asked for since the
screen was last covered. -/
structure ChatScreen where
  visible : Bool
  chatRoom : ChatRoom
  chatMessageService : Chat
  object : Nat := 0
  born : Nat := 0
  uploads : List (Nat × Uid) := []
  posted : Nat := 0
  asked : Bool := false

def ChatScreen.messages (s : ChatScreen) : List ChatMessage := s.chatMessageService.lists.lists

/-- New messages go before the held ones of the same id. -/
def showMessages : Outcome ChatMessage → List ChatMessage → List ChatMessage
  | .ok models, messages => (unique ChatMessage.messageId (models ++ messages)).insertionSort
      fun a b => a.sentDate ≤ b.sentDate
  | .error _, messages => messages

def observeMessages (currentUser : Option Uid) (s : ChatScreen) : ChatScreen :=
  { s with
    chatMessageService :=
      ChatMessageService.bindChatMessage s.chatRoom currentUser s.chatMessageService showMessages }

def updateChatUnreadCounts (currentUser : Option Uid) (s : ChatScreen) : ChatScreen :=
  { s with
    chatMessageService :=
      ChatMessageService.updateChatUnreadCounts s.chatRoom currentUser s.chatMessageService }

/-- The room is set, the screen is loaded and appears. -/
def opened (currentUser : Option Uid) (chatRoom : ChatRoom) : ChatScreen :=
  { observeMessages currentUser (updateChatUnreadCounts currentUser {
      visible := true
      chatRoom := chatRoom
      chatMessageService := { lists := ⟨[], []⟩ } }) with
    asked := currentUser.isSome }

def refresh (currentUser : Option Uid) (s : ChatScreen) : ChatScreen :=
  if s.messages.length = 0 then s else observeMessages currentUser s

def viewWillDisappear (s : ChatScreen) : ChatScreen :=
  { s with
    visible := false
    chatMessageService := ChatMessageService.removeSnapshotListener s.chatMessageService
    asked := false }

/-- Nothing but the look of the screen is set up. -/
def viewWillAppear (s : ChatScreen) : ChatScreen := { s with visible := true }

/-- `ChatMessageService(chatRoom)` in place of the present service. -/
def newService (s : ChatScreen) : ChatScreen :=
  { s with
    chatMessageService := {
      handles := (deinit s.chatMessageService).handles.forget
      lists := s.chatMessageService.lists }
    object := s.object + 1
    born := s.chatMessageService.handles.listeners.length }

def aftterImagePost (currentUser : Option Uid) (s : ChatScreen) : ChatScreen :=
  { observeMessages currentUser (updateChatUnreadCounts currentUser (newService s)) with
    posted := s.posted - 1
    asked := currentUser.isSome }

def request (s : ChatScreen) (r : ChatRequest) : ChatScreen :=
  { s with chatMessageService := { s.chatMessageService with
      lists := { s.chatMessageService.lists with
        requests := s.chatMessageService.lists.requests ++ [r] } } }

/-- The members that have not read a message of `uid`. -/
def unreadsOf (uid : Uid) (chatRoom : ChatRoom) : Dict Uid Bool :=
  chatRoom.members.insert uid false

def postChatMessage (currentUser : Option Uid) (text : String) (s : ChatScreen) : ChatScreen :=
  match currentUser with
  | some uid => request s (.addMessage s.chatRoom.key uid text none (unreadsOf uid s.chatRoom))
  | none => s

/-- The image is on its way to the storage. -/
def postImage (currentUser : Option Uid) (s : ChatScreen) : ChatScreen :=
  match currentUser with
  | some uid => { s with uploads := s.uploads ++ [(s.object, uid)] }
  | none => s

/-- The image is stored and its message added; the upload traps if its service is gone. -/
def imageStored (i : Nat) (imageURL : String) (s : ChatScreen) : Option ChatScreen :=
  match s.uploads[i]? with
  | some (object, uid) =>
    if object = s.object then
      some { request s (.addMessage s.chatRoom.key uid "画像を送信しました" (some imageURL)
          (unreadsOf uid s.chatRoom)) with
        uploads := s.uploads.eraseIdx i
        posted := s.posted + 1 }
    else none
  | none => none

/-- A callback of a service that is gone still reaches the screen, and nothing else. -/
def deliver (n : Nat) (a : Answer ChatMessageDocument) (s : ChatScreen) : ChatScreen :=
  let heard := (chatMessageApi s.chatRoom).deliver s.chatMessageService n a
  if s.born ≤ n then { s with chatMessageService := heard }
  else { s with chatMessageService := { s.chatMessageService with
    handles := heard.handles
    lists := { s.chatMessageService.lists with lists := heard.lists.lists } } }

/-- `cover` is the push of the other member's profile or a picker over the screen, `reveal`
the way back to it, `back` the way out. -/
inductive Event
  | open (currentUser : Option Uid) (chatRoom : ChatRoom)
  | cover
  | reveal
  | refresh (currentUser : Option Uid)
  | postText (currentUser : Option Uid) (text : String)
  | postImage (currentUser : Option Uid)
  | imageStored (i : Nat) (imageURL : String)
  | imageFailed (i : Nat)
  | aftterImagePost (currentUser : Option Uid)
  | deliver (n : Nat) (a : Answer ChatMessageDocument)
  | back

/-- An event on the screen; `some none` is the way out. -/
def screenStep (s : ChatScreen) : Event → Option (Option ChatScreen)
  | .open _ _ => none
  | .cover => if s.visible then some (some (viewWillDisappear s)) else none
  | .reveal => if s.visible then none else some (some (viewWillAppear s))
  | .refresh currentUser => if s.visible then some (some (Talk.refresh currentUser s)) else none
  | .postText currentUser text =>
    if s.visible then some (some (postChatMessage currentUser text s)) else none
  | .postImage currentUser =>
    if s.visible then some (some (Talk.postImage currentUser s)) else none
  | .imageStored i imageURL => (Talk.imageStored i imageURL s).map some
  | .imageFailed i =>
    if i < s.uploads.length then some (some { s with uploads := s.uploads.eraseIdx i }) else none
  | .aftterImagePost currentUser =>
    if s.posted = 0 then none else some (some (Talk.aftterImagePost currentUser s))
  | .deliver n a => some (some (Talk.deliver n a s))
  | .back => some none

/-- The screen is there from when it is opened until it is left. -/
def step : Option ChatScreen → Event → Option (Option ChatScreen)
  | none, .open currentUser chatRoom => some (some (opened currentUser chatRoom))
  | none, _ => none
  | some s, e => screenStep s e

/-- The newest page of the room's messages: no start cursor. -/
def newestQuery (chatRoom : ChatRoom) : Query ChatMessageDocument where
  collection := messagesPath chatRoom
  whereField := []
  descending := some "created_at"
  limit := some 20

def OfNewest (chatRoom : ChatRoom) : ChatMessageListener (List ChatMessage) → Prop
  | .talk page => page.query = newestQuery chatRoom
  | .unread _ _ _ => False

instance (chatRoom : ChatRoom) : ∀ q, Decidable (OfNewest chatRoom q)
  | .talk page => inferInstanceAs (Decidable (page.query = newestQuery chatRoom))
  | .unread _ _ _ => .isFalse id

/-- A listener on the newest page that has not been removed. -/
def Standing (chatRoom : ChatRoom) (l : Listener (ChatMessageListener (List ChatMessage))) :
    Prop :=
  l.removed = false ∧ OfNewest chatRoom l.query

instance (chatRoom : ChatRoom) (l : Listener (ChatMessageListener (List ChatMessage))) :
    Decidable (Standing chatRoom l) := inferInstanceAs (Decidable (_ ∧ _))

def Listens (s : ChatScreen) : Prop :=
  ∃ n, s.chatMessageService.handles.Holds (Standing s.chatRoom) n

/-- Some such listener is in no field of the service. -/
def Spare (s : ChatScreen) : Prop :=
  ∃ n, s.chatMessageService.handles.Holds (Standing s.chatRoom) n ∧
    ∀ h, s.chatMessageService.handles.held h ≠ some n

/-- While the screen is shown it listens to the newest page. -/
def Shown (t : Option ChatScreen) : Prop := ∀ s ∈ t, s.visible = true → Listens s

/-- The screen is opened by a signed-in account, and an image is posted by one; when the
screen is shown again, the newest page has been asked for in between. A listener that an
earlier pull has left without a field stands in for each. -/
def Allowed : Option ChatScreen → Event → Prop
  | none, .open currentUser _ => currentUser.isSome
  | some s, .reveal => s.visible = true ∨ s.asked = true ∨ Spare s
  | some s, .aftterImagePost currentUser =>
    s.posted = 0 ∨ s.visible = false ∨ currentUser.isSome ∨ Spare s
  | _, _ => True

section Standing

variable {chatRoom : ChatRoom}
  {s : Handles ChatMessageHandler (ChatMessageListener (List ChatMessage))} {n : Nat}

private theorem holds_released :
    ((s.remove .bindTalkHandler).remove .bindUpdateChatHandler).Holds (Standing chatRoom) n ↔
      s.Holds (Standing chatRoom) n ∧ ∀ h, s.held h ≠ some n := by
  have hstops : ∀ l, ¬ Standing chatRoom (Listener.remove l) := fun l h => nomatch h.1
  rw [Handles.holds_remove hstops, Handles.holds_remove hstops, Handles.held_remove, and_assoc]
  refine and_congr_right fun _ => ⟨fun hfree h => ?_, fun hfree => ⟨hfree _, hfree _⟩⟩
  cases h with
  | bindTalkHandler => exact hfree.1
  | bindUpdateChatHandler => exact hfree.2

private theorem holds_fail (m : Nat) :
    (s.fail m).Holds (Standing chatRoom) n ↔ s.Holds (Standing chatRoom) n :=
  Handles.holds_mark_of_keeps fun _ => Iff.rfl

end Standing

private theorem holds_observeMessages {R : Listener (ChatMessageListener (List ChatMessage)) → Prop}
    (currentUser : Option Uid) {s : ChatScreen} {n : Nat}
    (h : s.chatMessageService.handles.Holds R n) :
    (observeMessages currentUser s).chatMessageService.handles.Holds R n := by
  unfold observeMessages ChatMessageService.bindChatMessage
  cases currentUser with
  | none => exact h
  | some uid =>
    dsimp only [Service.bind]
    split
    · exact h
    · exact Handles.holds_register.mpr (.inr h)

private theorem listens_observeMessages (currentUser : Option Uid) {s : ChatScreen}
    (h : Listens s) : Listens (observeMessages currentUser s) :=
  h.imp fun _ hn => holds_observeMessages currentUser hn

private theorem updateChatUnreadCounts_fields (currentUser : Option Uid) (s : ChatScreen) :
    (updateChatUnreadCounts currentUser s).chatRoom = s.chatRoom ∧
      (updateChatUnreadCounts currentUser s).chatMessageService.status =
        s.chatMessageService.status ∧
      (updateChatUnreadCounts currentUser s).chatMessageService.cursors =
        s.chatMessageService.cursors := by
  refine ⟨rfl, ?_⟩
  dsimp only [updateChatUnreadCounts]
  unfold ChatMessageService.updateChatUnreadCounts
  split
  · split <;> exact ⟨rfl, rfl⟩
  · exact ⟨rfl, rfl⟩

private theorem listens_fresh {s : ChatScreen} (uid : Uid)
    (status : s.chatMessageService.status = .none)
    (cursor : s.chatMessageService.cursors .lastChatMessageDocument = none) :
    Listens (observeMessages (some uid) (updateChatUnreadCounts (some uid) s)) := by
  obtain ⟨hroom, hstatus, hcursors⟩ := updateChatUnreadCounts_fields (some uid) s
  generalize updateChatUnreadCounts (some uid) s = u at hroom hstatus hcursors ⊢
  refine ⟨u.chatMessageService.handles.listeners.length, ?_⟩
  unfold observeMessages ChatMessageService.bindChatMessage
  dsimp only [Service.bind]
  rw [if_neg (by rw [hstatus, status]; exact nofun), Handles.holds_register]
  refine .inl ⟨rfl, rfl, ?_⟩
  show Query.mk _ _ _ (u.chatMessageService.cursors .lastChatMessageDocument) _ _ = _
  rw [hcursors, cursor]
  rfl

private theorem listens_newService_iff {s : ChatScreen} : Listens (newService s) ↔ Spare s :=
  exists_congr fun _ => holds_released

private theorem listens_aftterImagePost_iff {s : ChatScreen} {currentUser : Option Uid} :
    Listens (aftterImagePost currentUser s) ↔ currentUser.isSome = true ∨ Spare s := by
  cases currentUser with
  | none => exact listens_newService_iff.trans (or_iff_right nofun).symm
  | some uid => exact iff_of_true (listens_fresh uid rfl rfl) (.inl rfl)

private theorem listens_opened_iff {chatRoom : ChatRoom} {currentUser : Option Uid} :
    Listens (opened currentUser chatRoom) ↔ currentUser.isSome = true := by
  cases currentUser with
  | none =>
    refine iff_of_false (fun h => ?_) nofun
    obtain ⟨n, l, hl, _⟩ := h
    exact nomatch hl
  | some uid => exact iff_of_true (listens_fresh uid rfl rfl) rfl

/-- Nothing that concerns the listeners on the newest page differs. -/
structure Alike (s t : ChatScreen) : Prop where
  visible : t.visible = s.visible
  asked : t.asked = s.asked
  holds : ∀ n, t.chatMessageService.handles.Holds (Standing t.chatRoom) n ↔
    s.chatMessageService.handles.Holds (Standing s.chatRoom) n
  held : t.chatMessageService.handles.held = s.chatMessageService.handles.held

/-- While the newest page is asked for it is listened to; a covered screen that has not asked
again holds no such listener in its fields. -/
structure Sound (s : ChatScreen) : Prop where
  asked : s.asked = true → Listens s
  bare : s.visible = false → s.asked = false → Listens s → Spare s

private theorem Alike.listens {s t : ChatScreen} (h : Alike s t) : Listens t ↔ Listens s :=
  exists_congr h.holds

private theorem Alike.sound {s t : ChatScreen} (h : Alike s t) (sound : Sound s) : Sound t where
  asked hasked := h.listens.mpr (sound.asked (h.asked ▸ hasked))
  bare hvisible hasked hlistens := by
    obtain ⟨n, hn, hfree⟩ := sound.bare (h.visible ▸ hvisible) (h.asked ▸ hasked)
      (h.listens.mp hlistens)
    refine ⟨n, (h.holds n).mpr hn, ?_⟩
    rw [h.held]
    exact hfree

private theorem alike_request (s : ChatScreen) (r : ChatRequest) : Alike s (request s r) :=
  ⟨rfl, rfl, fun _ => Iff.rfl, rfl⟩

private theorem alike_postChatMessage (currentUser : Option Uid) (text : String) (s : ChatScreen) :
    Alike s (postChatMessage currentUser text s) := by
  cases currentUser with
  | none => exact ⟨rfl, rfl, fun _ => Iff.rfl, rfl⟩
  | some uid => exact alike_request s _

private theorem alike_postImage (currentUser : Option Uid) (s : ChatScreen) :
    Alike s (postImage currentUser s) := by
  cases currentUser <;> exact ⟨rfl, rfl, fun _ => Iff.rfl, rfl⟩

private theorem alike_imageStored {i : Nat} {imageURL : String} {s t : ChatScreen}
    (h : imageStored i imageURL s = some t) : Alike s t := by
  unfold imageStored at h
  split at h
  · split at h
    · obtain rfl := Option.some.inj h
      exact ⟨rfl, rfl, fun _ => Iff.rfl, rfl⟩
    · cases h
  · cases h

private theorem alike_deliver (n : Nat) (a : Answer ChatMessageDocument) (s : ChatScreen) :
    Alike s (deliver n a s) := by
  have hhandles := (chatMessageApi s.chatRoom).deliver_handles s.chatMessageService n a
  have hsame : ∀ t : ChatScreen, t.visible = s.visible → t.asked = s.asked →
      t.chatRoom = s.chatRoom → t.chatMessageService.handles =
        ((chatMessageApi s.chatRoom).deliver s.chatMessageService n a).handles → Alike s t := by
    intro t hvisible hasked hroom ht
    refine ⟨hvisible, hasked, fun k => ?_, ?_⟩
    · rw [ht, hroom]
      rcases hhandles with h | h
      · rw [h]
      · rw [h]
        exact holds_fail n
    · rw [ht]
      rcases hhandles with h | h
      · rw [h]
      · rw [h]
        rfl
  unfold deliver
  dsimp only
  split
  · exact hsame _ rfl rfl rfl rfl
  · exact hsame _ rfl rfl rfl rfl

/-- The events on a screen, by what they do to the listeners on the newest page. -/
inductive Moved (s : ChatScreen) : Event → Option ChatScreen → Prop
  | left : Moved s .back none
  | alike {e : Event} {t : ChatScreen} : Allowed (some s) e → Alike s t → Moved s e (some t)
  | covered : Moved s .cover (some (viewWillDisappear s))
  | revealed : s.visible = false → Moved s .reveal (some (viewWillAppear s))
  | observed (currentUser : Option Uid) : s.visible = true →
      Moved s (.refresh currentUser) (some (observeMessages currentUser s))
  | renewed (currentUser : Option Uid) : s.posted ≠ 0 →
      Moved s (.aftterImagePost currentUser) (some (aftterImagePost currentUser s))

private theorem screenStep_moved {s : ChatScreen} {e : Event} {t : Option ChatScreen}
    (h : screenStep s e = some t) : Moved s e t := by
  have hself : Alike s s := ⟨rfl, rfl, fun _ => Iff.rfl, rfl⟩
  cases e with
  | «open» currentUser chatRoom => cases h
  | cover =>
    obtain ⟨_, h⟩ := Option.ite_none_right_eq_some.mp h
    obtain rfl := Option.some.inj h
    exact .covered
  | reveal =>
    obtain ⟨hvisible, h⟩ := Option.ite_none_left_eq_some.mp h
    obtain rfl := Option.some.inj h
    exact .revealed (Bool.eq_false_iff.mpr hvisible)
  | refresh currentUser =>
    obtain ⟨hvisible, h⟩ := Option.ite_none_right_eq_some.mp h
    obtain rfl := Option.some.inj h
    unfold refresh
    split
    · exact .alike trivial hself
    · exact .observed currentUser hvisible
  | postText currentUser text =>
    obtain ⟨_, h⟩ := Option.ite_none_right_eq_some.mp h
    obtain rfl := Option.some.inj h
    exact .alike trivial (alike_postChatMessage currentUser text s)
  | postImage currentUser =>
    obtain ⟨_, h⟩ := Option.ite_none_right_eq_some.mp h
    obtain rfl := Option.some.inj h
    exact .alike trivial (alike_postImage currentUser s)
  | imageStored i imageURL =>
    obtain ⟨t, ht, rfl⟩ := Option.map_eq_some_iff.mp h
    exact .alike trivial (alike_imageStored ht)
  | imageFailed i =>
    obtain ⟨_, h⟩ := Option.ite_none_right_eq_some.mp h
    obtain rfl := Option.some.inj h
    exact .alike trivial ⟨rfl, rfl, fun _ => Iff.rfl, rfl⟩
  | aftterImagePost currentUser =>
    obtain ⟨hposted, h⟩ := Option.ite_none_left_eq_some.mp h
    obtain rfl := Option.some.inj h
    exact .renewed currentUser hposted
  | deliver n a =>
    obtain rfl := Option.some.inj h
    exact .alike trivial (alike_deliver n a s)
  | back =>
    obtain rfl := Option.some.inj h
    exact .left

private theorem opened_sound (currentUser : Option Uid) (chatRoom : ChatRoom) :
    Sound (opened currentUser chatRoom) where
  asked hasked := listens_opened_iff.mpr hasked
  bare hvisible := nomatch hvisible

private theorem moved_sound {s t : ChatScreen} {e : Event} (moved : Moved s e (some t))
    (sound : Sound s) : Sound t := by
  cases moved with
  | alike _ h => exact h.sound sound
  | covered =>
    refine ⟨nofun, fun _ _ hlistens => ?_⟩
    obtain ⟨n, hn⟩ := hlistens
    obtain ⟨_, hfree⟩ := holds_released.mp hn
    refine ⟨n, hn, ?_⟩
    show ∀ h, (((s.chatMessageService.handles.remove _).remove _).held h) ≠ some n
    rw [Handles.held_remove, Handles.held_remove]
    exact hfree
  | revealed hvisible => exact ⟨sound.asked, nofun⟩
  | observed currentUser hvisible =>
    refine ⟨fun hasked => ?_, fun hcovered => ?_⟩
    · exact listens_observeMessages currentUser (sound.asked hasked)
    · have hshown : s.visible = false := hcovered
      rw [hvisible] at hshown
      cases hshown
  | renewed currentUser hposted =>
    refine ⟨fun hasked => listens_aftterImagePost_iff.mpr (.inl hasked), ?_⟩
    intro _ hasked hlistens
    cases currentUser with
    | none => exact hlistens.imp fun n hn => ⟨hn, fun _ => nofun⟩
    | some uid => cases hasked

private theorem shown_some {s : ChatScreen} :
    Shown (some s) ↔ (s.visible = true → Listens s) := by
  refine ⟨fun h => h s rfl, ?_⟩
  rintro h t ht
  obtain rfl := Option.mem_some_iff.mp ht
  exact h

/-- An event leaves the screen listening while it is shown exactly if it is allowed. -/
private theorem moved_shown_iff {s : ChatScreen} {e : Event} {t : Option ChatScreen}
    (moved : Moved s e t) (sound : Sound s) (shown : Shown (some s)) :
    Shown t ↔ Allowed (some s) e := by
  cases moved with
  | left => exact iff_of_true (fun _ h => nomatch h) trivial
  | alike allowed h =>
    refine iff_of_true (shown_some.mpr fun hvisible => ?_) allowed
    exact h.listens.mpr (shown_some.mp shown (h.visible ▸ hvisible))
  | covered => exact iff_of_true (shown_some.mpr fun hvisible => nomatch hvisible) trivial
  | revealed hvisible =>
    have hlistens : Listens (viewWillAppear s) ↔ s.asked = true ∨ Spare s := by
      constructor
      · intro h
        by_cases hasked : s.asked = true
        · exact .inl hasked
        · exact .inr (sound.bare hvisible (Bool.eq_false_iff.mpr hasked) h)
      · rintro (hasked | ⟨n, hn, _⟩)
        · exact sound.asked hasked
        · exact ⟨n, hn⟩
    have hcovered : ¬ s.visible = true := Bool.eq_false_iff.mp hvisible
    rw [shown_some, Allowed, or_iff_right hcovered, ← hlistens]
    exact ⟨fun h => h rfl, fun h _ => h⟩
  | observed currentUser hvisible =>
    refine iff_of_true (shown_some.mpr fun _ => ?_) trivial
    exact listens_observeMessages currentUser (shown_some.mp shown hvisible)
  | renewed currentUser hposted =>
    have hvisible : (aftterImagePost currentUser s).visible = s.visible := rfl
    rw [shown_some, Allowed, or_iff_right hposted, hvisible, listens_aftterImagePost_iff]
    cases s.visible with
    | true => exact ⟨fun h => .inr (h rfl), fun h _ => h.resolve_left nofun⟩
    | false => exact iff_of_true nofun (.inl rfl)

private theorem step_shown_iff {s t : Option ChatScreen} {e : Event} (h : step s e = some t)
    (sound : ∀ u ∈ s, Sound u) (shown : Shown s) :
    (Shown t ↔ Allowed s e) ∧ ∀ u ∈ t, Sound u := by
  cases s with
  | none =>
    cases e <;> cases h
    rename_i currentUser chatRoom
    refine ⟨shown_some.trans ?_, ?_⟩
    · rw [listens_opened_iff]
      exact ⟨fun h => h rfl, fun h _ => h⟩
    · rintro u hu
      obtain rfl := Option.mem_some_iff.mp hu
      exact opened_sound currentUser chatRoom
  | some s =>
    have hmoved := screenStep_moved h
    refine ⟨moved_shown_iff hmoved (sound s rfl) shown, ?_⟩
    rintro u hu
    obtain rfl := Option.mem_def.mp hu
    exact moved_sound hmoved (sound s rfl)

private theorem allowed_of_refused {s : Option ChatScreen} {e : Event} (h : step s e = none) :
    Allowed s e := by
  cases s with
  | none => cases e <;> first | exact trivial | cases h
  | some s =>
    cases e with
    | reveal =>
      refine .inl ?_
      by_contra hvisible
      have hstep : step (some s) .reveal = some (some (viewWillAppear s)) := if_neg hvisible
      rw [hstep] at h
      cases h
    | aftterImagePost currentUser =>
      refine .inl ?_
      by_contra hposted
      have hstep : step (some s) (.aftterImagePost currentUser) =
          some (some (aftterImagePost currentUser s)) := if_neg hposted
      rw [hstep] at h
      cases h
    | _ => exact trivial

/-- A run keeps the screen listening to the newest page, whenever it is shown, exactly if every
event of it is allowed in the state it meets. -/
theorem newest_page_listened_iff (events : List Event) :
    Along step (fun s e => ∀ t, step s e = some t → Shown t) none events ↔
      Along step Allowed none events := by
  apply along_congr (P := fun s => (∀ u ∈ s, Sound u) ∧ Shown s)
  · rintro s e ⟨sound, shown⟩
    rcases hstep : step s e with _ | t
    · exact iff_of_true nofun (allowed_of_refused hstep)
    · rw [← (step_shown_iff hstep sound shown).1]
      exact ⟨fun h => h t rfl, fun h u hu => Option.some.inj hu ▸ h⟩
  · rintro s e t ⟨sound, shown⟩ hshown hstep
    exact ⟨(step_shown_iff hstep sound shown).2, hshown t hstep⟩
  · exact ⟨nofun, nofun⟩

section Example

private def room : ChatRoom where
  key := 1
  owner := "alice"
  members := (AList.singleton "alice" true).insert "bob" true
  unreadCounts := some (AList.singleton "alice" 2)
  status := 1
  createdDate := 1
  updatedDate := 2
  lastUpdateMessage := some ""

private def hello : ChatMessageDocument :=
  (7, ⟨some "bob", some 1, some 3, none, some "hello", none⟩)

/-- The profile of the other member is looked at, and nobody listens to the room any more. -/
theorem unheard_after_profile : ∃ s : ChatScreen,
    run step none [.open (some "alice") room, .deliver 1 (.snapshot 4 [hello]), .cover, .reveal] =
        some (some s) ∧
      s.visible = true ∧ s.messages.map ChatMessage.messageId = [7] ∧ ¬ Listens s := by
  refine ⟨_, rfl, rfl, by decide, ?_⟩
  unfold Listens
  rw [Handles.exists_holds_iff]
  decide

/-- An earlier pull leaves a listener that no field holds. -/
example : ∃ s : ChatScreen,
    run step none [.open (some "alice") room, .deliver 1 (.snapshot 4 [hello]),
        .refresh (some "alice"), .cover, .reveal] = some (some s) ∧ Listens s := by
  refine ⟨_, rfl, ?_⟩
  unfold Listens
  rw [Handles.exists_holds_iff]
  decide

end Example

end PlateChat.Screen.Talk
