/- PlateChat/Screen/Unwraps
   digest: What the chat screens unwrap, against what the two document models let through. -/

import PlateChat.Model.Message
import PlateChat.Screen.ReadMarks
import PlateChat.Screen.Lists

set_option autoImplicit false
set_option relaxedAutoImplicit false

/-!
Two fields of a message and three of a room must be there for a document to parse; what else
is missing is replaced. The screens then take for granted what the replacements do not give.
-/

namespace PlateChat.Screen.Unwraps

open PlateChat.Foundation.Dictionary PlateChat.Model.Members
open PlateChat.Model.Message PlateChat.Model.Room
open PlateChat.Screen.Lists
open PlateChat.Screen.ReadMarks (Clients updateChatMessageUnread)

section Messages

variable (isURL : String → Bool)

/-- `init(from:)`. The missing fields throw before the address of the image is unwrapped;
`isURL` tells which strings `URL(string:)` reads. -/
def initMessage (date : Nat) (document : Nat × ChatMessageDoc) :
    Option (Except ModelError ChatMessage) :=
  match ChatMessage.ofDocument date document with
  | .error e => some (.error e)
  | .ok message =>
    match message.kind with
    | .photo url => if isURL url then some (.ok message) else none
    | .text _ => some (.ok message)

/-- The cell of a message unwraps the mark of the signed-in user. -/
def cellForItemAt (c : Clients) (uid : Uid) (message : ChatMessage) : Option ReadMarks.Outcome :=
  match message.unreads.lookup uid with
  | some true => some (updateChatMessageUnread c (some uid) message)
  | some false => some { client := c }
  | none => none

/-- The document throws, or gives a message whose cell can be made. -/
def MessageShown (c : Clients) (uid : Uid) (date : Nat) (document : Nat × ChatMessageDoc) : Prop :=
  ∃ read, initMessage isURL date document = some read ∧
    ∀ message, read = .ok message → (cellForItemAt c uid message).isSome

variable {isURL}

theorem cellForItemAt_isSome {c : Clients} {uid : Uid} {message : ChatMessage} :
    (cellForItemAt c uid message).isSome ↔ uid ∈ message.unreads := by
  unfold cellForItemAt
  rw [← AList.lookup_isSome]
  cases message.unreads.lookup uid with
  | none => simp
  | some unread => cases unread <;> simp

theorem message_parses_iff (date : Nat) (document : Nat × ChatMessageDoc) :
    (∃ message, ChatMessage.ofDocument date document = .ok message) ↔
      document.2.sender.isSome ∧ document.2.status.isSome := by
  unfold ChatMessage.ofDocument
  dsimp only
  cases document.2.sender <;> cases document.2.status <;> simp

theorem message_of_document {date : Nat} {document : Nat × ChatMessageDoc} {message : ChatMessage}
    (h : ChatMessage.ofDocument date document = .ok message) :
    message.kind = kindOf document.2 ∧
      message.unreads = document.2.unreads.getD (AList.singleton "" false) := by
  unfold ChatMessage.ofDocument at h
  dsimp only at h
  split at h
  · obtain rfl := Except.ok.inj h
    exact ⟨rfl, rfl⟩
  · cases h

theorem initMessage_ok {date : Nat} {document : Nat × ChatMessageDoc} {message : ChatMessage}
    (h : ChatMessage.ofDocument date document = .ok message) :
    initMessage isURL date document =
      if ∀ url, document.2.imageURL = some url → isURL url = true then some (.ok message)
      else none := by
  unfold initMessage
  rw [h]
  dsimp only
  rw [(message_of_document h).1, kindOf]
  cases document.2.imageURL with
  | none => simp
  | some url => simp

/-- A document that parses must have a URL for an image, and the reader among its marks. -/
theorem messageShown_iff (c : Clients) (uid : Uid) (date : Nat) (document : Nat × ChatMessageDoc) :
    MessageShown isURL c uid date document ↔
      (document.2.sender = none ∨ document.2.status = none) ∨
      (∀ url, document.2.imageURL = some url → isURL url = true) ∧
        uid ∈ document.2.unreads.getD (AList.singleton "" false) := by
  have hparses := message_parses_iff date document
  unfold MessageShown
  cases hread : ChatMessage.ofDocument date document with
  | error e =>
    have hmissing : document.2.sender = none ∨ document.2.status = none := by
      rw [hread] at hparses
      by_contra hboth
      rw [not_or, ← ne_eq, ← ne_eq, ← Option.isSome_iff_ne_none, ← Option.isSome_iff_ne_none]
        at hboth
      obtain ⟨message, hmessage⟩ := hparses.mpr hboth
      cases hmessage
    have hthrows : initMessage isURL date document = some (.error e) := by
      rw [initMessage, hread]
    refine iff_of_true ⟨_, hthrows, fun message h => ?_⟩ (.inl hmissing)
    cases h
  | ok message =>
    obtain ⟨hsender, hstatus⟩ := hparses.mp ⟨message, hread⟩
    have hthere : ¬ (document.2.sender = none ∨ document.2.status = none) := by
      rw [not_or]
      exact ⟨Option.isSome_iff_ne_none.mp hsender, Option.isSome_iff_ne_none.mp hstatus⟩
    rw [or_iff_right hthere, initMessage_ok hread, ← (message_of_document hread).2,
      ← cellForItemAt_isSome (c := c)]
    constructor
    · rintro ⟨read, hsome, hcell⟩
      rw [Option.ite_none_right_eq_some] at hsome
      obtain ⟨hurl, hsome⟩ := hsome
      exact ⟨hurl, hcell message (Option.some.inj hsome).symm⟩
    · rintro ⟨hurl, hcell⟩
      refine ⟨.ok message, by rw [if_pos hurl], fun m hm => ?_⟩
      obtain rfl := Except.ok.inj hm
      exact hcell

end Messages

section Rooms

/-- The document throws, or a list that takes it up is filtered. -/
def RoomShown (s : Backend) (document : Document) : Prop :=
  ∀ (d : Screens) (b : Bind Document), d.chatRooms = [] →
    (chatRoomDelivered s d b [document]).isSome

/-- A page is listed unless a room that is then filtered has nobody else in it. -/
theorem chatRoomDelivered_isSome (s : Backend) (d : Screens) (b : Bind Document)
    (documents : List Document) :
    (chatRoomDelivered s d b documents).isSome ↔
      ∀ models, roomModels s documents = some models →
        ∀ room ∈ mergeRooms models d.chatRooms, ∃ uid ∈ room.members, s.currentUser ≠ some uid := by
  unfold chatRoomDelivered
  cases hmodels : roomModels s documents with
  | none => simp
  | some models =>
    dsimp only
    rw [Option.isSome_map, Option.isSome_iff_ne_none, ne_eq, filterBlock_traps]
    simp only [Option.some.injEq, forall_eq']
    push Not
    rfl

theorem message_of_room {date : Nat} {document : Document} {room : ChatRoom}
    (h : ChatRoom.ofDocument date document = .ok room) :
    room.lastUpdateMessage = document.2.lastUpdateMessage := by
  unfold ChatRoom.ofDocument at h
  split at h
  · obtain rfl := Except.ok.inj h
    rfl
  · cases h

theorem mergeRooms_alone {s : Backend} {document : Document} {room : ChatRoom}
    (h : ChatRoom.ofDocument s.account.clock document = .ok room) :
    ∃ models, roomModels s [document] = some models ∧
      ∀ r, r ∈ mergeRooms models [] ↔
        r = room ∧ room.status = 1 ∧ room.lastUpdateMessage ≠ some "" := by
  have hpage : ChatRoom.ofDocuments s.account.clock [document] = .ok [room] :=
    parseAll_cons.mpr ⟨room, [], h, rfl, rfl⟩
  refine ⟨_, by rw [roomModels, hpage], fun r => ?_⟩
  unfold mergeRooms
  rw [List.mem_insertionSort, List.mem_filter, List.append_nil]
  by_cases hstatus : room.status = 1
  · have hlisted : unique ChatRoom.key [room] = [room] := rfl
    simp only [List.insertionSort_cons, List.insertionSort_nil, List.orderedInsert_nil, hstatus,
      List.filter_cons, List.filter_nil, decide_true, if_true, hlisted, List.mem_singleton,
      true_and, decide_eq_true_eq]
    refine and_congr_right fun heq => ?_
    rw [heq]
  · simp [hstatus, unique]

theorem roomShown_iff (s : Backend) (document : Document) :
    RoomShown s document ↔ ¬ Parses document.2 ∨ document.2.status ≠ some 1 ∨
      document.2.lastUpdateMessage = some "" ∨
      ∃ members, document.2.members = some members ∧
        ∃ uid ∈ members, s.currentUser ≠ some uid := by
  have hlist : RoomShown s document ↔ ∀ models, roomModels s [document] = some models →
      ∀ room ∈ mergeRooms models [], ∃ uid ∈ room.members, s.currentUser ≠ some uid := by
    constructor
    · intro h
      have hshown := h { keys := ⟨id, List.Perm.refl⟩ } ⟨0, 0, "", none, 0⟩ rfl
      exact (chatRoomDelivered_isSome _ _ _ _).mp hshown
    · intro h d b hnone
      refine (chatRoomDelivered_isSome _ _ _ _).mpr ?_
      rw [hnone]
      exact h
  rw [hlist]
  by_cases hparses : Parses document.2
  · obtain ⟨room, hroom⟩ := ofDocument_of_parses hparses s.account.clock
    obtain ⟨models, hmodels, hmerged⟩ := mergeRooms_alone hroom
    have hstatus := status_of_parsed hroom
    have hmembers := members_of_parsed hroom
    have hmessage : room.lastUpdateMessage = document.2.lastUpdateMessage := message_of_room hroom
    simp only [hmodels, ne_eq, Option.some.injEq, forall_eq', hmerged, hstatus, hmembers, ← hmessage,
      hparses, not_true_eq_false, false_or, exists_eq_left']
    constructor
    · intro h
      by_cases hactive : room.status = 1
      · by_cases hsilent : room.lastUpdateMessage = some ""
        · exact .inr (.inl hsilent)
        · exact .inr (.inr (h room ⟨rfl, hactive, hsilent⟩))
      · exact .inl hactive
    · rintro (hactive | hsilent | hother) r ⟨rfl, hone, htext⟩
      · exact absurd hone hactive
      · exact absurd hsilent htext
      · exact hother
  · refine iff_of_true (fun models hmodels => ?_) (.inl hparses)
    have hbad : ∀ models, ChatRoom.ofDocuments s.account.clock [document] ≠ .ok models :=
      fun models h => hparses ((parses_of_ofDocuments h).1 document List.mem_cons_self)
    unfold roomModels at hmodels
    split at hmodels
    · rename_i models hread
      exact absurd hread (hbad models)
    · cases hmodels

end Rooms

/-- What the two screens can show, of every document: a message by its image's address and the
reader's mark, a room by its other member; and a page of rooms by the rooms it leaves listed. -/
theorem screens_show_iff (isURL : String → Bool) (c : Clients) (s : Backend) :
    (∀ uid date document, MessageShown isURL c uid date document ↔
      (document.2.sender = none ∨ document.2.status = none) ∨
      (∀ url, document.2.imageURL = some url → isURL url = true) ∧
        uid ∈ document.2.unreads.getD (AList.singleton "" false)) ∧
    (∀ document, RoomShown s document ↔ ¬ Parses document.2 ∨ document.2.status ≠ some 1 ∨
      document.2.lastUpdateMessage = some "" ∨
      ∃ members, document.2.members = some members ∧
        ∃ uid ∈ members, s.currentUser ≠ some uid) ∧
    (∀ d b documents, (chatRoomDelivered s d b documents).isSome ↔
      ∀ models, roomModels s documents = some models →
        ∀ room ∈ mergeRooms models d.chatRooms,
          ∃ uid ∈ room.members, s.currentUser ≠ some uid) :=
  ⟨messageShown_iff c, roomShown_iff s, chatRoomDelivered_isSome s⟩

section Example

/-- Bob's message says nothing of who has read it. -/
private def unmarked : Nat × ChatMessageDoc :=
  (0, { sender := some "bob", status := some 1, createdAt := some 7, unreads := none,
        text := some "hi" })

/-- It parses, and its cell traps. -/
theorem unmarked_message_traps :
    (∃ message, initMessage (fun url => url ≠ "") 7 unmarked = some (.ok message)) ∧
      ¬ ∀ (c : Clients) (document : Nat × ChatMessageDoc),
        MessageShown (fun url => url ≠ "") c "alice" 7 document := by
  refine ⟨⟨_, rfl⟩, fun claim => ?_⟩
  obtain ⟨read, hread, hcell⟩ := claim {} unmarked
  obtain rfl := Option.some.inj hread
  have hmade := hcell _ rfl
  revert hmade
  decide

/-- An address that is none stops the parse itself. -/
example (c : Clients) : ¬ MessageShown (fun url => url ≠ "") c "alice" 7
    (0, { unmarked.2 with imageURL := some "" }) := by
  rintro ⟨read, hread, _⟩
  cases hread

end Example

end PlateChat.Screen.Unwraps
