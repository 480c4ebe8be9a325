/- PlateChat/Screen/ReadMarks
   digest: Who has read a message, while two members post and mark from old copies. -/

import Mathlib.Data.List.Sublists
import PlateChat.Foundation.Rules
import PlateChat.Screen.Talk

set_option autoImplicit false
set_option relaxedAutoImplicit false

/-!
Every message carries one flag for each member of its room. A mark writes all of them
back from the copy at hand, which may be any version the message ever had, with the
marks of the device itself laid over it. With two members the copy says of the other
one, the sender, what has been the case from the start.
-/

namespace PlateChat.Screen.ReadMarks

open PlateChat.Foundation.Dictionary PlateChat.Foundation.Run PlateChat.Foundation.EventLoop
open PlateChat.Foundation.Rules PlateChat.Model.Members PlateChat.Model.Room
open PlateChat.Model.Message
open PlateChat.Binding.Services (ChatMessageDocument)
open PlateChat.Screen.Talk (unreadsOf)

/-- `setData(["unreads": data], merge: true)`. -/
def mergeUnreads (data : Dict Uid Bool) (d : ChatMessageDoc) : ChatMessageDoc :=
  { d with unreads := some (match d.unreads with
      | some unreads => data ∪ unreads
      | none => data) }

/-- A room with its messages, `next` the next message's id; `rooms` and `versions` list every
version of the room and of a message that was ever stored. -/
structure Talk where
  key : Nat
  room : ChatRoomDoc
  rooms : List ChatRoomDoc
  messages : List ChatMessageDocument := []
  versions : List ChatMessageDocument := []
  next : Nat := 0
  clock : Nat := 0

namespace Talk

/-- The room that `cerateChatRoom` adds. -/
def created (key : Nat) (uid otherUid : Uid) (serverTimestamp : Nat) : Talk where
  key := key
  room := newRoom uid otherUid serverTimestamp
  rooms := [newRoom uid otherUid serverTimestamp]
  clock := serverTimestamp

/-- `addDocument`. -/
def add (s : Talk) (d : ChatMessageDoc) : Talk :=
  { s with
    messages := (s.next, d) :: s.messages
    versions := (s.next, d) :: s.versions
    next := s.next + 1
    clock := s.clock + 1 }

/-- A mark on a message that is not stored would store it. -/
def mark (s : Talk) (messageId : Nat) (data : Dict Uid Bool) : Talk :=
  if messageId ∈ s.messages.map Prod.fst then
    { s with
      messages := s.messages.map fun m =>
        if m.1 = messageId then (messageId, mergeUnreads data m.2) else m
      versions := ((s.messages.filter fun m => m.1 = messageId).map fun m =>
        (messageId, mergeUnreads data m.2)) ++ s.versions
      clock := s.clock + 1 }
  else
    let d : ChatMessageDoc := ⟨none, none, none, some data, none, none⟩
    { s with
      messages := (messageId, d) :: s.messages
      versions := (messageId, d) :: s.versions
      clock := s.clock + 1 }

def patch (s : Talk) (p : Patch) : Talk :=
  { s with
    room := p.apply s.clock s.room
    rooms := p.apply s.clock s.room :: s.rooms
    clock := s.clock + 1 }

end Talk

/-- An image is stored before its message is added. -/
inductive Request
  | putImage (uid : Uid) (chatRoom : ChatRoom)
  | addMessage (data : ChatMessageDoc) (image : Option ChatRoom)
  | setUnreads (messageId : Nat) (data : Dict Uid Bool)
  | lastChatTime (text : Option String)
  deriving DecidableEq

inductive Answer
  | image (url : Option String)
  | written (ok : Bool)
  deriving DecidableEq

/-- Whether the next completion finds its service still there, and somebody signed in. -/
structure Clients where
  service : Bool := true
  signedIn : Bool := true

abbrev Outcome := Effect Clients Request Empty

/-- The document of a new message, without the time that the server fills in. -/
def messageData (uid : Uid) (text : String) (imageURL : Option String) (chatRoom : ChatRoom) :
    ChatMessageDoc where
  sender := some uid
  status := some 1
  createdAt := none
  unreads := some (unreadsOf uid chatRoom)
  text := some text
  imageURL := imageURL

def postChatMessage (c : Clients) (currentUser : Option Uid) (text : String)
    (chatRoom : ChatRoom) : Outcome :=
  match currentUser with
  | some uid => { client := c, requests := [.addMessage (messageData uid text none chatRoom) none] }
  | none => { client := c }

def postImage (c : Clients) (currentUser : Option Uid) (chatRoom : ChatRoom) : Outcome :=
  match currentUser with
  | some uid => { client := c, requests := [.putImage uid chatRoom] }
  | none => { client := c }

/-- Nothing is written if all have read the message, or if the reader has. -/
def updateChatMessageUnread (c : Clients) (currentUser : Option Uid) (chatMessage : ChatMessage) :
    Outcome :=
  match currentUser with
  | some uid =>
    let trues := keep (fun _ unread => unread = true) chatMessage.unreads
    if trues.entries.length = 0 ∨ chatMessage.unreads.lookup uid = some false then { client := c }
    else {
      client := c
      requests := [.setUnreads chatMessage.messageId (chatMessage.unreads.insert uid false)] }
  | none => { client := c }

/-- `finds` is what the next completions will find. -/
inductive Action
  | postChatMessage (currentUser : Option Uid) (text : String) (chatRoom : ChatRoom)
  | postImage (currentUser : Option Uid) (chatRoom : ChatRoom)
  | updateChatMessageUnread (currentUser : Option Uid) (chatMessage : ChatMessage)
  | finds (clients : Clients)

def act (c : Clients) : Action → Outcome
  | .postChatMessage currentUser text chatRoom =>
    ReadMarks.postChatMessage c currentUser text chatRoom
  | .postImage currentUser chatRoom => ReadMarks.postImage c currentUser chatRoom
  | .updateChatMessageUnread currentUser chatMessage =>
    ReadMarks.updateChatMessageUnread c currentUser chatMessage
  | .finds clients => { client := clients }

/-- An image is kept under the number of the write. -/
def serve (s : Talk) : Request → Bool → Talk × Answer
  | .putImage _ _, true =>
    ({ s with clock := s.clock + 1 }, .image (some (toString s.clock ++ ".jpg")))
  | .putImage _ _, false => (s, .image none)
  | .addMessage data _, true => (s.add { data with createdAt := some s.clock }, .written true)
  | .setUnreads messageId data, true => (s.mark messageId data, .written true)
  | .lastChatTime text, true => (s.patch (.lastChatTime text), .written true)
  | .addMessage _ _, false | .setUnreads _ _, false | .lastChatTime _, false => (s, .written false)

def imageText : String := "画像を送信しました"

/-- The image is stored; without its service the members cannot be unwrapped. -/
def imageCompletion (c : Clients) (uid : Uid) (chatRoom : ChatRoom) (imageURL : String) :
    Option Outcome :=
  if c.service then some {
    client := c
    requests := [.addMessage (messageData uid imageText (some imageURL) chatRoom) (some chatRoom)] }
  else none

/-- `updateLastChatTime` follows an image, and unwraps the service's room again. -/
def addCompletion (c : Clients) (image : Option ChatRoom) : Option Outcome :=
  match image with
  | some _ =>
    if c.service then some {
      client := c
      requests := if c.signedIn then [.lastChatTime (some imageText)] else [] }
    else none
  | none => some { client := c }

def handle (c : Clients) : Request → Answer → Option Outcome
  | .putImage uid chatRoom, .image (some imageURL) => imageCompletion c uid chatRoom imageURL
  | .putImage _ _, .image none => some { client := c }
  | .addMessage _ image, .written true => addCompletion c image
  | .addMessage _ _, .written false => some { client := c }
  | .setUnreads _ _, .written _ => some { client := c }
  | .lastChatTime _, .written _ => some { client := c }
  | _, _ => none

def program : Program Talk Clients Action Patch Request Answer Empty Unit where
  act _ c v := some (ReadMarks.act c v)
  serve := ReadMarks.serve
  handle _ c r a := ReadMarks.handle c r a
  snapshot _ _ := ()
  notify _ _ l _ := nomatch l
  env := Talk.patch

abbrev Network := World Talk Clients Request Answer Empty

abbrev step : Network → Event Action Patch → Option Network := program.step

/-- The marks on a message that are on their way. -/
def pendingMarks (inflight : List (Call Request Answer)) (messageId : Nat) :
    List (Dict Uid Bool) :=
  inflight.filterMap fun q => match q.request with
    | .setUnreads key data => if key = messageId then some data else none
    | _ => none

/-- What a device shows of a document before the server has seen its writes. -/
def overlay (marks : List (Dict Uid Bool)) (d : ChatMessageDoc) : ChatMessageDoc :=
  marks.foldl (fun d data => mergeUnreads data d) d

/-- A copy that a member may hold: any version of a message, with some of the marks on it that
are on their way, parsed at any time. -/
def Held (w : Network) (chatMessage : ChatMessage) : Prop :=
  ∃ version ∈ w.server.versions, ∃ marks ∈ (pendingMarks w.inflight version.1).sublists, ∃ date,
    ChatMessage.ofDocument date (version.1, overlay marks version.2) = .ok chatMessage

/-- A copy of the room, likewise. -/
def HeldRoom (w : Network) (chatRoom : ChatRoom) : Prop :=
  ∃ room ∈ w.server.rooms, ∃ date, ChatRoom.ofDocument date (w.server.key, room) = .ok chatRoom

section Members

variable (uid otherUid : Uid)

/-- One of the two that `cerateChatRoom` put into the room. -/
def Member (u : Uid) : Prop := u = uid ∨ u = otherUid

/-- The calls are made by the two members, each from a copy one of them may hold. -/
def ByMembers (w : Network) : Event Action Patch → Prop
  | .act (.postChatMessage currentUser _ chatRoom) =>
    (∀ u ∈ currentUser, Member uid otherUid u) ∧ HeldRoom w chatRoom
  | .act (.postImage currentUser chatRoom) =>
    (∀ u ∈ currentUser, Member uid otherUid u) ∧ HeldRoom w chatRoom
  | .act (.updateChatMessageUnread currentUser chatMessage) =>
    (∀ u ∈ currentUser, Member uid otherUid u) ∧ Held w chatMessage
  | _ => True

/-- One flag for each of the two, and the sender's is off. -/
structure Flagged (d : ChatMessageDoc) (sender : Uid) (unreads : Dict Uid Bool) : Prop where
  sender_eq : d.sender = some sender
  unreads_eq : d.unreads = some unreads
  keys : ∀ u, u ∈ unreads ↔ Member uid otherUid u
  read : unreads.lookup sender = some false

def Sound (d : ChatMessageDoc) : Prop := ∃ sender unreads, Flagged uid otherUid d sender unreads

/-- All a mark ever writes: both flags, and both are off. -/
def AllRead (data : Dict Uid Bool) : Prop :=
  (∀ u, u ∈ data ↔ Member uid otherUid u) ∧ ∀ u ∈ data, data.lookup u = some false

variable {uid otherUid : Uid}

theorem mem_members_newRoom {t : Nat} {members : Dict Uid Bool}
    (h : (newRoom uid otherUid t).members = some members) (u : Uid) :
    u ∈ members ↔ Member uid otherUid u := by
  obtain rfl := Option.some.inj h
  rw [AList.mem_insert]
  have hsingle : u ∈ (AList.singleton uid true : Dict Uid Bool) ↔ u = uid := by
    rw [← AList.lookup_isSome, lookup_singleton]
    by_cases hu : u = uid <;> simp [hu]
  rw [hsingle]
  exact or_comm

/-- A new message is unread by the other member only. -/
theorem sound_messageData {chatRoom : ChatRoom} (hkeys : ∀ u, u ∈ chatRoom.members ↔
    Member uid otherUid u) {sender : Uid} (hsender : Member uid otherUid sender) (text : String)
    (imageURL : Option String) :
    Sound uid otherUid (messageData sender text imageURL chatRoom) := by
  refine ⟨sender, unreadsOf sender chatRoom, rfl, rfl, fun u => ?_, AList.lookup_insert _⟩
  have hinsert : u ∈ unreadsOf sender chatRoom ↔ u = sender ∨ u ∈ chatRoom.members :=
    AList.mem_insert _
  rw [hinsert, hkeys]
  constructor
  · rintro (rfl | h)
    · exact hsender
    · exact h
  · exact Or.inr

theorem allRead_mark {d : ChatMessageDoc} {sender : Uid} {unreads : Dict Uid Bool}
    (h : Flagged uid otherUid d sender unreads) {u : Uid} (hu : Member uid otherUid u)
    (unread : unreads.lookup u ≠ some false) : AllRead uid otherUid (unreads.insert u false) := by
  have hmem : ∀ v, v ∈ unreads.insert u false ↔ Member uid otherUid v := by
    intro v
    rw [AList.mem_insert, h.keys]
    constructor
    · rintro (rfl | hv)
      · exact hu
      · exact hv
    · exact Or.inr
  refine ⟨hmem, fun v hv => ?_⟩
  by_cases hvu : v = u
  · rw [hvu]
    exact AList.lookup_insert _
  · have hne : sender ≠ u := by
      rintro rfl
      exact unread h.read
    have hsender : Member uid otherUid sender := by
      rw [← h.keys, ← AList.lookup_isSome, h.read]
      rfl
    have hvs : v = sender := by
      have hv := (hmem v).mp hv
      unfold Member at hv hu hsender
      grind
    rw [AList.lookup_insert_ne hvu, hvs]
    exact h.read

/-- A flag that is off stays off. -/
def Keeps (d d' : ChatMessageDoc) : Prop :=
  d'.sender = d.sender ∧ ∀ unreads, d.unreads = some unreads →
    ∃ unreads', d'.unreads = some unreads' ∧
      ∀ u, unreads.lookup u = some false → unreads'.lookup u = some false

theorem Keeps.refl (d : ChatMessageDoc) : Keeps d d :=
  ⟨rfl, fun unreads h => ⟨unreads, h, fun _ hu => hu⟩⟩

theorem Keeps.trans {d d' d'' : ChatMessageDoc} (h : Keeps d d') (h' : Keeps d' d'') :
    Keeps d d'' := by
  refine ⟨h'.1.trans h.1, fun unreads hunreads => ?_⟩
  obtain ⟨unreads', hunreads', hoff⟩ := h.2 unreads hunreads
  obtain ⟨unreads'', hunreads'', hoff'⟩ := h'.2 unreads' hunreads'
  exact ⟨unreads'', hunreads'', fun u hu => hoff' u (hoff u hu)⟩

section Mark

variable {data : Dict Uid Bool} {d : ChatMessageDoc} {sender : Uid} {unreads : Dict Uid Bool}

theorem flagged_mergeUnreads (allRead : AllRead uid otherUid data)
    (h : Flagged uid otherUid d sender unreads) :
    Flagged uid otherUid (mergeUnreads data d) sender (data ∪ unreads) := by
  have hmem : sender ∈ data := by
    rw [allRead.1, ← h.keys, ← AList.lookup_isSome, h.read]
    rfl
  refine ⟨h.sender_eq, ?_, fun u => ?_, ?_⟩
  · simp only [mergeUnreads, h.unreads_eq]
  · rw [AList.mem_union, allRead.1, h.keys, or_self]
  · rw [lookup_merge, allRead.2 sender hmem]
    rfl

theorem sound_mergeUnreads (allRead : AllRead uid otherUid data) (h : Sound uid otherUid d) :
    Sound uid otherUid (mergeUnreads data d) := by
  obtain ⟨sender, unreads, hflagged⟩ := h
  exact ⟨sender, data ∪ unreads, flagged_mergeUnreads allRead hflagged⟩

theorem keeps_mergeUnreads (allRead : AllRead uid otherUid data) :
    Keeps d (mergeUnreads data d) := by
  refine ⟨rfl, fun unreads hunreads => ⟨data ∪ unreads, ?_, fun u hu => ?_⟩⟩
  · simp only [mergeUnreads, hunreads]
  · rw [lookup_merge]
    by_cases hmem : u ∈ data
    · rw [allRead.2 u hmem]
      rfl
    · rw [AList.lookup_eq_none.mpr hmem]
      exact hu

theorem sound_overlay {marks : List (Dict Uid Bool)}
    (allRead : ∀ data ∈ marks, AllRead uid otherUid data) {d : ChatMessageDoc}
    (h : Sound uid otherUid d) : Sound uid otherUid (overlay marks d) := by
  induction marks generalizing d with
  | nil => exact h
  | cons data marks ih =>
    have hfirst := sound_mergeUnreads (allRead data List.mem_cons_self) h
    exact ih (fun data hdata => allRead data (List.mem_cons_of_mem _ hdata)) hfirst

end Mark

def Talk.keys (s : Talk) : List Nat := s.messages.map Prod.fst

theorem Talk.mark_stored {s : Talk} {messageId : Nat} (stored : messageId ∈ s.keys)
    (data : Dict Uid Bool) : s.mark messageId data = { s with
      messages := s.messages.map fun m =>
        if m.1 = messageId then (messageId, mergeUnreads data m.2) else m
      versions := ((s.messages.filter fun m => m.1 = messageId).map fun m =>
        (messageId, mergeUnreads data m.2)) ++ s.versions
      clock := s.clock + 1 } :=
  if_pos stored

theorem Talk.keys_mark {s : Talk} {messageId : Nat} (stored : messageId ∈ s.keys)
    (data : Dict Uid Bool) : (s.mark messageId data).keys = s.keys := by
  rw [Talk.mark_stored stored]
  simp only [Talk.keys, List.map_map]
  refine List.map_congr_left fun m _ => ?_
  simp only [Function.comp_apply]
  split
  · exact ‹m.1 = messageId›.symm
  · rfl

theorem Talk.mem_mark {s : Talk} {messageId : Nat} (stored : messageId ∈ s.keys)
    (data : Dict Uid Bool) {m : ChatMessageDocument} (h : m ∈ (s.mark messageId data).messages) :
    m ∈ s.messages ∨ ∃ d, (messageId, d) ∈ s.messages ∧ m = (messageId, mergeUnreads data d) := by
  rw [Talk.mark_stored stored] at h
  obtain ⟨⟨k, d⟩, hmem, rfl⟩ := List.mem_map.mp h
  by_cases hk : k = messageId
  · subst hk
    exact .inr ⟨d, hmem, if_pos rfl⟩
  · exact .inl (by simpa [hk] using hmem)

theorem Talk.mem_versions_mark {s : Talk} {messageId : Nat} (stored : messageId ∈ s.keys)
    (data : Dict Uid Bool) {m : ChatMessageDocument} : m ∈ (s.mark messageId data).versions ↔
      (∃ d, (messageId, d) ∈ s.messages ∧ m = (messageId, mergeUnreads data d)) ∨
        m ∈ s.versions := by
  rw [Talk.mark_stored stored]
  simp only [List.mem_append, List.mem_map, List.mem_filter, decide_eq_true_eq]
  constructor
  · rintro (⟨⟨k, d⟩, ⟨hmem, rfl⟩, rfl⟩ | h)
    · exact .inl ⟨d, hmem, rfl⟩
    · exact .inr h
  · rintro (⟨d, hmem, rfl⟩ | h)
    · exact .inl ⟨(messageId, d), ⟨hmem, rfl⟩, rfl⟩
    · exact .inr h

/-- Messages stay, and so does every flag that is off. -/
def Grows (s t : Talk) : Prop :=
  ∀ k d, (k, d) ∈ s.messages → ∃ d', (k, d') ∈ t.messages ∧ Keeps d d'

theorem Grows.refl (s : Talk) : Grows s s := fun _ d hmem => ⟨d, hmem, Keeps.refl d⟩

theorem Grows.trans {s t u : Talk} (h : Grows s t) (h' : Grows t u) : Grows s u := by
  intro k d hmem
  obtain ⟨d', hmem', hkeeps⟩ := h k d hmem
  obtain ⟨d'', hmem'', hkeeps'⟩ := h' k d' hmem'
  exact ⟨d'', hmem'', hkeeps.trans hkeeps'⟩

theorem Grows.keys {s t : Talk} (h : Grows s t) {k : Nat} (hk : k ∈ s.keys) : k ∈ t.keys := by
  obtain ⟨⟨j, d⟩, hmem, rfl⟩ := List.mem_map.mp hk
  obtain ⟨d', hmem', _⟩ := h j d hmem
  exact List.mem_map.mpr ⟨(j, d'), hmem', rfl⟩

theorem grows_add (s : Talk) (d : ChatMessageDoc) : Grows s (s.add d) :=
  fun _ e hmem => ⟨e, List.mem_cons_of_mem _ hmem, Keeps.refl e⟩

theorem grows_mark {s : Talk} {messageId : Nat} (stored : messageId ∈ s.keys)
    {data : Dict Uid Bool} (allRead : AllRead uid otherUid data) :
    Grows s (s.mark messageId data) := by
  intro k d hmem
  rw [Talk.mark_stored stored]
  by_cases hk : k = messageId
  · subst hk
    refine ⟨mergeUnreads data d, ?_, keeps_mergeUnreads allRead⟩
    exact List.mem_map.mpr ⟨(k, d), hmem, if_pos rfl⟩
  · exact ⟨d, List.mem_map.mpr ⟨(k, d), hmem, if_neg hk⟩, Keeps.refl d⟩

/-- Each message is stored once, and every version of it and of the room is right. -/
structure Kept (uid otherUid : Uid) (s : Talk) : Prop where
  fresh : ∀ m ∈ s.messages, m.1 < s.next
  unique : s.keys.Nodup
  current : ∀ m ∈ s.messages, m ∈ s.versions
  stored : ∀ m ∈ s.versions, m.1 ∈ s.keys
  sound : ∀ m ∈ s.versions, Sound uid otherUid m.2
  room : s.room ∈ s.rooms
  rooms : ∀ room ∈ s.rooms, ∃ t, room.members = (newRoom uid otherUid t).members

theorem kept_add {s : Talk} (h : Kept uid otherUid s) {d : ChatMessageDoc}
    (hsound : Sound uid otherUid d) : Kept uid otherUid (s.add d) where
  fresh := by
    intro m hm
    show m.1 < s.next + 1
    rcases List.mem_cons.mp hm with rfl | hm
    · exact Nat.lt_succ_self _
    · have hlt := h.fresh m hm
      omega
  unique := by
    refine List.nodup_cons.mpr ⟨fun hmem => ?_, h.unique⟩
    obtain ⟨m, hm, hkey⟩ := List.mem_map.mp hmem
    have hlt := h.fresh m hm
    have heq : m.1 = s.next := hkey
    omega
  current := by
    intro m hm
    rcases List.mem_cons.mp hm with rfl | hm
    · exact List.mem_cons_self
    · exact List.mem_cons_of_mem _ (h.current m hm)
  stored := by
    intro m hm
    rcases List.mem_cons.mp hm with rfl | hm
    · exact List.mem_cons_self
    · exact List.mem_cons_of_mem _ (h.stored m hm)
  sound := by
    intro m hm
    rcases List.mem_cons.mp hm with rfl | hm
    · exact hsound
    · exact h.sound m hm
  room := h.room
  rooms := h.rooms

theorem kept_mark {s : Talk} (h : Kept uid otherUid s) {messageId : Nat}
    (stored : messageId ∈ s.keys) {data : Dict Uid Bool} (allRead : AllRead uid otherUid data) :
    Kept uid otherUid (s.mark messageId data) := by
  have hkeys := Talk.keys_mark stored data
  have hroom : (s.mark messageId data).room = s.room ∧
      (s.mark messageId data).rooms = s.rooms ∧ (s.mark messageId data).next = s.next := by
    rw [Talk.mark_stored stored]
    exact ⟨rfl, rfl, rfl⟩
  have hversions := fun m => Talk.mem_versions_mark (m := m) stored data
  refine ⟨fun m hm => ?_, hkeys ▸ h.unique, fun m hm => ?_, fun m hm => ?_, fun m hm => ?_, ?_, ?_⟩
  · rw [hroom.2.2]
    have hkey : m.1 ∈ s.keys := hkeys ▸ List.mem_map_of_mem hm
    obtain ⟨m', hm', heq⟩ := List.mem_map.mp hkey
    rw [← heq]
    exact h.fresh m' hm'
  · rw [hversions]
    exact (Talk.mem_mark stored data hm).symm.imp_right (h.current m)
  · rw [hkeys]
    rcases (hversions m).mp hm with ⟨d, _, rfl⟩ | hold
    · exact stored
    · exact h.stored m hold
  · rcases (hversions m).mp hm with ⟨d, hmem, rfl⟩ | hold
    · exact sound_mergeUnreads allRead (h.sound _ (h.current _ hmem))
    · exact h.sound m hold
  · rw [hroom.1, hroom.2.1]
    exact h.room
  · rw [hroom.2.1]
    exact h.rooms

theorem kept_patch {s : Talk} (h : Kept uid otherUid s) (p : Patch) :
    Kept uid otherUid (s.patch p) where
  fresh := h.fresh
  unique := h.unique
  current := h.current
  stored := h.stored
  sound := h.sound
  room := List.mem_cons_self
  rooms := by
    intro room hroom
    rcases List.mem_cons.mp hroom with rfl | hroom
    · rw [members_apply]
      exact h.rooms _ h.room
    · exact h.rooms room hroom

theorem kept_created (key t : Nat) : Kept uid otherUid (Talk.created key uid otherUid t) where
  fresh _ hm := nomatch hm
  unique := List.nodup_nil
  current _ hm := nomatch hm
  stored _ hm := nomatch hm
  sound _ hm := nomatch hm
  room := List.mem_cons_self
  rooms room hroom := by
    obtain rfl := List.mem_singleton.mp hroom
    exact ⟨t, rfl⟩

/-- What a request in flight is about to write. -/
def RequestSound (uid otherUid : Uid) (s : Talk) : Request → Prop
  | .putImage sender chatRoom =>
    Member uid otherUid sender ∧ ∀ u, u ∈ chatRoom.members ↔ Member uid otherUid u
  | .addMessage data _ => Sound uid otherUid data
  | .setUnreads messageId data => messageId ∈ s.keys ∧ AllRead uid otherUid data
  | .lastChatTime _ => True

def parts (uid otherUid : Uid) : Parts Talk Clients Request Answer Empty where
  server := Kept uid otherUid
  client _ _ := True
  call s q := RequestSound uid otherUid s q.request
  watch _ _ := True

private theorem requestSound_mono {s t : Talk} (grows : Grows s t) {r : Request}
    (h : RequestSound uid otherUid s r) : RequestSound uid otherUid t r := by
  cases r with
  | putImage sender chatRoom => exact h
  | addMessage data image => exact h
  | setUnreads messageId data => exact ⟨grows.keys h.1, h.2⟩
  | lastChatTime text => trivial

private theorem stable_of_grows {s t : Talk} (grows : Grows s t) :
    (parts uid otherUid).Stable s t where
  client _ _ := trivial
  call _ h := requestSound_mono grows h
  watch _ _ := trivial

private theorem admits_quiet {s : Talk} (c : Clients) :
    (parts uid otherUid).Admits s { client := c } := .quiet trivial rfl rfl

private theorem admits_one {s : Talk} {c : Clients} {r : Request}
    (h : RequestSound uid otherUid s r) :
    (parts uid otherUid).Admits s { client := c, requests := [r] } := .one trivial h

private theorem members_of_held {w : Network} (h : Kept uid otherUid w.server)
    {chatRoom : ChatRoom} (held : HeldRoom w chatRoom) (u : Uid) :
    u ∈ chatRoom.members ↔ Member uid otherUid u := by
  obtain ⟨room, hroom, date, hparsed⟩ := held
  obtain ⟨t, hmembers⟩ := h.rooms room hroom
  have hsame : (newRoom uid otherUid t).members = some chatRoom.members :=
    hmembers.symm.trans (members_of_parsed hparsed)
  exact mem_members_newRoom hsame u

private theorem flagged_of_held {w : Network} (h : (parts uid otherUid).Holds w)
    {chatMessage : ChatMessage} (held : Held w chatMessage) :
    chatMessage.messageId ∈ w.server.keys ∧ ∃ d sender,
      Flagged uid otherUid d sender chatMessage.unreads := by
  obtain ⟨version, hversion, marks, hmarks, date, hparsed⟩ := held
  have hallRead : ∀ data ∈ marks, AllRead uid otherUid data := by
    intro data hdata
    have hpending := (List.mem_sublists.mp hmarks).subset hdata
    obtain ⟨⟨request, answer⟩, hq, hsome⟩ := List.mem_filterMap.mp hpending
    have hcall : RequestSound uid otherUid w.server request := h.calls _ hq
    cases request with
    | setUnreads key data' =>
      obtain ⟨_, hsame⟩ := Option.ite_none_right_eq_some.mp hsome
      obtain rfl := Option.some.inj hsame
      exact hcall.2
    | _ => cases hsome
  obtain ⟨sender, unreads, hflagged⟩ :=
    sound_overlay hallRead (h.server.sound version hversion)
  unfold ChatMessage.ofDocument at hparsed
  dsimp only at hparsed
  split at hparsed
  · cases hparsed
    have hunreads :
        (overlay marks version.2).unreads.getD (AList.singleton "" false) = unreads := by
      rw [hflagged.unreads_eq]
      rfl
    exact ⟨h.server.stored version hversion, overlay marks version.2, sender,
      hunreads.symm ▸ hflagged⟩
  · cases hparsed

private theorem act_admits {w : Network} (h : (parts uid otherUid).Holds w) {v : Action}
    (members : ByMembers uid otherUid w (.act v)) :
    (parts uid otherUid).Admits w.server (act w.client v) := by
  cases v with
  | postChatMessage currentUser text chatRoom =>
    rcases currentUser with _ | sender
    · exact admits_quiet w.client
    · have hkeys := members_of_held h.server members.2
      exact admits_one (sound_messageData hkeys (members.1 sender rfl) text none)
  | postImage currentUser chatRoom =>
    rcases currentUser with _ | sender
    · exact admits_quiet w.client
    · exact admits_one ⟨members.1 sender rfl, members_of_held h.server members.2⟩
  | updateChatMessageUnread currentUser chatMessage =>
    rcases currentUser with _ | reader
    · exact admits_quiet w.client
    · obtain ⟨hstored, d, sender, hflagged⟩ := flagged_of_held h members.2
      simp only [act, updateChatMessageUnread]
      split
      · exact admits_quiet w.client
      · rename_i hunread
        have hoff := (not_or.mp hunread).2
        exact admits_one ⟨hstored, allRead_mark hflagged (members.1 reader rfl) hoff⟩
  | finds clients => exact admits_quiet clients

private theorem serve_kept {s : Talk} (h : Kept uid otherUid s) {r : Request} (ok : Bool)
    (hr : RequestSound uid otherUid s r) :
    Kept uid otherUid (serve s r ok).1 ∧ Grows s (serve s r ok).1 := by
  cases ok with
  | false => cases r <;> exact ⟨h, Grows.refl s⟩
  | true =>
    cases r with
    | putImage sender chatRoom =>
      exact ⟨⟨h.fresh, h.unique, h.current, h.stored, h.sound, h.room, h.rooms⟩, Grows.refl s⟩
    | addMessage data image =>
      obtain ⟨sender, unreads, hflagged⟩ := hr
      have hsound : Sound uid otherUid { data with createdAt := some s.clock } :=
        ⟨sender, unreads, hflagged.sender_eq, hflagged.unreads_eq, hflagged.keys, hflagged.read⟩
      exact ⟨kept_add h hsound, grows_add s _⟩
    | setUnreads messageId data =>
      exact ⟨kept_mark h hr.1 hr.2, grows_mark hr.1 hr.2⟩
    | lastChatTime text => exact ⟨kept_patch h _, Grows.refl s⟩

private theorem handle_admits {s : Talk} {c : Clients} {r : Request} {a : Answer} {e : Outcome}
    (hr : RequestSound uid otherUid s r) (he : handle c r a = some e) :
    (parts uid otherUid).Admits s e := by
  unfold handle at he
  split at he
  · unfold imageCompletion at he
    obtain ⟨_, hsent⟩ := Option.ite_none_right_eq_some.mp he
    obtain rfl := Option.some.inj hsent
    exact admits_one (sound_messageData hr.2 hr.1 imageText _)
  · obtain rfl := Option.some.inj he
    exact admits_quiet c
  · unfold addCompletion at he
    split at he
    · obtain ⟨_, hsent⟩ := Option.ite_none_right_eq_some.mp he
      obtain rfl := Option.some.inj hsent
      cases c.signedIn with
      | true => exact admits_one trivial
      | false => exact admits_quiet c
    · obtain rfl := Option.some.inj he
      exact admits_quiet c
  all_goals
    cases he <;> exact admits_quiet c

theorem kept (uid otherUid : Uid) :
    (parts uid otherUid).Kept program (ByMembers uid otherUid) where
  act h hg he := by
    obtain rfl := Option.some.inj he
    exact act_admits h hg
  serve h _ hi := by
    have hr := h.calls _ (List.mem_of_getElem? hi)
    obtain ⟨hserver, hgrows⟩ := serve_kept h.server _ hr
    exact ⟨hserver, stable_of_grows hgrows, requestSound_mono hgrows hr⟩
  handle h _ hi he := handle_admits (h.calls _ (List.mem_of_getElem? hi)) he
  deliver {_ _ _ x _} _ _ _ _ := nomatch x.listener
  env {w p} h _ := ⟨kept_patch h.server p, stable_of_grows (Grows.refl w.server)⟩

private theorem step_grows {w w' : Network} {e : Event Action Patch}
    (h : (parts uid otherUid).Holds w) (hstep : step w e = some w') :
    Grows w.server w'.server := by
  cases Program.step_fires hstep with
  | act _ => exact Grows.refl w.server
  | serve hi => exact (serve_kept h.server _ (h.calls _ (List.mem_of_getElem? hi))).2
  | handle _ _ => exact Grows.refl w.server
  | @deliver _ _ x _ _ _ => exact nomatch x.listener
  | env => exact Grows.refl w.server

private theorem run_grows {w w' : Network} {events : List (Event Action Patch)}
    (members : Along step (ByMembers uid otherUid) w events) (hr : run step w events = some w')
    (h : (parts uid otherUid).Holds w) : Grows w.server w'.server := by
  have hlast := run_keeps
    (P := fun v => (parts uid otherUid).Holds v ∧ Grows w.server v.server)
    (fun v e v' hv hg hstep =>
      ⟨(kept uid otherUid).step hv.1 hg hstep, hv.2.trans (step_grows hv.1 hstep)⟩)
    members hr ⟨h, Grows.refl w.server⟩
  exact hlast.2

/-- The room has been created, and nothing has been said in it. -/
def opened (key : Nat) (uid otherUid : Uid) (serverTimestamp : Nat) (c : Clients) : Network where
  server := Talk.created key uid otherUid serverTimestamp
  client := c

private theorem holds_opened (key t : Nat) (c : Clients) :
    (parts uid otherUid).Holds (opened key uid otherUid t c) where
  server := kept_created key t
  client := trivial
  calls _ hq := nomatch hq
  watches _ hx := nomatch hx

/-- In a room created for two members, every message is flagged for exactly these two and never
unread for its sender, and a flag that is off is still off whatever happens later. -/
theorem read_marks_final {key t : Nat} {c : Clients} {events later : List (Event Action Patch)}
    {w w' : Network}
    (members : Along step (ByMembers uid otherUid) (opened key uid otherUid t c) events)
    (hr : run step (opened key uid otherUid t c) events = some w)
    (members' : Along step (ByMembers uid otherUid) w later)
    (hr' : run step w later = some w') :
    w.server.keys.Nodup ∧ ∀ k d, (k, d) ∈ w.server.messages → ∃ sender unreads,
      Flagged uid otherUid d sender unreads ∧ ∃ d' unreads', (k, d') ∈ w'.server.messages ∧
        d'.sender = some sender ∧ d'.unreads = some unreads' ∧
        ∀ u, unreads.lookup u = some false → unreads'.lookup u = some false := by
  have hholds := (kept uid otherUid).run members hr (holds_opened key t c)
  have hgrows := run_grows members' hr' hholds
  refine ⟨hholds.server.unique, fun k d hmem => ?_⟩
  obtain ⟨sender, unreads, hflagged⟩ := hholds.server.sound _ (hholds.server.current _ hmem)
  obtain ⟨d', hmem', hsender, hkeeps⟩ := hgrows k d hmem
  obtain ⟨unreads', hunreads', hoff⟩ := hkeeps unreads hflagged.unreads_eq
  exact ⟨sender, unreads, hflagged, d', unreads', hmem', hsender.trans hflagged.sender_eq,
    hunreads', hoff⟩

end Members

section Example

private def membersOf : Dict Uid Bool := (AList.singleton "alice" true).insert "bob" true

private def room : ChatRoom where
  key := 5
  owner := "alice"
  members := membersOf
  unreadCounts := some ((AList.singleton "alice" 0).insert "bob" 0)
  status := 1
  createdDate := 3
  updatedDate := 3
  lastUpdateMessage := some ""

/-- The message as it first arrives. -/
private def hello : ChatMessage where
  messageId := 0
  sender := "alice"
  sentDate := 3
  kind := .text "hello"
  unreads := membersOf.insert "alice" false
  status := 1

private def talk : List (Event Action Patch) :=
  [.act (.postChatMessage (some "alice") "hello" room), .serve 0 true,
    .act (.updateChatMessageUnread (some "bob") hello), .serve 1 true]

/-- Bob marks it again from the copy he first had. -/
private def again : List (Event Action Patch) :=
  [.act (.updateChatMessageUnread (some "bob") hello), .serve 2 true]

private theorem held_room {w : Network} (h : w.server.key = 5)
    (h' : newRoom "alice" "bob" 3 ∈ w.server.rooms) : HeldRoom w room :=
  ⟨newRoom "alice" "bob" 3, h', 3, by rw [h]; rfl⟩

private theorem held_hello {w : Network}
    (h : (0, { messageData "alice" "hello" none room with createdAt := some 3 }) ∈
      w.server.versions) : Held w hello :=
  ⟨_, h, [], List.mem_sublists.mpr (List.nil_sublist _), 3, rfl⟩

theorem read_marks_final_again : ∃ w w' : Network,
    run step (opened 5 "alice" "bob" 3 {}) talk = some w ∧ run step w again = some w' ∧
      w.server.keys.Nodup ∧ ∀ k d, (k, d) ∈ w.server.messages → ∃ sender unreads,
        Flagged "alice" "bob" d sender unreads ∧ ∃ d' unreads', (k, d') ∈ w'.server.messages ∧
          d'.sender = some sender ∧ d'.unreads = some unreads' ∧
          ∀ u, unreads.lookup u = some false → unreads'.lookup u = some false := by
  have members : Along step (ByMembers "alice" "bob") (opened 5 "alice" "bob" 3 {}) talk := by
    refine .cons ⟨by simp [Member], held_room rfl List.mem_cons_self⟩ rfl ?_
    refine .cons trivial rfl ?_
    refine .cons ⟨by simp [Member], held_hello List.mem_cons_self⟩ rfl ?_
    exact .cons trivial rfl trivial
  refine ⟨_, _, rfl, rfl, read_marks_final members rfl (?_ : Along step _ _ again) rfl⟩
  refine .cons ⟨by simp [Member], held_hello ?_⟩ rfl ?_
  · exact List.mem_cons_of_mem _ List.mem_cons_self
  · exact .cons trivial rfl trivial

end Example

end PlateChat.Screen.ReadMarks
