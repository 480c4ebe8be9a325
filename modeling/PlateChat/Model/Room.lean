/- PlateChat/Model/Room
   digest: Chat room documents, their typed read, and the collection they are stored in. -/

import Mathlib.Data.List.Perm.Lattice
import PlateChat.Model.Members

set_option autoImplicit false
set_option relaxedAutoImplicit false

namespace PlateChat.Model.Room

open PlateChat.Foundation.Dictionary PlateChat.Model.Members

/-- A stored room: what a read of each field as its type yields. -/
structure ChatRoomDoc where
  owner : Option Uid
  members : Option (Dict Uid Bool)
  unreadCounts : Option (Dict Uid Int)
  status : Option Int
  createdAt : Option Nat
  updatedAt : Option Nat
  lastUpdateMessage : Option String
  deriving DecidableEq

/-- A document with its id. -/
abbrev Document := Nat × ChatRoomDoc

structure ChatRoom where
  key : Nat
  owner : Uid
  members : Dict Uid Bool
  unreadCounts : Option (Dict Uid Int)
  status : Int
  createdDate : Nat
  updatedDate : Nat
  lastUpdateMessage : Option String
  deriving DecidableEq

/-- The parsed room; `date` is the moment of the parse. -/
def ChatRoom.ofDocument (date : Nat) (room : Document) : Except ModelError ChatRoom :=
  match room.2.owner, room.2.members, room.2.status with
  | some owner, some members, some status => .ok {
      key := room.1
      owner := owner
      members := members
      unreadCounts := some (room.2.unreadCounts.getD (AList.singleton "" 0))
      status := status
      createdDate := room.2.createdAt.getD date
      updatedDate := room.2.updatedAt.getD date
      lastUpdateMessage := room.2.lastUpdateMessage }
  | _, _, _ => .error .parseError

def ChatRoom.ofDocuments (date : Nat) : List Document → Except ModelError (List ChatRoom) :=
  parseAll (ChatRoom.ofDocument date)

/-- The fields without which a room cannot be parsed. -/
def Parses (d : ChatRoomDoc) : Prop :=
  d.owner.isSome ∧ d.members.isSome ∧ d.status.isSome

instance (d : ChatRoomDoc) : Decidable (Parses d) :=
  inferInstanceAs (Decidable (_ ∧ _ ∧ _))

theorem ofDocument_of_parses {room : Document} (h : Parses room.2) (date : Nat) :
    ∃ r, ChatRoom.ofDocument date room = .ok r := by
  obtain ⟨ho, hm, hs⟩ := h
  obtain ⟨owner, ho⟩ := Option.isSome_iff_exists.mp ho
  obtain ⟨members, hm⟩ := Option.isSome_iff_exists.mp hm
  obtain ⟨status, hs⟩ := Option.isSome_iff_exists.mp hs
  unfold ChatRoom.ofDocument
  rw [ho, hm, hs]
  exact ⟨_, rfl⟩

theorem parses_of_ofDocument {room : Document} {date : Nat} {r : ChatRoom}
    (h : ChatRoom.ofDocument date room = .ok r) : Parses room.2 ∧ r.key = room.1 := by
  unfold ChatRoom.ofDocument at h
  split at h
  · have hr := (Except.ok.inj h).symm
    subst hr
    refine ⟨⟨?_, ?_, ?_⟩, rfl⟩ <;> simp only [*, Option.isSome_some]
  · cases h

theorem members_of_parsed {room : Document} {date : Nat} {r : ChatRoom}
    (h : ChatRoom.ofDocument date room = .ok r) : room.2.members = some r.members := by
  unfold ChatRoom.ofDocument at h
  split at h
  · have hr := (Except.ok.inj h).symm
    subst hr
    assumption
  · cases h

theorem status_of_parsed {room : Document} {date : Nat} {r : ChatRoom}
    (h : ChatRoom.ofDocument date room = .ok r) : room.2.status = some r.status := by
  unfold ChatRoom.ofDocument at h
  split at h
  · have hr := (Except.ok.inj h).symm
    subst hr
    assumption
  · cases h

theorem ofDocuments_of_parses {rooms : List Document} (h : ∀ r ∈ rooms, Parses r.2) (date : Nat) :
    ∃ rs, ChatRoom.ofDocuments date rooms = .ok rs :=
  parseAll_of_parsed fun r hr => ofDocument_of_parses (h r hr) date

theorem parses_of_ofDocuments {rooms : List Document} {date : Nat} {rs : List ChatRoom}
    (h : ChatRoom.ofDocuments date rooms = .ok rs) :
    (∀ r ∈ rooms, Parses r.2) ∧ rs.map ChatRoom.key = rooms.map Prod.fst := by
  constructor
  · intro r hr
    obtain ⟨m, hm⟩ := parsed_of_parseAll h hr
    exact (parses_of_ofDocument hm).1
  · exact map_parseAll (fun _ _ hm => (parses_of_ofDocument hm).2) h

/-- A status-1 room of all the given users. -/
def Active (uids : List Uid) (d : ChatRoomDoc) : Prop :=
  d.status = some 1 ∧ ∀ u ∈ uids, memberOf (some ⟨d.members⟩) u = some true

instance (uids : List Uid) (d : ChatRoomDoc) : Decidable (Active uids d) :=
  inferInstanceAs (Decidable (_ ∧ ∀ u ∈ uids, _))

/-- The room that `cerateChatRoom` adds. -/
def newRoom (uid otherUid : Uid) (serverTimestamp : Nat) : ChatRoomDoc where
  owner := some uid
  members := some ((AList.singleton uid true).insert otherUid true)
  unreadCounts := some ((AList.singleton uid 0).insert otherUid 0)
  status := some 1
  createdAt := some serverTimestamp
  updatedAt := some serverTimestamp
  lastUpdateMessage := some ""

theorem memberOf_newRoom (uid otherUid u : Uid) (t : Nat) :
    memberOf (some ⟨(newRoom uid otherUid t).members⟩) u = some true ↔ u = uid ∨ u = otherUid := by
  simp only [memberOf, newRoom, Option.bind_some]
  by_cases ho : u = otherUid
  · subst ho
    simp
  · rw [AList.lookup_insert_ne ho]
    rw [lookup_singleton]
    by_cases hu : u = uid
    · simp [hu]
    · simp [ho, hu]

theorem active_newRoom (uids : List Uid) (uid otherUid : Uid) (t : Nat) :
    Active uids (newRoom uid otherUid t) ↔ ∀ u ∈ uids, u = uid ∨ u = otherUid := by
  simp only [Active, memberOf_newRoom]
  exact and_iff_right rfl

/-- What the program writes into an existing room with `merge: true`. -/
inductive Patch
  | status (value : Int)
  | lastChatTime (text : Option String)
  | unreadCounts (counts : Dict Uid Int)
  deriving DecidableEq

def Patch.apply (p : Patch) (serverTimestamp : Nat) (d : ChatRoomDoc) : ChatRoomDoc :=
  match p with
  | .status value => { d with status := some value }
  | .lastChatTime text => { d with
      updatedAt := some serverTimestamp
      lastUpdateMessage := text.or d.lastUpdateMessage }
  -- the time goes into a field `updatedAt`, which no read of a room looks at
  | .unreadCounts counts => { d with
      unreadCounts := some (match d.unreadCounts with
        | some old => counts ∪ old
        | none => counts) }

/-- The patches that do not revive a room. -/
def Patch.Settling (p : Patch) : Prop := p ≠ .status 1

instance (p : Patch) : Decidable p.Settling := inferInstanceAs (Decidable (p ≠ _))

theorem members_apply (p : Patch) (t : Nat) (d : ChatRoomDoc) :
    (p.apply t d).members = d.members := by
  cases p <;> rfl

theorem active_apply {p : Patch} (hp : p.Settling) {t : Nat} {uids : List Uid} {d : ChatRoomDoc}
    (h : Active uids (p.apply t d)) : Active uids d := by
  refine ⟨?_, fun u hu => ?_⟩
  · cases p with
    | status value =>
      have hv : value = 1 := Option.some.inj h.1
      exact absurd (congrArg Patch.status hv) hp
    | lastChatTime text => exact h.1
    | unreadCounts counts => exact h.1
  · have hm := h.2 u hu
    rw [members_apply] at hm
    exact hm

/-- The collection `chat_room` in the order of its document ids, which are drawn at
random: `place n` is where the `n`-th added document lands. -/
structure RoomStore where
  rooms : List Document
  next : Nat
  clock : Nat
  place : Nat → Nat
  added : List Nat
  nodup : (rooms.map Prod.fst).Nodup
  fresh : ∀ r ∈ rooms, r.1 < next

namespace RoomStore

def empty (place : Nat → Nat) : RoomStore where
  rooms := []
  next := 0
  clock := 0
  place := place
  added := []
  nodup := List.nodup_nil
  fresh _ h := nomatch h

/-- Where the next document goes. -/
def position (s : RoomStore) : Nat := min (s.place s.next) s.rooms.length

private theorem add_perm (s : RoomStore) (d : ChatRoomDoc) :
    (s.rooms.insertIdx s.position (s.next, d)).Perm ((s.next, d) :: s.rooms) :=
  List.perm_insertIdx _ _ (Nat.min_le_right _ _)

/-- `addDocument`. -/
def add (s : RoomStore) (d : ChatRoomDoc) : RoomStore where
  rooms := s.rooms.insertIdx s.position (s.next, d)
  next := s.next + 1
  clock := s.clock + 1
  place := s.place
  added := s.added
  nodup := by
    refine ((s.add_perm d).map Prod.fst).nodup_iff.mpr (List.nodup_cons.mpr ⟨?_, s.nodup⟩)
    intro hmem
    obtain ⟨r, hr, he⟩ := List.mem_map.mp hmem
    have := s.fresh r hr
    omega
  fresh := by
    intro r hr
    rcases List.mem_cons.mp ((s.add_perm d).mem_iff.mp hr) with rfl | hr
    · exact Nat.lt_succ_self _
    · have := s.fresh r hr
      omega

/-- `setData` with `merge: true` on an existing document; the other ones stay as they are. -/
def patch (s : RoomStore) (key : Nat) (p : Patch) : RoomStore where
  rooms := s.rooms.map fun r => if r.1 = key then (r.1, p.apply s.clock r.2) else r
  next := s.next
  clock := s.clock + 1
  place := s.place
  added := s.added
  nodup := by
    rw [List.map_map]
    have hkeys :
        (Prod.fst ∘ fun r : Document => if r.1 = key then (r.1, p.apply s.clock r.2) else r) =
          Prod.fst := by
      funext r
      simp only [Function.comp_apply]
      split <;> rfl
    rw [hkeys]
    exact s.nodup
  fresh := by
    intro r hr
    obtain ⟨q, hq, rfl⟩ := List.mem_map.mp hr
    have := s.fresh q hq
    split <;> exact this

/-- Note which call added a document. -/
def log (s : RoomStore) (call : Nat) : RoomStore :=
  { s with added := call :: s.added }

theorem rooms_add (s : RoomStore) (d : ChatRoomDoc) :
    (s.add d).rooms.Perm ((s.next, d) :: s.rooms) :=
  s.add_perm d

/-- `query` with `members.{uid}` for each user and status 1. -/
def query (s : RoomStore) (uids : List Uid) : List Document :=
  s.rooms.filter fun r => Active uids r.2

theorem mem_query {s : RoomStore} {uids : List Uid} {r : Document} :
    r ∈ s.query uids ↔ r ∈ s.rooms ∧ Active uids r.2 := by
  simp [query]

theorem query_eq_nil {s : RoomStore} {uids : List Uid} :
    s.query uids = [] ↔ ∀ r ∈ s.rooms, ¬ Active uids r.2 := by
  simp [query]

theorem mem_add {s : RoomStore} {d : ChatRoomDoc} {r : Document} :
    r ∈ (s.add d).rooms ↔ r = (s.next, d) ∨ r ∈ s.rooms := by
  rw [(s.rooms_add d).mem_iff, List.mem_cons]

theorem mem_patch {s : RoomStore} {key : Nat} {p : Patch} {r : Document} :
    r ∈ (s.patch key p).rooms ↔
      (r ∈ s.rooms ∧ r.1 ≠ key) ∨
      ∃ d, (key, d) ∈ s.rooms ∧ r = (key, p.apply s.clock d) := by
  simp only [patch, List.mem_map]
  constructor
  · rintro ⟨q, hq, rfl⟩
    split
    · subst key
      exact .inr ⟨q.2, hq, rfl⟩
    · exact .inl ⟨hq, ‹_›⟩
  · rintro (⟨hr, hne⟩ | ⟨d, hd, rfl⟩)
    · exact ⟨r, hr, if_neg hne⟩
    · exact ⟨(key, d), hd, if_pos rfl⟩

theorem eq_of_key {s : RoomStore} {r q : Document} (hr : r ∈ s.rooms) (hq : q ∈ s.rooms)
    (h : r.1 = q.1) : r = q :=
  List.inj_on_of_nodup_map s.nodup hr hq h

end RoomStore

end PlateChat.Model.Room
