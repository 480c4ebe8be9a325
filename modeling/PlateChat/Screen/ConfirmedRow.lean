/- PlateChat/Screen/ConfirmedRow
   digest: The row whose user is blocked when the alert over the list of rooms is confirmed. -/

import PlateChat.Foundation.Recency
import PlateChat.Screen.Deleted

set_option autoImplicit false
set_option relaxedAutoImplicit false

/-!
The alert that asks before a user is blocked remembers the row that was swiped, and what is
blocked is whoever stands in that row once it is confirmed. In the meantime the listener goes on:
a room in which somebody talks comes to the front.
-/

namespace PlateChat.Screen.ConfirmedRow

open PlateChat.Foundation.Run PlateChat.Foundation.Merge PlateChat.Foundation.Recency
open PlateChat.Model.Members PlateChat.Model.Room
open PlateChat.Screen.Lists (Backend Screens KeyOrder mergeRooms otherMember filterBlock Unblocked)
open PlateChat.Screen.Deleted (withRooms observeChatRoomList)

/-- `blockUser`: the other member of the room in the row. It traps if there is no such room. -/
def blockUser (s : Backend) (d : Screens) (row : Nat) : Option Uid :=
  (d.chatRooms[row]?).bind (otherMember d.keys s.currentUser)

/-- The room is listed: it has a message, and its other member is not blocked. -/
structure Listed (s : Backend) (d : Screens) (room : ChatRoom) : Prop where
  message : room.lastUpdateMessage ≠ some ""
  other : (otherMember d.keys s.currentUser room).isSome
  unblocked : Unblocked s d room

/-- The listed rooms, each once, the one last talked in first. -/
structure Orderly (s : Backend) (d : Screens) : Prop where
  keyed : Keyed ChatRoom.key d.chatRooms
  sorted : d.chatRooms.Pairwise fun a b => b.updatedDate < a.updatedDate
  listed : ∀ room ∈ d.chatRooms, Listed s d room

/-- Somebody has talked in `room`, and the listener delivers all rooms: the others that are listed
are as they were, and the rest are not to be listed. -/
structure News (s : Backend) (d : Screens) (room : ChatRoom) (models : List ChatRoom) : Prop where
  mem : version ChatRoom.key models room.key = some room
  newest : ∀ held ∈ d.chatRooms, held.updatedDate < room.updatedDate
  listed : Listed s d room
  others : ∀ m ∈ models, m.key ≠ room.key → m ∈ d.chatRooms ∨
    m.key ∉ d.chatRooms.map ChatRoom.key ∧
      (m.lastUpdateMessage = some "" ∨
        (otherMember d.keys s.currentUser m).isSome ∧ ¬ Unblocked s d m)

/-- A delivery that tells of one room. -/
structure Delivery where
  room : ChatRoom
  models : List ChatRoom

def step (s : Backend) (d : Screens) (e : Delivery) : Option Screens :=
  (observeChatRoomList (.ok e.models) (some (s, d))).map Prod.snd

def Talked (s : Backend) (d : Screens) (e : Delivery) : Prop := News s d e.room e.models

section Step

variable {s : Backend} {d : Screens} {room : ChatRoom} {models : List ChatRoom}

theorem mem_merged {held : List ChatRoom} {x : ChatRoom} :
    x ∈ mergeRooms models held ↔ (version ChatRoom.key models x.key).or
      (version ChatRoom.key held x.key) = some x ∧ x.lastUpdateMessage ≠ some "" := by
  rw [mergeRooms, List.mem_insertionSort, List.mem_filter, Lists.unique_eq, mem_unique,
    version_append, decide_eq_true_eq]

/-- The talked room, and what was listed beside it. -/
def raised (d : Screens) (room : ChatRoom) : List ChatRoom :=
  room :: d.chatRooms.filter fun held => held.key ≠ room.key

theorem keys_raised (d : Screens) (room : ChatRoom) :
    (raised d room).map ChatRoom.key = touch (d.chatRooms.map ChatRoom.key) room.key := by
  rw [raised, List.map_cons, touch, List.filter_map]
  rfl

theorem mem_raised {x : ChatRoom} :
    x ∈ raised d room ↔ x = room ∨ x ∈ d.chatRooms ∧ x.key ≠ room.key := by
  simp [raised]

theorem merged_of_raised (orderly : Orderly s d) (news : News s d room models) {x : ChatRoom}
    (hx : x ∈ raised d room) : x ∈ mergeRooms models d.chatRooms := by
  rcases mem_raised.mp hx with rfl | ⟨hheld, hne⟩
  · exact mem_merged.mpr ⟨by rw [news.mem, Option.some_or], news.listed.message⟩
  · have hversion : version ChatRoom.key d.chatRooms x.key = some x :=
      (version_eq_some orderly.keyed).mpr ⟨hheld, rfl⟩
    refine mem_merged.mpr ⟨?_, (orderly.listed x hheld).message⟩
    cases hm : version ChatRoom.key models x.key with
    | none => rw [Option.none_or, hversion]
    | some m =>
      have hkey : m.key = x.key := key_of_version hm
      rcases news.others m (mem_of_version hm) (hkey ▸ hne) with hlisted | ⟨hout, -⟩
      · have hsame := (version_eq_some orderly.keyed).mpr ⟨hlisted, hkey⟩
        rw [Option.some_or, ← hversion, hsame]
      · exact absurd (hkey ▸ List.mem_map_of_mem hheld) hout

/-- What the merge holds beside the raised rooms, the filter removes without a trap. -/
theorem raised_of_merged (news : News s d room models) {x : ChatRoom}
    (hx : x ∈ mergeRooms models d.chatRooms) : x ∈ raised d room ∨
      (otherMember d.keys s.currentUser x).isSome ∧ ¬ Unblocked s d x := by
  obtain ⟨hversion, hmessage⟩ := mem_merged.mp hx
  by_cases hkey : x.key = room.key
  · rw [hkey, news.mem, Option.some_or] at hversion
    exact .inl (mem_raised.mpr (.inl (Option.some.inj hversion).symm))
  · rcases Option.or_eq_some_iff.mp hversion with hmodel | ⟨-, hheld⟩
    · rcases news.others x (mem_of_version hmodel) hkey with hlisted | ⟨-, hsilent | hhidden⟩
      · exact .inl (mem_raised.mpr (.inr ⟨hlisted, hkey⟩))
      · exact absurd hsilent hmessage
      · exact .inr hhidden
    · exact .inl (mem_raised.mpr (.inr ⟨mem_of_version hheld, hkey⟩))

theorem listed_raised (orderly : Orderly s d) (news : News s d room models) :
    ∀ x ∈ raised d room, Listed s d x := by
  intro x hx
  rcases mem_raised.mp hx with rfl | ⟨hheld, -⟩
  · exact news.listed
  · exact orderly.listed x hheld

theorem sorted_raised (orderly : Orderly s d) (news : News s d room models) :
    (raised d room).Pairwise fun a b => b.updatedDate < a.updatedDate := by
  refine List.pairwise_cons.mpr ⟨fun held hheld => ?_, orderly.sorted.filter _⟩
  exact news.newest held (List.mem_filter.mp hheld).1

theorem keyed_raised (orderly : Orderly s d) (room : ChatRoom) :
    Keyed ChatRoom.key (raised d room) := by
  unfold Keyed
  rw [keys_raised]
  exact nodup_touch orderly.keyed room.key

theorem filter_merged (orderly : Orderly s d) (news : News s d room models) :
    ((mergeRooms models d.chatRooms).filter fun room => Unblocked s d room) = raised d room := by
  have hkeyed : Keyed ChatRoom.key (mergeRooms models d.chatRooms) := by
    have hunique : Keyed ChatRoom.key ((unique ChatRoom.key (models ++ d.chatRooms)).filter
        fun room => room.lastUpdateMessage ≠ some "") :=
      (keyed_unique ChatRoom.key (models ++ d.chatRooms)).sublist (List.filter_sublist.map _)
    exact hunique.perm (List.perm_insertionSort _ _)
  have hnodup := (hkeyed.of_map.filter fun room => decide (Unblocked s d room))
  have hperm : ((mergeRooms models d.chatRooms).filter fun room => Unblocked s d room).Perm
      (raised d room) := by
    refine (List.perm_ext_iff_of_nodup hnodup (keyed_raised orderly room).of_map).mpr fun x => ?_
    rw [List.mem_filter, decide_eq_true_eq]
    constructor
    · rintro ⟨hx, hunblocked⟩
      rcases raised_of_merged news hx with hraised | ⟨-, hblocked⟩
      · exact hraised
      · exact absurd hunblocked hblocked
    · intro hx
      exact ⟨merged_of_raised orderly news hx, (listed_raised orderly news x hx).unblocked⟩
  have hsorted := sorted_raised orderly news
  have hdates : ((raised d room).map ChatRoom.updatedDate).Nodup :=
    List.pairwise_map.mpr (hsorted.imp fun h => Nat.ne_of_gt h)
  have hmerged : (mergeRooms models d.chatRooms).Pairwise
      fun a b => b.updatedDate ≤ a.updatedDate :=
    List.pairwise_insertionSort (fun a b : ChatRoom => b.updatedDate ≤ a.updatedDate) _
  refine hperm.eq_of_pairwise (fun a b ha hb hab hba => ?_) (hmerged.filter _)
    (hsorted.imp Nat.le_of_lt)
  exact List.inj_on_of_nodup_map hdates (hperm.mem_iff.mp ha) hb (Nat.le_antisymm hba hab)

theorem step_raised (orderly : Orderly s d) (news : News s d room models) :
    step s d ⟨room, models⟩ = some (withRooms d (raised d room)) := by
  have hother : ∀ x ∈ mergeRooms models d.chatRooms,
      (otherMember d.keys s.currentUser x).isSome := by
    intro x hx
    rcases raised_of_merged news hx with hraised | ⟨hsome, -⟩
    · exact (listed_raised orderly news x hraised).other
    · exact hsome
  have hfilter : filterBlock s (withRooms d (mergeRooms models d.chatRooms)) =
      some (withRooms d ((mergeRooms models d.chatRooms).filter fun room =>
        Unblocked s d room)) := if_pos hother
  rw [step, observeChatRoomList, hfilter, filter_merged orderly news]
  rfl

theorem orderly_raised (orderly : Orderly s d) (news : News s d room models) :
    Orderly s (withRooms d (raised d room)) := by
  refine ⟨keyed_raised orderly room, sorted_raised orderly news, fun x hx => ?_⟩
  obtain ⟨hmessage, hother, hunblocked⟩ := listed_raised orderly news x hx
  exact ⟨hmessage, hother, hunblocked⟩

end Step

/-- The rooms that were talked in, in order. -/
def talked (deliveries : List Delivery) : List Nat := deliveries.map fun e => e.room.key

/-- After a run of deliveries the rooms stand as their keys were touched. -/
theorem run_talked {s : Backend} {d : Screens} (orderly : Orderly s d) {es : List Delivery}
    (along : Along (step s) (Talked s) d es) : ∃ d', run (step s) d es = some d' ∧ Orderly s d' ∧
      d'.chatRooms.map ChatRoom.key = (talked es).foldl touch (d.chatRooms.map ChatRoom.key) ∧
      d'.keys = d.keys := by
  induction es generalizing d with
  | nil => exact ⟨d, rfl, orderly, rfl, rfl⟩
  | cons e es ih =>
    obtain ⟨room, models⟩ := e
    have hstep := step_raised orderly along.1
    obtain ⟨d', hrun, horderly, hkeys, hsame⟩ := ih (orderly_raised orderly along.1)
      (along.2 _ hstep)
    refine ⟨d', run_cons.mpr ⟨_, hstep, hrun⟩, horderly, ?_, hsame⟩
    rw [hkeys]
    exact congrArg (fun keys => (talked es).foldl touch keys) (keys_raised d room)

/-- Only rooms above the chosen one were talked in; or, if somebody talked in the chosen one, as
many others after that as stood above it. -/
def Undisturbed (keys : List Nat) (row chosen : Nat) (talked : List Nat) : Prop :=
  (chosen ∉ talked → ∀ k ∈ talked, k ∈ keys.take row) ∧
    ∀ before after, talked = before ++ chosen :: after → chosen ∉ after →
      after.dedup.length = row

theorem row_iff {keys : List Nat} {row chosen : Nat} (nodup : keys.Nodup)
    (hrow : keys[row]? = some chosen) (talked : List Nat) :
    (talked.foldl touch keys)[row]? = some chosen ↔ Undisturbed keys row chosen talked := by
  by_cases hmem : chosen ∈ talked
  · constructor
    · intro h
      refine ⟨fun hnot => absurd hmem hnot, ?_⟩
      rintro before after rfl hlast
      exact (getElem?_touched keys hlast).mp h
    · intro h
      obtain ⟨after, before, hsplit, hlast⟩ := List.eq_append_cons_of_mem (List.mem_reverse.mpr hmem)
      have hlast' : chosen ∉ after.reverse := fun h => hlast (List.mem_reverse.mp h)
      have heq : talked = before.reverse ++ chosen :: after.reverse := by
        rw [← List.reverse_reverse talked, hsplit]
        simp
      have hlength := h.2 _ _ heq hlast'
      rw [heq]
      exact (getElem?_touched keys hlast').mpr hlength
  · rw [getElem?_untouched nodup hrow hmem]
    refine ⟨fun h => ⟨fun _ => h, ?_⟩, fun h => h.1 hmem⟩
    rintro before after rfl -
    exact absurd (List.mem_append_right _ List.mem_cons_self) hmem

/-- A confirmed alert traps in no run of deliveries that tell of one room each, and it blocks the
user of the room that was chosen exactly if the chosen room was left undisturbed. -/
theorem confirmed_row_iff {s : Backend} {d : Screens} (orderly : Orderly s d) {row : Nat}
    {chosen : ChatRoom} (hrow : d.chatRooms[row]? = some chosen) {es : List Delivery}
    (along : Along (step s) (Talked s) d es) :
    ∃ d' room, run (step s) d es = some d' ∧ d'.chatRooms[row]? = some room ∧
      (blockUser s d' row).isSome ∧
      blockUser s d' row = otherMember d.keys s.currentUser room ∧
      (room.key = chosen.key ↔
        Undisturbed (d.chatRooms.map ChatRoom.key) row chosen.key (talked es)) := by
  obtain ⟨d', hrun, orderly', hkeys, hsame⟩ := run_talked orderly along
  have hlength : row < d'.chatRooms.length := by
    have hle := length_le_foldl_touch orderly.keyed (talked es)
    rw [← hkeys, List.length_map, List.length_map] at hle
    exact (List.getElem?_eq_some_iff.mp hrow).1.trans_le hle
  obtain ⟨room, hroom⟩ : ∃ room, d'.chatRooms[row]? = some room :=
    ⟨_, List.getElem?_eq_getElem hlength⟩
  have hother := (orderly'.listed room (List.mem_of_getElem? hroom)).other
  have hblocks : blockUser s d' row = otherMember d'.keys s.currentUser room := by
    rw [blockUser, hroom, Option.bind_some]
  have hchosen : (d.chatRooms.map ChatRoom.key)[row]? = some chosen.key := by
    rw [List.getElem?_map, hrow, Option.map_some]
  refine ⟨d', room, hrun, hroom, hblocks ▸ hother, hsame ▸ hblocks, ?_⟩
  rw [← row_iff orderly.keyed hchosen, ← hkeys, List.getElem?_map, hroom, Option.map_some,
    Option.some_inj]

section Example

private def alice : Backend where
  account := { currentUser := some "alice", uids := fun _ => "", urls := fun _ => "" }
  rooms := []

private def room (key : Nat) (uid : Uid) (updatedDate : Nat) : ChatRoom where
  key := key
  owner := "alice"
  members := (AList.singleton "alice" true).insert uid true
  unreadCounts := none
  status := 1
  createdDate := 0
  updatedDate := updatedDate
  lastUpdateMessage := some "hi"

/-- Bob's room is above carol's. -/
private def listed : Screens where
  keys := { order := id, perm := List.Perm.refl }
  chatRoomList := { items := [room 1 "bob" 3, room 2 "carol" 2] }

/-- Carol writes while alice is asked whether she wants to block bob. -/
private def carolWrites : Delivery where
  room := room 2 "carol" 4
  models := [room 1 "bob" 3, room 2 "carol" 4]

private theorem listed_bob : Listed alice listed (room 1 "bob" 3) := ⟨by decide, by decide, by decide⟩

private theorem listed_carol : Listed alice listed (room 2 "carol" 2) :=
  ⟨by decide, by decide, by decide⟩

private theorem listed_orderly : Orderly alice listed where
  keyed := by
    unfold Keyed
    decide
  sorted := by decide
  listed x hx := by
    rcases List.mem_cons.mp hx with rfl | hx
    · exact listed_bob
    · obtain rfl := List.mem_singleton.mp hx
      exact listed_carol

private theorem carol_news : Talked alice listed carolWrites where
  mem := rfl
  newest := by decide
  listed := ⟨by decide, by decide, by decide⟩
  others m hm hne := by
    rcases List.mem_cons.mp hm with rfl | hm
    · exact .inl List.mem_cons_self
    · obtain rfl := List.mem_singleton.mp hm
      exact absurd rfl hne

theorem confirmed_row_iff_carol : blockUser alice listed 0 = some "bob" ∧
    ∃ d' found, run (step alice) listed [carolWrites] = some d' ∧
      d'.chatRooms[0]? = some found ∧ found.key ≠ 1 := by
  have hrow : listed.chatRooms[0]? = some (room 1 "bob" 3) := rfl
  obtain ⟨d', found, hrun, hfound, -, -, hiff⟩ :=
    confirmed_row_iff listed_orderly hrow
      (show Along (step alice) (Talked alice) listed [carolWrites] from
        ⟨carol_news, fun _ _ => trivial⟩)
  refine ⟨by decide, d', found, hrun, hfound, fun hkey => ?_⟩
  have hundisturbed := hiff.mp hkey
  have hmem := hundisturbed.1 (by decide) 2 List.mem_cons_self
  cases hmem

end Example

end PlateChat.Screen.ConfirmedRow
