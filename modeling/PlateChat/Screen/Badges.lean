/- PlateChat/Screen/Badges
   digest: The unread counts never rise, and the label of a room never shows. -/

import PlateChat.Screen.UnreadCounts

set_option autoImplicit false
set_option relaxedAutoImplicit false

/-!
A room starts with a count of zero for either member. The only writes of counts are those of
`updateChatUnreadCounts`, and what they write is no more than what their copy of the room had.
-/

namespace PlateChat.Screen.Badges

open PlateChat.Foundation.Dictionary PlateChat.Foundation.Run PlateChat.Foundation.EventLoop
open PlateChat.Foundation.Rules
open PlateChat.Model.Members PlateChat.Model.Room PlateChat.Model.Message
open PlateChat.Binding.Services (ChatMessageDocument)
open PlateChat.Screen.ReadMarks (Talk)
open PlateChat.Screen.UnreadCounts

/-- The text of the label in a cell of the room list, where it is not hidden. -/
def unreadCountLabel (uid : Uid) (chatRoom : ChatRoom) : Option String :=
  match chatRoom.unreadCounts.bind (·.lookup uid) with
  | some count => if count < 1 then none else some (toString count)
  -- `clear` has hidden it
  | none => none

/-- No count is more than the one that the room started with, and none has become negative. -/
def Lowered (first counts : Dict Uid Int) : Prop :=
  ∀ v n, counts.lookup v = some n → ∃ m, first.lookup v = some m ∧ n ≤ m ∧ (0 ≤ m → 0 ≤ n)

section Lowered

variable {first counts counts' : Dict Uid Int}

theorem Lowered.refl (first : Dict Uid Int) : Lowered first first :=
  fun _ n hn => ⟨n, hn, Int.le_refl n, id⟩

theorem Lowered.union (h : Lowered first counts) (h' : Lowered first counts') :
    Lowered first (counts ∪ counts') := by
  intro v n hn
  rw [lookup_merge, Option.or_eq_some_iff] at hn
  rcases hn with hn | ⟨-, hn⟩
  · exact h v n hn
  · exact h' v n hn

theorem Lowered.insert (h : Lowered first counts) {uid : Uid} {count count' : Int}
    (hcount : counts.lookup uid = some count) (hle : count' ≤ count)
    (hpos : 0 ≤ count → 0 ≤ count') : Lowered first (newUnreadCounts uid counts count') := by
  intro v n hn
  unfold newUnreadCounts at hn
  by_cases hv : v = uid
  · subst hv
    rw [AList.lookup_insert] at hn
    obtain rfl := Option.some.inj hn
    obtain ⟨m, hm, hlow, hmpos⟩ := h v count hcount
    exact ⟨m, hm, by omega, fun h0 => hpos (hmpos h0)⟩
  · rw [AList.lookup_insert_ne hv] at hn
    exact h v n hn

theorem Lowered.ne_zero (h : Lowered first counts) {uid : Uid} {count : Int}
    (hcount : counts.lookup uid = some count) (hne : count ≠ 0) :
    ∃ m, first.lookup uid = some m ∧ m ≠ 0 := by
  obtain ⟨m, hm, hle, hpos⟩ := h uid count hcount
  refine ⟨m, hm, ?_⟩
  rintro rfl
  have hnonneg := hpos (Int.le_refl 0)
  omega

end Lowered

def LoweredRoom (first : Dict Uid Int) (room : ChatRoomDoc) : Prop :=
  ∃ counts, room.unreadCounts = some counts ∧ Lowered first counts

/-- All counts that are stored, captured or on their way are lowered, and a write is on its way
only for a count that did not start with zero. -/
def lowered (first : Dict Uid Int) : Parts Talk Unit Request Bool Listener where
  server s := LoweredRoom first s.room ∧ ∀ room ∈ s.rooms, LoweredRoom first room
  client _ _ := True
  call _ q := match q.request with
    | .unreadCounts uid unreadCounts count =>
      Lowered first (newUnreadCounts uid unreadCounts count) ∧
        ∃ m, first.lookup uid = some m ∧ m ≠ 0
  watch _ l := Lowered first l.unreadCounts ∧ l.unreadCounts.lookup l.uid ≠ some 0

/-- The members' services are made with copies of the room, and nothing else writes counts. -/
def OnlyCounted (w : Network) (e : Event Action Change) : Prop :=
  FromCopies w e ∧ ∀ counts, e ≠ .env (.room (.unreadCounts counts))

section Kept

variable {first : Dict Uid Int} {s : Talk}

theorem loweredRoom_apply {room : ChatRoomDoc} (h : LoweredRoom first room) {p : Patch}
    (hp : ∀ counts, p = .unreadCounts counts → Lowered first counts) (t : Nat) :
    LoweredRoom first (p.apply t room) := by
  obtain ⟨counts, hroom, hlow⟩ := h
  cases p with
  | status value => exact ⟨counts, hroom, hlow⟩
  | lastChatTime text => exact ⟨counts, hroom, hlow⟩
  | unreadCounts new =>
    refine ⟨new ∪ counts, ?_, (hp new rfl).union hlow⟩
    simp [Patch.apply, hroom]

theorem lowered_patch (h : (lowered first).server s) {p : Patch}
    (hp : ∀ counts, p = .unreadCounts counts → Lowered first counts) :
    (lowered first).server (s.patch p) := by
  have hroom := loweredRoom_apply h.1 hp s.clock
  refine ⟨hroom, fun room hmem => ?_⟩
  rcases List.mem_cons.mp hmem with rfl | hmem
  · exact hroom
  · exact h.2 room hmem

theorem stable_lowered (s t : Talk) : (lowered first).Stable s t :=
  ⟨fun _ h => h, fun _ h => h, fun _ h => h⟩

theorem lowered_of_copy (h : (lowered first).server s) {room : ChatRoomDoc} (hroom : room ∈ s.rooms)
    {date : Nat} {chatRoom : ChatRoom}
    (hparsed : ChatRoom.ofDocument date (s.key, room) = .ok chatRoom) :
    ∃ counts, chatRoom.unreadCounts = some counts ∧ Lowered first counts := by
  obtain ⟨counts, hcounts, hlow⟩ := h.2 room hroom
  unfold ChatRoom.ofDocument at hparsed
  split at hparsed
  · obtain rfl := Except.ok.inj hparsed
    exact ⟨counts, by simp [hcounts], hlow⟩
  · cases hparsed

theorem admits_quiet (removed : List Listener) :
    (lowered first).Admits s { client := (), removed := removed } := .quiet trivial rfl rfl

theorem admits_updateChatUnreadCounts (currentUser : Option Uid) {chatRoom : ChatRoom}
    {counts : Dict Uid Int} (hcounts : chatRoom.unreadCounts = some counts)
    (hlow : Lowered first counts) :
    (lowered first).Admits s (updateChatUnreadCounts currentUser chatRoom) := by
  unfold updateChatUnreadCounts
  rw [hcounts]
  cases currentUser with
  | none => exact admits_quiet []
  | some uid =>
    dsimp only
    split
    · exact admits_quiet []
    · rename_i hne
      exact .listen trivial ⟨hlow, hne⟩

theorem admits_notify {l : Listener} (h : (lowered first).watch s l)
    (x : Option (List ChatMessageDocument)) : (lowered first).Admits s (notify l x) := by
  obtain ⟨hlow, hne⟩ := h
  cases x with
  | none => exact admits_quiet []
  | some documents =>
    unfold notify
    cases hcount : l.unreadCounts.lookup l.uid with
    | none => exact admits_quiet []
    | some count =>
      refine .one trivial ⟨hlow.insert hcount ?_ ?_, hlow.ne_zero hcount fun h => hne (h ▸ hcount)⟩
      · split <;> omega
      · intro hpos
        split <;> omega

theorem lowered_kept : (lowered first).Kept program OnlyCounted where
  act {w v _} hw hg he := by
    obtain rfl := Option.some.inj he
    cases v with
    | removeSnapshotListener listener => exact admits_quiet [listener]
    | updateChatUnreadCounts currentUser chatRoom =>
      obtain ⟨room, hroom, date, hparsed⟩ := hg.1
      obtain ⟨counts, hcounts, hlow⟩ := lowered_of_copy hw.server hroom hparsed
      exact admits_updateChatUnreadCounts currentUser hcounts hlow
  serve {w _ ok r} hw _ hi := by
    obtain ⟨uid, unreadCounts, count⟩ := r
    have hcall := hw.calls _ (List.mem_of_getElem? hi)
    refine ⟨?_, stable_lowered _ _, hcall⟩
    cases ok with
    | false => exact hw.server
    | true =>
      refine lowered_patch hw.server fun counts heq => ?_
      cases heq
      exact hcall.1
  handle _ _ _ he := by
    obtain rfl := Option.some.inj he
    exact admits_quiet []
  deliver hw _ hj he := by
    obtain rfl := Option.some.inj he
    exact admits_notify (hw.watches _ (List.mem_of_getElem? hj)) _
  env {w h} hw hg := by
    refine ⟨?_, stable_lowered _ _⟩
    cases h with
    | room p =>
      refine lowered_patch hw.server fun counts heq => ?_
      exact absurd (by rw [heq]) (hg.2 counts)
    | messages documents => exact hw.server

end Kept

/-- In every run on copies of any age, no stored count is ever more than the one that the room
started with, and writes are issued only for counts that did not start with zero. -/
theorem counts_never_rise {s : Talk} {first : Dict Uid Int}
    (hfirst : s.room.unreadCounts = some first) (hrooms : s.rooms = [s.room])
    {es : List (Event Action Change)} {w : Network} (along : Along step OnlyCounted (start s) es)
    (hr : run step (start s) es = some w) : (lowered first).Holds w := by
  have hroom : LoweredRoom first s.room := ⟨first, hfirst, .refl first⟩
  refine lowered_kept.run along hr ⟨⟨hroom, fun room hmem => ?_⟩, trivial, nofun, nofun⟩
  have hmem' : room ∈ s.rooms := hmem
  rw [hrooms, List.mem_singleton] at hmem'
  exact hmem' ▸ hroom

theorem created_counts {key : Nat} {uid otherUid : Uid} {serverTimestamp : Nat}
    {first : Dict Uid Int}
    (hfirst : (Talk.created key uid otherUid serverTimestamp).room.unreadCounts = some first)
    {v : Uid} {m : Int} (hm : first.lookup v = some m) : m = 0 := by
  obtain rfl : (AList.singleton uid 0).insert otherUid 0 = first := Option.some.inj hfirst
  by_cases hv : v = otherUid
  · rw [hv, AList.lookup_insert] at hm
    exact (Option.some.inj hm).symm
  · rw [AList.lookup_insert_ne hv, lookup_singleton] at hm
    split at hm
    · exact (Option.some.inj hm).symm
    · cases hm

/-- No count ever rises above its first value. In a room that `cerateChatRoom` has added none is
ever written, and whoever lists it, with whatever copy, its cell shows no unread count. -/
theorem label_never_shown (s : Talk) (first : Dict Uid Int)
    (hfirst : s.room.unreadCounts = some first) (hrooms : s.rooms = [s.room])
    (es : List (Event Action Change)) (w : Network) (along : Along step OnlyCounted (start s) es)
    (hr : run step (start s) es = some w) :
    (lowered first).Holds w ∧ ∀ key uid otherUid serverTimestamp,
      s = .created key uid otherUid serverTimestamp →
        w.inflight = [] ∧ ∀ room ∈ w.server.rooms, ∀ date chatRoom,
          ChatRoom.ofDocument date (w.server.key, room) = .ok chatRoom →
            ∀ u, unreadCountLabel u chatRoom = none := by
  have hholds := counts_never_rise hfirst hrooms along hr
  refine ⟨hholds, fun key uid otherUid serverTimestamp hs => ?_⟩
  subst hs
  constructor
  · refine List.eq_nil_iff_forall_not_mem.mpr fun q hq => ?_
    obtain ⟨⟨u, counts, count⟩, a⟩ := q
    obtain ⟨-, m, hm, hne⟩ := hholds.calls _ hq
    exact hne (created_counts hfirst hm)
  · intro room hroom date chatRoom hparsed u
    obtain ⟨counts, hcounts, hlow⟩ := lowered_of_copy hholds.server hroom hparsed
    unfold unreadCountLabel
    rw [hcounts, Option.bind_some]
    cases hcount : counts.lookup u with
    | none => rfl
    | some count =>
      obtain ⟨m, hm, hle, -⟩ := hlow u count hcount
      obtain rfl := created_counts hfirst hm
      exact if_pos (by omega)

section Example

/-- The copy that alice opens her room with bob with. -/
private def copy : ChatRoom where
  key := 1
  owner := "alice"
  members := (AList.singleton "alice" true).insert "bob" true
  unreadCounts := some ((AList.singleton "alice" 0).insert "bob" 0)
  status := 1
  createdDate := 0
  updatedDate := 0
  lastUpdateMessage := some ""

/-- Bob has posted a message, and alice opens the room. -/
private def opens : List (Event Action Change) :=
  [.env (.messages [(1, {
      sender := some "bob"
      status := some 1
      createdAt := some 0
      unreads := some ((AList.singleton "alice" true).insert "bob" false)
      text := some "hello"
      imageURL := none })]),
    .env (.room (.lastChatTime (some "hello"))), .act (.updateChatUnreadCounts (some "alice") copy)]

theorem label_never_shown_opened :
    ∃ w, run step (start (.created 1 "alice" "bob" 0)) opens = some w ∧
      (unread w.server "alice").length = 1 ∧ w.inflight = [] ∧
        unreadCountLabel "alice" copy = none := by
  have hcopied : ∃ room ∈ [(Patch.lastChatTime (some "hello")).apply 0 (newRoom "alice" "bob" 0),
      newRoom "alice" "bob" 0], ∃ date, ChatRoom.ofDocument date (1, room) = .ok copy :=
    ⟨_, List.mem_cons_of_mem _ List.mem_cons_self, 0, rfl⟩
  have along : Along step OnlyCounted (start (.created 1 "alice" "bob" 0)) opens :=
    .cons ⟨trivial, fun _ h => nomatch h⟩ rfl (.cons ⟨trivial, fun _ h => nomatch h⟩ rfl
      (.cons ⟨hcopied, fun _ h => nomatch h⟩ rfl trivial))
  obtain ⟨-, hcreated⟩ := label_never_shown (.created 1 "alice" "bob" 0) _ rfl rfl opens _ along rfl
  obtain ⟨hquiet, hlabels⟩ := hcreated 1 "alice" "bob" 0 rfl
  refine ⟨_, rfl, by decide, hquiet, hlabels (newRoom "alice" "bob" 0) ?_ 0 copy rfl "alice"⟩
  exact List.mem_cons_of_mem _ List.mem_cons_self

end Example

end PlateChat.Screen.Badges
