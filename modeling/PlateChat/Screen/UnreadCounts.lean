/- PlateChat/Screen/UnreadCounts
   digest: What the two members' clients write into the unread counts of a room. -/

import PlateChat.Screen.ReadMarks

set_option autoImplicit false
set_option relaxedAutoImplicit false

/-!
`updateChatUnreadCounts` captures the counts of the copy that its service was made with,
and with every delivery it writes all of them back, its own brought up to date. The two
members run it on copies of their own, which stay as old as they are.
-/

namespace PlateChat.Screen.UnreadCounts

open PlateChat.Foundation.Dictionary PlateChat.Foundation.Run PlateChat.Foundation.EventLoop
open PlateChat.Foundation.Rules
open PlateChat.Model.Members PlateChat.Model.Room PlateChat.Model.Message
open PlateChat.Binding.Services (ChatMessageService ChatMessageDocument Answer)
open PlateChat.Screen.ReadMarks (Talk)

/-- A write of the counts that `uid` captured, with `count` for `uid` itself. -/
inductive Request
  | unreadCounts (uid : Uid) (unreadCounts : Dict Uid Int) (count : Int)
  deriving DecidableEq

/-- A listener on the messages that `uid` has not read. -/
structure Listener where
  uid : Uid
  unreadCounts : Dict Uid Int
  deriving DecidableEq

abbrev Outcome := Effect Unit Request Listener

def updateChatUnreadCounts (currentUser : Option Uid) (chatRoom : ChatRoom) : Outcome :=
  match currentUser, chatRoom.unreadCounts with
  | some uid, some unreadCounts =>
    if unreadCounts.lookup uid = some 0 then { client := () }
    else { client := (), listeners := [⟨uid, unreadCounts⟩] }
  | _, _ => { client := () }

/-- A service is removed, or goes with its screen, and its listener with it. -/
inductive Action
  | updateChatUnreadCounts (currentUser : Option Uid) (chatRoom : ChatRoom)
  | removeSnapshotListener (listener : Listener)
  deriving DecidableEq

def act : Action → Outcome
  | .updateChatUnreadCounts currentUser chatRoom =>
    UnreadCounts.updateChatUnreadCounts currentUser chatRoom
  | .removeSnapshotListener listener => { client := (), removed := [listener] }

/-- What is written: the captured counts with the member's own replaced. -/
def newUnreadCounts (uid : Uid) (unreadCounts : Dict Uid Int) (count : Int) : Dict Uid Int :=
  unreadCounts.insert uid count

def serve (s : Talk) : Request → Bool → Talk × Bool
  | .unreadCounts uid unreadCounts count, true =>
    (s.patch (.unreadCounts (newUnreadCounts uid unreadCounts count)), true)
  | .unreadCounts _ _ _, false => (s, false)

/-- The messages whose flag for `uid` is up. -/
def unread (s : Talk) (uid : Uid) : List ChatMessageDocument :=
  s.messages.filter fun m => m.2.unreads.bind (·.lookup uid) = some true

/-- The captured count, or fewer if fewer messages are unread. -/
def notify (l : Listener) : Option (List ChatMessageDocument) → Outcome
  | some documents =>
    match l.unreadCounts.lookup l.uid with
    | some count =>
      let newCount : Int := if (documents.length : Int) < count then documents.length else count
      { client := (), requests := [.unreadCounts l.uid l.unreadCounts newCount] }
    | none => { client := () }
  | none => { client := () }

/-- Whatever else happens to the room and its messages. -/
inductive Change
  | room (patch : Patch)
  | messages (documents : List ChatMessageDocument)

def env (s : Talk) : Change → Talk
  | .room p => s.patch p
  | .messages documents => { s with messages := documents }

def program :
    Program Talk Unit Action Change Request Bool Listener (List ChatMessageDocument) where
  act _ _ v := some (UnreadCounts.act v)
  serve := UnreadCounts.serve
  handle _ _ _ _ := some { client := () }
  snapshot s l := unread s l.uid
  notify _ _ l x := some (UnreadCounts.notify l x)
  env := UnreadCounts.env

abbrev Network := World Talk Unit Request Bool Listener

abbrev step : Network → Event Action Change → Option Network := program.step

/-- The service's own handler writes the same. -/
theorem unreadReceived_requests {L : Type} (chatRoom : ChatRoom) (l : Listener)
    (s : ChatMessageService L) (date : Nat) (documents : List ChatMessageDocument) :
    (ChatMessageService.unreadReceived chatRoom l.uid l.unreadCounts s
      (.snapshot date documents)).lists.requests = s.lists.requests ++
        (notify l (some documents)).requests.map fun
          | .unreadCounts uid unreadCounts count =>
            .unreadCounts chatRoom.key (newUnreadCounts uid unreadCounts count) := by
  unfold ChatMessageService.unreadReceived notify
  dsimp only
  cases l.unreadCounts.lookup l.uid with
  | none => simp
  | some count => rfl

/-- The stored count of a member. -/
def stored (d : ChatRoomDoc) (uid : Uid) : Option Int := d.unreadCounts.bind (·.lookup uid)

theorem stored_unreadCounts (counts : Dict Uid Int) (t : Nat) (d : ChatRoomDoc) (uid : Uid) :
    stored ((Patch.unreadCounts counts).apply t d) uid =
      (counts.lookup uid).or (stored d uid) := by
  unfold stored Patch.apply
  cases d.unreadCounts with
  | none => simp
  | some old => exact lookup_merge counts old uid

/-- A write of `uid` leaves the others' counts alone. -/
def OwnKeyOnly (uid : Uid) (d d' : ChatRoomDoc) : Prop := ∀ v, v ≠ uid → stored d' v = stored d v

/-- The captured counts of the others are the stored ones. -/
def UpToDate (uid : Uid) (unreadCounts : Dict Uid Int) (d : ChatRoomDoc) : Prop :=
  ∀ v, v ≠ uid → ∀ n, unreadCounts.lookup v = some n → stored d v = some n

theorem ownKeyOnly_iff (uid : Uid) (unreadCounts : Dict Uid Int) (count : Int) (t : Nat)
    (d : ChatRoomDoc) :
    OwnKeyOnly uid d ((Patch.unreadCounts (newUnreadCounts uid unreadCounts count)).apply t d) ↔
      UpToDate uid unreadCounts d := by
  refine forall_congr' fun v => imp_congr_right fun hv => ?_
  rw [stored_unreadCounts, newUnreadCounts, AList.lookup_insert_ne hv]
  cases hcaptured : unreadCounts.lookup v with
  | none => simp
  | some n => simp [eq_comm]

/-- The `i`-th request is the write of `uid` with the counts that it captured. -/
def Lands (w : Network) (e : Event Action Change) (uid : Uid) (unreadCounts : Dict Uid Int) :
    Prop :=
  ∃ i count, e = .serve i true ∧
    w.inflight[i]? = some ⟨.unreadCounts uid unreadCounts count, none⟩

/-- Every write that lands changes the count of its own member only. -/
def Framed (w : Network) (e : Event Action Change) : Prop :=
  ∀ uid unreadCounts, Lands w e uid unreadCounts →
    ∀ w' ∈ step w e, OwnKeyOnly uid w.server.room w'.server.room

/-- Every write that lands was captured from a copy with the others' present counts. -/
def Current (w : Network) (e : Event Action Change) : Prop :=
  ∀ uid unreadCounts, Lands w e uid unreadCounts → UpToDate uid unreadCounts w.server.room

theorem framed_iff (w : Network) (e : Event Action Change) : Framed w e ↔ Current w e := by
  refine forall_congr' fun uid => forall_congr' fun unreadCounts => forall_congr' fun hlands => ?_
  obtain ⟨i, count, rfl, hi⟩ := hlands
  have hstep : step w (.serve i true) = some
      (w.served program i (.unreadCounts uid unreadCounts count) true) :=
    Program.fires_step (.serve hi)
  rw [next_iff hstep]
  exact ownKeyOnly_iff uid unreadCounts count w.server.clock w.server.room

/-- The counts of a copy that was read from some version of the room. -/
def Copied (s : Talk) (unreadCounts : Dict Uid Int) : Prop :=
  ∃ room ∈ s.rooms, unreadCounts = room.unreadCounts.getD (AList.singleton "" 0)

/-- The members' services are made with copies of the room, of any age. -/
def FromCopies (w : Network) : Event Action Change → Prop
  | .act (.updateChatUnreadCounts _ chatRoom) => ∃ room ∈ w.server.rooms, ∃ date,
      ChatRoom.ofDocument date (w.server.key, room) = .ok chatRoom
  | _ => True

/-- Every write that lands comes from a copy of a version that has the others' present counts. -/
def FromCurrentCopies (w : Network) (e : Event Action Change) : Prop :=
  ∀ uid unreadCounts, Lands w e uid unreadCounts → ∃ room ∈ w.server.rooms,
    unreadCounts = room.unreadCounts.getD (AList.singleton "" 0) ∧
      UpToDate uid unreadCounts w.server.room

/-- All that is captured comes from copies. -/
def captured : Parts Talk Unit Request Bool Listener where
  server _ := True
  client _ _ := True
  call s q := match q.request with
    | .unreadCounts _ unreadCounts _ => Copied s unreadCounts
  watch s l := Copied s l.unreadCounts

private theorem stable_captured {s t : Talk} (h : s.rooms ⊆ t.rooms) : captured.Stable s t where
  client _ _ := trivial
  call
    | ⟨.unreadCounts _ _ _, _⟩, ⟨room, hroom, hcounts⟩ => ⟨room, h hroom, hcounts⟩
  watch _ := fun ⟨room, hroom, hcounts⟩ => ⟨room, h hroom, hcounts⟩

private theorem rooms_serve (s : Talk) (r : Request) (ok : Bool) :
    s.rooms ⊆ (serve s r ok).1.rooms := by
  cases r
  cases ok with
  | false => exact fun _ h => h
  | true => exact fun _ h => List.mem_cons_of_mem _ h

private theorem rooms_env (s : Talk) (h : Change) : s.rooms ⊆ (env s h).rooms := by
  cases h with
  | room p => exact fun _ h => List.mem_cons_of_mem _ h
  | messages documents => exact fun _ h => h

private theorem counts_of_parsed {date : Nat} {document : Document} {chatRoom : ChatRoom}
    (h : ChatRoom.ofDocument date document = .ok chatRoom) :
    chatRoom.unreadCounts = some (document.2.unreadCounts.getD (AList.singleton "" 0)) := by
  unfold ChatRoom.ofDocument at h
  split at h
  · cases h
    rfl
  · cases h

private theorem admits_none (s : Talk) (removed : List Listener) :
    captured.Admits s { client := (), removed := removed } := .quiet trivial rfl rfl

private theorem admits_act {s : Talk} {v : Action}
    (h : ∀ currentUser chatRoom, v = .updateChatUnreadCounts currentUser chatRoom →
      ∃ room ∈ s.rooms, ∃ date, ChatRoom.ofDocument date (s.key, room) = .ok chatRoom) :
    captured.Admits s (act v) := by
  cases v with
  | removeSnapshotListener listener => exact admits_none s [listener]
  | updateChatUnreadCounts currentUser chatRoom =>
    obtain ⟨room, hroom, date, hparsed⟩ := h currentUser chatRoom rfl
    simp only [act, updateChatUnreadCounts, counts_of_parsed hparsed]
    cases currentUser with
    | none => exact admits_none s []
    | some uid =>
      dsimp only
      split
      · exact admits_none s []
      · have hcopied : Copied s (room.unreadCounts.getD (AList.singleton "" 0)) :=
          ⟨room, hroom, rfl⟩
        exact .listen trivial hcopied

private theorem admits_notify {s : Talk} {l : Listener} (h : Copied s l.unreadCounts)
    (x : Option (List ChatMessageDocument)) : captured.Admits s (notify l x) := by
  cases x with
  | none => exact admits_none s []
  | some documents =>
    simp only [notify]
    split
    · exact .one trivial h
    · exact admits_none s []

theorem captured_kept : captured.Kept program FromCopies where
  act {_ v _} _ hg he := by
    obtain rfl := Option.some.inj he
    refine admits_act fun currentUser chatRoom heq => ?_
    subst heq
    exact hg
  serve {w _ ok r} hw _ hi := by
    have stable := stable_captured (rooms_serve w.server r ok)
    have hcall : captured.call w.server ⟨r, none⟩ := hw.calls _ (List.mem_of_getElem? hi)
    exact ⟨trivial, stable, stable.call ⟨r, _⟩ hcall⟩
  handle _ _ _ he := by
    obtain rfl := Option.some.inj he
    exact admits_none _ []
  deliver hw _ hj he := by
    obtain rfl := Option.some.inj he
    exact admits_notify (hw.watches _ (List.mem_of_getElem? hj)) _
  env {w h} _ _ := ⟨trivial, stable_captured (rooms_env w.server h)⟩

/-- A room with its messages, and both members' clients at rest. -/
def start (s : Talk) : Network := ⟨s, (), [], []⟩

/-- In a run on copies of any age, the writes change their own counts only, if and only if each
that lands comes from a copy with the others' present counts. -/
theorem own_key_only_iff {s : Talk} {es : List (Event Action Change)}
    (copies : Along step FromCopies (start s) es) :
    Along step Framed (start s) es ↔ Along step FromCurrentCopies (start s) es := by
  have hboth : Along step (fun w e => FromCopies w e ∧ Framed w e) (start s) es ↔
      Along step (fun w e => FromCopies w e ∧ FromCurrentCopies w e) (start s) es := by
    refine along_congr (P := captured.Holds) (fun w e hw => and_congr_right fun _ => ?_)
      (fun w e w' hw hg h => captured_kept.step hw hg.1 h) ⟨trivial, trivial, nofun, nofun⟩
    rw [framed_iff]
    constructor
    · intro hcurrent uid unreadCounts hlands
      have hupToDate := hcurrent uid unreadCounts hlands
      obtain ⟨i, count, -, hi⟩ := hlands
      obtain ⟨room, hroom, hcounts⟩ := hw.calls _ (List.mem_of_getElem? hi)
      exact ⟨room, hroom, hcounts, hupToDate⟩
    · intro hcurrent uid unreadCounts hlands
      obtain ⟨room, -, -, hupToDate⟩ := hcurrent uid unreadCounts hlands
      exact hupToDate
  rw [along_and_iff, along_and_iff] at hboth
  exact ⟨fun h => (hboth.mp ⟨copies, h⟩).2, fun h => (hboth.mpr ⟨copies, h⟩).2⟩

section Example

/-- Alice has two unread messages, bob three, all of them alice's. -/
private def counted : ChatRoomDoc where
  owner := some "alice"
  members := some ((AList.singleton "alice" true).insert "bob" true)
  unreadCounts := some ((AList.singleton "alice" 2).insert "bob" 3)
  status := some 1
  createdAt := some 0
  updatedAt := some 0
  lastUpdateMessage := some "hi"

private def room : Talk where
  key := 1
  room := counted
  rooms := [counted]

/-- The copy that both members open the room with. -/
private def copy : ChatRoom where
  key := 1
  owner := "alice"
  members := (AList.singleton "alice" true).insert "bob" true
  unreadCounts := some ((AList.singleton "alice" 2).insert "bob" 3)
  status := 1
  createdDate := 0
  updatedDate := 0
  lastUpdateMessage := some "hi"

/-- Bob's count is written, while alice's client has only been opened. -/
private def bobReads : List (Event Action Change) :=
  [.act (.updateChatUnreadCounts (some "alice") copy),
    .act (.updateChatUnreadCounts (some "bob") copy), .deliver 1 true, .serve 0 true]

private theorem bobReads_copies : Along step FromCopies (start room) bobReads := by
  have hcopy : ∃ d ∈ room.rooms, ∃ date, ChatRoom.ofDocument date (room.key, d) = .ok copy :=
    ⟨counted, List.mem_cons_self, 0, rfl⟩
  exact .cons hcopy rfl (.cons hcopy rfl (.cons trivial rfl (.cons trivial rfl trivial)))

private theorem bobReads_current : Along step FromCurrentCopies (start room) bobReads := by
  refine .cons ?_ rfl (.cons ?_ rfl (.cons ?_ rfl (.cons ?_ rfl trivial)))
  · rintro uid counts ⟨i, count, heq, -⟩
    cases heq
  · rintro uid counts ⟨i, count, heq, -⟩
    cases heq
  · rintro uid counts ⟨i, count, heq, -⟩
    cases heq
  · rintro uid counts ⟨i, count, heq, hi⟩
    cases heq
    cases hi
    exact ⟨counted, List.mem_cons_self, rfl, fun v _ n hn => hn⟩

theorem own_key_only_bob : ∃ w, run step (start room) bobReads = some w ∧
    stored w.server.room "alice" = some 2 ∧ stored w.server.room "bob" = some 0 ∧
    Along step Framed (start room) bobReads :=
  ⟨_, rfl, by decide, by decide, (own_key_only_iff bobReads_copies).mpr bobReads_current⟩

/-- Alice's client counts too, and writes the count of bob that it was opened with. -/
theorem other_count_written_back : ∃ w w',
    run step (start room) (bobReads ++ [.deliver 0 true]) = some w ∧
      w.inflight[1]? = some ⟨.unreadCounts "alice" ((AList.singleton "alice" 2).insert "bob" 3) 0,
        none⟩ ∧
      step w (.serve 1 true) = some w' ∧
      stored w.server.room "bob" = some 0 ∧ stored w'.server.room "bob" = some 3 :=
  ⟨_, _, rfl, rfl, rfl, by decide, by decide⟩

end Example

end PlateChat.Screen.UnreadCounts
