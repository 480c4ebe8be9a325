/- PlateChat/ChatRoom/Deletion
   digest: When the rooms of a deleted user come to rest, and when they are all ended. -/

import PlateChat.ChatRoom.Service
import PlateChat.Foundation.Rules
import PlateChat.Foundation.Settle

set_option autoImplicit false
set_option relaxedAutoImplicit false

/-!
The deletion's listener ends the rooms of a user, if the deleted profile parses and it is
registered at all; a creating listener of the same user adds a room whenever none is left. A
creating listener that has nothing to report and whose rooms are ended already sleeps through
the deletion; any other one wakes up.
-/

namespace PlateChat.ChatRoom.Deletion

open PlateChat.Foundation.Dictionary PlateChat.Foundation.Run PlateChat.Foundation.EventLoop
open PlateChat.Foundation.Rules
open PlateChat.Foundation.Settle (Attended Lasting Repairs pending_served)
open PlateChat.Model.Members PlateChat.Model.Profile PlateChat.Model.Room
open PlateChat.ChatRoom.Service

/-- What happens by itself: due results are delivered, and requests succeed. -/
def OnItsOwn (w : Network) : Event Action Change → Prop
  | .serve _ ok => ok = true
  | .handle _ => True
  | .deliver j ok => ok = true ∧ ∃ x ∈ w.watches[j]?, x.due = true
  | .act _ | .env _ => False

/-- The deletion of `u`, whose stored profile is given, has run beside the creating listeners. -/
def deleted (s : RoomStore) (creating : List (CreateCall × Bool)) (u : Uid)
    (profile : Option LoginUserDoc) : Network :=
  let w : Network := {
    server := s
    client := {}
    watches := creating.map fun c => ⟨.create c.1, c.2⟩ }
  w.perform (act w.server w.client (.deleteLoginUser u (.ok (some (deletedProfile profile)))))

/-- Everything comes to rest, and then no room of `u` is active. -/
def RestsClean (u : Uid) (w : Network) : Prop :=
  Rests step OnItsOwn w ∧
    ∀ t, Reaches step OnItsOwn w t → Halted step OnItsOwn t → t.server.query [u] = []

/-- A creating listener of `u` that neither is due nor has an active room to lose. -/
def Asleep (s : RoomStore) (u : Uid) (c : CreateCall × Bool) : Prop :=
  u ∈ c.1.members → c.2 = false ∧ s.query c.1.members = []

instance (s : RoomStore) (u : Uid) (c : CreateCall × Bool) : Decidable (Asleep s u c) :=
  inferInstanceAs (Decidable (u ∈ c.1.members → _))

/-- What a step can do that happens by itself. -/
inductive Own (w w' : Network) : Prop
  | served {i : Nat} {r : Request} (hi : w.inflight[i]? = some ⟨r, none⟩)
      (hw : w' = w.served program i r true)
  | handled {i : Nat} {r : Request} {a : Answer} (hi : w.inflight[i]? = some ⟨r, some a⟩)
      {o : Outcome} (ho : handle w.client r a = some o) (hserver : w'.server = w.server)
      (hwatches : w'.watches = w.watches)
      (hinflight : w'.inflight = w.inflight.eraseIdx i ++ o.requests.map fun r => ⟨r, none⟩)
  | delivered {j : Nat} {x : Watch Listener} (hj : w.watches[j]? = some x) (hdue : x.due = true)
      (hserver : w'.server = w.server) (hwatches : w'.watches = w.watches.set j ⟨x.listener, false⟩)
      (hinflight : w'.inflight = w.inflight ++ (notify w.server w.client x.listener
        (some (snapshot w.server x.listener))).requests.map fun r => ⟨r, none⟩)

private theorem onItsOwn_eq : OnItsOwn = Foundation.Settle.OnItsOwn := by
  funext w ev
  cases ev <;> rfl

theorem own_of_step {w w' : Network} {ev : Event Action Change} (hg : OnItsOwn w ev)
    (hstep : step w ev = some w') : Own w w' := by
  rw [onItsOwn_eq] at hg
  cases Foundation.Settle.own_of_step hg hstep with
  | served hi => exact .served hi rfl
  | @handled i r a o hi ho =>
    obtain ⟨hremoved, hlisteners, _⟩ := handle_cases ho
    refine .handled hi ho rfl ?_ rfl
    rw [World.perform_watches _ _ hremoved, hlisteners]
    exact List.append_nil _
  | @delivered j x o hj hdue ho =>
    obtain rfl := Option.some.inj ho
    obtain ⟨hremoved, hlisteners⟩ := notify_keeps w.server w.client x.listener
      (some (snapshot w.server x.listener))
    have hwatches := World.perform_watches (w.delivered j x.listener) _ hremoved
    rw [hlisteners, List.map_nil, List.append_nil] at hwatches
    exact .delivered hj hdue rfl hwatches rfl

theorem halted_served {w : Network} (h : Halted step OnItsOwn w) :
    ∀ c ∈ w.inflight, c.answer ≠ none := by
  rw [onItsOwn_eq] at h
  exact Foundation.Settle.halted_served h

theorem halted_due {w : Network} (h : Halted step OnItsOwn w) {k : Nat} {x : Watch Listener}
    (hk : w.watches[k]? = some x) : x.due = false := by
  rw [onItsOwn_eq] at h
  exact Foundation.Settle.halted_due h (List.mem_of_getElem? hk) rfl

private theorem request_served {w : Network} {i : Nat} {r : Request}
    (hi : w.inflight[i]? = some ⟨r, none⟩) {c : Call Request Answer}
    (hc : c ∈ (w.served program i r true).inflight) : ∃ d ∈ w.inflight, d.request = c.request := by
  rw [World.served_inflight, (perm_served _ hi).mem_iff] at hc
  rcases List.mem_cons.mp hc with rfl | hc
  · exact ⟨⟨r, none⟩, List.mem_of_getElem? hi, rfl⟩
  · have hold : c ∈ w.inflight := List.mem_of_mem_eraseIdx hc
    exact ⟨c, hold, rfl⟩

private theorem request_handled {w : Network} {i : Nat} {r : Request} {a : Answer} {o : Outcome}
    (ho : handle w.client r a = some o) {c : Call Request Answer}
    (hc : c ∈ w.inflight.eraseIdx i ++ o.requests.map fun r => (⟨r, none⟩ : Call Request Answer)) :
    (∃ d ∈ w.inflight, d.request = c.request) ∨ ∃ call, c.request = .getDocuments call := by
  rcases List.mem_append.mp hc with hc | hc
  · have hold : c ∈ w.inflight := List.mem_of_mem_eraseIdx hc
    exact .inl ⟨c, hold, rfl⟩
  · obtain ⟨q, hq, rfl⟩ := List.mem_map.mp hc
    rcases (handle_cases ho).2.2 with h | ⟨call, _, h⟩
    · rw [h] at hq
      cases hq
    · rw [h] at hq
      obtain rfl := List.mem_singleton.mp hq
      exact .inr ⟨call, rfl⟩

/-- A listener keeps its place; it is due if its result has changed. -/
private theorem watch_served {w : Network} {i k : Nat} {r : Request} {x : Watch Listener}
    (hk : w.watches[k]? = some x) :
    ∃ y, (w.served program i r true).watches[k]? = some y ∧ y.listener = x.listener ∧
      (x.due = true → y.due = true) ∧
      (snapshot w.server x.listener ≠ snapshot (serve w.server r true).1 x.listener →
        y.due = true) := by
  refine ⟨_, World.watches_install program _ hk, rfl, ?_, ?_⟩
  · intro h
    simp [h]
  · intro h
    have hne : program.snapshot w.server x.listener ≠
        program.snapshot (program.serve w.server r true).1 x.listener := h
    simp [hne]

private theorem watch_delivered {w : Network} {j k : Nat} {x y : Watch Listener}
    (hk : w.watches[k]? = some x) (hj : w.watches[j]? = some y) :
    j = k ∧ y = x ∨ (w.watches.set j ⟨y.listener, false⟩)[k]? = some x := by
  by_cases h : j = k
  · subst h
    rw [hk] at hj
    exact .inl ⟨rfl, (Option.some.inj hj).symm⟩
  · rw [List.getElem?_set_ne h]
    exact .inr hk

/-- The listener is due, its addition is under way, or it has a room to lose. -/
def Awake (call : CreateCall) (w : Network) : Prop :=
  ∃ (k : Nat) (x : Watch Listener), w.watches[k]? = some x ∧ x.listener = .create call ∧
    (x.due = true ∨ ⟨.addDocument call, none⟩ ∈ w.inflight ∨ w.server.query call.members ≠ [])

private theorem query_after_add (s : RoomStore) (call : CreateCall) :
    ((s.add (newRoom call.uid call.otherUid s.clock)).log call.id).query call.members ≠ [] := by
  intro h
  have hnone := RoomStore.query_eq_nil.mp h (s.next, newRoom call.uid call.otherUid s.clock)
    (RoomStore.mem_add.mpr (.inl rfl))
  apply hnone
  rw [active_newRoom]
  intro u hu
  simpa [CreateCall.members] using hu

private theorem awake_step {call : CreateCall} {w w' : Network} {ev : Event Action Change}
    (h : Awake call w) (hg : OnItsOwn w ev) (hstep : step w ev = some w') : Awake call w' := by
  obtain ⟨k, x, hk, hx, hawake⟩ := h
  cases own_of_step hg hstep with
  | @served i r hi hw =>
    subst hw
    obtain ⟨y, hy, hlistener, hdue, hchanged⟩ := watch_served (i := i) (r := r) hk
    refine ⟨k, y, hy, hlistener.trans hx, ?_⟩
    rw [hx] at hchanged
    by_cases hsame : snapshot w.server (.create call) =
        snapshot (serve w.server r true).1 (.create call)
    · rcases hawake with h | h | h
      · exact .inl (hdue h)
      · by_cases hr : (.addDocument call : Request) = r
        · subst hr
          have hadded := query_after_add w.server call
          exact .inr (.inr hadded)
        · have hpending := pending_served (p := program) hi h hr
          exact .inr (.inl hpending)
      · right
        right
        intro hempty
        exact h (hsame.trans hempty)
    · exact .inl (hchanged hsame)
  | handled hi ho hserver hwatches hinflight =>
    refine ⟨k, x, hwatches ▸ hk, hx, ?_⟩
    rw [hserver, hinflight]
    rcases hawake with h | h | h
    · exact .inl h
    · have hpending := mem_landed_of_ne hi h nofun
      exact .inr (.inl (List.mem_append_left _ hpending))
    · exact .inr (.inr h)
  | @delivered j y hj hdue hserver hwatches hinflight =>
    rcases watch_delivered hk hj with ⟨rfl, rfl⟩ | hkeep
    · refine ⟨j, ⟨y.listener, false⟩, ?_, hx, ?_⟩
      · rw [hwatches, List.getElem?_set_self (List.getElem?_eq_some_iff.mp hj).1]
      · rw [hserver, hinflight, hx]
        by_cases hempty : w.server.query call.members = []
        · have hreq : (notify w.server w.client (.create call)
              (some (snapshot w.server (.create call)))).requests = [.addDocument call] := by
            have h := createDelivered_requests w.server w.client call
              (some (w.server.query call.members))
            rw [if_pos (congrArg some hempty)] at h
            exact h
          rw [hreq]
          exact .inr (.inl (List.mem_append_right _ List.mem_cons_self))
        · exact .inr (.inr hempty)
    · refine ⟨k, x, hwatches ▸ hkeep, hx, ?_⟩
      rw [hserver, hinflight]
      rcases hawake with h | h | h
      · exact .inl h
      · exact .inr (.inl (List.mem_append_left _ h))
      · exact .inr (.inr h)

/-- With one of the user's creating listeners awake, no resting state is clean. -/
private theorem not_clean_of_awake {u : Uid} {call : CreateCall} {w : Network}
    (h : Awake call w) (hu : u ∈ call.members) : ¬ RestsClean u w := by
  rintro ⟨rests, clean⟩
  obtain ⟨t, hreach, halt⟩ := rests.halts
  have hawake : Awake call t := hreach.keeps (fun _ _ _ hp hg hs => awake_step hp hg hs) h
  obtain ⟨k, x, hk, hx, h | h | h⟩ := hawake
  · rw [halted_due halt hk] at h
    cases h
  · exact halted_served halt _ h rfl
  · obtain ⟨r, hr⟩ := List.exists_mem_of_ne_nil _ h
    obtain ⟨hmem, hactive⟩ := RoomStore.mem_query.mp hr
    refine RoomStore.query_eq_nil.mp (clean t hreach halt) r hmem ⟨hactive.1, ?_⟩
    intro v hv
    obtain rfl := List.mem_singleton.mp hv
    exact hactive.2 v hu

/-- No listener of a deletion is there. -/
def Undeleted (w : Network) : Prop :=
  ∀ x ∈ w.watches, ∀ v, x.listener ≠ .deletedRooms v

/-- An active room of `u` that no request is about to end, and that no listener will. -/
def Stuck (u : Uid) (key : Nat) (w : Network) : Prop :=
  (∃ d, (key, d) ∈ w.server.rooms ∧ Active [u] d ∧ (Parses d → Undeleted w)) ∧
    ∀ c ∈ w.inflight, c.request ≠ .endRoom key

private theorem undeleted_step {w w' : Network} {ev : Event Action Change} (h : Undeleted w)
    (hg : OnItsOwn w ev) (hstep : step w ev = some w') : Undeleted w' := by
  intro x hx v
  cases own_of_step hg hstep with
  | served hi hw =>
    subst hw
    obtain ⟨y, hy, rfl⟩ := List.mem_map.mp hx
    exact h y hy v
  | handled hi ho hserver hwatches hinflight => exact h x (hwatches ▸ hx) v
  | @delivered j y hj hdue hserver hwatches hinflight =>
    rw [hwatches] at hx
    rcases List.mem_or_eq_of_mem_set hx with hx | rfl
    · exact h x hx v
    · exact h y (List.mem_of_getElem? hj) v

private theorem stuck_step {u : Uid} {key : Nat} {w w' : Network} {ev : Event Action Change}
    (h : Stuck u key w) (hg : OnItsOwn w ev) (hstep : step w ev = some w') : Stuck u key w' := by
  obtain ⟨⟨d, hd, hactive, hunended⟩, hflight⟩ := h
  have hafter : Parses d → Undeleted w' := fun hparse =>
    undeleted_step (hunended hparse) hg hstep
  cases own_of_step hg hstep with
  | @served i r hi hw =>
    subst hw
    constructor
    · refine ⟨d, ?_, hactive, hafter⟩
      cases r with
      | addDocument call => exact RoomStore.mem_add.mpr (.inr hd)
      | getDocuments call => exact hd
      | endRoom k =>
        have hne : key ≠ k := fun he => hflight _ (List.mem_of_getElem? hi) (he ▸ rfl)
        exact RoomStore.mem_patch.mpr (.inl ⟨hd, hne⟩)
    · intro c hc
      obtain ⟨e, he, hreq⟩ := request_served hi hc
      exact hreq ▸ hflight e he
  | handled hi ho hserver hwatches hinflight =>
    constructor
    · rw [hserver]
      exact ⟨d, hd, hactive, hafter⟩
    · intro c hc
      rw [hinflight] at hc
      rcases request_handled ho hc with ⟨e, he, hreq⟩ | ⟨call, hreq⟩
      · exact hreq ▸ hflight e he
      · rw [hreq]
        exact fun he => nomatch he
  | @delivered j x hj hdue hserver hwatches hinflight =>
    constructor
    · rw [hserver]
      exact ⟨d, hd, hactive, hafter⟩
    · intro c hc
      rw [hinflight] at hc
      rcases List.mem_append.mp hc with hc | hc
      · exact hflight c hc
      · obtain ⟨q, hq, rfl⟩ := List.mem_map.mp hc
        rcases mem_notify_requests hq with
          ⟨_, _, _, rfl⟩ | ⟨v, rooms, hl, hrooms, hparses, r, hr, rfl⟩
        · exact fun he => nomatch he
        · intro he
          have hkey : r.1 = key := Request.endRoom.inj he
          rw [hl] at hrooms
          obtain rfl : (w.server.query [v]).take limit = rooms := Option.some.inj hrooms
          have hmem : r ∈ w.server.rooms :=
            (RoomStore.mem_query.mp (List.mem_of_mem_take hr)).1
          obtain rfl := RoomStore.eq_of_key hmem hd hkey
          exact hunended (hparses _ hr) x (List.mem_of_getElem? hj) v hl

private theorem not_clean_of_stuck {u : Uid} {key : Nat} {w : Network} (h : Stuck u key w) :
    ¬ RestsClean u w := by
  rintro ⟨rests, clean⟩
  obtain ⟨t, hreach, halt⟩ := rests.halts
  have hstuck : Stuck u key t := hreach.keeps (fun _ _ _ hp hg hs => stuck_step hp hg hs) h
  obtain ⟨⟨d, hd, hactive, _⟩, _⟩ := hstuck
  exact RoomStore.query_eq_nil.mp (clean t hreach halt) _ hd hactive

/-- Only the deletion and sleeping or foreign creating listeners are there; additions
concern other users, and the rooms about to be ended are the user's own. -/
structure Quiet (u : Uid) (w : Network) : Prop where
  parses : ∀ r ∈ w.server.query [u], Parses r.2
  listeners : ∀ x ∈ w.watches, x.listener = .deletedRooms u ∨ ∃ call, x.listener = .create call ∧
    (u ∈ call.members → x.due = false ∧ w.server.query call.members = [])
  adds : ∀ c ∈ w.inflight, ∀ call, c.request = .addDocument call → u ∉ call.members
  ends : ∀ c ∈ w.inflight, ∀ key, c.request = .endRoom key →
    ∃ d, (key, d) ∈ w.server.rooms ∧ memberOf (some ⟨d.members⟩) u = some true

/-- The deletion's listener is due, or every room in its result is about to be ended. -/
def Ending (u : Uid) (w : Network) : Prop :=
  ∃ (k : Nat) (x : Watch Listener), w.watches[k]? = some x ∧ x.listener = .deletedRooms u ∧
    (x.due = true ∨ ∀ r ∈ snapshot w.server (.deletedRooms u), ⟨.endRoom r.1, none⟩ ∈ w.inflight)

private theorem active_member {u : Uid} {d : ChatRoomDoc} (h : Active [u] d) :
    memberOf (some ⟨d.members⟩) u = some true :=
  h.2 u List.mem_cons_self

private theorem newRoom_foreign {u : Uid} {call : CreateCall} (h : u ∉ call.members)
    {uids : List Uid} (hu : u ∈ uids) (t : Nat) :
    ¬ Active uids (newRoom call.uid call.otherUid t) := by
  rw [active_newRoom]
  intro hall
  apply h
  simpa [CreateCall.members] using hall u hu

private theorem query_served_subset {u : Uid} {w : Network} (quiet : Quiet u w) {i : Nat}
    {r : Request} (hi : w.inflight[i]? = some ⟨r, none⟩) {uids : List Uid} (hu : u ∈ uids) :
    ∀ room ∈ (serve w.server r true).1.rooms, Active uids room.2 →
      room ∈ w.server.rooms ∧ r ≠ .endRoom room.1 := by
  intro room hroom hactive
  cases r with
  | addDocument call =>
    rcases RoomStore.mem_add.mp hroom with rfl | hroom
    · have hforeign := quiet.adds _ (List.mem_of_getElem? hi) call rfl
      exact absurd hactive (newRoom_foreign hforeign hu _)
    · exact ⟨hroom, fun h => nomatch h⟩
  | getDocuments call => exact ⟨hroom, fun h => nomatch h⟩
  | endRoom key =>
    rcases RoomStore.mem_patch.mp hroom with ⟨hroom, hne⟩ | ⟨d, _, rfl⟩
    · exact ⟨hroom, fun h => hne (Request.endRoom.inj h).symm⟩
    · cases hactive.1

private theorem quiet_served {u : Uid} {w : Network} (h : Quiet u w) {i : Nat} {r : Request}
    (hi : w.inflight[i]? = some ⟨r, none⟩) : Quiet u (w.served program i r true) where
  parses := by
    intro room hroom
    obtain ⟨hmem, hactive⟩ := RoomStore.mem_query.mp hroom
    obtain ⟨hold, _⟩ := query_served_subset h hi List.mem_cons_self room hmem hactive
    exact h.parses room (RoomStore.mem_query.mpr ⟨hold, hactive⟩)
  listeners := by
    intro x hx
    obtain ⟨y, hy, rfl⟩ := List.mem_map.mp hx
    rcases h.listeners y hy with hd | ⟨call, hc, hasleep⟩
    · exact .inl hd
    · refine .inr ⟨call, hc, fun hu => ?_⟩
      obtain ⟨hdue, hempty⟩ := hasleep hu
      have hempty' : (serve w.server r true).1.query call.members = [] := by
        rw [RoomStore.query_eq_nil] at hempty ⊢
        intro room hroom hactive
        obtain ⟨hold, _⟩ := query_served_subset h hi hu room hroom hactive
        exact hempty room hold hactive
      refine ⟨?_, hempty'⟩
      have hsame : program.snapshot w.server y.listener =
          program.snapshot (serve w.server r true).1 y.listener := by
        rw [hc]
        exact hempty.trans hempty'.symm
      show (y.due || decide (program.snapshot w.server y.listener ≠
        program.snapshot (serve w.server r true).1 y.listener)) = false
      rw [hdue, hsame]
      simp
  adds := by
    intro c hc call hreq
    obtain ⟨d, hd, he⟩ := request_served hi hc
    exact h.adds d hd call (he.trans hreq)
  ends := by
    intro c hc key hreq
    obtain ⟨d, hd, he⟩ := request_served hi hc
    obtain ⟨room, hroom, hmember⟩ := h.ends d hd key (he.trans hreq)
    cases r with
    | addDocument call =>
      have hkept :
          (key, room) ∈ (w.server.add (newRoom call.uid call.otherUid w.server.clock)).rooms :=
        RoomStore.mem_add.mpr (.inr hroom)
      exact ⟨room, hkept, hmember⟩
    | getDocuments call => exact ⟨room, hroom, hmember⟩
    | endRoom k =>
      by_cases hk : key = k
      · subst hk
        have hended : (key, (Patch.status 0).apply w.server.clock room) ∈
            (w.server.patch key (.status 0)).rooms :=
          RoomStore.mem_patch.mpr (.inr ⟨room, hroom, rfl⟩)
        exact ⟨_, hended, hmember⟩
      · have hkept : (key, room) ∈ (w.server.patch k (.status 0)).rooms :=
          RoomStore.mem_patch.mpr (.inl ⟨hroom, hk⟩)
        exact ⟨room, hkept, hmember⟩

/-- What a delivery to a quiet network asks for: additions for others, ends of the user's rooms. -/
private theorem quiet_requests {u : Uid} {w : Network} (h : Quiet u w) {j : Nat}
    {x : Watch Listener} (hj : w.watches[j]? = some x) (hdue : x.due = true) :
    ∀ q ∈ (notify w.server w.client x.listener (some (snapshot w.server x.listener))).requests,
      (∃ call, q = .addDocument call ∧ u ∉ call.members) ∨
      ∃ room ∈ w.server.query [u], q = .endRoom room.1 := by
  intro q hq
  have hlistener := h.listeners x (List.mem_of_getElem? hj)
  rcases mem_notify_requests hq with
    ⟨call, hl, _, rfl⟩ | ⟨v, rooms, hl, hrooms, _, room, hroom, rfl⟩
  · rw [hl] at hlistener
    rcases hlistener with hd | ⟨other, hc, hasleep⟩
    · cases hd
    · obtain rfl := Listener.create.inj hc
      refine .inl ⟨call, rfl, fun hu => ?_⟩
      rw [(hasleep hu).1] at hdue
      cases hdue
  · rw [hl] at hlistener hrooms
    rcases hlistener with hd | ⟨other, hc, _⟩
    · obtain rfl := Listener.deletedRooms.inj hd
      obtain rfl : (w.server.query [v]).take limit = rooms := Option.some.inj hrooms
      exact .inr ⟨room, List.mem_of_mem_take hroom, rfl⟩
    · cases hc

private theorem quiet_of_same {u : Uid} {w w' : Network} (h : Quiet u w)
    (hserver : w'.server = w.server)
    (hlisteners : ∀ x ∈ w'.watches, x ∈ w.watches ∨
      x.due = false ∧ ∃ y ∈ w.watches, x.listener = y.listener)
    (hrequests : ∀ c ∈ w'.inflight, (∃ d ∈ w.inflight, d.request = c.request) ∨
      (∃ call, c.request = .getDocuments call) ∨
      (∃ call, c.request = .addDocument call ∧ u ∉ call.members) ∨
      ∃ room ∈ w.server.query [u], c.request = .endRoom room.1) : Quiet u w' where
  parses := hserver ▸ h.parses
  listeners := by
    intro x hx
    rw [hserver]
    rcases hlisteners x hx with hx | ⟨hdue, y, hy, hlistener⟩
    · exact h.listeners x hx
    · rw [hlistener]
      rcases h.listeners y hy with hd | ⟨call, hc, hasleep⟩
      · exact .inl hd
      · exact .inr ⟨call, hc, fun hu => ⟨hdue, (hasleep hu).2⟩⟩
  adds := by
    intro c hc call hreq
    rcases hrequests c hc with ⟨d, hd, he⟩ | ⟨other, he⟩ | ⟨other, he, hu⟩ | ⟨room, _, he⟩
    · exact h.adds d hd call (he.trans hreq)
    · rw [he] at hreq
      cases hreq
    · rw [he] at hreq
      cases hreq
      exact hu
    · rw [he] at hreq
      cases hreq
  ends := by
    intro c hc key hreq
    rw [hserver]
    rcases hrequests c hc with ⟨d, hd, he⟩ | ⟨other, he⟩ | ⟨other, he, _⟩ | ⟨room, hroom, he⟩
    · exact h.ends d hd key (he.trans hreq)
    · rw [he] at hreq
      cases hreq
    · rw [he] at hreq
      cases hreq
    · rw [he] at hreq
      cases hreq
      obtain ⟨hmem, hactive⟩ := RoomStore.mem_query.mp hroom
      exact ⟨room.2, hmem, active_member hactive⟩

private theorem quiet_step {u : Uid} {w w' : Network} {ev : Event Action Change} (h : Quiet u w)
    (hg : OnItsOwn w ev) (hstep : step w ev = some w') : Quiet u w' := by
  cases own_of_step hg hstep with
  | served hi hw => exact hw ▸ quiet_served h hi
  | handled hi ho hserver hwatches hinflight =>
    refine quiet_of_same h hserver (fun x hx => .inl (hwatches ▸ hx)) ?_
    intro c hc
    rw [hinflight] at hc
    rcases request_handled ho hc with hold | hget
    · exact .inl hold
    · exact .inr (.inl hget)
  | @delivered j x hj hdue hserver hwatches hinflight =>
    refine quiet_of_same h hserver ?_ ?_
    · intro y hy
      rw [hwatches] at hy
      rcases List.mem_or_eq_of_mem_set hy with hy | rfl
      · exact .inl hy
      · exact .inr ⟨rfl, x, List.mem_of_getElem? hj, rfl⟩
    · intro c hc
      rw [hinflight] at hc
      rcases List.mem_append.mp hc with hc | hc
      · exact .inl ⟨c, hc, rfl⟩
      · obtain ⟨q, hq, rfl⟩ := List.mem_map.mp hc
        exact .inr (.inr (quiet_requests h hj hdue q hq))

/-- What the deletion's listener does about the rooms it is handed. -/
private def endsOf : Listener → List Document → List Request
  | .deletedRooms _, rooms => rooms.map fun room => .endRoom room.1
  | .create _, _ => []

private theorem lasting : Lasting program where
  handle ho := (handle_cases ho).1
  notify ho := Option.some.inj ho ▸ (notify_keeps _ _ _ _).1

/-- An ended room is not in the result any more, and a delivery ends what it is handed. -/
private theorem repairs {u : Uid} {w : Network} (quiet : Quiet u w) :
    Repairs endsOf program (.deletedRooms u) w where
  shows := by
    intro r hr hsame
    obtain ⟨room, hroom, rfl⟩ := List.mem_map.mp hr
    rw [← hsame] at hroom
    have hstill : room ∈ ((w.server.patch room.1 (.status 0)).query [u]).take limit := hroom
    obtain ⟨hmem, hactive⟩ := RoomStore.mem_query.mp (List.mem_of_mem_take hstill)
    rcases RoomStore.mem_patch.mp hmem with ⟨_, hne⟩ | ⟨d, _, heq⟩
    · exact hne rfl
    · rw [heq] at hactive
      cases hactive.1
  issues := by
    intro o ho r hr
    obtain rfl := Option.some.inj ho
    have hparses : ∀ room ∈ snapshot w.server (.deletedRooms u), Parses room.2 :=
      fun room hroom => quiet.parses room (List.mem_of_mem_take hroom)
    show r ∈ (deletedRoomsDelivered _ _ (some _)).requests
    rw [deletedRoomsDelivered_requests, if_pos]
    · exact hr
    · exact hparses

private theorem ending_iff {u : Uid} {w : Network} :
    Ending u w ↔ Attended endsOf program (.deletedRooms u) w := by
  have hpending : (∀ r ∈ endsOf (.deletedRooms u) (snapshot w.server (.deletedRooms u)),
      ⟨r, none⟩ ∈ w.inflight) ↔
      ∀ room ∈ snapshot w.server (.deletedRooms u), ⟨.endRoom room.1, none⟩ ∈ w.inflight :=
    List.forall_mem_map
  constructor
  · rintro ⟨k, x, hk, hx, hending⟩
    exact ⟨x, List.mem_of_getElem? hk, hx, hending.imp_right hpending.mpr⟩
  · rintro ⟨x, hmem, hx, hending⟩
    obtain ⟨k, hk⟩ := List.mem_iff_getElem?.mp hmem
    exact ⟨k, x, hk, hx, hending.imp_right hpending.mp⟩

private theorem ending_step {u : Uid} {w w' : Network} {ev : Event Action Change}
    (quiet : Quiet u w) (h : Ending u w) (hg : OnItsOwn w ev) (hstep : step w ev = some w') :
    Ending u w' := by
  rw [onItsOwn_eq] at hg
  have own := Foundation.Settle.own_of_step hg hstep
  exact ending_iff.mpr ((ending_iff.mp h).own lasting (repairs quiet) own)

private theorem ended_of_halted {u : Uid} {w : Network} (h : Ending u w)
    (halt : Halted step OnItsOwn w) : w.server.query [u] = [] := by
  rw [onItsOwn_eq] at halt
  have hnone := (ending_iff.mp h).settled halt rfl
  have htaken : (w.server.query [u]).take limit = [] := List.map_eq_nil_iff.mp hnone
  exact (List.take_eq_nil_iff.mp htaken).resolve_left nofun

/-! The joint runs of the listeners fall in rank: first the user's active rooms, then
the additions that are still to come, then the due results, then the requests. -/

/-- A creating listener that will add once it is delivered. -/
def emptyDue (s : RoomStore) (x : Watch Listener) : Bool :=
  x.due && match x.listener with
    | .create call => decide (s.query call.members = [])
    | .deletedRooms _ => false

/-- The steps a request still takes, the query after an addition included. -/
def weight : Call Request Answer → Nat
  | ⟨.addDocument _, none⟩ => 4
  | ⟨.addDocument _, some _⟩ => 3
  | ⟨_, none⟩ => 2
  | ⟨_, some _⟩ => 1

def toCome (w : Network) : Nat :=
  w.watches.countP (emptyDue w.server) + w.inflight.countP fun c => (pendingAdd c).isSome

def rank (u : Uid) (w : Network) : Rank4 :=
  rank4 (w.server.query [u]).length (toCome w) (w.watches.countP Watch.due)
    (total weight w.inflight)

private theorem weight_served (q : Request) (a : Answer) :
    weight ⟨q, some a⟩ < weight ⟨q, none⟩ := by
  cases q <;> simp [weight]

private theorem sum_served {w : Network} {i : Nat} {r : Request}
    (hi : w.inflight[i]? = some ⟨r, none⟩) (a : Answer) :
    total weight (w.inflight.set i ⟨r, some a⟩) < total weight w.inflight := by
  have htotal := total_served weight (⟨r, some a⟩ : Call Request Answer) hi
  have hless := weight_served r a
  omega

private theorem pending_after {w : Network} {i : Nat} {r : Request}
    (hi : w.inflight[i]? = some ⟨r, none⟩) (a : Answer) :
    (w.inflight.set i ⟨r, some a⟩).countP (fun c => (pendingAdd c).isSome) +
      (if (pendingAdd ⟨r, none⟩).isSome then 1 else 0) =
    w.inflight.countP fun c => (pendingAdd c).isSome := by
  have hserved := countP_served (fun c => (pendingAdd c).isSome)
    (⟨r, some a⟩ : Call Request Answer) hi
  have hanswered : (pendingAdd ⟨r, some a⟩).isSome = false := by cases r <;> rfl
  rw [hserved, hanswered]
  rfl

private theorem emptyDue_added (w : Network) (i : Nat) (call : CreateCall) :
    (w.served program i (.addDocument call) true).watches.countP
      (emptyDue (w.served program i (.addDocument call) true).server) ≤
    w.watches.countP (emptyDue w.server) := by
  show (w.watches.map _).countP _ ≤ _
  rw [List.countP_map]
  apply List.countP_mono_left
  rintro ⟨l, due⟩ _ h
  cases l with
  | deletedRooms v => simp [emptyDue] at h
  | create other =>
    simp only [emptyDue, Function.comp_apply, Bool.and_eq_true, decide_eq_true_eq] at h ⊢
    obtain ⟨hdue, hafter⟩ := h
    have hbefore : w.server.query other.members = [] := by
      rw [RoomStore.query_eq_nil] at hafter ⊢
      intro room hroom
      have hkept : room ∈ (w.server.add (newRoom call.uid call.otherUid w.server.clock)).rooms :=
        RoomStore.mem_add.mpr (.inr hroom)
      exact hafter room hkept
    refine ⟨?_, hbefore⟩
    have hsame : program.snapshot w.server (.create other) =
        program.snapshot (program.serve w.server (.addDocument call) true).1 (.create other) :=
      hbefore.trans hafter.symm
    rw [hsame] at hdue
    simpa using hdue

private theorem query_endRoom_same {s : RoomStore} {key : Nat}
    (h : ∀ d, (key, d) ∈ s.rooms → d.status ≠ some 1) (uids : List Uid) :
    (s.patch key (.status 0)).query uids = s.query uids := by
  unfold RoomStore.query RoomStore.patch
  dsimp only
  rw [List.filter_map]
  have hnone : ∀ r ∈ s.rooms, r.1 = key → ¬ Active uids r.2 := by
    rintro ⟨k, d⟩ hr rfl hactive
    exact h d hr hactive.1
  have hkept : s.rooms.filter ((fun r => decide (Active uids r.2)) ∘ fun r : Document =>
      if r.1 = key then (r.1, (Patch.status 0).apply s.clock r.2) else r) =
      s.rooms.filter fun r => decide (Active uids r.2) := by
    apply List.filter_congr
    intro r hr
    simp only [Function.comp_apply, decide_eq_decide]
    split
    · constructor
      · intro hactive
        cases hactive.1
      · exact fun hactive => absurd hactive (hnone r hr ‹_›)
    · rfl
  rw [hkept]
  conv_rhs => rw [← List.map_id (List.filter (fun r => decide (Active uids r.2)) s.rooms)]
  apply List.map_congr_left
  intro r hr
  obtain ⟨hmem, hactive⟩ := List.mem_filter.mp hr
  rw [if_neg fun he => hnone r hmem he (of_decide_eq_true hactive)]
  rfl

private theorem query_endRoom_lt {s : RoomStore} {key : Nat} {u : Uid} {d : ChatRoomDoc}
    (hd : (key, d) ∈ s.rooms) (hactive : Active [u] d) :
    ((s.patch key (.status 0)).query [u]).length < (s.query [u]).length := by
  unfold RoomStore.query
  rw [← List.countP_eq_length_filter, ← List.countP_eq_length_filter]
  show (s.rooms.map _).countP _ < _
  rw [List.countP_map]
  refine countP_lt ?_ hd (decide_eq_true hactive) ?_
  · intro r _ h
    simp only [Function.comp_apply, decide_eq_true_eq] at h ⊢
    split at h
    · cases h.1
    · exact h
  · simp only [Function.comp_apply, if_true, decide_eq_false_iff_not]
    exact fun h => nomatch h.1

private theorem rank_addDocument {u : Uid} {w : Network} (quiet : Quiet u w) {i : Nat}
    {call : CreateCall} (hi : w.inflight[i]? = some ⟨.addDocument call, none⟩) :
    rank u (w.served program i (.addDocument call) true) < rank u w := by
  have hpending := pending_after hi (serve w.server (.addDocument call) true).2
  have hone : (pendingAdd ⟨.addDocument call, none⟩).isSome = true := rfl
  rw [if_pos hone] at hpending
  apply rank4_lt
  right
  refine ⟨?_, .inl ?_⟩
  · have hforeign := quiet.adds _ (List.mem_of_getElem? hi) call rfl
    have hperm := (w.server.rooms_add (newRoom call.uid call.otherUid w.server.clock)).countP_eq
      fun room => decide (Active [u] room.2)
    rw [List.countP_cons, decide_eq_false (newRoom_foreign hforeign List.mem_cons_self _)] at hperm
    unfold RoomStore.query
    rw [← List.countP_eq_length_filter, ← List.countP_eq_length_filter]
    show (w.server.add _).rooms.countP _ ≤ _
    rw [hperm]
    simp
  · have hadded := emptyDue_added w i call
    unfold toCome
    rw [World.served_inflight]
    have hp : (w.inflight.set i ⟨.addDocument call, some (program.serve w.server
        (.addDocument call) true).2⟩).countP (fun c => (pendingAdd c).isSome) + 1 =
        w.inflight.countP fun c => (pendingAdd c).isSome := hpending
    omega

private theorem rank_unchanged (u : Uid) {w : Network} {i : Nat} {r : Request}
    (hi : w.inflight[i]? = some ⟨r, none⟩) (hadd : pendingAdd ⟨r, none⟩ = none)
    (hquery : ∀ uids, (serve w.server r true).1.query uids = w.server.query uids) :
    rank u (w.served program i r true) < rank u w := by
  have hsum := sum_served hi (serve w.server r true).2
  have hpending := pending_after hi (serve w.server r true).2
  rw [hadd] at hpending
  have hsnapshot : ∀ l, program.snapshot (serve w.server r true).1 l =
      program.snapshot w.server l := by
    intro l
    cases l with
    | create call => exact hquery _
    | deletedRooms v => exact congrArg (List.take limit) (hquery _)
  have hwatches : (w.served program i r true).watches = w.watches :=
    World.install_watches_same program w _ fun x _ => hsnapshot x.listener
  have hempty : emptyDue (w.served program i r true).server = emptyDue w.server := by
    funext x
    unfold emptyDue
    cases x.listener with
    | create call =>
      show (x.due && decide ((serve w.server r true).1.query _ = [])) = _
      rw [hquery]
    | deletedRooms v => rfl
  apply rank4_lt
  right
  have hrooms : ((serve w.server r true).1.query [u]).length ≤ (w.server.query [u]).length := by
    rw [hquery]
  refine ⟨hrooms, .inr ⟨?_, .inr ⟨?_, hsum⟩⟩⟩
  · unfold toCome
    rw [hwatches, World.served_inflight, hempty]
    exact Nat.add_le_add_left (Nat.le_of_eq hpending) _
  · rw [hwatches]

private theorem rank_endRoom {u : Uid} {w : Network} (quiet : Quiet u w) {i key : Nat}
    (hi : w.inflight[i]? = some ⟨.endRoom key, none⟩) :
    rank u (w.served program i (.endRoom key) true) < rank u w := by
  by_cases hactive : ∃ d, (key, d) ∈ w.server.rooms ∧ Active [u] d
  · obtain ⟨d, hd, hactive⟩ := hactive
    have hfewer := query_endRoom_lt hd hactive
    exact rank4_lt (.inl hfewer)
  · obtain ⟨d, hd, hmember⟩ := quiet.ends _ (List.mem_of_getElem? hi) key rfl
    have hinactive : ∀ d, (key, d) ∈ w.server.rooms → d.status ≠ some 1 := by
      intro d' hd' hstatus
      have he : (key, d') = (key, d) := RoomStore.eq_of_key hd' hd rfl
      have he : d' = d := (Prod.mk.inj he).2
      subst he
      refine hactive ⟨d', hd', hstatus, ?_⟩
      intro v hv
      obtain rfl := List.mem_singleton.mp hv
      exact hmember
    exact rank_unchanged u hi rfl (query_endRoom_same hinactive)

private theorem rank_served {u : Uid} {w : Network} (quiet : Quiet u w) {i : Nat} {r : Request}
    (hi : w.inflight[i]? = some ⟨r, none⟩) : rank u (w.served program i r true) < rank u w := by
  cases r with
  | addDocument call => exact rank_addDocument quiet hi
  | getDocuments call => exact rank_unchanged u hi rfl fun _ => rfl
  | endRoom key => exact rank_endRoom quiet hi

/-- What a handler issues weighs less than what it takes out of the flight. -/
private theorem rank_handled (u : Uid) {w w' : Network} {i : Nat} {r : Request} {a : Answer}
    {o : Outcome} (hi : w.inflight[i]? = some ⟨r, some a⟩) (ho : handle w.client r a = some o)
    (hserver : w'.server = w.server) (hwatches : w'.watches = w.watches)
    (hinflight : w'.inflight = w.inflight.eraseIdx i ++ o.requests.map fun r => ⟨r, none⟩) :
    rank u w' < rank u w := by
  have hnew : total weight (o.requests.map fun r => (⟨r, none⟩ : Call Request Answer)) <
      weight ⟨r, some a⟩ ∧ (o.requests.map fun r => (⟨r, none⟩ : Call Request Answer)).countP
        (fun c => (pendingAdd c).isSome) = 0 := by
    rcases (handle_cases ho).2.2 with h | ⟨call, rfl, h⟩
    · rw [h]
      refine ⟨?_, rfl⟩
      cases r <;> simp [weight, total]
    · rw [h]
      exact ⟨by simp [weight, total], rfl⟩
  have hsum := total_landed weight hi
  have hcount := countP_landed (fun c => (pendingAdd c).isSome) hi
  have hanswered : (pendingAdd ⟨r, some a⟩).isSome = false := by cases r <;> rfl
  rw [hanswered] at hcount
  apply rank4_lt
  right
  refine ⟨Nat.le_of_eq (by rw [hserver]), .inr ⟨?_, .inr ⟨Nat.le_of_eq (by rw [hwatches]), ?_⟩⟩⟩
  · unfold toCome
    rw [hserver, hwatches, hinflight, List.countP_append, hcount, hnew.2]
    simp
  · rw [hinflight, total_append]
    omega

private theorem issued_delivered {w : Network} {x : Watch Listener} (hdue : x.due = true) :
    ((notify w.server w.client x.listener
      (some (snapshot w.server x.listener))).requests.map
        fun r => (⟨r, none⟩ : Call Request Answer)).countP (fun c => (pendingAdd c).isSome) =
      if emptyDue w.server x then 1 else 0 := by
  cases hl : x.listener with
  | create call =>
    have hreq := createDelivered_requests w.server w.client call
      (some (w.server.query call.members))
    show ((createDelivered w.server w.client call (some (w.server.query call.members))).requests.map
      _).countP _ = _
    rw [hreq]
    by_cases hempty : w.server.query call.members = []
    · rw [if_pos (congrArg some hempty), if_pos]
      · rfl
      · simp [emptyDue, hdue, hl, hempty]
    · rw [if_neg fun h => hempty (Option.some.inj h), if_neg]
      · rfl
      · simp [emptyDue, hl, hempty]
  | deletedRooms v =>
    rw [if_neg (by simp [emptyDue, hl]), List.countP_eq_zero]
    intro c hc
    obtain ⟨q, hq, rfl⟩ := List.mem_map.mp hc
    rw [← hl] at hq
    rcases mem_notify_requests hq with ⟨call, he, _⟩ | ⟨_, _, _, _, _, room, _, rfl⟩
    · rw [hl] at he
      cases he
    · simp [pendingAdd]

/-- A delivery leaves one due result less, and an empty one is exchanged for an addition. -/
private theorem rank_delivered (u : Uid) {w w' : Network} {j : Nat} {x : Watch Listener}
    (hj : w.watches[j]? = some x) (hdue : x.due = true) (hserver : w'.server = w.server)
    (hwatches : w'.watches = w.watches.set j ⟨x.listener, false⟩)
    (hinflight : w'.inflight = w.inflight ++ (notify w.server w.client x.listener
      (some (snapshot w.server x.listener))).requests.map fun r => ⟨r, none⟩) :
    rank u w' < rank u w := by
  have hdueCount := countP_served Watch.due ⟨x.listener, false⟩ hj
  have hemptyCount := countP_served (emptyDue w.server) ⟨x.listener, false⟩ hj
  have hgone : emptyDue w.server ⟨x.listener, false⟩ = false := rfl
  rw [hgone] at hemptyCount
  rw [hdue] at hdueCount
  simp only [Bool.false_eq_true, if_false, if_true] at hdueCount hemptyCount
  have hissued := issued_delivered (w := w) hdue
  apply rank4_lt
  right
  refine ⟨Nat.le_of_eq (by rw [hserver]), .inr ⟨?_, .inl ?_⟩⟩
  · unfold toCome
    rw [hserver, hwatches, hinflight, List.countP_append, hissued]
    omega
  · rw [hwatches]
    omega

private theorem rank_falls {u : Uid} {w w' : Network} {ev : Event Action Change}
    (quiet : Quiet u w) (hg : OnItsOwn w ev) (hstep : step w ev = some w') :
    rank u w' < rank u w := by
  cases own_of_step hg hstep with
  | served hi hw => exact hw ▸ rank_served quiet hi
  | handled hi ho hserver hwatches hinflight =>
    exact rank_handled u hi ho hserver hwatches hinflight
  | delivered hj hdue hserver hwatches hinflight =>
    exact rank_delivered u hj hdue hserver hwatches hinflight

private theorem ended_step {u : Uid} {w w' : Network} {ev : Event Action Change}
    (quiet : Quiet u w) (h : w.server.query [u] = []) (hg : OnItsOwn w ev)
    (hstep : step w ev = some w') : w'.server.query [u] = [] := by
  cases own_of_step hg hstep with
  | served hi hw =>
    subst hw
    refine RoomStore.query_eq_nil.mpr fun room hroom hactive => ?_
    obtain ⟨hold, _⟩ := query_served_subset quiet hi List.mem_cons_self room hroom hactive
    exact RoomStore.query_eq_nil.mp h room hold hactive
  | handled hi ho hserver hwatches hinflight => rw [hserver, h]
  | delivered hj hdue hserver hwatches hinflight => rw [hserver, h]

private theorem clean_of_quiet {u : Uid} {w : Network} (quiet : Quiet u w)
    (ending : Ending u w ∨ w.server.query [u] = []) : RestsClean u w := by
  have hkeep : ∀ s e t, Quiet u s ∧ (Ending u s ∨ s.server.query [u] = []) → OnItsOwn s e →
      step s e = some t → Quiet u t ∧ (Ending u t ∨ t.server.query [u] = []) :=
    fun _ _ _ h hg hs => ⟨quiet_step h.1 hg hs,
      h.2.imp (fun hend => ending_step h.1 hend hg hs) fun hend => ended_step h.1 hend hg hs⟩
  constructor
  · exact rests_of_rank wellFounded_lt (rank u) hkeep
      (fun _ _ _ h hg hs => rank_falls h.1 hg hs) ⟨quiet, ending⟩
  · intro t hreach halt
    have hend := (hreach.keeps hkeep ⟨quiet, ending⟩).2
    exact hend.elim (fun h => ended_of_halted h halt) id

section Deleted

variable {s : RoomStore} {creating : List (CreateCall × Bool)} {u : Uid}
  {profile : Option LoginUserDoc}

private theorem deleted_watches : (deleted s creating u profile).watches =
    (creating.map fun c => ⟨.create c.1, c.2⟩) ++
      if (deletedProfile profile).Parses then [⟨.deletedRooms u, true⟩] else [] := by
  simp only [deleted, act, deleteLoginUser_eq]
  rw [World.perform_watches _ _ rfl]
  dsimp only
  split <;> rfl

private theorem deleted_inflight : (deleted s creating u profile).inflight = [] := by
  simp only [deleted, act, deleteLoginUser_eq]
  rfl

private theorem quiet_deleted (asleep : ∀ c ∈ creating, Asleep s u c)
    (parses : ∀ r ∈ s.query [u], Parses r.2) : Quiet u (deleted s creating u profile) where
  parses := parses
  listeners := by
    intro x hx
    rw [deleted_watches] at hx
    rcases List.mem_append.mp hx with hx | hx
    · obtain ⟨c, hc, rfl⟩ := List.mem_map.mp hx
      exact .inr ⟨c.1, rfl, asleep c hc⟩
    · split at hx
      · obtain rfl := List.mem_singleton.mp hx
        exact .inl rfl
      · cases hx
  adds c hc := by
    rw [deleted_inflight] at hc
    cases hc
  ends c hc := by
    rw [deleted_inflight] at hc
    cases hc

private theorem ending_deleted (parses : (deletedProfile profile).Parses) :
    Ending u (deleted s creating u profile) := by
  have hmem : ⟨.deletedRooms u, true⟩ ∈ (deleted s creating u profile).watches := by
    rw [deleted_watches, if_pos parses]
    exact List.mem_append_right _ List.mem_cons_self
  obtain ⟨k, hk⟩ := List.mem_iff_getElem?.mp hmem
  exact ⟨k, _, hk, rfl, .inl rfl⟩

private theorem undeleted_deleted (unread : ¬ (deletedProfile profile).Parses) :
    Undeleted (deleted s creating u profile) := by
  intro x hx v
  rw [deleted_watches, if_neg unread, List.append_nil] at hx
  obtain ⟨c, _, rfl⟩ := List.mem_map.mp hx
  exact fun h => nomatch h

private theorem awake_deleted {c : CreateCall × Bool} (hc : c ∈ creating)
    (h : c.2 = true ∨ s.query c.1.members ≠ []) : Awake c.1 (deleted s creating u profile) := by
  have hmem : ⟨.create c.1, c.2⟩ ∈ (deleted s creating u profile).watches := by
    rw [deleted_watches]
    exact List.mem_append_left _ (List.mem_map.mpr ⟨c, hc, rfl⟩)
  obtain ⟨k, hk⟩ := List.mem_iff_getElem?.mp hmem
  exact ⟨k, _, hk, rfl, h.imp_right .inr⟩

end Deleted

section Example

private def talk : CreateCall := ⟨0, "a", "b", by decide⟩

private def bob : LoginUserDoc where
  email := some "bob@p-chat.net"
  password := some "password1234"
  status := some 1

/-- The room that `a` and `b` talk in; `a`'s listener has reported it. -/
private def oneRoom : RoomStore := (RoomStore.empty fun _ => 0).add (newRoom "a" "b" 0)

-- without a listener of the two users the same room is ended for good
example : (∀ c ∈ ([] : List (CreateCall × Bool)), Asleep oneRoom "b" c) ∧
    ∀ r ∈ oneRoom.query ["b"], (deletedProfile (some bob)).Parses ∧ Parses r.2 := by
  decide

end Example

end PlateChat.ChatRoom.Deletion
