/- PlateChat/ChatRoom/Uniqueness
   digest: How many rooms the creating listeners add, per pair of users and per call. -/

import PlateChat.ChatRoom.Service

set_option autoImplicit false
set_option relaxedAutoImplicit false

/-!
Query and addition are two steps. What is stored and what is about to be added draw
on one budget: an empty delivery spends it, a served addition moves it from the
flight into the store, and nothing else touches it.
-/

namespace PlateChat.ChatRoom.Uniqueness

open PlateChat.Foundation.Dictionary PlateChat.Foundation.Run PlateChat.Foundation.EventLoop
open PlateChat.Model.Members PlateChat.Model.Room PlateChat.ChatRoom.Service

/-- The call whose listener is about to be handed an empty result. -/
def emptyFor (w : Network) : Event Action Change → Option CreateCall
  | .deliver j true =>
    match w.watches[j]? with
    | some ⟨.create call, _⟩ => if w.server.query call.members = [] then some call else none
    | _ => none
  | _ => none

/-- Additions under way of calls in `K`. -/
def pending (K : CreateCall → Bool) (flight : List (Call Request Answer)) : Nat :=
  flight.countP fun c => (pendingAdd c).any K

theorem pending_eq_zero {K : CreateCall → Bool} {flight : List (Call Request Answer)} :
    pending K flight = 0 ↔ ∀ c ∈ flight, ∀ d, pendingAdd c = some d → K d = false := by
  simp only [pending, List.countP_eq_zero, Option.any_eq_true, not_exists, not_and,
    Bool.not_eq_true]

section Budget

variable {stored : RoomStore → Nat} {K : CreateCall → Bool}

def spent (stored : RoomStore → Nat) (K : CreateCall → Bool) (w : Network) : Nat :=
  stored w.server + pending K w.inflight

private theorem spent_served
    (hadd : ∀ s call, stored ((s.add (newRoom call.uid call.otherUid s.clock)).log call.id) ≤
      stored s + if K call then 1 else 0)
    (hend : ∀ s key, stored (s.patch key (.status 0)) ≤ stored s)
    (w : Network) {i : Nat} {r : Request} (ok : Bool) (hi : w.inflight[i]? = some ⟨r, none⟩) :
    spent stored K (w.served program i r ok) ≤ spent stored K w := by
  have hserved := countP_served (fun c => (pendingAdd c).any K)
    (⟨r, some (serve w.server r ok).2⟩ : Call Request Answer) hi
  have hanswered : (pendingAdd ⟨r, some (serve w.server r ok).2⟩).any K = false := by
    cases r <;> rfl
  rw [hanswered] at hserved
  simp only [Bool.false_eq_true, if_false, Nat.add_zero] at hserved
  show stored (serve w.server r ok).1 +
    (w.inflight.set i ⟨r, some (serve w.server r ok).2⟩).countP _ ≤
      stored w.server + w.inflight.countP _
  rw [← hserved]
  cases r with
  | addDocument call =>
    have hcall : (pendingAdd ⟨.addDocument call, none⟩).any K = K call := rfl
    rw [hcall]
    cases ok with
    | true =>
      have := hadd w.server call
      simp only [serve]
      omega
    | false =>
      simp only [serve]
      omega
  | getDocuments call =>
    cases ok <;> simp only [serve] <;> omega
  | endRoom key =>
    cases ok with
    | true =>
      have := hend w.server key
      simp only [serve]
      omega
    | false =>
      simp only [serve]
      omega

private theorem spent_handled (w : Network) {i : Nat} {r : Request} {a : Answer} {o : Outcome}
    (hi : w.inflight[i]? = some ⟨r, some a⟩) (ho : handle w.client r a = some o) :
    spent stored K ((w.landed i).perform o) ≤ spent stored K w := by
  have hlanded := countP_landed (fun c => (pendingAdd c).any K) hi
  show stored w.server + ((w.inflight.eraseIdx i) ++ o.requests.map _).countP _ ≤
    stored w.server + w.inflight.countP _
  rw [hlanded, List.countP_append]
  have hnew : (o.requests.map fun r => (⟨r, none⟩ : Call Request Answer)).countP
      (fun c => (pendingAdd c).any K) = 0 := by
    rcases (handle_cases ho).2.2 with h | ⟨call, _, h⟩
    · rw [h]
      rfl
    · rw [h]
      rfl
  omega

private theorem pending_notify (K : CreateCall → Bool) (s : RoomStore) (c : Devices) (l : Listener)
    (documents : Option (List Document))
    (h : ∀ call, l = .create call → documents = some [] → K call = false) :
    pending K ((notify s c l documents).requests.map fun r => ⟨r, none⟩) = 0 := by
  rw [pending_eq_zero]
  intro q hq d hd
  obtain ⟨r, hr, rfl⟩ := List.mem_map.mp hq
  rcases mem_notify_requests hr with ⟨call, hl, hempty, rfl⟩ | ⟨_, _, _, _, _, room, _, rfl⟩
  · obtain rfl := Option.some.inj hd
    exact h call hl hempty
  · cases hd

private theorem pending_notify_le (K : CreateCall → Bool) (s : RoomStore) (c : Devices)
    (l : Listener) (documents : Option (List Document)) :
    pending K ((notify s c l documents).requests.map fun r => ⟨r, none⟩) ≤ 1 := by
  by_cases h : ∃ call, l = .create call ∧ documents = some []
  · obtain ⟨call, rfl, rfl⟩ := h
    exact List.countP_le_length
  · rw [pending_notify K s c l documents fun call hl hd => absurd ⟨call, hl, hd⟩ h]
    exact Nat.zero_le 1

/-- A delivery adds only on an empty result, and then the budget was free. -/
private theorem spent_delivered (w : Network) {j : Nat} {ok : Bool} {x : Watch Listener}
    (hj : w.watches[j]? = some x) (h : spent stored K w ≤ 1)
    (free : ∀ call ∈ emptyFor w (.deliver j ok), K call = true → spent stored K w = 0) :
    spent stored K ((w.delivered j x.listener).perform (notify w.server w.client x.listener
      (if ok then some (snapshot w.server x.listener) else none))) ≤ 1 := by
  show stored w.server + (w.inflight ++ List.map _ _).countP _ ≤ 1
  rw [List.countP_append, ← Nat.add_assoc]
  change spent stored K w + pending K (List.map _ _) ≤ 1
  have hle := pending_notify_le K w.server w.client x.listener
    (if ok then some (snapshot w.server x.listener) else none)
  by_cases hfree : spent stored K w = 0
  · omega
  · rw [pending_notify K w.server w.client x.listener _ ?_]
    · exact h
    · intro call hl hempty
      cases ok with
      | false => cases hempty
      | true =>
        rw [hl] at hempty
        have hq : w.server.query call.members = [] := Option.some.inj hempty
        have hcall : emptyFor w (.deliver j true) = some call := by
          obtain ⟨l, due⟩ := x
          cases hl
          simp only [emptyFor, hj, hq, if_true]
        cases hK : K call with
        | true => exact absurd (free call hcall hK) hfree
        | false => rfl

private theorem spent_step
    (hadd : ∀ s call, stored ((s.add (newRoom call.uid call.otherUid s.clock)).log call.id) ≤
      stored s + if K call then 1 else 0)
    (hend : ∀ s key, stored (s.patch key (.status 0)) ≤ stored s)
    {w w' : Network} {ev : Event Action Change} (h : spent stored K w ≤ 1)
    (henv : ∀ change, ev = .env change → stored (env w.server change) ≤ stored w.server)
    (free : ∀ call ∈ emptyFor w ev, K call = true → spent stored K w = 0)
    (hstep : step w ev = some w') : spent stored K w' ≤ 1 := by
  have hfires := Program.step_fires hstep
  cases hfires with
  | @act v o ho =>
    obtain rfl : act w.server w.client v = o := Option.some.inj ho
    show stored w.server + (w.inflight ++ (act w.server w.client v).requests.map _).countP _ ≤ 1
    rw [act_requests]
    simpa [spent, pending] using h
  | serve hi => exact Nat.le_trans (spent_served hadd hend w _ hi) h
  | handle hi ho => exact Nat.le_trans (spent_handled w hi ho) h
  | @deliver j ok x o hj ho =>
    obtain rfl := Option.some.inj ho
    exact spent_delivered w hj h free
  | @env change =>
    have := henv change rfl
    show stored (env w.server change) + pending K w.inflight ≤ 1
    have hw : stored w.server + pending K w.inflight ≤ 1 := h
    omega

end Budget

/-- No two users share more than one status-1 room. -/
def AtMostOne (s : RoomStore) : Prop :=
  ∀ a b, a ≠ b → (s.query [a, b]).length ≤ 1

/-- The call is made by one of the two users for the other. -/
def Concerns (a b : Uid) (call : CreateCall) : Prop :=
  (call.uid = a ∧ call.otherUid = b) ∨ (call.uid = b ∧ call.otherUid = a)

instance (a b : Uid) (call : CreateCall) : Decidable (Concerns a b call) :=
  inferInstanceAs (Decidable (_ ∨ _))

/-- Rooms come from `cerateChatRoom` only; existing ones may be updated or ended. -/
def CreatedByCalls (_ : Network) : Event Action Change → Prop
  | .env (.add _) => False
  | .env (.patch _ p) => p.Settling
  | _ => True

instance (w : Network) : ∀ ev, Decidable (CreatedByCalls w ev)
  | .env (.add _) => .isFalse id
  | .env (.patch _ p) => inferInstanceAs (Decidable p.Settling)
  | .act _ | .serve _ _ | .handle _ | .deliver _ _ => .isTrue trivial

/-- An empty result is delivered only while no addition for the same two users is
under way, on either device. -/
def NoRace (w : Network) (ev : Event Action Change) : Prop :=
  ∀ call ∈ emptyFor w ev, ∀ c ∈ w.inflight, ∀ d ∈ pendingAdd c,
    ¬ Concerns call.uid call.otherUid d

instance (w : Network) (ev : Event Action Change) : Decidable (NoRace w ev) :=
  inferInstanceAs (Decidable (∀ call ∈ emptyFor w ev, ∀ c ∈ w.inflight, ∀ d ∈ pendingAdd c, _))

private theorem active_comm {a b : Uid} {d : ChatRoomDoc} (h : Active [a, b] d) :
    Active [b, a] d :=
  ⟨h.1, fun u hu => h.2 u (by simpa [or_comm] using hu)⟩

private theorem query_length_add (s : RoomStore) {a b : Uid} (hab : a ≠ b) (call : CreateCall) :
    (((s.add (newRoom call.uid call.otherUid s.clock)).log call.id).query [a, b]).length ≤
      (s.query [a, b]).length + if decide (Concerns a b call) then 1 else 0 := by
  have hperm := ((s.rooms_add (newRoom call.uid call.otherUid s.clock)).filter
    fun r => decide (Active [a, b] r.2)).length_eq
  show (List.filter _ (s.add _).rooms).length ≤ _
  rw [hperm, List.filter_cons]
  by_cases hactive : Active [a, b] (newRoom call.uid call.otherUid s.clock)
  · have hmem := (active_newRoom _ _ _ _).mp hactive
    have ha := hmem a (by simp)
    have hb := hmem b (by simp)
    have hconcerns : Concerns a b call := by
      unfold Concerns
      grind
    simp [hactive, hconcerns, RoomStore.query]
  · simp [hactive, RoomStore.query]

private theorem query_length_patch (s : RoomStore) (uids : List Uid) (key : Nat) {p : Patch}
    (hp : p.Settling) : ((s.patch key p).query uids).length ≤ (s.query uids).length := by
  have hcount : ((s.patch key p).query uids).length =
      s.rooms.countP (fun r => decide (Active uids (if r.1 = key then (r.1, p.apply s.clock r.2)
        else r).2)) := by
    rw [RoomStore.query, ← List.countP_eq_length_filter]
    exact List.countP_map
  rw [hcount, RoomStore.query, ← List.countP_eq_length_filter]
  apply List.countP_mono_left
  intro r _ h
  rw [decide_eq_true_eq] at h ⊢
  split at h
  · exact active_apply hp h
  · exact h

private theorem unique_step {w w' : Network} {ev : Event Action Change} {a b : Uid} (hab : a ≠ b)
    (h : spent (fun s => (s.query [a, b]).length) (fun c => decide (Concerns a b c)) w ≤ 1)
    (created : CreatedByCalls w ev) (race : NoRace w ev) (hstep : step w ev = some w') :
    spent (fun s => (s.query [a, b]).length) (fun c => decide (Concerns a b c)) w' ≤ 1 := by
  refine spent_step (fun s call => query_length_add s hab call)
    (fun s key => query_length_patch s _ key (by decide)) h ?_ ?_ hstep
  · rintro change rfl
    cases change with
    | patch key p => exact query_length_patch w.server _ key created
    | add d => exact created.elim
  · intro call hcall hconcerns
    have hconcerns : Concerns a b call := of_decide_eq_true hconcerns
    have hnone : pending (fun c => decide (Concerns a b c)) w.inflight = 0 := by
      rw [pending_eq_zero]
      intro c hc d hd
      have := race call hcall c hc d hd
      rw [decide_eq_false_iff_not]
      unfold Concerns at *
      grind
    have hempty : w.server.query [a, b] = [] := by
      have hq : w.server.query call.members = [] := by
        unfold emptyFor at hcall
        split at hcall
        · split at hcall
          · split at hcall
            · obtain rfl := Option.some.inj hcall
              assumption
            · cases hcall
          · cases hcall
        · cases hcall
      rw [RoomStore.query_eq_nil] at hq ⊢
      intro r hr
      have hnot := hq r hr
      rcases hconcerns with ⟨rfl, rfl⟩ | ⟨rfl, rfl⟩
      · exact hnot
      · exact fun hactive => hnot (active_comm hactive)
    show (w.server.query [a, b]).length + pending _ w.inflight = 0
    rw [hempty, hnone]
    rfl

/-- Two users share at most one active room in every state of a run without that race. -/
theorem at_most_one_active_room (s : RoomStore) (unique : AtMostOne s)
    (es : List (Event Action Change)) (w : Network)
    (created : Along step CreatedByCalls (start s) es) (race : Along step NoRace (start s) es)
    (hr : run step (start s) es = some w) : AtMostOne w.server := by
  intro a b hab
  have hspent : spent (fun s => (s.query [a, b]).length)
      (fun c => decide (Concerns a b c)) w ≤ 1 := by
    refine run_keeps (P := fun w => spent (fun s => (s.query [a, b]).length)
      (fun c => decide (Concerns a b c)) w ≤ 1) ?_ (along_and created race) hr (unique a b hab)
    intro t ev t' ht hg hstep
    exact unique_step hab ht hg.1 hg.2 hstep
  have hstored : (w.server.query [a, b]).length ≤ spent (fun s => (s.query [a, b]).length)
      (fun c => decide (Concerns a b c)) w := Nat.le_add_right _ _
  exact Nat.le_trans hstored hspent

section Example

private def noRooms : RoomStore := .empty fun _ => 0

/-- Both users tap the button before either addition is stored. -/
private def bothAtOnce : List (Event Action Change) :=
  [.act (.cerateChatRoom "a" "b"), .act (.cerateChatRoom "b" "a"), .deliver 0 true,
    .deliver 1 true, .serve 0 true, .serve 1 true]

/-- The second user's listener first sees the room of the first one. -/
private def oneAfterTheOther : List (Event Action Change) :=
  [.act (.cerateChatRoom "a" "b"), .deliver 0 true, .serve 0 true, .handle 0,
    .act (.cerateChatRoom "b" "a"), .deliver 1 true, .serve 0 true, .handle 0, .deliver 0 true]

theorem two_rooms_for_one_pair :
    ¬ ∀ (s : RoomStore) (es : List (Event Action Change)) (w : Network), AtMostOne s →
      Along step CreatedByCalls (start s) es → run step (start s) es = some w →
      AtMostOne w.server := by
  intro claim
  have hseen : (run step (start noRooms) bothAtOnce).map
      (fun w => (w.server.query ["a", "b"]).length) = some 2 := by decide
  obtain ⟨w, hw, hval⟩ := Option.map_eq_some_iff.mp hseen
  have hone := claim noRooms bothAtOnce w (fun _ _ _ => Nat.zero_le 1) (by decide) hw "a" "b"
    (by decide)
  omega

theorem one_room_one_after_the_other :
    ∃ w, run step (start noRooms) oneAfterTheOther = some w ∧ AtMostOne w.server := by
  have hran : (run step (start noRooms) oneAfterTheOther).map (fun _ => ()) = some () := by decide
  obtain ⟨w, hw, _⟩ := Option.map_eq_some_iff.mp hran
  exact ⟨w, hw, at_most_one_active_room noRooms (fun _ _ _ => Nat.zero_le 1) oneAfterTheOther w
    (by decide) (by decide) hw⟩

end Example

/-- No call adds a second room. -/
def OncePerCall (w : Network) : Prop := ∀ id, w.server.added.count id ≤ 1

/-- A call's listener is handed an empty result only before its call has added a room. -/
def NotAgain (w : Network) (ev : Event Action Change) : Prop :=
  ∀ call ∈ emptyFor w ev, call.id ∉ w.server.added ∧
    ∀ c ∈ w.inflight, ∀ d ∈ pendingAdd c, d.id ≠ call.id

instance (w : Network) (ev : Event Action Change) : Decidable (NotAgain w ev) :=
  inferInstanceAs (Decidable (∀ call ∈ emptyFor w ev, _ ∧ ∀ c ∈ w.inflight, ∀ d ∈ pendingAdd c, _))

private theorem once_step {w w' : Network} {ev : Event Action Change} {id : Nat}
    (h : spent (fun s => s.added.count id) (fun c => decide (c.id = id)) w ≤ 1)
    (again : NotAgain w ev) (hstep : step w ev = some w') :
    spent (fun s => s.added.count id) (fun c => decide (c.id = id)) w' ≤ 1 := by
  refine spent_step ?_ (fun s key => Nat.le_refl _) h ?_ ?_ hstep
  · intro s call
    show (call.id :: s.added).count id ≤ _
    rw [List.count_cons]
    simp only [beq_iff_eq, decide_eq_true_eq, Nat.le_refl]
  · rintro change rfl
    cases change <;> exact Nat.le_refl _
  · intro call hcall hid
    obtain rfl : call.id = id := of_decide_eq_true hid
    obtain ⟨hstored, hflight⟩ := again call hcall
    have hnone : pending (fun c => decide (c.id = call.id)) w.inflight = 0 := by
      rw [pending_eq_zero]
      intro c hc d hd
      exact decide_eq_false (hflight c hc d hd)
    show w.server.added.count call.id + pending _ w.inflight = 0
    rw [hnone, List.count_eq_zero.mpr hstored]

/-- Whatever happens to the rooms, a call adds at most one unless its listener is
handed an empty result again. -/
theorem adds_once (s : RoomStore) (es : List (Event Action Change)) (w : Network)
    (again : Along step NotAgain (start s) es) (hr : run step (start s) es = some w) :
    OncePerCall w := by
  intro id
  have hspent : spent (fun s => s.added.count id) (fun c => decide (c.id = id)) w ≤ 1 := by
    refine run_keeps (P := fun w => spent (fun s => s.added.count id)
      (fun c => decide (c.id = id)) w ≤ 1) ?_ again hr (Nat.zero_le 1)
    intro t ev t' ht hg hstep
    exact once_step ht hg hstep
  have hstored : w.server.added.count id ≤ spent (fun s => s.added.count id)
      (fun c => decide (c.id = id)) w := Nat.le_add_right _ _
  exact Nat.le_trans hstored hspent

section Example

/-- The partner's account deletion ends the room; the listener is delivered again. -/
private def createdAgain : List (Event Action Change) :=
  [.act (.cerateChatRoom "a" "b"), .deliver 0 true, .serve 0 true, .handle 0,
    .env (.patch 0 (.status 0)), .deliver 0 true, .serve 1 true]

/-- Messages are exchanged in the room and it is delivered again. -/
private def createdThenUsed : List (Event Action Change) :=
  [.act (.cerateChatRoom "a" "b"), .deliver 0 true, .serve 0 true, .handle 0,
    .env (.patch 0 (.lastChatTime (some "hello"))), .deliver 0 true]

theorem one_call_adds_twice :
    ¬ ∀ (s : RoomStore) (es : List (Event Action Change)) (w : Network),
      run step (start s) es = some w → OncePerCall w := by
  intro claim
  have hseen : (run step (start noRooms) createdAgain).map
      (fun w => w.server.added.count 0) = some 2 := by decide
  obtain ⟨w, hw, hval⟩ := Option.map_eq_some_iff.mp hseen
  have honce := claim noRooms createdAgain w hw 0
  omega

theorem one_call_adds_once_then_used :
    ∃ w, run step (start noRooms) createdThenUsed = some w ∧ OncePerCall w := by
  have hran : (run step (start noRooms) createdThenUsed).map (fun _ => ()) = some () := by decide
  obtain ⟨w, hw, _⟩ := Option.map_eq_some_iff.mp hran
  exact ⟨w, hw, adds_once noRooms createdThenUsed w (by decide) hw⟩

end Example

end PlateChat.ChatRoom.Uniqueness
