/- PlateChat/Screen/LateTraps
   digest: When a late callback pushes a talk screen twice, or finds its profile screen gone. -/

import PlateChat.Screen.LateCallbacks

set_option autoImplicit false
set_option relaxedAutoImplicit false

/-!
The guard on the screen on top keeps a handler from pushing its talk screen twice in a row, not
from pushing it again once another screen lies on top of it. The handlers of a profile screen
take it for granted that the screen is still there.
-/

namespace PlateChat.Screen.LateTraps

open PlateChat.Foundation.Dictionary PlateChat.Foundation.Run PlateChat.Foundation.EventLoop
open PlateChat.Foundation.Navigation
open PlateChat.Model.Members PlateChat.Model.Room
open PlateChat.ChatRoom.Service (CreateCall Listener Devices)
open PlateChat.ChatRoom PlateChat.Screen.Stacks PlateChat.Screen.LateCallbacks

/-- No talk button is touched, and a listener is called for a change. -/
def Quiet (w : Network) : Event Action Change → Prop
  | .act (.talkButton _) => False
  | .deliver j _ => ∃ x ∈ w.watches[j]?, x.due = true
  | _ => True

/-- No profile is opened and nobody is blocked. -/
def Calm (_ : Network) : Event Action Change → Prop
  | .act (.profileImageButton _) | .act (.blockUser _) => False
  | _ => True

/-- All but the stack is as it was. -/
structure Beside (w w' : Network) : Prop where
  server : w'.server = w.server
  watches : w'.watches = w.watches
  inflight : w'.inflight = w.inflight
  taps : w'.client.taps = w.client.taps
  held : w'.client.held = w.client.held

section Back

variable {w : Network}

theorem offers_back (kind : Kind) : kind.offers .back = !kind.isRoot := by
  cases kind <;> rfl

theorem below_of_root {p : Phone} (h : Sound p) (root : p.navigation.top.kind.isRoot = true) :
    p.navigation.pop = p.navigation := by
  have hzero := (h.roots _ p.navigation.top_mem).mpr root
  have hlast := h.root
  have hnodup := p.navigation.nodup_ids
  rcases hstack : p.navigation with ⟨x, _ | ⟨y, below⟩, nodup⟩
  · rfl
  · rw [hstack] at hzero hlast
    rw [Stack.screens, List.getLast?_cons_cons] at hlast
    obtain ⟨z, hz⟩ := List.getLast?_isSome.mpr (List.cons_ne_nil y below) |> Option.isSome_iff_exists.mp
    have hmem : z ∈ y :: below := List.mem_of_getLast? hz
    have hnot : x.id ∉ (y :: below).map Screen.id := (List.nodup_cons.mp nodup).1
    exact absurd (List.mem_map.mpr ⟨z, hmem, (hlast z hz).trans hzero.symm⟩) hnot

theorem step_back (h : Sound w.client) : ∃ w', step w (.act .back) = some w' ∧ Beside w w' ∧
    w'.client.navigation = w.client.navigation.pop := by
  by_cases root : w.client.navigation.top.kind.isRoot = true
  · have hact : act w.client .back = some { client := w.client } := by
      rw [act, if_neg (by rw [offers_back, root]; simp)]
    refine ⟨_, Program.fires_step (.act hact), ⟨rfl, ?_, ?_, rfl, rfl⟩,
      (below_of_root h root).symm⟩
    · rw [World.perform_watches _ _ rfl]
      exact List.append_nil _
    · exact List.append_nil _
  · have hact : act w.client .back = some { client := w.client.popViewController } := by
      rw [act, if_pos (by rw [offers_back]; simpa using root)]
      rfl
    refine ⟨_, Program.fires_step (.act hact), ⟨rfl, ?_, ?_, rfl, rfl⟩, rfl⟩
    · rw [World.perform_watches _ _ rfl]
      exact List.append_nil _
    · exact List.append_nil _

theorem reaches_back (guard : Network → Event Action Change → Prop)
    (backs : ∀ w, guard w (.act .back)) (h : Sound w.client) (n : Nat) :
    ∃ w', Reaches step guard w w' ∧ Beside w w' ∧
      w'.client.navigation = Stack.pop^[n] w.client.navigation := by
  induction n generalizing w with
  | zero => exact ⟨w, .refl, ⟨rfl, rfl, rfl, rfl, rfl⟩, rfl⟩
  | succ n ih =>
    obtain ⟨m, hstep, hm, hpop⟩ := step_back h
    obtain ⟨w', hreach, hw', hpops⟩ := ih (sound_step h hstep)
    refine ⟨w', .head ⟨_, backs w, hstep⟩ hreach, ?_, ?_⟩
    · exact ⟨hw'.server.trans hm.server, hw'.watches.trans hm.watches,
        hw'.inflight.trans hm.inflight, hw'.taps.trans hm.taps, hw'.held.trans hm.held⟩
    · rw [hpops, hpop, Function.iterate_succ_apply]

end Back

section Twice

variable {w : Network}

theorem completionHandler_none {p : Phone} {t : Tap} {result : Except ServiceError ChatRoom}
    (h : completionHandler p t result = none) : t.screen ∈ p.navigation.ids := by
  cases result with
  | error e => cases h
  | ok room =>
    by_contra hscreen
    simp only [completionHandler, if_pos hscreen] at h
    cases h

theorem performed_none {handed : Nat → ChatRoom → Prop} {p : Phone} {o : Service.Outcome}
    (once : CompletesOnce handed p.devices o.client) (h : performed p o = none) :
    (∃ t ∈ p.taps, t.screen ∈ p.navigation.ids) ∧ ∃ id room, handed id room := by
  rcases once with hsame | ⟨⟨id, result⟩, hroom, hresult⟩
  · rw [performed_same hsame] at h
    cases h
  · rw [performed_completed hresult, Option.map_eq_none_iff] at h
    simp only [complete] at h
    split at h
    · rename_i t hfind
      refine ⟨⟨t, List.mem_of_find?_eq_some hfind, completionHandler_none h⟩, ?_⟩
      cases result with
      | error e => cases h
      | ok room => exact ⟨id, room, hroom room rfl⟩
    · cases h

/-- A delivery traps only if a screen that was tapped is still on the stack. -/
theorem origin_of_traps {j : Nat} {ok : Bool} (h : program.Traps w (.deliver j ok)) :
    ∃ t ∈ w.client.taps, t.screen ∈ w.client.navigation.ids := by
  obtain ⟨⟨x, hx⟩, htrap⟩ := h
  simp only [Program.step, hx, Option.map_eq_none_iff] at htrap
  exact (performed_none (notify_completesOnce _ _ _ _) htrap).1

/-- No screen that was tapped is on the stack. -/
def Left (p : Phone) : Prop := ∀ t ∈ p.taps, t.screen ∉ p.navigation.ids

theorem left_turns {handed : Nat → ChatRoom → Prop} {p p' : Phone} (sound : Sound p)
    (h : Left p) (turns : Turns handed p p') : Left p' := by
  intro t ht
  rw [turns.taps] at ht
  have hgone := h t ht
  cases turns with
  | same same => exact same.navigation ▸ hgone
  | opened kind _ hp =>
    obtain ⟨q, hq, rfl⟩ := opened_spec hp
    have hbound := sound.taps t ht
    rw [(pushViewController_spec hq).2.2.1, List.mem_cons, not_or]
    exact ⟨by omega, hgone⟩
  | pushed t' _ ht' screen => exact absurd screen (h t' ht')
  | popped same =>
    rw [same.navigation]
    exact fun hmem => hgone (Stack.ids_of_pop hmem)

theorem left_step {w' : Network} {e : Event Action Change} (sound : Sound w.client)
    (h : Left w.client) (quiet : Quiet w e) (hstep : step w e = some w') : Left w'.client := by
  rcases (step_spec hstep).2 with ⟨_, turned⟩ | ⟨otherUid, rfl, _⟩
  · exact left_turns sound h turned.turns
  · exact quiet.elim

theorem changes_room (s : RoomStore) (uid otherUid : Uid) : ∃ h : Change,
    s.query [uid, otherUid] ≠ (env s h).query [uid, otherUid] ∧
      (env s h).query [uid, otherUid] ≠ [] := by
  cases hquery : s.query [uid, otherUid] with
  | nil =>
    have hactive : Active [uid, otherUid] (newRoom uid otherUid s.clock) := by
      rw [active_newRoom]
      simp
    have hmem : (s.next, newRoom uid otherUid s.clock) ∈
        (env s (.cerateChatRoom uid otherUid)).query [uid, otherUid] :=
      RoomStore.mem_query.mpr ⟨RoomStore.mem_add.mpr (.inl rfl), hactive⟩
    have hne := List.ne_nil_of_mem hmem
    exact ⟨.cerateChatRoom uid otherUid, hne.symm, hne⟩
  | cons r rest =>
    obtain ⟨key, d⟩ := r
    obtain ⟨text, htext⟩ : ∃ text : String, some text ≠ d.lastUpdateMessage := by
      by_cases h : d.lastUpdateMessage = some ""
      · exact ⟨"a", by rw [h]; simp⟩
      · exact ⟨"", fun heq => h heq.symm⟩
    have hd : (key, d) ∈ s.query [uid, otherUid] := hquery ▸ List.mem_cons_self
    obtain ⟨hroom, hstatus, hmembers⟩ := RoomStore.mem_query.mp hd
    have hmem : (key, Patch.apply (.lastChatTime (some text)) s.clock d) ∈
        (env s (.patch key (.lastChatTime (some text)))).query [uid, otherUid] :=
      RoomStore.mem_query.mpr
        ⟨RoomStore.mem_patch.mpr (.inr ⟨d, hroom, rfl⟩), hstatus, hmembers⟩
    refine ⟨.patch key (.lastChatTime (some text)), fun hsame => ?_, List.ne_nil_of_mem hmem⟩
    rw [← hsame, ← hquery] at hmem
    have heq := RoomStore.eq_of_key (RoomStore.mem_query.mp hmem).1 hroom rfl
    exact htext (congrArg (fun r : Document => r.2.lastUpdateMessage) heq)

theorem falls_due (wired : Wired w) (parses : ∀ r ∈ w.server.rooms, Parses r.2) {t : Tap}
    (ht : t ∈ w.client.taps) :
    ∃ (w' : Network) (j : Nat) (x : Watch Listener) (room : ChatRoom) (rest : List ChatRoom),
      Reaches step Quiet w w' ∧ w'.client = w.client ∧ w'.watches[j]? = some x ∧ x.due = true ∧
      ∃ distinct, x.listener = Tap.listener t distinct ∧
      ChatRoom.ofDocuments w'.server.clock (Service.snapshot w'.server x.listener) =
        .ok (room :: rest) := by
  obtain ⟨distinct, hlistening⟩ := wired.listens t ht
  obtain ⟨x, hx, hlistener⟩ := List.mem_map.mp hlistening
  obtain ⟨j, hj⟩ := List.mem_iff_getElem?.mp hx
  obtain ⟨h, hchanged, hne⟩ := changes_room w.server t.uid t.otherUid
  have hparses : ∀ r ∈ (env w.server h).query [t.uid, t.otherUid], Parses r.2 := fun r hr =>
    (continues_env w.server h).parses parses r (RoomStore.mem_query.mp hr).1
  obtain ⟨rooms, hrooms⟩ := ofDocuments_of_parses hparses (env w.server h).clock
  have hstep : step w (.env h) = some (w.install program (env w.server h)) :=
    Program.fires_step .env
  have hdue := World.watches_install program (env w.server h) hj
  cases rooms with
  | nil =>
    have hkeys := (parses_of_ofDocuments hrooms).2
    exact absurd (List.map_eq_nil_iff.mp hkeys.symm) hne
  | cons room rest =>
    refine ⟨_, j, _, room, rest, Relation.ReflTransGen.single ⟨.env h, trivial, hstep⟩, rfl, hdue, ?_,
      distinct, hlistener, ?_⟩
    · have hdiffers : program.snapshot w.server x.listener ≠
          program.snapshot (env w.server h) x.listener := by
        rw [hlistener]
        exact hchanged
      simp [hdiffers]
    · rw [hlistener]
      exact hrooms

theorem find_tap {p : Phone} (sound : Sound p) {t : Tap} (ht : t ∈ p.taps) :
    p.taps.find? (fun tap => tap.call = t.call) = some t := by
  cases hfind : p.taps.find? fun tap => tap.call = t.call with
  | none => simpa using List.find?_eq_none.mp hfind t ht
  | some t' =>
    have hcall : t'.call = t.call := by simpa using List.find?_some hfind
    rw [sound.single t' (List.mem_of_find?_eq_some hfind) t ht (.inl hcall)]

theorem notify_room {s : RoomStore} {p : Phone} (sound : Sound p) {t : Tap} (ht : t ∈ p.taps)
    (distinct : t.uid ≠ t.otherUid) {room : ChatRoom} {rest : List ChatRoom}
    {documents : List Document} (hrooms : ChatRoom.ofDocuments s.clock documents =
      .ok (room :: rest)) :
    ∃ devices, notify s p (Tap.listener t distinct) (some documents) =
      (completionHandler p t (.ok room)).map fun p' =>
        { client := { p' with devices := devices } } := by
  have hne : documents ≠ [] := by
    rintro rfl
    cases hrooms
  obtain ⟨d, ds, rfl⟩ := List.exists_cons_of_ne_nil hne
  have hclient : Service.notify s p.devices (Tap.listener t distinct) (some (d :: ds)) =
      Service.complete p.devices ⟨t.call, t.uid, t.otherUid, distinct⟩ (.ok room) := by
    simp only [Tap.listener, Service.notify, Service.createDelivered, hrooms]
  have hcompleted : (Service.complete p.devices ⟨t.call, t.uid, t.otherUid, distinct⟩
      (.ok room)).client =
        { p.devices with completed := (t.call, .ok room) :: p.devices.completed } := rfl
  refine ⟨{ p.devices with completed := (t.call, .ok room) :: p.devices.completed }, ?_⟩
  unfold notify
  rw [hclient, performed_completed hcompleted]
  simp only [complete, find_tap sound ht]
  rfl

theorem handed_room (sound : Sound w.client) (wired : Wired w)
    (parses : ∀ r ∈ w.server.rooms, Parses r.2) {t : Tap} (ht : t ∈ w.client.taps) :
    ∃ w' j room, Reaches step Quiet w w' ∧ w'.client = w.client ∧
      Quiet w' (.deliver j true) ∧
      (completionHandler w.client t (.ok room) = none → program.Traps w' (.deliver j true)) ∧
      ∀ p', completionHandler w.client t (.ok room) = some p' → ∃ w'',
        step w' (.deliver j true) = some w'' ∧ w''.client.navigation = p'.navigation ∧
        w''.client.taps = p'.taps := by
  obtain ⟨w', j, x, room, rest, hreach, hclient, hj, hdue, distinct, hlistener, hrooms⟩ :=
    falls_due wired parses ht
  obtain ⟨devices, hnotify⟩ := notify_room (s := w'.server) (hclient ▸ sound) (hclient ▸ ht)
    distinct hrooms
  rw [hclient, ← hlistener] at hnotify
  refine ⟨w', j, room, hreach, hclient, ⟨x, hj, hdue⟩, fun hnone => ?_, fun p' hp' => ?_⟩
  · rw [hnone] at hnotify
    refine ⟨⟨x, hj⟩, ?_⟩
    simp only [Program.step, hj, Option.map_eq_none_iff]
    rw [hclient]
    exact hnotify
  · rw [hp', Option.map_some, ← hclient] at hnotify
    exact ⟨_, Program.fires_step (.deliver hj hnotify), rfl, rfl⟩

/-- Some continuation without a further tap pushes a talk screen that is on the stack. -/
def PushedTwiceAhead (w : Network) : Prop :=
  ∃ w' j, Reaches step Quiet w w' ∧ Quiet w' (.deliver j true) ∧
    program.Traps w' (.deliver j true)

theorem parses_step {w' : Network} {e : Event Action Change}
    (parses : ∀ r ∈ w.server.rooms, Parses r.2) (hstep : step w e = some w') :
    ∀ r ∈ w'.server.rooms, Parses r.2 :=
  (step_spec hstep).1.parses parses

theorem sound_wired_reaches {guard : Network → Event Action Change → Prop} {w' : Network}
    (h : Reaches step guard w w') (sound : Sound w.client) (wired : Wired w)
    (parses : ∀ r ∈ w.server.rooms, Parses r.2) :
    Sound w'.client ∧ Wired w' ∧ ∀ r ∈ w'.server.rooms, Parses r.2 :=
  h.keeps (P := fun w => Sound w.client ∧ Wired w ∧ ∀ r ∈ w.server.rooms, Parses r.2)
    (fun _ _ _ h _ hstep =>
      ⟨sound_step h.1 hstep, wired_step h.1 h.2.1 hstep, parses_step h.2.2 hstep⟩)
    ⟨sound, wired, parses⟩

/-- The handler of a tap opens the talk screen over the screen that was tapped; a profile is
opened over that, and the handler is called again. -/
theorem pushed_twice_ahead (sound : Sound w.client) (wired : Wired w)
    (parses : ∀ r ∈ w.server.rooms, Parses r.2) {t : Tap}
    (ht : t ∈ w.client.taps) (screen : t.screen ∈ w.client.navigation.ids) :
    PushedTwiceAhead w := by
  obtain ⟨n, htop⟩ := Stack.exists_pops screen
  obtain ⟨w₁, hback, beside, hpops⟩ := reaches_back Quiet (fun _ => trivial) sound n
  obtain ⟨sound₁, wired₁, parses₁⟩ := sound_wired_reaches hback sound wired parses
  have ht₁ : t ∈ w₁.client.taps := beside.taps ▸ ht
  rw [← hpops] at htop
  have hkind := sound₁.origins t ht₁ _ w₁.client.navigation.top_mem htop
  have htalk : t.talk ∉ w₁.client.navigation.ids :=
    fun hmem => (sound₁.lies t ht₁ hmem).ne_top htop
  have hscreen : t.screen ∈ w₁.client.navigation.ids := by
    rw [← htop]
    exact Stack.mem_ids.mpr ⟨_, w₁.client.navigation.top_mem, rfl⟩
  obtain ⟨w₂, j, room, hfirst, hclient, quiet, _, hopens⟩ := handed_room sound₁ wired₁ parses₁ ht₁
  obtain ⟨navigation, hpush⟩ := Stack.push_of_fresh
    (x := ⟨t.talk, .chatMessage room t.otherUid⟩) htalk
  have hspec := Stack.push_spec hpush
  have hhandler : completionHandler w₁.client t (.ok room) =
      some { w₁.client with navigation := navigation } := by
    simp only [completionHandler, hscreen, not_true, if_false, hkind, Phone.pushViewController,
      hpush, Option.map_some, Bool.false_eq_true]
  obtain ⟨w₃, hstep₃, hnavigation₃, htaps₃⟩ := hopens _ hhandler
  have hreach₃ : Reaches step Quiet w w₃ := (hback.trans hfirst).tail ⟨_, quiet, hstep₃⟩
  obtain ⟨sound₃, -, -⟩ := sound_wired_reaches hreach₃ sound wired parses
  have hfresh : w₃.client.made ∉ w₃.client.navigation.ids :=
    fun hmem => Nat.lt_irrefl _ (id_lt sound₃ hmem)
  obtain ⟨navigation', hpush'⟩ := Stack.push_of_fresh
    (x := ⟨w₃.client.made, .userDetail t.otherUid⟩) hfresh
  have hspec' := Stack.push_spec hpush'
  have htop₃ : w₃.client.navigation.top.kind = .chatMessage room t.otherUid := by
    rw [hnavigation₃, hspec.2.1]
  have hact : ∃ o, act w₃.client (.profileImageButton t.otherUid) = some o ∧
      o.client.navigation = navigation' ∧ o.client.taps = w₃.client.taps := by
    rw [act, if_pos (by rw [htop₃]; simp [Kind.offers])]
    simp [touched, Phone.opened, Phone.pushViewController, hpush']
  obtain ⟨o, ho, hnavigation₄, htaps₄⟩ := hact
  have hstep₄ := Program.fires_step (p := program) (w := w₃) (.act ho)
  have hreach₄ := hreach₃.tail ⟨.act (.profileImageButton t.otherUid), trivial, hstep₄⟩
  obtain ⟨sound₄, wired₄, parses₄⟩ := sound_wired_reaches hreach₄ sound wired parses
  have ht₄ : t ∈ (w₃.perform o).client.taps := by
    rw [World.perform_client, htaps₄, htaps₃]
    exact ht₁
  obtain ⟨w₅, j', room', hagain, _, quiet', htrap, _⟩ := handed_room sound₄ wired₄ parses₄ ht₄
  refine ⟨w₅, j', hreach₄.trans hagain, quiet', htrap ?_⟩
  have hids : (w₃.perform o).client.navigation.ids =
      w₃.client.made :: t.talk :: w₁.client.navigation.ids := by
    rw [World.perform_client, hnavigation₄, Stack.ids_push hpush', hnavigation₃,
      Stack.ids_push hpush]
  have htop₄ : (w₃.perform o).client.navigation.top.kind.isChatMessage = false := by
    rw [World.perform_client, hnavigation₄, hspec'.2.1]
    rfl
  have hhere : t.screen ∈ (w₃.perform o).client.navigation.ids := by
    rw [hids]
    simp [hscreen]
  have hpushed : (w₃.perform o).client.navigation.push
      ⟨t.talk, .chatMessage room' t.otherUid⟩ = none := by
    rw [Stack.push_eq_none, hids]
    simp
  simp only [completionHandler, hhere, not_true, if_false, htop₄, Phone.pushViewController,
    hpushed, Option.map_none, Bool.false_eq_true]

end Twice

section Gone

variable {w : Network}

/-- A request whose handler can still go on without its screen. -/
def Harmful (p : Phone) (q : Call Request Answer) : Prop :=
  ∃ screen, captured q.request = some screen ∧ q.answer ≠ some (.done false) ∧ ¬ p.Kept screen

/-- Answers are those of the backend, and no handler is a closure of the root. -/
structure Issued (w : Network) : Prop where
  answered : ∀ q ∈ w.inflight, program.Answered q
  noRoot : ∀ q ∈ w.inflight, captured q.request ≠ some 0

theorem Turns.held_subset {handed : Nat → ChatRoom → Prop} {p p' : Phone}
    (h : Turns handed p p') : p.held ⊆ p'.held := by
  cases h with
  | same same => exact same.held
  | opened kind _ hp =>
    obtain ⟨q, hq, rfl⟩ := opened_spec hp
    rw [(pushViewController_spec hq).2.2.2.2]
    exact List.Subset.refl _
  | pushed t room _ _ _ q hq same =>
    have hheld := same.held
    rw [(pushViewController_spec hq).2.2.2.2] at hheld
    exact hheld
  | popped same => exact same.held

theorem captured_act {v : Action} {o : Outcome} (sound : Sound w.client)
    (h : act w.client v = some o) {r : Request} (hr : r ∈ o.requests) :
    captured r ≠ some 0 ∧ ¬ Calm w (.act v) := by
  by_cases hoffers : w.client.navigation.top.kind.offers v = true
  · by_cases htap : ∃ otherUid, v = .talkButton otherUid
    · obtain ⟨otherUid, rfl⟩ := htap
      rw [act, if_pos hoffers] at h
      obtain rfl := Option.some.inj h
      rw [talkButton] at hr
      cases huser : w.client.currentUser <;> simp [huser] at hr
    · obtain ⟨_, _, _, hissued⟩ := act_turns h fun otherUid hv => htap ⟨otherUid, hv⟩
      rcases hissued r hr with ⟨uid, rfl, rfl⟩ | ⟨otherUid, rfl, rfl, hroot⟩
      · have hmade := sound.made
        refine ⟨fun hzero => ?_, id⟩
        have : w.client.made = 0 := Option.some.inj hzero
        omega
      · refine ⟨fun hzero => ?_, id⟩
        have htop : w.client.navigation.top.id = 0 := Option.some.inj hzero
        rw [(sound.roots _ w.client.navigation.top_mem).mp htop] at hroot
        cases hroot
  · rw [act, if_neg hoffers] at h
    obtain rfl := Option.some.inj h
    cases hr

theorem issued_step {w' : Network} {e : Event Action Change} (sound : Sound w.client)
    (h : Issued w) (hstep : step w e = some w') : Issued w' := by
  refine ⟨Program.answered_step h.answered hstep, ?_⟩
  cases Program.step_fires hstep with
  | act ho => exact World.calls_perform h.noRoot fun r hr => (captured_act sound ho hr).1
  | serve hi => exact World.calls_served h.noRoot (h.noRoot ⟨_, none⟩ (List.mem_of_getElem? hi))
  | handle hi ho =>
    refine World.calls_perform (World.calls_landed h.noRoot) fun r hr => ?_
    rcases (handle_turns ho).2.2.2 r hr with ⟨q, rfl⟩ | ⟨hsame, _⟩
    · exact fun hzero => nomatch hzero
    · exact hsame ▸ h.noRoot _ (List.mem_of_getElem? hi)
  | deliver hj ho =>
    refine World.calls_perform h.noRoot fun r hr => ?_
    obtain ⟨q, rfl⟩ := (notify_turns ho).2.2.2 r hr
    exact fun hzero => nomatch hzero
  | env => exact h.noRoot

theorem issued_start {s : RoomStore} {kind : Kind} : Issued (start s kind) where
  answered _ hq := nomatch hq
  noRoot _ hq := nomatch hq

theorem harmful_mono {p p' : Phone} (kept : ∀ screen, p.Kept screen → p'.Kept screen)
    {q : Call Request Answer} (h : ¬ Harmful p q) : ¬ Harmful p' q := by
  rintro ⟨screen, hscreen, hanswer, hgone⟩
  exact h ⟨screen, hscreen, hanswer, fun hkept => hgone (kept screen hkept)⟩

theorem harmless_rooms (p : Phone) (r : Service.Request) (a : Option Answer) :
    ¬ Harmful p ⟨.rooms r, a⟩ := by
  rintro ⟨_, hscreen, _⟩
  cases hscreen

theorem kept_of_subset {p p' : Phone} (held : p.held ⊆ p'.held) (taps : p.taps ⊆ p'.taps)
    {screen : Nat} : p.Kept screen → p'.Kept screen
  | .inl hheld => .inl (held hheld)
  | .inr ⟨t, ht, htalk⟩ => .inr ⟨t, taps ht, htalk⟩

theorem kept_step {w' : Network} {e : Event Action Change} (hstep : step w e = some w') :
    ∀ screen, w.client.Kept screen → w'.client.Kept screen := by
  intro screen
  rcases (step_spec hstep).2 with ⟨_, turned⟩ | ⟨otherUid, _, tapped⟩
  · exact kept_of_subset (Turns.held_subset turned.turns) (turned.turns.taps ▸ List.Subset.refl _)
  · rw [tapped.client]
    rcases talkButton_cases w.client otherUid with ⟨same, _⟩ | ⟨_, _, hclient, _⟩
    · exact kept_of_subset same.held (same.taps ▸ List.Subset.refl _)
    · rw [hclient]
      rintro (hheld | ⟨t, ht, htalk⟩)
      · exact .inl hheld
      · exact .inr ⟨t, List.mem_cons_of_mem _ ht, htalk⟩

/-- Harm comes from profiles that are opened and users that are blocked. -/
theorem harmless_step {w' : Network} {e : Event Action Change} (sound : Sound w.client)
    (h : ∀ q ∈ w.inflight, ¬ Harmful w.client q) (calm : Calm w e)
    (hstep : step w e = some w') : ∀ q ∈ w'.inflight, ¬ Harmful w'.client q := by
  have hscreens := kept_step hstep
  have hkept : ∀ q ∈ w.inflight, ¬ Harmful w'.client q :=
    fun q hq => harmful_mono hscreens (h q hq)
  cases Program.step_fires hstep with
  | act ho =>
    refine World.calls_perform hkept fun r hr => ?_
    exact absurd calm (captured_act sound ho hr).2
  | serve hi =>
    refine World.calls_served hkept ?_
    rintro ⟨screen, hscreen, _, hgone⟩
    refine h _ (List.mem_of_getElem? hi) ⟨screen, hscreen, ?_, hgone⟩
    simp
  | handle hi ho =>
    refine World.calls_perform (World.calls_landed hkept) fun r hr => ?_
    rcases (handle_turns ho).2.2.2 r hr with ⟨q, rfl⟩ | ⟨hsame, hdone⟩
    · exact harmless_rooms _ q none
    · rintro ⟨screen, hscreen, _, hgone⟩
      exact hkept _ (List.mem_of_getElem? hi) ⟨screen, hsame ▸ hscreen,
        fun ha => hdone (Option.some.inj ha), hgone⟩
  | deliver hj ho =>
    refine World.calls_perform hkept fun r hr => ?_
    obtain ⟨q, rfl⟩ := (notify_turns ho).2.2.2 r hr
    exact harmless_rooms _ q none
  | env => exact hkept

/-- A handler traps only on a screen that does not exist, once its request has succeeded. -/
theorem harmful_of_traps {i : Nat} (issued : Issued w) (h : program.Traps w (.handle i)) :
    ∃ q ∈ w.inflight, Harmful w.client q := by
  obtain ⟨r, a, hi, hnone⟩ := Program.traps_handle.mp h
  have hmem := List.mem_of_getElem? hi
  refine ⟨_, hmem, ?_⟩
  obtain ⟨s, ok, hanswer⟩ := issued.answered _ hmem a rfl
  obtain rfl : (Stacks.serve s r ok).2 = a := hanswer
  have hstuck : ∀ screen o, unowned w.client screen o = none → ¬ w.client.Kept screen := by
    intro screen o hunowned hkept
    rw [unowned, if_pos (.inr hkept)] at hunowned
    cases hunowned
  cases r with
  | rooms r =>
    obtain ⟨o, ho⟩ : ∃ o, Service.handle w.client.devices r (Service.serve s r ok).2 = some o := by
      cases r <;> cases ok <;> exact ⟨_, rfl⟩
    have htrap : performed w.client o = none := by
      have hbind : (Service.handle w.client.devices r (Service.serve s r ok).2).bind
          (performed w.client) = none := hnone
      rw [ho] at hbind
      exact hbind
    obtain ⟨_, _, _, hfalse⟩ := performed_none (handle_completesOnce ho) htrap
    exact hfalse.elim
  | getUserInfo screen uid =>
    cases ok with
    | false => cases hnone
    | true => exact ⟨screen, rfl, by simp [Stacks.serve], hstuck _ _ hnone⟩
  | addBlockUser screen otherUid =>
    cases ok with
    | false => cases hnone
    | true => exact ⟨screen, rfl, by simp [Stacks.serve], hstuck _ _ hnone⟩
  | addBlockedUser screen otherUid =>
    cases ok with
    | false => cases hnone
    | true => exact ⟨screen, rfl, by simp [Stacks.serve], hstuck _ _ hnone⟩

/-- Some continuation that opens no profile and blocks nobody runs a handler without its
screen. -/
def GoneAhead (w : Network) : Prop :=
  ∃ w' i, Reaches step Calm w w' ∧ program.Traps w' (.handle i)

theorem traps_gone {r : Request} {screen i : Nat} (hcaptured : captured r = some screen)
    (hi : w.inflight[i]? = some ⟨r, some (.done true)⟩) (gone : ¬ w.client.Exists screen) :
    program.Traps w (.handle i) := by
  refine Program.traps_handle.mpr ⟨r, _, hi, ?_⟩
  have hstuck : ∀ o, unowned w.client screen o = none := fun o => if_neg gone
  cases r with
  | rooms r => cases hcaptured
  | getUserInfo screen' uid =>
    obtain rfl := Option.some.inj hcaptured
    exact hstuck _
  | addBlockUser screen' otherUid =>
    obtain rfl := Option.some.inj hcaptured
    exact hstuck _
  | addBlockedUser screen' otherUid =>
    obtain rfl := Option.some.inj hcaptured
    exact hstuck _

theorem gone_ahead (sound : Sound w.client) (issued : Issued w) {q : Call Request Answer}
    (hq : q ∈ w.inflight) (harmful : Harmful w.client q) : GoneAhead w := by
  obtain ⟨screen, hcaptured, hanswer, hlost⟩ := harmful
  obtain ⟨i, hi⟩ := List.mem_iff_getElem?.mp hq
  have hne : ∀ x ∈ w.client.navigation.screens.getLast?, x.id ≠ screen := by
    rintro x hx rfl
    rw [sound.root x hx] at hcaptured
    exact issued.noRoot q hq hcaptured
  obtain ⟨n, hgone⟩ := Stack.exists_pops_gone hne
  obtain ⟨w', hback, beside, hpops⟩ := reaches_back Calm (fun _ => trivial) sound n
  have hmissing : ¬ w'.client.Exists screen := by
    rintro (hmem | hkept)
    · exact hgone (hpops ▸ hmem)
    · exact hlost (kept_of_subset (beside.held ▸ List.Subset.refl _)
        (beside.taps ▸ List.Subset.refl _) hkept)
  have hi' : w'.inflight[i]? = some q := beside.inflight ▸ hi
  obtain ⟨r, answer⟩ := q
  cases answer with
  | none =>
    have hstep : step w' (.serve i true) = some (w'.served program i r true) :=
      Program.fires_step (.serve hi')
    have hserved : (w'.served program i r true).inflight[i]? = some ⟨r, some (.done true)⟩ := by
      have hlt : i < w'.inflight.length := (List.getElem?_eq_some_iff.mp hi').1
      rw [World.served_inflight, List.getElem?_set_self hlt]
      cases r with
      | rooms r => cases hcaptured
      | getUserInfo _ _ | addBlockUser _ _ | addBlockedUser _ _ => rfl
    exact ⟨_, i, hback.tail ⟨.serve i true, trivial, hstep⟩, traps_gone hcaptured hserved hmissing⟩
  | some a =>
    obtain ⟨s, ok, hserved⟩ := issued.answered _ hq a rfl
    obtain rfl : (Stacks.serve s r ok).2 = a := hserved
    have hok : (Stacks.serve s r ok).2 = .done true := by
      cases r with
      | rooms r => cases hcaptured
      | getUserInfo _ _ | addBlockUser _ _ | addBlockedUser _ _ =>
        cases ok with
        | true => rfl
        | false => exact absurd rfl hanswer
    rw [hok] at hi'
    exact ⟨w', i, hback, traps_gone hcaptured hi' hmissing⟩

end Gone

section Runs

variable {s : RoomStore} {kind : Kind} {es : List (Event Action Change)} {w : Network}

/-- The guard on the top does not keep a talk screen from being pushed twice: however a state
was reached, that is ahead, and without another touch of a talk button, as long as a screen is
on the stack whose talk button has been touched. -/
theorem pushed_twice_iff (root : kind.isRoot = true) (parses : ∀ r ∈ s.rooms, Parses r.2)
    (hr : run step (start s kind) es = some w) :
    PushedTwiceAhead w ↔ ∃ t ∈ w.client.taps, t.screen ∈ w.client.navigation.ids := by
  obtain ⟨sound, wired⟩ := sound_wired_run root hr
  have hparses : ∀ r ∈ w.server.rooms, Parses r.2 :=
    run_invariant (P := fun w : Network => ∀ r ∈ w.server.rooms, Parses r.2)
      (fun _ _ _ h hstep => parses_step h hstep) hr parses
  constructor
  · rintro ⟨w', j, hreach, _, htraps⟩
    by_contra hleft
    have hkept : Sound w'.client ∧ Left w'.client :=
      hreach.keeps (P := fun w => Sound w.client ∧ Left w.client)
        (fun _ _ _ h quiet hstep => ⟨sound_step h.1 hstep, left_step h.1 h.2 quiet hstep⟩)
        ⟨sound, fun t ht hmem => hleft ⟨t, ht, hmem⟩⟩
    obtain ⟨t, ht, hmem⟩ := origin_of_traps htraps
    exact hkept.2 t ht hmem
  · rintro ⟨t, ht, hscreen⟩
    exact pushed_twice_ahead sound wired hparses ht hscreen

end Runs

section Example

theorem pushed_twice_iff_talk : ∃ w, run step (start (.empty fun _ => 0) .home) talk = some w ∧
    PushedTwiceAhead w := by
  refine ⟨_, rfl, (@pushed_twice_iff (.empty fun _ => 0) .home talk _ rfl
    (fun r hr => nomatch hr) rfl).mpr ⟨⟨0, 1, 0, "a", "b"⟩, List.mem_cons_self, ?_⟩⟩
  exact List.mem_cons_of_mem _ List.mem_cons_self

/-- A talk button is touched, and then a profile is opened, whose user is asked for. -/
def visit : List (Event Action Change) :=
  [.act (.auth (some "a")), .act (.talkButton "b"), .act (.profileImageButton "c")]

end Example

end PlateChat.Screen.LateTraps
