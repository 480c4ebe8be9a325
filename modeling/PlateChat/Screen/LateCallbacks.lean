/- PlateChat/Screen/LateCallbacks
   digest: Talk screens that late callbacks open: over the screen touched, with the right room. -/

import PlateChat.Screen.Stacks

set_option autoImplicit false
set_option relaxedAutoImplicit false

/-!
The handler of a talk button keeps its talk screen and runs at every change of the room. Where
it opens the screen, and which room that shows, is settled by the tap all the same.
-/

namespace PlateChat.Screen.LateCallbacks

open PlateChat.Foundation.Dictionary PlateChat.Foundation.Run PlateChat.Foundation.EventLoop
open PlateChat.Foundation.Navigation
open PlateChat.Model.Members PlateChat.Model.Room
open PlateChat.ChatRoom.Service (CreateCall Listener Devices)
open PlateChat.ChatRoom PlateChat.Screen.Stacks

/-- The root is the bottom. A talk screen that a tap made lies over the screen that was tapped,
which is none itself. -/
structure Sound (p : Phone) : Prop where
  made : 0 < p.made
  ids : ∀ x ∈ p.navigation.screens, x.id < p.made
  root : ∀ x ∈ p.navigation.screens.getLast?, x.id = 0
  roots : ∀ x ∈ p.navigation.screens, x.id = 0 ↔ x.kind.isRoot = true
  taps : ∀ t ∈ p.taps, t.screen < t.talk ∧ t.talk < p.made ∧ t.call < p.devices.calls
  single : ∀ t ∈ p.taps, ∀ t' ∈ p.taps, t.call = t'.call ∨ t.talk = t'.talk → t = t'
  apart : ∀ t ∈ p.taps, ∀ t' ∈ p.taps, t.screen ≠ t'.talk
  origins : ∀ t ∈ p.taps, ∀ x ∈ p.navigation.screens, x.id = t.screen →
    x.kind.isChatMessage = false
  talks : ∀ t ∈ p.taps, ∀ x ∈ p.navigation.screens, x.id = t.talk → x.kind.isChatMessage = true
  lies : ∀ t ∈ p.taps, t.talk ∈ p.navigation.ids → p.navigation.Over t.talk t.screen

section Keeps

variable {p p' : Phone}

theorem id_lt (h : Sound p) {id : Nat} (hid : id ∈ p.navigation.ids) : id < p.made := by
  obtain ⟨x, hx, rfl⟩ := Stack.mem_ids.mp hid
  exact h.ids x hx

theorem Sound.same (h : Sound p) (same : Same p p') : Sound p' := by
  obtain ⟨navigation, taps, made, calls, _⟩ := same
  constructor
  case made =>
    have := h.made
    omega
  case ids =>
    intro x hx
    have := h.ids x (navigation ▸ hx)
    omega
  case taps =>
    intro t ht
    have := h.taps t (taps ▸ ht)
    omega
  case root => exact navigation ▸ h.root
  case roots => exact navigation ▸ h.roots
  case single => exact taps ▸ h.single
  case apart => exact taps ▸ h.apart
  case origins => exact navigation ▸ taps ▸ h.origins
  case talks => exact navigation ▸ taps ▸ h.talks
  case lies => exact navigation ▸ taps ▸ h.lies

theorem Sound.opened (h : Sound p) {kind : Kind} (noRoot : kind.isRoot = false)
    (hp : p.opened kind = some p') : Sound p' := by
  obtain ⟨q, hq, rfl⟩ := opened_spec hp
  obtain ⟨_, hscreens, hids, hpush, hq'⟩ := pushViewController_spec hq
  have htaps : q.taps = p.taps := by rw [hq']
  have hcalls : q.devices = p.devices := by rw [hq']
  constructor
  case made => exact Nat.succ_pos _
  case ids =>
    intro x hx
    rcases List.mem_cons.mp (hscreens ▸ hx) with rfl | hx
    · exact Nat.lt_succ_self _
    · exact Nat.lt_succ_of_lt (h.ids x hx)
  case root =>
    show ∀ x ∈ q.navigation.screens.getLast?, _
    rw [Stack.getLast_push hpush]
    exact h.root
  case roots =>
    intro x hx
    rcases List.mem_cons.mp (hscreens ▸ hx) with rfl | hx
    · have hmade := h.made
      simp only [noRoot, Bool.false_eq_true, iff_false]
      omega
    · exact h.roots x hx
  case taps =>
    intro t ht
    have := h.taps t (htaps ▸ ht)
    simp only [hcalls]
    omega
  case single => exact htaps ▸ h.single
  case apart => exact htaps ▸ h.apart
  case origins =>
    intro t ht x hx hid
    have hbound := h.taps t (htaps ▸ ht)
    rcases List.mem_cons.mp (hscreens ▸ hx) with rfl | hx
    · have : p.made = t.screen := hid
      omega
    · exact h.origins t (htaps ▸ ht) x hx hid
  case talks =>
    intro t ht x hx hid
    have hbound := h.taps t (htaps ▸ ht)
    rcases List.mem_cons.mp (hscreens ▸ hx) with rfl | hx
    · have : p.made = t.talk := hid
      omega
    · exact h.talks t (htaps ▸ ht) x hx hid
  case lies =>
    intro t ht htalk
    have hbound := h.taps t (htaps ▸ ht)
    rcases List.mem_cons.mp (hids ▸ htalk) with hid | htalk
    · omega
    · exact (h.lies t (htaps ▸ ht) htalk).push hpush

theorem Sound.pushed (h : Sound p) {t : Tap} {room : ChatRoom} (ht : t ∈ p.taps)
    (screen : t.screen ∈ p.navigation.ids)
    (hp : p.pushViewController t.talk (.chatMessage room t.otherUid) = some p') : Sound p' := by
  obtain ⟨_, hscreens, hids, hpush, hp'⟩ := pushViewController_spec hp
  have htaps : p'.taps = p.taps := by rw [hp']
  have hmade : p'.made = p.made := by rw [hp']
  have hcalls : p'.devices = p.devices := by rw [hp']
  have hbound := h.taps t ht
  constructor
  case made => exact hmade ▸ h.made
  case ids =>
    intro x hx
    rw [hmade]
    rcases List.mem_cons.mp (hscreens ▸ hx) with rfl | hx
    · exact hbound.2.1
    · exact h.ids x hx
  case root =>
    rw [Stack.getLast_push hpush]
    exact h.root
  case roots =>
    intro x hx
    rcases List.mem_cons.mp (hscreens ▸ hx) with rfl | hx
    · simp only [Kind.isRoot, Bool.false_eq_true, iff_false]
      omega
    · exact h.roots x hx
  case taps =>
    intro t' ht'
    have := h.taps t' (htaps ▸ ht')
    rw [hmade, hcalls]
    omega
  case single => exact htaps ▸ h.single
  case apart => exact htaps ▸ h.apart
  case origins =>
    intro t' ht' x hx hid
    rcases List.mem_cons.mp (hscreens ▸ hx) with rfl | hx
    · exact absurd hid.symm (h.apart t' (htaps ▸ ht') t ht)
    · exact h.origins t' (htaps ▸ ht') x hx hid
  case talks =>
    intro t' ht' x hx hid
    rcases List.mem_cons.mp (hscreens ▸ hx) with rfl | hx
    · rfl
    · exact h.talks t' (htaps ▸ ht') x hx hid
  case lies =>
    intro t' ht' htalk
    rcases List.mem_cons.mp (hids ▸ htalk) with hid | htalk
    · obtain rfl := h.single t' (htaps ▸ ht') t ht (.inr hid)
      exact Stack.over_pushed hpush screen
    · exact (h.lies t' (htaps ▸ ht') htalk).push hpush

theorem Sound.popped (h : Sound p) : Sound p.popViewController where
  made := h.made
  ids x hx := h.ids x (Stack.mem_of_mem_pop hx)
  root := by
    show ∀ x ∈ p.navigation.pop.screens.getLast?, _
    rw [Stack.getLast_pop]
    exact h.root
  roots x hx := h.roots x (Stack.mem_of_mem_pop hx)
  taps := h.taps
  single := h.single
  apart := h.apart
  origins t ht x hx := h.origins t ht x (Stack.mem_of_mem_pop hx)
  talks t ht x hx := h.talks t ht x (Stack.mem_of_mem_pop hx)
  lies t ht htalk := (h.lies t ht (Stack.ids_of_pop htalk)).pop htalk

theorem Sound.turns {handed : Nat → ChatRoom → Prop} (h : Sound p) (turns : Turns handed p p') :
    Sound p' := by
  cases turns with
  | same same => exact h.same same
  | opened kind noRoot hp => exact h.opened noRoot hp
  | pushed t room ht screen _ q hq same => exact (h.pushed ht screen hq).same same
  | popped same => exact h.popped.same same

theorem talkButton_cases (p : Phone) (otherUid : Uid) :
    Same p (talkButton p otherUid).client ∧ (talkButton p otherUid).listeners = [] ∨
      ∃ uid, ∃ distinct : uid ≠ otherUid,
        (talkButton p otherUid).client = { p with
          made := p.made + 1
          devices := { p.devices with calls := p.devices.calls + 1 }
          taps := ⟨p.navigation.top.id, p.made, p.devices.calls, uid, otherUid⟩ :: p.taps } ∧
        (talkButton p otherUid).listeners = [.create ⟨p.devices.calls, uid, otherUid, distinct⟩] := by
  unfold talkButton
  cases p.currentUser with
  | none => exact .inl ⟨⟨rfl, rfl, Nat.le_succ _, rfl, List.Subset.refl _⟩, rfl⟩
  | some uid =>
    by_cases h : uid = otherUid
    · refine .inl ⟨⟨rfl, ?_, Nat.le_succ _, ?_, List.Subset.refl _⟩, ?_⟩ <;>
        simp [Service.cerateChatRoom, h]
    · refine .inr ⟨uid, h, ?_, ?_⟩ <;> simp [Service.cerateChatRoom, h]

theorem Sound.tapped (h : Sound p) (otherUid : Uid)
    (offered : p.navigation.top.kind.offers (.talkButton otherUid) = true) :
    Sound (talkButton p otherUid).client := by
  rcases talkButton_cases p otherUid with ⟨same, _⟩ | ⟨uid, _, hclient, _⟩
  · exact h.same same
  rw [hclient]
  have htop := h.ids _ p.navigation.top_mem
  have hkind : p.navigation.top.kind.isChatMessage = false := by
    revert offered
    cases p.navigation.top.kind <;> simp [Kind.offers, Kind.isChatMessage]
  have hsame : ∀ x ∈ p.navigation.screens, x.id = p.navigation.top.id → x = p.navigation.top :=
    fun x hx hid => List.inj_on_of_nodup_map p.navigation.nodup hx p.navigation.top_mem hid
  constructor
  case made => exact Nat.succ_pos _
  case ids => exact fun x hx => Nat.lt_succ_of_lt (h.ids x hx)
  case root => exact h.root
  case roots => exact h.roots
  case taps =>
    intro t ht
    rcases List.mem_cons.mp ht with rfl | ht
    · exact ⟨htop, Nat.lt_succ_self _, Nat.lt_succ_self _⟩
    · have hbound := h.taps t ht
      exact ⟨hbound.1, Nat.lt_succ_of_lt hbound.2.1, Nat.lt_succ_of_lt hbound.2.2⟩
  case single =>
    intro t ht t' ht' heq
    rcases List.mem_cons.mp ht with rfl | ht <;> rcases List.mem_cons.mp ht' with rfl | ht'
    · rfl
    · have hbound := h.taps t' ht'
      simp only at heq
      omega
    · have hbound := h.taps t ht
      simp only at heq
      omega
    · exact h.single t ht t' ht' heq
  case apart =>
    intro t ht t' ht' heq
    rcases List.mem_cons.mp ht with rfl | ht <;> rcases List.mem_cons.mp ht' with rfl | ht'
    · simp only at heq
      omega
    · have htalk := h.talks t' ht' _ p.navigation.top_mem heq
      rw [hkind] at htalk
      cases htalk
    · have hbound := h.taps t ht
      simp only at heq
      omega
    · exact h.apart t ht t' ht' heq
  case origins =>
    intro t ht x hx hid
    rcases List.mem_cons.mp ht with rfl | ht
    · rw [hsame x hx hid]
      exact hkind
    · exact h.origins t ht x hx hid
  case talks =>
    intro t ht x hx hid
    rcases List.mem_cons.mp ht with rfl | ht
    · have hbound := h.ids x hx
      simp only at hid
      omega
    · exact h.talks t ht x hx hid
  case lies =>
    intro t ht htalk
    rcases List.mem_cons.mp ht with rfl | ht
    · have hlt : p.made < p.made := id_lt h htalk
      omega
    · exact h.lies t ht htalk

end Keeps

/-- What a tap has registered. -/
def Tap.listener (t : Tap) (distinct : t.uid ≠ t.otherUid) : Listener :=
  .create ⟨t.call, t.uid, t.otherUid, distinct⟩

/-- A talk screen that a tap made shows a room of the two users. -/
def Shown (s : RoomStore) (t : Tap) (kind : Kind) : Prop :=
  ∃ room, kind = .chatMessage room t.otherUid ∧
    room.members.lookup t.uid = some true ∧ room.members.lookup t.otherUid = some true ∧
    ∃ d, (room.key, d) ∈ s.rooms ∧ d.members = some room.members

def listening (w : Network) : List Listener := w.watches.map Watch.listener

/-- Every tap has its listener, every listener its tap, and all rooms can be read. -/
structure Wired (w : Network) : Prop where
  listens : ∀ t ∈ w.client.taps, ∃ distinct, Tap.listener t distinct ∈ listening w
  tapped : ∀ l ∈ listening w, ∃ t ∈ w.client.taps, ∃ distinct, l = Tap.listener t distinct
  shown : ∀ t ∈ w.client.taps, ∀ x ∈ w.client.navigation.screens, x.id = t.talk →
    Shown w.server t x.kind

theorem parses_apply {d : ChatRoomDoc} (h : Parses d) (p : Patch) (t : Nat) :
    Parses (p.apply t d) := by
  cases p with
  | status value => exact ⟨h.1, h.2.1, rfl⟩
  | lastChatTime text => exact h
  | unreadCounts counts => exact h

theorem parses_patch {s : RoomStore} (h : ∀ r ∈ s.rooms, Parses r.2) (key : Nat) (p : Patch) :
    ∀ r ∈ (s.patch key p).rooms, Parses r.2 := by
  intro r hr
  rcases RoomStore.mem_patch.mp hr with ⟨hr, _⟩ | ⟨d, hd, rfl⟩
  · exact h r hr
  · exact parses_apply (h _ hd) p _

theorem parses_add {s : RoomStore} (h : ∀ r ∈ s.rooms, Parses r.2) (uid otherUid : Uid) :
    ∀ r ∈ (s.add (newRoom uid otherUid s.clock)).rooms, Parses r.2 := by
  intro r hr
  rcases RoomStore.mem_add.mp hr with rfl | hr
  · exact ⟨rfl, rfl, rfl⟩
  · exact h r hr

theorem Shown.patch {s : RoomStore} {t : Tap} {kind : Kind} (h : Shown s t kind) (key : Nat)
    (p : Patch) : Shown (s.patch key p) t kind := by
  obtain ⟨room, hkind, huid, hother, d, hd, hmembers⟩ := h
  refine ⟨room, hkind, huid, hother, ?_⟩
  by_cases hkey : room.key = key
  · refine ⟨p.apply s.clock d, RoomStore.mem_patch.mpr (.inr ⟨d, hkey ▸ hd, by rw [hkey]⟩), ?_⟩
    rw [members_apply, hmembers]
  · exact ⟨d, RoomStore.mem_patch.mpr (.inl ⟨hd, hkey⟩), hmembers⟩

theorem Shown.add {s : RoomStore} {t : Tap} {kind : Kind} (h : Shown s t kind)
    (d : ChatRoomDoc) : Shown (s.add d) t kind := by
  obtain ⟨room, hkind, huid, hother, d', hd, hmembers⟩ := h
  exact ⟨room, hkind, huid, hother, d', RoomStore.mem_add.mpr (.inr hd), hmembers⟩

/-- A server that reads as before, and keeps the members of its rooms. -/
structure Continues (s s' : RoomStore) : Prop where
  parses : (∀ r ∈ s.rooms, Parses r.2) → ∀ r ∈ s'.rooms, Parses r.2
  shown : ∀ {t kind}, Shown s t kind → Shown s' t kind

theorem continues_env (s : RoomStore) (h : Change) : Continues s (env s h) := by
  cases h with
  | patch key p => exact ⟨fun h => parses_patch h key p, fun h => h.patch key p⟩
  | cerateChatRoom uid otherUid => exact ⟨fun h => parses_add h uid otherUid, fun h => h.add _⟩

theorem continues_serve (s : RoomStore) (r : Request) (ok : Bool) :
    Continues s (serve s r ok).1 := by
  have hsame : Continues s s := ⟨id, id⟩
  cases r with
  | rooms r =>
    cases r with
    | addDocument call =>
      cases ok with
      | true => exact ⟨fun h => parses_add h call.uid call.otherUid, fun h => h.add _⟩
      | false => exact hsame
    | getDocuments call => cases ok <;> exact hsame
    | endRoom key =>
      cases ok with
      | true => exact ⟨fun h => parses_patch h key _, fun h => h.patch key _⟩
      | false => exact hsame
  | getUserInfo screen uid => exact hsame
  | addBlockUser screen otherUid => exact hsame
  | addBlockedUser screen otherUid => exact hsame

/-- All that a step does but for a tap that is offered. -/
structure Turned (w w' : Network) (handed : Nat → ChatRoom → Prop) : Prop where
  turns : Turns handed w.client w'.client
  listening : listening w' = listening w
  handed : ∀ id room, handed id room → ∃ l ∈ LateCallbacks.listening w,
    Handed w.server l (some (Service.snapshot w.server l)) id room

/-- A tap that is offered. -/
structure Tapped (w : Network) (otherUid : Uid) (w' : Network) : Prop where
  offered : w.client.navigation.top.kind.offers (.talkButton otherUid) = true
  client : w'.client = (talkButton w.client otherUid).client
  listening : listening w' = listening w ++ (talkButton w.client otherUid).listeners
  server : w'.server = w.server

theorem step_spec {w w' : Network} {e : Event Action Change} (h : step w e = some w') :
    Continues w.server w'.server ∧ ((∃ handed, Turned w w' handed) ∨
      ∃ otherUid, e = .act (.talkButton otherUid) ∧ Tapped w otherUid w') := by
  have hnone : ∀ id room, False → ∃ l ∈ listening w,
      Handed w.server l (some (Service.snapshot w.server l)) id room :=
    fun _ _ h => h.elim
  cases Program.step_fires h with
  | @act v o ho =>
    refine ⟨⟨id, id⟩, ?_⟩
    by_cases htap : ∃ otherUid, v = .talkButton otherUid ∧
        w.client.navigation.top.kind.offers v = true
    · obtain ⟨otherUid, rfl, hoffers⟩ := htap
      have htouched : act w.client (.talkButton otherUid) = some o := ho
      rw [act, if_pos hoffers] at htouched
      obtain rfl := Option.some.inj htouched
      have hremoved : (talkButton w.client otherUid).removed = [] := by
        unfold talkButton
        cases w.client.currentUser <;> rfl
      exact .inr ⟨otherUid, rfl, hoffers, rfl, World.listeners_perform hremoved, rfl⟩
    · have hturns : Turns (fun _ _ => False) w.client o.client ∧ o.listeners = [] ∧
          o.removed = [] := by
        by_cases hoffers : w.client.navigation.top.kind.offers v = true
        · obtain ⟨hturns, hlisteners, hremoved, _⟩ :=
            act_turns ho fun otherUid hv => htap ⟨otherUid, hv, hoffers⟩
          exact ⟨hturns, hlisteners, hremoved⟩
        · have hidle : act w.client v = some o := ho
          rw [act, if_neg hoffers] at hidle
          obtain rfl := Option.some.inj hidle
          exact ⟨.same (Same.refl _), rfl, rfl⟩
      refine .inl ⟨_, hturns.1, ?_, hnone⟩
      rw [listening, World.listeners_perform hturns.2.2, hturns.2.1, List.append_nil]
      rfl
  | @serve i ok r hi =>
    exact ⟨continues_serve w.server r ok,
      .inl ⟨_, .same (Same.refl _), World.listeners_install program w _, hnone⟩⟩
  | @handle i r a o hi ho =>
    obtain ⟨hturns, hlisteners, hremoved, _⟩ := handle_turns ho
    refine ⟨⟨id, id⟩, .inl ⟨_, hturns, ?_, hnone⟩⟩
    rw [listening, World.listeners_perform hremoved, hlisteners, List.append_nil]
    rfl
  | @deliver j ok x o hj ho =>
    obtain ⟨hturns, hlisteners, hremoved, _⟩ := notify_turns ho
    refine ⟨⟨id, id⟩, .inl ⟨_, hturns, ?_, fun key room hhanded => ⟨x.listener, ?_, ?_⟩⟩⟩
    · rw [listening, World.listeners_perform hremoved, hlisteners, List.append_nil]
      exact World.listeners_delivered hj
    · exact List.mem_map_of_mem (List.mem_of_getElem? hj)
    · cases ok with
      | true => exact hhanded
      | false =>
        obtain ⟨_, _, _, _, _, hdocuments, _⟩ := hhanded
        cases hdocuments
  | @env change =>
    exact ⟨continues_env w.server change,
      .inl ⟨_, .same (Same.refl _), World.listeners_install program w _, hnone⟩⟩

theorem sound_step {w w' : Network} {e : Event Action Change} (h : Sound w.client)
    (hstep : step w e = some w') : Sound w'.client := by
  rcases (step_spec hstep).2 with ⟨_, turned⟩ | ⟨otherUid, _, tapped⟩
  · exact h.turns turned.turns
  · rw [tapped.client]
    exact h.tapped otherUid tapped.offered

theorem shown_of_handed {s : RoomStore} {t : Tap} (distinct : t.uid ≠ t.otherUid)
    {room : ChatRoom}
    (h : Handed s (Tap.listener t distinct)
      (some (Service.snapshot s (Tap.listener t distinct))) t.call room) :
    Shown s t (.chatMessage room t.otherUid) := by
  obtain ⟨call, ds, rest, hlistener, _, hdocuments, hrooms⟩ := h
  obtain rfl := Option.some.inj hdocuments
  obtain ⟨⟨key, d⟩, hd, hparse⟩ := mem_parseAll hrooms List.mem_cons_self
  obtain ⟨hmem, _, hmembers⟩ := RoomStore.mem_query.mp hd
  have hread := members_of_parsed hparse
  have hkey : room.key = key := (parses_of_ofDocument hparse).2
  have hlookup : ∀ u ∈ [t.uid, t.otherUid], room.members.lookup u = some true := by
    intro u hu
    have hmember := hmembers u hu
    simp only at hread
    rw [memberOf, Option.bind_some, hread] at hmember
    exact hmember
  exact ⟨room, rfl, hlookup _ (by simp), hlookup _ (by simp), d, hkey ▸ hmem, hread⟩

theorem wired_step {w w' : Network} {e : Event Action Change} (sound : Sound w.client)
    (h : Wired w) (hstep : step w e = some w') : Wired w' := by
  obtain ⟨hserver, hclient⟩ := step_spec hstep
  rcases hclient with ⟨handed, turned⟩ | ⟨otherUid, _, tapped⟩
  · have htaps := turned.turns.taps
    have hold : ∀ t ∈ w'.client.taps, ∀ x ∈ w.client.navigation.screens, x.id = t.talk →
        Shown w'.server t x.kind :=
      fun t ht x hx hid => hserver.shown (h.shown t (htaps ▸ ht) x hx hid)
    constructor
    case listens => exact htaps ▸ turned.listening ▸ h.listens
    case tapped => exact htaps ▸ turned.listening ▸ h.tapped
    case shown =>
      intro t ht x hx hid
      cases turned.turns with
      | same same => exact hold t ht x (same.navigation ▸ hx) hid
      | opened kind _ hp =>
        obtain ⟨q, hq, hclient⟩ := opened_spec hp
        rw [hclient] at hx
        have hbound := sound.taps t (htaps ▸ ht)
        rcases List.mem_cons.mp ((pushViewController_spec hq).2.1 ▸ hx) with rfl | hx
        · have : w.client.made = t.talk := hid
          omega
        · exact hold t ht x hx hid
      | popped same =>
        rw [same.navigation] at hx
        exact hold t ht x (Stack.mem_of_mem_pop hx) hid
      | pushed t' room ht' _ hhanded q hq same =>
        rw [same.navigation, (pushViewController_spec hq).2.1] at hx
        rcases List.mem_cons.mp hx with rfl | hx
        · obtain rfl := sound.single t (htaps ▸ ht) t' ht' (.inr hid.symm)
          obtain ⟨l, hl, hroom⟩ := turned.handed _ _ hhanded
          obtain ⟨t₁, ht₁, distinct, rfl⟩ := h.tapped l hl
          have hcall : t₁.call = t.call := by
            obtain ⟨call, _, _, hlistener, hid, _⟩ := hroom
            obtain rfl := Listener.create.inj hlistener
            exact hid
          obtain rfl := sound.single t₁ ht₁ t ht' (.inl hcall)
          exact hserver.shown (shown_of_handed distinct hroom)
        · exact hold t ht x hx hid
  · obtain ⟨offered, hclient, hlistening, hsame⟩ := tapped
    rcases talkButton_cases w.client otherUid with ⟨same, hnone⟩ | ⟨uid, distinct, hnew, hone⟩
    · rw [hnone, List.append_nil] at hlistening
      rw [← hclient] at same
      constructor
      case listens => exact same.taps ▸ hlistening ▸ h.listens
      case tapped => exact same.taps ▸ hlistening ▸ h.tapped
      case shown => exact same.taps ▸ same.navigation ▸ hsame ▸ h.shown
    · rw [hone] at hlistening
      rw [hnew] at hclient
      constructor
      case listens =>
        rw [hclient, hlistening]
        intro t ht
        rcases List.mem_cons.mp ht with rfl | ht
        · exact ⟨distinct, List.mem_append_right _ (List.mem_singleton.mpr rfl)⟩
        · obtain ⟨distinct', hmem⟩ := h.listens t ht
          exact ⟨distinct', List.mem_append_left _ hmem⟩
      case tapped =>
        rw [hclient, hlistening]
        intro l hl
        rcases List.mem_append.mp hl with hl | hl
        · obtain ⟨t, ht, distinct', rfl⟩ := h.tapped l hl
          exact ⟨t, List.mem_cons_of_mem _ ht, distinct', rfl⟩
        · exact ⟨_, List.mem_cons_self, distinct, List.mem_singleton.mp hl⟩
      case shown =>
        rw [hclient, hsame]
        intro t ht x hx hid
        rcases List.mem_cons.mp ht with rfl | ht
        · have hbound := sound.ids x hx
          simp only at hid
          omega
        · exact h.shown t ht x hx hid

section Runs

variable {s : RoomStore} {kind : Kind} {es : List (Event Action Change)} {w : Network}

theorem sound_start (s : RoomStore) (root : kind.isRoot = true) : Sound (start s kind).client := by
  constructor
  case made => exact Nat.one_pos
  case ids =>
    intro x hx
    obtain rfl := List.mem_singleton.mp hx
    exact Nat.one_pos
  case root =>
    intro x hx
    obtain rfl := Option.some.inj hx
    rfl
  case roots =>
    intro x hx
    obtain rfl := List.mem_singleton.mp hx
    exact ⟨fun _ => root, fun _ => rfl⟩
  case taps | single | apart | origins | talks | lies => exact fun t ht => nomatch ht

theorem wired_start : Wired (start s kind) where
  listens _ ht := nomatch ht
  tapped _ hl := nomatch hl
  shown _ ht := nomatch ht

theorem sound_wired_run (root : kind.isRoot = true)
    (hr : run step (start s kind) es = some w) : Sound w.client ∧ Wired w :=
  run_invariant (P := fun w => Sound w.client ∧ Wired w)
    (fun _ _ _ h hstep => ⟨sound_step h.1 hstep, wired_step h.1 h.2 hstep⟩) hr
    ⟨sound_start s root, wired_start⟩

/-- Whatever is touched and delivered, a talk screen that a tap has opened is there once, over
the screen that was tapped, and shows a room that the two users are members of. -/
theorem talk_screens_right (root : kind.isRoot = true)
    (hr : run step (start s kind) es = some w) {t : Tap} (ht : t ∈ w.client.taps)
    {x : Screen Kind} (hx : x ∈ w.client.navigation.screens) (hid : x.id = t.talk) :
    w.client.navigation.ids.count t.talk = 1 ∧ w.client.navigation.Over t.talk t.screen ∧
      Shown w.server t x.kind := by
  obtain ⟨hsound, hwired⟩ := sound_wired_run root hr
  have hmem : t.talk ∈ w.client.navigation.ids := Stack.mem_ids.mpr ⟨x, hx, hid⟩
  exact ⟨List.count_eq_one_of_mem w.client.navigation.nodup_ids hmem, hsound.lies t ht hmem,
    hwired.shown t ht x hx hid⟩

end Runs

section Example

/-- A talk button is touched on the home screen, and the room is made and handed over. -/
def talk : List (Event Action Change) :=
  [.act (.auth (some "a")), .act (.talkButton "b"), .deliver 0 true, .serve 0 true, .handle 0,
    .deliver 0 true]

theorem talk_screens_right_talk : ∃ w, run step (start (.empty fun _ => 0) .home) talk = some w ∧
    w.client.navigation.ids.count 1 = 1 ∧ w.client.navigation.Over 1 0 ∧
      Shown w.server ⟨0, 1, 0, "a", "b"⟩ w.client.navigation.top.kind := by
  refine ⟨_, rfl, ?_⟩
  exact @talk_screens_right (.empty fun _ => 0) .home talk _ rfl rfl
    ⟨0, 1, 0, "a", "b"⟩ List.mem_cons_self _ List.mem_cons_self rfl

end Example

end PlateChat.Screen.LateCallbacks
