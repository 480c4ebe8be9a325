/- PlateChat/Screen/Stacks
   digest: One tab's navigation stack: what touches open, what late callbacks open and close. -/

import PlateChat.Foundation.Navigation
import PlateChat.ChatRoom.Service

set_option autoImplicit false
set_option relaxedAutoImplicit false

/-!
A touch of a talk button makes a talk screen and hands it to a listener on the room, which
calls back whenever the room changes. The profile screen asks for its user, and a block ends
with going back. Touches, answers and deliveries come in any order; what the lists of the
screens load, and the indicator over them, are left out.
-/

namespace PlateChat.Screen.Stacks

open PlateChat.Foundation.Run PlateChat.Foundation.EventLoop PlateChat.Foundation.Navigation
open PlateChat.Model.Members PlateChat.Model.Room
open PlateChat.ChatRoom.Service (CreateCall Listener Devices)
open PlateChat.ChatRoom

/-- The controllers of the tabs: the first five are their roots. -/
inductive Kind
  | home
  | search
  | chatRoomList
  | notice
  | myProfile
  | articleList
  | userDetail (uid : Uid)
  | chatMessage (chatRoom : ChatRoom) (otherUid : Uid)
  deriving DecidableEq

def Kind.isRoot : Kind → Bool
  | .home | .search | .chatRoomList | .notice | .myProfile => true
  | .articleList | .userDetail _ | .chatMessage _ _ => false

/-- `is ChatMessageViewController`. -/
def Kind.isChatMessage : Kind → Bool
  | .chatMessage _ _ => true
  | _ => false

/-- A touch of a talk button: the screen it was on, the `ChatMessageViewController` that it
made, and the call of `cerateChatRoom` whose handler has both. -/
structure Tap where
  screen : Nat
  talk : Nat
  call : Nat
  uid : Uid
  otherUid : Uid
  deriving DecidableEq

/-- `made` instances have been made; `held` are kept after they were popped, a profile screen by
its own write view and a talk screen by a listener that a pull left behind. -/
structure Phone where
  navigation : Stack Kind
  currentUser : Option Uid := none
  made : Nat
  held : List Nat := []
  devices : Devices := {}
  taps : List Tap := []

/-- `getUserInfo` and the two writes of a block, with the screen that their handlers are
closures of. -/
inductive Request
  | rooms (r : Service.Request)
  | getUserInfo (screen : Nat) (uid : Uid)
  | addBlockUser (screen : Nat) (otherUid : Uid)
  | addBlockedUser (screen : Nat) (otherUid : Uid)
  deriving DecidableEq

/-- `done` tells whether a user was found, or a block was written. -/
inductive Answer
  | rooms (a : Service.Answer)
  | done (ok : Bool)
  deriving DecidableEq

abbrev Outcome := Effect Phone Request Listener

/-- Touches of the screen on top; `auth` comes from elsewhere. -/
inductive Action
  | auth (user : Option Uid)
  | profileImageButton (uid : Uid)
  | didSelectRow
  | didSelectRoom (chatRoom : ChatRoom) (otherUid : Uid)
  | talkButton (otherUid : Uid)
  | replyButton
  | refresh
  | back
  | blockUser (otherUid : Uid)

/-- What a screen has a control for. -/
def Kind.offers : Kind → Action → Bool
  | _, .auth _ => true
  | .home, .profileImageButton _ | .search, .profileImageButton _ | .notice, .profileImageButton _
  | .articleList, .profileImageButton _ => true
  | .home, .didSelectRow | .myProfile, .didSelectRow | .userDetail _, .didSelectRow => true
  | .chatRoomList, .didSelectRoom _ _ => true
  | .home, .talkButton _ | .myProfile, .talkButton _ | .articleList, .talkButton _
  | .userDetail _, .talkButton _ => true
  | .userDetail _, .replyButton => true
  | .chatMessage _ _, .refresh => true
  | .articleList, .back | .userDetail _, .back | .chatMessage _ _, .back => true
  | .chatMessage _ otherUid, .profileImageButton uid => uid = otherUid
  | .userDetail uid, .blockUser otherUid | .chatMessage _ uid, .blockUser otherUid => uid = otherUid
  | _, _ => false

namespace Phone

/-- A screen that outlives the stack: the handler of a talk button has its talk screen, and the
listener that has the handler is never removed. -/
def Kept (p : Phone) (screen : Nat) : Prop :=
  screen ∈ p.held ∨ ∃ tap ∈ p.taps, tap.talk = screen

instance (p : Phone) (screen : Nat) : Decidable (p.Kept screen) :=
  inferInstanceAs (Decidable (_ ∨ _))

def Exists (p : Phone) (screen : Nat) : Prop := screen ∈ p.navigation.ids ∨ p.Kept screen

instance (p : Phone) (screen : Nat) : Decidable (p.Exists screen) :=
  inferInstanceAs (Decidable (_ ∨ _))

/-- `pushViewController`, which raises an exception on an instance that is on the stack. -/
def pushViewController (p : Phone) (id : Nat) (kind : Kind) : Option Phone :=
  (p.navigation.push ⟨id, kind⟩).map fun navigation => { p with navigation := navigation }

/-- A new instance is pushed. -/
def opened (p : Phone) (kind : Kind) : Option Phone :=
  (p.pushViewController p.made kind).map fun p' => { p' with made := p.made + 1 }

def popViewController (p : Phone) : Phone := { p with navigation := p.navigation.pop }

def hold (p : Phone) : Phone := { p with held := p.navigation.top.id :: p.held }

end Phone

/-- A call that comes past the guards of `cerateChatRoom` has registered its listener. -/
def talkButton (p : Phone) (otherUid : Uid) : Outcome :=
  match p.currentUser with
  | some uid =>
    let o := Service.cerateChatRoom p.devices uid otherUid
    { client := { p with
        made := p.made + 1
        devices := o.client
        taps := (o.listeners.map fun _ =>
          ⟨p.navigation.top.id, p.made, p.devices.calls, uid, otherUid⟩) ++ p.taps }
      listeners := o.listeners }
  | none => { client := { p with made := p.made + 1 } }

def touched (p : Phone) : Action → Option Outcome
  | .auth user => some { client := { p with currentUser := user } }
  | .profileImageButton uid => (p.opened (.userDetail uid)).map fun p' =>
    { client := p', requests := (p.currentUser.map fun _ => .getUserInfo p.made uid).toList }
  | .didSelectRow => (p.opened .articleList).map fun p' => { client := p' }
  | .didSelectRoom chatRoom otherUid => (p.opened (.chatMessage chatRoom otherUid)).map fun p' =>
    { client := p' }
  | .talkButton otherUid => some (talkButton p otherUid)
  | .replyButton | .refresh => some { client := p.hold }
  | .back => some { client := p.popViewController }
  | .blockUser otherUid => some {
      client := p
      requests := (p.currentUser.map fun _ =>
        .addBlockUser p.navigation.top.id otherUid).toList }

def act (p : Phone) (v : Action) : Option Outcome :=
  if p.navigation.top.kind.offers v then touched p v else some { client := p }

/-- The handler of a talk button. A screen that was popped has no navigation controller, and
an error is shown in an alert. -/
def completionHandler (p : Phone) (tap : Tap) : Except ServiceError ChatRoom → Option Phone
  | .ok chatRoom =>
    if tap.screen ∉ p.navigation.ids then some p
    else if p.navigation.top.kind.isChatMessage then some p
    else p.pushViewController tap.talk (.chatMessage chatRoom tap.otherUid)
  | .error _ => some p

/-- What has been handed to handlers since. -/
def completedSince (c c' : Devices) : List (Nat × Except ServiceError ChatRoom) :=
  c'.completed.take (c'.completed.length - c.completed.length)

def complete (p : Phone) (result : Nat × Except ServiceError ChatRoom) : Option Phone :=
  match p.taps.find? fun tap => tap.call = result.1 with
  | some tap => completionHandler p tap result.2
  | none => some p

/-- A step of the service, with the handlers that it calls. -/
def performed (p : Phone) (o : Service.Outcome) : Option Outcome :=
  ((completedSince p.devices o.client).foldlM complete p).map fun p' =>
    { client := { p' with devices := o.client }
      requests := o.requests.map .rooms
      listeners := o.listeners
      removed := o.removed }

/-- What follows in a handler with `[unowned self]` traps if the screen is gone. -/
def unowned (p : Phone) (screen : Nat) (o : Outcome) : Option Outcome :=
  if p.Exists screen then some o else none

/-- `self.navigationController?.popViewController`: it is the screen on top that goes. -/
def popAfterBlock (p : Phone) (screen : Nat) : Phone :=
  if screen ∈ p.navigation.ids then p.popViewController else p

/-- Without a user, or with an error, the handlers do not touch their screen. -/
def handle (p : Phone) : Request → Answer → Option Outcome
  | .rooms r, .rooms a => (Service.handle p.devices r a).bind (performed p)
  | .getUserInfo screen _, .done true => unowned p screen { client := p }
  | .addBlockUser screen otherUid, .done true =>
    unowned p screen { client := p, requests := [.addBlockedUser screen otherUid] }
  | .addBlockedUser screen _, .done true => unowned p screen { client := popAfterBlock p screen }
  | .getUserInfo _ _, .done false | .addBlockUser _ _, .done false
  | .addBlockedUser _ _, .done false => some { client := p }
  | _, _ => none

def notify (s : RoomStore) (p : Phone) (l : Listener) (documents : Option (List Document)) :
    Option Outcome :=
  performed p (Service.notify s p.devices l documents)

def serve (s : RoomStore) : Request → Bool → RoomStore × Answer
  | .rooms r, ok => ((Service.serve s r ok).1, .rooms (Service.serve s r ok).2)
  | .getUserInfo _ _, ok | .addBlockUser _ _, ok | .addBlockedUser _ _, ok => (s, .done ok)

/-- What other devices write into the rooms. -/
inductive Change
  | patch (key : Nat) (p : Patch)
  | cerateChatRoom (uid otherUid : Uid)

def env (s : RoomStore) : Change → RoomStore
  | .patch key p => s.patch key p
  | .cerateChatRoom uid otherUid => s.add (newRoom uid otherUid s.clock)

def program : Program RoomStore Phone Action Change Request Answer Listener (List Document) where
  act _ p v := Stacks.act p v
  serve := Stacks.serve
  handle _ p r a := Stacks.handle p r a
  snapshot := Service.snapshot
  notify := Stacks.notify
  env := Stacks.env

abbrev Network := World RoomStore Phone Request Answer Listener

abbrev step : Network → Event Action Change → Option Network := program.step

/-- A tab with its root. -/
def start (s : RoomStore) (kind : Kind) : Network where
  server := s
  client := { navigation := .root 0 kind, made := 1 }

/-- Nothing that the stack or the taps depend on. -/
structure Same (p p' : Phone) : Prop where
  navigation : p'.navigation = p.navigation
  taps : p'.taps = p.taps
  made : p.made ≤ p'.made
  calls : p'.devices.calls = p.devices.calls
  held : p.held ⊆ p'.held

theorem Same.refl (p : Phone) : Same p p :=
  ⟨rfl, rfl, Nat.le_refl _, rfl, List.Subset.refl _⟩

/-- All but a new tap; `handed` are the rooms that are handed to calls. -/
inductive Turns (handed : Nat → ChatRoom → Prop) (p p' : Phone) : Prop
  | same (h : Same p p')
  | opened (kind : Kind) (noRoot : kind.isRoot = false) (h : p.opened kind = some p')
  | pushed (t : Tap) (room : ChatRoom) (tap : t ∈ p.taps) (screen : t.screen ∈ p.navigation.ids)
    (room_handed : handed t.call room) (q : Phone)
    (hq : p.pushViewController t.talk (.chatMessage room t.otherUid) = some q) (h : Same q p')
  | popped (h : Same p.popViewController p')

theorem pushViewController_spec {p p' : Phone} {id : Nat} {kind : Kind}
    (h : p.pushViewController id kind = some p') :
    id ∉ p.navigation.ids ∧ p'.navigation.screens = ⟨id, kind⟩ :: p.navigation.screens ∧
      p'.navigation.ids = id :: p.navigation.ids ∧
      p.navigation.push ⟨id, kind⟩ = some p'.navigation ∧
      p' = { p with navigation := p'.navigation } := by
  obtain ⟨navigation, hpush, rfl⟩ := Option.map_eq_some_iff.mp h
  have hspec := Stack.push_spec hpush
  exact ⟨hspec.1, hspec.2.2, Stack.ids_push hpush, hpush, rfl⟩

theorem opened_spec {p p' : Phone} {kind : Kind} (h : p.opened kind = some p') :
    ∃ q, p.pushViewController p.made kind = some q ∧ p' = { q with made := p.made + 1 } := by
  obtain ⟨q, hq, rfl⟩ := Option.map_eq_some_iff.mp h
  exact ⟨q, hq, rfl⟩

theorem Turns.taps {handed : Nat → ChatRoom → Prop} {p p' : Phone} (h : Turns handed p p') :
    p'.taps = p.taps := by
  cases h with
  | same same => exact same.taps
  | opened kind _ hp =>
    obtain ⟨q, hq, rfl⟩ := opened_spec hp
    rw [(pushViewController_spec hq).2.2.2.2]
  | pushed t room _ _ _ q hq same => rw [same.taps, (pushViewController_spec hq).2.2.2.2]
  | popped same => exact same.taps

theorem completionHandler_turns {handed : Nat → ChatRoom → Prop} {p p' : Phone} {t : Tap}
    (ht : t ∈ p.taps) {result : Except ServiceError ChatRoom}
    (hresult : ∀ room, result = .ok room → handed t.call room)
    (h : completionHandler p t result = some p') {q : Phone} (hq : Same p' q) :
    Turns handed p q := by
  cases result with
  | error e =>
    obtain rfl := Option.some.inj h
    exact .same hq
  | ok room =>
    simp only [completionHandler] at h
    split at h
    · obtain rfl := Option.some.inj h
      exact .same hq
    · rename_i hscreen
      split at h
      · obtain rfl := Option.some.inj h
        exact .same hq
      · exact .pushed t room ht (not_not.mp hscreen) (hresult room rfl) p' h hq

theorem complete_turns {handed : Nat → ChatRoom → Prop} {p p' : Phone}
    {result : Nat × Except ServiceError ChatRoom}
    (hresult : ∀ room, result.2 = .ok room → handed result.1 room)
    (h : complete p result = some p') {q : Phone} (hq : Same p' q) : Turns handed p q := by
  simp only [complete] at h
  split at h
  · rename_i t hfind
    have hcall : t.call = result.1 := by simpa using List.find?_some hfind
    exact completionHandler_turns (List.mem_of_find?_eq_some hfind)
      (fun room hroom => hcall ▸ hresult room hroom) h hq
  · obtain rfl := Option.some.inj h
    exact .same hq

/-- A step of the service completes at most once. -/
def CompletesOnce (handed : Nat → ChatRoom → Prop) (c c' : Devices) : Prop :=
  c' = c ∨ ∃ result, (∀ room, result.2 = .ok room → handed result.1 room) ∧
    c' = { c with completed := result :: c.completed }

theorem completedSince_self (c : Devices) : completedSince c c = [] := by
  simp [completedSince]

theorem completedSince_cons (c : Devices) (result : Nat × Except ServiceError ChatRoom) :
    completedSince c { c with completed := result :: c.completed } = [result] := by
  simp [completedSince]

theorem performed_same {p : Phone} {o : Service.Outcome} (h : o.client = p.devices) :
    performed p o = some {
      client := p
      requests := o.requests.map .rooms
      listeners := o.listeners
      removed := o.removed } := by
  unfold performed
  rw [h, completedSince_self]
  rfl

theorem performed_completed {p : Phone} {o : Service.Outcome}
    {result : Nat × Except ServiceError ChatRoom}
    (h : o.client = { p.devices with completed := result :: p.devices.completed }) :
    performed p o = (complete p result).map fun p' => {
      client := { p' with devices := o.client }
      requests := o.requests.map .rooms
      listeners := o.listeners
      removed := o.removed } := by
  unfold performed
  rw [h, completedSince_cons]
  simp

theorem devices_complete {p p' : Phone} {result : Nat × Except ServiceError ChatRoom}
    (h : complete p result = some p') : p'.devices = p.devices := by
  simp only [complete] at h
  split at h
  · rename_i t _
    cases hresult : result.2 with
    | error e =>
      rw [hresult] at h
      obtain rfl := Option.some.inj h
      rfl
    | ok room =>
      rw [hresult] at h
      simp only [completionHandler] at h
      split at h
      · obtain rfl := Option.some.inj h
        rfl
      · split at h
        · obtain rfl := Option.some.inj h
          rfl
        · rw [(pushViewController_spec h).2.2.2.2]
  · obtain rfl := Option.some.inj h
    rfl

theorem performed_turns {handed : Nat → ChatRoom → Prop} {p : Phone} {o : Service.Outcome}
    {out : Outcome} (once : CompletesOnce handed p.devices o.client)
    (h : performed p o = some out) :
    Turns handed p out.client ∧ out.requests = o.requests.map .rooms ∧
      out.listeners = o.listeners ∧ out.removed = o.removed := by
  rcases once with hsame | ⟨result, hroom, hresult⟩
  · rw [performed_same hsame] at h
    obtain rfl := Option.some.inj h
    exact ⟨.same (Same.refl p), rfl, rfl, rfl⟩
  · rw [performed_completed hresult] at h
    obtain ⟨p', hp', rfl⟩ := Option.map_eq_some_iff.mp h
    refine ⟨complete_turns hroom hp' ⟨rfl, rfl, Nat.le_refl _, ?_, List.Subset.refl _⟩, rfl, rfl,
      rfl⟩
    rw [devices_complete hp']
    simp [hresult]

theorem completesOnce_error {handed : Nat → ChatRoom → Prop} {c : Devices} {id : Nat}
    {e : ServiceError} :
    CompletesOnce handed c { c with completed := (id, .error e) :: c.completed } :=
  .inr ⟨(id, .error e), fun _ h => (nomatch h), rfl⟩

/-- The listener of a call is handed documents of which this is the first. -/
def Handed (s : RoomStore) (l : Listener) (documents : Option (List Document)) (id : Nat)
    (room : ChatRoom) : Prop :=
  ∃ call ds rest, l = .create call ∧ call.id = id ∧ documents = some ds ∧
    ChatRoom.ofDocuments s.clock ds = .ok (room :: rest)

theorem notify_completesOnce (s : RoomStore) (c : Devices) (l : Listener)
    (documents : Option (List Document)) :
    CompletesOnce (Handed s l documents) c (Service.notify s c l documents).client := by
  cases l with
  | create call =>
    rcases documents with _ | _ | ⟨d, ds⟩
    · exact completesOnce_error
    · exact .inl rfl
    · cases hrooms : ChatRoom.ofDocuments s.clock (d :: ds) with
      | error e =>
        refine .inl ?_
        simp only [Service.notify, Service.createDelivered, hrooms]
      | ok rooms =>
        cases rooms with
        | nil =>
          refine .inl ?_
          simp only [Service.notify, Service.createDelivered, hrooms]
        | cons room rest =>
          refine .inr ⟨(call.id, .ok room), fun room' hroom => ?_, ?_⟩
          · obtain rfl := Except.ok.inj hroom
            exact ⟨call, _, rest, rfl, rfl, rfl, hrooms⟩
          · simp only [Service.notify, Service.createDelivered, hrooms, Service.complete]
  | deletedRooms uid =>
    simp only [Service.notify, Service.deletedRoomsDelivered]
    split
    · split <;> exact .inl rfl
    · exact .inl rfl

theorem handle_completesOnce {c : Devices} {r : Service.Request} {a : Service.Answer}
    {o : Service.Outcome} (h : Service.handle c r a = some o) :
    CompletesOnce (fun _ _ => False) c o.client := by
  cases r with
  | addDocument call =>
    cases a with
    | written ok =>
      obtain rfl := Option.some.inj h
      cases ok with
      | true => exact .inl rfl
      | false => exact completesOnce_error
    | documents snapshot => cases h
  | getDocuments call =>
    cases a with
    | written ok => cases h
    | documents snapshot =>
      obtain rfl := Option.some.inj h
      cases snapshot with
      | ok documents => exact .inl rfl
      | error e => exact completesOnce_error
  | endRoom key =>
    cases a with
    | written ok =>
      obtain rfl := Option.some.inj h
      exact .inl rfl
    | documents snapshot => cases h

theorem notify_turns {s : RoomStore} {p : Phone} {l : Listener}
    {documents : Option (List Document)} {o : Outcome} (h : notify s p l documents = some o) :
    Turns (Handed s l documents) p o.client ∧ o.listeners = [] ∧ o.removed = [] ∧
      ∀ r ∈ o.requests, ∃ r', r = .rooms r' := by
  obtain ⟨hturns, hrequests, hlisteners, hremoved⟩ :=
    performed_turns (notify_completesOnce s p.devices l documents) h
  have hkeeps := Service.notify_keeps s p.devices l documents
  refine ⟨hturns, hlisteners.trans hkeeps.2, hremoved.trans hkeeps.1, fun r hr => ?_⟩
  rw [hrequests] at hr
  obtain ⟨r', _, rfl⟩ := List.mem_map.mp hr
  exact ⟨r', rfl⟩

/-- The screen that the handler of a request is a closure of. -/
def captured : Request → Option Nat
  | .rooms _ => none
  | .getUserInfo screen _ | .addBlockUser screen _ | .addBlockedUser screen _ => some screen

theorem unowned_spec {p : Phone} {screen : Nat} {o out : Outcome}
    (h : unowned p screen o = some out) : p.Exists screen ∧ out = o := by
  unfold unowned at h
  split at h
  · exact ⟨‹_›, (Option.some.inj h).symm⟩
  · cases h

theorem popAfterBlock_turns (p : Phone) (screen : Nat) :
    Turns (fun _ _ => False) p (popAfterBlock p screen) := by
  unfold popAfterBlock
  split
  · exact .popped (Same.refl _)
  · exact .same (Same.refl p)

theorem handle_turns {p : Phone} {r : Request} {a : Answer} {o : Outcome}
    (h : handle p r a = some o) :
    Turns (fun _ _ => False) p o.client ∧ o.listeners = [] ∧ o.removed = [] ∧ ∀ r' ∈ o.requests,
      (∃ q, r' = .rooms q) ∨ captured r' = captured r ∧ a ≠ .done false := by
  cases r with
  | rooms r =>
    cases a with
    | done ok => cases h
    | rooms a =>
      obtain ⟨out, hout, hperformed⟩ := Option.bind_eq_some_iff.mp h
      obtain ⟨hturns, hrequests, hlisteners, hremoved⟩ :=
        performed_turns (handle_completesOnce hout) hperformed
      have hcases := Service.handle_cases hout
      refine ⟨hturns, hlisteners.trans hcases.2.1, hremoved.trans hcases.1, fun r' hr => .inl ?_⟩
      rw [hrequests] at hr
      obtain ⟨q, _, rfl⟩ := List.mem_map.mp hr
      exact ⟨q, rfl⟩
  | getUserInfo screen uid =>
    rcases a with a | ok | ok
    · cases h
    · obtain rfl := Option.some.inj h
      exact ⟨.same (Same.refl p), rfl, rfl, fun r' hr => nomatch hr⟩
    · obtain ⟨_, rfl⟩ := unowned_spec h
      exact ⟨.same (Same.refl p), rfl, rfl, fun r' hr => nomatch hr⟩
  | addBlockUser screen otherUid =>
    rcases a with a | ok | ok
    · cases h
    · obtain rfl := Option.some.inj h
      exact ⟨.same (Same.refl p), rfl, rfl, fun r' hr => nomatch hr⟩
    · obtain ⟨_, rfl⟩ := unowned_spec h
      refine ⟨.same (Same.refl p), rfl, rfl, fun r' hr => .inr ⟨?_, fun ha => nomatch ha⟩⟩
      obtain rfl := List.mem_singleton.mp hr
      rfl
  | addBlockedUser screen otherUid =>
    rcases a with a | ok | ok
    · cases h
    · obtain rfl := Option.some.inj h
      exact ⟨.same (Same.refl p), rfl, rfl, fun r' hr => nomatch hr⟩
    · obtain ⟨_, rfl⟩ := unowned_spec h
      exact ⟨popAfterBlock_turns p screen, rfl, rfl, fun r' hr => nomatch hr⟩

theorem act_turns {p : Phone} {v : Action} {o : Outcome} (h : act p v = some o)
    (noTap : ∀ otherUid, v ≠ .talkButton otherUid) :
    Turns (fun _ _ => False) p o.client ∧ o.listeners = [] ∧ o.removed = [] ∧ ∀ r ∈ o.requests,
      (∃ uid, v = .profileImageButton uid ∧ r = .getUserInfo p.made uid) ∨
      ∃ otherUid, v = .blockUser otherUid ∧ r = .addBlockUser p.navigation.top.id otherUid ∧
        p.navigation.top.kind.isRoot = false := by
  unfold act at h
  split at h
  · rename_i hoffers
    cases v with
    | auth user =>
      obtain rfl := Option.some.inj h
      exact ⟨.same ⟨rfl, rfl, Nat.le_refl _, rfl, List.Subset.refl _⟩, rfl, rfl,
        fun r hr => nomatch hr⟩
    | profileImageButton uid =>
      obtain ⟨p', hp', rfl⟩ := Option.map_eq_some_iff.mp h
      refine ⟨.opened _ rfl hp', rfl, rfl, fun r hr => .inl ⟨uid, rfl, ?_⟩⟩
      simp only [Option.mem_toList, Option.map_eq_some_iff] at hr
      obtain ⟨_, _, rfl⟩ := hr
      rfl
    | didSelectRow =>
      obtain ⟨p', hp', rfl⟩ := Option.map_eq_some_iff.mp h
      exact ⟨.opened _ rfl hp', rfl, rfl, fun r hr => nomatch hr⟩
    | didSelectRoom chatRoom otherUid =>
      obtain ⟨p', hp', rfl⟩ := Option.map_eq_some_iff.mp h
      exact ⟨.opened _ rfl hp', rfl, rfl, fun r hr => nomatch hr⟩
    | talkButton otherUid => exact absurd rfl (noTap otherUid)
    | replyButton | refresh =>
      obtain rfl := Option.some.inj h
      exact ⟨.same ⟨rfl, rfl, Nat.le_refl _, rfl, List.subset_cons_self _ _⟩, rfl, rfl,
        fun r hr => nomatch hr⟩
    | back =>
      obtain rfl := Option.some.inj h
      exact ⟨.popped (Same.refl _), rfl, rfl, fun r hr => nomatch hr⟩
    | blockUser otherUid =>
      obtain rfl := Option.some.inj h
      refine ⟨.same (Same.refl p), rfl, rfl, fun r hr => .inr ⟨otherUid, rfl, ?_, ?_⟩⟩
      · simp only [Option.mem_toList, Option.map_eq_some_iff] at hr
        obtain ⟨_, _, rfl⟩ := hr
        rfl
      · revert hoffers
        cases p.navigation.top.kind <;> simp [Kind.offers, Kind.isRoot]
  · obtain rfl := Option.some.inj h
    exact ⟨.same (Same.refl p), rfl, rfl, fun r hr => nomatch hr⟩

end PlateChat.Screen.Stacks
