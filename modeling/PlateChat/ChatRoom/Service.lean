/- PlateChat/ChatRoom/Service
   digest: Creating chat rooms from a listener, and the listener that ends a user's rooms. -/

import PlateChat.Foundation.EventLoop
import PlateChat.Model.Profile
import PlateChat.Model.Room

set_option autoImplicit false
set_option relaxedAutoImplicit false

/-!
`cerateChatRoom` registers a listener on the status-1 rooms of two users and never
removes it; every delivery of an empty result adds a room. `deleteLoginUser` marks the
profile as deleted and reads it again; if it parses, a listener on the status-1 rooms of the
user is registered, and every delivery writes status 0 into each of them. All devices are
modelled at once.
-/

namespace PlateChat.ChatRoom.Service

open PlateChat.Foundation.Dictionary PlateChat.Foundation.Run PlateChat.Foundation.EventLoop
open PlateChat.Model.Members PlateChat.Model.Profile PlateChat.Model.Room

/-- One call of `cerateChatRoom` that passed its guard. -/
structure CreateCall where
  id : Nat
  uid : Uid
  otherUid : Uid
  distinct : uid ≠ otherUid
  deriving DecidableEq

def CreateCall.members (c : CreateCall) : List Uid := [c.uid, c.otherUid]

inductive Listener
  | create (call : CreateCall)
  | deletedRooms (uid : Uid)
  deriving DecidableEq

inductive Request
  | addDocument (call : CreateCall)
  | getDocuments (call : CreateCall)
  | endRoom (key : Nat)
  deriving DecidableEq

inductive Answer
  | written (ok : Bool)
  | documents (snapshot : Except ServiceError (List Document))
  deriving DecidableEq

/-- What the callers' completion handlers have been handed, and the calls made so far. -/
structure Devices where
  calls : Nat := 0
  completed : List (Nat × Except ServiceError ChatRoom) := []

abbrev Outcome := Effect Devices Request Listener

def complete (c : Devices) (call : CreateCall) (result : Except ServiceError ChatRoom) : Outcome where
  client := { c with completed := (call.id, result) :: c.completed }

def cerateChatRoom (c : Devices) (uid otherUid : Uid) : Outcome :=
  if h : uid = otherUid then { client := c }
  else {
    client := { c with calls := c.calls + 1 }
    listeners := [.create ⟨c.calls, uid, otherUid, h⟩] }

/-- The profile after the first write of `deleteLoginUser`. -/
def deletedProfile (stored : Option LoginUserDoc) : LoginUserDoc :=
  ({ status := some 0, fcmToken := some "" } : LoginUserDoc).merge (stored.getD {})

/-- The last part of `deleteLoginUser`: the profile has been written and is read again. -/
def deleteLoginUser (s : RoomStore) (c : Devices) (uid : Uid) :
    Except ServiceError (Option LoginUserDoc) → Outcome
  | .ok (some document) =>
    match LoginUser.ofDocument s.clock (uid, document) with
    | .ok _ => { client := c, listeners := [.deletedRooms uid] }
    | .error _ => { client := c }
  | .ok none | .error _ => { client := c }

/-- The listener of a creating call: an empty result adds a room, another one completes. -/
def createDelivered (s : RoomStore) (c : Devices) (call : CreateCall) :
    Option (List Document) → Outcome
  | some [] => { client := c, requests := [.addDocument call] }
  | some documents =>
    match ChatRoom.ofDocuments s.clock documents with
    | .ok (chatRoom :: _) => complete c call (.ok chatRoom)
    | _ => { client := c }
  | none => complete c call (.error .updateError)

/-- The listener of a deletion; a room that does not parse stops the whole delivery. -/
def deletedRoomsDelivered (s : RoomStore) (c : Devices) : Option (List Document) → Outcome
  | some documents =>
    match ChatRoom.ofDocuments s.clock documents with
    | .ok rooms => { client := c, requests := rooms.map fun room => .endRoom room.key }
    | .error _ => { client := c }
  | none => { client := c }

def notify (s : RoomStore) (c : Devices) : Listener → Option (List Document) → Outcome
  | .create call, documents => createDelivered s c call documents
  | .deletedRooms _, documents => deletedRoomsDelivered s c documents

/-- The completion of `addDocument`. -/
def addCompletion (c : Devices) (call : CreateCall) : Bool → Outcome
  | true => { client := c, requests := [.getDocuments call] }
  | false => complete c call (.error .updateError)

/-- The completion of the query after an addition. It tests the snapshot that was
empty before the addition instead of the one it was handed, and so never completes. -/
def getCompletion (c : Devices) (call : CreateCall) : Except ServiceError (List Document) → Outcome
  | .error _ => complete c call (.error .updateError)
  | .ok _ => { client := c }

def handle (c : Devices) : Request → Answer → Option Outcome
  | .addDocument call, .written ok => some (addCompletion c call ok)
  | .getDocuments call, .documents snapshot => some (getCompletion c call snapshot)
  | .endRoom _, .written _ => some { client := c }
  | _, _ => none

/-- `limit(to: 1000)` of the deletion's query. -/
def limit : Nat := 1000

def snapshot (s : RoomStore) : Listener → List Document
  | .create call => s.query call.members
  | .deletedRooms uid => (s.query [uid]).take limit

def serve (s : RoomStore) : Request → Bool → RoomStore × Answer
  | .addDocument call, true =>
    ((s.add (newRoom call.uid call.otherUid s.clock)).log call.id, .written true)
  | .endRoom key, true => (s.patch key (.status 0), .written true)
  | .getDocuments call, true => (s, .documents (.ok (s.query call.members)))
  | .addDocument _, false | .endRoom _, false => (s, .written false)
  | .getDocuments _, false => (s, .documents (.error .fetchError))

/-- What else happens to the collection: merging writes and rooms from elsewhere. -/
inductive Change
  | patch (key : Nat) (p : Patch)
  | add (d : ChatRoomDoc)
  deriving DecidableEq

def env (s : RoomStore) : Change → RoomStore
  | .patch key p => s.patch key p
  | .add d => s.add d

inductive Action
  | cerateChatRoom (uid otherUid : Uid)
  | deleteLoginUser (uid : Uid) (profile : Except ServiceError (Option LoginUserDoc))

def act (s : RoomStore) (c : Devices) : Action → Outcome
  | .cerateChatRoom uid otherUid => Service.cerateChatRoom c uid otherUid
  | .deleteLoginUser uid profile => Service.deleteLoginUser s c uid profile

def program :
    Program RoomStore Devices Action Change Request Answer Listener (List Document) where
  act s c v := some (Service.act s c v)
  serve := Service.serve
  handle _ c r a := Service.handle c r a
  snapshot := Service.snapshot
  notify s c l d := some (Service.notify s c l d)
  env := Service.env

abbrev Network := World RoomStore Devices Request Answer Listener

abbrev step : Network → Event Action Change → Option Network := program.step

/-- The documents at the start; nothing is in flight and nobody listens. -/
def start (s : RoomStore) : Network where
  server := { s with added := [] }
  client := {}

/-- The addition that a request still has to make. -/
def pendingAdd : Call Request Answer → Option CreateCall
  | ⟨.addDocument call, none⟩ => some call
  | _ => none

theorem deleteLoginUser_eq (s : RoomStore) (c : Devices) (uid : Uid) (document : LoginUserDoc) :
    deleteLoginUser s c uid (.ok (some document)) =
      { client := c, listeners := if document.Parses then [.deletedRooms uid] else [] } := by
  have hparses : (∃ user, LoginUser.ofDocument s.clock (uid, document) = .ok user) ↔
      document.Parses := LoginUser.parses_iff
  unfold deleteLoginUser
  cases huser : LoginUser.ofDocument s.clock (uid, document) with
  | ok user =>
    have hread : document.Parses := hparses.mp ⟨user, huser⟩
    simp only [huser, if_pos hread]
  | error e =>
    have hunread : ¬ document.Parses := fun h => by
      obtain ⟨user, huser'⟩ := hparses.mpr h
      rw [huser] at huser'
      cases huser'
    simp only [huser, if_neg hunread]

theorem act_requests (s : RoomStore) (c : Devices) (v : Action) : (act s c v).requests = [] := by
  cases v with
  | cerateChatRoom uid otherUid =>
    simp only [act, cerateChatRoom]
    split <;> rfl
  | deleteLoginUser uid profile =>
    rcases profile with e | _ | document
    · rfl
    · rfl
    · rw [act, deleteLoginUser_eq]

theorem createDelivered_requests (s : RoomStore) (c : Devices) (call : CreateCall)
    (documents : Option (List Document)) :
    (createDelivered s c call documents).requests =
      if documents = some [] then [.addDocument call] else [] := by
  rcases documents with _ | _ | ⟨d, ds⟩
  · rfl
  · rfl
  · rw [if_neg (by simp)]
    unfold createDelivered
    split
    · cases ‹some (d :: ds) = some []›
    · split <;> rfl
    · rfl

theorem createDelivered_keeps (s : RoomStore) (c : Devices) (call : CreateCall)
    (documents : Option (List Document)) :
    (createDelivered s c call documents).removed = [] ∧
      (createDelivered s c call documents).listeners = [] := by
  unfold createDelivered
  split
  · exact ⟨rfl, rfl⟩
  · split <;> exact ⟨rfl, rfl⟩
  · exact ⟨rfl, rfl⟩

theorem deletedRoomsDelivered_requests (s : RoomStore) (c : Devices) (documents : List Document) :
    (deletedRoomsDelivered s c (some documents)).requests =
      if ∀ d ∈ documents, Parses d.2 then documents.map fun d => .endRoom d.1 else [] := by
  unfold deletedRoomsDelivered
  by_cases h : ∀ d ∈ documents, Parses d.2
  · obtain ⟨rooms, hrooms⟩ := ofDocuments_of_parses h s.clock
    have hkeys := (parses_of_ofDocuments hrooms).2
    simp only [if_pos h, hrooms]
    have hmap : rooms.map (fun room => Request.endRoom room.key) =
        (rooms.map ChatRoom.key).map Request.endRoom := by
      rw [List.map_map]
      rfl
    rw [hmap, hkeys, List.map_map]
    rfl
  · rw [if_neg h]
    cases hrooms : ChatRoom.ofDocuments s.clock documents with
    | ok rooms => exact absurd (parses_of_ofDocuments hrooms).1 h
    | error e => simp only [hrooms]

theorem deletedRoomsDelivered_keeps (s : RoomStore) (c : Devices)
    (documents : Option (List Document)) :
    (deletedRoomsDelivered s c documents).removed = [] ∧
      (deletedRoomsDelivered s c documents).listeners = [] := by
  unfold deletedRoomsDelivered
  split
  · split <;> exact ⟨rfl, rfl⟩
  · exact ⟨rfl, rfl⟩

theorem notify_keeps (s : RoomStore) (c : Devices) (l : Listener)
    (documents : Option (List Document)) :
    (notify s c l documents).removed = [] ∧ (notify s c l documents).listeners = [] := by
  cases l with
  | create call => exact createDelivered_keeps s c call documents
  | deletedRooms uid => exact deletedRoomsDelivered_keeps s c documents

theorem mem_notify_requests {s : RoomStore} {c : Devices} {l : Listener}
    {documents : Option (List Document)} {q : Request}
    (hq : q ∈ (notify s c l documents).requests) :
    (∃ call, l = .create call ∧ documents = some [] ∧ q = .addDocument call) ∨
      ∃ uid rooms, l = .deletedRooms uid ∧ documents = some rooms ∧ (∀ d ∈ rooms, Parses d.2) ∧
        ∃ room ∈ rooms, q = .endRoom room.1 := by
  cases l with
  | create call =>
    change q ∈ (createDelivered s c call documents).requests at hq
    rw [createDelivered_requests] at hq
    split at hq
    · rename_i hempty
      exact .inl ⟨call, rfl, hempty, List.mem_singleton.mp hq⟩
    · cases hq
  | deletedRooms uid =>
    cases documents with
    | none => cases hq
    | some rooms =>
      change q ∈ (deletedRoomsDelivered s c (some rooms)).requests at hq
      rw [deletedRoomsDelivered_requests] at hq
      split at hq
      · rename_i hparses
        obtain ⟨room, hroom, rfl⟩ := List.mem_map.mp hq
        exact .inr ⟨uid, rooms, rfl, rfl, hparses, room, hroom, rfl⟩
      · cases hq

/-- A handler issues at most the query that follows its own addition. -/
theorem handle_cases {c : Devices} {r : Request} {a : Answer} {o : Outcome}
    (h : handle c r a = some o) : o.removed = [] ∧ o.listeners = [] ∧
      (o.requests = [] ∨ ∃ call, r = .addDocument call ∧ o.requests = [.getDocuments call]) := by
  cases r with
  | addDocument call =>
    cases a with
    | written ok =>
      obtain rfl := Option.some.inj h
      cases ok with
      | true => exact ⟨rfl, rfl, .inr ⟨call, rfl, rfl⟩⟩
      | false => exact ⟨rfl, rfl, .inl rfl⟩
    | documents snapshot => cases h
  | getDocuments call =>
    cases a with
    | written ok => cases h
    | documents snapshot =>
      obtain rfl := Option.some.inj h
      cases snapshot <;> exact ⟨rfl, rfl, .inl rfl⟩
  | endRoom key =>
    cases a with
    | written ok =>
      obtain rfl := Option.some.inj h
      exact ⟨rfl, rfl, .inl rfl⟩
    | documents snapshot => cases h

end PlateChat.ChatRoom.Service
