/- PlateChat/Block/Service
   digest: Blocking and releasing as the two services and the screens perform it. -/

import PlateChat.Foundation.EventLoop
import PlateChat.Model.LocalData

set_option autoImplicit false
set_option relaxedAutoImplicit false

/-!
Blocking `other` touches two documents: `user_block/{uid}` under the key `other`
and `user_blocked/{other}` under the key `uid`. Each service fetches the whole
`members` dictionary, changes one key, and writes the dictionary back with
`merge: true`. The screens run the second service in the first one's completion.
-/

namespace PlateChat.Block.Service

open PlateChat.Foundation.Dictionary PlateChat.Foundation.Run PlateChat.Foundation.EventLoop
open PlateChat.Model.Members PlateChat.Model.LocalData

inductive Collection
  | userBlock
  | userBlocked
  deriving DecidableEq

/-- The signed-in user and the user acted upon; an account's uid is never empty. -/
structure Pair where
  uid : Uid
  otherUid : Uid
  uid_ne : uid ≠ ""
  otherUid_ne : otherUid ≠ ""
  deriving DecidableEq

/-- One call of a service; a chained call is followed by its twin on the other collection. -/
structure Edit where
  collection : Collection
  pair : Pair
  value : Bool
  chained : Bool
  deriving DecidableEq

/-- One leaf of the store. -/
structure Slot where
  collection : Collection
  document : Uid
  key : Uid
  deriving DecidableEq

namespace Edit

def document (e : Edit) : Uid :=
  match e.collection with
  | .userBlock => e.pair.uid
  | .userBlocked => e.pair.otherUid

def key (e : Edit) : Uid :=
  match e.collection with
  | .userBlock => e.pair.otherUid
  | .userBlocked => e.pair.uid

def slot (e : Edit) : Slot := ⟨e.collection, e.document, e.key⟩

theorem key_ne (e : Edit) : e.key ≠ "" := by
  unfold key
  split
  · exact e.pair.otherUid_ne
  · exact e.pair.uid_ne

theorem pair_of_slot {e f : Edit} (h : e.slot = f.slot) : e.pair = f.pair := by
  obtain ⟨ec, ⟨eu, eo, _, _⟩, _, _⟩ := e
  obtain ⟨fc, ⟨fu, fo, _, _⟩, _, _⟩ := f
  cases ec <;> cases fc <;> simp_all [slot, document, key]

end Edit

/-- The two collections, documents by their id. -/
structure Store where
  userBlock : Dict Uid MembersDoc := ∅
  userBlocked : Dict Uid MembersDoc := ∅
  deriving DecidableEq

namespace Store

def documents (s : Store) : Collection → Dict Uid MembersDoc
  | .userBlock => s.userBlock
  | .userBlocked => s.userBlocked

def write (s : Store) (c : Collection) (document : Uid) (d : MembersDoc) : Store :=
  match c with
  | .userBlock => { s with userBlock := s.userBlock.insert document d }
  | .userBlocked => { s with userBlocked := s.userBlocked.insert document d }

def setData (s : Store) (c : Collection) (document : Uid) (data : Dict Uid Bool) : Store :=
  s.write c document (mergeMembers data ((s.documents c).lookup document))

/-- The value stored under a slot. -/
def mark (s : Store) (l : Slot) : Option Bool :=
  memberOf ((s.documents l.collection).lookup l.document) l.key

theorem documents_write (s : Store) (c c' : Collection) (document id : Uid) (d : MembersDoc) :
    ((s.write c document d).documents c').lookup id =
      if c' = c ∧ id = document then some d else (s.documents c').lookup id := by
  by_cases hid : id = document
  · subst hid
    cases c <;> cases c' <;> simp [write, documents]
  · cases c <;> cases c' <;> simp [write, documents, hid]

theorem mark_setData (s : Store) (c : Collection) (document : Uid) (data : Dict Uid Bool)
    (l : Slot) :
    (s.setData c document data).mark l =
      if l.collection = c ∧ l.document = document then (data.lookup l.key).or (s.mark l)
      else s.mark l := by
  unfold mark setData
  rw [documents_write]
  split
  · obtain ⟨rfl, rfl⟩ := ‹l.collection = c ∧ l.document = document›
    exact memberOf_merge _ _ _
  · rfl

end Store

inductive Request
  | get (e : Edit)
  | set (e : Edit) (data : Dict Uid Bool)
  deriving DecidableEq

def Request.edit : Request → Edit
  | .get e => e
  | .set e _ => e

/-- A fetch yields an error or a snapshot of a document that may not exist. -/
inductive Answer
  | fetched (document : Except ServiceError (Option MembersDoc))
  | written (error : Option ServiceError)

/-- Every account's own caches, and the service calls made so far, the latest first. -/
structure Devices where
  usersData : Uid → UsersData
  called : List Edit

abbrev Outcome := Effect Devices Request Empty

/-- The completion of a fetch: the parsed document or an error. -/
def parsed (key : Uid) : Except ServiceError (Option MembersDoc) → Except ServiceError MemberList
  | .ok (some document) =>
    match MemberList.ofDocument key document with
    | .ok list => .ok list
    | .error _ => .error .fetchError
  | .ok none => .error .fetchError
  | .error _ => .error .fetchError

/-- The caches after a service of account `uid` has read or written `members`;
`user_blocked` is cached only when it is the account's own document. -/
def cached (c : Devices) (e : Edit) (members : Dict Uid Bool) : Devices :=
  let own := c.usersData e.pair.uid
  match e.collection with
  | .userBlock =>
    { c with usersData := Function.update c.usersData e.pair.uid { own with userBlock := members } }
  | .userBlocked =>
    if e.pair.otherUid = e.pair.uid then
      { c with
        usersData := Function.update c.usersData e.pair.uid { own with userBlocked := members } }
    else c

/-- The dictionary a call writes: what it fetched, one key changed, the placeholder dropped. -/
def dataOf (e : Edit) (fetched : Except ServiceError MemberList) : Dict Uid Bool :=
  let members : Dict Uid Bool := match fetched with
    | .ok list => list.members
    | .error _ => AList.singleton "" true
  (members.insert e.key e.value).erase ""

def updateMembers (c : Devices) (e : Edit) : Outcome where
  client := { c with called := e :: c.called }
  requests := [.get e]

def addBlockUser (c : Devices) (p : Pair) (chained : Bool) : Outcome :=
  updateMembers c ⟨.userBlock, p, true, chained⟩

def releaseBlockUser (c : Devices) (p : Pair) (chained : Bool) : Outcome :=
  updateMembers c ⟨.userBlock, p, false, chained⟩

def addBlockedUser (c : Devices) (p : Pair) : Outcome :=
  updateMembers c ⟨.userBlocked, p, true, false⟩

def releaseBlockedUser (c : Devices) (p : Pair) : Outcome :=
  updateMembers c ⟨.userBlocked, p, false, false⟩

/-- The screens' action: the first service, the second one in its completion. -/
def blockUser (c : Devices) (p : Pair) : Outcome := addBlockUser c p true

def blockUserRelease (c : Devices) (p : Pair) : Outcome := releaseBlockUser c p true

/-- The screens' completion of the first service; an error is only logged. -/
def screenCompletion (c : Devices) (e : Edit) : Option ServiceError → Outcome
  | some _ => { client := c }
  | none => if e.value then addBlockedUser c e.pair else releaseBlockedUser c e.pair

/-- The completion of `getBlockUser` or `getBlockedUser` inside a call. -/
def fetchCompletion (c : Devices) (e : Edit) (answer : Except ServiceError (Option MembersDoc)) :
    Outcome :=
  let fetched := parsed e.document answer
  let c := match fetched with
    | .ok list => cached c e list.members
    | .error _ => c
  { client := c, requests := [.set e (dataOf e fetched)] }

/-- The completion of `setData` inside a call. -/
def writeCompletion (c : Devices) (e : Edit) (data : Dict Uid Bool) :
    Option ServiceError → Outcome
  | some _ => if e.chained then screenCompletion c e (some .fetchError) else { client := c }
  | none =>
    let c := cached c e data
    if e.chained then screenCompletion c e none else { client := c }

inductive Action
  | addBlockUser (p : Pair)
  | releaseBlockUser (p : Pair)
  | addBlockedUser (p : Pair)
  | releaseBlockedUser (p : Pair)
  | blockUser (p : Pair)
  | blockUserRelease (p : Pair)
  deriving DecidableEq

def Action.pair : Action → Pair
  | .addBlockUser p | .releaseBlockUser p | .addBlockedUser p | .releaseBlockedUser p
  | .blockUser p | .blockUserRelease p => p

def act (c : Devices) : Action → Outcome
  | .addBlockUser p => Service.addBlockUser c p false
  | .releaseBlockUser p => Service.releaseBlockUser c p false
  | .addBlockedUser p => Service.addBlockedUser c p
  | .releaseBlockedUser p => Service.releaseBlockedUser c p
  | .blockUser p => Service.blockUser c p
  | .blockUserRelease p => Service.blockUserRelease c p

def serve (s : Store) : Request → Bool → Store × Answer
  | .get e, true => (s, .fetched (.ok ((s.documents e.collection).lookup e.document)))
  | .get _, false => (s, .fetched (.error .fetchError))
  | .set e data, true => (s.setData e.collection e.document data, .written none)
  | .set _ _, false => (s, .written (some .updateError))

def handle (c : Devices) : Request → Answer → Option Outcome
  | .get e, .fetched answer => some (fetchCompletion c e answer)
  | .set e data, .written error => some (writeCompletion c e data error)
  | _, _ => none

/-- All devices at once: the listeners of this component only fill caches and are left out. -/
def program : Program Store Devices Action Empty Request Answer Empty Unit where
  act _ c v := some (Service.act c v)
  serve := Service.serve
  handle _ c r a := Service.handle c r a
  snapshot _ _ := ()
  notify _ _ l _ := nomatch l
  env _ h := nomatch h

abbrev Network := World Store Devices Request Answer Empty

/-- Nothing in flight, the given documents on the server. -/
def start (s : Store) (usersData : Uid → UsersData) : Network where
  server := s
  client := ⟨usersData, []⟩

abbrev step : Network → Event Action Empty → Option Network := program.step

/-- The second service of the screens' action. -/
def Edit.twin (e : Edit) : Edit := ⟨.userBlocked, e.pair, e.value, false⟩

theorem act_cases (c : Devices) (v : Action) :
    ∃ e : Edit, e.pair = v.pair ∧ act c v = updateMembers c e := by
  cases v with
  | addBlockUser p => exact ⟨_, rfl, rfl⟩
  | releaseBlockUser p => exact ⟨_, rfl, rfl⟩
  | addBlockedUser p => exact ⟨_, rfl, rfl⟩
  | releaseBlockedUser p => exact ⟨_, rfl, rfl⟩
  | blockUser p => exact ⟨_, rfl, rfl⟩
  | blockUserRelease p => exact ⟨_, rfl, rfl⟩

@[simp] theorem cached_called (c : Devices) (e : Edit) (members : Dict Uid Bool) :
    (cached c e members).called = c.called := by
  unfold cached
  dsimp only
  split
  · rfl
  · split <;> rfl

@[simp] theorem fetchCompletion_called (c : Devices) (e : Edit)
    (answer : Except ServiceError (Option MembersDoc)) :
    (fetchCompletion c e answer).client.called = c.called := by
  unfold fetchCompletion
  dsimp only
  split
  · exact cached_called _ _ _
  · rfl

theorem screenCompletion_none (c : Devices) (e : Edit) :
    screenCompletion c e none = updateMembers c e.twin := by
  unfold screenCompletion addBlockedUser releaseBlockedUser Edit.twin
  cases hv : e.value <;> rfl

theorem writeCompletion_cases (c : Devices) (e : Edit) (data : Dict Uid Bool)
    (error : Option ServiceError) :
    (e.chained = true ∧ error = none ∧
      (writeCompletion c e data error).client.called = e.twin :: c.called ∧
      (writeCompletion c e data error).requests = [.get e.twin]) ∨
    ((e.chained = false ∨ error ≠ none) ∧
      (writeCompletion c e data error).client.called = c.called ∧
      (writeCompletion c e data error).requests = []) := by
  cases hc : e.chained <;> cases error
  · right
    simp [writeCompletion, hc]
  · right
    simp [writeCompletion, hc]
  · left
    simp [writeCompletion, hc, screenCompletion_none, updateMembers]
  · right
    simp [writeCompletion, hc, screenCompletion]

theorem dataOf_key (e : Edit) (fetched : Except ServiceError MemberList) :
    (dataOf e fetched).lookup e.key = some e.value :=
  lookup_insert_erase _ _ e.key_ne

/-- Every member a write carries besides its own key has the value stored right now. -/
def Current (s : Store) (e : Edit) (data : Dict Uid Bool) : Prop :=
  ∀ k ∈ data.keys, k ≠ e.key → data.lookup k = s.mark ⟨e.collection, e.document, k⟩

instance (s : Store) (e : Edit) (data : Dict Uid Bool) : Decidable (Current s e data) :=
  inferInstanceAs (Decidable (∀ k ∈ data.keys, _))

/-- What was just fetched is current, also when the fetch failed. -/
theorem current_fetched (s : Store) (e : Edit) (ok : Bool)
    {document : Except ServiceError (Option MembersDoc)}
    (h : (serve s (.get e) ok).2 = .fetched document) :
    Current s e (dataOf e (parsed e.document document)) := by
  intro k hk hne
  obtain ⟨v, hv⟩ := Option.isSome_iff_exists.mp
    (AList.lookup_isSome.mpr (AList.mem_keys.mp hk))
  have hkept : (dataOf e (parsed e.document document)).lookup k = _ :=
    lookup_insert_erase_ne _ e.value hne
  rw [hkept] at hv ⊢
  by_cases hempty : k = ""
  · simp [hempty] at hv
  rw [if_neg hempty] at hv ⊢
  cases hp : parsed e.document document with
  | error r =>
    rw [hp] at hv
    dsimp only at hv
    rw [lookup_singleton, if_neg hempty] at hv
    cases hv
  | ok list =>
    cases ok with
    | false =>
      cases h
      cases hp
    | true =>
      cases h
      rcases hdoc : (s.documents e.collection).lookup e.document with _ | d
      · rw [hdoc] at hp
        cases hp
      · rw [hdoc] at hp
        simp only [parsed] at hp
        split at hp
        · cases hp
          show _ = memberOf ((s.documents e.collection).lookup e.document) k
          rw [hdoc]
          exact memberOf_decoded ‹_› k
        · cases hp

/-- A current write sets its own slot and leaves every other one as it is. -/
theorem mark_current {s : Store} {e : Edit} {data : Dict Uid Bool} (current : Current s e data)
    (own : data.lookup e.key = some e.value) (l : Slot) :
    (s.setData e.collection e.document data).mark l =
      if l = e.slot then some e.value else s.mark l := by
  obtain ⟨c, d, k⟩ := l
  rw [Store.mark_setData]
  by_cases hd : c = e.collection ∧ d = e.document
  · obtain ⟨rfl, rfl⟩ := hd
    rw [if_pos ⟨rfl, rfl⟩]
    by_cases hk : k = e.key
    · subst hk
      rw [if_pos (by rfl), own, Option.some_or]
    · rw [if_neg (by simpa [Edit.slot] using hk)]
      by_cases hmem : k ∈ data.keys
      · rw [current k hmem hk, Option.or_self]
      · have habsent : data.lookup k = none :=
          AList.lookup_eq_none.mpr fun h => hmem (AList.mem_keys.mpr h)
        rw [habsent, Option.none_or]
  · have hne : (⟨c, d, k⟩ : Slot) ≠ e.slot := by
      intro h
      cases h
      exact hd ⟨rfl, rfl⟩
    rw [if_neg hd, if_neg hne]

end PlateChat.Block.Service
