/- PlateChat/History/Service
   digest: Footprints and reply logs as the two services read, amend and replace them. -/

import PlateChat.Foundation.EventLoop
import PlateChat.Model.Histories

set_option autoImplicit false
set_option relaxedAutoImplicit false

/-!
A visit of another profile and a reply to another user's article are recorded in a
document of that user, under the second in which they happen. The service fetches the
document, amends its `history`, and replaces the whole document by what it got. What
goes wrong in the fetch is not told apart from a document that does not exist yet.
-/

namespace PlateChat.History.Service

open PlateChat.Foundation.Dictionary PlateChat.Foundation.Newest PlateChat.Foundation.Run
open PlateChat.Foundation.EventLoop
open PlateChat.Model.Members PlateChat.Model.Histories

inductive Collection
  | footprint
  | articleReplyLog
  deriving DecidableEq

/-- What a call records: that a profile was opened, or the article of a reply. -/
inductive Record
  | footprint
  | reply (articleKey : String)
  deriving DecidableEq

/-- One call of a service, by `uid` and for `otherUid`. -/
structure Visit where
  record : Record
  uid : Uid
  otherUid : Uid
  deriving DecidableEq

def Visit.collection (v : Visit) : Collection :=
  match v.record with
  | .footprint => .footprint
  | .reply _ => .articleReplyLog

/-- The value stored under the second of the call. -/
def Visit.value (v : Visit) : String :=
  match v.record with
  | .footprint => v.uid
  | .reply articleKey => v.uid ++ "," ++ articleKey

/-- The two collections, documents by their id. -/
structure Store where
  footprint : Dict Uid HistoryDoc := ∅
  articleReplyLog : Dict Uid HistoryDoc := ∅
  deriving DecidableEq

namespace Store

def documents (s : Store) : Collection → Dict Uid HistoryDoc
  | .footprint => s.footprint
  | .articleReplyLog => s.articleReplyLog

/-- `setData(data)` without merging. -/
def setData (s : Store) (c : Collection) (document : Uid) (data : History) : Store :=
  match c with
  | .footprint => { s with footprint := s.footprint.insert document (historyData data) }
  | .articleReplyLog =>
    { s with articleReplyLog := s.articleReplyLog.insert document (historyData data) }

/-- The document that a call reads and replaces. -/
def target (s : Store) (v : Visit) : Option HistoryDoc :=
  (s.documents v.collection).lookup v.otherUid

def entry (s : Store) (v : Visit) (key : String) : Option Value := entryOf (s.target v) key

theorem documents_setData (s : Store) (c c' : Collection) (document id : Uid) (data : History) :
    ((s.setData c document data).documents c').lookup id =
      if c' = c ∧ id = document then some (historyData data) else (s.documents c').lookup id := by
  by_cases hid : id = document
  · subst hid
    cases c <;> cases c' <;> simp [setData, documents]
  · cases c <;> cases c' <;> simp [setData, documents, hid]

end Store

/-- The two readings of the clock inside a call: one for the day, a later one for the key. -/
structure Clock where
  now : Timestamp
  later : Timestamp
  deriving DecidableEq

/-- A write carries its data; what it was computed from is kept for the statements. -/
inductive Request
  | get (v : Visit)
  | set (v : Visit) (fetched : History) (clock : Clock) (data : History)
  deriving DecidableEq

def Request.visit : Request → Visit
  | .get v => v
  | .set v _ _ _ => v

/-- A fetch yields an error or a snapshot of a document that may not exist. -/
inductive Answer
  | fetched (document : Except ServiceError (Option HistoryDoc))
  | written (error : Option ServiceError)

/-- The clock, the calls begun, and the calls that have read it, the latest first. -/
structure Devices where
  clock : Clock
  called : List Visit := []
  stamped : List (Visit × Timestamp) := []

abbrev Outcome := Effect Devices Request Empty

/-- The completion of a fetch: the parsed document or an error. -/
def parsed (key : Uid) : Except ServiceError (Option HistoryDoc) → Except ServiceError HistoryLog
  | .ok (some document) =>
    match HistoryLog.ofDocument key document with
    | .ok log => .ok log
    | .error _ => .error .fetchError
  | .ok none => .error .fetchError
  | .error _ => .error .fetchError

/-- An error counts as an empty history. -/
def fetchedHistory : Except ServiceError HistoryLog → History
  | .ok log => log.history
  | .error _ => ∅

/-- What a call that fetches now gets. -/
def storedHistory (s : Store) (v : Visit) : History :=
  fetchedHistory (parsed v.otherUid (.ok (s.target v)))

section Amend

variable {Day : Type} [DecidableEq Day] (cal : Calendar Day) (listing : Listing String String)

/-- The visitor's earlier entries of the day go, and with them every key that is no number. -/
def withoutToday (uid : Uid) (now : Day) (history : History) : History :=
  keep (fun key value => match cal.read key with
    | some ymd => value ≠ uid ∨ ymd ≠ now
    | none => false) history

/-- What a call takes over; only a footprint is looked through. -/
def carried (v : Visit) (now : Timestamp) (history : History) : History :=
  match v.record with
  | .footprint => withoutToday cal v.uid (cal.ymd now) history
  | .reply _ => history

/-- The history with the entry of the call. -/
def newHistory (v : Visit) (clock : Clock) (history : History) : History :=
  (carried cal v clock.now history).insert (decimal clock.later) v.value

def historyLimit : Nat := 50

/-- `sorted` compares `Int(key)!`, and compares nothing while there is one entry only. -/
def latest (history : History) : Option History :=
  if 2 ≤ history.entries.length ∧ ∃ key ∈ history.keys, intOf key = none then none
  else some (newest listing secondOf historyLimit history)

def dataOf (v : Visit) (clock : Clock) (history : History) : Option History :=
  latest listing (newHistory cal v clock history)

def beginVisit (c : Devices) (v : Visit) : Outcome where
  client := { c with called := v :: c.called }
  requests := [.get v]

/-- Nobody leaves a trace in his own document. -/
def addFootprint (c : Devices) (currentUser : Option Uid) (otherUid : Uid) : Outcome :=
  match currentUser with
  | some uid => if otherUid = uid then { client := c } else beginVisit c ⟨.footprint, uid, otherUid⟩
  | none => { client := c }

def addArticleReplyLog (c : Devices) (currentUser : Option Uid) (otherUid : Uid)
    (articleKey : String) : Outcome :=
  match currentUser with
  | some uid =>
    if otherUid = uid then { client := c } else beginVisit c ⟨.reply articleKey, uid, otherUid⟩
  | none => { client := c }

/-- The write of a call that has read the clock. -/
def sendWrite (c : Devices) (v : Visit) (history data : History) : Outcome where
  client := { c with
    clock := ⟨c.clock.later, c.clock.later⟩
    stamped := (v, c.clock.later) :: c.stamped }
  requests := [.set v history c.clock data]

/-- The completion of `getFootprint` or `getArticleReply` inside a call. -/
def fetchCompletion (c : Devices) (v : Visit) (answer : Except ServiceError (Option HistoryDoc)) :
    Option Outcome :=
  let history := fetchedHistory (parsed v.otherUid answer)
  (dataOf cal listing v c.clock history).map (sendWrite c v history)

/-- The callers ignore how the write ended. -/
def writeCompletion (c : Devices) (_ : Option ServiceError) : Outcome := { client := c }

/-- Calls by whoever is signed in on some device, and the time that passes. -/
inductive Action
  | addFootprint (currentUser : Option Uid) (otherUid : Uid)
  | addArticleReplyLog (currentUser : Option Uid) (otherUid : Uid) (articleKey : String)
  | clock (now later : Timestamp)
  deriving DecidableEq

def act (c : Devices) : Action → Outcome
  | .addFootprint currentUser otherUid => Service.addFootprint c currentUser otherUid
  | .addArticleReplyLog currentUser otherUid articleKey =>
    Service.addArticleReplyLog c currentUser otherUid articleKey
  | .clock now later => { client := { c with clock := ⟨now, later⟩ } }

def serve (s : Store) : Request → Bool → Store × Answer
  | .get v, true => (s, .fetched (.ok (s.target v)))
  | .get _, false => (s, .fetched (.error .fetchError))
  | .set v _ _ data, true => (s.setData v.collection v.otherUid data, .written none)
  | .set _ _ _ _, false => (s, .written (some .updateError))

def handle (c : Devices) : Request → Answer → Option Outcome
  | .get v, .fetched answer => fetchCompletion cal listing c v answer
  | .set _ _ _ _, .written error => some (writeCompletion c error)
  | _, _ => none

/-- All devices at once. -/
def program : Program Store Devices Action Empty Request Answer Empty Unit where
  act _ c v := some (Service.act c v)
  serve := Service.serve
  handle _ c r a := Service.handle cal listing c r a
  snapshot _ _ := ()
  notify _ _ l _ := nomatch l
  env _ h := nomatch h

end Amend

abbrev Network := World Store Devices Request Answer Empty

def start (s : Store) (clock : Clock) : Network where
  server := s
  client := { clock := clock }

abbrev step {Day : Type} [DecidableEq Day] (cal : Calendar Day) (listing : Listing String String) :
    Network → Event Action Empty → Option Network := (program cal listing).step

section Computed

variable {Day : Type} [DecidableEq Day] {cal : Calendar Day} {listing : Listing String String}

/-- An entry of the history that the call removes: the visitor's own, of the same day. -/
def Replaced (cal : Calendar Day) (v : Visit) (now : Timestamp) (key value : String) : Prop :=
  v.record = .footprint ∧ value = v.uid ∧ cal.read key = some (cal.ymd now)

theorem history_of_carried {v : Visit} {now : Timestamp} {history : History} {key value : String}
    (h : (carried cal v now history).lookup key = some value) :
    history.lookup key = some value ∧ ¬ Replaced cal v now key value := by
  unfold carried at h
  cases hr : v.record with
  | reply articleKey =>
    rw [hr] at h
    refine ⟨h, fun hrep => ?_⟩
    rw [hrep.1] at hr
    cases hr
  | footprint =>
    rw [hr] at h
    simp only [withoutToday, lookup_keep, Option.filter_eq_some_iff] at h
    refine ⟨h.1, ?_⟩
    rintro ⟨_, hown, hday⟩
    have htest := h.2
    rw [hday] at htest
    simp [hown] at htest

theorem carried_of_history {v : Visit} {now : Timestamp} {history : History} {key value : String}
    (h : history.lookup key = some value) (number : (intOf key).isSome)
    (stays : ¬ Replaced cal v now key value) :
    (carried cal v now history).lookup key = some value := by
  unfold carried
  cases hr : v.record with
  | reply articleKey => exact h
  | footprint =>
    obtain ⟨n, hn⟩ := Option.isSome_iff_exists.mp number
    obtain ⟨day, hread, _⟩ := cal.read_int key n hn
    simp only [withoutToday, lookup_keep, Option.filter_eq_some_iff, hread, decide_eq_true_eq]
    refine ⟨h, ?_⟩
    by_contra hown
    simp only [not_or, not_not] at hown
    exact stays ⟨hr, hown.1, hown.2 ▸ hread⟩

theorem newHistory_own (v : Visit) (clock : Clock) (history : History) :
    (newHistory cal v clock history).lookup (decimal clock.later) = some v.value :=
  AList.lookup_insert _

theorem newHistory_other {v : Visit} {clock : Clock} {history : History} {key : String}
    (h : key ≠ decimal clock.later) :
    (newHistory cal v clock history).lookup key = (carried cal v clock.now history).lookup key :=
  AList.lookup_insert_ne h

/-- A call that does not trap keeps the newest entries, and all keys were numbers. -/
theorem dataOf_spec {v : Visit} {clock : Clock} {history data : History}
    (h : dataOf cal listing v clock history = some data) :
    data = newest listing secondOf historyLimit (newHistory cal v clock history) ∧
      ∀ key ∈ newHistory cal v clock history, (intOf key).isSome := by
  unfold dataOf latest at h
  split at h
  · cases h
  rename_i hsort
  refine ⟨(Option.some.inj h).symm, fun key hkey => ?_⟩
  by_contra hnumber
  have hnone : intOf key = none := by simpa using hnumber
  refine hsort ⟨?_, key, AList.mem_keys.mp hkey, hnone⟩
  have hown : decimal clock.later ∈ newHistory cal v clock history :=
    AList.lookup_isSome.mp (by rw [newHistory_own]; rfl)
  have hne : key ≠ decimal clock.later := by
    rintro rfl
    rw [intOf_decimal] at hnone
    cases hnone
  have htwo : [key, decimal clock.later].Subperm (newHistory cal v clock history).keys := by
    refine List.subperm_of_subset ?_ ?_
    · simpa using hne
    · intro k hk
      rcases List.mem_pair.mp hk with rfl | rfl
      · exact AList.mem_keys.mp hkey
      · exact AList.mem_keys.mp hown
  have hlen := htwo.length_le
  rw [AList.keys, List.keys, List.length_map] at hlen
  exact hlen

theorem act_cases (c : Devices) (a : Action) :
    (∃ v, act c a = beginVisit c v) ∨ act c a = { client := c } ∨
      ∃ now later, a = .clock now later ∧
        act c a = { client := { c with clock := ⟨now, later⟩ } } := by
  cases a with
  | addFootprint currentUser otherUid =>
    simp only [act, addFootprint]
    rcases currentUser with _ | uid
    · exact .inr (.inl rfl)
    · by_cases hself : otherUid = uid
      · exact .inr (.inl (if_pos hself))
      · exact .inl ⟨⟨.footprint, uid, otherUid⟩, if_neg hself⟩
  | addArticleReplyLog currentUser otherUid articleKey =>
    simp only [act, addArticleReplyLog]
    rcases currentUser with _ | uid
    · exact .inr (.inl rfl)
    · by_cases hself : otherUid = uid
      · exact .inr (.inl (if_pos hself))
      · exact .inl ⟨⟨.reply articleKey, uid, otherUid⟩, if_neg hself⟩
  | clock now later => exact .inr (.inr ⟨now, later, rfl, rfl⟩)

theorem fetchCompletion_spec {c : Devices} {v : Visit}
    {answer : Except ServiceError (Option HistoryDoc)} {e : Outcome}
    (h : fetchCompletion cal listing c v answer = some e) :
    ∃ data, dataOf cal listing v c.clock (fetchedHistory (parsed v.otherUid answer)) = some data ∧
      e = sendWrite c v (fetchedHistory (parsed v.otherUid answer)) data := by
  obtain ⟨data, hdata, rfl⟩ := Option.map_eq_some_iff.mp h
  exact ⟨data, hdata, rfl⟩

/-- An entry that a call writes is its own, or was there and not to be replaced. -/
theorem entry_of_data {v : Visit} {clock : Clock} {history data : History}
    (h : dataOf cal listing v clock history = some data) {key uid : String}
    (hentry : data.lookup key = some uid) :
    key = decimal clock.later ∧ uid = v.value ∨
      history.lookup key = some uid ∧ ¬ Replaced cal v clock.now key uid := by
  obtain ⟨rfl, _⟩ := dataOf_spec h
  have hnew := lookup_of_newest hentry
  by_cases hkey : key = decimal clock.later
  · subst hkey
    rw [newHistory_own] at hnew
    exact .inl ⟨rfl, (Option.some.inj hnew).symm⟩
  · rw [newHistory_other hkey] at hnew
    exact .inr (history_of_carried hnew)

theorem target_setData (s : Store) (v u : Visit) (data : History) :
    (s.setData v.collection v.otherUid data).target u =
      if u.collection = v.collection ∧ u.otherUid = v.otherUid then some (historyData data)
      else s.target u :=
  Store.documents_setData _ _ _ _ _ _

theorem target_footprint (s : Store) {v : Visit} (hv : v.record = .footprint) :
    s.target v = s.footprint.lookup v.otherUid := by
  unfold Store.target Visit.collection
  rw [hv]
  rfl

theorem footprint_setData (s : Store) (v : Visit) (data : History) (id : Uid) :
    (s.setData v.collection v.otherUid data).footprint.lookup id =
      if v.record = .footprint ∧ id = v.otherUid then some (historyData data)
      else s.footprint.lookup id := by
  have hcollection : Collection.footprint = v.collection ↔ v.record = .footprint := by
    unfold Visit.collection
    cases v.record <;> simp
  have hset := Store.documents_setData s v.collection .footprint v.otherUid id data
  simp only [hcollection] at hset
  exact hset

end Computed

end PlateChat.History.Service
