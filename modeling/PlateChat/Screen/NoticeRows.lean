/- PlateChat/Screen/NoticeRows
   digest: The two arrays behind the rows of the notice screens, loads and releases in any order. -/

import PlateChat.Block.Service
import PlateChat.Screen.Blocking

set_option autoImplicit false
set_option relaxedAutoImplicit false

/-!
Both notice screens keep the users and the times of their rows in two arrays. A load
rebuilds both. The footprints also offer to release the user of a row, in the words of the
list of blocked users: what it does at the end fills the first array only.
-/

namespace PlateChat.Screen.NoticeRows

open PlateChat.Foundation.Dictionary PlateChat.Foundation.Newest PlateChat.Foundation.Run
open PlateChat.Foundation.EventLoop PlateChat.Model.Members PlateChat.Model.LocalData
open PlateChat.Model.Histories
open PlateChat.History.Service (Collection parsed latest historyLimit)
open PlateChat.Screen.Lists (KeyOrder usersOf)
open PlateChat.Screen.Blocking (Notices noticesOf notices firstComponent)

/-- The account that is signed in. -/
structure Account where
  uid : Uid
  uid_ne : uid ≠ ""

/-- The rows of a screen, and the history that was loaded last. -/
structure Rows where
  notices : Notices := {}
  loaded : Option History := none

/-- The two screens, and what the block services keep. -/
structure Tabs where
  footprint : Rows := {}
  articleReplyLog : Rows := {}
  devices : Block.Service.Devices

namespace Tabs

def rows (d : Tabs) : Collection → Rows
  | .footprint => d.footprint
  | .articleReplyLog => d.articleReplyLog

def set (d : Tabs) (c : Collection) (rows : Rows) : Tabs :=
  match c with
  | .footprint => { d with footprint := rows }
  | .articleReplyLog => { d with articleReplyLog := rows }

theorem rows_set (d : Tabs) (c c' : Collection) (rows : Rows) :
    (d.set c rows).rows c' = if c' = c then rows else d.rows c' := by
  cases c <;> cases c' <;> rfl

end Tabs

/-- The documents that the screens read and write. -/
structure Server where
  histories : History.Service.Store := {}
  blocks : Block.Service.Store := {}

inductive Request
  | history (c : Collection)
  | block (r : Block.Service.Request)
  deriving DecidableEq

inductive Answer
  | history (document : Except ServiceError (Option HistoryDoc))
  | block (a : Block.Service.Answer)

abbrev Outcome := Effect Tabs Request Empty

/-- What a row shows of the entry behind it. -/
def uidOf : Collection → String → Uid
  | .footprint => id
  | .articleReplyLog => firstComponent

/-- `none` is an index out of range. -/
def cellForRowAt (s : Notices) (row : Nat) : Option (Uid × Int) :=
  match s.uids[row]?, s.timeStamps[row]? with
  | some uid, some timeStamp => some (uid, timeStamp)
  | _, _ => none

section Screens

variable (listing : Listing String String) (keys : KeyOrder) (account : Account)

/-- `viewWillAppear` loads the history of the account. -/
def viewWillAppear (d : Tabs) (c : Collection) : Outcome where
  client := d
  requests := [.history c]

def blockOutcome (d : Tabs) (o : Block.Service.Outcome) : Outcome where
  client := { d with devices := o.client }
  requests := o.requests.map .block

/-- The user of the row is read off the array; a document needs an id. -/
def blockUserRelease (d : Tabs) (row : Nat) : Option Outcome :=
  match d.footprint.notices.uids[row]? with
  | some otherUid =>
    if other : otherUid ≠ "" then
      some (blockOutcome d (Block.Service.blockUserRelease d.devices
        ⟨account.uid, otherUid, account.uid_ne, other⟩))
    else none
  | none => none

/-- The completion of a load; only a history that parses changes anything. -/
def loadCompletion (d : Tabs) (c : Collection) (answer : Except ServiceError (Option HistoryDoc)) :
    Option Outcome :=
  let fetched := parsed account.uid answer
  let loaded := match fetched with
    | .ok log => some log.history
    | .error _ => (d.rows c).loaded
  (notices listing (uidOf c) fetched (d.rows c).notices).map fun rows =>
    { client := d.set c ⟨rows, loaded⟩ }

/-- The users whom the account has blocked, as the device has them. -/
def blockedUsers (d : Tabs) : List Uid :=
  keys.order (usersOf (d.devices.usersData account.uid).userBlock)

/-- The second service of a release has succeeded. -/
def Released : Block.Service.Request → Block.Service.Answer → Prop
  | .set e _, .written none => e.collection = .userBlocked
  | _, _ => False

instance : ∀ r a, Decidable (Released r a)
  | .set e _, .written none => inferInstanceAs (Decidable (e.collection = .userBlocked))
  | .set _ _, .written (some _) | .set _ _, .fetched _ | .get _, _ => .isFalse id

/-- The completion of the release, as in the list of blocked users. -/
def releaseCompletion (d : Tabs) : Tabs :=
  { d with footprint := { d.footprint with notices := { d.footprint.notices with
      uids := blockedUsers keys account d } } }

def blockCompletion (d : Tabs) (r : Block.Service.Request) (a : Block.Service.Answer) :
    Option Outcome :=
  (Block.Service.handle d.devices r a).map fun o =>
    let e := blockOutcome d o
    if Released r a then { e with client := releaseCompletion keys account e.client } else e

/-- What the user does, and what the rest of the program caches. -/
inductive Action
  | viewWillAppear (c : Collection)
  | blockUserRelease (row : Nat)
  | cache (usersData : UsersData)

def act (d : Tabs) : Action → Option Outcome
  | .viewWillAppear c => some (NoticeRows.viewWillAppear d c)
  | .blockUserRelease row => NoticeRows.blockUserRelease account d row
  | .cache usersData => some {
      client := { d with devices := { d.devices with
        usersData := Function.update d.devices.usersData account.uid usersData } } }

/-- What others write. -/
inductive Change
  | history (c : Collection) (document : Uid) (data : History)
  | block (c : Block.Service.Collection) (document : Uid) (data : Dict Uid Bool)

def serve (s : Server) : Request → Bool → Server × Answer
  | .history c, true => (s, .history (.ok ((s.histories.documents c).lookup account.uid)))
  | .history _, false => (s, .history (.error .fetchError))
  | .block r, ok =>
    let answer := Block.Service.serve s.blocks r ok
    ({ s with blocks := answer.1 }, .block answer.2)

def handle (d : Tabs) : Request → Answer → Option Outcome
  | .history c, .history answer => loadCompletion listing account d c answer
  | .block r, .block a => blockCompletion keys account d r a
  | _, _ => none

def env (s : Server) : Change → Server
  | .history c document data => { s with histories := s.histories.setData c document data }
  | .block c document data => { s with blocks := s.blocks.setData c document data }

def program : Program Server Tabs Action Change Request Answer Empty Unit where
  act _ d v := NoticeRows.act account d v
  serve := NoticeRows.serve account
  handle _ d r a := NoticeRows.handle listing keys account d r a
  snapshot _ _ := ()
  notify _ _ l _ := nomatch l
  env := NoticeRows.env

abbrev Network := World Server Tabs Request Answer Empty

/-- Nothing loaded yet. -/
def start (s : Server) (devices : Block.Service.Devices) : Network where
  server := s
  client := { devices := devices }

abbrev step : Network → Event Action Change → Option Network :=
  (program listing keys account).step

end Screens

/-- Each row is an entry of the history, the newest first. -/
structure Aligned (uid : String → Uid) (r : Rows) : Prop where
  length : r.notices.uids.length = r.notices.timeStamps.length
  entry : ∀ row u t, cellForRowAt r.notices row = some (u, t) →
    ∃ history, r.loaded = some history ∧ ∃ e ∈ history.entries, uid e.2 = u ∧ intOf e.1 = some t
  sorted : r.notices.timeStamps.Pairwise (· > ·)

/-- Every row can be shown. -/
def Shown (s : Notices) : Prop := ∀ row < s.uids.length, (cellForRowAt s row).isSome

theorem aligned_empty (uid : String → Uid) : Aligned uid {} where
  length := rfl
  entry _ _ _ h := nomatch h
  sorted := List.Pairwise.nil

theorem Aligned.shown {uid : String → Uid} {r : Rows} (h : Aligned uid r) : Shown r.notices := by
  intro row hrow
  have htime : row < r.notices.timeStamps.length := by
    rw [← h.length]
    exact hrow
  unfold cellForRowAt
  rw [List.getElem?_eq_getElem hrow, List.getElem?_eq_getElem htime]
  rfl

/-- The keys are numbers, and no two entries that are shown share one. -/
def Timed (history : History) : Prop :=
  (∀ key ∈ history.keys, (intOf key).isSome) ∧
    ∀ p ∈ history.entries, ∀ q ∈ history.entries, p ≠ q → secondOf p.1 = secondOf q.1 →
      historyLimit ≤ newer secondOf history (secondOf p.1) + 1

instance (history : History) : Decidable (Timed history) := inferInstanceAs (Decidable (_ ∧ _))

/-- What a load brings, if it brings a history, is timed. -/
def TimedLoad : Except ServiceError HistoryLog → Prop
  | .ok log => Timed log.history
  | .error _ => True

instance : ∀ fetched, Decidable (TimedLoad fetched)
  | .ok log => inferInstanceAs (Decidable (Timed log.history))
  | .error _ => .isTrue trivial

theorem latest_newest {listing : Listing String String} {history tmp : History}
    (h : latest listing history = some tmp) :
    tmp = newest listing secondOf historyLimit history := by
  unfold latest at h
  split at h
  · cases h
  · exact (Option.some.inj h).symm

/-- Two entries of one second are not both among the newest. -/
theorem newest_strict {listing : Listing String String} {history : History}
    (timed : Timed history) :
    (newest listing secondOf historyLimit history).entries.Pairwise fun p q =>
      secondOf q.1 < secondOf p.1 := by
  have hnodup := (newest listing secondOf historyLimit history).nodupKeys
  have hboth := newest_sorted.and (List.nodupKeys_iff_pairwise.mp hnodup)
  refine hboth.imp_of_mem fun {p q} hp hq hpq => lt_of_le_of_ne hpq.1 fun htied => ?_
  have hheld : ∀ e ∈ (newest listing secondOf historyLimit history).entries,
      e ∈ history.entries := fun e he =>
    AList.mem_lookup_iff.mp (lookup_of_newest (AList.mem_lookup_iff.mpr he))
  have hne : p ≠ q := fun heq => hpq.2 (congrArg Sigma.fst heq)
  have hmany := timed.2 p (hheld p hp) q (hheld q hq) hne htied.symm
  have hfew := newer_add_tied_le hp
  have htwo : [p, q].Subperm ((newest listing secondOf historyLimit history).entries.filter
      fun e => secondOf e.1 = secondOf p.1) := by
    refine List.subperm_of_subset (by simpa using hne) fun e he => ?_
    rcases List.mem_pair.mp he with rfl | rfl
    · exact List.mem_filter.mpr ⟨hp, decide_eq_true rfl⟩
    · exact List.mem_filter.mpr ⟨hq, decide_eq_true htied⟩
  have hlen := htwo.length_le
  rw [← List.countP_eq_length_filter] at hlen
  have hpair : [p, q].length = 2 := rfl
  omega

theorem aligned_noticesOf {listing : Listing String String} {uid : String → Uid}
    {history : History} {n : Notices} (timed : Timed history)
    (h : noticesOf listing uid history = some n) : Aligned uid ⟨n, some history⟩ := by
  obtain ⟨tmp, htmp, rfl⟩ := Option.map_eq_some_iff.mp h
  obtain rfl := latest_newest htmp
  constructor
  · show (List.map _ _).length = (List.map _ _).length
    rw [List.length_map, List.length_map]
  · intro row u t hcell
    refine ⟨history, rfl, ?_⟩
    unfold cellForRowAt at hcell
    simp only [List.getElem?_map] at hcell
    rcases he : (newest listing secondOf historyLimit history).entries[row]? with _ | e
    · rw [he] at hcell
      cases hcell
    · rw [he] at hcell
      cases hcell
      have hmem : e ∈ history.entries := AList.mem_lookup_iff.mp
        (lookup_of_newest (AList.mem_lookup_iff.mpr (List.mem_of_getElem? he)))
      obtain ⟨m, hm⟩ := Option.isSome_iff_exists.mp (timed.1 e.1 (List.mem_map_of_mem hmem))
      refine ⟨e, hmem, rfl, ?_⟩
      show intOf e.1 = some ((intOf e.1).getD 0)
      rw [hm]
      rfl
  · exact List.pairwise_map.mpr (newest_strict timed)

section Runs

variable {listing : Listing String String} {keys : KeyOrder} {account : Account}

/-- A load brings a timed history; a release ends with the blocked users being those that the
rows show already. -/
def HarmlessAnswer (keys : KeyOrder) (account : Account) (d : Tabs) :
    Option (Call Request Answer) → Prop
  | some ⟨.history _, some (.history answer)⟩ => TimedLoad (parsed account.uid answer)
  | some ⟨.block r, some (.block a)⟩ =>
    Released r a → blockedUsers keys account d = d.footprint.notices.uids
  | _ => True

instance (d : Tabs) : ∀ c, Decidable (HarmlessAnswer keys account d c)
  | some ⟨.history _, some (.history answer)⟩ =>
    inferInstanceAs (Decidable (TimedLoad (parsed account.uid answer)))
  | some ⟨.block r, some (.block a)⟩ => inferInstanceAs
    (Decidable (Released r a → blockedUsers keys account d = d.footprint.notices.uids))
  | some ⟨.history _, some (.block _)⟩ | some ⟨.block _, some (.history _)⟩
  | some ⟨.history _, none⟩ | some ⟨.block _, none⟩ | none => .isTrue trivial

def Harmless (keys : KeyOrder) (account : Account) (w : Network) : Event Action Change → Prop
  | .handle i => HarmlessAnswer keys account w.client w.inflight[i]?
  | _ => True

instance (w : Network) : ∀ ev, Decidable (Harmless keys account w ev)
  | .handle i => inferInstanceAs (Decidable (HarmlessAnswer keys account w.client w.inflight[i]?))
  | .act _ | .serve _ _ | .deliver _ _ | .env _ => .isTrue trivial

/-- Both screens are aligned. -/
def TabsAligned (d : Tabs) : Prop := ∀ c, Aligned (uidOf c) (d.rows c)

theorem aligned_loadCompletion {d : Tabs} {c : Collection}
    {answer : Except ServiceError (Option HistoryDoc)} {o : Outcome} (h : TabsAligned d)
    (timed : TimedLoad (parsed account.uid answer))
    (ho : loadCompletion listing account d c answer = some o) : TabsAligned o.client := by
  unfold loadCompletion at ho
  obtain ⟨n, hn, rfl⟩ := Option.map_eq_some_iff.mp ho
  intro c'
  show Aligned _ ((d.set c _).rows c')
  rw [Tabs.rows_set]
  split
  · subst c'
    cases hparsed : parsed account.uid answer with
    | ok log =>
      rw [hparsed] at hn timed
      exact aligned_noticesOf timed hn
    | error r =>
      rw [hparsed] at hn
      obtain rfl := Option.some.inj hn
      exact h c
  · exact h c'

/-- The second service of a release leaves the list of blocked users as it is. -/
theorem userBlock_released {c : Block.Service.Devices} {r : Block.Service.Request}
    {a : Block.Service.Answer} {o : Block.Service.Outcome} (released : Released r a)
    (ho : Block.Service.handle c r a = some o) (uid : Uid) :
    (o.client.usersData uid).userBlock = (c.usersData uid).userBlock := by
  rcases r with e | ⟨e, data⟩
  · exact released.elim
  rcases a with document | error
  · exact released.elim
  rcases error with _ | error
  swap
  · exact released.elim
  have hcollection : e.collection = .userBlocked := released
  have hcached : ((Block.Service.cached c e data).usersData uid).userBlock =
      (c.usersData uid).userBlock := by
    unfold Block.Service.cached
    rw [hcollection]
    dsimp only
    split
    · by_cases huid : uid = e.pair.uid
      · subst huid
        simp only [Function.update_self]
      · simp only [Function.update_of_ne huid]
    · rfl
  obtain rfl := Option.some.inj ho
  unfold Block.Service.writeCompletion
  dsimp only
  split
  · rw [Block.Service.screenCompletion_none]
    exact hcached
  · exact hcached

theorem aligned_blockCompletion {d : Tabs} {r : Block.Service.Request} {a : Block.Service.Answer}
    {o : Outcome} (h : TabsAligned d)
    (same : Released r a → blockedUsers keys account d = d.footprint.notices.uids)
    (ho : blockCompletion keys account d r a = some o) : TabsAligned o.client := by
  unfold blockCompletion at ho
  obtain ⟨e, he, rfl⟩ := Option.map_eq_some_iff.mp ho
  dsimp only
  split
  · rename_i hreleased
    have hlisted : blockedUsers keys account (blockOutcome d e).client =
        d.footprint.notices.uids := by
      rw [← same hreleased]
      unfold blockedUsers
      rw [← userBlock_released hreleased he account.uid]
      rfl
    intro c
    cases c with
    | footprint =>
      have hrows : (releaseCompletion keys account (blockOutcome d e).client).footprint =
          d.footprint := by
        unfold releaseCompletion
        rw [hlisted]
        rfl
      show Aligned _ (releaseCompletion keys account (blockOutcome d e).client).footprint
      rw [hrows]
      exact h .footprint
    | articleReplyLog => exact h .articleReplyLog
  · intro c
    cases c with
    | footprint => exact h .footprint
    | articleReplyLog => exact h .articleReplyLog

theorem aligned_act {d : Tabs} {v : Action} {o : Outcome} (h : TabsAligned d)
    (ho : act account d v = some o) : TabsAligned o.client := by
  have hrows : ∀ c, o.client.rows c = d.rows c := by
    cases v with
    | viewWillAppear c =>
      obtain rfl := Option.some.inj ho
      exact fun _ => rfl
    | blockUserRelease row =>
      simp only [act, blockUserRelease] at ho
      split at ho
      · split at ho
        · obtain rfl := Option.some.inj ho
          intro c
          cases c <;> rfl
        · cases ho
      · cases ho
    | cache usersData =>
      obtain rfl := Option.some.inj ho
      intro c
      cases c <;> rfl
  intro c
  rw [hrows c]
  exact h c

theorem aligned_step {w w' : Network} {ev : Event Action Change} (h : TabsAligned w.client)
    (harmless : Harmless keys account w ev) (hstep : step listing keys account w ev = some w') :
    TabsAligned w'.client := by
  have hfires := Program.step_fires hstep
  cases hfires with
  | act ho => exact aligned_act h ho
  | serve hi => exact h
  | @handle i r a o hi ho =>
    rw [World.perform_client]
    have hanswer : HarmlessAnswer keys account w.client w.inflight[i]? := harmless
    rw [hi] at hanswer
    cases r with
    | history c =>
      cases a with
      | history answer => exact aligned_loadCompletion h hanswer ho
      | block a => cases ho
    | block r =>
      cases a with
      | history answer => cases ho
      | block a => exact aligned_blockCompletion h hanswer ho
  | @deliver j ok x e hj he => exact x.listener.elim
  | env => exact h

/-- In every run whose loads bring timed histories, and whose releases end with the blocked
users being those that are shown, both screens show entry by entry what was loaded last. -/
theorem rows_aligned (s : Server) (devices : Block.Service.Devices)
    {es : List (Event Action Change)} {w : Network}
    (harmless : Along (step listing keys account) (Harmless keys account) (start s devices) es)
    (hr : run (step listing keys account) (start s devices) es = some w) :
    ∀ c, Aligned (uidOf c) (w.client.rows c) ∧ Shown (w.client.rows c).notices := by
  have haligned : TabsAligned w.client := by
    refine run_keeps (P := fun w => TabsAligned w.client) ?_ harmless hr ?_
    · intro t ev t' ht hg hstep
      exact aligned_step ht hg hstep
    · intro c
      cases c <;> exact aligned_empty _
  exact fun c => ⟨haligned c, (haligned c).shown⟩

end Runs

section Example

private def alice : Account := ⟨"alice", by decide⟩

private def orderPlain : KeyOrder where
  order := id
  perm := List.Perm.refl

/-- Bob has visited Alice, who has blocked Dave and Eve. -/
private def visited : Server where
  histories := { footprint := AList.singleton "alice" (historyData (AList.singleton "500" "bob")) }
  blocks := {
    userBlock := AList.singleton "alice" ⟨some ((AList.singleton "dave" true).insert "eve" true)⟩ }

private def loaded : List (Event Action Change) :=
  [.act (.viewWillAppear .footprint), .serve 0 true, .handle 0]

/-- Alice releases the user of the row. -/
private def released : List (Event Action Change) :=
  [.act (.blockUserRelease 0), .serve 0 true, .handle 0, .serve 0 true, .handle 0,
    .serve 0 true, .handle 0, .serve 0 true, .handle 0]

theorem release_shifts_rows :
    ¬ ∀ (s : Server) (devices : Block.Service.Devices) (es : List (Event Action Change))
      (w : Network), run (step Listing.plain orderPlain alice) (start s devices) es = some w →
      Aligned (uidOf .footprint) (w.client.rows .footprint) ∧
        Shown (w.client.rows .footprint).notices := by
  intro claim
  have hseen : (run (step Listing.plain orderPlain alice) (start visited ⟨fun _ => {}, []⟩)
      (loaded ++ released)).map (fun w =>
        (w.client.footprint.notices.uids.length, w.client.footprint.notices.timeStamps)) =
      some (2, [500]) := by decide
  obtain ⟨w, hw, hval⟩ := Option.map_eq_some_iff.mp hseen
  obtain ⟨hlen, htimes⟩ := Prod.mk.inj hval
  have hlength := (claim visited ⟨fun _ => {}, []⟩ _ w hw).1.length
  have hone : w.client.footprint.notices.timeStamps.length = 1 := by
    rw [htimes]
    rfl
  have htwo : w.client.footprint.notices.uids.length = 1 := hlength.trans hone
  omega

private def visits : History := (AList.singleton "400" "carol").insert "500" "bob"

/-- Carol and then Bob have visited Alice, who has blocked Bob. -/
private def visitedTwice : Server where
  histories := { footprint := AList.singleton "alice" (historyData visits) }
  blocks := { userBlock := AList.singleton "alice" ⟨some (AList.singleton "bob" true)⟩ }

/-- As Alice releases Bob, another device of hers blocks them both. -/
private def releasedAndBlocked : List (Event Action Change) :=
  [.act (.blockUserRelease 0), .serve 0 true, .handle 0, .serve 0 true, .handle 0,
    .serve 0 true, .handle 0, .serve 0 true,
    .act (.cache { userBlock := (AList.singleton "carol" true).insert "bob" true }), .handle 0]

theorem rows_aligned_loaded :
    ∃ w, run (step Listing.plain orderPlain alice) (start visitedTwice ⟨fun _ => {}, []⟩)
        (loaded ++ releasedAndBlocked) = some w ∧
      w.client.footprint.notices.uids = ["bob", "carol"] ∧
        w.client.footprint.notices.timeStamps = [500, 400] ∧
      ∀ c, Aligned (uidOf c) (w.client.rows c) ∧ Shown (w.client.rows c).notices := by
  have hseen : (run (step Listing.plain orderPlain alice)
      (start visitedTwice ⟨fun _ => {}, []⟩) (loaded ++ releasedAndBlocked)).map (fun w =>
        (w.client.footprint.notices.uids, w.client.footprint.notices.timeStamps)) =
      some (["bob", "carol"], [500, 400]) := by decide
  obtain ⟨w, hw, hval⟩ := Option.map_eq_some_iff.mp hseen
  obtain ⟨huids, htimes⟩ := Prod.mk.inj hval
  exact ⟨w, hw, huids, htimes, rows_aligned visitedTwice ⟨fun _ => {}, []⟩ (by decide) hw⟩

end Example

end PlateChat.Screen.NoticeRows
