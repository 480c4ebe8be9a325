/- PlateChat/History/Exact
   digest: One undisturbed call against the fifty newest of the old entries and the new one. -/

import PlateChat.History.Service

set_option autoImplicit false
set_option relaxedAutoImplicit false

/-!
What a history should hold is said over entries that may share a second; what is stored
has one entry for each second. The two agree unless an entry that should stay has the
second of the call.
-/

namespace PlateChat.History.Exact

open PlateChat.Foundation.Dictionary PlateChat.Foundation.Newest PlateChat.Foundation.Run
open PlateChat.Foundation.EventLoop
open PlateChat.Model.Members PlateChat.Model.Histories PlateChat.History.Service

/-- A second and what happened in it. -/
abbrev Entry := Int × String

def entryAt (e : Sigma fun _ : String => String) : Entry := (secondOf e.1, e.2)

/-- The stored entries. -/
def entries (history : History) : Multiset Entry := (history.entries : Multiset _).map entryAt

/-- Every key is a second in decimal, and none is later than `t`. -/
def CanonicalUpTo (t : Timestamp) (history : History) : Prop :=
  ∀ key ∈ history.keys, ∃ n : Int, key = n.repr ∧ -9223372036854775808 ≤ n ∧ n ≤ t.seconds

/-- The history that a call for the target of `v` finds; a document that was never written
holds none. -/
def Stored (s : Store) (v : Visit) (history : History) : Prop :=
  s.target v = none ∧ history = ∅ ∨
    ∃ document, s.target v = some document ∧
      HistoryLog.ofDocument v.otherUid document = .ok ⟨v.otherUid, history⟩

section Specification

variable {Day : Type} [DecidableEq Day] (cal : Calendar Day)

instance (v : Visit) (now : Timestamp) (key value : String) :
    Decidable (Replaced cal v now key value) :=
  inferInstanceAs (Decidable (_ ∧ _ ∧ _))

/-- The old entries, those of the visitor on the day of `t` left out. -/
def remaining (v : Visit) (t : Timestamp) (history : History) : Multiset Entry :=
  ((history.entries.filter fun e => ¬ Replaced cal v t e.1 e.2) : Multiset _).map entryAt

def newEntry (v : Visit) (t : Timestamp) : Entry := (t.seconds, v.value)

/-- The stored history is what a call at `t` should make of the old one. -/
structure Specified (v : Visit) (t : Timestamp) (old data : History) : Prop where
  newest : IsNewest Prod.fst historyLimit (newEntry v t ::ₘ remaining cal v t old) (entries data)
  displaced : ∀ key value, old.lookup key = some value → ¬ Replaced cal v t key value →
    data.lookup key = some value ∨ historyLimit ≤ newer secondOf data (secondOf key)

/-- No entry that should stay has the second of the call. -/
def Free (v : Visit) (t : Timestamp) (history : History) : Prop :=
  match v.record with
  | .footprint => ∀ value, history.lookup (decimal t) = some value → value = v.uid
  | .reply _ => history.lookup (decimal t) = none

end Specification

section Computed

variable {Day : Type} [DecidableEq Day] {cal : Calendar Day} {listing : Listing String String}

theorem intOf_canonical {t : Timestamp} {n : Int} (lower : -9223372036854775808 ≤ n)
    (upper : n ≤ t.seconds) : intOf n.repr = some n := by
  have hlast := t.upper
  exact intOf_repr lower (by omega)

theorem CanonicalUpTo.intOf {t : Timestamp} {history : History} (h : CanonicalUpTo t history)
    {key : String} (hkey : key ∈ history) :
    ∃ n : Int, key = n.repr ∧ intOf key = some n ∧ n ≤ t.seconds := by
  obtain ⟨n, rfl, hlower, hupper⟩ := h key (AList.mem_keys.mp hkey)
  exact ⟨n, rfl, intOf_canonical hlower hupper, hupper⟩

theorem CanonicalUpTo.injective {t : Timestamp} {history : History} (h : CanonicalUpTo t history)
    {key other : String} (hkey : key ∈ history) (hother : other ∈ history)
    (heq : secondOf key = secondOf other) : key = other := by
  obtain ⟨n, rfl, hn, _⟩ := h.intOf hkey
  obtain ⟨m, rfl, hm, _⟩ := h.intOf hother
  rw [secondOf, secondOf, hn, hm] at heq
  have hsame : n = m := heq
  rw [hsame]

theorem carried_canonical {v : Visit} {t : Timestamp} {history : History}
    (h : CanonicalUpTo t history) : CanonicalUpTo t (carried cal v t history) := by
  intro key hkey
  obtain ⟨value, hvalue⟩ := Option.isSome_iff_exists.mp
    (AList.lookup_isSome.mpr (AList.mem_keys.mpr hkey))
  have hold := (history_of_carried hvalue).1
  exact h key (AList.mem_keys.mp (AList.lookup_isSome.mp (by rw [hold]; rfl)))

theorem newHistory_canonical {v : Visit} {t : Timestamp} {history : History}
    (h : CanonicalUpTo t history) : CanonicalUpTo t (newHistory cal v ⟨t, t⟩ history) := by
  intro key hkey
  rcases (AList.mem_insert _).mp (AList.mem_keys.mpr hkey) with rfl | hcarried
  · have hlower := t.lower
    exact ⟨t.seconds, rfl, by omega, le_rfl⟩
  · exact carried_canonical h key (AList.mem_keys.mp hcarried)

theorem dataOf_canonical {v : Visit} {t : Timestamp} {history : History}
    (h : CanonicalUpTo t history) :
    dataOf cal listing v ⟨t, t⟩ history =
      some (newest listing secondOf historyLimit (newHistory cal v ⟨t, t⟩ history)) := by
  unfold dataOf latest
  rw [if_neg]
  rintro ⟨_, key, hkey, hnone⟩
  obtain ⟨n, _, hn, _⟩ := (newHistory_canonical h).intOf (AList.mem_keys.mpr hkey)
  rw [hn] at hnone
  cases hnone

/-- The day filter leaves out the visitor's entries of the day and nothing else. -/
theorem entries_carried {v : Visit} {t : Timestamp} {history : History}
    (h : CanonicalUpTo t history) :
    entries (carried cal v t history) = remaining cal v t history := by
  unfold entries remaining carried
  cases hr : v.record with
  | reply articleKey =>
    dsimp only
    rw [List.filter_eq_self.mpr]
    intro e _
    simp [Replaced, hr]
  | footprint =>
    refine congrArg (fun l : List (Sigma fun _ : String => String) =>
      (l : Multiset (Sigma fun _ : String => String)).map entryAt) ?_
    apply List.filter_congr
    intro e he
    have hkey : e.1 ∈ history.keys := List.mem_map_of_mem he
    obtain ⟨n, _, hn, _⟩ := h.intOf hkey
    obtain ⟨day, hread, _⟩ := cal.read_int e.1 n hn
    simp [Replaced, hr, hread, imp_iff_not_or]

theorem free_iff {v : Visit} {t : Timestamp} {history : History} :
    Free v t history ↔ (carried cal v t history).lookup (decimal t) = none := by
  have hread := cal.read_decimal t
  unfold Free
  constructor
  · intro hfree
    refine Option.eq_none_iff_forall_ne_some.mpr fun value hvalue => ?_
    obtain ⟨hold, hstays⟩ := history_of_carried hvalue
    cases hr : v.record with
    | footprint =>
      rw [hr] at hfree
      exact hstays ⟨hr, hfree value hold, hread⟩
    | reply articleKey =>
      rw [hr] at hfree
      rw [hold] at hfree
      cases hfree
  · intro hnone
    have hreplaced : ∀ value, history.lookup (decimal t) = some value →
        Replaced cal v t (decimal t) value := by
      intro value hvalue
      by_contra hstays
      have hkept : (carried cal v t history).lookup (decimal t) = some value :=
        carried_of_history hvalue (by rw [intOf_decimal]; rfl) hstays
      rw [hnone] at hkept
      cases hkept
    cases hr : v.record with
    | footprint => exact fun value hvalue => (hreplaced value hvalue).2.1
    | reply articleKey =>
      refine Option.eq_none_iff_forall_ne_some.mpr fun value hvalue => ?_
      have hfootprint := (hreplaced value hvalue).1
      rw [hr] at hfootprint
      cases hfootprint

theorem entryAt_own (v : Visit) (t : Timestamp) : entryAt ⟨decimal t, v.value⟩ = newEntry v t := by
  unfold entryAt newEntry
  rw [secondOf_decimal]

theorem entries_newHistory {v : Visit} {t : Timestamp} {history : History}
    (h : CanonicalUpTo t history)
    (free : (carried cal v t history).lookup (decimal t) = none) :
    entries (newHistory cal v ⟨t, t⟩ history) = newEntry v t ::ₘ remaining cal v t history := by
  rw [← entries_carried h, entries, newHistory,
    AList.entries_insert_of_notMem (AList.lookup_eq_none.mp free), ← Multiset.cons_coe,
    Multiset.map_cons, entryAt_own, entries]

theorem isNewest_entries (history : History) :
    IsNewest Prod.fst historyLimit (entries history)
      (entries (newest listing secondOf historyLimit history)) :=
  (isNewest_newest listing secondOf historyLimit history).map entryAt fun _ => rfl

theorem countP_second_le {t : Timestamp} {history : History} (h : CanonicalUpTo t history)
    (m : Int) : (entries history).countP (fun e => e.1 = m) ≤ 1 := by
  have hkeys : (entries history).countP (fun e => e.1 = m) =
      history.keys.countP fun key => secondOf key = m := by
    rw [entries, Multiset.countP_map, ← Multiset.countP_eq_card_filter, Multiset.coe_countP,
      AList.keys, List.keys, List.countP_map]
    rfl
  rw [hkeys]
  by_contra hmany
  obtain ⟨key, hkey, hm⟩ := List.countP_pos_iff.mp (by omega :
    0 < history.keys.countP fun key => secondOf key = m)
  have hcount : (history.keys.countP fun key => secondOf key = m) ≤ history.keys.count key := by
    refine List.countP_mono_left fun other hother hsame => ?_
    have heq : secondOf other = secondOf key :=
      (of_decide_eq_true hsame).trans (of_decide_eq_true hm).symm
    exact beq_iff_eq.mpr
      (h.injective (AList.mem_keys.mpr hother) (AList.mem_keys.mpr hkey) heq)
  have hnodup := List.nodup_iff_count_le_one.mp history.nodupKeys key
  have hone : history.keys.count key ≤ 1 := hnodup
  omega

theorem data_canonical {t : Timestamp} {history : History} (h : CanonicalUpTo t history) :
    CanonicalUpTo t (newest listing secondOf historyLimit history) := by
  intro key hkey
  obtain ⟨value, hvalue⟩ := Option.isSome_iff_exists.mp
    (AList.lookup_isSome.mpr (AList.mem_keys.mpr hkey))
  have hold := lookup_of_newest hvalue
  exact h key (AList.mem_keys.mp (AList.lookup_isSome.mp (by rw [hold]; rfl)))

/-- Two entries of the second of the call cannot both be among what is stored. -/
theorem free_of_newest {v : Visit} {t : Timestamp} {history data : History}
    (h : CanonicalUpTo t history) (hdata : CanonicalUpTo t data)
    (hnewest : IsNewest Prod.fst historyLimit (newEntry v t ::ₘ remaining cal v t history)
      (entries data)) :
    (carried cal v t history).lookup (decimal t) = none := by
  refine Option.eq_none_iff_forall_ne_some.mpr fun value hvalue => ?_
  have hmem : entryAt ⟨decimal t, value⟩ ∈ remaining cal v t history := by
    rw [← entries_carried h]
    exact Multiset.mem_map_of_mem _ (AList.mem_lookup_iff.mp hvalue)
  obtain ⟨rest, hrest⟩ := Multiset.exists_cons_of_mem hmem
  have hone := countP_second_le hdata t.seconds
  have htwo : 2 ≤ (newEntry v t ::ₘ remaining cal v t history).countP
      fun e => e.1 = t.seconds := by
    have hold : (entryAt ⟨decimal t, value⟩).1 = t.seconds := secondOf_decimal t
    have hown : (newEntry v t).1 = t.seconds := rfl
    rw [hrest, Multiset.countP_cons, Multiset.countP_cons, if_pos hold, if_pos hown]
    omega
  -- one of the two is dropped, so what is kept is of that second too, and there is one of it
  have hlatest := hnewest.le_of_countP_lt (lt_of_le_of_lt hone htwo)
  have hall : (entries data).countP (fun e => e.1 = t.seconds) = (entries data).card := by
    refine Multiset.countP_eq_card.mpr fun e he => le_antisymm ?_ (hlatest e he)
    obtain ⟨p, hp, rfl⟩ := Multiset.mem_map.mp he
    have hkey : p.1 ∈ data.keys := List.mem_map_of_mem hp
    obtain ⟨n, _, hn, hle⟩ := hdata.intOf hkey
    rw [entryAt, secondOf, hn]
    exact hle
  have hcard := hnewest.card
  have htotal := Multiset.countP_le_card (fun e : Entry => e.1 = t.seconds)
    (newEntry v t ::ₘ remaining cal v t history)
  have hlimit : historyLimit = 50 := rfl
  omega

/-- What a call computes is exact when nothing that stays has its second, and only then. -/
theorem specified_data_iff {v : Visit} {t : Timestamp} {history : History}
    (h : CanonicalUpTo t history) :
    Specified cal v t history
      (newest listing secondOf historyLimit (newHistory cal v ⟨t, t⟩ history)) ↔
        Free v t history := by
  have hnew : CanonicalUpTo t (newHistory cal v ⟨t, t⟩ history) := newHistory_canonical h
  constructor
  · intro hspec
    exact free_iff.mpr (free_of_newest h (data_canonical hnew) hspec.newest)
  · intro hfree
    have hnone : (carried cal v t history).lookup (decimal t) = none := free_iff.mp hfree
    constructor
    · rw [← entries_newHistory h hnone]
      exact isNewest_entries _
    · intro key value hvalue hstays
      have hmem : key ∈ history := AList.lookup_isSome.mp (by rw [hvalue]; rfl)
      obtain ⟨n, _, hn, _⟩ := h.intOf hmem
      have hcarried : (carried cal v t history).lookup key = some value :=
        carried_of_history hvalue (by rw [hn]; rfl) hstays
      have hne : key ≠ decimal t := by
        rintro rfl
        rw [hnone] at hcarried
        cases hcarried
      have hheld : (newHistory cal v ⟨t, t⟩ history).lookup key = some value := by
        rw [newHistory_other hne]
        exact hcarried
      refine kept_or_newer hheld fun other hother hsame => ?_
      have hkey : key ∈ newHistory cal v ⟨t, t⟩ history :=
        AList.lookup_isSome.mp (by rw [hheld]; rfl)
      exact hnew.injective hother hkey hsame

end Computed

section OneCall

/-- The call that `v` is one of. -/
def callOf (v : Visit) : Action :=
  match v.record with
  | .footprint => .addFootprint (some v.uid) v.otherUid
  | .reply articleKey => .addArticleReplyLog (some v.uid) v.otherUid articleKey

/-- A call whose fetch and write succeed, with nothing in between. -/
def oneCall (v : Visit) : List (Event Action Empty) :=
  [.act (callOf v), .serve 0 true, .handle 0, .serve 0 true, .handle 0]

variable {Day : Type} [DecidableEq Day] (cal : Calendar Day) (listing : Listing String String)

theorem act_callOf {v : Visit} (other : v.otherUid ≠ v.uid) (c : Devices) :
    act c (callOf v) = beginVisit c v := by
  obtain ⟨record, uid, otherUid⟩ := v
  cases record with
  | footprint => exact if_neg other
  | reply articleKey => exact if_neg other

theorem storedHistory_of_stored {s : Store} {v : Visit} {history : History}
    (h : Stored s v history) : fetchedHistory (parsed v.otherUid (.ok (s.target v))) = history := by
  rcases h with ⟨hnone, rfl⟩ | ⟨document, hdocument, hparsed⟩
  · rw [hnone]
    rfl
  · rw [hdocument, parsed, hparsed]
    rfl

theorem run_oneCall {v : Visit} (other : v.otherUid ≠ v.uid) {t : Timestamp} {s : Store}
    {history : History} (stored : Stored s v history) (canonical : CanonicalUpTo t history) :
    ∃ w, run (step cal listing) (start s ⟨t, t⟩) (oneCall v) = some w ∧ w.inflight = [] ∧
      w.server.target v = some (historyData
        (newest listing secondOf historyLimit (newHistory cal v ⟨t, t⟩ history))) := by
  let data := newest listing secondOf historyLimit (newHistory cal v ⟨t, t⟩ history)
  let begun : Devices := ⟨⟨t, t⟩, [v], []⟩
  let sent : Outcome := sendWrite begun v history data
  have hact : step cal listing (start s ⟨t, t⟩) (.act (callOf v)) =
      some ⟨s, begun, [⟨.get v, none⟩], []⟩ :=
    congrArg (fun o => some ((start s ⟨t, t⟩).perform o)) (act_callOf other _)
  have hfetched : fetchCompletion cal listing begun v (.ok (s.target v)) = some sent := by
    unfold fetchCompletion
    dsimp only
    rw [storedHistory_of_stored stored, dataOf_canonical canonical]
    rfl
  have hsent : step cal listing ⟨s, begun, [⟨.get v, some (.fetched (.ok (s.target v)))⟩], []⟩
      (.handle 0) = some ⟨s, sent.client, [⟨.set v history ⟨t, t⟩ data, none⟩], []⟩ :=
    congrArg (Option.map (World.perform ⟨s, begun, [], []⟩)) hfetched
  refine ⟨⟨s.setData v.collection v.otherUid data, sent.client, [], []⟩, ?_, rfl, ?_⟩
  · exact run_cons.mpr ⟨_, hact, run_cons.mpr ⟨_, rfl, run_cons.mpr ⟨_, hsent, rfl⟩⟩⟩
  · rw [target_setData, if_pos ⟨rfl, rfl⟩]

/-- A call at `t` with nothing in between makes of the stored history what it should,
exactly when no entry that should stay has the second `t`. -/
theorem specified_iff {v : Visit} (other : v.otherUid ≠ v.uid) {t : Timestamp} {s : Store}
    {history : History} (stored : Stored s v history) (canonical : CanonicalUpTo t history) :
    ∃ w data, run (step cal listing) (start s ⟨t, t⟩) (oneCall v) = some w ∧ w.inflight = [] ∧
      w.server.target v = some (historyData data) ∧
      (Specified cal v t history data ↔ Free v t history) := by
  obtain ⟨w, hw, hidle, htarget⟩ := run_oneCall cal listing other stored canonical
  exact ⟨w, _, hw, hidle, htarget, specified_data_iff canonical⟩

end OneCall

section Example

private def ten : Timestamp := ⟨36000, by decide, by decide⟩

private def ofBob (key : String) : Store where
  footprint := AList.singleton "carol" (historyData (AList.singleton key "bob"))

private def ofAlice : Visit := ⟨.footprint, "alice", "carol"⟩

private theorem stored_ofBob (key : String) :
    Stored (ofBob key) ofAlice (AList.singleton key "bob") :=
  .inr ⟨_, rfl, ofDocument_historyData _ _⟩

private theorem canonical_ofBob {key : String} {n : Int} (hkey : key = n.repr)
    (lower : -9223372036854775808 ≤ n) (upper : n ≤ ten.seconds) :
    CanonicalUpTo ten (AList.singleton key "bob") := by
  intro other hother
  rw [List.mem_singleton.mp hother]
  exact ⟨n, hkey, lower, upper⟩

/-- Alice opens Carol's profile in the second in which Bob did: his entry is gone. -/
theorem same_second_loses_entry :
    ¬ ∀ (v : Visit) (t : Timestamp) (s : Store) (history : History), v.otherUid ≠ v.uid →
      Stored s v history → CanonicalUpTo t history →
      ∃ w data, run (step .utc Listing.plain) (start s ⟨t, t⟩) (oneCall v) = some w ∧
        w.server.target v = some (historyData data) ∧ Specified .utc v t history data := by
  intro claim
  obtain ⟨w, data, hw, htarget, hspec⟩ := claim ofAlice ten (ofBob "36000")
    (AList.singleton "36000" "bob") (by decide) (stored_ofBob _)
    (canonical_ofBob (n := 36000) (by decide) (by decide) (by decide))
  have hseen : (run (step .utc Listing.plain) (start (ofBob "36000") ⟨ten, ten⟩)
      (oneCall ofAlice)).map (fun w => (w.server.entry ofAlice "36000",
        (w.server.target ofAlice).map fun d => d.history.map fun h => h.entries.length)) =
      some (some (.text "alice"), some (some 1)) := by decide
  rw [hw, Option.map_some, Option.some_inj, Prod.mk.injEq, Store.entry, htarget,
    entryOf_historyData] at hseen
  obtain ⟨hentry, hlength⟩ := hseen
  rcases hspec.displaced "36000" "bob" rfl (by decide) with hkept | hnewer
  · rw [hkept] at hentry
    revert hentry
    decide
  · rw [newer_entries] at hnewer
    have hcount := List.countP_le_length (l := data.entries)
      (p := fun e => decide (secondOf "36000" < secondOf e.1))
    have hone : data.entries.length = 1 := by
      have hmap : (mapValues Value.text data).entries.length = 1 :=
        Option.some.inj (Option.some.inj hlength)
      rwa [mapValues, List.length_map] at hmap
    have hlimit : historyLimit = 50 := rfl
    omega

theorem specified_iff_alice :
    ∃ w data, run (step .utc Listing.plain) (start (ofBob "500") ⟨ten, ten⟩) (oneCall ofAlice) =
        some w ∧ w.inflight = [] ∧ w.server.target ofAlice = some (historyData data) ∧
      (Specified .utc ofAlice ten (AList.singleton "500" "bob") data ↔
        Free ofAlice ten (AList.singleton "500" "bob")) :=
  specified_iff .utc Listing.plain (by decide) (stored_ofBob "500")
    (canonical_ofBob (n := 500) (by decide) (by decide) (by decide))

end Example

end PlateChat.History.Exact
