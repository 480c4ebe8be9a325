/- PlateChat/History/Overwrite
   digest: What a recorded visit leaves of the stored history when its fetch has failed. -/

import PlateChat.History.Service

set_option autoImplicit false
set_option relaxedAutoImplicit false

/-!
A failed fetch is taken for an empty history, and the write that follows replaces the
document. Only the write touches the store: it leaves every entry in place exactly when
it fails itself, or when there was nothing else to lose.
-/

namespace PlateChat.History.Overwrite

open PlateChat.Foundation.Dictionary PlateChat.Foundation.Newest PlateChat.Foundation.Run
open PlateChat.Foundation.EventLoop
open PlateChat.Model.Members PlateChat.Model.Histories PlateChat.History.Service

variable {Day : Type} [DecidableEq Day] {cal : Calendar Day} {listing : Listing String String}

/-- Every entry that `s` stores for the target of a call is still in `s'`. -/
def Keeps (v : Visit) (s s' : Store) : Prop :=
  ∀ key value, s.entry v key = some value → s'.entry v key = some value

private theorem carried_empty (v : Visit) (now : Timestamp) : carried cal v now ∅ = ∅ := by
  unfold carried
  cases v.record <;> rfl

theorem dataOf_empty (cal : Calendar Day) (listing : Listing String String) (v : Visit)
    (clock : Clock) :
    ∃ data, dataOf cal listing v clock ∅ = some data ∧
      ∀ key, data.lookup key = if key = decimal clock.later then some v.value else none := by
  have hnew : newHistory cal v clock ∅ = AList.singleton (decimal clock.later) v.value := by
    unfold newHistory
    rw [carried_empty, AList.insert_empty]
  have hlen : (newHistory cal v clock ∅).entries.length = 1 := by
    rw [hnew, AList.singleton_entries]
    rfl
  refine ⟨newest listing secondOf historyLimit (newHistory cal v clock ∅), ?_, fun key => ?_⟩
  · unfold dataOf latest
    rw [if_neg]
    rintro ⟨htwo, _⟩
    omega
  · have hshort : (newHistory cal v clock ∅).entries.length ≤ historyLimit := by
      rw [hlen]
      decide
    rw [lookup_newest_of_length_le hshort, hnew, lookup_singleton]

theorem fetchCompletion_failed (cal : Calendar Day) (listing : Listing String String) {v : Visit}
    {answer : Except ServiceError (Option HistoryDoc)} {e : ServiceError}
    (failed : parsed v.otherUid answer = .error e) (c : Devices) :
    ∃ data o, fetchCompletion cal listing c v answer = some o ∧
      o.requests = [.set v ∅ c.clock data] ∧
      ∀ key, data.lookup key = if key = decimal c.clock.later then some v.value else none := by
  obtain ⟨data, hdata, hlookup⟩ := dataOf_empty cal listing v c.clock
  have hfetched : fetchedHistory (parsed v.otherUid answer) = ∅ := by
    rw [failed]
    rfl
  refine ⟨data, sendWrite c v ∅ data, ?_, rfl, hlookup⟩
  simp only [fetchCompletion, hfetched, hdata, Option.map_some]

/-- After a failed fetch a call keeps every entry exactly when its write fails, or all that
is stored is the entry it writes. `s` is the store that the write meets. -/
theorem failed_fetch_keeps_iff {v : Visit} {answer : Except ServiceError (Option HistoryDoc)}
    {e : ServiceError} (failed : parsed v.otherUid answer = .error e) (c : Devices) (s : Store)
    (ok : Bool) :
    ∃ data o, fetchCompletion cal listing c v answer = some o ∧
      o.requests = [.set v ∅ c.clock data] ∧
      (Keeps v s (serve s (.set v ∅ c.clock data) ok).1 ↔
        ok = false ∨ ∀ key value, s.entry v key = some value →
          key = decimal c.clock.later ∧ value = .text v.value) := by
  obtain ⟨data, o, ho, hreq, hlookup⟩ :=
    fetchCompletion_failed cal listing failed c
  refine ⟨data, o, ho, hreq, ?_⟩
  cases ok with
  | false =>
    refine iff_of_true ?_ (.inl rfl)
    intro key value hstored
    exact hstored
  | true =>
    have hafter : ∀ key, (s.setData v.collection v.otherUid data).entry v key =
        if key = decimal c.clock.later then some (.text v.value) else none := by
      intro key
      unfold Store.entry
      rw [target_setData, if_pos ⟨rfl, rfl⟩, entryOf_historyData, hlookup]
      split <;> rfl
    constructor
    · intro hkeeps
      refine .inr fun key value hstored => ?_
      have hkept : (s.setData v.collection v.otherUid data).entry v key = some value :=
        hkeeps key value hstored
      rw [hafter] at hkept
      split at hkept
      · exact ⟨‹_›, (Option.some.inj hkept).symm⟩
      · cases hkept
    · rintro (hok | hown) key value hstored
      · cases hok
      · obtain ⟨rfl, rfl⟩ := hown key value hstored
        show (s.setData v.collection v.otherUid data).entry v _ = _
        rw [hafter, if_pos rfl]

section Example

private def morning : Clock := ⟨⟨86410, by decide, by decide⟩, ⟨86411, by decide, by decide⟩⟩

private def visited : Store where
  footprint := AList.singleton "carol" (historyData (AList.singleton "500" "bob"))

private def alice : Visit := ⟨.footprint, "alice", "carol"⟩

/-- Alice opens Carol's profile, the fetch fails and the write succeeds: Bob's visit is gone. -/
theorem failed_fetch_loses_visits :
    visited.entry alice "500" = some (.text "bob") ∧
      ((run (step .utc Listing.plain) (start visited morning)
        [.act (.addFootprint (some "alice") "carol"), .serve 0 false, .handle 0, .serve 0 true,
          .handle 0]).map fun w => (w.server.entry alice "500", w.inflight.length)) =
        some (none, 0) := by
  decide

theorem failed_fetch_keeps_iff_alice :
    ∃ data o, fetchCompletion Calendar.utc Listing.plain ⟨morning, [], []⟩ alice (.error .fetchError) =
        some o ∧
      o.requests = [.set alice ∅ morning data] ∧
      (Keeps alice visited (serve visited (.set alice ∅ morning data) true).1 ↔
        true = false ∨ ∀ key value, visited.entry alice key = some value →
          key = decimal morning.later ∧ value = .text alice.value) :=
  failed_fetch_keeps_iff (e := .fetchError) rfl ⟨morning, [], []⟩ visited true

end Example

end PlateChat.History.Overwrite
