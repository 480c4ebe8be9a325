/- PlateChat/Screen/Sorting
   digest: Where the sorts of the histories trap, in the two services and on the two screens. -/

import PlateChat.History.Exact
import PlateChat.Screen.NoticeRows

set_option autoImplicit false
set_option relaxedAutoImplicit false

/-!
A history parses whatever its keys are; each of its four sorts reads every key as a number
and traps on one that is none. A footprint is looked through before, but with a reading
that takes more than whole numbers.
-/

namespace PlateChat.Screen.Sorting

open PlateChat.Foundation.Dictionary PlateChat.Foundation.Newest PlateChat.Foundation.Run
open PlateChat.Foundation.EventLoop PlateChat.Model.Members PlateChat.Model.Histories
open PlateChat.History.Service
open PlateChat.Screen.Lists (KeyOrder)
open PlateChat.Screen.Blocking (Sortable latest_eq_some noticesOf notices)
open PlateChat.Screen.NoticeRows (Account Tabs)

/-- `Int` reads each key that a call takes over. Of a footprint it takes those that
`TimeInterval` reads, less the visitor's own of the day. -/
def Addable {Day : Type} (cal : Calendar Day) (v : Visit) (now : Timestamp)
    (history : History) : Prop :=
  match v.record with
  | .footprint => ∀ key value day, history.lookup key = some value → cal.read key = some day →
      value ≠ v.uid ∨ day ≠ cal.ymd now → (intOf key).isSome
  | .reply _ => ∀ key ∈ history, (intOf key).isSome

theorem addable_empty {Day : Type} {cal : Calendar Day} {v : Visit} {now : Timestamp} :
    Addable cal v now ∅ := by
  unfold Addable
  cases v.record with
  | reply articleKey => exact fun key hkey => absurd hkey (AList.notMem_empty key)
  | footprint =>
    intro key value day hheld
    rw [AList.lookup_empty] at hheld
    cases hheld

section Computed

variable {Day : Type} [DecidableEq Day] {cal : Calendar Day} {listing : Listing String String}

theorem addable_iff_carried {v : Visit} {now : Timestamp} {history : History} :
    Addable cal v now history ↔ ∀ key ∈ carried cal v now history, (intOf key).isSome := by
  unfold Addable carried
  cases v.record with
  | reply articleKey => exact Iff.rfl
  | footprint =>
    constructor
    · intro h key hkey
      obtain ⟨value, hvalue⟩ := Option.isSome_iff_exists.mp (AList.lookup_isSome.mpr hkey)
      simp only [withoutToday, lookup_keep, Option.filter_eq_some_iff] at hvalue
      obtain ⟨hheld, htaken⟩ := hvalue
      cases hread : cal.read key with
      | none =>
        rw [hread] at htaken
        cases htaken
      | some day =>
        rw [hread] at htaken
        exact h key value day hheld hread (of_decide_eq_true htaken)
    · intro h key value day hheld hread htaken
      refine h key (AList.lookup_isSome.mp (Option.isSome_iff_exists.mpr ⟨value, ?_⟩))
      simp only [withoutToday, lookup_keep, Option.filter_eq_some_iff, hread]
      exact ⟨hheld, decide_eq_true htaken⟩

variable (listing) in
theorem dataOf_isSome_iff {v : Visit} {clock : Clock} {history : History} :
    (dataOf cal listing v clock history).isSome ↔ Addable cal v clock.now history := by
  rw [addable_iff_carried]
  constructor
  · intro h key hkey
    obtain ⟨data, hdata⟩ := Option.isSome_iff_exists.mp h
    exact (dataOf_spec hdata).2 key ((AList.mem_insert _).mpr (.inr hkey))
  · intro h
    refine Option.isSome_iff_exists.mpr ⟨_, latest_eq_some.mpr ⟨.inr fun key hkey => ?_, rfl⟩⟩
    rcases (AList.mem_insert _).mp (AList.mem_keys.mpr hkey) with rfl | hcarried
    · rw [intOf_decimal]
      rfl
    · exact h key hcarried

theorem noticesOf_isSome_iff {uid : String → Uid} {history : History} :
    (noticesOf listing uid history).isSome ↔ Sortable history := by
  unfold noticesOf
  rw [Option.isSome_map, Option.isSome_iff_exists]
  simp only [latest_eq_some]
  exact ⟨fun ⟨_, h, _⟩ => h, fun h => ⟨_, h, rfl⟩⟩

theorem fetched_cases (key : Uid) (answer : Except ServiceError (Option HistoryDoc)) :
    (∃ document log, answer = .ok (some document) ∧ HistoryLog.ofDocument key document = .ok log ∧
      parsed key answer = .ok log) ∨
    (∃ r, parsed key answer = .error r) ∧
      ∀ document log, answer = .ok (some document) →
        HistoryLog.ofDocument key document ≠ .ok log := by
  rcases answer with r | _ | document
  · exact .inr ⟨⟨_, rfl⟩, fun _ _ h => by cases h⟩
  · exact .inr ⟨⟨_, rfl⟩, fun _ _ h => by cases h⟩
  · cases hparsed : HistoryLog.ofDocument key document with
    | ok log => exact .inl ⟨document, log, rfl, hparsed, by rw [parsed, hparsed]⟩
    | error r =>
      refine .inr ⟨⟨.fetchError, by rw [parsed, hparsed]⟩, ?_⟩
      rintro _ log ⟨rfl⟩ hlog
      rw [hparsed] at hlog
      cases hlog

end Computed

section Writers

variable {Day : Type} [DecidableEq Day] {cal : Calendar Day} {listing : Listing String String}

/-- In every run of the calls, the steps that trap are the ends of those fetches whose
history cannot be sorted. -/
theorem writers_trap_iff {s : Store} {clock : Clock} {evs : List (Event Action Empty)}
    {w : Network} (h : run (step cal listing) (start s clock) evs = some w)
    (ev : Event Action Empty) :
    (program cal listing).Traps w ev ↔ ∃ i v document log, ev = .handle i ∧
      w.inflight[i]? = some ⟨.get v, some (.fetched (.ok (some document)))⟩ ∧
      HistoryLog.ofDocument v.otherUid document = .ok log ∧
      ¬ Addable cal v w.client.clock.now log.history := by
  have hfetch : ∀ v answer, fetchCompletion cal listing w.client v answer = none ↔
      ¬ Addable cal v w.client.clock.now (fetchedHistory (parsed v.otherUid answer)) := by
    intro v answer
    unfold fetchCompletion
    dsimp only
    rw [Option.map_eq_none_iff, ← dataOf_isSome_iff listing,
      Option.not_isSome_iff_eq_none]
  constructor
  · intro htraps
    obtain ⟨i, r, s', ok, rfl, hi, hnone⟩ := Program.handled_of_traps rfl h
      (fun v _ hact => nomatch hact) htraps
    cases r with
    | set v fetched clock data => cases ok <;> cases hnone
    | get v =>
      obtain ⟨answer, hanswer⟩ : ∃ answer, (serve s' (.get v) ok).2 = .fetched answer := by
        cases ok <;> exact ⟨_, rfl⟩
      rw [show ((program cal listing).serve s' (.get v) ok).2 = .fetched answer from hanswer]
        at hi hnone
      have hbad := (hfetch v answer).mp hnone
      rcases fetched_cases v.otherUid answer with
        ⟨document, log, rfl, hlog, hparsed⟩ | ⟨⟨r, hparsed⟩, _⟩
      · rw [hparsed] at hbad
        exact ⟨i, v, document, log, rfl, hi, hlog, hbad⟩
      · rw [hparsed] at hbad
        exact absurd addable_empty hbad
  · rintro ⟨i, v, document, log, rfl, hi, hlog, hbad⟩
    refine Program.traps_handle.mpr ⟨_, _, hi, (hfetch v _).mpr ?_⟩
    rw [parsed, hlog]
    exact hbad

end Writers

section Readers

variable {listing : Listing String String} {keys : KeyOrder} {account : Account}

/-- In every run of the two screens, but for a tap on a row, the steps that trap are the ends
of those loads whose history cannot be sorted. -/
theorem readers_trap_iff {s : NoticeRows.Server} {devices : Block.Service.Devices}
    {evs : List (Event NoticeRows.Action NoticeRows.Change)} {w : NoticeRows.Network}
    (h : run (NoticeRows.step listing keys account) (NoticeRows.start s devices) evs = some w)
    (ev : Event NoticeRows.Action NoticeRows.Change)
    (other : ∀ row, ev ≠ .act (.blockUserRelease row)) :
    (NoticeRows.program listing keys account).Traps w ev ↔ ∃ i c document log, ev = .handle i ∧
      w.inflight[i]? = some ⟨.history c, some (.history (.ok (some document)))⟩ ∧
      HistoryLog.ofDocument account.uid document = .ok log ∧ ¬ Sortable log.history := by
  have hload : ∀ c answer, NoticeRows.loadCompletion listing account w.client c answer = none ↔
      notices listing (NoticeRows.uidOf c) (parsed account.uid answer)
        (w.client.rows c).notices = none := by
    intro c answer
    unfold NoticeRows.loadCompletion
    dsimp only
    rw [Option.map_eq_none_iff]
  constructor
  · intro htraps
    have hacts : ∀ v, ev = .act v →
        (NoticeRows.program listing keys account).act w.server w.client v ≠ none := by
      rintro v rfl hnone
      cases v with
      | viewWillAppear c => cases hnone
      | blockUserRelease row => exact absurd rfl (other row)
      | cache usersData => cases hnone
    obtain ⟨i, r, s', ok, rfl, hi, hnone⟩ := Program.handled_of_traps rfl h hacts htraps
    cases r with
    | block r =>
      cases r <;> cases ok <;> cases hnone
    | history c =>
      obtain ⟨answer, hanswer⟩ :
          ∃ answer, (NoticeRows.serve account s' (.history c) ok).2 = .history answer := by
        cases ok <;> exact ⟨_, rfl⟩
      rw [show ((NoticeRows.program listing keys account).serve s' (.history c) ok).2 =
        .history answer from hanswer] at hi hnone
      have hbad := (hload c answer).mp hnone
      rcases fetched_cases account.uid answer with
        ⟨document, log, rfl, hlog, hparsed⟩ | ⟨⟨r, hparsed⟩, _⟩
      · rw [hparsed] at hbad
        refine ⟨i, c, document, log, rfl, hi, hlog, fun hsortable => ?_⟩
        have hsome : (noticesOf listing (NoticeRows.uidOf c) log.history).isSome = true :=
          noticesOf_isSome_iff.mpr hsortable
        rw [show noticesOf listing _ log.history = none from hbad] at hsome
        cases hsome
      · rw [hparsed] at hbad
        cases hbad
  · rintro ⟨i, c, document, log, rfl, hi, hlog, hbad⟩
    refine Program.traps_handle.mpr ⟨_, _, hi, (hload c _).mpr ?_⟩
    rw [parsed, hlog]
    show noticesOf listing _ log.history = none
    rw [← Option.not_isSome_iff_eq_none, noticesOf_isSome_iff]
    exact hbad

end Readers

/-- The services come to their end on a history that can be added to, and the screens on one
that can be sorted; no other step of theirs traps. -/
theorem sorts_trap_iff {Day : Type} [DecidableEq Day] (cal : Calendar Day)
    (listing : Listing String String) (keys : KeyOrder) (account : Account) :
    (∀ s clock evs w, run (step cal listing) (start s clock) evs = some w → ∀ ev,
      ((program cal listing).Traps w ev ↔ ∃ i v document log, ev = .handle i ∧
        w.inflight[i]? = some ⟨.get v, some (.fetched (.ok (some document)))⟩ ∧
        HistoryLog.ofDocument v.otherUid document = .ok log ∧
        ¬ Addable cal v w.client.clock.now log.history)) ∧
    (∀ s devices evs w,
      run (NoticeRows.step listing keys account) (NoticeRows.start s devices) evs = some w →
      ∀ ev, (∀ row, ev ≠ .act (.blockUserRelease row)) →
      ((NoticeRows.program listing keys account).Traps w ev ↔ ∃ i c document log, ev = .handle i ∧
        w.inflight[i]? = some ⟨.history c, some (.history (.ok (some document)))⟩ ∧
        HistoryLog.ofDocument account.uid document = .ok log ∧ ¬ Sortable log.history)) :=
  ⟨fun _ _ _ _ h ev => writers_trap_iff h ev, fun _ _ _ _ h ev => readers_trap_iff h ev⟩

section Example

/-- Whole numbers, and plain decimal fractions rounded down. -/
private def timeIntervalOf (key : String) : Option Int :=
  match intOf key with
  | some n => some n
  | none =>
    match key.toList.span (· ≠ '.') with
    | (whole, '.' :: fraction) =>
      (digitsOf fraction).bind fun _ => (digitsOf whole).map fun n => (n : Int)
    | _ => none

private def fractions : Calendar Int where
  ymd t := t.seconds / 86400
  read key := (timeIntervalOf key).map fun n => n / 86400
  read_int key n h := ⟨n / 86400, by rw [timeIntervalOf, h]; rfl, fun t ht => by rw [ht]⟩

private def evening : Timestamp := ⟨79200, by decide, by decide⟩

/-- Bob's visit lies between two seconds. -/
private def between : History := AList.singleton "1.5" "bob"

private def visited : Store where
  footprint := AList.singleton "carol" (historyData between)

private def opened : List (Event Action Empty) :=
  [.act (.addFootprint (some "alice") "carol"), .serve 0 true]

/-- Alice opens Carol's profile, and the sort of the footprints traps on Bob's. -/
theorem fraction_traps :
    ¬ ∀ s clock evs w, run (step fractions Listing.plain) (start s clock) evs = some w →
      ∀ i v document log,
        w.inflight[i]? = some ⟨.get v, some (.fetched (.ok (some document)))⟩ →
        HistoryLog.ofDocument v.otherUid document = .ok log →
        ¬ (program fractions Listing.plain).Traps w (.handle i) := by
  intro claim
  refine claim visited ⟨evening, evening⟩ opened _ rfl 0 ⟨.footprint, "alice", "carol"⟩ _ _ rfl
    (ofDocument_historyData "carol" between) ⟨⟨_, _, rfl⟩, ?_⟩
  rw [← Option.isNone_iff_eq_none]
  decide

private def asListed : KeyOrder where
  order := id
  perm := List.Perm.refl

private def carol : Account := ⟨"carol", by decide⟩

/-- Her visit traps; Carol's own screen does not sort a single row. -/
theorem sorts_trap_iff_visited :
    (∃ w, run (step fractions Listing.plain) (start visited ⟨evening, evening⟩) opened = some w ∧
      (program fractions Listing.plain).Traps w (.handle 0)) ∧
    (∃ w, run (NoticeRows.step Listing.plain asListed carol)
        (NoticeRows.start { histories := visited } ⟨fun _ => {}, []⟩)
        [.act (.viewWillAppear .footprint), .serve 0 true] = some w ∧
      ¬ (NoticeRows.program Listing.plain asListed carol).Traps w (.handle 0)) := by
  have hboth := sorts_trap_iff fractions Listing.plain asListed carol
  have haccepted := ofDocument_historyData "carol" between
  refine ⟨⟨_, rfl, ?_⟩, ⟨_, rfl, fun htraps => ?_⟩⟩
  · refine (hboth.1 visited ⟨evening, evening⟩ opened _ rfl (.handle 0)).mpr
      ⟨0, ⟨.footprint, "alice", "carol"⟩, _, _, rfl, rfl, haccepted, fun h => ?_⟩
    have hnumber := h "1.5" "bob" 0 rfl rfl (.inl (by decide))
    revert hnumber
    decide
  · obtain ⟨i, c, document, log, hi, hcall, hlog, hbad⟩ :=
      (hboth.2 { histories := visited } ⟨fun _ => {}, []⟩
        [.act (.viewWillAppear .footprint), .serve 0 true] _ rfl (.handle 0)
        fun row h => by cases h).mp htraps
    cases hi
    cases hcall
    have hsame := haccepted.symm.trans hlog
    cases hsame
    exact hbad (.inl (by decide))

end Example

end PlateChat.Screen.Sorting
