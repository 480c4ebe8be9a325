/- PlateChat/History/Daily
   digest: Footprints hold at most one visit of a visitor for each day. -/

import PlateChat.History.Service

set_option autoImplicit false
set_option relaxedAutoImplicit false

/-!
A write replaces the whole document by an amended copy of one earlier version of it, so
calls that overlap do not mix. A copy is never younger than the clock reading for the
day, and the reading for the key is never older: an entry that survived the first cannot
lie on the day of the second.
-/

namespace PlateChat.History.Daily

open PlateChat.Foundation.Dictionary PlateChat.Foundation.Newest PlateChat.Foundation.Run
open PlateChat.Foundation.EventLoop
open PlateChat.Model.Members PlateChat.Model.Histories PlateChat.History.Service

section Data

variable {Day : Type} {cal : Calendar Day}

/-- A history of short length and past seconds, with one visit of a visitor for each day. -/
structure DailyAt (cal : Calendar Day) (now : Timestamp) (history : History) : Prop where
  short : history.entries.length ≤ 50
  canonical : ∀ key ∈ history, ∃ t ≤ now, key = decimal t
  once : ∀ t t' uid, history.lookup (decimal t) = some uid →
    history.lookup (decimal t') = some uid → cal.ymd t = cal.ymd t' → t = t'

theorem DailyAt.mono {now later : Timestamp} {history : History} (h : DailyAt cal now history)
    (hle : now ≤ later) : DailyAt cal later history where
  short := h.short
  canonical key hkey := by
    obtain ⟨t, ht, rfl⟩ := h.canonical key hkey
    exact ⟨t, ht.trans hle, rfl⟩
  once := h.once

theorem dailyAt_empty (now : Timestamp) : DailyAt cal now ∅ where
  short := Nat.zero_le _
  canonical key hkey := absurd hkey (AList.notMem_empty key)
  once t t' uid h := by cases h

/-- A stored document that was written by this service, with a daily history. -/
def DailyDoc (cal : Calendar Day) (now : Timestamp) (document : HistoryDoc) : Prop :=
  ∃ history, document = historyData history ∧ DailyAt cal now history

private theorem DailyDoc.mono {now later : Timestamp} {document : HistoryDoc}
    (h : DailyDoc cal now document) (hle : now ≤ later) : DailyDoc cal later document := by
  obtain ⟨history, rfl, hdaily⟩ := h
  exact ⟨history, rfl, hdaily.mono hle⟩

variable [PartialOrder Day]

private theorem day_ne (mono : Monotone cal.ymd) {v : Visit} (hv : v.record = .footprint)
    {clock : Clock} (hle : clock.now ≤ clock.later) {t : Timestamp} (ht : t ≤ clock.now)
    (stays : ¬ Replaced cal v clock.now (decimal t) v.uid) :
    cal.ymd t ≠ cal.ymd clock.later := by
  intro hsame
  have hbefore : cal.ymd t ≤ cal.ymd clock.now := mono ht
  have hafter : cal.ymd clock.now ≤ cal.ymd t := hsame ▸ mono hle
  refine stays ⟨hv, rfl, ?_⟩
  rw [cal.read_decimal, le_antisymm hbefore hafter]

variable [DecidableEq Day] {listing : Listing String String}

/-- What a footprint call computes from a daily history is daily again. -/
theorem dailyAt_data (mono : Monotone cal.ymd) {v : Visit} (hv : v.record = .footprint)
    {clock : Clock} (hle : clock.now ≤ clock.later) {history data : History}
    (h : DailyAt cal clock.now history)
    (hdata : dataOf cal listing v clock history = some data) : DailyAt cal clock.later data := by
  have hpast : ∀ {t uid}, history.lookup (decimal t) = some uid → t ≤ clock.now := by
    intro t uid ht
    have hmem : decimal t ∈ history := AList.lookup_isSome.mp (by rw [ht]; rfl)
    obtain ⟨t', hle', heq⟩ := h.canonical _ hmem
    rwa [decimal_injective heq]
  have hvalue : v.value = v.uid := by
    unfold Visit.value
    rw [hv]
  refine ⟨?_, fun key hkey => ?_, fun t t' uid ht ht' hday => ?_⟩
  · obtain ⟨rfl, _⟩ := dataOf_spec hdata
    exact newest_length_le _ _ _ _
  · obtain ⟨uid, hentry⟩ := Option.isSome_iff_exists.mp (AList.lookup_isSome.mpr hkey)
    rcases entry_of_data hdata hentry with ⟨hown, _⟩ | ⟨hold, _⟩
    · exact ⟨clock.later, le_rfl, hown⟩
    · obtain ⟨t, ht, hkey⟩ := h.canonical key (AList.lookup_isSome.mp (by rw [hold]; rfl))
      exact ⟨t, ht.trans hle, hkey⟩
  · rcases entry_of_data hdata ht with ⟨hown, huid⟩ | ⟨hold, hstays⟩ <;>
      rcases entry_of_data hdata ht' with ⟨hown', huid'⟩ | ⟨hold', hstays'⟩
    · exact (decimal_injective hown).trans (decimal_injective hown').symm
    · rw [huid, hvalue] at hstays'
      rw [decimal_injective hown] at hday
      exact absurd hday.symm (day_ne mono hv hle (hpast hold') hstays')
    · rw [huid', hvalue] at hstays
      rw [decimal_injective hown'] at hday
      exact absurd hday (day_ne mono hv hle (hpast hold) hstays)
    · exact h.once t t' uid hold hold' hday

end Data

/-- The time moves on, and the reading for the key is not before the one for the day. -/
def Forward (w : Network) : Event Action Empty → Prop
  | .act (.clock now later) => w.client.clock.now ≤ now ∧ now ≤ later
  | _ => True

instance (w : Network) (e : Event Action Empty) : Decidable (Forward w e) := by
  unfold Forward
  split
  · exact inferInstance
  · exact instDecidableTrue

section Runs

variable {Day : Type} {cal : Calendar Day}

/-- What a call on the footprints knows, or is about to write, is daily. -/
structure CallDaily (cal : Calendar Day) (now : Timestamp) (q : Call Request Answer) : Prop where
  fetched : ∀ v document, q = ⟨.get v, some (.fetched (.ok (some document)))⟩ →
    v.record = .footprint → DailyDoc cal now document
  written : ∀ v fetched clock data, q.request = .set v fetched clock data →
    v.record = .footprint → DailyAt cal now data

private theorem CallDaily.mono {now later : Timestamp} {q : Call Request Answer}
    (h : CallDaily cal now q) (hle : now ≤ later) : CallDaily cal later q where
  fetched v document hq hv := (h.fetched v document hq hv).mono hle
  written v fetched clock data hq hv := (h.written v fetched clock data hq hv).mono hle

structure AllDaily (cal : Calendar Day) (w : Network) : Prop where
  clock : w.client.clock.now ≤ w.client.clock.later
  stored : ∀ id document, w.server.footprint.lookup id = some document →
    DailyDoc cal w.client.clock.now document
  calls : ∀ q ∈ w.inflight, CallDaily cal w.client.clock.now q

private theorem allDaily_perform {w : Network} (h : AllDaily cal w) {e : Outcome}
    (hnow : w.client.clock.now ≤ e.client.clock.now)
    (hlater : e.client.clock.now ≤ e.client.clock.later)
    (issued : ∀ r ∈ e.requests, CallDaily cal e.client.clock.now ⟨r, none⟩) :
    AllDaily cal (w.perform e) where
  clock := hlater
  stored id document hdoc := (h.stored id document hdoc).mono hnow
  calls := World.calls_perform (fun q hq => (h.calls q hq).mono hnow) issued

private theorem callDaily_get (now : Timestamp) (v : Visit) : CallDaily cal now ⟨.get v, none⟩ where
  fetched v document hq := by cases hq
  written v fetched clock data hq := by cases hq

private theorem dailyAt_fetched {now : Timestamp} {v : Visit}
    {answer : Except ServiceError (Option HistoryDoc)} (hv : v.record = .footprint)
    (h : CallDaily cal now ⟨.get v, some (.fetched answer)⟩) :
    DailyAt cal now (fetchedHistory (parsed v.otherUid answer)) := by
  rcases answer with e | _ | document
  · exact dailyAt_empty now
  · exact dailyAt_empty now
  · obtain ⟨history, rfl, hdaily⟩ := h.fetched v document rfl hv
    simp only [parsed, ofDocument_historyData]
    exact hdaily

private theorem allDaily_act [DecidableEq Day] {w : Network} (h : AllDaily cal w) {a : Action}
    (forward : Forward w (.act a)) : AllDaily cal (w.perform (act w.client a)) := by
  rcases act_cases w.client a with ⟨v, hv⟩ | hsame | ⟨now, later, rfl, hclock⟩
  · rw [hv]
    refine allDaily_perform h le_rfl h.clock ?_
    intro r hr
    obtain rfl := List.mem_singleton.mp hr
    exact callDaily_get _ v
  · rw [hsame]
    exact allDaily_perform h le_rfl h.clock (List.forall_mem_nil _)
  · rw [hclock]
    exact allDaily_perform h forward.1 forward.2 (List.forall_mem_nil _)

variable [DecidableEq Day] {listing : Listing String String}

private theorem allDaily_serve {w : Network} (h : AllDaily cal w) {i : Nat} {r : Request}
    (ok : Bool) (hi : w.inflight[i]? = some ⟨r, none⟩) :
    AllDaily cal (w.served (program cal listing) i r ok) := by
  have hr : CallDaily cal w.client.clock.now ⟨r, none⟩ := h.calls _ (List.mem_of_getElem? hi)
  cases r with
  | get v =>
    have hserver : (serve w.server (.get v) ok).1 = w.server := by cases ok <;> rfl
    refine ⟨h.clock, ?_, World.calls_served h.calls ⟨?_, ?_⟩⟩
    · show ∀ id document, (serve w.server (.get v) ok).1.footprint.lookup id = some document → _
      rw [hserver]
      exact h.stored
    · intro u document hq hu
      cases ok with
      | false => cases hq
      | true =>
        have heq : v = u ∧ w.server.target v = some document := by
          simpa [program, serve] using hq
        obtain ⟨rfl, hdoc⟩ := heq
        rw [target_footprint w.server hu] at hdoc
        exact h.stored _ _ hdoc
    · intro u fetched clock data hq
      cases hq
  | set v fetched clock data =>
    refine ⟨h.clock, ?_, World.calls_served h.calls ⟨?_, hr.written⟩⟩
    · intro id document hdoc
      cases ok with
      | false => exact h.stored id document hdoc
      | true =>
        change (w.server.setData v.collection v.otherUid data).footprint.lookup id = _ at hdoc
        rw [footprint_setData] at hdoc
        split at hdoc
        · rename_i hv
          obtain rfl := Option.some.inj hdoc
          exact ⟨data, rfl, hr.written v fetched clock data rfl hv.1⟩
        · exact h.stored id document hdoc
    · intro u document hq
      cases hq

variable [PartialOrder Day]

private theorem allDaily_handle (mono : Monotone cal.ymd) {w : Network} (h : AllDaily cal w)
    {i : Nat} {r : Request} {a : Answer} {e : Outcome} (hi : w.inflight[i]? = some ⟨r, some a⟩)
    (he : handle cal listing w.client r a = some e) : AllDaily cal ((w.landed i).perform e) := by
  have hlanded : AllDaily cal (w.landed i) := ⟨h.clock, h.stored, World.calls_landed h.calls⟩
  have hcall := h.calls _ (List.mem_of_getElem? hi)
  rcases r with v | ⟨v, fetched, clock, data⟩ <;> rcases a with answer | error
  · obtain ⟨data, hdata, rfl⟩ := fetchCompletion_spec he
    refine allDaily_perform hlanded h.clock le_rfl ?_
    intro r hr
    obtain rfl := List.mem_singleton.mp hr
    refine ⟨fun u document hq => ?_, fun u fetched clock data' hq hu => ?_⟩
    · cases hq
    · cases hq
      exact dailyAt_data mono hu h.clock (dailyAt_fetched hu hcall) hdata
  · cases he
  · cases he
  · obtain rfl := Option.some.inj he
    exact allDaily_perform hlanded le_rfl h.clock (List.forall_mem_nil _)

theorem allDaily_step (mono : Monotone cal.ymd) {w w' : Network} {ev : Event Action Empty}
    (h : AllDaily cal w) (forward : Forward w ev) (hstep : step cal listing w ev = some w') :
    AllDaily cal w' := by
  cases Program.step_fires hstep with
  | act he =>
    obtain rfl := Option.some.inj he
    exact allDaily_act h forward
  | serve hi => exact allDaily_serve h _ hi
  | handle hi he => exact allDaily_handle mono h hi he
  | @deliver j ok x e hj he => exact x.listener.elim
  | @env h' => exact h'.elim

/-- Beginning with no footprint, every stored one has at most 50 entries under past seconds,
and no visitor twice on one day. -/
theorem footprints_daily (mono : Monotone cal.ymd) {s : Store} (none_stored : s.footprint = ∅)
    {clock : Clock} (hclock : clock.now ≤ clock.later) {events : List (Event Action Empty)}
    {w : Network} (forward : Along (step cal listing) Forward (start s clock) events)
    (hr : run (step cal listing) (start s clock) events = some w) :
    ∀ id document, w.server.footprint.lookup id = some document →
      ∃ history, document = historyData history ∧ DailyAt cal w.client.clock.now history := by
  have hstart : AllDaily cal (start s clock) := by
    refine ⟨hclock, fun id document hdoc => ?_, List.forall_mem_nil _⟩
    change s.footprint.lookup id = _ at hdoc
    rw [none_stored] at hdoc
    cases hdoc
  exact (run_keeps (fun _ _ _ hs hg hstep => allDaily_step mono hs hg hstep) forward hr
    hstart).stored

end Runs

section Example

private def epoch : Clock := ⟨⟨0, by decide, by decide⟩, ⟨0, by decide, by decide⟩⟩

private def evening : Timestamp := ⟨86390, by decide, by decide⟩

private def lastSecond : Timestamp := ⟨86399, by decide, by decide⟩

private def nextDay : Timestamp := ⟨86400, by decide, by decide⟩

private def midnight : List (Event Action Empty) :=
  [.act (.clock evening evening), .act (.addFootprint (some "alice") "carol"),
    .act (.addFootprint (some "bob") "carol"), .serve 0 true, .serve 1 true, .handle 0,
    .serve 1 true, .act (.clock lastSecond nextDay), .handle 0, .serve 1 true]

/-- Two visitors at once, the second of them across midnight. -/
theorem footprints_daily_midnight :
    Along (step Calendar.utc Listing.plain) Forward (start {} epoch) midnight ∧
      ∃ w, run (step Calendar.utc Listing.plain) (start {} epoch) midnight = some w ∧
        ∀ id document, w.server.footprint.lookup id = some document →
          ∃ history, document = historyData history ∧
            DailyAt Calendar.utc w.client.clock.now history := by
  have forward : Along (step Calendar.utc Listing.plain) Forward (start {} epoch)
      midnight := by decide
  have hrun : (run (step Calendar.utc Listing.plain) (start {} epoch) midnight).isSome = true := by
    decide
  obtain ⟨w, hw⟩ := Option.isSome_iff_exists.mp hrun
  exact ⟨forward, w, hw, footprints_daily (fun _ _ => Calendar.utc_monotone) rfl le_rfl forward hw⟩

end Example

end PlateChat.History.Daily
