/- PlateChat/History/Interleaving
   digest: Overlapping visits, and the entries that the stored history keeps of them. -/

import PlateChat.History.Service

set_option autoImplicit false
set_option relaxedAutoImplicit false

/-!
Every call reads a whole document and replaces it later, so two calls that overlap lose
the entry of the one that writes first. A call does no harm when the document it
replaces is still the one it has read.
-/

namespace PlateChat.History.Interleaving

open PlateChat.Foundation.Dictionary PlateChat.Foundation.Newest PlateChat.Foundation.Run
open PlateChat.Foundation.EventLoop
open PlateChat.Model.Members PlateChat.Model.Histories PlateChat.History.Service

section Write

variable {Day : Type} [DecidableEq Day] {cal : Calendar Day} {listing : Listing String String}

/-- No entry was made in the second of the call. -/
def NewSecond (clock : Clock) (history : History) : Prop :=
  ∀ key ∈ history.keys, intOf key ≠ some clock.later.seconds

/-- A footprint takes the place of one older entry at most. -/
def ReplacesOne (cal : Calendar Day) (v : Visit) (clock : Clock) (history : History) : Prop :=
  ∀ e ∈ history.entries, Replaced cal v clock.now e.1 e.2 →
    secondOf e.1 < clock.later.seconds ∧
      ∀ f ∈ history.entries, Replaced cal v clock.now f.1 f.2 → f = e

/-- The history has the entry of a call, or fifty newer ones. -/
structure Recorded (history : History) (v : Visit) (t : Timestamp) : Prop where
  numbers : ∀ key ∈ history, (intOf key).isSome
  alone : ∀ key ∈ history, intOf key = some t.seconds → key = decimal t
  kept : history.lookup (decimal t) = some v.value ∨ historyLimit ≤ newer secondOf history t.seconds

private theorem intOf_of_secondOf {key : String} (number : (intOf key).isSome) {t : Timestamp}
    (h : secondOf key = t.seconds) : intOf key = some t.seconds := by
  obtain ⟨n, hn⟩ := Option.isSome_iff_exists.mp number
  unfold secondOf at h
  rw [hn] at h ⊢
  exact congrArg some h

private theorem mem_of_lookup {history : History} {key value : String}
    (h : history.lookup key = some value) : key ∈ history :=
  AList.lookup_isSome.mp (by rw [h]; rfl)

private theorem newHistory_alone {v : Visit} {clock : Clock} {history : History}
    (fresh : NewSecond clock history) {key : String}
    (hkey : key ∈ newHistory cal v clock history)
    (hsecond : intOf key = some clock.later.seconds) : key = decimal clock.later := by
  by_contra hne
  obtain ⟨value, hvalue⟩ := Option.isSome_iff_exists.mp (AList.lookup_isSome.mpr hkey)
  rw [newHistory_other hne] at hvalue
  have hheld := mem_of_lookup (history_of_carried hvalue).1
  exact fresh key (AList.mem_keys.mp hheld) hsecond

/-- The limit keeps an entry that is alone in its second, or it keeps fifty newer ones. -/
private theorem recorded_of_newest {new : History} {v : Visit} {t : Timestamp}
    (numbers : ∀ key ∈ new, (intOf key).isSome)
    (alone : ∀ key ∈ new, intOf key = some t.seconds → key = decimal t)
    (h : new.lookup (decimal t) = some v.value ∨ historyLimit ≤ newer secondOf new t.seconds) :
    Recorded (newest listing secondOf historyLimit new) v t := by
  have hheld : ∀ key ∈ newest listing secondOf historyLimit new, key ∈ new := by
    intro key hkey
    obtain ⟨value, hvalue⟩ := Option.isSome_iff_exists.mp (AList.lookup_isSome.mpr hkey)
    exact mem_of_lookup (lookup_of_newest hvalue)
  refine ⟨fun key hkey => numbers key (hheld key hkey),
    fun key hkey => alone key (hheld key hkey), ?_⟩
  rcases h with hentry | hnewer
  · have hrank : (newest listing secondOf historyLimit new).lookup (decimal t) = some v.value ∨
        historyLimit ≤ newer secondOf (newest listing secondOf historyLimit new)
          (secondOf (decimal t)) :=
      kept_or_newer hentry fun key hkey hsame => alone key hkey
        (intOf_of_secondOf (numbers key hkey) (hsame.trans (secondOf_decimal t)))
    rwa [secondOf_decimal] at hrank
  · exact .inr (newer_newest hnewer)

theorem recorded_own {v : Visit} {clock : Clock} {history data : History}
    (fresh : NewSecond clock history) (h : dataOf cal listing v clock history = some data) :
    Recorded data v clock.later := by
  obtain ⟨rfl, hnumbers⟩ := dataOf_spec h
  exact recorded_of_newest hnumbers (fun key hkey => newHistory_alone fresh hkey)
    (.inl (newHistory_own v clock history))

/-- Of the entries that a footprint replaces there is at most one, and its own is newer. -/
private theorem newer_carried {v : Visit} {clock : Clock} {history : History}
    (numbers : ∀ key ∈ history, (intOf key).isSome) (one : ReplacesOne cal v clock history)
    (m : Int) : newer secondOf history m ≤ newer secondOf (carried cal v clock.now history) m +
      if m < clock.later.seconds then 1 else 0 := by
  cases hv : v.record with
  | reply articleKey =>
    have hsame : carried cal v clock.now history = history := by
      unfold carried
      rw [hv]
    rw [hsame]
    exact Nat.le_add_right _ _
  | footprint =>
    let stays : (Sigma fun _ : String => String) → Bool := fun e =>
      (cal.read e.1).any fun ymd => e.2 ≠ v.uid ∨ ymd ≠ cal.ymd clock.now
    have hcarried : (carried cal v clock.now history).entries = history.entries.filter stays := by
      unfold carried
      rw [hv]
      refine List.filter_congr fun e _ => ?_
      cases hread : cal.read e.1 with
      | none => simp only [stays, hread, Option.any_none]
      | some ymd => simp only [stays, hread, Option.any_some]
    rw [newer_entries, newer_entries, hcarried,
      List.countP_eq_countP_filter_add history.entries _ stays]
    -- what goes is replaced, since its key is a number
    have hgone : ∀ e ∈ history.entries, stays e = false → Replaced cal v clock.now e.1 e.2 := by
      intro e he hfalse
      have hnumber := numbers e.1 (List.mem_map_of_mem he)
      obtain ⟨n, hn⟩ := Option.isSome_iff_exists.mp hnumber
      obtain ⟨day, hread, _⟩ := cal.read_int e.1 n hn
      have htest : ¬ (e.2 ≠ v.uid ∨ day ≠ cal.ymd clock.now) := by
        simpa only [stays, hread, Option.any_some, decide_eq_false_iff_not] using hfalse
      simp only [ne_eq, not_or, not_not] at htest
      exact ⟨hv, htest.1, by rw [hread, htest.2]⟩
    let gone := history.entries.filter fun e => !stays e
    have hmem : ∀ e ∈ gone, e ∈ history.entries ∧ Replaced cal v clock.now e.1 e.2 := by
      intro e he
      have hfilter := List.mem_filter.mp he
      exact ⟨hfilter.1, hgone e hfilter.1 (by simpa using hfilter.2)⟩
    have hgo : gone.countP (fun p => m < secondOf p.1) ≤
        if m < clock.later.seconds then 1 else 0 := by
      by_cases hnone : gone.countP (fun p => m < secondOf p.1) = 0
      · rw [hnone]
        exact Nat.zero_le _
      · obtain ⟨e, he, hm⟩ := List.countP_pos_iff.mp (Nat.pos_of_ne_zero hnone)
        obtain ⟨hheld, hreplaced⟩ := hmem e he
        obtain ⟨holder, honly⟩ := one e hheld hreplaced
        have hnodup : gone.Nodup := history.nodupKeys.nodup.filter _
        have hsub : gone ⊆ [e] := fun f hf =>
          List.mem_singleton.mpr (honly f (hmem f hf).1 (hmem f hf).2)
        have hlen : gone.length ≤ 1 := (List.subperm_of_subset hnodup hsub).length_le
        have hcount : gone.countP (fun p => m < secondOf p.1) ≤ gone.length := List.countP_le_length
        rw [if_pos ((of_decide_eq_true hm).trans holder)]
        omega
    exact Nat.add_le_add_left hgo _

/-- A write never lowers the number of newer entries below the limit. -/
private theorem newer_newHistory {v : Visit} {clock : Clock} {history : History}
    (numbers : ∀ key ∈ history, (intOf key).isSome) (fresh : NewSecond clock history)
    (one : ReplacesOne cal v clock history) {m : Int} :
    newer secondOf history m ≤ newer secondOf (newHistory cal v clock history) m := by
  have hcarried := newer_carried numbers one m
  have habsent : decimal clock.later ∉ (carried cal v clock.now history).keys := by
    intro hkey
    obtain ⟨value, hvalue⟩ := Option.isSome_iff_exists.mp
      (AList.lookup_isSome.mpr (AList.mem_keys.mpr hkey))
    have hheld := mem_of_lookup (history_of_carried hvalue).1
    exact fresh _ (AList.mem_keys.mp hheld) (intOf_decimal _)
  have hnew : newer secondOf (newHistory cal v clock history) m =
      newer secondOf (carried cal v clock.now history) m +
        if m < clock.later.seconds then 1 else 0 := by
    unfold newer newHistory
    rw [AList.keys_insert, List.erase_of_not_mem habsent, List.countP_cons, secondOf_decimal]
    simp only [decide_eq_true_eq]
  omega

/-- A write records the earlier calls of other users again. -/
theorem recorded_other {u v : Visit} {t : Timestamp} {clock : Clock} {history data : History}
    (h : Recorded history u t) (target : u.collection = v.collection) (other : u.uid ≠ v.uid)
    (fresh : NewSecond clock history)
    (one : historyLimit ≤ history.entries.length → ReplacesOne cal v clock history)
    (hdata : dataOf cal listing v clock history = some data) : Recorded data u t := by
  obtain ⟨rfl, hnumbers⟩ := dataOf_spec hdata
  have halone : ∀ key ∈ newHistory cal v clock history, intOf key = some t.seconds →
      key = decimal t := by
    intro key hkey hsecond
    by_cases hown : key = decimal clock.later
    · subst hown
      rw [intOf_decimal] at hsecond
      exact congrArg decimal (Timestamp.ext_seconds (Option.some.inj hsecond))
    · obtain ⟨value, hvalue⟩ := Option.isSome_iff_exists.mp (AList.lookup_isSome.mpr hkey)
      rw [newHistory_other hown] at hvalue
      exact h.alone key (mem_of_lookup (history_of_carried hvalue).1) hsecond
  refine recorded_of_newest hnumbers halone ?_
  rcases h.kept with hentry | hnewer
  · left
    have hheld := mem_of_lookup hentry
    have hne : decimal t ≠ decimal clock.later := by
      intro heq
      refine fresh (decimal t) (AList.mem_keys.mp hheld) ?_
      rw [heq, intOf_decimal]
    rw [newHistory_other hne]
    refine carried_of_history hentry (h.numbers _ hheld) ?_
    rintro ⟨hv, hvalue, _⟩
    refine other ?_
    -- both calls record footprints, and a footprint's value is the visitor
    have hu : u.record = .footprint := by
      cases hrecord : u.record with
      | footprint => rfl
      | reply articleKey => simp [Visit.collection, hrecord, hv] at target
    simpa only [Visit.value, hu] using hvalue
  · right
    have hlong : historyLimit ≤ history.entries.length := by
      have hcount : newer secondOf history t.seconds ≤ history.entries.length := by
        rw [newer_entries]
        exact List.countP_le_length
      exact hnewer.trans hcount
    exact hnewer.trans (newer_newHistory h.numbers fresh (one hlong))

end Write

/-- Two calls on one document by different users. -/
def OtherUser (u v : Visit) : Prop :=
  u.collection = v.collection → u.otherUid = v.otherUid → u.uid ≠ v.uid

instance (u v : Visit) : Decidable (OtherUser u v) :=
  inferInstanceAs (Decidable (_ → _ → _))

instance (clock : Clock) (history : History) : Decidable (NewSecond clock history) :=
  inferInstanceAs (Decidable (∀ key ∈ history.keys, _))

def FreshWrite (s : Store) : Option (Call Request Answer) → Prop
  | some ⟨.set v _ clock _, none⟩ => NewSecond clock (storedHistory s v)
  | _ => True

instance (s : Store) : ∀ q, Decidable (FreshWrite s q)
  | some ⟨.set v _ clock _, none⟩ =>
    inferInstanceAs (Decidable (NewSecond clock (storedHistory s v)))
  | some ⟨.set _ _ _ _, some _⟩ => .isTrue trivial
  | some ⟨.get _, _⟩ => .isTrue trivial
  | none => .isTrue trivial

/-- The calls that a run is about: all steps succeed, nobody calls twice on one document,
and no two entries of it are made in one second. -/
def Lawful (w : Network) : Event Action Empty → Prop
  | .act a => ∀ r ∈ (act w.client a).requests, ∀ u ∈ w.client.called, OtherUser r.visit u
  | .serve i ok => ok = true ∧ FreshWrite w.server w.inflight[i]?
  | _ => True

instance (w : Network) : ∀ e, Decidable (Lawful w e)
  | .act a => inferInstanceAs (Decidable (∀ r ∈ (act w.client a).requests, _))
  | .serve i ok => inferInstanceAs (Decidable (ok = true ∧ FreshWrite w.server w.inflight[i]?))
  | .handle _ => .isTrue trivial
  | .deliver _ _ => .isTrue trivial
  | .env _ => .isTrue trivial

section Runs

variable {Day : Type} [DecidableEq Day] (cal : Calendar Day)

instance (v : Visit) (now : Timestamp) (key value : String) :
    Decidable (Replaced cal v now key value) :=
  inferInstanceAs (Decidable (_ ∧ _ ∧ _))

instance (v : Visit) (clock : Clock) (history : History) :
    Decidable (ReplacesOne cal v clock history) :=
  inferInstanceAs (Decidable (∀ e ∈ history.entries, _))

def WritesBack (s : Store) : Option (Call Request Answer) → Prop
  | some ⟨.set v fetched clock _, none⟩ => storedHistory s v = fetched ∧
      (historyLimit ≤ fetched.entries.length → ReplacesOne cal v clock fetched)
  | _ => True

instance (s : Store) : ∀ q, Decidable (WritesBack cal s q)
  | some ⟨.set v fetched clock _, none⟩ =>
    decidable_of_iff ((storedHistory s v).entries = fetched.entries ∧
        (historyLimit ≤ fetched.entries.length → ReplacesOne cal v clock fetched))
      (and_congr_left' ⟨AList.ext, congrArg AList.entries⟩)
  | some ⟨.set _ _ _ _, some _⟩ => .isTrue trivial
  | some ⟨.get _, _⟩ => .isTrue trivial
  | none => .isTrue trivial

/-- A write replaces the document that its call has read; at the limit, a footprint takes the
place of one older entry at most. -/
def Undisturbed (w : Network) : Event Action Empty → Prop
  | .serve i _ => WritesBack cal w.server w.inflight[i]?
  | _ => True

instance (w : Network) : ∀ e, Decidable (Undisturbed cal w e)
  | .serve i _ => inferInstanceAs (Decidable (WritesBack cal w.server w.inflight[i]?))
  | .act _ => .isTrue trivial
  | .handle _ => .isTrue trivial
  | .deliver _ _ => .isTrue trivial
  | .env _ => .isTrue trivial

variable (listing : Listing String String)

/-- The calls that still wait for their document. -/
def fetching (flight : List (Call Request Answer)) : List Visit :=
  flight.filterMap fun q => match q.request with
    | .get v => some v
    | .set _ _ _ _ => none

/-- The document of a call records it. -/
def RecordedIn (s : Store) (v : Visit) (t : Timestamp) : Prop :=
  ∃ history, s.target v = some (historyData history) ∧ Recorded history v t

/-- The write of a call is on its way. -/
def Sent (flight : List (Call Request Answer)) (v : Visit) (t : Timestamp) : Prop :=
  ∃ fetched clock data, ⟨.set v fetched clock data, none⟩ ∈ flight ∧ clock.later = t

/-- Every call waits for its document or has read the clock; from then on its write is on its
way or recorded. -/
structure Tracked (w : Network) : Prop where
  begun : (fetching w.inflight ++ w.client.stamped.map Prod.fst).Perm w.client.called
  different : w.client.called.Pairwise OtherUser
  written : ∀ v fetched clock data a, ⟨.set v fetched clock data, a⟩ ∈ w.inflight →
    (v, clock.later) ∈ w.client.stamped ∧ dataOf cal listing v clock fetched = some data
  recorded : ∀ x ∈ w.client.stamped, Sent w.inflight x.1 x.2 ∨ RecordedIn w.server x.1 x.2

variable {cal listing}

omit [DecidableEq Day] in
private theorem sent_mono {flight flight' : List (Call Request Answer)} {v : Visit} {t : Timestamp}
    (h : Sent flight v t)
    (kept : ∀ v fetched clock data, ⟨.set v fetched clock data, none⟩ ∈ flight →
      ⟨.set v fetched clock data, none⟩ ∈ flight') : Sent flight' v t := by
  obtain ⟨fetched, clock, data, hq, ht⟩ := h
  exact ⟨fetched, clock, data, kept v fetched clock data hq, ht⟩

private theorem fetching_append (flight more : List (Call Request Answer)) :
    fetching (flight ++ more) = fetching flight ++ fetching more :=
  List.filterMap_append

private theorem fetching_perm {flight flight' : List (Call Request Answer)}
    (h : flight.Perm flight') : (fetching flight).Perm (fetching flight') :=
  h.filterMap _

private theorem tracked_begin {w : Network} (h : Tracked cal listing w) {v : Visit}
    (different : ∀ u ∈ w.client.called, OtherUser v u) :
    Tracked cal listing (w.perform (beginVisit w.client v)) where
  begun := by
    show (fetching (w.inflight ++ [⟨.get v, none⟩]) ++ _).Perm (v :: w.client.called)
    rw [fetching_append, List.append_assoc]
    exact List.perm_middle.trans (h.begun.cons v)
  different := List.pairwise_cons.mpr ⟨different, h.different⟩
  written u fetched clock data a hq := by
    rcases List.mem_append.mp hq with hq | hq
    · exact h.written u fetched clock data a hq
    · cases List.mem_singleton.mp hq
  recorded x hx := (h.recorded x hx).imp_left fun hsent =>
    sent_mono hsent fun u fetched clock data hq => List.mem_append_left _ hq

private theorem tracked_client {w : Network} (h : Tracked cal listing w) {c : Devices}
    (called : c.called = w.client.called) (stamped : c.stamped = w.client.stamped) :
    Tracked cal listing (w.perform { client := c }) where
  begun := by
    show (fetching (w.inflight ++ []) ++ c.stamped.map Prod.fst).Perm c.called
    rw [List.append_nil, called, stamped]
    exact h.begun
  different := by
    show c.called.Pairwise OtherUser
    rw [called]
    exact h.different
  written u fetched clock data a hq := by
    show _ ∈ c.stamped ∧ _
    rw [stamped]
    exact h.written u fetched clock data a (by simpa using hq)
  recorded x hx := by
    change x ∈ c.stamped at hx
    rw [stamped] at hx
    exact (h.recorded x hx).imp_left fun hsent =>
      sent_mono hsent fun u fetched clock data hq => List.mem_append_left _ hq

private theorem tracked_act {w : Network} (h : Tracked cal listing w) {a : Action}
    (lawful : Lawful w (.act a)) : Tracked cal listing (w.perform (act w.client a)) := by
  rcases act_cases w.client a with ⟨v, hv⟩ | hsame | ⟨now, later, _, hclock⟩
  · have hother := lawful (.get v) (by rw [hv]; exact List.mem_singleton_self _)
    rw [hv]
    exact tracked_begin h hother
  · rw [hsame]
    exact tracked_client h rfl rfl
  · rw [hclock]
    exact tracked_client h rfl rfl

private theorem other_symm {u v : Visit} (h : OtherUser u v) : OtherUser v u :=
  fun hcollection hdocument huid => h hcollection.symm hdocument.symm huid.symm

private theorem stamped_eq {w : Network} (h : Tracked cal listing w) {x y : Visit × Timestamp}
    (hx : x ∈ w.client.stamped) (hy : y ∈ w.client.stamped) (same : ¬ OtherUser x.1 y.1) :
    x = y := by
  have hall : (fetching w.inflight ++ w.client.stamped.map Prod.fst).Pairwise OtherUser :=
    (h.begun.pairwise_iff other_symm).mpr h.different
  have hstamped := List.pairwise_map.mp (List.pairwise_append.mp hall).2.1
  have : Std.Symm fun a b : Visit × Timestamp => OtherUser a.1 b.1 := ⟨fun _ _ => other_symm⟩
  by_contra hne
  exact same (hstamped.forall hx hy hne)

private theorem fetching_served {flight : List (Call Request Answer)} {i : Nat} {r : Request}
    {a : Answer} (hi : flight[i]? = some ⟨r, none⟩) :
    (fetching (flight.set i ⟨r, some a⟩)).Perm (fetching flight) := by
  have hafter := fetching_perm (perm_served ⟨r, some a⟩ hi)
  have hbefore := fetching_perm (perm_landed hi)
  have hsame : fetching (⟨r, some a⟩ :: flight.eraseIdx i) =
      fetching (⟨r, none⟩ :: flight.eraseIdx i) := by
    cases r <;> rfl
  rw [hsame] at hafter
  exact hafter.trans hbefore.symm

omit [DecidableEq Day] in
private theorem stored_of_target {s : Store} {v : Visit} {history : History}
    (h : s.target v = some (historyData history)) : storedHistory s v = history := by
  unfold storedHistory
  rw [h]
  simp only [parsed, ofDocument_historyData, fetchedHistory]

/-- A write that nothing has disturbed leaves every other call recorded. -/
private theorem recordedIn_write {w : Network} (h : Tracked cal listing w) {v : Visit}
    {fetched data : History} {clock : Clock}
    (hq : ⟨.set v fetched clock data, none⟩ ∈ w.inflight)
    (fresh : NewSecond clock (storedHistory w.server v))
    (back : storedHistory w.server v = fetched ∧
      (historyLimit ≤ fetched.entries.length → ReplacesOne cal v clock fetched))
    {x : Visit × Timestamp} (hx : x ∈ w.client.stamped)
    (hrecorded : RecordedIn w.server x.1 x.2 ∨ x = (v, clock.later)) :
    RecordedIn (w.server.setData v.collection v.otherUid data) x.1 x.2 := by
  obtain ⟨hstamped, hdata⟩ := h.written v fetched clock data none hq
  obtain ⟨hfetched, one⟩ := back
  rw [hfetched] at fresh
  have hown : RecordedIn (w.server.setData v.collection v.otherUid data) v clock.later :=
    ⟨data, by rw [target_setData, if_pos ⟨rfl, rfl⟩], recorded_own fresh hdata⟩
  rcases hrecorded with ⟨history, htarget, hrec⟩ | rfl
  · by_cases hdocument : x.1.collection = v.collection ∧ x.1.otherUid = v.otherUid
    · by_cases hother : OtherUser x.1 v
      · have hsame : w.server.target v = w.server.target x.1 := by
          unfold Store.target
          rw [hdocument.1, hdocument.2]
        have hhistory : history = fetched := by
          rw [← hfetched, stored_of_target (hsame.trans htarget)]
        subst hhistory
        refine ⟨data, by rw [target_setData, if_pos hdocument], ?_⟩
        exact recorded_other hrec hdocument.1 (hother hdocument.1 hdocument.2) fresh one hdata
      · obtain rfl := stamped_eq h hx hstamped hother
        exact hown
    · exact ⟨history, by rw [target_setData, if_neg hdocument, htarget], hrec⟩
  · exact hown

private theorem tracked_serve {w : Network} (h : Tracked cal listing w) {i : Nat} {r : Request}
    (hi : w.inflight[i]? = some ⟨r, none⟩) (lawful : FreshWrite w.server w.inflight[i]?)
    (back : WritesBack cal w.server w.inflight[i]?) :
    Tracked cal listing (w.served (program cal listing) i r true) := by
  have hmem := List.mem_of_getElem? hi
  rw [hi] at lawful back
  refine ⟨((fetching_served hi).append_right _).trans h.begun, h.different, ?_, ?_⟩
  · intro v fetched clock data a hq
    rcases List.mem_or_eq_of_mem_set hq with hq | heq
    · exact h.written v fetched clock data a hq
    · cases heq
      exact h.written v fetched clock data none hmem
  · intro x hx
    cases r with
    | get v =>
      refine (h.recorded x hx).imp_left fun hsent => sent_mono hsent fun u fetched clock data hq =>
        mem_served_of_ne _ hi hq (by simp)
    | set v fetched clock data =>
      rcases h.recorded x hx with ⟨f, c, d, hq, ht⟩ | hrecorded
      · by_cases hsame : (⟨.set x.1 f c d, none⟩ : Call Request Answer) =
            ⟨.set v fetched clock data, none⟩
        · have heq : x = (v, clock.later) := by
            simp only [Call.mk.injEq, Request.set.injEq, and_true] at hsame
            exact Prod.ext hsame.1 (ht.symm.trans (congrArg Clock.later hsame.2.2.1))
          exact .inr (recordedIn_write h hmem lawful back hx (.inr heq))
        · exact .inl ⟨f, c, d, mem_served_of_ne _ hi hq hsame, ht⟩
      · exact .inr (recordedIn_write h hmem lawful back hx (.inl hrecorded))

private theorem tracked_handle {w : Network} (h : Tracked cal listing w) {i : Nat} {r : Request}
    {a : Answer} {e : Outcome} (hi : w.inflight[i]? = some ⟨r, some a⟩)
    (he : handle cal listing w.client r a = some e) :
    Tracked cal listing ((w.landed i).perform e) := by
  have hbegun := h.begun
  have hperm := fetching_perm (perm_landed hi)
  rcases r with v | ⟨v, fetched, clock, data⟩ <;> rcases a with answer | error
  · obtain ⟨data, hdata, rfl⟩ := fetchCompletion_spec he
    refine ⟨?_, h.different, ?_, ?_⟩
    · have hsplit : fetching (w.inflight.eraseIdx i ++ [⟨.set v (fetchedHistory
          (parsed v.otherUid answer)) w.client.clock data, none⟩]) =
          fetching (w.inflight.eraseIdx i) := by
        rw [fetching_append]
        exact List.append_nil _
      show (fetching (w.inflight.eraseIdx i ++ [_]) ++ v :: w.client.stamped.map Prod.fst).Perm _
      rw [hsplit]
      exact List.perm_middle.trans (((hperm.symm).append_right _).trans hbegun)
    · intro u fetched clock data' a hq
      rcases List.mem_append.mp hq with hq | hq
      · obtain ⟨hstamped, hdata'⟩ :=
          h.written u fetched clock data' a (List.mem_of_mem_eraseIdx hq)
        exact ⟨List.mem_cons_of_mem _ hstamped, hdata'⟩
      · cases List.mem_singleton.mp hq
        exact ⟨List.mem_cons_self, hdata⟩
    · intro x hx
      rcases List.mem_cons.mp hx with rfl | hx
      · exact .inl ⟨_, _, data, List.mem_append_right _ List.mem_cons_self, rfl⟩
      · refine (h.recorded x hx).imp_left fun hsent =>
          sent_mono hsent fun u fetched clock data hq => ?_
        exact List.mem_append_left _ (mem_landed_of_ne hi hq nofun)
  · cases he
  · cases he
  · obtain rfl := Option.some.inj he
    refine tracked_client (w := w.landed i) ⟨?_, h.different, ?_, ?_⟩ rfl rfl
    · exact ((hperm.symm).append_right _).trans hbegun
    · intro u fetched clock data' a hq
      exact h.written u fetched clock data' a (List.mem_of_mem_eraseIdx hq)
    · intro x hx
      exact (h.recorded x hx).imp_left fun hsent =>
        sent_mono hsent fun u fetched clock data hq => mem_landed_of_ne hi hq nofun

theorem tracked_step {w w' : Network} {ev : Event Action Empty} (h : Tracked cal listing w)
    (guard : Lawful w ev ∧ Undisturbed cal w ev) (hstep : step cal listing w ev = some w') :
    Tracked cal listing w' := by
  obtain ⟨lawful, undisturbed⟩ := guard
  cases Program.step_fires hstep with
  | act he =>
    obtain rfl := Option.some.inj he
    exact tracked_act h lawful
  | serve hi =>
    obtain ⟨rfl, fresh⟩ := lawful
    exact tracked_serve h hi fresh undisturbed
  | handle hi he => exact tracked_handle h hi he
  | @deliver j ok x e hj he => exact x.listener.elim
  | @env h' => exact h'.elim

theorem tracked_start (s : Store) (clock : Clock) :
    Tracked cal listing (start s clock) where
  begun := List.Perm.refl _
  different := List.Pairwise.nil
  written _ _ _ _ _ hq := by cases hq
  recorded _ hx := by cases hx

/-- The stored entries under a later second than `t`. -/
def newerEntries (s : Store) (v : Visit) (t : Timestamp) : Nat :=
  match (s.target v).bind HistoryDoc.history with
  | some m => m.keys.countP fun key => (intOf key).any fun n => t.seconds < n
  | none => 0

private theorem newerEntries_of_numbers {s : Store} {v : Visit} {t : Timestamp} {history : History}
    (htarget : s.target v = some (historyData history))
    (numbers : ∀ key ∈ history, (intOf key).isSome) :
    newerEntries s v t = newer secondOf history t.seconds := by
  unfold newerEntries newer
  rw [htarget]
  show (mapValues Value.text history).keys.countP _ = _
  rw [keys_mapValues]
  refine List.countP_congr fun key hkey => ?_
  obtain ⟨n, hn⟩ := Option.isSome_iff_exists.mp (numbers key (AList.mem_keys.mpr hkey))
  simp only [secondOf, hn, Option.any_some, Option.getD_some]

/-- While no call disturbs another, each of them is recorded in the end, or fifty newer are. -/
theorem visits_recorded {s : Store} {clock : Clock} {events : List (Event Action Empty)}
    {w : Network} (lawful : Along (step cal listing) Lawful (start s clock) events)
    (undisturbed : Along (step cal listing) (Undisturbed cal) (start s clock) events)
    (hr : run (step cal listing) (start s clock) events = some w) (done : w.inflight = []) :
    ∀ v ∈ w.client.called, ∃ t, (v, t) ∈ w.client.stamped ∧
      (w.server.entry v (decimal t) = some (.text v.value) ∨ 50 ≤ newerEntries w.server v t) := by
  have htracked : Tracked cal listing w :=
    run_keeps (fun _ _ _ h hg hstep => tracked_step h hg hstep) (along_and lawful undisturbed) hr
      (tracked_start s clock)
  intro v hv
  have hbegun := htracked.begun
  rw [done] at hbegun
  have hstamped : v ∈ w.client.stamped.map Prod.fst := hbegun.mem_iff.mpr hv
  obtain ⟨⟨u, t⟩, hx, rfl⟩ := List.mem_map.mp hstamped
  refine ⟨t, hx, ?_⟩
  rcases htracked.recorded _ hx with ⟨f, c, d, hq, _⟩ | ⟨history, htarget, hrec⟩
  · rw [done] at hq
    cases hq
  · rcases hrec.kept with hentry | hnewer
    · left
      unfold Store.entry
      rw [htarget, entryOf_historyData, hentry]
      rfl
    · right
      rw [newerEntries_of_numbers htarget hrec.numbers]
      exact hnewer

end Runs

section Example

private def noon : Clock := ⟨⟨43200, by decide, by decide⟩, ⟨43200, by decide, by decide⟩⟩

private def later : Timestamp := ⟨43205, by decide, by decide⟩

private def alice : Visit := ⟨.footprint, "alice", "carol"⟩

private def twoVisits : List (Event Action Empty) :=
  [.act (.addFootprint (some "alice") "carol"), .act (.addFootprint (some "bob") "carol"),
    .serve 0 true, .serve 1 true, .handle 0, .act (.clock later later), .handle 0,
    .serve 0 true, .serve 1 true, .handle 0, .handle 0]

/-- Alice and Bob both read Carol's empty document; Bob's write then drops Alice's entry. -/
theorem overlapping_visit_lost :
    Along (step Calendar.utc Listing.plain) Lawful (start {} noon) twoVisits ∧
      ((run (step Calendar.utc Listing.plain) (start {} noon) twoVisits).map fun w =>
        (w.inflight.length, w.client.stamped.map fun x => (x.1.uid, x.2.seconds))) =
        some (0, [("bob", 43205), ("alice", 43200)]) ∧
      ((run (step Calendar.utc Listing.plain) (start {} noon) twoVisits).map fun w =>
        (w.server.entry alice (decimal noon.later), newerEntries w.server alice noon.later)) =
        some (none, 1) := by
  decide

private def oneByOne : List (Event Action Empty) :=
  [.act (.addFootprint (some "alice") "carol"), .serve 0 true, .handle 0, .serve 0 true,
    .handle 0, .act (.clock later later), .act (.addFootprint (some "bob") "carol"),
    .serve 0 true, .handle 0, .serve 0 true, .handle 0]

theorem visits_recorded_oneByOne :
    Along (step Calendar.utc Listing.plain) Lawful (start {} noon) oneByOne ∧
      Along (step Calendar.utc Listing.plain) (Undisturbed Calendar.utc) (start {} noon) oneByOne ∧
      ∃ w, run (step Calendar.utc Listing.plain) (start {} noon) oneByOne = some w ∧
        w.inflight = [] ∧ ∀ v ∈ w.client.called, ∃ t, (v, t) ∈ w.client.stamped ∧
          (w.server.entry v (decimal t) = some (.text v.value) ∨
            50 ≤ newerEntries w.server v t) := by
  have lawful : Along (step Calendar.utc Listing.plain) Lawful (start {} noon) oneByOne := by
    decide
  have undisturbed : Along (step Calendar.utc Listing.plain) (Undisturbed Calendar.utc)
      (start {} noon) oneByOne := by
    decide
  have hdone : ((run (step Calendar.utc Listing.plain) (start {} noon) oneByOne).map fun w =>
      w.inflight.isEmpty) = some true := by
    decide
  obtain ⟨w, hw, hempty⟩ := Option.map_eq_some_iff.mp hdone
  have done : w.inflight = [] := List.isEmpty_iff.mp hempty
  exact ⟨lawful, undisturbed, w, hw, done, visits_recorded lawful undisturbed hw done⟩

end Example

end PlateChat.History.Interleaving
