/- PlateChat/Account/Feedback
   digest: Devices that propagate one account to the same articles, and when they come to an end. -/

import PlateChat.Account.Window
import PlateChat.Foundation.Settle

set_option autoImplicit false
set_option relaxedAutoImplicit false

/-!
Every device signed in to an account keeps its own cache of the profile, and each of its
listeners rewrites the articles after that cache. What one device has written is news to
all of them: where two of them want different values, neither is ever content.
-/

namespace PlateChat.Account.Feedback

open PlateChat.Foundation.Run PlateChat.Foundation.EventLoop PlateChat.Foundation.Settle
open PlateChat.Model.Members PlateChat.Model.LocalData PlateChat.Model.Profile
open PlateChat.Account.Service (Backend Device Request Answer Snapshot Outcome notify_notified
  notify_steady articlesDelivered_account)
open PlateChat.Account.Window

variable {ι : Type} [DecidableEq ι]

/-- A listener on one of the devices. -/
structure Listener (ι : Type) where
  device : ι
  listener : Service.Listener
  deriving DecidableEq

/-- What one device does, among all of them. -/
def onDevice (c : ι → Device) (i : ι) (o : Outcome) : Effect (ι → Device) Request (Listener ι) where
  client := Function.update c i o.client
  requests := o.requests
  listeners := o.listeners.map (Listener.mk i)
  removed := o.removed.map (Listener.mk i)

def notify (s : Backend) (c : ι → Device) (l : Listener ι) (x : Option Snapshot) :
    Option (Effect (ι → Device) Request (Listener ι)) :=
  (Service.notify s (c l.device) l.listener x).map (onDevice c l.device)

/-- The completion of an article write does nothing. -/
def handle (c : ι → Device) : Request → Answer →
    Option (Effect (ι → Device) Request (Listener ι))
  | .setArticle _ _, .written _ => some { client := c }
  | _, _ => none

/-- The devices after the last edit: nobody does anything, only the listeners go on. -/
def program : Program Backend (ι → Device) Empty Empty Request Answer (Listener ι) Snapshot where
  act _ _ v := v.elim
  serve := Service.serve
  handle _ c r a := handle c r a
  snapshot s l := Service.snapshot s l.listener
  notify := notify
  env _ h := h.elim

abbrev Network (ι : Type) := World Backend (ι → Device) Request Answer (Listener ι)

def accounts (w : Network ι) (i : ι) : AccountData := (w.client i).account

/-- What a listener wants of every article, by its device's cache. -/
def wants (account : ι → AccountData) (l : Listener ι) : ArticlePatch :=
  match l.listener with
  | .propagate _ => wanted (account l.device)
  | _ => wantedImage (account l.device)

/-- A listener of `updateLoginUser` or of `uploadProfileImage`. -/
def Propagates (u : Uid) (l : Listener ι) : Prop :=
  l.listener = .propagate u ∨ l.listener = .propagateImage u

/-- Only propagating listeners are there, and only their writes are in flight. -/
structure Listening (u : Uid) (w : Network ι) : Prop where
  listeners : ∀ x ∈ w.watches, Propagates u x.listener
  writes : ∀ q ∈ w.inflight, ∃ key p, q.request = .setArticle key p ∧ p.status = none

/-- There is one profile that every listener wants its values from. -/
def Agree (w : Network ι) : Prop :=
  ∃ profile : ArticlePatch, ∀ x ∈ w.watches, Within (wants (accounts w) x.listener) profile

/-- Nothing is going on: no pending write changes an article that is shown, and every listener
with a delivery due reads the articles as it wants them. -/
structure Calm (u : Uid) (w : Network ι) : Prop where
  content : ∀ x ∈ w.watches, x.due = true → ∀ a ∈ window w.server u,
    missing (wants (accounts w) x.listener) a.2 = {}
  still : ∀ key p, ⟨.setArticle key p, none⟩ ∈ w.inflight → ∀ a ∈ window w.server u,
    patched key p a = a

omit [DecidableEq ι] in
theorem handle_nothing {c : ι → Device} {r : Request} {a : Answer}
    {e : Effect (ι → Device) Request (Listener ι)} (he : handle c r a = some e) :
    e = { client := c } := by
  unfold handle at he
  split at he
  · exact (Option.some.inj he).symm
  · cases he

theorem steady : Steady (program (ι := ι)) where
  handle h := by rw [handle_nothing h]
  notify h := by
    obtain ⟨o, ho, rfl⟩ := Option.map_eq_some_iff.mp h
    simp only [onDevice, (notify_steady ho).2, List.map_nil]
  handle_registers h := by rw [handle_nothing h]
  notify_registers h := by
    obtain ⟨o, ho, rfl⟩ := Option.map_eq_some_iff.mp h
    simp only [onDevice, (notify_steady ho).1, List.map_nil]

omit [DecidableEq ι] in
theorem snapshot_propagates {u : Uid} {l : Listener ι} (h : Propagates u l) (s : Backend) :
    Service.snapshot s l.listener = .articles (window s u) := by
  rcases h with h | h <;> rw [h] <;> rfl

theorem notify_propagates {u : Uid} {l : Listener ι} (h : Propagates u l) (s : Backend)
    (c : ι → Device) : ∃ e, notify s c l (some (Service.snapshot s l.listener)) = some e ∧
      e.requests = repairs (wants (fun i => (c i).account) l) (window s u) ∧
      (fun i => (e.client i).account) = fun i => (c i).account := by
  have hsame : ∀ o : Outcome, o.client.account = (c l.device).account →
      (fun i => ((onDevice c l.device o).client i).account) = fun i => (c i).account := by
    intro o ho
    funext i
    by_cases hi : i = l.device
    · rw [hi]
      show (Function.update c l.device o.client l.device).account = _
      rw [Function.update_self, ho]
    · show (Function.update c l.device o.client i).account = _
      rw [Function.update_of_ne hi]
  obtain ⟨i, listener⟩ := l
  rcases h with rfl | rfl
  · refine ⟨_, rfl, ?_, hsame _ (articlesDelivered_account _ _ _ _)⟩
    exact articlesDelivered_repairs (fun _ _ _ => profileData_missing) _ _
  · refine ⟨_, rfl, ?_, hsame _ (articlesDelivered_account _ _ _ _)⟩
    exact articlesDelivered_repairs (fun _ _ _ => imageData_missing) _ _

omit [DecidableEq ι] in
theorem wants_status (account : ι → AccountData) (l : Listener ι) :
    (wants account l).status = none := by
  unfold wants
  split <;> rfl

section Steps

variable {u : Uid} {L : List (Listener ι)} {account : ι → AccountData} {w w' : Network ι}

/-- The listeners and the accounts stay as they are, and only article writes are in flight. -/
structure Held (L : List (Listener ι)) (account : ι → AccountData) (w : Network ι) : Prop where
  watches : w.watches.map Watch.listener = L
  accounts : accounts w = account
  writes : ∀ q ∈ w.inflight, ∃ key p, q.request = .setArticle key p ∧ p.status = none

omit [DecidableEq ι] in
private theorem Held.mem (held : Held L account w) {x : Watch (Listener ι)}
    (hx : x ∈ w.watches) : x.listener ∈ L :=
  held.watches ▸ List.mem_map_of_mem hx

theorem delivered_issues (propagates : ∀ l ∈ L, Propagates u l) (held : Held L account w)
    {x : Watch (Listener ι)} (hx : x ∈ w.watches)
    {e : Effect (ι → Device) Request (Listener ι)}
    (he : notify w.server w.client x.listener
      (some (Service.snapshot w.server x.listener.listener)) = some e) :
    e.requests = repairs (wants account x.listener) (window w.server u) ∧
      (fun i => (e.client i).account) = account := by
  obtain ⟨e', he', hreq, hclient⟩ :=
    notify_propagates (propagates _ (held.mem hx)) w.server w.client
  obtain rfl := Option.some.inj (he'.symm.trans he)
  have haccounts : (fun i => (w.client i).account) = account := held.accounts
  rw [haccounts] at hreq hclient
  exact ⟨hreq, hclient⟩

theorem held_own (propagates : ∀ l ∈ L, Propagates u l) (held : Held L account w)
    (own : Own program w w') : Held L account w' := by
  have hwatches := (steady.listeners_own own).trans held.watches
  cases own with
  | served hi =>
    have hr := held.writes _ (List.mem_of_getElem? hi)
    exact ⟨hwatches, held.accounts, World.calls_served held.writes hr⟩
  | handled hi he =>
    obtain rfl := handle_nothing he
    refine ⟨hwatches, held.accounts, World.calls_perform (World.calls_landed held.writes) ?_⟩
    exact List.forall_mem_nil _
  | @delivered j x e hj hdue he =>
    obtain ⟨hreq, hclient⟩ := delivered_issues propagates held (List.mem_of_getElem? hj) he
    refine ⟨hwatches, hclient, World.calls_perform held.writes fun r hr => ?_⟩
    rw [hreq] at hr
    obtain ⟨-, a, -, -, rfl⟩ := mem_repairs.mp hr
    exact ⟨a.1, _, rfl, rfl⟩

theorem rests_of_silent (propagates : ∀ l ∈ L, Propagates u l) {P : Network ι → Prop}
    (keep : ∀ {w w'}, Held L account w → P w → Own program w w' → P w')
    (silent : ∀ {w}, Held L account w → P w → ∀ x ∈ w.watches, x.due = true →
      repairs (wants account x.listener) (window w.server u) = [])
    (held : Held L account w) (h : P w) : Rests program.step OnItsOwn w := by
  have descent : Descent program unanswered fun w : Network ι => Held L account w ∧ P w := {
    serve := fun _ hi => .inl (unanswered_served hi)
    handle := fun {w i r a e} _ hi he => by
      obtain rfl := handle_nothing he
      refine .inr ⟨?_, rfl, rfl⟩
      rw [unanswered_perform]
      exact unanswered_landed hi
    deliver := fun {w j x e} hinv hj hdue he => by
      have hx := List.mem_of_getElem? hj
      obtain ⟨hreq, -⟩ := delivered_issues propagates hinv.1 hx he
      rw [silent hinv.1 hinv.2 x hx hdue] at hreq
      refine .inr ⟨?_, steady.notify_registers he⟩
      rw [unanswered_perform, hreq]
      rfl }
  exact descent.rests steady.toLasting
    (fun hinv own => ⟨held_own propagates hinv.1 own, keep hinv.1 hinv.2 own⟩) ⟨held, h⟩

theorem window_served (held : Held L account w) {i : Nat} {r : Request}
    (hi : w.inflight[i]? = some ⟨r, none⟩) : ∃ key p, r = .setArticle key p ∧ p.status = none ∧
      window (w.served program i r true).server u = (window w.server u).map (patched key p) := by
  obtain ⟨key, p, hr, hstatus⟩ := held.writes _ (List.mem_of_getElem? hi)
  obtain rfl : r = .setArticle key p := hr
  exact ⟨key, p, rfl, hstatus, window_mergeArticle hstatus w.server u⟩

/-- An article that does not parse keeps every listener from writing. -/
theorem rests_of_unparsed (propagates : ∀ l ∈ L, Propagates u l) (held : Held L account w)
    (h : ∃ a ∈ window w.server u, ¬ a.2.Parses) : Rests program.step OnItsOwn w := by
  refine rests_of_silent (P := fun w => ∃ a ∈ window w.server u, ¬ a.2.Parses) propagates
    (fun {w w'} held hp own => ?_) (fun {w} _ hp x _ _ => ?_) held h
  · obtain ⟨a, ha, hparses⟩ := hp
    cases own with
    | served hi =>
      obtain ⟨key, p, -, hstatus, hwindow⟩ := window_served (u := u) held hi
      refine ⟨patched key p a, hwindow ▸ List.mem_map_of_mem ha, ?_⟩
      rwa [patched_parses hstatus]
    | handled | delivered => exact ⟨a, ha, hparses⟩
  · obtain ⟨a, ha, hparses⟩ := hp
    exact if_neg fun hall => hparses (hall a ha)

omit [DecidableEq ι] in
private theorem calm_silent (held : Held L account w) (calm : Calm u w) {x : Watch (Listener ι)}
    (hx : x ∈ w.watches) (hdue : x.due = true) :
    repairs (wants account x.listener) (window w.server u) = [] := by
  refine List.eq_nil_iff_forall_not_mem.mpr fun r hr => ?_
  obtain ⟨-, a, ha, hmissing, -⟩ := mem_repairs.mp hr
  rw [← held.accounts] at hmissing
  exact hmissing (calm.content x hx hdue a ha)

private theorem calm_served (propagates : ∀ l ∈ L, Propagates u l) (held : Held L account w)
    (calm : Calm u w) {i : Nat} {r : Request} (hi : w.inflight[i]? = some ⟨r, none⟩) :
    Calm u (w.served program i r true) := by
  obtain ⟨key, p, rfl, hstatus, hwindow⟩ := window_served (u := u) held hi
  have hsame : window (w.served program i (.setArticle key p) true).server u =
      window w.server u := by
    rw [hwindow]
    have hfixed := calm.still key p (List.mem_of_getElem? hi)
    exact (List.map_congr_left hfixed).trans (List.map_id' _)
  refine ⟨?_, ?_⟩
  · rw [hsame]
    intro y hy hdue
    obtain ⟨x, hx, rfl⟩ := List.mem_map.mp hy
    have hl := propagates _ (held.mem hx)
    have hsnapshot : Service.snapshot w.server x.listener.listener = Service.snapshot
        (w.served program i (.setArticle key p) true).server x.listener.listener := by
      rw [snapshot_propagates hl, snapshot_propagates hl, hsame]
    have hold : x.due = true := by
      rcases Bool.or_eq_true_iff.mp hdue with h | h
      · exact h
      · exact absurd hsnapshot (of_decide_eq_true h)
    exact calm.content x hx hold
  · rw [hsame]
    intro key' p' hq
    rcases List.mem_or_eq_of_mem_set hq with hq | hq
    · exact calm.still key' p' hq
    · cases hq

private theorem calm_handled (calm : Calm u w) {i : Nat} {r : Request} {a : Answer}
    {e : Effect (ι → Device) Request (Listener ι)} (he : handle w.client r a = some e) :
    Calm u ((w.landed i).perform e) := by
  obtain rfl := handle_nothing he
  refine ⟨fun x hx => calm.content x (mem_handled_watches rfl hx), fun key p hq => ?_⟩
  rw [World.perform_inflight, List.map_nil, List.append_nil] at hq
  exact calm.still key p (List.mem_of_mem_eraseIdx hq)

private theorem calm_delivered (propagates : ∀ l ∈ L, Propagates u l) (held : Held L account w)
    (calm : Calm u w) {j : Nat} {x : Watch (Listener ι)}
    {e : Effect (ι → Device) Request (Listener ι)} (hj : w.watches[j]? = some x)
    (hdue : x.due = true)
    (he : notify w.server w.client x.listener
      (some (Service.snapshot w.server x.listener.listener)) = some e) :
    Calm u ((w.delivered j x.listener).perform e) := by
  have hx := List.mem_of_getElem? hj
  obtain ⟨hreq, hclient⟩ := delivered_issues propagates held hx he
  rw [calm_silent held calm hx hdue] at hreq
  have haccounts : accounts ((w.delivered j x.listener).perform e) = accounts w :=
    hclient.trans held.accounts.symm
  refine ⟨?_, fun key p hq => ?_⟩
  · rw [haccounts]
    intro y hy hdue'
    rcases List.mem_append.mp hy with hy | hy
    · rcases List.mem_or_eq_of_mem_set (List.mem_of_mem_filter hy) with hy | rfl
      · exact calm.content y hy hdue'
      · cases hdue'
    · rw [steady.notify_registers he] at hy
      cases hy
  · rw [World.perform_inflight, hreq, List.map_nil, List.append_nil] at hq
    exact calm.still key p hq

private theorem calm_own (propagates : ∀ l ∈ L, Propagates u l) (held : Held L account w)
    (calm : Calm u w) (own : Own program w w') : Calm u w' := by
  cases own with
  | served hi => exact calm_served propagates held calm hi
  | handled _ he => exact calm_handled calm he
  | delivered hj hdue he => exact calm_delivered propagates held calm hj hdue he

theorem rests_of_calm (propagates : ∀ l ∈ L, Propagates u l) (held : Held L account w)
    (calm : Calm u w) : Rests program.step OnItsOwn w :=
  rests_of_silent (P := Calm u) propagates (calm_own propagates)
    (fun held calm _ hx hdue => calm_silent held calm hx hdue) held calm

/-- Listeners that want their values from one profile bring the articles nearer to it. -/
theorem rests_of_agree (propagates : ∀ l ∈ L, Propagates u l) (held : Held L account w)
    {profile : ArticlePatch} (agree : ∀ l ∈ L, Within (wants account l) profile) :
    Rests program.step OnItsOwn w := by
  have descent : Descent program
      (fun w : Network ι => unsettled profile w.inflight w.server) (Held L account) := {
    serve := fun {w i r} held hi => by
      obtain ⟨key, p, hr, -⟩ := held.writes _ (List.mem_of_getElem? hi)
      obtain rfl : r = .setArticle key p := hr
      refine (unsettled_served profile hi w.server (.written true)).imp_right
        fun ⟨heq, hsame⟩ => ⟨heq, fun x hx => ?_⟩
      have hl := propagates _ (held.mem hx)
      show Service.snapshot (w.server.mergeArticle key p) x.listener.listener =
        Service.snapshot w.server x.listener.listener
      rw [snapshot_propagates hl, snapshot_propagates hl, window, window, hsame]
    handle := fun {w i r a e} _ hi he => by
      obtain rfl := handle_nothing he
      refine .inr ⟨?_, rfl, rfl⟩
      show unsettled profile (w.inflight.eraseIdx i ++ []) w.server = _
      rw [List.append_nil, unsettled_landed profile hi]
    deliver := fun {w j x e} held hj hdue he => by
      have hx := List.mem_of_getElem? hj
      obtain ⟨hreq, -⟩ := delivered_issues propagates held hx he
      refine .inr ⟨?_, steady.notify_registers he⟩
      show unsettled profile (w.inflight ++ e.requests.map _) w.server = _
      rw [hreq]
      exact unsettled_repairs (agree _ (held.mem hx)) _ _ _ }
  exact descent.rests steady.toLasting (held_own propagates) held

/-- What a listener has to issue for what it is shown. -/
def fixes (account : ι → AccountData) (l : Listener ι) : Snapshot → List Request
  | .articles documents => repairs (wants account l) documents
  | _ => []

/-- Articles are shown, all of them parse, and no listener will miss what happens to them. -/
structure Awake (u : Uid) (L : List (Listener ι)) (account : ι → AccountData) (w : Network ι) :
    Prop where
  held : Held L account w
  shown : window w.server u ≠ []
  parses : ∀ a ∈ window w.server u, a.2.Parses
  attended : ∀ l ∈ L, Attended (fixes account) program l w

theorem repairs_program (propagates : ∀ l ∈ L, Propagates u l) (held : Held L account w)
    {l : Listener ι} (hl : l ∈ L) : Repairs (fixes account) program l w where
  shows r hr := by
    have hsnapshot := snapshot_propagates (propagates l hl)
    change r ∈ fixes account l (Service.snapshot w.server l.listener) at hr
    rw [hsnapshot] at hr
    show Service.snapshot (Service.serve w.server r true).1 l.listener ≠
      Service.snapshot w.server l.listener
    rw [hsnapshot, hsnapshot]
    intro heq
    exact window_repaired hr (Snapshot.articles.inj heq)
  issues {e} he r hr := by
    obtain ⟨e', he', hreq, -⟩ := notify_propagates (propagates l hl) w.server w.client
    obtain rfl := Option.some.inj (he'.symm.trans he)
    change r ∈ fixes account l (Service.snapshot w.server l.listener) at hr
    rw [snapshot_propagates (propagates l hl)] at hr
    have haccounts : (fun i => (w.client i).account) = account := held.accounts
    rw [hreq, haccounts]
    exact hr

theorem awake_own (propagates : ∀ l ∈ L, Propagates u l) (awake : Awake u L account w)
    (own : Own program w w') : Awake u L account w' := by
  have hattended : ∀ l ∈ L, Attended (fixes account) program l w' := fun l hl =>
    (awake.attended l hl).own steady.toLasting (repairs_program propagates awake.held hl) own
  have hheld := held_own propagates awake.held own
  cases own with
  | served hi =>
    obtain ⟨key, p, -, hstatus, hwindow⟩ := window_served (u := u) awake.held hi
    refine ⟨hheld, ?_, ?_, hattended⟩
    · rw [hwindow]
      simpa using awake.shown
    · rw [hwindow]
      intro b hb
      obtain ⟨a, ha, rfl⟩ := List.mem_map.mp hb
      exact (patched_parses hstatus).mpr (awake.parses a ha)
  | handled | delivered => exact ⟨hheld, awake.shown, awake.parses, hattended⟩

theorem agree_of_halted (propagates : ∀ l ∈ L, Propagates u l) (awake : Awake u L account w)
    (halt : Halted program.step OnItsOwn w) :
    ∃ profile : ArticlePatch, ∀ l ∈ L, Within (wants account l) profile := by
  obtain ⟨a, ha⟩ := List.exists_mem_of_ne_nil _ awake.shown
  refine ⟨readings a.2, fun l hl => ?_⟩
  obtain ⟨e, he, -⟩ := notify_propagates (propagates l hl) w.server w.client
  have hnone : fixes account l (Service.snapshot w.server l.listener) = [] :=
    (awake.attended l hl).settled halt he
  rw [snapshot_propagates (propagates l hl)] at hnone
  have hmissing : missing (wants account l) a.2 = {} := by
    by_contra hne
    have hrepair := mem_repairs.mpr ⟨awake.parses, a, ha, hne, rfl⟩
    rw [show repairs (wants account l) (window w.server u) = [] from hnone] at hrepair
    cases hrepair
  exact (missing_eq_empty (wants_status account l)).mp hmissing

/-- A write that changes what is shown wakes every listener. -/
theorem awake_of_served (held : Held L account w) (propagates : ∀ l ∈ L, Propagates u l)
    (parses : ∀ a ∈ window w.server u, a.2.Parses) {i key : Nat} {p : ArticlePatch}
    (hi : w.inflight[i]? = some ⟨.setArticle key p, none⟩) {a : Nat × ArticleDoc}
    (ha : a ∈ window w.server u) (changes : patched key p a ≠ a) :
    Awake u L account (w.served program i (.setArticle key p) true) := by
  have own : Own program w (w.served program i (.setArticle key p) true) := .served hi
  obtain ⟨key', p', hr, hstatus, hwindow⟩ := window_served (u := u) held hi
  cases hr
  have hnews : window w.server u ≠
      window (w.served program i (.setArticle key p) true).server u := by
    rw [hwindow]
    intro heq
    have hid : (window w.server u).map (patched key p) = (window w.server u).map id := by
      rw [← heq, List.map_id]
    exact changes (List.map_inj_left.mp hid a ha)
  refine ⟨held_own propagates held own, ?_, ?_, fun l hl => ?_⟩
  · rw [hwindow]
    exact List.ne_nil_of_mem (List.mem_map_of_mem ha)
  · rw [hwindow]
    intro b hb
    obtain ⟨c, hc, rfl⟩ := List.mem_map.mp hb
    exact (patched_parses hstatus).mpr (parses c hc)
  · have hwatch := hl
    rw [← held.watches] at hwatch
    obtain ⟨x, hx, rfl⟩ := List.mem_map.mp hwatch
    refine ⟨_, List.mem_map_of_mem hx, rfl, .inl ?_⟩
    have hsnapshot := snapshot_propagates (propagates _ hl)
    refine Bool.or_eq_true_iff.mpr (.inr (decide_eq_true ?_))
    show Service.snapshot w.server x.listener.listener ≠
      Service.snapshot (w.served program i (.setArticle key p) true).server x.listener.listener
    rw [hsnapshot, hsnapshot]
    exact fun heq => hnews (Snapshot.articles.inj heq)

/-- A system that rests after a change has agreeing listeners. -/
theorem agree_of_stirred (propagates : ∀ l ∈ L, Propagates u l) (held : Held L account w)
    (parses : ∀ a ∈ window w.server u, a.2.Parses) (rests : Rests program.step OnItsOwn w)
    {key : Nat} {p : ArticlePatch} (pending : ⟨.setArticle key p, none⟩ ∈ w.inflight)
    {a : Nat × ArticleDoc} (ha : a ∈ window w.server u) (changes : patched key p a ≠ a) :
    ∃ profile : ArticlePatch, ∀ l ∈ L, Within (wants account l) profile := by
  obtain ⟨i, hi⟩ := List.mem_iff_getElem?.mp pending
  have hserved : program.step w (.serve i true) =
      some (w.served program i (.setArticle key p) true) := Program.fires_step (.serve hi)
  have hrests : Rests program.step OnItsOwn (w.served program i (.setArticle key p) true) :=
    rests.inv ⟨.serve i true, rfl, hserved⟩
  obtain ⟨t, hreach, halt⟩ := hrests.halts
  have hawake := reaches_own (awake_own propagates) hreach
    (awake_of_served held propagates parses hi ha changes)
  exact agree_of_halted propagates hawake halt

theorem agree_of_rests (propagates : ∀ l ∈ L, Propagates u l) (held : Held L account w)
    (parses : ∀ a ∈ window w.server u, a.2.Parses) (rests : Rests program.step OnItsOwn w)
    (stirred : ¬ Calm u w) :
    ∃ profile : ArticlePatch, ∀ l ∈ L, Within (wants account l) profile := by
  by_cases hstill : ∀ key p, ⟨.setArticle key p, none⟩ ∈ w.inflight →
      ∀ a ∈ window w.server u, patched key p a = a
  · have hcontent : ¬ ∀ x ∈ w.watches, x.due = true → ∀ a ∈ window w.server u,
        missing (wants (accounts w) x.listener) a.2 = {} := fun h => stirred ⟨h, hstill⟩
    simp only [not_forall] at hcontent
    obtain ⟨x, hx, hdue, a, ha, hmissing⟩ := hcontent
    rw [held.accounts] at hmissing
    -- deliver to the listener that misses something, so that a change is on its way
    obtain ⟨e, he, hreq, -⟩ := notify_propagates (propagates _ (held.mem hx)) w.server w.client
    obtain ⟨j, hj⟩ := List.mem_iff_getElem?.mp hx
    have own : Own program w ((w.delivered j x.listener).perform e) := .delivered hj hdue he
    have hdelivered : program.step w (.deliver j true) =
        some ((w.delivered j x.listener).perform e) := Program.fires_step (.deliver hj he)
    have hguard : OnItsOwn (ν := Empty) (η := Empty) w (.deliver j true) := ⟨rfl, x, hj, hdue⟩
    have hrests : Rests program.step OnItsOwn ((w.delivered j x.listener).perform e) :=
      rests.inv ⟨.deliver j true, hguard, hdelivered⟩
    have haccounts : (fun i => (w.client i).account) = account := held.accounts
    have hissued : .setArticle a.1 (missing (wants account x.listener) a.2) ∈ e.requests := by
      rw [hreq, haccounts]
      exact mem_repairs.mpr ⟨parses, a, ha, hmissing, rfl⟩
    refine agree_of_stirred (w := (w.delivered j x.listener).perform e) propagates
      (held_own propagates held own) parses hrests
      (List.mem_append_right _ (List.mem_map_of_mem hissued)) ha ?_
    rw [patched, if_pos rfl]
    exact fun heq => merge_missing_ne hmissing (congrArg Prod.snd heq)
  · simp only [not_forall] at hstill
    obtain ⟨key, p, hpending, a, ha, hchanges⟩ := hstill
    exact agree_of_stirred propagates held parses rests hpending ha hchanges

end Steps

/-- The listeners write finitely often exactly when an article does not parse, when all of them
want their values from one profile, or when nothing was going on. -/
theorem writes_end_iff {u : Uid} {w : Network ι} (listening : Listening u w) :
    IssuesEnd program w ↔
      (∃ a ∈ window w.server u, ¬ a.2.Parses) ∨ Agree w ∨ Calm u w := by
  have propagates : ∀ l ∈ w.watches.map Watch.listener, Propagates u l :=
    List.forall_mem_map.mpr listening.listeners
  have held : Held (w.watches.map Watch.listener) (accounts w) w :=
    ⟨rfl, rfl, listening.writes⟩
  rw [issuesEnd_iff_rests steady]
  constructor
  · intro rests
    by_cases parses : ∀ a ∈ window w.server u, a.2.Parses
    · by_cases calm : Calm u w
      · exact .inr (.inr calm)
      · obtain ⟨profile, hprofile⟩ := agree_of_rests propagates held parses rests calm
        exact .inr (.inl ⟨profile, List.forall_mem_map.mp hprofile⟩)
    · simp only [not_forall] at parses
      obtain ⟨a, ha, hparses⟩ := parses
      exact .inl ⟨a, ha, hparses⟩
  · rintro (unparsed | ⟨profile, agree⟩ | calm)
    · exact rests_of_unparsed propagates held unparsed
    · exact rests_of_agree propagates held (List.forall_mem_map.mpr agree)
    · exact rests_of_calm propagates held calm

section Example

private def posted : ArticleDoc where
  uid := some "alice"
  text := some "hello"
  status := some 1
  createdAt := some 0
  userNickname := some "Alice"

/-- Alice's two devices, each with a listener of an earlier edit; the article is from before. -/
private def devices (first second : String) : Network Bool where
  server := { uids := fun _ => "dave", urls := fun _ => "", articles := [(0, posted)] }
  client i := {
    account := { nickname := some (if i then first else second), myProfileImage := some "" }
    emails := fun _ => "" }
  watches := [⟨⟨true, .propagate "alice"⟩, true⟩, ⟨⟨false, .propagate "alice"⟩, false⟩]

private theorem listening_devices (first second : String) :
    Listening "alice" (devices first second) where
  listeners x hx := by
    simp only [devices, List.mem_cons, List.not_mem_nil, or_false] at hx
    rcases hx with rfl | rfl <;> exact .inl rfl
  writes := List.forall_mem_nil _

/-- The second device has not heard of the new nickname: the two write forever. -/
theorem devices_write_forever : ¬ IssuesEnd program (devices "Alicia" "Alice") := by
  rw [issuesEnd_iff_rests steady]
  intro rests
  have listening := listening_devices "Alicia" "Alice"
  have propagates := List.forall_mem_map.mpr listening.listeners
  have parses : ∀ a ∈ window (devices "Alicia" "Alice").server "alice", a.2.Parses := by decide
  have stirred : ¬ Calm "alice" (devices "Alicia" "Alice") := by
    intro calm
    have hcontent := calm.content _ List.mem_cons_self rfl (0, posted) (by decide)
    revert hcontent
    decide
  obtain ⟨profile, hprofile⟩ := agree_of_rests propagates
    ⟨rfl, rfl, listening.writes⟩ parses rests stirred
  have hfirst := (hprofile ⟨true, .propagate "alice"⟩ (by decide)).nickname
  have hsecond := (hprofile ⟨false, .propagate "alice"⟩ (by decide)).nickname
  rcases hfirst with hfirst | hfirst
  · revert hfirst
    decide
  · rcases hsecond with hsecond | hsecond
    · revert hsecond
      decide
    · have heq := hfirst.trans hsecond.symm
      revert heq
      decide

/-- Once both have it, the writes end. -/
theorem devices_write_once : IssuesEnd program (devices "Alicia" "Alicia") := by
  refine (writes_end_iff (listening_devices "Alicia" "Alicia")).mpr (.inr (.inl ?_))
  refine ⟨wanted { nickname := some "Alicia", myProfileImage := some "" }, ?_⟩
  decide

end Example

end PlateChat.Account.Feedback
