/- PlateChat/Account/Switch
   digest: How often one switch of accounts signs in and completes. -/

import PlateChat.Account.Service

set_option autoImplicit false
set_option relaxedAutoImplicit false

/-!
The listener of a switch signs in on every delivery. Each delivery is answered once,
by a refusal or by a sign-in whose completion finishes the switch, so the number of
sign-ins and of completions is that of the deliveries.
-/

namespace PlateChat.Account.Switch

open PlateChat.Foundation.Dictionary PlateChat.Foundation.Run PlateChat.Foundation.EventLoop
open PlateChat.Foundation.Rules
open PlateChat.Model.Members PlateChat.Model.LocalData PlateChat.Model.Profile
open PlateChat.Account.Service

/-- The note that a delivery to the listener of `call` issued a sign-in. -/
def issuedBy (call : Nat) : Obs → Bool
  | .signInIssued c => c = call
  | _ => false

/-- The note that a delivery to the listener of `call` completed with an error at once. -/
def refusedBy (call : Nat) : Obs → Bool
  | .switchRefused c => c = call
  | _ => false

/-- The note that a sign-in of `call` completed. -/
def finishedBy (call : Nat) : Obs → Bool
  | .switchFinished c _ => c = call
  | _ => false

/-- Runs of the completion handler of `call`. -/
def completions (call : Nat) (log : List Obs) : Nat :=
  log.countP (refusedBy call) + log.countP (finishedBy call)

/-- Each switch issues at most one sign-in, completes at most once, and signs in at
most once, so no sign-in happens without a call of its own. -/
def OncePerSwitch (w : Phone) : Prop :=
  (∀ call, w.client.log.countP (issuedBy call) ≤ 1 ∧ completions call w.client.log ≤ 1) ∧
    w.server.signedIn.Nodup

/-- The service of a request that creates an account, or signs in to the one just created. -/
def Creates (w : Phone) : Event Action Change → Prop
  | .serve i _ => ∃ email password answer, w.inflight[i]? = some ⟨.createAuth email password, answer⟩ ∨
      w.inflight[i]? = some ⟨.signInCreated email password, answer⟩
  | _ => False

/-- A step that changes the signed-in user creates an account, or is the first sign-in of
a call. -/
def OwnSignIn (w : Phone) (ev : Event Action Change) : Prop :=
  ∀ w' ∈ step w ev, w'.server.currentUser ≠ w.server.currentUser →
    Creates w ev ∨ ∃ call, call ∉ w.server.signedIn ∧
      w'.server.signedIn = call :: w.server.signedIn

/-- The listener of a switch is delivered only once. -/
def DeliveredOnce (w : Phone) : Event Action Change → Prop
  | .deliver j _ => ∀ x ∈ w.watches[j]?, match x.listener with
    | .switchUser call _ _ =>
      w.client.log.countP (issuedBy call) + w.client.log.countP (refusedBy call) = 0
    | _ => True
  | _ => True

instance (w : Phone) : ∀ ev, Decidable (DeliveredOnce w ev)
  | .deliver j _ =>
    have : ∀ x : Watch Listener, Decidable (match x.listener with
        | .switchUser call _ _ =>
          w.client.log.countP (issuedBy call) + w.client.log.countP (refusedBy call) = 0
        | _ => True) := fun x => match x.listener with
      | .switchUser _ _ _ => inferInstanceAs (Decidable (_ = _))
      | .propagate _ | .propagateImage _ | .endArticles _ | .syncBlockUser _
      | .syncBlockedUser _ => .isTrue trivial
    inferInstanceAs (Decidable (∀ x ∈ w.watches[j]?, _))
  | .act _ | .serve _ _ | .handle _ | .env _ => .isTrue trivial

def signing (call : Nat) : Call Request Answer → Nat
  | ⟨.signIn c _, _⟩ => if c = call then 1 else 0
  | _ => 0

def unserved (call : Nat) : Call Request Answer → Nat
  | ⟨.signIn c _, none⟩ => if c = call then 1 else 0
  | _ => 0

/-- Every sign-in issued is in flight or finished, a served one was issued, and what a
call's deliveries led to is bounded by one. -/
structure Ledger (call : Nat) (w : Phone) : Prop where
  finished : w.client.log.countP (finishedBy call) + total (signing call) w.inflight =
    w.client.log.countP (issuedBy call)
  served : w.server.signedIn.count call + total (unserved call) w.inflight ≤
    w.client.log.countP (issuedBy call)
  once : w.client.log.countP (issuedBy call) + w.client.log.countP (refusedBy call) ≤ 1

private theorem weight_plain {r : Request} (h : Plain r) (a : Option Answer) (call : Nat) :
    signing call ⟨r, a⟩ = 0 ∧ unserved call ⟨r, a⟩ = 0 := by
  cases r with
  | signIn c user => exact absurd rfl (h c user)
  | createAuth | signInCreated | setNewUser | setProfile | setDeleted | setLogin | getProfile
  | putAvatar | downloadURL | setImage | getBlockUser | getBlockedUser | setArticle =>
    exact ⟨rfl, rfl⟩

private theorem total_plain {requests : List Request} (h : ∀ r ∈ requests, Plain r) (call : Nat) :
    total (signing call) (requests.map fun r => ⟨r, none⟩) = 0 ∧
      total (unserved call) (requests.map fun r => ⟨r, none⟩) = 0 := by
  constructor
  · apply total_eq_zero
    intro c hc
    obtain ⟨r, hr, rfl⟩ := List.mem_map.mp hc
    exact (weight_plain (h r hr) none call).1
  · apply total_eq_zero
    intro c hc
    obtain ⟨r, hr, rfl⟩ := List.mem_map.mp hc
    exact (weight_plain (h r hr) none call).2

/-- Notes of caches and of articles are none of a switch. -/
private def Aside : Obs → Prop
  | .propagated _ _ | .received _ _ _ => True
  | _ => False

private theorem count_aside {notes : List Obs} (h : ∀ o ∈ notes, Aside o) (call : Nat) :
    notes.countP (issuedBy call) = 0 ∧ notes.countP (refusedBy call) = 0 ∧
      notes.countP (finishedBy call) = 0 := by
  refine ⟨List.countP_eq_zero.mpr ?_, List.countP_eq_zero.mpr ?_, List.countP_eq_zero.mpr ?_⟩
  all_goals
    intro o ho
    have haside := h o ho
    cases o with
    | propagated | received => exact Bool.false_ne_true
    | signInIssued | switchRefused | switchFinished => exact haside.elim

private theorem aside_blockUser (s : Backend) (d : Device) (uid : Uid)
    (answer : Except ServiceError (Option MembersDoc)) :
    ∀ o ∈ blockUserNotes s d uid answer, Aside o := by
  intro o ho
  unfold blockUserNotes at ho
  split at ho
  · obtain rfl := List.mem_singleton.mp ho
    trivial
  · cases ho

private theorem aside_blockedUser (s : Backend) (d : Device) (uid : Uid)
    (answer : Except ServiceError (Option MembersDoc)) :
    ∀ o ∈ blockedUserNotes s d uid answer, Aside o := by
  intro o ho
  unfold blockedUserNotes at ho
  split at ho
  · obtain rfl := List.mem_singleton.mp ho
    trivial
  · cases ho

private theorem aside_handle (s : Backend) (d : Device) {r : Request} (h : Plain r) (a : Answer) :
    ∀ o ∈ handleNotes s d r a, Aside o := by
  intro o ho
  unfold handleNotes at ho
  split at ho
  · split at ho
    · obtain rfl := List.mem_singleton.mp ho
      trivial
    · cases ho
  · exact aside_blockUser s d _ _ o ho
  · exact aside_blockedUser s d _ _ o ho
  · exact absurd rfl (h _ _)
  · exact absurd rfl (h _ _)
  · cases ho

/-- A listener that belongs to no switch. -/
private def OtherListener (l : Listener) : Prop :=
  ∀ call loginEmail loginPassword, l ≠ .switchUser call loginEmail loginPassword

private theorem aside_notify (s : Backend) (d : Device) {l : Listener} (h : OtherListener l)
    (x : Option Snapshot) : ∀ o ∈ notifyNotes s d l x, Aside o := by
  intro o ho
  unfold notifyNotes at ho
  split at ho
  · split at ho
    · obtain ⟨a, _, rfl⟩ := List.mem_map.mp ho
      trivial
    · cases ho
  · split at ho
    · obtain ⟨a, _, rfl⟩ := List.mem_map.mp ho
      trivial
    · cases ho
  · exact absurd rfl (h _ _ _)
  · exact absurd rfl (h _ _ _)
  · exact aside_blockUser s d _ _ o ho
  · exact aside_blockedUser s d _ _ o ho
  · cases ho

private theorem plain_notify {s : Backend} {d : Device} {l : Listener} (h : OtherListener l)
    {x : Option Snapshot} {o : Outcome} (ho : notify s d l x = some o) :
    ∀ r ∈ o.requests, Plain r := by
  have harticles : ∀ data documents, ∀ r ∈ (articlesDelivered s d data documents).requests,
      Plain r := by
    intro data documents r hr
    unfold articlesDelivered at hr
    split at hr
    · obtain ⟨a, _, rfl⟩ := List.mem_map.mp hr
      exact fun _ _ h => nomatch h
    · cases hr
  cases notify_notified ho with
  | propagate | propagateImage => exact harticles _ _
  | endArticles uid documents =>
    unfold endArticlesDelivered
    split
    · intro r hr
      obtain ⟨a, _, rfl⟩ := List.mem_map.mp hr
      exact fun _ _ h => nomatch h
    · exact fun r hr => nomatch hr
  | switchFailed | switchUser => exact absurd rfl (h _ _ _)
  | failed | syncBlockUser | syncBlockedUser => exact fun r hr => nomatch hr

private theorem ledger_perform {call : Nat} {w : Phone} {o : Outcome} {notes : List Obs}
    {flight : List (Call Request Answer)} {watches : List (Watch Listener)}
    (hlog : o.client.log = notes ++ w.client.log)
    (hfinished : notes.countP (finishedBy call) + w.client.log.countP (finishedBy call) +
      (total (signing call) flight + total (signing call) (o.requests.map fun r => ⟨r, none⟩)) =
        notes.countP (issuedBy call) + w.client.log.countP (issuedBy call))
    (hserved : w.server.signedIn.count call + (total (unserved call) flight +
      total (unserved call) (o.requests.map fun r => ⟨r, none⟩)) ≤
        notes.countP (issuedBy call) + w.client.log.countP (issuedBy call))
    (honce : notes.countP (issuedBy call) + w.client.log.countP (issuedBy call) +
      (notes.countP (refusedBy call) + w.client.log.countP (refusedBy call)) ≤ 1) :
    Ledger call ((⟨w.server, w.client, flight, watches⟩ : Phone).perform o) where
  finished := by
    show o.client.log.countP _ + total _ (flight ++ _) = o.client.log.countP _
    rw [hlog, List.countP_append, List.countP_append, total_append]
    exact hfinished
  served := by
    show w.server.signedIn.count call + total _ (flight ++ _) ≤ o.client.log.countP _
    rw [hlog, List.countP_append, total_append]
    exact hserved
  once := by
    show o.client.log.countP _ + o.client.log.countP _ ≤ 1
    rw [hlog, List.countP_append, List.countP_append]
    exact honce

private theorem ledger_aside {call : Nat} {w : Phone} (h : Ledger call w) {o : Outcome}
    {notes : List Obs} {flight : List (Call Request Answer)} {watches : List (Watch Listener)}
    (hlog : o.client.log = notes ++ w.client.log) (haside : ∀ n ∈ notes, Aside n)
    (hplain : ∀ r ∈ o.requests, Plain r)
    (hsigning : total (signing call) flight = total (signing call) w.inflight)
    (hunserved : total (unserved call) flight ≤ total (unserved call) w.inflight) :
    Ledger call ((⟨w.server, w.client, flight, watches⟩ : Phone).perform o) := by
  obtain ⟨hissued, hrefused, hfinished⟩ := count_aside haside call
  obtain ⟨hs, hu⟩ := total_plain hplain call
  have hfinishedBefore := h.finished
  have hservedBefore := h.served
  have honce := h.once
  refine ledger_perform hlog ?_ ?_ ?_
  · omega
  · omega
  · omega

private theorem signedIn_served (s : Backend) (r : Request) (ok : Bool) (call : Nat) :
    (serve s r ok).1.signedIn.count call + unserved call ⟨r, some (serve s r ok).2⟩ ≤
      s.signedIn.count call + unserved call ⟨r, none⟩ := by
  cases r with
  | signIn c user =>
    cases ok with
    | false => exact Nat.le_add_right _ _
    | true =>
      simp only [serve, signIn]
      split
      · show (c :: s.signedIn).count call + 0 ≤ _
        rw [List.count_cons]
        simp only [unserved, beq_iff_eq, Nat.add_zero, Nat.le_refl]
      · exact Nat.le_add_right _ _
  | createAuth email password =>
    cases ok with
    | false => exact Nat.le_refl _
    | true =>
      simp only [serve, createAuth]
      split <;> exact Nat.le_refl _
  | signInCreated email password =>
    cases ok with
    | false => exact Nat.le_refl _
    | true =>
      simp only [serve, signInCreated]
      split <;> exact Nat.le_refl _
  | setNewUser | setProfile | setDeleted | setLogin | getProfile | putAvatar | downloadURL
  | setImage | getBlockUser | getBlockedUser | setArticle => cases ok <;> exact Nat.le_refl _

private theorem ledger_serve {call : Nat} {w : Phone} (h : Ledger call w) {i : Nat} {r : Request}
    (ok : Bool) (hi : w.inflight[i]? = some ⟨r, none⟩) :
    Ledger call (w.served program i r ok) := by
  have hsigning := total_served (signing call)
    (⟨r, some (serve w.server r ok).2⟩ : Call Request Answer) hi
  have hunserved := total_served (unserved call)
    (⟨r, some (serve w.server r ok).2⟩ : Call Request Answer) hi
  have hsame : signing call ⟨r, some (serve w.server r ok).2⟩ = signing call ⟨r, none⟩ := by
    cases r <;> rfl
  have hserved := signedIn_served w.server r ok call
  refine ⟨?_, ?_, h.once⟩
  · show w.client.log.countP _ + total _ (w.inflight.set i ⟨r, some (serve w.server r ok).2⟩) =
      w.client.log.countP _
    have := h.finished
    omega
  · show (serve w.server r ok).1.signedIn.count call +
      total _ (w.inflight.set i ⟨r, some (serve w.server r ok).2⟩) ≤ w.client.log.countP _
    have := h.served
    omega

private theorem ledger_handle {call : Nat} {w : Phone} (h : Ledger call w) {i : Nat} {r : Request}
    {a : Answer} {o : Outcome} (hi : w.inflight[i]? = some ⟨r, some a⟩)
    (ho : handle w.server w.client r a = some o) : Ledger call ((w.landed i).perform o) := by
  have hsigning := total_landed (signing call) hi
  have hunserved := total_landed (unserved call) hi
  by_cases hplain : Plain r
  · obtain ⟨hs, hu⟩ := weight_plain hplain (some a) call
    refine ledger_aside h (handle_log ho) (aside_handle w.server w.client hplain a)
      (handle_plain ho) ?_ ?_
    · omega
    · omega
  · simp only [Plain, not_forall, not_not] at hplain
    obtain ⟨c, user, rfl⟩ := hplain
    obtain ⟨hs, hu⟩ := total_plain (handle_plain ho) call
    have hlog := handle_log ho
    have hfinishedBefore := h.finished
    have hservedBefore := h.served
    have honce := h.once
    -- the completion of a sign-in notes one end and no beginning
    have hnotes : (handleNotes w.server w.client (.signIn c user) a).countP (finishedBy call) =
          signing call ⟨.signIn c user, some a⟩ ∧
        (handleNotes w.server w.client (.signIn c user) a).countP (issuedBy call) = 0 ∧
        (handleNotes w.server w.client (.signIn c user) a).countP (refusedBy call) = 0 := by
      cases a with
      | signedIn uid =>
        cases uid <;> simp [handleNotes, finishedBy, issuedBy, refusedBy, signing, List.countP_cons]
      | created | written | profile | url | members => cases ho
    obtain ⟨hfinished, hissued, hrefused⟩ := hnotes
    refine ledger_perform hlog ?_ ?_ ?_
    · omega
    · omega
    · omega

private theorem switch_answered {s : Backend} {d : Device} {c : Nat}
    {loginEmail loginPassword : String} {ok : Bool} {o : Outcome}
    (ho : notify s d (.switchUser c loginEmail loginPassword)
      (if ok then some (snapshot s (.switchUser c loginEmail loginPassword)) else none) = some o) :
    (o.client.log = .switchRefused c :: d.log ∧ o.requests = []) ∨
      ∃ user, o.client.log = .signInIssued c :: d.log ∧ o.requests = [.signIn c user] := by
  cases ok with
  | false =>
    obtain rfl := Option.some.inj ho
    exact .inl ⟨rfl, rfl⟩
  | true =>
    obtain rfl := Option.some.inj ho
    simp only [switchDelivered]
    split
    · exact .inl ⟨rfl, rfl⟩
    · split
      · exact .inr ⟨_, rfl, rfl⟩
      · exact .inl ⟨rfl, rfl⟩

private theorem ledger_refused {call c : Nat} {w : Phone} (h : Ledger call w)
    (first : w.client.log.countP (issuedBy c) + w.client.log.countP (refusedBy c) = 0)
    {watches : List (Watch Listener)} {o : Outcome}
    (hlog : o.client.log = .switchRefused c :: w.client.log) (hreq : o.requests = []) :
    Ledger call ((⟨w.server, w.client, w.inflight, watches⟩ : Phone).perform o) := by
  have hfinishedBefore := h.finished
  have hservedBefore := h.served
  have honce := h.once
  have hfinished : [Obs.switchRefused c].countP (finishedBy call) = 0 := rfl
  have hissued : [Obs.switchRefused c].countP (issuedBy call) = 0 := rfl
  have hrefused : [Obs.switchRefused c].countP (refusedBy call) = if c = call then 1 else 0 := by
    simp [List.countP_cons, refusedBy]
  have hsigning : total (signing call) [] = 0 := rfl
  have hunserved : total (unserved call) [] = 0 := rfl
  have hnotes : o.client.log = [.switchRefused c] ++ w.client.log := hlog
  refine ledger_perform hnotes ?_ ?_ ?_
  · rw [hreq, List.map_nil]
    omega
  · rw [hreq, List.map_nil]
    omega
  · by_cases hc : c = call
    · subst hc
      rw [if_pos rfl] at hrefused
      omega
    · rw [if_neg hc] at hrefused
      omega

private theorem ledger_issued {call c : Nat} {w : Phone} (h : Ledger call w)
    (first : w.client.log.countP (issuedBy c) + w.client.log.countP (refusedBy c) = 0)
    {watches : List (Watch Listener)} {o : Outcome} {user : LoginUser}
    (hlog : o.client.log = .signInIssued c :: w.client.log) (hreq : o.requests = [.signIn c user]) :
    Ledger call ((⟨w.server, w.client, w.inflight, watches⟩ : Phone).perform o) := by
  have hfinishedBefore := h.finished
  have hservedBefore := h.served
  have honce := h.once
  have hfinished : [Obs.signInIssued c].countP (finishedBy call) = 0 := rfl
  have hrefused : [Obs.signInIssued c].countP (refusedBy call) = 0 := rfl
  have hissued : [Obs.signInIssued c].countP (issuedBy call) = if c = call then 1 else 0 := by
    simp [List.countP_cons, issuedBy]
  have hsigning : total (signing call) [⟨.signIn c user, none⟩] = if c = call then 1 else 0 := rfl
  have hunserved : total (unserved call) [⟨.signIn c user, none⟩] = if c = call then 1 else 0 :=
    rfl
  have hnotes : o.client.log = [.signInIssued c] ++ w.client.log := hlog
  refine ledger_perform hnotes ?_ ?_ ?_
  · rw [hreq, List.map_singleton]
    omega
  · rw [hreq, List.map_singleton]
    omega
  · by_cases hc : c = call
    · subst hc
      rw [if_pos rfl] at hissued
      omega
    · rw [if_neg hc] at hissued
      omega

private theorem ledger_step {call : Nat} {w w' : Phone} {ev : Event Action Change}
    (h : Ledger call w) (once : DeliveredOnce w ev) (hstep : step w ev = some w') :
    Ledger call w' := by
  cases Program.step_fires hstep with
  | @act v o ho =>
    obtain rfl := Option.some.inj ho
    have hlog : (act w.server w.client v).client.log = [] ++ w.client.log :=
      act_log w.server w.client v
    exact ledger_aside h hlog (fun _ hn => nomatch hn) (act_plain w.server w.client v) rfl
      (Nat.le_refl _)
  | serve hi => exact ledger_serve h _ hi
  | handle hi ho => exact ledger_handle h hi ho
  | @deliver j ok x o hj ho =>
    by_cases hother : OtherListener x.listener
    · exact ledger_aside h (notify_log ho) (aside_notify w.server w.client hother _)
        (plain_notify hother ho) rfl (Nat.le_refl _)
    · simp only [OtherListener, not_forall, not_not] at hother
      obtain ⟨c, loginEmail, loginPassword, hl⟩ := hother
      have first := once x hj
      rw [hl] at first
      rw [hl] at ho
      rcases switch_answered ho with ⟨hlog, hreq⟩ | ⟨user, hlog, hreq⟩
      · exact ledger_refused h first hlog hreq
      · exact ledger_issued h first hlog hreq
  | @env change =>
    refine ⟨h.finished, ?_, h.once⟩
    have hsame : (env w.server change).signedIn = w.server.signedIn := by cases change <;> rfl
    show (env w.server change).signedIn.count call + _ ≤ _
    rw [hsame]
    exact h.served

private theorem ledger_start (s : Backend) (d : Device) (call : Nat) : Ledger call (start s d) :=
  ⟨rfl, Nat.le_refl 0, Nat.zero_le 1⟩

private theorem env_signed_in (s : Backend) (change : Change) :
    (env s change).signedIn = s.signedIn ∧ (env s change).currentUser = s.currentUser := by
  cases change <;> exact ⟨rfl, rfl⟩

/-- Only three requests change who is signed in. -/
private theorem current_user_served (s : Backend) (r : Request) (ok : Bool)
    (changed : (serve s r ok).1.currentUser ≠ s.currentUser) :
    (∃ email password, r = .createAuth email password ∨ r = .signInCreated email password) ∨
      ∃ call user, r = .signIn call user ∧ (serve s r ok).1.signedIn = call :: s.signedIn := by
  cases r with
  | createAuth email password => exact .inl ⟨email, password, .inl rfl⟩
  | signInCreated email password => exact .inl ⟨email, password, .inr rfl⟩
  | signIn call user =>
    refine .inr ⟨call, user, rfl, ?_⟩
    cases ok with
    | false => exact absurd rfl changed
    | true =>
      revert changed
      simp only [serve, signIn]
      split
      · exact fun _ => rfl
      · exact fun changed => absurd rfl changed
  | setNewUser | setProfile | setDeleted | setLogin | getProfile | putAvatar | downloadURL
  | setImage | getBlockUser | getBlockedUser | setArticle =>
    cases ok <;> exact absurd rfl changed

private theorem own_sign_in {w : Phone} {ev : Event Action Change}
    (h : ∀ call, Ledger call w) (once : DeliveredOnce w ev) : OwnSignIn w ev := by
  intro w' hw' changed
  have hafter : ∀ call, Ledger call w' := fun call => ledger_step (h call) once hw'
  cases Program.step_fires hw' with
  | act | handle | deliver => exact absurd rfl changed
  | env => exact absurd (env_signed_in w.server _).2 changed
  | @serve i ok r hi =>
    rcases current_user_served w.server r ok changed with ⟨email, password, hr⟩ | ⟨c, user, rfl, hc⟩
    · refine .inl ⟨email, password, none, ?_⟩
      rcases hr with rfl | rfl
      · exact .inl hi
      · exact .inr hi
    · refine .inr ⟨c, ?_, hc⟩
      intro hmem
      have hserved := (hafter c).served
      have honce := (hafter c).once
      have hcount : 0 < w.server.signedIn.count c := List.count_pos_iff.mpr hmem
      have hgrown : (serve w.server (.signIn c user) ok).1.signedIn.count c =
          w.server.signedIn.count c + 1 := by rw [hc, List.count_cons_self]
      have hboth : (serve w.server (.signIn c user) ok).1.signedIn.count c + _ ≤ _ := hserved
      omega

/-- A switch whose listener is delivered once signs in and completes at most once,
whatever else is saved, refreshed, switched or delivered, and the signed-in user
changes by no other sign-in than these and those of created accounts. -/
theorem once_per_switch (s : Backend) (d : Device) (es : List (Event Action Change)) (w : Phone)
    (once : Along step DeliveredOnce (start s d) es) (hr : run step (start s d) es = some w) :
    OncePerSwitch w ∧ Along step OwnSignIn (start s d) es := by
  have hkeep : ∀ (w : Phone) ev w', (∀ call, Ledger call w) → DeliveredOnce w ev →
      step w ev = some w' → ∀ call, Ledger call w' :=
    fun _ _ _ h hg hs call => ledger_step (h call) hg hs
  have hledger : ∀ call, Ledger call w := run_keeps hkeep once hr (ledger_start s d)
  refine ⟨⟨?_, ?_⟩, along_keeps hkeep (fun _ _ h hg => own_sign_in h hg) once (ledger_start s d)⟩
  · intro call
    have hfinished := (hledger call).finished
    have honce := (hledger call).once
    unfold completions
    constructor <;> omega
  · rw [List.nodup_iff_count_le_one]
    intro call
    have hserved := (hledger call).served
    have honce := (hledger call).once
    omega

section Example

private def ann : LoginUserDoc where
  email := some "ann@p-chat.net"
  password := some "p"
  loginEmail := some "ann@mail.net"
  loginPassword := some "hidden"
  status := some 1

private def bob : LoginUserDoc where
  email := some "bob@p-chat.net"
  password := some "q"
  loginEmail := some "bob@mail.net"
  loginPassword := some "secret"
  status := some 1

private def twoAccounts : Backend where
  currentUser := some "a"
  accounts := [⟨"a", "ann@p-chat.net", "p"⟩, ⟨"b", "bob@p-chat.net", "q"⟩]
  uids _ := "c"
  urls _ := ""
  loginUser := (AList.singleton "a" ann).insert "b" bob

private def phone : Device where
  emails _ := ""

/-- A switch to `b`. -/
private def toBob : List (Event Action Change) :=
  [.act (.changeLoginUser "bob@mail.net" "secret"), .deliver 0 true, .serve 0 true, .handle 0]

/-- The last login of `b` is stored, and `a` is switched to again. -/
private def backToAnn : List (Event Action Change) :=
  [.act .setLastLogin, .serve 1 true, .act (.changeLoginUser "ann@mail.net" "hidden"),
    .deliver 1 true, .serve 2 true, .handle 2]

theorem stale_switch_signs_in_again :
    ¬ ∀ (s : Backend) (d : Device) (es : List (Event Action Change)) (w : Phone),
      run step (start s d) es = some w →
        OncePerSwitch w ∧ Along step OwnSignIn (start s d) es := by
  intro claim
  have hseen : (run step (start twoAccounts phone)
      (toBob ++ backToAnn ++ [.deliver 0 true, .serve 3 true])).map
      (fun w => (w.server.currentUser, w.server.signedIn)) = some (some "b", [0, 1, 0]) := by
    decide
  obtain ⟨w, hw, hval⟩ := Option.map_eq_some_iff.mp hseen
  have hnodup := (claim twoAccounts phone _ w hw).1.2
  rw [(Prod.mk.inj hval).2] at hnodup
  exact absurd hnodup (by decide)

theorem switch_delivered_once :
    ∃ w, run step (start twoAccounts phone) (toBob ++ backToAnn) = some w ∧
      OncePerSwitch w ∧ Along step OwnSignIn (start twoAccounts phone) (toBob ++ backToAnn) := by
  have hran : (run step (start twoAccounts phone) (toBob ++ backToAnn)).map
      (fun w => w.server.currentUser) = some (some "a") := by decide
  obtain ⟨w, hw, _⟩ := Option.map_eq_some_iff.mp hran
  exact ⟨w, hw, once_per_switch twoAccounts phone (toBob ++ backToAnn) w (by decide) hw⟩

end Example

end PlateChat.Account.Switch
