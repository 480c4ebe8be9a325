/- PlateChat/Account/Orphans
   digest: Which profiles can be read, and which accounts never get one that can. -/

import PlateChat.Account.Tokens
import PlateChat.Binding.Hosting
import PlateChat.Model.Histories

set_option autoImplicit false
set_option relaxedAutoImplicit false

/-!
An account is made first and its document afterwards, by another request that is not tried
again. What is merged into a profile carries no address and no password, so it leaves a
document that cannot be read, and no document of that kind is an active one.
-/

namespace PlateChat.Account.Orphans

open PlateChat.Foundation
open PlateChat.Foundation.Dictionary PlateChat.Foundation.Run PlateChat.Foundation.EventLoop
open PlateChat.Foundation.Fleet (Agree spread spread_own forall_spread agree_spread step_spread
  spread_step)
open PlateChat.Model.Members PlateChat.Model.LocalData PlateChat.Model.Profile
open PlateChat.Account.Service PlateChat.Account.Fleet
open PlateChat.Account.Editors (Editable Form)
open PlateChat.Account.Tokens (Edited edited_perform edited_setNewUser edited_signIn)
open PlateChat.Foundation.Paging (page mem_of_page)
open PlateChat.Binding.Hosting (loginUsers)
open PlateChat.Model.Histories (repr_injective)
open PlateChat.Binding.Users (LoginUserDocument loginUserQuery loginUserModels)

/-- A document that can be read, or one without an account's address that is not active. -/
def Whole (d : LoginUserDoc) : Prop :=
  d.Parses ∨ d.email = none ∧ d.status ≠ some 1

def Readable (loginUser : Dict Uid LoginUserDoc) (uid : Uid) : Prop :=
  ∃ d, loginUser.lookup uid = some d ∧ d.Parses

/-- A call that still leads to the first document of the account. -/
inductive Creates (uid : Uid) : Call Request Answer → Prop
  | answered (email password : String) :
      Creates uid ⟨.createAuth email password, some (.created (some uid))⟩
  | issued (email password : String) : Creates uid ⟨.setNewUser uid email password, none⟩

variable {D : Type}

def Coming (f : Phones D) (uid : Uid) : Prop := ∃ d, ∃ q ∈ (f d).inflight, Creates uid q

/-- The profiles as a collection of documents. -/
def documents (s : Backend) : List LoginUserDocument := s.loginUser.entries.map fun e => (e.1, e.2)

/-- The accounts have been handed out in order, no id twice, and what is stored is whole. -/
structure Orderly (launch : Launch D) : Prop where
  handed : launch.backend.accounts.map Credential.uid =
    (List.range launch.backend.accounts.length).map launch.backend.uids
  apart : Function.Injective launch.backend.uids
  whole : ∀ uid d, launch.backend.loginUser.lookup uid = some d → Whole d

/-- The account's profile is read in some continuation. -/
def ReadableAhead [DecidableEq D] (count : String → Nat) (f : Phones D) (d : D) (uid : Uid) :
    Prop :=
  ∃ es f', run (step count) f es = some f' ∧ Readable (f' d).server.loginUser uid

theorem newUser_parses (email password : String) (date : Nat) :
    (newUser email password date).Parses := ⟨rfl, rfl, rfl⟩

/-- Fields that are merged carry no address and no password, and make nobody active. -/
structure Partial (dic : LoginUserDoc) : Prop where
  email : dic.email = none
  password : dic.password = none
  status : dic.status ≠ some 1

theorem partial_of_merged {s : Backend} {r : Request} {uid : Uid} {dic : LoginUserDoc}
    (hedited : Edited r) (h : merged s r = some (uid, dic)) : Partial dic := by
  cases r with
  | setProfile v saved =>
    cases h
    have heditable := hedited _ _ rfl
    exact ⟨heditable.email, heditable.password, by simp [heditable.status]⟩
  | setDeleted v =>
    cases h
    exact ⟨rfl, rfl, by simp⟩
  | setLogin | setImage =>
    cases h
    exact ⟨rfl, rfl, by simp⟩
  | _ => cases h

/-- A merge makes no document readable. -/
theorem parses_of_merge {dic old : LoginUserDoc} (hdic : Partial dic) (hold : Whole old)
    (h : (dic.merge old).Parses) : old.Parses := by
  rcases hold with hold | ⟨hemail, -⟩
  · exact hold
  · have hnone : (dic.merge old).email = none := by simp [LoginUserDoc.merge, hdic.email, hemail]
    simp [LoginUserDoc.Parses, hnone] at h

theorem whole_merge {dic old : LoginUserDoc} (hdic : Partial dic) (hold : Whole old) :
    Whole (dic.merge old) := by
  rcases hold with ⟨hemail, hpassword, hstatus⟩ | ⟨hemail, hstatus⟩
  · left
    simp only [LoginUserDoc.Parses, LoginUserDoc.merge, hdic.email, hdic.password,
      Option.none_or, Option.isSome_or]
    exact ⟨hemail, hpassword, by simp [hstatus]⟩
  · right
    simp only [LoginUserDoc.merge, hdic.email, Option.none_or]
    refine ⟨hemail, fun h => ?_⟩
    rcases Option.or_eq_some_iff.mp h with h | ⟨-, h⟩
    · exact hdic.status h
    · exact hstatus h

theorem whole_getD {loginUser : Dict Uid LoginUserDoc} {uid : Uid}
    (h : ∀ uid d, loginUser.lookup uid = some d → Whole d) :
    Whole ((loginUser.lookup uid).getD {}) := by
  cases hlookup : loginUser.lookup uid with
  | none => exact .inr ⟨rfl, nofun⟩
  | some d => exact h uid d hlookup

theorem active_of_selected {s : Backend} {dated : LoginUserDocument → Bool}
    {startAfter : Option LoginUserDocument} {document : LoginUserDocument}
    (hmem : document ∈ documents s)
    (h : (loginUsers dated).selects (loginUserQuery startAfter) document = true) :
    s.loginUser.lookup document.1 = some document.2 ∧ document.2.status = some 1 := by
  obtain ⟨e, he, rfl⟩ := List.mem_map.mp hmem
  refine ⟨AList.mem_lookup_iff.mpr he, ?_⟩
  have hstatus := List.all_eq_true.mp (Bool.and_eq_true_iff.mp h).2 ("status", .int 1)
    List.mem_cons_self
  obtain ⟨status, hsome, heq⟩ := Option.map_eq_some_iff.mp (of_decide_eq_true hstatus)
  cases heq
  exact hsome

theorem loginUserModels_isSome {date : Nat} {documents : List LoginUserDocument}
    (h : ∀ document ∈ documents, document.2.Parses) : (loginUserModels date documents).isSome := by
  obtain ⟨users, husers⟩ :
      ∃ users, parseAll (LoginUser.ofDocument date) documents = .ok users :=
    parseAll_isOk.mpr fun document hdocument => LoginUser.parses_iff.mpr (h document hdocument)
  simp [loginUserModels, husers]

section Served

variable {s : Backend} {r : Request} {ok : Bool} {uid : Uid}

theorem whole_served (hedited : Edited r)
    (whole : ∀ uid d, s.loginUser.lookup uid = some d → Whole d) :
    ∀ uid d, (Service.serve s r ok).1.loginUser.lookup uid = some d → Whole d := by
  intro uid d hlookup
  rcases serve_lookup hlookup with hold | ⟨-, hstored⟩
  · exact whole uid d hold
  cases hstored with
  | created _ email password => exact .inl (newUser_parses email password s.clock)
  | merged hmerged => exact whole_merge (partial_of_merged hedited hmerged) (whole_getD whole)

/-- A profile becomes readable by the document of a new user only. -/
theorem readable_served (hedited : Edited r)
    (whole : ∀ uid d, s.loginUser.lookup uid = some d → Whole d)
    (h : Readable (Service.serve s r ok).1.loginUser uid) :
    Readable s.loginUser uid ∨ ∃ email password, r = .setNewUser uid email password := by
  obtain ⟨d, hlookup, hparses⟩ := h
  rcases serve_lookup hlookup with hold | ⟨-, hstored⟩
  · exact .inl ⟨d, hold, hparses⟩
  cases hstored with
  | created _ email password => exact .inr ⟨email, password, rfl⟩
  | merged hmerged =>
    have hold := parses_of_merge (partial_of_merged hedited hmerged) (whole_getD whole) hparses
    cases hlookup : s.loginUser.lookup uid with
    | none => simp [hlookup, LoginUserDoc.Parses] at hold
    | some old =>
      rw [hlookup] at hold
      exact .inl ⟨old, hlookup, hold⟩

theorem accounts_served (s : Backend) (r : Request) (ok : Bool) :
    (Service.serve s r ok).1.uids = s.uids ∧
      ((Service.serve s r ok).1.accounts = s.accounts ∨
        ∃ a : Credential, a.uid = s.uids s.accounts.length ∧
          (Service.serve s r ok).1.accounts = s.accounts ++ [a]) := by
  cases ok with
  | false => cases r <;> exact ⟨rfl, .inl rfl⟩
  | true =>
    cases r with
    | createAuth email password =>
      simp only [Service.serve, createAuth]
      split
      · exact ⟨rfl, .inl rfl⟩
      · exact ⟨rfl, .inr ⟨_, rfl, rfl⟩⟩
    | signInCreated email password =>
      simp only [Service.serve, Service.signInCreated]
      split <;> exact ⟨rfl, .inl rfl⟩
    | signIn call user =>
      simp only [Service.serve, Service.signIn]
      split <;> exact ⟨rfl, .inl rfl⟩
    | _ => exact ⟨rfl, .inl rfl⟩

theorem created_served {email password : String} {uid : Uid}
    (h : (Service.serve s (.createAuth email password) ok).2 = .created (some uid)) :
    uid = s.uids s.accounts.length := by
  cases ok with
  | false => cases h
  | true =>
    simp only [Service.serve, createAuth] at h
    split at h
    · cases h
    · injection h with h
      exact (Option.some.inj h).symm

end Served

structure Kept (uids : Nat → Uid) (f : Phones D) (r : Registry) : Prop where
  agree : Agree sharing f r
  ids : ∀ d, (f d).server.uids = uids
  handed : r.accounts.map Credential.uid = (List.range r.accounts.length).map uids
  whole : ∀ uid d, r.loginUser.lookup uid = some d → Whole d
  edited : ∀ d, ∀ q ∈ (f d).inflight, Edited q.request

/-- The account is there, without a profile that can be read, and none is coming. -/
structure Lost (f : Phones D) (r : Registry) (uid : Uid) : Prop where
  made : ∃ a ∈ r.accounts, a.uid = uid
  unread : ¬ Readable r.loginUser uid
  alone : ¬ Coming f uid

section Steps

variable {count : String → Nat} {uids : Nat → Uid} {f : Phones D} {r : Registry} {e : D}
  {uid : Uid}

theorem Kept.loginUser (kept : Kept uids f r) (d : D) : (f d).server.loginUser = r.loginUser :=
  congrArg Registry.loginUser (kept.agree d)

theorem Kept.accounts (kept : Kept uids f r) (d : D) : (f d).server.accounts = r.accounts :=
  congrArg Registry.accounts (kept.agree d)

theorem Kept.fresh (kept : Kept uids f r) (apart : Function.Injective uids)
    (made : ∃ a ∈ r.accounts, a.uid = uid) : uids r.accounts.length ≠ uid := by
  obtain ⟨a, ha, rfl⟩ := made
  have hmem : a.uid ∈ (List.range r.accounts.length).map uids := by
    rw [← kept.handed]
    exact List.mem_map_of_mem ha
  obtain ⟨i, hi, heq⟩ := List.mem_map.mp hmem
  intro h
  have hlt := List.mem_range.mp hi
  have hsame := apart (h.trans heq.symm)
  omega

/-- What a device issues: edited fields, and new users for the creations that were answered. -/
def Issued (w : Service.Phone) (q : Request) : Prop :=
  Edited q ∧ ∀ uid email password, q = .setNewUser uid email password →
    ∃ q' ∈ w.inflight, Creates uid q'

theorem edited_of_issued {w : Service.Phone} {d : Device} {s : Backend} {o : Outcome}
    (ho : Ordinary (Issued w) s d o) : ∀ q ∈ o.requests, Edited q := by
  rintro q hq v dic rfl
  exact (ho.setProfile v dic hq).1 v dic rfl

theorem Lost.issued (lost : Lost f r uid) {d : Device} {s : Backend} {o : Outcome}
    (ho : Ordinary (Issued (f e)) s d o) : ∀ q ∈ o.requests, ¬ Creates uid ⟨q, none⟩ := by
  intro q hq h
  cases h with
  | issued email password =>
    exact lost.alone ⟨e, (ho.setNewUser uid email password hq).2 uid email password rfl⟩

variable [DecidableEq D]

theorem kept_perform (kept : Kept uids f r) {u : Service.Phone} {o : Outcome}
    (hserver : u.server = (f e).server) (hinflight : ∀ q ∈ u.inflight, q ∈ (f e).inflight)
    (hissued : ∀ q ∈ o.requests, Edited q) :
    Kept uids (spread (program count) sharing f e (u.perform o)) r where
  agree := by
    have hregistry : registry (u.perform o).server = r :=
      (congrArg registry hserver).trans (kept.agree e)
    exact hregistry ▸ agree_spread
  ids := by
    have hids : (u.perform o).server.uids = uids :=
      (congrArg Backend.uids hserver).trans (kept.ids e)
    exact forall_spread (P := fun _ (w : Service.Phone) => w.server.uids = uids) kept.ids hids
      fun _ _ _ => hids
  handed := kept.handed
  whole := kept.whole
  edited := forall_spread (P := fun _ (w : Service.Phone) => ∀ q ∈ w.inflight, Edited q.request)
    kept.edited (World.calls_perform (fun q hq => kept.edited e q (hinflight q hq)) hissued)
    fun _ _ h => h

theorem lost_perform (lost : Lost f r uid) {u : Service.Phone} {o : Outcome}
    (hinflight : ∀ q ∈ u.inflight, q ∈ (f e).inflight)
    (hissued : ∀ q ∈ o.requests, ¬ Creates uid ⟨q, none⟩) :
    Lost (spread (program count) sharing f e (u.perform o)) r uid where
  made := lost.made
  unread := lost.unread
  alone := by
    have halone : ∀ d, ∀ q ∈ (f d).inflight, ¬ Creates uid q :=
      fun d q hq h => lost.alone ⟨d, q, hq, h⟩
    have hall : ∀ d, ∀ q ∈ (spread (program count) sharing f e (u.perform o) d).inflight,
        ¬ Creates uid q := forall_spread
      (P := fun _ (w : Service.Phone) => ∀ q ∈ w.inflight, ¬ Creates uid q) halone
      (World.calls_perform (fun q hq => halone e q (hinflight q hq)) hissued) fun _ _ h => h
    rintro ⟨d, q, hq, h⟩
    exact hall d q hq h

section Serve

variable {i : Nat} {q : Request} {ok : Bool}

theorem kept_served (kept : Kept uids f r) (hi : (f e).inflight[i]? = some ⟨q, none⟩) :
    let w := (f e).served (program count) i q ok
    Kept uids (spread (program count) sharing f e w) (registry w.server) := by
  intro w
  have hedited : Edited q := kept.edited e _ (List.mem_of_getElem? hi)
  obtain ⟨hids, haccounts⟩ := accounts_served (f e).server q ok
  refine ⟨agree_spread, ?_, ?_, ?_, ?_⟩
  · have hnext : w.server.uids = uids := hids.trans (kept.ids e)
    exact forall_spread (P := fun _ (w : Service.Phone) => w.server.uids = uids) kept.ids hnext
      fun _ _ _ => hnext
  · show (Service.serve (f e).server q ok).1.accounts.map _ =
      (List.range (Service.serve (f e).server q ok).1.accounts.length).map uids
    rw [kept.accounts e, kept.ids e] at haccounts
    rcases haccounts with hsame | ⟨a, ha, hmore⟩
    · rw [hsame]
      exact kept.handed
    · rw [hmore, List.map_append, kept.handed, List.length_append, List.length_singleton,
        List.range_succ, List.map_append, List.map_singleton, List.map_singleton, ha]
  · exact whole_served hedited ((kept.loginUser e).symm ▸ kept.whole)
  · exact forall_spread (P := fun _ (w : Service.Phone) => ∀ q ∈ w.inflight, Edited q.request)
      kept.edited (World.calls_served (P := fun q => Edited q.request) (kept.edited e) hedited)
      fun _ _ h => h

/-- The backend makes no profile of a lost account readable, and no other account gets its id. -/
theorem lost_served (kept : Kept uids f r) (apart : Function.Injective uids)
    (lost : Lost f r uid) (hi : (f e).inflight[i]? = some ⟨q, none⟩) :
    let w := (f e).served (program count) i q ok
    Lost (spread (program count) sharing f e w) (registry w.server) uid := by
  intro w
  have hmem := List.mem_of_getElem? hi
  have hedited : Edited q := kept.edited e _ hmem
  have hfresh := kept.fresh apart lost.made
  refine ⟨?_, fun hreadable => ?_, ?_⟩
  · obtain ⟨a, ha, huid⟩ := lost.made
    refine ⟨a, ?_, huid⟩
    have hold : a ∈ (f e).server.accounts := kept.accounts e ▸ ha
    show a ∈ (Service.serve (f e).server q ok).1.accounts
    obtain ⟨-, hsame | ⟨b, -, hmore⟩⟩ := accounts_served (f e).server q ok
    · rw [hsame]
      exact hold
    · rw [hmore]
      exact List.mem_append_left _ hold
  · rcases readable_served hedited ((kept.loginUser e).symm ▸ kept.whole) hreadable with
      hold | ⟨email, password, rfl⟩
    · exact lost.unread ((kept.loginUser e) ▸ hold)
    · exact lost.alone ⟨e, _, hmem, .issued email password⟩
  · have halone : ∀ d, ∀ q ∈ (f d).inflight, ¬ Creates uid q :=
      fun d q hq h => lost.alone ⟨d, q, hq, h⟩
    have hanswered : ¬ Creates uid ⟨q, some (Service.serve (f e).server q ok).2⟩ := by
      generalize ha : (Service.serve (f e).server q ok).2 = a
      intro h
      cases h with
      | answered email password =>
        have hnext := created_served ha
        rw [kept.ids e, kept.accounts e] at hnext
        exact hfresh hnext.symm
    have hall : ∀ d, ∀ q ∈ (spread (program count) sharing f e w d).inflight,
        ¬ Creates uid q := forall_spread
      (P := fun _ (w : Service.Phone) => ∀ q ∈ w.inflight, ¬ Creates uid q) halone
      (World.calls_served (p := program count) (halone e) hanswered) fun _ _ h => h
    rintro ⟨d, q, hq, h⟩
    exact hall d q hq h

end Serve

theorem kept_step {f' : Phones D} {x : D × Event Editors.Action Empty} (kept : Kept uids f r)
    (h : step count f x = some f') : ∃ r', Kept uids f' r' ∧
      ∀ uid, Function.Injective uids → Lost f r uid → Lost f' r' uid := by
  obtain ⟨w, hw, rfl⟩ := step_spread h
  obtain ⟨e, event⟩ := x
  -- what runs on a device issues no creation of its own accord
  have hrun : ∀ {u : Service.Phone} {o : Outcome} {d : Device}, u.server = (f e).server →
      (∀ q ∈ u.inflight, q ∈ (f e).inflight) → Ordinary (Issued (f e)) u.server d o →
      Kept uids (spread (program count) sharing f e (u.perform o)) r ∧
        ∀ uid, Function.Injective uids → Lost f r uid →
          Lost (spread (program count) sharing f e (u.perform o)) r uid :=
    fun hserver hinflight ho => ⟨kept_perform kept hserver hinflight (edited_of_issued ho),
      fun uid _ lost => lost_perform lost hinflight (lost.issued ho)⟩
  cases hw with
  | @act v o ho =>
    obtain rfl := Option.some.inj ho
    by_cases hv : ∃ token, v = .didReceiveRegistrationToken token
    · obtain ⟨token, rfl⟩ := hv
      exact ⟨r, hrun rfl (fun _ hq => hq) (ordinary_setLastLogin _ _)⟩
    · refine ⟨r, hrun rfl (fun _ hq => hq)
        (ordinary_act count _ _ (fun token heq => hv ⟨token, heq⟩) ?_)⟩
      rintro form uid dic - hsaved -
      refine ⟨fun uid' dic' heq => ?_, fun _ _ _ heq => nomatch heq⟩
      cases heq
      exact Form.editable hsaved
  | serve hi =>
    exact ⟨_, kept_served kept hi, fun uid apart lost => lost_served kept apart lost hi⟩
  | @handle i q a o hi ho =>
    refine ⟨r, hrun rfl (fun _ hq => List.mem_of_mem_eraseIdx hq) (ordinary_handle ?_ ho)⟩
    rintro uid email password rfl rfl
    refine ⟨edited_setNewUser uid email password, fun uid' _ _ heq => ?_⟩
    cases heq
    exact ⟨_, List.mem_of_getElem? hi, .answered email password⟩
  | deliver hj ho =>
    refine ⟨r, hrun rfl (fun _ hq => hq) (ordinary_notify ?_ ho)⟩
    intro call email password document rest user _ _ _
    exact ⟨edited_signIn call user, fun _ _ _ heq => nomatch heq⟩
  | @env change => exact change.elim

end Steps

section Runs

variable {count : String → Nat} {launch : Launch D} {f : Phones D}
  {es : List (D × Event Editors.Action Empty)}

theorem kept_phones (orderly : Orderly launch) :
    Kept launch.backend.uids launch.phones (registry launch.backend) where
  agree _ := rfl
  ids _ := rfl
  handed := orderly.handed
  whole := orderly.whole
  edited _ _ hq := nomatch hq

variable [DecidableEq D]

theorem kept_run (orderly : Orderly launch) (hr : run (step count) launch.phones es = some f) :
    ∃ r, Kept launch.backend.uids f r :=
  run_invariant (P := fun f => ∃ r, Kept launch.backend.uids f r)
    (fun _ _ _ h hstep => h.elim fun _ kept => (kept_step kept hstep).imp fun _ h => h.1) hr
    ⟨_, kept_phones orderly⟩

theorem ahead_of_issued {uids : Nat → Uid} {r : Registry} (kept : Kept uids f r) {e : D}
    {uid : Uid} {email password : String}
    (h : ⟨.setNewUser uid email password, none⟩ ∈ (f e).inflight) (d : D) :
    ReadableAhead count f d uid := by
  obtain ⟨i, hi⟩ := List.mem_iff_getElem?.mp h
  have hstep : step count f (e, .serve i true) = some (spread (program count) sharing f e
      ((f e).served (program count) i (.setNewUser uid email password) true)) :=
    spread_step (.serve hi)
  obtain ⟨r', kept', -⟩ := kept_step kept hstep
  refine ⟨[(e, .serve i true)], _, run_cons.mpr ⟨_, hstep, rfl⟩, ?_⟩
  rw [kept'.loginUser d, ← kept'.loginUser e, spread_own]
  exact ⟨_, AList.lookup_insert _, newUser_parses email password _⟩

theorem ahead_of_answered {uids : Nat → Uid} {r : Registry} (kept : Kept uids f r) {e : D}
    {uid : Uid} {email password : String}
    (h : ⟨.createAuth email password, some (.created (some uid))⟩ ∈ (f e).inflight) (d : D) :
    ReadableAhead count f d uid := by
  obtain ⟨i, hi⟩ := List.mem_iff_getElem?.mp h
  have hstep : step count f (e, .handle i) = some (spread (program count) sharing f e
      (((f e).landed i).perform
        (createAuthCompletion (f e).client email password (some uid)))) :=
    spread_step (.handle hi rfl)
  obtain ⟨r', kept', -⟩ := kept_step kept hstep
  have hissued : ⟨.setNewUser uid email password, none⟩ ∈
      (spread (program count) sharing f e (((f e).landed i).perform
        (createAuthCompletion (f e).client email password (some uid))) e).inflight := by
    rw [spread_own]
    exact List.mem_append_right _ (List.mem_cons_of_mem _ List.mem_cons_self)
  obtain ⟨es', f', hrun, hreadable⟩ := ahead_of_issued kept' hissued d
  exact ⟨_, f', run_cons.mpr ⟨_, hstep, hrun⟩, hreadable⟩

/-- An account without a readable profile gets one in some continuation only if its document
is still on its way, or its creation has not been handled yet. -/
theorem readable_ahead_iff (orderly : Orderly launch)
    (hr : run (step count) launch.phones es = some f) (d : D) {uid : Uid}
    (made : ∃ a ∈ (f d).server.accounts, a.uid = uid) :
    ReadableAhead count f d uid ↔ Readable (f d).server.loginUser uid ∨ Coming f uid := by
  obtain ⟨r, kept⟩ := kept_run orderly hr
  constructor
  · rintro ⟨es', f', hrun, hreadable⟩
    by_contra hnone
    rw [not_or, kept.loginUser d] at hnone
    have hlost : Lost f r uid := ⟨kept.accounts d ▸ made, hnone.1, hnone.2⟩
    obtain ⟨r', kept', lost'⟩ := run_invariant
      (P := fun f => ∃ r, Kept launch.backend.uids f r ∧ Lost f r uid)
      (fun _ _ _ h hstep => by
        obtain ⟨r, kept, lost⟩ := h
        obtain ⟨r', kept', stays⟩ := kept_step kept hstep
        exact ⟨r', kept', stays uid orderly.apart lost⟩) hrun ⟨r, kept, hlost⟩
    exact lost'.unread (kept'.loginUser d ▸ hreadable)
  · rintro (hreadable | ⟨e, q, hq, hcreates⟩)
    · exact ⟨[], f, rfl, hreadable⟩
    · cases hcreates with
      | answered email password => exact ahead_of_answered kept hq d
      | issued email password => exact ahead_of_issued kept hq d

/-- Whatever the devices do, every active profile can be read, and no page of `bindUser` is
refused for a document that cannot. -/
theorem active_profiles_parse (orderly : Orderly launch)
    (hr : run (step count) launch.phones es = some f) (d : D) :
    (∀ uid doc, (f d).server.loginUser.lookup uid = some doc → doc.status = some 1 →
      doc.Parses) ∧
    ∀ dated startAfter date, (loginUserModels date ((loginUsers dated).fetch
      (loginUserQuery startAfter) (documents (f d).server))).isSome := by
  obtain ⟨r, kept⟩ := kept_run orderly hr
  have hactive : ∀ uid doc, (f d).server.loginUser.lookup uid = some doc →
      doc.status = some 1 → doc.Parses := by
    intro uid doc hlookup hstatus
    rcases kept.whole uid doc (kept.loginUser d ▸ hlookup) with hparses | ⟨-, hended⟩
    · exact hparses
    · exact absurd hstatus hended
  refine ⟨hactive, fun dated startAfter date => ?_⟩
  refine loginUserModels_isSome fun document hdocument => ?_
  rw [(loginUsers dated).fetch_of_limit (q := loginUserQuery startAfter) rfl] at hdocument
  obtain ⟨hmem, hselected⟩ := List.mem_filter.mp (mem_of_page hdocument)
  obtain ⟨hlookup, hstatus⟩ := active_of_selected hmem hselected
  exact hactive _ _ hlookup hstatus

end Runs

section Example

/-- A new phone. -/
private def newPhone : Launch Unit where
  backend := { uids := fun n => Int.repr n, urls := fun _ => "url" }
  currentUser _ := none
  device _ := { emails := fun _ => "a@p-chat.net" }

private theorem newPhone_orderly : Orderly newPhone where
  handed := rfl
  apart _ _ h := Int.ofNat.inj (repr_injective h)
  whole _ _ h := nomatch h

/-- The account is made, and its document is on its way. -/
private def making : List (Unit × Event Editors.Action Empty) :=
  [((), .act .createUser), ((), .serve 0 true), ((), .handle 0)]

/-- The document is refused. -/
private def refused : List (Unit × Event Editors.Action Empty) :=
  making ++ [((), .serve 1 false)]

theorem readable_ahead_iff_refused :
    (∃ f, run (step String.length) newPhone.phones making = some f ∧
      ReadableAhead String.length f () "0") ∧
    ∃ f, run (step String.length) newPhone.phones refused = some f ∧
      ¬ ReadableAhead String.length f () "0" := by
  constructor
  · refine ⟨_, rfl, (readable_ahead_iff newPhone_orderly
      (show run (step String.length) newPhone.phones making = some _ from rfl) ()
      ⟨_, List.mem_cons_self, rfl⟩).mpr
        (.inr ⟨(), _, ?_, .issued "a@p-chat.net" "password1234"⟩)⟩
    exact List.mem_cons_of_mem _ List.mem_cons_self
  · refine ⟨_, rfl, fun h => ?_⟩
    rcases (readable_ahead_iff newPhone_orderly
      (show run (step String.length) newPhone.phones refused = some _ from rfl) ()
      ⟨_, List.mem_cons_self, by decide⟩).mp h with ⟨d, hlookup, -⟩ | ⟨_, q, hq, hcreates⟩
    · cases hlookup
    · rcases List.mem_cons.mp hq with rfl | hq
      · cases hcreates
      · rcases List.mem_cons.mp hq with rfl | hq
        · cases hcreates
        · cases hq

theorem active_profiles_parse_made : ∃ f,
    run (step String.length) newPhone.phones (making ++ [((), .serve 1 true)]) = some f ∧
      (∃ doc, (f ()).server.loginUser.lookup "0" = some doc ∧ doc.status = some 1 ∧ doc.Parses) ∧
      (loginUserModels 5 ((loginUsers fun _ => true).fetch (loginUserQuery none)
        (documents (f ()).server))).isSome := by
  refine ⟨_, rfl, ?_⟩
  have h := @active_profiles_parse Unit String.length newPhone _
    (making ++ [((), .serve 1 true)]) _ newPhone_orderly rfl ()
  exact ⟨⟨_, rfl, rfl, h.1 "0" _ rfl rfl⟩, h.2 _ none 5⟩

end Example

end PlateChat.Account.Orphans
