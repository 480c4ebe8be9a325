/- PlateChat/Account/Pairs
   digest: Which accounts store a pair of login fields, and whom a switch signs in to. -/

import PlateChat.Account.Fleet

set_option autoImplicit false
set_option relaxedAutoImplicit false

/-!
The account screen stores an address and a password of the user's choice in the profile,
and another device takes the account over with them: `changeLoginUser` signs in to the
first active account that stores the pair. Nobody looks whether there is a second one.
-/

namespace PlateChat.Account.Pairs

open PlateChat.Foundation
open PlateChat.Foundation.Dictionary PlateChat.Foundation.Run PlateChat.Foundation.EventLoop
open PlateChat.Foundation.Fleet (Agree spread spread_own spread_other forall_spread agree_spread
  step_spread)
open PlateChat.Model.Members PlateChat.Model.LocalData PlateChat.Model.Profile
open PlateChat.Account.Service PlateChat.Account.Fleet
open PlateChat.Account.Editors (Editable Form)

/-- The document carries the pair. -/
def Carries (d : LoginUserDoc) (loginEmail loginPassword : String) : Prop :=
  d.loginEmail = some loginEmail ∧ d.loginPassword = some loginPassword

/-- An active account stores the pair. -/
def Holds (loginUser : Dict Uid LoginUserDoc) (uid : Uid) (loginEmail loginPassword : String) :
    Prop :=
  ∃ d, loginUser.lookup uid = some d ∧ d.status = some 1 ∧ Carries d loginEmail loginPassword

/-- A save of the pair is on its way. -/
def Saves (w : Service.Phone) (uid : Uid) (loginEmail loginPassword : String) : Prop :=
  ∃ dic, ⟨.setProfile uid dic, none⟩ ∈ w.inflight ∧ Carries dic loginEmail loginPassword

variable {D : Type}

/-- The accounts that have the pair or are about to have it. -/
def Claims (loginUser : Dict Uid LoginUserDoc) (f : Phones D) (uid : Uid)
    (loginEmail loginPassword : String) : Prop :=
  Holds loginUser uid loginEmail loginPassword ∨ ∃ d, Saves (f d) uid loginEmail loginPassword

def accountOf (accounts : List Credential) (email password : String) : Option Uid :=
  (accounts.find? fun a => a.email = email ∧ a.password = password).map Credential.uid

/-- Every save is an editor's, and what creates or signs in to an account names its owner. -/
def Sound (count : String → Nat) (accounts : List Credential) : Call Request Answer → Prop
  | ⟨.createAuth email password, some (.created (some uid))⟩ =>
    accountOf accounts email password = some uid
  | ⟨.setNewUser uid email password, _⟩ => accountOf accounts email password = some uid
  | ⟨.signIn _ user, _⟩ => accountOf accounts user.email user.password = some user.key
  | ⟨.setProfile _ dic, _⟩ => ∃ form : Form, form.save count = some dic
  | _ => True

/-- The credentials in a profile are those of its owner's account. -/
def Credited (r : Registry) : Prop :=
  ∀ uid d email password, r.loginUser.lookup uid = some d → d.email = some email →
    d.password = some password → accountOf r.accounts email password = some uid

structure Kept (count : String → Nat) (f : Phones D) (r : Registry) : Prop where
  agree : Agree sharing f r
  claimed : ∀ u v loginEmail loginPassword, Claims r.loginUser f u loginEmail loginPassword →
    Claims r.loginUser f v loginEmail loginPassword → u = v
  credited : Credited r
  sound : ∀ d, ∀ q ∈ (f d).inflight, Sound count r.accounts q

/-- A pair is saved only while no other account has it or is about to have it. -/
def Fresh (count : String → Nat) (f : Phones D) (x : D × Event Editors.Action Empty) : Prop :=
  match x.2 with
  | .act (.save (.account loginEmail loginPassword)) =>
    (Form.save count (.account loginEmail loginPassword)).isSome →
      ∀ uid, (f x.1).server.currentUser = some uid →
        ∀ v, Claims (f x.1).server.loginUser f v loginEmail loginPassword → v = uid
  | _ => True

/-- Only the account screen saves a pair, and the whole of it. -/
theorem form_of_carries {count : String → Nat} {form : Form} {dic : LoginUserDoc}
    (h : form.save count = some dic) :
    dic.loginEmail = none ∧ dic.loginPassword = none ∨
      ∃ loginEmail loginPassword, form = .account loginEmail loginPassword ∧
        Carries dic loginEmail loginPassword := by
  rw [Form.eq_dic h]
  cases form with
  | registProfile form => exact .inl ⟨rfl, rfl⟩
  | profileEdit form profileTextView => exact .inl ⟨rfl, rfl⟩
  | account loginEmail loginPassword => exact .inr ⟨loginEmail, loginPassword, rfl, rfl, rfl⟩

variable {count : String → Nat} {s : Backend} {r : Request} {ok : Bool}

theorem edited_of_sound {accounts : List Credential} {a : Option Answer}
    (h : Sound count accounts ⟨r, a⟩) : ∀ v dic, r = .setProfile v dic → Editable dic := by
  rintro v dic rfl
  obtain ⟨form, hform⟩ := h
  exact Form.editable hform

theorem holds_served {accounts : List Credential} (sound : Sound count accounts ⟨r, none⟩)
    {uid : Uid} {loginEmail loginPassword : String}
    (h : Holds (Service.serve s r ok).1.loginUser uid loginEmail loginPassword) :
    Holds s.loginUser uid loginEmail loginPassword ∨
      ∃ dic, r = .setProfile uid dic ∧ Carries dic loginEmail loginPassword := by
  obtain ⟨doc, hdoc, hstatus, hcarries⟩ := h
  rcases serve_active (edited_of_sound sound) hdoc hstatus with hold |
    ⟨-, ⟨email, password, -, rfl⟩ | ⟨old, dic, hold, hactive, hmerged, rfl⟩⟩
  · exact .inl ⟨doc, hold, hstatus, hcarries⟩
  · cases hcarries.1
  -- fields without a pair leave the old one
  have hkeep : dic.loginEmail = none → dic.loginPassword = none →
      Holds s.loginUser uid loginEmail loginPassword := by
    intro he hp
    simp only [Carries, LoginUserDoc.merge, he, hp, Option.none_or] at hcarries
    exact ⟨old, hold, hactive, hcarries⟩
  cases r with
  | setProfile v saved =>
    cases hmerged
    obtain ⟨form, hform⟩ := sound
    rcases form_of_carries hform with ⟨he, hp⟩ | ⟨e, p, -, he, hp⟩
    · exact .inl (hkeep he hp)
    · simp only [Carries, LoginUserDoc.merge, he, hp, Option.some_or] at hcarries
      exact .inr ⟨_, rfl, he.trans hcarries.1, hp.trans hcarries.2⟩
  | setDeleted | setLogin | setImage =>
    cases hmerged
    exact .inl (hkeep rfl rfl)
  | createAuth | signInCreated | setNewUser | getProfile | putAvatar | downloadURL
  | getBlockUser | getBlockedUser | signIn | setArticle => cases hmerged

theorem accountOf_append {accounts : List Credential} {email password : String} {uid : Uid}
    (h : accountOf accounts email password = some uid) (a : Credential) :
    accountOf (accounts ++ [a]) email password = some uid := by
  obtain ⟨found, hfound, rfl⟩ := Option.map_eq_some_iff.mp h
  unfold accountOf
  rw [List.find?_append, hfound]
  rfl

theorem accountOf_served {email password : String} {uid : Uid}
    (h : accountOf s.accounts email password = some uid) :
    accountOf (Service.serve s r ok).1.accounts email password = some uid := by
  cases ok with
  | false => cases r <;> exact h
  | true =>
    cases r with
    | createAuth e p =>
      simp only [Service.serve, createAuth]
      split
      · exact h
      · exact accountOf_append h _
    | signInCreated e p =>
      simp only [Service.serve, Service.signInCreated]
      split <;> exact h
    | signIn call user =>
      simp only [Service.serve, Service.signIn]
      split <;> exact h
    | _ => exact h

theorem Sound.served {q : Call Request Answer} (h : Sound count s.accounts q) :
    Sound count (Service.serve s r ok).1.accounts q := by
  obtain ⟨request, answer⟩ := q
  cases request with
  | createAuth email password =>
    cases answer with
    | none => exact h
    | some answer =>
      cases answer with
      | created uid =>
        cases uid with
        | none => exact h
        | some uid => exact accountOf_served h
      | _ => exact h
  | setNewUser uid email password => exact accountOf_served h
  | signIn call user => exact accountOf_served h
  | _ => exact h

theorem sound_answered (h : Sound count s.accounts ⟨r, none⟩) :
    Sound count (Service.serve s r ok).1.accounts ⟨r, some (Service.serve s r ok).2⟩ := by
  cases r with
  | createAuth email password =>
    cases ok with
    | false => trivial
    | true =>
      simp only [Service.serve, createAuth]
      split
      · trivial
      · rename_i hnew
        show accountOf (s.accounts ++ [_]) email password = _
        have hnone : s.accounts.find? (fun a => a.email = email ∧ a.password = password) =
            none := by
          rw [List.find?_eq_none]
          intro a ha heq
          exact hnew (List.any_eq_true.mpr ⟨a, ha, decide_eq_true (of_decide_eq_true heq).1⟩)
        unfold accountOf
        rw [List.find?_append, hnone]
        simp
  | setNewUser uid email password => exact accountOf_served h
  | signIn call user => exact accountOf_served h
  | setProfile uid dic => exact h
  | _ => trivial

theorem credited_served (credited : Credited (registry s))
    (sound : Sound count s.accounts ⟨r, none⟩) :
    Credited (registry (Service.serve s r ok).1) := by
  intro uid d email password hlookup he hp
  rcases serve_lookup hlookup with hold | ⟨-, hstored⟩
  · exact accountOf_served (credited uid d email password hold he hp)
  cases hstored with
  | created =>
    cases he
    cases hp
    exact accountOf_served sound
  | @merged _ _ dic hmerged =>
    have hdic : dic.email = none ∧ dic.password = none := by
      cases r with
      | setProfile v saved =>
        cases hmerged
        have heditable := edited_of_sound sound _ _ rfl
        exact ⟨heditable.email, heditable.password⟩
      | setDeleted | setLogin | setImage =>
        cases hmerged
        exact ⟨rfl, rfl⟩
      | _ => cases hmerged
    simp only [LoginUserDoc.merge, hdic.1, hdic.2, Option.none_or] at he hp
    cases hold : s.loginUser.lookup uid with
    | none =>
      rw [hold] at he
      cases he
    | some old =>
      rw [hold] at he hp
      exact accountOf_served (credited uid old email password hold he hp)

theorem holds_of_switchDocuments (call : Nat) {loginEmail loginPassword : String}
    {documents : List (Uid × LoginUserDoc)} {document : Uid × LoginUserDoc}
    (h : snapshot s (.switchUser call loginEmail loginPassword) = .users documents)
    (hmem : document ∈ documents) :
    s.loginUser.lookup document.1 = some document.2 ∧
      Holds s.loginUser document.1 loginEmail loginPassword := by
  obtain ⟨hlookup, hemail, hpassword, hstatus⟩ := mem_switchDocuments h hmem
  exact ⟨hlookup, document.2, hlookup, hstatus, hemail, hpassword⟩

theorem credentials_of_parsed {date : Nat} {document : Uid × LoginUserDoc} {user : LoginUser}
    (h : LoginUser.ofDocument date document = .ok user) :
    document.2.email = some user.email ∧ document.2.password = some user.password := by
  unfold LoginUser.ofDocument at h
  dsimp only at h
  split at h
  · rename_i email password status he hp hs
    cases h
    exact ⟨he, hp⟩
  · cases h

theorem Kept.loginUser {f : Phones D} {r : Registry} (kept : Kept count f r) (d : D) :
    (f d).server.loginUser = r.loginUser := congrArg Registry.loginUser (kept.agree d)

theorem Kept.accounts {f : Phones D} {r : Registry} (kept : Kept count f r) (d : D) :
    (f d).server.accounts = r.accounts := congrArg Registry.accounts (kept.agree d)

/-- A sound request, and a pair only where `New` allows it. -/
def Issued (count : String → Nat) (accounts : List Credential) (New : Uid → String → String → Prop)
    (q : Request) : Prop :=
  Sound count accounts ⟨q, none⟩ ∧ ∀ uid dic loginEmail loginPassword, q = .setProfile uid dic →
    Carries dic loginEmail loginPassword → New uid loginEmail loginPassword

theorem sound_issued {accounts : List Credential} {New : Uid → String → String → Prop}
    {d : Device} {o : Outcome} (ho : Ordinary (Issued count accounts New) s d o) :
    ∀ q ∈ o.requests, Sound count accounts ⟨q, none⟩ := by
  intro q hq
  cases q with
  | setProfile uid dic => exact (ho.setProfile uid dic hq).1
  | setNewUser uid email password => exact (ho.setNewUser uid email password hq).1
  | signIn call user => exact (ho.signIn call user hq).1
  | _ => trivial

section Steps

variable [DecidableEq D] {f : Phones D} {r : Registry} {e : D} {w : Service.Phone}
  (New : Uid → String → String → Prop)

/-- Only the device that moves can claim a pair. -/
theorem claimed_spread (kept : Kept count f r)
    (hheld : ∀ uid a b, Holds w.server.loginUser uid a b → Claims r.loginUser f uid a b)
    (hsaves : ∀ uid a b, Saves w uid a b → Saves (f e) uid a b ∨ New uid a b)
    (hnew : ∀ u v a b, New u a b → Claims r.loginUser f v a b ∨ New v a b → v = u) :
    ∀ u v a b, Claims w.server.loginUser (spread (program count) sharing f e w) u a b →
      Claims w.server.loginUser (spread (program count) sharing f e w) v a b → u = v := by
  have hclaims : ∀ uid a b,
      Claims w.server.loginUser (spread (program count) sharing f e w) uid a b →
        Claims r.loginUser f uid a b ∨ New uid a b := by
    rintro uid a b (h | ⟨d, h⟩)
    · exact .inl (hheld uid a b h)
    · refine forall_spread
        (P := fun d w => Saves w uid a b → Claims r.loginUser f uid a b ∨ New uid a b)
        (fun d h => .inl (.inr ⟨d, h⟩)) (fun h => ?_) (fun d _ h h' => h h') d h
      exact (hsaves uid a b h).imp_left fun h => .inr ⟨e, h⟩
  intro u v a b hu hv
  rcases hclaims u a b hu with hu | hu
  · rcases hclaims v a b hv with hv | hv
    · exact kept.claimed u v a b hu hv
    · exact hnew v u a b hv (.inl hu)
  · exact (hnew u v a b hu (hclaims v a b hv)).symm

variable {New} in
theorem saves_perform {o : Outcome} {d : Device} {accounts : List Credential}
    (ho : Ordinary (Issued count accounts New) w.server d o) {uid : Uid} {a b : String}
    (h : Saves (w.perform o) uid a b) : Saves w uid a b ∨ New uid a b := by
  obtain ⟨dic, hmem, hcarries⟩ := h
  rcases List.mem_append.mp hmem with hmem | hmem
  · exact .inl ⟨dic, hmem, hcarries⟩
  · obtain ⟨q, hq, heq⟩ := List.mem_map.mp hmem
    cases heq
    exact .inr ((ho.setProfile uid dic hq).2 uid dic a b rfl hcarries)

theorem kept_perform (kept : Kept count f r) {u : Service.Phone} {o : Outcome} {d : Device}
    (hserver : u.server = (f e).server) (hinflight : ∀ q ∈ u.inflight, q ∈ (f e).inflight)
    (ho : Ordinary (Issued count r.accounts New) u.server d o)
    (hnew : ∀ u v a b, New u a b → Claims r.loginUser f v a b ∨ New v a b → v = u) :
    Kept count (spread (program count) sharing f e (u.perform o))
      (registry (u.perform o).server) := by
  have hregistry : registry (u.perform o).server = r :=
    (congrArg registry hserver).trans (kept.agree e)
  have hlogin := congrArg Registry.loginUser hregistry
  refine ⟨agree_spread, claimed_spread New kept (fun uid a b h => ?_)
    (fun uid a b h => ?_) hnew, ?_, ?_⟩
  · exact .inl (hlogin ▸ h)
  · refine (saves_perform ho h).imp_left ?_
    rintro ⟨dic, hmem, hcarries⟩
    exact ⟨dic, hinflight _ hmem, hcarries⟩
  · rw [hregistry]
    exact kept.credited
  · rw [hregistry]
    refine forall_spread
      (P := fun _ (w : Service.Phone) => ∀ q ∈ w.inflight, Sound count r.accounts q)
      kept.sound ?_ fun _ _ h => h
    exact World.calls_perform (fun q hq => kept.sound e q (hinflight q hq)) (sound_issued ho)

theorem kept_served (kept : Kept count f r) {i : Nat} {q : Request} {ok : Bool}
    (hi : (f e).inflight[i]? = some ⟨q, none⟩) :
    let w := (f e).served (program count) i q ok
    Kept count (spread (program count) sharing f e w) (registry w.server) := by
  intro w
  have hq := List.mem_of_getElem? hi
  have hsound : Sound count (f e).server.accounts ⟨q, none⟩ := by
    rw [kept.accounts e]
    exact kept.sound e _ hq
  refine ⟨agree_spread, claimed_spread (fun _ _ _ => False) kept (fun uid a b h => ?_)
    (fun uid a b h => .inl ?_) (fun _ _ _ _ h => h.elim), ?_, ?_⟩
  · rcases holds_served hsound h with h | ⟨dic, rfl, hcarries⟩
    · rw [kept.loginUser e] at h
      exact .inl h
    · exact .inr ⟨e, dic, hq, hcarries⟩
  · obtain ⟨dic, hmem, hcarries⟩ := h
    rcases List.mem_or_eq_of_mem_set hmem with hmem | heq
    · exact ⟨dic, hmem, hcarries⟩
    · cases heq
  · have hregistry : registry (f e).server = r := kept.agree e
    exact credited_served (hregistry ▸ kept.credited) hsound
  · have hgrown : ∀ d, ∀ q' ∈ (f d).inflight, Sound count w.server.accounts q' := by
      intro d q' hq'
      have h := kept.sound d q' hq'
      rw [← kept.accounts e] at h
      exact h.served
    refine forall_spread (P := fun _ (v : Service.Phone) => ∀ q ∈ v.inflight,
      Sound count w.server.accounts q) hgrown ?_ fun _ _ h => h
    exact World.calls_served (hgrown e) (sound_answered hsound)

theorem kept_step {f' : Phones D} {x : D × Event Editors.Action Empty} (kept : Kept count f r)
    (hx : Fresh count f x) (h : step count f x = some f') : ∃ r', Kept count f' r' := by
  obtain ⟨w, hw, rfl⟩ := step_spread h
  obtain ⟨e, event⟩ := x
  refine ⟨registry w.server, ?_⟩
  cases hw with
  | @act v o ho =>
    obtain rfl := Option.some.inj ho
    by_cases hv : ∃ token, v = .didReceiveRegistrationToken token
    · obtain ⟨token, rfl⟩ := hv
      exact kept_perform (fun _ _ _ => False) kept rfl (fun _ hq => hq)
        (ordinary_setLastLogin _ _) (fun _ _ _ _ h => h.elim)
    -- an accepted save of the account screen is the only new claim
    have hone : Ordinary (Issued count r.accounts fun uid a b =>
        v = .save (.account a b) ∧ (Form.save count (.account a b)).isSome ∧
          (f e).server.currentUser = some uid) (f e).server (f e).client
        (Editors.act count (f e).server (f e).client v) := by
      refine ordinary_act count _ _ (fun token heq => hv ⟨token, heq⟩) ?_
      rintro form uid dic rfl hsaved huser
      refine ⟨⟨form, hsaved⟩, fun uid' dic' a b heq hcarries => ?_⟩
      obtain ⟨rfl, rfl⟩ := Request.setProfile.inj heq
      rcases form_of_carries hsaved with ⟨hnone, -⟩ | ⟨a', b', rfl, hcarries'⟩
      · cases hnone.symm.trans hcarries.1
      · obtain rfl := Option.some.inj (hcarries'.1.symm.trans hcarries.1)
        obtain rfl := Option.some.inj (hcarries'.2.symm.trans hcarries.2)
        exact ⟨rfl, by rw [hsaved]; rfl, huser⟩
    refine kept_perform _ kept rfl (fun _ hq => hq) hone ?_
    rintro u v' a b ⟨rfl, hsaved, huser⟩ (hclaims | ⟨-, -, huser'⟩)
    · refine hx hsaved u huser v' ?_
      show Claims (f e).server.loginUser f v' a b
      rw [kept.loginUser e]
      exact hclaims
    · exact Option.some.inj (huser'.symm.trans huser)
  | serve hi => exact kept_served kept hi
  | @handle i q a o hi ho =>
    refine kept_perform (fun _ _ _ => False) kept rfl
      (fun _ hq => List.mem_of_mem_eraseIdx hq) (ordinary_handle ?_ ho)
      (fun _ _ _ _ h => h.elim)
    rintro uid email password rfl rfl
    have hnamed : accountOf r.accounts email password = some uid :=
      kept.sound e _ (List.mem_of_getElem? hi)
    exact ⟨hnamed, fun _ _ _ _ h => nomatch h⟩
  | @deliver j ok x o hj ho =>
    refine kept_perform (fun _ _ _ => False) kept rfl (fun _ hq => hq)
      (ordinary_notify ?_ ho) (fun _ _ _ _ h => h.elim)
    intro call email password document rest user hlistener hsnapshot hparsed
    refine ⟨?_, fun _ _ _ _ h => nomatch h⟩
    cases ok with
    | false => cases hsnapshot
    | true =>
      rw [hlistener] at hsnapshot
      have hmem := holds_of_switchDocuments call (Option.some.inj hsnapshot) List.mem_cons_self
      obtain ⟨hemail, hpassword⟩ := credentials_of_parsed hparsed
      have hkey := (LoginUser.of_parsed hparsed).1
      show accountOf r.accounts user.email user.password = some user.key
      rw [hkey]
      refine kept.credited document.1 document.2 _ _ ?_ hemail hpassword
      exact (kept.loginUser e) ▸ hmem.1
  | @env change => exact change.elim

end Steps

/-- No two active accounts store one pair at the start, and the profiles carry the credentials
of their accounts. -/
structure Settled (launch : Launch D) : Prop where
  alone : ∀ u v loginEmail loginPassword,
    Holds launch.backend.loginUser u loginEmail loginPassword →
    Holds launch.backend.loginUser v loginEmail loginPassword → u = v
  credited : Credited (registry launch.backend)

theorem kept_phones {launch : Launch D} (settled : Settled launch) :
    Kept count launch.phones (registry launch.backend) where
  agree _ := rfl
  claimed := by
    have hheld : ∀ {uid a b}, Claims launch.backend.loginUser launch.phones uid a b →
        Holds launch.backend.loginUser uid a b := by
      rintro uid a b (h | ⟨d, dic, hmem, -⟩)
      · exact h
      · cases hmem
    exact fun u v a b hu hv => settled.alone u v a b (hheld hu) (hheld hv)
  credited := settled.credited
  sound _ _ hq := nomatch hq

/-- A delivery to the listener of a switch to the pair signs in with the profile of `user`. -/
def Switches (w : Service.Phone) (loginEmail loginPassword : String) (user : LoginUser) : Prop :=
  ∃ call o, notify w.server w.client (.switchUser call loginEmail loginPassword)
      (some (snapshot w.server (.switchUser call loginEmail loginPassword))) = some o ∧
    .signIn call user ∈ o.requests

theorem holds_of_switches {w : Service.Phone} {loginEmail loginPassword : String}
    {user : LoginUser} (h : Switches w loginEmail loginPassword user) :
    Holds w.server.loginUser user.key loginEmail loginPassword := by
  obtain ⟨call, o, ho, hmem⟩ := h
  obtain rfl := Option.some.inj ho
  unfold switchDelivered at hmem
  split at hmem
  · cases hmem
  · split at hmem
    · rename_i document rest hdocuments _ user' hparsed
      obtain ⟨-, rfl⟩ := Request.signIn.inj (List.mem_singleton.mp hmem)
      rw [(LoginUser.of_parsed hparsed).1]
      exact (holds_of_switchDocuments call (congrArg Snapshot.users hdocuments)
        List.mem_cons_self).2
    · cases hmem

/-- In a run that saves only fresh pairs, no pair is ever stored by two active accounts, and a
switch signs in to the one that stores it. -/
theorem pairs_unique [DecidableEq D] {launch : Launch D} {f : Phones D}
    {es : List (D × Event Editors.Action Empty)} (settled : Settled launch)
    (along : Along (step count) (Fresh count) launch.phones es)
    (hr : run (step count) launch.phones es = some f) :
    (∀ d u v loginEmail loginPassword, Holds (f d).server.loginUser u loginEmail loginPassword →
      Holds (f d).server.loginUser v loginEmail loginPassword → u = v) ∧
    (∀ d loginEmail loginPassword user, Switches (f d) loginEmail loginPassword user →
      ∀ v, Holds (f d).server.loginUser v loginEmail loginPassword ↔ v = user.key) ∧
    ∀ d call user uid, ⟨.signIn call user, none⟩ ∈ (f d).inflight →
      signsInto (f d).server (.signIn call user) true = some uid → uid = user.key := by
  have kept := run_keeps (P := fun f => ∃ r, Kept count f r)
    (fun _ _ _ h hx hstep => h.elim fun _ kept => kept_step kept hx hstep) along hr
    ⟨_, kept_phones settled⟩
  obtain ⟨r, kept⟩ := kept
  have hunique : ∀ d u v a b, Holds (f d).server.loginUser u a b →
      Holds (f d).server.loginUser v a b → u = v := by
    intro d u v a b hu hv
    rw [kept.loginUser d] at hu hv
    exact kept.claimed u v a b (.inl hu) (.inl hv)
  refine ⟨hunique, fun d a b user hswitch v => ?_, fun d call user uid hmem hsign => ?_⟩
  · have hheld := holds_of_switches hswitch
    refine ⟨fun hv => hunique d v user.key a b hv hheld, ?_⟩
    rintro rfl
    exact hheld
  · have hsound : accountOf r.accounts user.email user.password = some user.key :=
      kept.sound d _ hmem
    rw [← kept.accounts d] at hsound
    exact Option.some.inj (hsign.symm.trans hsound)

section Example

private def ann : LoginUserDoc where
  email := some "a@p-chat.net"
  password := some "password1234"
  status := some 1

private def bob : LoginUserDoc where
  email := some "b@p-chat.net"
  password := some "password1234"
  status := some 1

/-- Bob's phone, ann's phone, and a new phone. -/
private def threePhones : Launch (Fin 3) where
  backend := {
    accounts := [⟨"a", "a@p-chat.net", "password1234"⟩, ⟨"b", "b@p-chat.net", "password1234"⟩]
    uids := fun _ => "c"
    urls := fun _ => "url"
    loginUser := (AList.singleton "a" ann).insert "b" bob }
  currentUser d := if d = 0 then some "b" else if d = 1 then some "a" else none
  device _ := { emails := fun _ => "c@p-chat.net" }

private def bobSaves : List (Fin 3 × Event Editors.Action Empty) :=
  [(0, .act (.save (.account "me@mail.jp" "secret"))), (0, .serve 0 true)]

private def annSaves : List (Fin 3 × Event Editors.Action Empty) :=
  [(1, .act (.save (.account "me@mail.jp" "secret"))), (1, .serve 0 true)]

/-- Bob takes his account over to the new phone. -/
private def moves : List (Fin 3 × Event Editors.Action Empty) :=
  [(2, .act (.changeLoginUser "me@mail.jp" "secret")), (2, .deliver 0 true), (2, .serve 0 true)]

private def stored (f : Phones (Fin 3)) (uid : Uid) :
    Option (Option Int × Option String × Option String) :=
  ((f 2).server.loginUser.lookup uid).map fun d => (d.status, d.loginEmail, d.loginPassword)

theorem pair_of_both_accounts : ∃ f,
    run (step String.length) threePhones.phones (bobSaves ++ annSaves ++ moves) = some f ∧
      stored f "a" = some (some 1, some "me@mail.jp", some "secret") ∧
      stored f "b" = some (some 1, some "me@mail.jp", some "secret") ∧
      (f 2).server.currentUser = some "a" :=
  ⟨_, rfl, by decide, by decide, by decide⟩

private theorem threePhones_lookup {uid : Uid} {d : LoginUserDoc}
    (h : threePhones.backend.loginUser.lookup uid = some d) :
    uid = "a" ∧ d = ann ∨ uid = "b" ∧ d = bob := by
  by_cases hb : uid = "b"
  · subst hb
    exact .inr ⟨rfl, (Option.some.inj ((AList.lookup_insert _).symm.trans h)).symm⟩
  · have h := (AList.lookup_insert_ne hb).symm.trans h
    rw [lookup_singleton] at h
    split at h
    · rename_i ha
      exact .inl ⟨ha, (Option.some.inj h).symm⟩
    · cases h

private theorem threePhones_free (uid : Uid) (loginEmail loginPassword : String) :
    ¬ Holds threePhones.backend.loginUser uid loginEmail loginPassword := by
  rintro ⟨d, hd, -, hcarries, -⟩
  rcases threePhones_lookup hd with ⟨-, rfl⟩ | ⟨-, rfl⟩ <;> cases hcarries

private theorem threePhones_settled : Settled threePhones where
  alone _ _ _ _ hu := absurd hu (threePhones_free _ _ _)
  credited := by
    intro uid d email password hd he hp
    rcases threePhones_lookup hd with ⟨rfl, rfl⟩ | ⟨rfl, rfl⟩
    · cases he
      cases hp
      decide
    · cases he
      cases hp
      decide

private theorem bobSaves_fresh :
    Along (step String.length) (Fresh String.length) threePhones.phones (bobSaves ++ moves) := by
  refine .cons (fun _ uid _ v hv => ?_) rfl (.cons trivial rfl (.cons trivial rfl
    (.cons trivial rfl (.cons trivial rfl trivial))))
  rcases hv with hv | ⟨d, dic, hmem, -⟩
  · exact absurd hv (threePhones_free _ _ _)
  · cases hmem

theorem pairs_unique_bob : ∃ f,
    run (step String.length) threePhones.phones (bobSaves ++ moves) = some f ∧
      stored f "b" = some (some 1, some "me@mail.jp", some "secret") ∧
      (f 2).server.currentUser = some "b" ∧
      (∀ d u v loginEmail loginPassword, Holds (f d).server.loginUser u loginEmail loginPassword →
        Holds (f d).server.loginUser v loginEmail loginPassword → u = v) ∧
      (∀ d loginEmail loginPassword user, Switches (f d) loginEmail loginPassword user →
        ∀ v, Holds (f d).server.loginUser v loginEmail loginPassword ↔ v = user.key) ∧
      ∀ d call user uid, ⟨.signIn call user, none⟩ ∈ (f d).inflight →
        signsInto (f d).server (.signIn call user) true = some uid → uid = user.key :=
  ⟨_, rfl, by decide, by decide, pairs_unique threePhones_settled bobSaves_fresh rfl⟩

end Example

end PlateChat.Account.Pairs
