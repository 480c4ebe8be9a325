/- PlateChat/Account/Tokens
   digest: Which accounts hold a device's registration token, over all devices and runs. -/

import PlateChat.Account.Fleet
import PlateChat.Foundation.Ownership

set_option autoImplicit false
set_option relaxedAutoImplicit false

/-!
`setLastLogin` writes the device's token into the profile of whoever is signed in, and
`deleteLoginUser` clears it again; `changeLoginUser` leaves it with the account that the
device is signed out of.
-/

namespace PlateChat.Account.Tokens

open PlateChat.Foundation.Dictionary PlateChat.Foundation.Run PlateChat.Foundation.EventLoop
open PlateChat.Foundation.Fleet (Agree spread spread_own spread_other forall_spread agree_spread
  step_spread)
open PlateChat.Foundation
open PlateChat.Foundation.Ownership (Ledger Exclusive Within)
open PlateChat.Model.Members PlateChat.Model.LocalData PlateChat.Model.Profile
open PlateChat.Account.Service PlateChat.Account.Fleet
open PlateChat.Account.Editors (Editable Form)

abbrev Token := {token : String // token ≠ ""}

/-- An active account's document carries the token. -/
def Holds (loginUser : Dict Uid LoginUserDoc) (uid : Uid) (token : String) : Prop :=
  ∃ d, loginUser.lookup uid = some d ∧ d.status = some 1 ∧ d.fcmToken = some token

def Writes (w : Service.Phone) (uid : Uid) (token : String) : Prop :=
  ⟨.setLogin uid (some token), none⟩ ∈ w.inflight

def Knows (w : Service.Phone) (token : String) : Prop :=
  Cached w.client token ∨ ∃ uid, Writes w uid token

/-- An editor's fields are all that is saved. -/
def Edited (r : Request) : Prop := ∀ uid dic, r = .setProfile uid dic → Editable dic

theorem edited_setNewUser (uid : Uid) (email password : String) :
    Edited (.setNewUser uid email password) := fun _ _ h => nomatch h

theorem edited_signIn (call : Nat) (user : LoginUser) : Edited (.signIn call user) :=
  fun _ _ h => nomatch h

variable {s : Backend} {d : Device} {o : Outcome}

theorem holds_served {r : Request} {ok : Bool} {uid : Uid} {token : String}
    (hdic : Edited r)
    (h : Holds (Service.serve s r ok).1.loginUser uid token) :
    Holds s.loginUser uid token ∨ r = .setLogin uid (some token) := by
  obtain ⟨doc, hdoc, hstatus, htoken⟩ := h
  rcases serve_active hdic hdoc hstatus with hold | ⟨-, ⟨email, password, -, rfl⟩ |
    ⟨old, dic, hold, hactive, hmerged, rfl⟩⟩
  · exact .inl ⟨doc, hold, hstatus, htoken⟩
  · cases htoken
  -- fields without a token leave the old one
  have hkeep : dic.fcmToken = none → Holds s.loginUser uid token := by
    intro ht
    simp only [LoginUserDoc.merge, ht, Option.none_or] at htoken
    exact ⟨old, hold, hactive, htoken⟩
  cases r with
  | setProfile v saved =>
    cases hmerged
    exact .inl (hkeep (hdic _ _ rfl).fcmToken)
  | setDeleted v =>
    cases hmerged
    cases hstatus
  | setLogin v written =>
    cases hmerged
    cases written with
    | none => exact .inl (hkeep rfl)
    | some written =>
      cases htoken
      exact .inr rfl
  | setImage v url =>
    cases hmerged
    exact .inl (hkeep rfl)
  | createAuth | signInCreated | setNewUser | getProfile | putAvatar | downloadURL
  | getBlockUser | getBlockedUser | signIn | setArticle => cases hmerged

variable {D : Type}

def ledger (loginUser : Dict Uid LoginUserDoc) (f : Phones D) : Ledger D Uid Token where
  session d := (f d).server.currentUser
  knows d token := Knows (f d) token
  writes d uid token := Writes (f d) uid token
  holds uid token := Holds loginUser uid token
  knows_of_writes h := .inr ⟨_, h⟩

structure Kept (f : Phones D) (r : Registry) : Prop where
  agree : Agree sharing f r
  exclusive : Exclusive (ledger r.loginUser f)
  edited : ∀ d, ∀ q ∈ (f d).inflight, Edited q.request

/-- The SDK hands a device no token that another device knows or another active account
holds, and a device that signs in to another account has left no token in an active one
nor sent it to one. -/
def Released (f : Phones D) (x : D × Event Editors.Action Empty) : Prop :=
  match x.2 with
  | .act (.didReceiveRegistrationToken token) => token ≠ "" →
    (∀ e, Knows (f e) token → e = x.1) ∧
      ∀ uid, Holds (f x.1).server.loginUser uid token → (f x.1).server.currentUser = some uid
  | .serve i ok => ∀ r uid, (f x.1).inflight[i]? = some ⟨r, none⟩ →
    signsInto (f x.1).server r ok = some uid → (f x.1).server.currentUser = some uid ∨
      ∀ token, token ≠ "" → Knows (f x.1) token →
        (∀ v, ¬ Holds (f x.1).server.loginUser v token) ∧ ∀ v, ¬ Writes (f x.1) v token
  | _ => True

theorem Kept.loginUser {f : Phones D} {r : Registry} (kept : Kept f r) (d : D) :
    (f d).server.loginUser = r.loginUser := congrArg Registry.loginUser (kept.agree d)

section Device

variable {w : Service.Phone}

theorem writes_perform (ho : Ordinary Edited w.server d o) {uid : Uid} {token : String}
    (h : Writes (w.perform o) uid token) :
    Writes w uid token ∨ w.server.currentUser = some uid ∧ Cached d token := by
  rcases List.mem_append.mp h with h | h
  · exact .inl h
  · obtain ⟨r, hr, heq⟩ := List.mem_map.mp h
    cases heq
    exact .inr (ho.setLogin uid token hr)

theorem knows_perform (ho : Ordinary Edited w.server d o) {token : String}
    (h : Knows (w.perform o) token) : (∃ uid, Writes w uid token) ∨ Cached d token := by
  rcases h with h | ⟨uid, h⟩
  · exact .inr (ho.cached token h)
  · exact (writes_perform ho h).imp (fun h => ⟨uid, h⟩) And.right

theorem edited_perform (ho : Ordinary Edited w.server d o)
    (h : ∀ q ∈ w.inflight, Edited q.request) : ∀ q ∈ (w.perform o).inflight, Edited q.request :=
  World.calls_perform h fun _ hr uid dic heq => ho.setProfile uid dic (heq ▸ hr) uid dic rfl

theorem writes_served {count : String → Nat} {i : Nat} {r : Request} {ok : Bool} {uid : Uid}
    {token : String} (h : Writes (w.served (program count) i r ok) uid token) :
    Writes w uid token := by
  rcases List.mem_or_eq_of_mem_set h with h | h
  · exact h
  · cases h

end Device

section Steps

variable [DecidableEq D] {count : String → Nat} {f : Phones D} {r : Registry} {e : D}
  {w : Service.Phone}

/-- Only the device that moves knows or writes other tokens than before. -/
theorem within_spread (count : String → Nat) (known : Token → Prop) (issued : Uid → Token → Prop)
    (held : Uid → Token → Prop)
    (hknows : ∀ token : Token, Knows w token → Knows (f e) token ∨ known token)
    (hwrites : ∀ uid (token : Token), Writes w uid token →
      Writes (f e) uid token ∨ issued uid token)
    (hholds : ∀ uid (token : Token), Holds w.server.loginUser uid token →
      Holds r.loginUser uid token ∨ held uid token) :
    Within (ledger r.loginUser f) (ledger w.server.loginUser (spread (program count) sharing f e w))
      (fun d token => d = e ∧ known token) (fun d uid token => d = e ∧ issued uid token) held where
  knows {d token} h := by
    refine forall_spread
      (P := fun d w => Knows w token.1 → Knows (f d) token.1 ∨ d = e ∧ known token)
      (fun _ => .inl) (fun h => (hknows token h).imp_right fun h => ⟨rfl, h⟩) ?_ d h
    exact fun _ _ _ h => .inl h
  writes {d uid token} h := by
    refine forall_spread
      (P := fun d w => Writes w uid token.1 → Writes (f d) uid token.1 ∨ d = e ∧ issued uid token)
      (fun _ => .inl) (fun h => (hwrites uid token h).imp_right fun h => ⟨rfl, h⟩) ?_ d h
    exact fun _ _ _ h => .inl h
  holds {uid token} h := hholds uid token h

theorem session_spread (hs : w.server.currentUser = (f e).server.currentUser) :
    (ledger w.server.loginUser (spread (program count) sharing f e w)).session =
      (ledger r.loginUser f).session := by
  funext d
  exact forall_spread
    (P := fun d (w : Service.Phone) => w.server.currentUser = (f d).server.currentUser)
    (fun _ => rfl) hs (fun _ _ _ => rfl) d

theorem kept_spread (kept : Kept f r)
    (hstep : Ownership.Step (ledger r.loginUser f)
      (ledger w.server.loginUser (spread (program count) sharing f e w)))
    (hedited : ∀ q ∈ w.inflight, Edited q.request) :
    Kept (spread (program count) sharing f e w) (registry w.server) where
  agree := agree_spread
  exclusive := hstep.exclusive kept.exclusive
  edited := forall_spread (P := fun _ (w : Service.Phone) => ∀ q ∈ w.inflight, Edited q.request)
    kept.edited hedited fun _ _ h => h

theorem within_perform (count : String → Nat) (known : Token → Prop) (kept : Kept f r)
    {u : Service.Phone} (hserver : u.server = (f e).server)
    (hwrites : ∀ uid token, Writes u uid token → Writes (f e) uid token)
    (ho : Ordinary Edited u.server d o)
    (hcached : ∀ token : Token, Cached d token → Knows (f e) token ∨ known token) :
    Within (ledger r.loginUser f)
      (ledger (u.perform o).server.loginUser (spread (program count) sharing f e (u.perform o)))
      (fun d token => d = e ∧ known token) (fun d uid _ => (f d).server.currentUser = some uid)
      (fun _ _ => False) := by
  refine (within_spread count known (fun uid _ => (f e).server.currentUser = some uid)
    (fun _ _ => False) (fun token h => ?_) (fun uid token h => ?_) (fun uid token h => ?_)).mono
    (fun _ _ => id) ?_ (fun _ _ => id)
  · rcases knows_perform ho h with ⟨uid, h⟩ | h
    · exact .inl (.inr ⟨uid, hwrites uid token h⟩)
    · exact hcached token h
  · refine (writes_perform ho h).imp (hwrites uid token) fun h => ?_
    exact hserver ▸ h.1
  · have hlogin : (u.perform o).server.loginUser = r.loginUser :=
      (congrArg Backend.loginUser hserver).trans (kept.loginUser e)
    exact .inl (hlogin ▸ h)
  · rintro d uid token ⟨rfl, h⟩
    exact h

theorem kept_perform (kept : Kept f r) {u : Service.Phone} (hserver : u.server = (f e).server)
    (hinflight : ∀ q ∈ u.inflight, q ∈ (f e).inflight)
    (ho : Ordinary Edited u.server (f e).client o) :
    Kept (spread (program count) sharing f e (u.perform o)) (registry (u.perform o).server) := by
  refine kept_spread kept ?_ (edited_perform ho fun q hq => kept.edited e q (hinflight q hq))
  refine .issue (session_spread (congrArg Backend.currentUser hserver)) ?_
  have hwithin := within_perform count (fun _ => False) kept hserver
    (fun uid token h => hinflight _ h) ho fun token h => .inl (.inl h)
  exact hwithin.mono (fun _ _ h => h.2) (fun _ _ _ => id) (fun _ _ => id)

theorem kept_registered (kept : Kept f r) {token : String}
    (hx : Released f (e, .act (.didReceiveRegistrationToken token))) :
    let w := (f e).perform
      (Editors.act count (f e).server (f e).client (.didReceiveRegistrationToken token))
    Kept (spread (program count) sharing f e w) (registry w.server) := by
  intro w
  have ho : Ordinary Edited _ _ _ :=
    ordinary_setLastLogin (f e).server { (f e).client with
      messagingToken := some token
      account := { (f e).client.account with fcmToken := some token } }
  refine kept_spread kept ?_ (edited_perform ho (kept.edited e))
  have hwithin := within_perform count (fun t => t.1 = token) kept (e := e) rfl
    (fun uid token h => h) ho fun t h => .inr ?_
  · by_cases hne : token = ""
    · refine .issue (session_spread rfl) (hwithin.mono ?_ (fun _ _ _ => id) (fun _ _ => id))
      rintro d t ⟨-, heq⟩
      exact t.2 (heq.trans hne)
    · obtain ⟨hnew, hheld⟩ := hx hne
      refine .learn e ⟨token, hne⟩ hnew (fun uid h => hheld uid ?_) (session_spread rfl)
        (hwithin.mono ?_ (fun _ _ _ => id) (fun _ _ => id))
      · show Holds (f e).server.loginUser uid token
        exact (kept.loginUser e).symm ▸ h
      · rintro d t ⟨rfl, heq⟩
        exact ⟨rfl, Subtype.ext heq⟩
  · rcases h with h | h <;> exact (Option.some.inj h).symm

theorem kept_served (kept : Kept f r) {i : Nat} {q : Request} {ok : Bool}
    (hi : (f e).inflight[i]? = some ⟨q, none⟩) (hx : Released f (e, .serve i ok)) :
    let w := (f e).served (program count) i q ok
    Kept (spread (program count) sharing f e w) (registry w.server) := by
  intro w
  have hq := List.mem_of_getElem? hi
  have hedited : Edited q := kept.edited e _ hq
  have hcurrent : w.server.currentUser =
      (signsInto (f e).server q ok).or (f e).server.currentUser := serve_currentUser _ q ok
  have hknows : ∀ token : Token, Knows w token → Knows (f e) token ∨ False := by
    rintro token (h | ⟨uid, h⟩)
    · exact .inl (.inl h)
    · exact .inl (.inr ⟨uid, writes_served h⟩)
  have hholds : ∀ uid (token : Token), Holds w.server.loginUser uid token →
      Holds r.loginUser uid token ∨ q = .setLogin uid (some token.1) := by
    intro uid token h
    rw [← kept.loginUser e]
    exact holds_served hedited h
  have hwithin := within_spread count _ (fun _ _ => False) _ hknows
    (fun uid token h => .inl (writes_served h)) hholds
  refine kept_spread kept ?_
    (World.calls_served (P := fun q => Edited q.request) (kept.edited e) hedited)
  cases hsign : signsInto (f e).server q ok with
  | some uid =>
    refine .enter e uid ?_ ?_ ?_ (hwithin.mono (fun _ _ h => h.2) (fun _ _ _ h => h.2) ?_)
    · refine (hx q uid hi hsign).imp_right fun hfree token hknown => ?_
      obtain ⟨hnone, hwrites⟩ := hfree token token.2 hknown
      exact ⟨fun v h => hnone v ((kept.loginUser e).symm ▸ h), hwrites⟩
    · show (spread (program count) sharing f e w e).server.currentUser = some uid
      rw [spread_own, hcurrent, hsign]
      rfl
    · intro d hd
      show (spread (program count) sharing f e w d).server.currentUser = _
      rw [spread_other hd]
      rfl
    · rintro v token rfl
      cases hsign
  | none =>
    have hsession : w.server.currentUser = (f e).server.currentUser := by
      rw [hcurrent, hsign]
      rfl
    by_cases hwrite : ∃ uid, ∃ token : Token, q = .setLogin uid (some token.1)
    · obtain ⟨uid, token, rfl⟩ := hwrite
      refine .write e uid token hq (session_spread hsession)
        (hwithin.mono (fun _ _ h => h.2) (fun _ _ _ h => h.2) fun v token' h => ?_)
      obtain ⟨rfl, heq⟩ := Request.setLogin.inj h
      exact ⟨rfl, Subtype.ext (Option.some.inj heq).symm⟩
    · refine .issue (session_spread hsession)
        (hwithin.mono (fun _ _ h => h.2) (fun _ _ _ h => h.2.elim) fun v token h => ?_)
      exact hwrite ⟨v, token, h⟩

theorem kept_step {f' : Phones D} {x : D × Event Editors.Action Empty} (kept : Kept f r)
    (hx : Released f x) (h : step count f x = some f') : ∃ r', Kept f' r' := by
  obtain ⟨w, hw, rfl⟩ := step_spread h
  obtain ⟨e, event⟩ := x
  refine ⟨registry w.server, ?_⟩
  cases hw with
  | @act v o ho =>
    obtain rfl := Option.some.inj ho
    by_cases hv : ∃ token, v = .didReceiveRegistrationToken token
    · obtain ⟨token, rfl⟩ := hv
      exact kept_registered kept hx
    · refine kept_perform kept rfl (fun _ hq => hq) (ordinary_act count _ _ ?_ ?_)
      · exact fun token heq => hv ⟨token, heq⟩
      · rintro form uid dic - hsaved - uid' dic' heq
        cases heq
        exact Form.editable hsaved
  | serve hi => exact kept_served kept hi hx
  | handle hi ho =>
    exact kept_perform kept rfl (fun _ hq => List.mem_of_mem_eraseIdx hq)
      (ordinary_handle (fun uid email password _ _ => edited_setNewUser uid email password) ho)
  | deliver hj ho =>
    exact kept_perform kept rfl (fun _ hq => hq)
      (ordinary_notify (fun call _ _ _ _ user _ _ _ => edited_signIn call user) ho)
  | @env change => exact change.elim

/-- No two active accounts hold one token at the start, and a device's tokens are known to it
alone and held by no account but its own. -/
structure Settled (launch : Launch D) : Prop where
  alone : ∀ u v token, token ≠ "" → Holds launch.backend.loginUser u token →
    Holds launch.backend.loginUser v token → u = v
  own : ∀ d u token, token ≠ "" → Cached (launch.device d) token →
    Holds launch.backend.loginUser u token → launch.currentUser d = some u
  apart : ∀ d e token, token ≠ "" → Cached (launch.device d) token →
    Cached (launch.device e) token → d = e

omit [DecidableEq D] in
theorem kept_phones {launch : Launch D} (settled : Settled launch) :
    Kept launch.phones (registry launch.backend) where
  agree _ := rfl
  exclusive := by
    have hcached : ∀ {d token}, Knows (launch.phones d) token → Cached (launch.device d) token := by
      rintro d token (h | ⟨uid, h⟩)
      · exact h
      · cases h
    refine ⟨fun {u v token} => settled.alone u v token token.2, fun {d u token} hd => ?_,
      (fun hw => nomatch hw), fun {d e token} hd he => ?_⟩
    · exact settled.own d u token token.2 (hcached hd)
    · exact settled.apart d e token token.2 (hcached hd) (hcached he)
  edited _ _ hq := nomatch hq

/-- In a run whose steps all release their tokens, no token is ever held by two active
accounts. -/
theorem tokens_unique {launch : Launch D} {es : List (D × Event Editors.Action Empty)}
    (settled : Settled launch) (along : Along (step count) Released launch.phones es)
    (hr : run (step count) launch.phones es = some f) :
    ∀ d u v token, token ≠ "" → Holds (f d).server.loginUser u token →
      Holds (f d).server.loginUser v token → u = v := by
  have kept := run_keeps (P := fun f => ∃ r, Kept f r)
    (fun _ _ _ h hx hstep => h.elim fun _ kept => kept_step kept hx hstep) along hr
    ⟨_, kept_phones settled⟩
  obtain ⟨r, kept⟩ := kept
  intro d u v token hne hu hv
  rw [kept.loginUser d] at hu hv
  exact kept.exclusive.alone (m := ⟨token, hne⟩) hu hv

end Steps

section Example

/-- The device of the examples is the only one. -/
private def ann : LoginUserDoc where
  email := some "a@p-chat.net"
  password := some "password1234"
  status := some 1

private def bob : LoginUserDoc where
  email := some "b@p-chat.net"
  password := some "password1234"
  loginEmail := some "bob@mail.jp"
  loginPassword := some "secret"
  status := some 1

/-- Ann's phone, and bob's account that its owner also uses. -/
private def twoAccounts : Launch Unit where
  backend := {
    accounts := [⟨"a", "a@p-chat.net", "password1234"⟩, ⟨"b", "b@p-chat.net", "password1234"⟩]
    uids := fun _ => "c"
    urls := fun _ => "url"
    loginUser := (AList.singleton "a" ann).insert "b" bob }
  currentUser _ := some "a"
  device _ := { emails := fun _ => "c@p-chat.net" }

private def registered : List (Unit × Event Editors.Action Empty) :=
  [((), .act (.didReceiveRegistrationToken "t")), ((), .serve 0 true), ((), .handle 0),
    ((), .serve 0 false), ((), .handle 0)]

/-- The token is stored with ann, the device switches to bob, and the token is stored again. -/
private def switched : List (Unit × Event Editors.Action Empty) :=
  registered ++ [((), .act (.changeLoginUser "bob@mail.jp" "secret")), ((), .deliver 0 true),
    ((), .serve 0 true), ((), .handle 0), ((), .serve 0 false), ((), .handle 0),
    ((), .serve 0 false), ((), .handle 0), ((), .act .setLastLogin), ((), .serve 0 true),
    ((), .handle 0), ((), .serve 0 false), ((), .handle 0)]

private def stored (f : Phones Unit) (uid : Uid) : Option (Option Int × Option String) :=
  ((f ()).server.loginUser.lookup uid).map fun d => (d.status, d.fcmToken)

theorem token_of_both_accounts : ∃ f,
    run (step String.length) twoAccounts.phones switched = some f ∧ (f ()).inflight = [] ∧
      stored f "a" = some (some 1, some "t") ∧ stored f "b" = some (some 1, some "t") :=
  ⟨_, rfl, rfl, by decide, by decide⟩

/-- Ann and bob with a phone each. -/
private def twoPhones : Launch Bool where
  backend := twoAccounts.backend
  currentUser phone := if phone then some "b" else some "a"
  device _ := { emails := fun _ => "c@p-chat.net" }

/-- Both phones store their tokens. Ann deletes her account, and her phone, which makes a new one
at once, stores its token with that. -/
private def deleted : List (Bool × Event Editors.Action Empty) :=
  [(false, .act (.didReceiveRegistrationToken "t")), (false, .serve 0 true), (false, .handle 0),
    (false, .serve 0 false), (false, .handle 0),
    (true, .act (.didReceiveRegistrationToken "u")), (true, .serve 0 true), (true, .handle 0),
    (false, .act .deleteAccount), (false, .serve 0 true), (false, .handle 0),
    (false, .serve 0 true), (false, .handle 0), (false, .serve 1 true), (false, .handle 1),
    (false, .serve 2 true), (false, .handle 2), (false, .serve 2 true)]

private theorem free_of_entries {loginUser : Dict Uid LoginUserDoc} {token : String}
    (free : ∀ e ∈ loginUser.entries, e.2.status = some 1 → e.2.fcmToken ≠ some token) (uid : Uid) :
    ¬ Holds loginUser uid token := by
  rintro ⟨d, hd, hstatus, htoken⟩
  exact free ⟨uid, d⟩ (AList.mem_lookup_iff.mp hd) hstatus htoken

private theorem twoPhones_free (uid : Uid) (token : String) :
    ¬ Holds twoPhones.backend.loginUser uid token := by
  refine free_of_entries (fun e he _ htoken => ?_) uid
  have hnone : ∀ e ∈ twoPhones.backend.loginUser.entries, e.2.fcmToken = none := by decide
  rw [hnone e he] at htoken
  cases htoken

private theorem twoPhones_settled : Settled twoPhones where
  alone _ _ _ _ hu _ := absurd hu (twoPhones_free _ _)
  own _ _ _ _ _ hu := absurd hu (twoPhones_free _ _)
  apart _ _ _ _ hd _ := by
    rcases hd with hd | hd <;> cases hd

private theorem deleted_released :
    Along (step String.length) Released twoPhones.phones deleted := by
  refine .cons (fun _ => ⟨?_, fun _ h => absurd h (twoPhones_free _ _)⟩) rfl (.cons ?_ rfl
    (.cons trivial rfl (.cons ?_ rfl (.cons trivial rfl (.cons (fun _ => ⟨?_, ?_⟩) rfl
      (.cons ?_ rfl (.cons trivial rfl (.cons trivial rfl (.cons ?_ rfl (.cons trivial rfl
        (.cons ?_ rfl (.cons trivial rfl (.cons ?_ rfl (.cons trivial rfl (.cons ?_ rfl
          (.cons trivial rfl (.cons ?_ rfl trivial)))))))))))))))))
  · rintro phone ((h | h) | ⟨uid, h⟩) <;> cases h
  · rintro r uid ⟨⟩ ⟨⟩
  · rintro r uid ⟨⟩ ⟨⟩
  · rintro (_ | _) hknows
    · rcases hknows with (h | h) | ⟨uid, h⟩
      · exact absurd (Option.some.inj h) (by decide)
      · exact absurd (Option.some.inj h) (by decide)
      · cases h
    · rfl
  · exact fun uid h => absurd h (free_of_entries (by decide) uid)
  · rintro r uid ⟨⟩ ⟨⟩
  · rintro r uid ⟨⟩ ⟨⟩
  · rintro r uid ⟨⟩ ⟨⟩
  · -- the phone signs in to the new account
    rintro r uid ⟨⟩ ⟨⟩
    refine .inr fun token _ hknows => ⟨?_, fun v h => ?_⟩
    · have htoken : token = "t" := by
        rcases hknows with (h | h) | ⟨v, _ | ⟨_, _ | ⟨_, h⟩⟩⟩
        · exact (Option.some.inj h).symm
        · exact (Option.some.inj h).symm
        · cases h
      subst htoken
      exact free_of_entries (by decide)
    · rcases h with _ | ⟨_, _ | ⟨_, h⟩⟩
      cases h
  · rintro r uid ⟨⟩ ⟨⟩
  · rintro r uid ⟨⟩ ⟨⟩

theorem tokens_unique_registered : ∃ f,
    run (step String.length) twoPhones.phones deleted = some f ∧
      (["a", "b", "c"].map fun uid => ((f false).server.loginUser.lookup uid).map fun d =>
        (d.status, d.fcmToken)) =
          [some (some 0, some ""), some (some 1, some "u"), some (some 1, some "t")] ∧
      ∀ d u v token, token ≠ "" → Holds (f d).server.loginUser u token →
        Holds (f d).server.loginUser v token → u = v :=
  ⟨_, rfl, by decide, tokens_unique twoPhones_settled deleted_released rfl⟩

end Example

end PlateChat.Account.Tokens
