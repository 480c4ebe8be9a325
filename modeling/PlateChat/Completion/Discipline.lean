/- PlateChat/Completion/Discipline
   digest: How often each operation runs the completion handler that it was given. -/

import PlateChat.Completion.Operations

set_option autoImplicit false
set_option relaxedAutoImplicit false

/-!
A request carries the handler on if its callback is the one that is to run it. Nearly every
callback runs the handler or passes it on to one request. The exceptions are named here: the
callbacks that run it beside another that does, and those that let it go.
-/

namespace PlateChat.Completion.Discipline

open PlateChat.Foundation.Run PlateChat.Foundation.Callbacks
open PlateChat.Model.Members PlateChat.Model.Profile PlateChat.Model.Room
open PlateChat.Thread.Service (KeyNames)
open PlateChat.Completion.Operations

/-- Whether a request carries the completion handler. -/
def carries : Request → Bool
  | .signInCreated _ _ | .addDocument _ _ | .getDocuments _ _ | .aside => false
  | _ => true

def signUpFails : Event → Bool
  | .answer (.createAuth _ _) none => true
  | _ => false

def signInFails : Event → Bool
  | .answer (.signInCreated _ _) false => true
  | _ => false

def profileFails : Event → Bool
  | .answer (.setNewUser _ _ _) false => true
  | _ => false

/-- A delivery to the listener of `changeLoginUser`. -/
def switches : Event → Bool
  | .deliver (.switchUser _ _) _ => true
  | _ => false

/-- Rooms that all parse, or an error; or the failure of a step that follows no room. -/
def settlesRoom : Event → Bool
  | .deliver (.rooms _ _) (_, none) => true
  | .deliver (.rooms _ _) (date, some documents) =>
    match ChatRoom.ofDocuments date documents with
    | .ok (_ :: _) => true
    | _ => false
  | .answer (.addDocument _ _) ok => !ok
  | .answer (.getDocuments _ _) (.error _) => true
  | _ => false

/-- The reply to an unmarked root is added, and the service is gone. -/
def leavesRoot : Event → Bool
  | .answer (.addArticle _ _ (some article)) added =>
    decide (article.parentKey = "") && added.ok && !added.service
  | _ => false

def repeats (e : Event) : Bool := signInFails e || switches e || settlesRoom e

def forgets (e : Event) : Bool := signUpFails e || profileFails e || leavesRoot e

/-- How often a turn runs the handler or passes it on. -/
def load (t : Turn) : Nat := t.completions + weight (indicator carries) t.requests

theorem load_orFail {ok : Bool} {t : Turn} (h : load t = 1) : load (orFail ok t) = 1 := by
  cases ok with
  | false => rfl
  | true => exact h

theorem load_asideTurn (a : Aside) : load (asideTurn a) = 0 := by
  have hweight : weight (indicator carries) (asideTurn a).requests = 0 := by
    refine weight_eq_zero fun r hr => ?_
    rw [List.eq_of_mem_replicate hr]
    rfl
  rw [load, hweight]
  rfl

theorem load_profileCompletion (uid : Uid) (listeners : List Listener)
    (answer : Nat × Except ServiceError (Option LoginUserDoc)) :
    load (profileCompletion uid listeners answer) = 1 := by
  unfold profileCompletion
  cases parsedProfile uid answer.1 answer.2 <;> rfl

theorem load_switchDelivered (date : Nat) (documents : Option (List (Uid × LoginUserDoc))) :
    load (switchDelivered date documents) = 1 := by
  rcases documents with _ | _ | ⟨document, documents⟩
  · rfl
  · rfl
  · dsimp only [switchDelivered]
    cases LoginUser.ofDocument date document <;> rfl

theorem load_roomsDelivered (uid otherUid : Uid) (date : Nat)
    (documents : Option (List Document)) :
    load (roomsDelivered uid otherUid date documents) =
      if settlesRoom (.deliver (.rooms uid otherUid) (date, documents)) then 1 else 0 := by
  rcases documents with _ | _ | ⟨document, documents⟩
  · rfl
  · rfl
  · rcases hrooms : ChatRoom.ofDocuments date (document :: documents) with _ | _ | _ <;>
      simp only [roomsDelivered, settlesRoom, hrooms] <;> rfl

theorem load_addArticleCompletion (uid : Uid) (text : String) (article : Option Article)
    (added : Added) :
    load (addArticleCompletion article added) +
      (if leavesRoot (.answer (.addArticle uid text article) added) then 1 else 0) = 1 := by
  obtain ⟨ok, service⟩ := added
  cases article with
  | none => cases ok <;> rfl
  | some article =>
    dsimp only [addArticleCompletion, leavesRoot]
    by_cases hroot : article.parentKey = ""
    · cases ok <;> cases service <;> simp [hroot, load, completion, indicator, carries]
    · cases ok <;> simp [hroot, load, completion, indicator, carries]

/-- Every callback runs the handler or passes it on, but for the exceptions. -/
theorem turn_balance (names : KeyNames) (e : Event) :
    load ((handlers names).turn e) + (if forgets e then 1 else 0) =
      e.taken (indicator carries) + if repeats e then 1 else 0 := by
  cases e with
  | deliver l d =>
    cases l with
    | switchUser loginEmail loginPassword => exact load_switchDelivered d.1 d.2
    | rooms uid otherUid =>
      have hload := load_roomsDelivered uid otherUid d.1 d.2
      show load (roomsDelivered uid otherUid d.1 d.2) + 0 = 0 + _
      rw [hload, Nat.zero_add]
      rfl
    | aside => exact load_asideTurn d
  | answer r a =>
    cases r with
    | createAuth email password => cases a <;> rfl
    | signInCreated email password => cases a <;> rfl
    | setNewUser uid email password => cases a <;> rfl
    | setProfile uid dic => exact load_orFail rfl
    | getUpdated uid => exact load_profileCompletion uid _ a
    | setDeleted uid => exact load_orFail rfl
    | getDeleted uid => exact load_profileCompletion uid _ a
    | signIn user => exact load_orFail rfl
    | addDocument uid otherUid => cases a <;> rfl
    | getDocuments uid otherUid => cases a <;> rfl
    | addArticle uid text article => exact load_addArticleCompletion uid text article a
    | markRoot key => rfl
    | deleteArticle article => exact load_orFail rfl
    | getMembers e => rfl
    | setMembers e data => rfl
    | aside => exact load_asideTurn a

/-- The requests that a turn may hold. -/
inductive Issues : Event → Request → Prop
  | signInCreated (email password : String) (uid : Uid) :
    Issues (.answer (.createAuth email password) (some uid)) (.signInCreated email password)
  | setNewUser (email password : String) (uid : Uid) :
    Issues (.answer (.createAuth email password) (some uid)) (.setNewUser uid email password)
  | getUpdated (uid : Uid) (dic : LoginUserDoc) :
    Issues (.answer (.setProfile uid dic) true) (.getUpdated uid)
  | getDeleted (uid : Uid) : Issues (.answer (.setDeleted uid) true) (.getDeleted uid)
  | signIn {loginEmail loginPassword : String}
    {d : Nat × Option (List (Uid × LoginUserDoc))} (user : LoginUser) :
    Issues (.deliver (.switchUser loginEmail loginPassword) d) (.signIn user)
  | addDocument {uid otherUid : Uid} (date : Nat) :
    Issues (.deliver (.rooms uid otherUid) (date, some [])) (.addDocument uid otherUid)
  | getDocuments (uid otherUid : Uid) :
    Issues (.answer (.addDocument uid otherUid) true) (.getDocuments uid otherUid)
  | markRoot {uid : Uid} {text : String} (article : Article) :
    Issues (.answer (.addArticle uid text (some article)) ⟨true, true⟩) (.markRoot article.key)
  | setMembers {e : PlateChat.Block.Service.Edit} {a : Except ServiceError (Option MembersDoc)}
    (data : Foundation.Dictionary.Dict Uid Bool) :
    Issues (.answer (.getMembers e) a) (.setMembers e data)
  | aside (e : Event) : Issues e .aside

/-- A turn holds what its event may issue, and registers aside listeners only. -/
structure Fits (e : Event) (t : Turn) : Prop where
  requests : ∀ r ∈ t.requests, Issues e r
  listeners : ∀ l ∈ t.listeners, l = .aside

section Turns

variable {e : Event} {t : Turn}

private theorem fits_silent (h : t.requests = []) (h' : t.listeners = []) : Fits e t where
  requests _ hr := absurd (h ▸ hr) List.not_mem_nil
  listeners _ hl := absurd (h' ▸ hl) List.not_mem_nil

private theorem fits_one {r : Request} (h : t.requests = [r]) (issues : Issues e r)
    (listeners : ∀ l ∈ t.listeners, l = .aside) : Fits e t where
  requests q hq := by
    rw [h] at hq
    obtain rfl := List.mem_singleton.mp hq
    exact issues
  listeners := listeners

private theorem fits_orFail {ok : Bool} (h : ok = true → Fits e t) : Fits e (orFail ok t) := by
  cases ok with
  | false => exact fits_silent rfl rfl
  | true => exact h rfl

private theorem fits_asideTurn (a : Aside) : Fits e (asideTurn a) where
  requests r hr := by
    obtain rfl := List.eq_of_mem_replicate hr
    exact .aside e
  listeners l hl := List.eq_of_mem_replicate hl

private theorem fits_profileCompletion (uid : Uid) {listeners : List Listener}
    (asides : ∀ l ∈ listeners, l = .aside)
    (answer : Nat × Except ServiceError (Option LoginUserDoc)) :
    Fits e (profileCompletion uid listeners answer) := by
  unfold profileCompletion
  split
  · exact fits_one rfl (.aside e) asides
  · exact fits_silent rfl rfl

private theorem fits_switchDelivered {loginEmail loginPassword : String}
    (d : Nat × Option (List (Uid × LoginUserDoc))) :
    Fits (.deliver (.switchUser loginEmail loginPassword) d) (switchDelivered d.1 d.2) := by
  obtain ⟨date, _ | _ | ⟨document, documents⟩⟩ := d
  · exact fits_silent rfl rfl
  · exact fits_silent rfl rfl
  · dsimp only [switchDelivered]
    split
    · exact fits_one rfl (.signIn _) fun _ hl => absurd hl List.not_mem_nil
    · exact fits_silent rfl rfl

private theorem fits_roomsDelivered {uid otherUid : Uid} (d : Nat × Option (List Document)) :
    Fits (.deliver (.rooms uid otherUid) d) (roomsDelivered uid otherUid d.1 d.2) := by
  obtain ⟨date, _ | _ | ⟨document, documents⟩⟩ := d
  · exact fits_silent rfl rfl
  · exact fits_one rfl (.addDocument date) fun _ hl => absurd hl List.not_mem_nil
  · dsimp only [roomsDelivered]
    split
    · exact fits_silent rfl rfl
    · exact fits_silent rfl rfl

private theorem fits_addArticleCompletion {uid : Uid} {text : String} (article : Option Article)
    (added : Added) : Fits (.answer (.addArticle uid text article) added)
      (addArticleCompletion article added) := by
  obtain ⟨ok, service⟩ := added
  cases ok with
  | false => exact fits_silent rfl rfl
  | true =>
    cases article with
    | none => exact fits_silent rfl rfl
    | some article =>
      dsimp only [addArticleCompletion]
      rw [if_pos rfl]
      split
      · refine ⟨fun r hr => ?_, fun _ hl => absurd hl List.not_mem_nil⟩
        rcases List.mem_cons.mp hr with rfl | hr
        · exact .aside _
        · obtain ⟨hservice, hmark⟩ := List.mem_ite_nil_right.mp hr
          obtain rfl : service = true := hservice
          obtain rfl := List.mem_singleton.mp hmark
          exact .markRoot article
      · exact fits_one rfl (.aside _) fun _ hl => absurd hl List.not_mem_nil

theorem fits_turn (names : KeyNames) (e : Event) : Fits e ((handlers names).turn e) := by
  have hnone : ∀ l ∈ ([] : List Listener), l = .aside := fun _ hl => absurd hl List.not_mem_nil
  cases e with
  | deliver l d =>
    cases l with
    | switchUser loginEmail loginPassword => exact fits_switchDelivered d
    | rooms uid otherUid => exact fits_roomsDelivered d
    | aside => exact fits_asideTurn d
  | answer q a =>
    cases q with
    | createAuth email password =>
      cases a with
      | none => exact fits_silent rfl rfl
      | some uid =>
        refine ⟨fun r hr => ?_, hnone⟩
        rcases List.mem_pair.mp hr with rfl | rfl
        · exact .signInCreated email password uid
        · exact .setNewUser email password uid
    | signInCreated email password => cases a <;> exact fits_silent rfl rfl
    | setNewUser uid email password => cases a <;> exact fits_silent rfl rfl
    | setProfile uid dic =>
      refine fits_orFail fun hok => fits_one rfl ?_ hnone
      subst hok
      exact .getUpdated uid dic
    | getUpdated uid => exact fits_profileCompletion uid (fun _ => List.mem_singleton.mp) a
    | setDeleted uid =>
      refine fits_orFail fun hok => fits_one rfl ?_ hnone
      subst hok
      exact .getDeleted uid
    | getDeleted uid =>
      exact fits_profileCompletion uid (fun _ hl => (List.mem_pair.mp hl).elim id id) a
    | signIn user => exact fits_orFail fun _ => fits_one rfl (.aside _) hnone
    | addDocument uid otherUid =>
      refine fits_orFail fun hok => fits_one rfl ?_ hnone
      subst hok
      exact .getDocuments uid otherUid
    | getDocuments uid otherUid => cases a <;> exact fits_silent rfl rfl
    | addArticle uid text article => exact fits_addArticleCompletion article a
    | markRoot key => exact fits_silent rfl rfl
    | deleteArticle article =>
      refine fits_orFail fun _ => ⟨fun _ hr => absurd hr List.not_mem_nil, fun l hl => ?_⟩
      exact List.mem_singleton.mp (List.mem_ite_nil_right.mp hl).2
    | getMembers e => exact fits_one rfl (.setMembers _) hnone
    | setMembers e data => exact fits_silent rfl rfl
    | aside => exact fits_asideTurn a

end Turns

inductive Kind
  | createUser
  | updateLoginUser
  | deleteLoginUser
  | changeLoginUser
  | cerateChatRoom
  | createArticle
  | deleteArticle
  | updateMembers
  deriving DecidableEq

def kindOf : Operation → Kind
  | .createUser _ _ => .createUser
  | .updateLoginUser _ => .updateLoginUser
  | .deleteLoginUser => .deleteLoginUser
  | .changeLoginUser _ _ => .changeLoginUser
  | .cerateChatRoom _ => .cerateChatRoom
  | .createArticle _ _ => .createArticle
  | .deleteArticle _ => .deleteArticle
  | .addBlockUser _ | .releaseBlockUser _ | .addBlockedUser _ | .releaseBlockedUser _ =>
    .updateMembers

/-- The operation that a request is a step of; an aside step may be anyone's. -/
def requestKind : Request → Option Kind
  | .createAuth _ _ | .signInCreated _ _ | .setNewUser _ _ _ => some .createUser
  | .setProfile _ _ | .getUpdated _ => some .updateLoginUser
  | .setDeleted _ | .getDeleted _ => some .deleteLoginUser
  | .signIn _ => some .changeLoginUser
  | .addDocument _ _ | .getDocuments _ _ => some .cerateChatRoom
  | .addArticle _ _ _ | .markRoot _ => some .createArticle
  | .deleteArticle _ => some .deleteArticle
  | .getMembers _ | .setMembers _ _ => some .updateMembers
  | .aside => none

def listenerKind : Listener → Option Kind
  | .switchUser _ _ => some .changeLoginUser
  | .rooms _ _ => some .cerateChatRoom
  | .aside => none

def eventKind : Event → Option Kind
  | .answer r _ => requestKind r
  | .deliver l _ => listenerKind l

/-- Of the kind, or of none. -/
def Of (k : Kind) (o : Option Kind) : Prop := ∀ j ∈ o, j = k

theorem Issues.kind {e : Event} {r : Request} (h : Issues e r) :
    requestKind r = eventKind e ∨ requestKind r = none := by
  cases h with
  | aside => exact .inr rfl
  | _ => exact .inl rfl

/-- A turn whose requests and listeners are all of one kind. -/
def Within (k : Kind) (t : Turn) : Prop :=
  (∀ r ∈ t.requests, Of k (requestKind r)) ∧ ∀ l ∈ t.listeners, Of k (listenerKind l)

private theorem within_none (k : Kind) : Within k {} :=
  ⟨fun _ h => absurd h List.not_mem_nil, fun _ h => absurd h List.not_mem_nil⟩

private theorem within_request {k : Kind} {q : Request} (hq : requestKind q = some k) :
    Within k { requests := [q] } := by
  refine ⟨fun r hr j hj => ?_, fun _ h => absurd h List.not_mem_nil⟩
  obtain rfl := List.mem_singleton.mp hr
  exact Option.some.inj (hj.symm.trans hq)

private theorem within_listener {k : Kind} {m : Listener} (hm : listenerKind m = some k) :
    Within k { listeners := [m] } := by
  refine ⟨fun _ h => absurd h List.not_mem_nil, fun l hl j hj => ?_⟩
  obtain rfl := List.mem_singleton.mp hl
  exact Option.some.inj (hj.symm.trans hm)

theorem within_call (uid : Uid) (op : Operation) : Within (kindOf op) (call uid op) := by
  cases op with
  | createUser _ _ => exact within_request rfl
  | updateLoginUser _ => exact within_request rfl
  | deleteLoginUser => exact within_request rfl
  | changeLoginUser _ _ => exact within_listener rfl
  | cerateChatRoom otherUid =>
    dsimp only [call, cerateChatRoom]
    split
    · exact within_none _
    · exact within_listener rfl
  | createArticle _ _ => exact within_request rfl
  | deleteArticle article =>
    dsimp only [call, deleteArticle]
    split
    · exact within_none _
    · exact within_request rfl
  | _ => exact within_request rfl

section Runs

variable {names : KeyNames} {uid : Uid} {op : Operation} {es : List Event} {t : State}

theorem run_of (hr : run (step names) (start uid op) es = some t) :
    ∀ e ∈ es, Of (kindOf op) (eventKind e) := by
  refine run_kind (P := fun r => Of (kindOf op) (requestKind r))
    (Q := fun l => Of (kindOf op) (listenerKind l)) (fun r a h => h) (fun l d h => h)
    (fun e on => ⟨fun r hmem => ?_, fun l hl => ?_⟩) hr (within_call uid op).1
    (within_call uid op).2
  · rcases ((fits_turn names e).requests r hmem).kind with h | h
    · rw [h]
      exact on
    · rw [h]
      exact nofun
  · rw [(fits_turn names e).listeners l hl]
    exact nofun

theorem countP_of_kind {q : Event → Bool} {j : Kind}
    (kind : ∀ e, q e = true → eventKind e = some j) (hne : j ≠ kindOf op)
    (hr : run (step names) (start uid op) es = some t) : es.countP q = 0 :=
  List.countP_eq_zero.mpr fun e he hq => hne (run_of hr e he j (kind e hq))

private theorem ite_or {a b c : Bool} (hab : a = true → b = false) (hac : a = true → c = false)
    (hbc : b = true → c = false) : (if a || b || c then 1 else 0) =
      (if a then 1 else 0) + (if b then 1 else 0) + if c then 1 else 0 := by
  cases a <;> cases b <;> cases c <;> simp_all

theorem kind_of_signUpFails (e : Event) (h : signUpFails e = true) :
    eventKind e = some .createUser := by
  unfold signUpFails at h
  split at h
  · rfl
  · cases h

theorem kind_of_signInFails (e : Event) (h : signInFails e = true) :
    eventKind e = some .createUser := by
  unfold signInFails at h
  split at h
  · rfl
  · cases h

theorem kind_of_profileFails (e : Event) (h : profileFails e = true) :
    eventKind e = some .createUser := by
  unfold profileFails at h
  split at h
  · rfl
  · cases h

theorem kind_of_switches (e : Event) (h : switches e = true) :
    eventKind e = some .changeLoginUser := by
  unfold switches at h
  split at h
  · rfl
  · cases h

theorem kind_of_settlesRoom (e : Event) (h : settlesRoom e = true) :
    eventKind e = some .cerateChatRoom := by
  unfold settlesRoom at h
  split at h
  · rfl
  · rfl
  · rfl
  · rfl
  · cases h

theorem kind_of_leavesRoot (e : Event) (h : leavesRoot e = true) :
    eventKind e = some .createArticle := by
  unfold leavesRoot at h
  split at h
  · rfl
  · cases h

private theorem false_of_kind {q : Event → Bool} {i j : Kind} {e : Event}
    (kind : ∀ e, q e = true → eventKind e = some j) (he : eventKind e = some i) (hne : i ≠ j) :
    q e = false := by
  refine Bool.eq_false_iff.mpr fun h => hne ?_
  exact Option.some.inj (he.symm.trans (kind e h))

theorem countP_repeats (es : List Event) : es.countP repeats =
    es.countP signInFails + es.countP switches + es.countP settlesRoom := by
  induction es with
  | nil => rfl
  | cons e es ih =>
    have hor : (if repeats e then 1 else 0) = (if signInFails e then 1 else 0) +
        (if switches e then 1 else 0) + if settlesRoom e then 1 else 0 :=
      ite_or (fun h => false_of_kind kind_of_switches (kind_of_signInFails e h) nofun)
        (fun h => false_of_kind kind_of_settlesRoom (kind_of_signInFails e h) nofun)
        (fun h => false_of_kind kind_of_settlesRoom (kind_of_switches e h) nofun)
    simp only [List.countP_cons]
    omega

theorem countP_forgets (es : List Event) : es.countP forgets =
    es.countP signUpFails + es.countP profileFails + es.countP leavesRoot := by
  induction es with
  | nil => rfl
  | cons e es ih =>
    have hsignUp : signUpFails e = true → profileFails e = false := by
      intro h
      unfold signUpFails at h
      split at h
      · rfl
      · cases h
    have hor : (if forgets e then 1 else 0) = (if signUpFails e then 1 else 0) +
        (if profileFails e then 1 else 0) + if leavesRoot e then 1 else 0 :=
      ite_or hsignUp
        (fun h => false_of_kind kind_of_leavesRoot (kind_of_signUpFails e h) nofun)
        (fun h => false_of_kind kind_of_leavesRoot (kind_of_profileFails e h) nofun)
    simp only [List.countP_cons]
    omega

/-- Once all is answered, the handler has been run as often as the call passed it on, and as
often as callbacks ran it once too often, but for those that forgot it. -/
theorem completed_eq (hr : run (step names) (start uid op) es = some t)
    (answered : t.inflight = []) :
    t.completed +
        (es.countP signUpFails + es.countP profileFails + es.countP leavesRoot) =
      load (call uid op) +
        (es.countP signInFails + es.countP switches + es.countP settlesRoom) := by
  have hbalance := run_balance (turn_balance names) hr
  rw [answered, countP_repeats, countP_forgets] at hbalance
  have hstart : load (call uid op) =
      (start uid op).completed + weight (indicator carries) (start uid op).inflight := by
    unfold start
    rw [begun_completed, begun_inflight]
    rfl
  rw [weight_nil] at hbalance
  omega

def isSignUp : Request → Bool
  | .createAuth _ _ => true
  | _ => false

def isSignIn : Request → Bool
  | .signInCreated _ _ => true
  | _ => false

def isNewUser : Request → Bool
  | .setNewUser _ _ _ => true
  | _ => false

def signsUp : Event → Bool
  | .answer (.createAuth _ _) (some _) => true
  | _ => false

private theorem answers_le_signsUp {q : Request → Bool} (names : KeyNames)
    (issued : ∀ e r, Issues e r → q r = true → signsUp e = true)
    (once : ∀ email password uid,
      weight (indicator q) [.signInCreated email password, .setNewUser uid email password] ≤ 1)
    (hr : run (step names) (start uid op) es = some t) :
    es.countP (Foundation.Callbacks.Event.answers q) ≤
      weight (indicator q) (call uid op).requests + es.countP signsUp := by
  refine run_answers_le q (fun e => ?_) hr
  by_cases h : signsUp e = true
  · rw [if_pos h]
    unfold signsUp at h
    split at h
    · exact once _ _ _
    · cases h
  · rw [if_neg h, weight_eq_zero fun r hmem => indicator_eq_zero fun hq => h ?_]
    exact issued e r ((fits_turn names e).requests r hmem) hq

private theorem countP_isSignUp (es : List Event) :
    es.countP (Foundation.Callbacks.Event.answers isSignUp) =
      es.countP signUpFails + es.countP signsUp := by
  induction es with
  | nil => rfl
  | cons e es ih =>
    have hone : (if e.answers isSignUp then 1 else 0) =
        (if signUpFails e then 1 else 0) + if signsUp e then 1 else 0 := by
      cases e with
      | deliver l d => rfl
      | answer r a =>
        cases r with
        | createAuth email password => cases a <;> rfl
        | _ => rfl
    simp only [List.countP_cons]
    omega

private theorem signUps_le {email password : String}
    (hr : run (step names) (start uid (.createUser email password)) es = some t) :
    es.countP signUpFails + es.countP signsUp ≤ 1 := by
  have hissued : ∀ e : Event, weight (indicator isSignUp) ((handlers names).turn e).requests ≤
      if (fun _ : Event => false) e = true then 1 else 0 := by
    intro e
    refine (weight_eq_zero fun r hmem => indicator_eq_zero fun hq => ?_).le
    cases (fits_turn names e).requests r hmem <;> cases hq
  have hanswers := run_answers_le isSignUp hissued hr
  have hfirst : weight (indicator isSignUp)
      (start uid (.createUser email password)).inflight = 1 := rfl
  rw [countP_isSignUp, hfirst, List.countP_false] at hanswers
  exact hanswers

private theorem signIns_le {email password : String}
    (hr : run (step names) (start uid (.createUser email password)) es = some t) :
    es.countP signInFails ≤ es.countP signsUp := by
  have hanswers := answers_le_signsUp (q := isSignIn) names
    (fun e r h hq => by cases h <;> first | rfl | cases hq) (fun _ _ _ => Nat.le_refl 1) hr
  have hmono : es.countP signInFails ≤ es.countP (Foundation.Callbacks.Event.answers isSignIn) := by
    refine List.countP_mono_left fun e _ h => ?_
    unfold signInFails at h
    split at h
    · rfl
    · cases h
  have hnone : weight (indicator isSignIn) (call uid (.createUser email password)).requests = 0 :=
    rfl
  omega

private theorem profiles_le {email password : String}
    (hr : run (step names) (start uid (.createUser email password)) es = some t) :
    es.countP profileFails ≤ es.countP signsUp := by
  have hanswers := answers_le_signsUp (q := isNewUser) names
    (fun e r h hq => by cases h <;> first | rfl | cases hq) (fun _ _ _ => Nat.le_refl 1) hr
  have hmono : es.countP profileFails ≤
      es.countP (Foundation.Callbacks.Event.answers isNewUser) := by
    refine List.countP_mono_left fun e _ h => ?_
    unfold profileFails at h
    split at h
    · rfl
    · cases h
  have hnone : weight (indicator isNewUser) (call uid (.createUser email password)).requests = 0 :=
    rfl
  omega

end Runs

/-- What has to happen in a run for the handler to be run exactly once. -/
def Once (uid : Uid) (es : List Event) : Operation → Prop
  | .createUser _ _ => (∀ e ∈ es, signUpFails e = false) ∧
      ((∃ e ∈ es, signInFails e = true) ↔ ∃ e ∈ es, profileFails e = true)
  | .changeLoginUser _ _ => es.countP switches = 1
  | .cerateChatRoom _ => es.countP settlesRoom = 1
  | .createArticle _ _ => ∀ e ∈ es, leavesRoot e = false
  | .deleteArticle article => article.uid = uid
  | .updateLoginUser _ | .deleteLoginUser | .addBlockUser _ | .releaseBlockUser _
  | .addBlockedUser _ | .releaseBlockedUser _ => True

private theorem countP_eq_zero_iff {q : Event → Bool} {es : List Event} :
    es.countP q = 0 ↔ ∀ e ∈ es, q e = false := by
  rw [List.countP_eq_zero]
  exact forall₂_congr fun e _ => Bool.not_eq_true _ ▸ Iff.rfl

private theorem counts_of_kind {names : KeyNames} {uid : Uid} {op : Operation} {es : List Event}
    {t : State} (hr : run (step names) (start uid op) es = some t) :
    (.createUser ≠ kindOf op → es.countP signUpFails = 0 ∧ es.countP signInFails = 0 ∧
      es.countP profileFails = 0) ∧
    (.changeLoginUser ≠ kindOf op → es.countP switches = 0) ∧
    (.cerateChatRoom ≠ kindOf op → es.countP settlesRoom = 0) ∧
    (.createArticle ≠ kindOf op → es.countP leavesRoot = 0) := by
  refine ⟨fun h => ⟨?_, ?_, ?_⟩, fun h => ?_, fun h => ?_, fun h => ?_⟩
  · exact countP_of_kind kind_of_signUpFails h hr
  · exact countP_of_kind kind_of_signInFails h hr
  · exact countP_of_kind kind_of_profileFails h hr
  · exact countP_of_kind kind_of_switches h hr
  · exact countP_of_kind kind_of_settlesRoom h hr
  · exact countP_of_kind kind_of_leavesRoot h hr

section Cases

variable {names : KeyNames} {uid : Uid} {es : List Event} {t : State}

private theorem completed_eq_load {op : Operation}
    (hr : run (step names) (start uid op) es = some t) (answered : t.inflight = [])
    (hcreate : .createUser ≠ kindOf op) (hswitch : .changeLoginUser ≠ kindOf op)
    (hroom : .cerateChatRoom ≠ kindOf op) (hroot : .createArticle ≠ kindOf op) :
    t.completed = load (call uid op) := by
  have heq := completed_eq hr answered
  obtain ⟨hcreates, hswitches, hrooms, hroots⟩ := counts_of_kind hr
  have hnoCreate := hcreates hcreate
  have hnoSwitch := hswitches hswitch
  have hnoRoom := hrooms hroom
  have hnoRoot := hroots hroot
  omega

/-- A creation forgets its handler when the sign-up fails, or the profile's write; it runs it
once more when the sign-in fails. -/
private theorem creation_once_iff {email password : String}
    (hr : run (step names) (start uid (.createUser email password)) es = some t)
    (answered : t.inflight = []) :
    t.completed = 1 ↔ Once uid es (.createUser email password) := by
  have heq := completed_eq hr answered
  have hcall : load (call uid (.createUser email password)) = 1 := rfl
  obtain ⟨-, hswitches, hrooms, hroots⟩ := counts_of_kind hr
  have hnoSwitch := hswitches nofun
  have hnoRoom := hrooms nofun
  have hnoRoot := hroots nofun
  -- without a sign-up neither a sign-in nor a profile follows, and one sign-up has one of each
  have hsignUps := signUps_le hr
  have hsignIns := signIns_le hr
  have hprofiles := profiles_le hr
  have hsignIn : (∃ e ∈ es, signInFails e = true) ↔ 0 < es.countP signInFails :=
    List.countP_pos_iff.symm
  have hprofile : (∃ e ∈ es, profileFails e = true) ↔ 0 < es.countP profileFails :=
    List.countP_pos_iff.symm
  rw [Once, hsignIn, hprofile, ← countP_eq_zero_iff]
  omega

private theorem deletion_once_iff {article : Article}
    (hr : run (step names) (start uid (.deleteArticle article)) es = some t)
    (answered : t.inflight = []) :
    t.completed = 1 ↔ Once uid es (.deleteArticle article) := by
  have hcompleted := completed_eq_load hr answered nofun nofun nofun nofun
  have hload : load (call uid (.deleteArticle article)) = if article.uid = uid then 1 else 0 := by
    dsimp only [call, deleteArticle]
    by_cases hown : article.uid = uid
    · rw [if_pos hown, if_neg fun hne => hne hown]
      rfl
    · rw [if_neg hown, if_pos hown]
      rfl
  rw [hcompleted, hload, Once]
  split <;> simp_all

end Cases

/-- Once the backend has answered every step, an operation has run its completion handler
exactly once if and only if this run is one of those named for it. -/
theorem completed_once_iff (names : KeyNames) (uid : Uid) (op : Operation) {es : List Event}
    {t : State} (hr : run (step names) (start uid op) es = some t) (answered : t.inflight = []) :
    t.completed = 1 ↔ Once uid es op := by
  have heq := completed_eq hr answered
  have hplain := completed_eq_load hr answered
  obtain ⟨hcreates, hswitches, hrooms, hroots⟩ := counts_of_kind hr
  cases op with
  | createUser email password => exact creation_once_iff hr answered
  | changeLoginUser loginEmail loginPassword =>
    have hcall : load (call uid (.changeLoginUser loginEmail loginPassword)) = 0 := rfl
    have hnoCreate := hcreates nofun
    have hnoRoom := hrooms nofun
    have hnoRoot := hroots nofun
    rw [Once]
    omega
  | cerateChatRoom otherUid =>
    have hcall : load (call uid (.cerateChatRoom otherUid)) = 0 := by
      dsimp only [call, cerateChatRoom]
      split <;> rfl
    have hnoCreate := hcreates nofun
    have hnoSwitch := hswitches nofun
    have hnoRoot := hroots nofun
    rw [Once]
    omega
  | createArticle text article =>
    have hcall : load (call uid (.createArticle text article)) = 1 := rfl
    have hnoCreate := hcreates nofun
    have hnoSwitch := hswitches nofun
    have hnoRoom := hrooms nofun
    rw [Once, ← countP_eq_zero_iff]
    omega
  | deleteArticle article => exact deletion_once_iff hr answered
  | updateLoginUser dic => exact iff_of_true (hplain nofun nofun nofun nofun) trivial
  | deleteLoginUser => exact iff_of_true (hplain nofun nofun nofun nofun) trivial
  | addBlockUser p => exact iff_of_true (hplain nofun nofun nofun nofun) trivial
  | releaseBlockUser p => exact iff_of_true (hplain nofun nofun nofun nofun) trivial
  | addBlockedUser p => exact iff_of_true (hplain nofun nofun nofun nofun) trivial
  | releaseBlockedUser p => exact iff_of_true (hplain nofun nofun nofun nofun) trivial

section Example

private def created : List Event :=
  [.answer (.createAuth "e" "p") (some "alice"),
    .answer (.setNewUser "alice" "e" "p") true, .answer (.signInCreated "e" "p") true]

theorem completed_once_created : ∃ t,
    run (step .plain) (start "" (.createUser "e" "p")) created = some t ∧
      t.inflight = [] ∧ t.completed = 1 := by
  have hr : run (step .plain) (start "" (.createUser "e" "p")) created = some ⟨1, [], []⟩ := rfl
  refine ⟨_, hr, rfl, (completed_once_iff .plain "" (.createUser "e" "p") hr rfl).mpr ?_⟩
  have hnone : ∀ e ∈ created, signUpFails e = false ∧ signInFails e = false ∧
      profileFails e = false := by
    intro e he
    rcases List.mem_cons.mp he with rfl | he
    · exact ⟨rfl, rfl, rfl⟩
    · rcases List.mem_pair.mp he with rfl | rfl
      · exact ⟨rfl, rfl, rfl⟩
      · exact ⟨rfl, rfl, rfl⟩
  refine ⟨fun e he => (hnone e he).1, iff_of_false ?_ ?_⟩
  · rintro ⟨e, he, h⟩
    exact Bool.false_ne_true ((hnone e he).2.1.symm.trans h)
  · rintro ⟨e, he, h⟩
    exact Bool.false_ne_true ((hnone e he).2.2.symm.trans h)

/-- The sign-in of a new account fails and its profile is stored: two completions. The sign-up
fails: none. -/
theorem completed_twice_or_never :
    (∃ t, run (step .plain) (start "" (.createUser "e" "p"))
        [.answer (.createAuth "e" "p") (some "alice"), .answer (.signInCreated "e" "p") false,
          .answer (.setNewUser "alice" "e" "p") true] = some t ∧
      t.inflight = [] ∧ t.completed = 2) ∧
    ∃ t, run (step .plain) (start "" (.createUser "e" "p"))
        [.answer (.createAuth "e" "p") none] = some t ∧ t.inflight = [] ∧ t.completed = 0 :=
  ⟨⟨_, rfl, rfl, rfl⟩, ⟨_, rfl, rfl, rfl⟩⟩

end Example

end PlateChat.Completion.Discipline
