/- PlateChat/Screen/Ownership
   digest: Whose rooms and articles a loaded list holds. -/

import PlateChat.Screen.Lists

set_option autoImplicit false
set_option relaxedAutoImplicit false

/-!
A page is merged with whatever the list holds, and a listener keeps delivering pages of
the account it was registered for. A loaded list is therefore the signed-in account's
exactly as far as the list was clean before and the older listeners bring nothing new.
-/

namespace PlateChat.Screen.Ownership

open PlateChat.Foundation.Run PlateChat.Foundation.EventLoop PlateChat.Foundation.Rules
open PlateChat.Model.Members PlateChat.Model.LocalData PlateChat.Model.Profile PlateChat.Model.Room
open PlateChat.Screen.Lists

def InRoom (uid : Uid) (room : ChatRoom) : Prop := uid ∈ room.members

def Wrote (uid : Uid) (article : Article) : Prop := article.uid = uid

instance (uid : Uid) (room : ChatRoom) : Decidable (InRoom uid room) :=
  inferInstanceAs (Decidable (uid ∈ room.members))

instance (uid : Uid) (article : Article) : Decidable (Wrote uid article) :=
  inferInstanceAs (Decidable (_ = _))

section Screens

variable {κ τ : Type}

/-- A list that has been loaded since the account changed holds only the account's own. -/
def Listed (s : Backend) (own : Uid → τ → Prop) (v : ListScreen κ τ) : Prop :=
  v.loaded = some s.epoch → ∀ uid ∈ s.currentUser, ∀ x ∈ v.items, own uid x

instance (s : Backend) (own : Uid → τ → Prop) [∀ uid x, Decidable (own uid x)]
    (v : ListScreen κ τ) : Decidable (Listed s own v) :=
  inferInstanceAs (Decidable (_ → ∀ uid ∈ s.currentUser, ∀ x ∈ v.items, own uid x))

/-- What a page leaves in a loaded list is the account's own: nothing else held stays
without being brought anew, and a page of another account brings nothing else. -/
def Admissible (s : Backend) (own : Uid → τ → Prop) (shown : τ → Prop) (key : τ → Nat)
    (v : ListScreen κ τ) (b : Bind κ) (models : List τ) : Prop :=
  b.epoch = s.epoch ∨ v.loaded = some s.epoch → ∀ uid ∈ s.currentUser,
    (∀ x ∈ v.items, shown x → own uid x ∨ key x ∈ models.map key) ∧
      (b.uid ≠ uid → ∀ x ∈ models, shown x → own uid x)

instance (s : Backend) (own : Uid → τ → Prop) [∀ uid x, Decidable (own uid x)]
    (shown : τ → Prop) [DecidablePred shown] (key : τ → Nat) (v : ListScreen κ τ) (b : Bind κ)
    (models : List τ) : Decidable (Admissible s own shown key v b models) :=
  inferInstanceAs (Decidable (_ → ∀ uid ∈ s.currentUser,
    (∀ x ∈ v.items, shown x → _) ∧ (_ → ∀ x ∈ models, shown x → _)))

end Screens

/-- Every room in the list has the signed-in account among its members, and every article
is its own, once the list has been loaded for that account. -/
def ListsOwn (w : Phone) : Prop :=
  Listed w.server InRoom w.client.chatRoomList ∧ Listed w.server Wrote w.client.myProfile

instance (w : Phone) : Decidable (ListsOwn w) := inferInstanceAs (Decidable (_ ∧ _))

/-- The rooms that the list does not filter out. -/
def RoomShown (s : Backend) (d : Screens) (room : ChatRoom) : Prop :=
  room.lastUpdateMessage ≠ some "" ∧ Unblocked s d room

instance (s : Backend) (d : Screens) : DecidablePred (RoomShown s d) :=
  fun room => inferInstanceAs (Decidable (room.lastUpdateMessage ≠ some "" ∧ Unblocked s d room))

def ArticleShown (article : Article) : Prop := article.status = 1

instance : DecidablePred ArticleShown :=
  fun article => inferInstanceAs (Decidable (article.status = 1))

def OwnPage (s : Backend) (d : Screens) : Listener → Prop
  | .chatRoom b => ∀ models ∈ roomModels s (roomPage s b),
      Admissible s InRoom (RoomShown s d) ChatRoom.key d.chatRoomList b models
  | .uidArticle b => ∀ models ∈ articleModels s (articlePage s b),
      Admissible s Wrote ArticleShown Article.key d.myProfile b models

instance (s : Backend) (d : Screens) : ∀ l, Decidable (OwnPage s d l)
  | .chatRoom b => inferInstanceAs (Decidable (∀ models ∈ roomModels s (roomPage s b), _))
  | .uidArticle b => inferInstanceAs (Decidable (∀ models ∈ articleModels s (articlePage s b), _))

/-- Every page delivered is admissible where it is merged. -/
def OwnPages (w : Phone) : Event Action Change → Prop
  | .deliver j true => ∀ x ∈ w.watches[j]?, OwnPage w.server w.client x.listener
  | _ => True

instance (w : Phone) : ∀ ev, Decidable (OwnPages w ev)
  | .deliver j true =>
    inferInstanceAs (Decidable (∀ x ∈ w.watches[j]?, OwnPage w.server w.client x.listener))
  | .deliver _ false | .act _ | .serve _ _ | .handle _ | .env _ => .isTrue trivial

section Tracking

variable {κ τ : Type} {own : Uid → τ → Prop}

/-- A list is the account's own if it has been loaded, and was not loaded in the future. -/
structure Tracked (s : Backend) (own : Uid → τ → Prop) (v : ListScreen κ τ) : Prop where
  past : ∀ e ∈ v.loaded, e ≤ s.epoch
  own : Listed s own v

private theorem tracked_new (s : Backend) : Tracked s own ({} : ListScreen κ τ) :=
  ⟨fun _ he => (nomatch he), fun h => (nomatch h)⟩

private theorem tracked_subset {s : Backend} {v v' : ListScreen κ τ} (h : Tracked s own v)
    (hloaded : v'.loaded = v.loaded) (hitems : v'.items ⊆ v.items) : Tracked s own v' := by
  refine ⟨fun e he => h.past e (hloaded ▸ he), ?_⟩
  intro hnow uid huid x hx
  exact h.own (hloaded ▸ hnow) uid huid x (hitems hx)

private theorem tracked_session {s t : Backend} {v : ListScreen κ τ} (h : Tracked s own v)
    (session : t.epoch = s.epoch ∧ t.currentUser = s.currentUser ∨ s.epoch < t.epoch) :
    Tracked t own v := by
  rcases session with ⟨hepoch, huser⟩ | hlater
  · refine ⟨fun e he => ?_, ?_⟩
    · rw [hepoch]
      exact h.past e he
    · unfold Listed
      rw [hepoch, huser]
      exact h.own
  · refine ⟨fun e he => ?_, fun hnow => ?_⟩
    · have hpast := h.past e he
      omega
    · have hpast := h.past _ hnow
      omega

/-- An admissible page leaves the list the account's own, given that the account's own
pages bring its own. -/
private theorem tracked_received {s : Backend} {v : ListScreen κ τ} {b : Bind κ} {page : List κ}
    {key : τ → Nat} {shown : τ → Prop} {models items : List τ} (h : Tracked s own v)
    (admissible : Admissible s own shown key v b models)
    (query : ∀ x ∈ models, own b.uid x)
    (merged : ∀ x ∈ items, shown x ∧ (x ∈ models ∨ x ∈ v.items ∧ key x ∉ models.map key)) :
    Tracked s own (v.received b page s.epoch items) := by
  constructor
  · intro e he
    simp only [ListScreen.received] at he
    split at he
    · exact (Option.some.inj he).ge
    · exact h.past e he
  · intro hnow uid huid x hx
    have hloaded : b.epoch = s.epoch ∨ v.loaded = some s.epoch := by
      by_cases hepoch : b.epoch = s.epoch
      · exact .inl hepoch
      · simp only [ListScreen.received, if_neg hepoch] at hnow
        exact .inr hnow
    obtain ⟨hheld, hforeign⟩ := admissible hloaded uid huid
    obtain ⟨hshown, hmodels | ⟨hitems, hkey⟩⟩ := merged x hx
    · by_cases huid' : b.uid = uid
      · exact huid' ▸ query x hmodels
      · exact hforeign huid' x hmodels hshown
    · exact (hheld x hitems hshown).resolve_right hkey

end Tracking

private theorem models_inRoom {s : Backend} {b : Bind Document} {models : List ChatRoom}
    (h : models ∈ roomModels s (roomPage s b)) : ∀ room ∈ models, InRoom b.uid room := by
  intro room hroom
  unfold roomModels at h
  split at h
  · rename_i rooms hparsed
    obtain rfl := Option.some.inj h
    have hmem := (List.perm_insertionSort _ _).mem_iff.mp (List.mem_filter.mp hroom).1
    obtain ⟨document, hdocument, hparse⟩ := mem_parseAll hparsed hmem
    have hqueried := (List.perm_insertionSort _ _).mem_iff.mp (List.mem_of_mem_take hdocument)
    obtain ⟨hmember, _⟩ := of_decide_eq_true (List.mem_filter.mp hqueried).2
    rw [members_of_parsed hparse] at hmember
    have hlookup : room.members.lookup b.uid = some true := hmember
    exact AList.lookup_isSome.mp (hlookup ▸ rfl)
  · cases h

private theorem models_wrote {s : Backend} {b : Bind ArticleDocument} {models : List Article}
    (h : models ∈ articleModels s (articlePage s b)) : ∀ a ∈ models, Wrote b.uid a := by
  intro a ha
  unfold articleModels at h
  split at h
  · rename_i articles hparsed
    obtain rfl := Option.some.inj h
    have hmem := (List.perm_insertionSort _ _).mem_iff.mp (List.mem_filter.mp ha).1
    obtain ⟨document, hdocument, hparse⟩ := mem_parseAll hparsed hmem
    have hqueried := (mem_articlesOf (List.mem_filter.mp (List.mem_of_mem_take hdocument)).1).2
    rw [(Article.uid_of_parsed hparse).2] at hqueried
    exact Option.some.inj hqueried
  · cases h

private theorem mem_mergeRooms {models held : List ChatRoom} {room : ChatRoom}
    (h : room ∈ mergeRooms models held) : room.lastUpdateMessage ≠ some "" ∧
      (room ∈ models ∨ room ∈ held ∧ room.key ∉ models.map ChatRoom.key) := by
  have hmem := (List.perm_insertionSort _ _).mem_iff.mp h
  obtain ⟨hunique, hmessage⟩ := List.mem_filter.mp hmem
  exact ⟨of_decide_eq_true hmessage, mem_unique_append _ hunique⟩

private theorem mem_mergeArticles {models held : List Article} {a : Article}
    (h : a ∈ mergeArticles models held) : a.status = 1 ∧
      (a ∈ models ∨ a ∈ held ∧ a.key ∉ models.map Article.key) := by
  have hmem := (List.perm_insertionSort _ _).mem_iff.mp h
  obtain ⟨hunique, hstatus⟩ := List.mem_filter.mp hmem
  exact ⟨of_decide_eq_true hstatus, mem_unique_append _ hunique⟩

def Own (s : Backend) (d : Screens) : Prop :=
  Tracked s InRoom d.chatRoomList ∧ Tracked s Wrote d.myProfile

def parts : Parts Backend Screens Request Bool Listener where
  server _ := True
  client := Own
  call _ _ := True
  watch _ _ := True

private theorem admits_own {s : Backend} {o : Outcome} (h : Own s o.client) :
    parts.Admits s o := ⟨h, fun _ _ => trivial, fun _ _ => trivial⟩

private theorem own_chatRoomList {s : Backend} {d : Screens} (h : Own s d) :
    Own s (observeChatRoomList s d).client := by
  unfold observeChatRoomList
  split
  · split
    · exact ⟨tracked_subset h.1 rfl (List.Subset.refl _), h.2⟩
    · exact h
  · exact h

private theorem own_observeArticle {s : Backend} {d : Screens} {o : Outcome} (h : Own s d)
    (ho : observeArticle s d = some o) : Own s o.client := by
  unfold observeArticle at ho
  split at ho
  · obtain rfl := Option.some.inj ho
    exact h
  · split at ho
    · cases ho
    · split at ho
      · obtain rfl := Option.some.inj ho
        exact ⟨h.1, tracked_subset h.2 rfl (List.Subset.refl _)⟩
      · obtain rfl := Option.some.inj ho
        exact h

private theorem own_filterBlock {s : Backend} {d d' : Screens} (h : Own s d)
    (hd : filterBlock s d = some d') : Own s d' := by
  unfold filterBlock at hd
  split at hd
  · obtain rfl := Option.some.inj hd
    exact ⟨tracked_subset h.1 rfl fun _ hroom => (List.mem_filter.mp hroom).1, h.2⟩
  · cases hd

private theorem own_act {s : Backend} {d : Screens} {v : Action} {o : Outcome} (h : Own s d)
    (ho : act s d v = some o) : Own s o.client := by
  cases v with
  | chatRoomListWillAppear =>
    obtain rfl := Option.some.inj ho
    exact own_chatRoomList ⟨tracked_subset h.1 rfl (List.Subset.refl _), h.2⟩
  | refresh =>
    obtain rfl := Option.some.inj ho
    exact own_chatRoomList h
  | myProfileDidLoad =>
    simp only [act, myProfileDidLoad] at ho
    split at ho
    · cases ho
    · refine own_observeArticle ?_ ho
      exact ⟨h.1, tracked_subset h.2 rfl (List.Subset.refl _)⟩
  | myProfileWillAppear =>
    simp only [act, myProfileWillAppear] at ho
    split at ho
    · exact own_observeArticle h ho
    · obtain rfl := Option.some.inj ho
      exact h
  | myProfilePaging =>
    simp only [act, myProfilePaging] at ho
    split at ho
    · cases ho
    · exact own_observeArticle h ho
  | deleteArticle row =>
    simp only [act, deleteArticle] at ho
    split at ho
    · cases ho
    · split at ho
      · obtain rfl := Option.some.inj ho
        exact h
      · obtain rfl := Option.some.inj ho
        exact h
  | filterBlock =>
    obtain ⟨d', hd, rfl⟩ := Option.map_eq_some_iff.mp ho
    exact own_filterBlock h hd
  | usersData users =>
    obtain rfl := Option.some.inj ho
    exact h
  | deleteAccount =>
    obtain rfl := Option.some.inj ho
    exact ⟨tracked_subset h.1 rfl (List.nil_subset _),
      tracked_subset h.2 rfl (List.nil_subset _)⟩

private theorem own_handle {s : Backend} {d : Screens} {r : Request} {ok : Bool} {o : Outcome}
    (h : Own s d) (ho : handle s d r ok = some o) : Own s o.client := by
  cases ok with
  | false =>
    obtain rfl := Option.some.inj ho
    exact h
  | true =>
    have hobserve : observeArticle s { d with myProfile := { d.myProfile with items := [] } } =
        some o := ho
    refine own_observeArticle ?_ hobserve
    exact ⟨h.1, tracked_subset h.2 rfl (List.nil_subset _)⟩

private theorem own_chatRoomDelivered {s : Backend} {d : Screens} {b : Bind Document} {o : Outcome}
    (h : Own s d) (own : OwnPage s d (.chatRoom b))
    (ho : chatRoomDelivered s d b (roomPage s b) = some o) : Own s o.client := by
  unfold chatRoomDelivered at ho
  split at ho
  · rename_i models hmodels
    obtain ⟨d', hd, rfl⟩ := Option.map_eq_some_iff.mp ho
    unfold filterBlock at hd
    split at hd
    · obtain rfl := Option.some.inj hd
      refine ⟨?_, h.2⟩
      show Tracked s InRoom (d.chatRoomList.received b (roomPage s b) s.epoch _)
      refine tracked_received h.1 (own models hmodels) (models_inRoom hmodels) fun room hroom => ?_
      obtain ⟨hmerged, hunblocked⟩ := List.mem_filter.mp hroom
      obtain ⟨hmessage, horigin⟩ := mem_mergeRooms hmerged
      exact ⟨⟨hmessage, of_decide_eq_true hunblocked⟩, horigin⟩
    · cases hd
  · obtain rfl := Option.some.inj ho
    exact ⟨tracked_subset h.1 rfl (List.Subset.refl _), h.2⟩

private theorem own_uidArticleDelivered {s : Backend} {d : Screens} {b : Bind ArticleDocument}
    (h : Own s d) (own : OwnPage s d (.uidArticle b)) :
    Own s (uidArticleDelivered s d b (articlePage s b)).client := by
  unfold uidArticleDelivered
  split
  · rename_i models hmodels
    refine ⟨h.1, ?_⟩
    exact tracked_received h.2 (own models hmodels) (models_wrote hmodels)
      fun a ha => mem_mergeArticles ha
  · exact ⟨h.1, tracked_subset h.2 rfl (List.Subset.refl _)⟩

private theorem own_notify {s : Backend} {d : Screens} {l : Listener} {ok : Bool} {o : Outcome}
    (h : Own s d) (own : ok = true → OwnPage s d l)
    (ho : notify s d l (if ok then some (snapshot s l) else none) = some o) : Own s o.client := by
  cases ok with
  | false =>
    cases l with
    | chatRoom b =>
      obtain rfl := Option.some.inj ho
      exact ⟨tracked_subset h.1 rfl (List.Subset.refl _), h.2⟩
    | uidArticle b =>
      obtain rfl := Option.some.inj ho
      exact ⟨h.1, tracked_subset h.2 rfl (List.Subset.refl _)⟩
  | true =>
    cases l with
    | chatRoom b => exact own_chatRoomDelivered h (own rfl) ho
    | uidArticle b =>
      obtain rfl := Option.some.inj ho
      exact own_uidArticleDelivered h (own rfl)

private theorem session_signInAs (s : Account.Service.Backend) (uid : Uid) :
    (s.signInAs uid).epoch = s.epoch ∧ (s.signInAs uid).currentUser = s.currentUser ∨
      s.epoch < (s.signInAs uid).epoch := by
  unfold Account.Service.Backend.signInAs
  by_cases hsame : s.currentUser = some uid
  · rw [if_pos hsame]
    exact .inl ⟨rfl, hsame.symm⟩
  · rw [if_neg hsame]
    exact .inr (Nat.lt_succ_self _)

private theorem session_served (s : Account.Service.Backend) (r : Account.Service.Request)
    (ok : Bool) :
    (Account.Service.serve s r ok).1.epoch = s.epoch ∧
        (Account.Service.serve s r ok).1.currentUser = s.currentUser ∨
      s.epoch < (Account.Service.serve s r ok).1.epoch := by
  cases ok with
  | false => cases r <;> exact .inl ⟨rfl, rfl⟩
  | true =>
    cases r with
    | createAuth email password =>
      simp only [Account.Service.serve, Account.Service.createAuth]
      split
      · exact .inl ⟨rfl, rfl⟩
      · exact session_signInAs { s with accounts := _ } _
    | signInCreated email password =>
      simp only [Account.Service.serve, Account.Service.signInCreated]
      split
      · exact session_signInAs s _
      · exact .inl ⟨rfl, rfl⟩
    | signIn call user =>
      simp only [Account.Service.serve, Account.Service.signIn]
      split
      · exact session_signInAs s _
      · exact .inl ⟨rfl, rfl⟩
    | setNewUser | setProfile | setDeleted | setLogin | getProfile | putAvatar | downloadURL
    | setImage | getBlockUser | getBlockedUser | setArticle => exact .inl ⟨rfl, rfl⟩

private theorem session_env (s : Backend) (change : Change) :
    (env s change).epoch = s.epoch ∧ (env s change).currentUser = s.currentUser ∨
      s.epoch < (env s change).epoch := by
  cases change with
  | account r ok => exact session_served s.account r ok
  | other change => cases change <;> exact .inl ⟨rfl, rfl⟩
  | rooms documents => exact .inl ⟨rfl, rfl⟩

private theorem stable_session {s t : Backend}
    (session : t.epoch = s.epoch ∧ t.currentUser = s.currentUser ∨ s.epoch < t.epoch) :
    parts.Stable s t where
  client _ h := ⟨tracked_session h.1 session, tracked_session h.2 session⟩
  call _ _ := trivial
  watch _ _ := trivial

private theorem kept : parts.Kept program OwnPages where
  act h _ ho := admits_own (own_act h.client ho)
  serve := by
    intro w i ok r _ _ _
    refine ⟨trivial, ?_, trivial⟩
    cases ok with
    | false => exact Parts.Stable.refl parts w.server
    | true => exact stable_session (.inl ⟨rfl, rfl⟩)
  handle h _ _ ho := admits_own (own_handle h.client ho)
  deliver := by
    intro w j ok x o h own hj ho
    refine admits_own (own_notify h.client ?_ ho)
    rintro rfl
    exact own x hj
  env := by
    intro w change _ _
    exact ⟨trivial, stable_session (session_env w.server change)⟩

/-- While nothing foreign is held when a page of the signed-in account is merged, and
no page of another account brings anything foreign, the loaded lists are its own. -/
theorem lists_own (s : Backend) (users : UsersData) (keys : KeyOrder)
    (es : List (Event Action Change)) (w : Phone)
    (own : Along step OwnPages (start s users keys) es)
    (hr : run step (start s users keys) es = some w) : ListsOwn w := by
  have hstart : parts.Holds (start s users keys) :=
    ⟨trivial, ⟨tracked_new s, tracked_new s⟩, fun _ hc => (nomatch hc), fun _ hx => (nomatch hx)⟩
  have holds := kept.run own hr hstart
  exact ⟨holds.client.1.own, holds.client.2.own⟩

section Example

private def bob : LoginUser where
  key := "b"
  email := "bob@p-chat.net"
  password := "q"
  loginEmail := "bob@mail.net"
  loginPassword := "secret"
  nickname := "Bob"
  sex := 0
  prefectureId := 0
  age := 0
  profileText := ""
  profileImageUrl := ""
  status := 1
  notificationOn := true
  createdDate := 0
  updatedDate := 0
  notificationReply := true
  notificationMessage := true
  notificationFootprint := true

/-- A room in which `uid` has talked with `c`. -/
private def roomOf (uid : Uid) : ChatRoomDoc :=
  { newRoom uid "c" 1 with lastUpdateMessage := some "hello" }

/-- `a` is signed in and `b` can be switched to; the one room is that of `uid`. -/
private def oneRoom (uid : Uid) : Backend where
  account := {
    currentUser := some "a"
    accounts := [⟨"a", "ann@p-chat.net", "p"⟩, ⟨"b", "bob@p-chat.net", "q"⟩]
    uids := fun _ => "d"
    urls := fun _ => ""
    articles := [(0, { uid := some uid, text := some "hi", status := some 1, createdAt := some 1 })] }
  rooms := [(0, roomOf uid)]

private def listed : KeyOrder where
  order := id
  perm _ := .refl _

/-- Both lists are opened, `b` is switched to, and both are opened and loaded again. -/
private def openedAndSwitched : List (Event Action Change) :=
  [.act .chatRoomListWillAppear, .deliver 0 true, .env (.account (.signIn 0 bob) true),
    .act .chatRoomListWillAppear, .deliver 1 true, .act .myProfileDidLoad, .deliver 2 true]

theorem old_room_stays_listed :
    ¬ ∀ (s : Backend) (users : UsersData) (keys : KeyOrder) (es : List (Event Action Change))
      (w : Phone), run step (start s users keys) es = some w → ListsOwn w := by
  intro claim
  have hseen : (run step (start (oneRoom "a") {} listed) openedAndSwitched).map
      (fun w => decide (ListsOwn w)) = some false := by decide
  obtain ⟨w, hw, hval⟩ := Option.map_eq_some_iff.mp hseen
  exact of_decide_eq_false hval (claim (oneRoom "a") {} listed openedAndSwitched w hw)

theorem own_room_listed :
    ∃ w, run step (start (oneRoom "b") {} listed) openedAndSwitched = some w ∧ ListsOwn w := by
  have hran : (run step (start (oneRoom "b") {} listed) openedAndSwitched).map
      (fun w => (w.client.chatRooms.length, w.client.articles.length)) = some (1, 1) := by decide
  obtain ⟨w, hw, _⟩ := Option.map_eq_some_iff.mp hran
  exact ⟨w, hw, lists_own (oneRoom "b") {} listed openedAndSwitched w (by decide) hw⟩

end Example

end PlateChat.Screen.Ownership
