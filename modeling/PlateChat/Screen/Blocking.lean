/- PlateChat/Screen/Blocking
   digest: Whom each list of the program still names once it has been loaded. -/

import PlateChat.History.Service
import PlateChat.Screen.Merging

set_option autoImplicit false
set_option relaxedAutoImplicit false

/-!
Three screens filter by the author or the user of a row. The list of rooms filters by the
member it finds first beside the account. The two notice lists show the newest entries of
a history and do not filter.
-/

namespace PlateChat.Screen.Blocking

open PlateChat.Foundation.Dictionary PlateChat.Foundation.Newest PlateChat.Model.Members
open PlateChat.Model.LocalData PlateChat.Model.Profile PlateChat.Model.Histories
open PlateChat.Model.Room (ChatRoom Document newRoom)
open PlateChat.Binding.Services PlateChat.History.Service PlateChat.Screen.Feeds
open PlateChat.Screen.Lists (Backend Screens Bind usersOf otherMember Unblocked filterBlock
  roomModels mergeRooms chatRoomDelivered)
open PlateChat.Screen.Merging (HomeHandler homeCallback)

/-- The rows of a notice list. -/
structure Notices where
  uids : List Uid := []
  timeStamps : List Int := []
  deriving DecidableEq

/-- `components(separatedBy: ",")[0]`. -/
def firstComponent (value : String) : String :=
  String.ofList (value.toList.takeWhile fun c => c ≠ ',')

/-- The newest fifty entries, the rows of which name the user that `uid` reads off an entry. -/
def noticesOf (listing : Listing String String) (uid : String → Uid) (history : History) :
    Option Notices :=
  (latest listing history).map fun tmp => {
    uids := tmp.entries.map fun e => uid e.2
    timeStamps := tmp.entries.map fun e => (intOf e.1).getD 0 }

/-- Only a fetched document changes the rows; `none` is a trap. -/
def notices (listing : Listing String String) (uid : String → Uid)
    (fetched : Except ServiceError HistoryLog) (s : Notices) : Option Notices :=
  match fetched with
  | .ok log => noticesOf listing uid log.history
  | .error _ => some s

def observeFootprint (listing : Listing String String)
    (fetched : Except ServiceError Footprint) (s : Notices) : Option Notices :=
  notices listing id fetched s

/-- A reply is recorded with the key of the article that it answers. -/
def observeArticleReplyLog (listing : Listing String String)
    (fetched : Except ServiceError ArticleReplyLog) (s : Notices) : Option Notices :=
  notices listing firstComponent fetched s

/-- Either side has blocked the other. -/
def Blocks (users : UsersData) (u : Uid) : Prop :=
  users.userBlock.lookup u = some true ∨ users.userBlocked.lookup u = some true

instance (users : UsersData) (u : Uid) : Decidable (Blocks users u) :=
  inferInstanceAs (Decidable (_ ∨ _))

def Hides (users : UsersData) (uids : List Uid) : Prop := ∀ u ∈ uids, ¬ Blocks users u

/-- The members of a room beside the account. -/
def others (s : Backend) (room : ChatRoom) : List Uid :=
  room.members.keys.filter fun uid => some uid ≠ s.currentUser

theorem mem_usersOf {members : Dict Uid Bool} {u : Uid} :
    u ∈ usersOf members ↔ members.lookup u = some true := by
  have hentry : (⟨u, true⟩ : Sigma fun _ : Uid => Bool) ∈ members.entries ↔
      members.lookup u = some true :=
    AList.mem_lookup_iff.symm
  rw [← hentry]
  unfold usersOf
  constructor
  · intro h
    obtain ⟨⟨v, b⟩, hmem, rfl⟩ := List.mem_map.mp h
    obtain ⟨hmem, hb⟩ := List.mem_filter.mp hmem
    obtain rfl : b = true := of_decide_eq_true hb
    exact hmem
  · intro h
    exact List.mem_map.mpr ⟨⟨u, true⟩, List.mem_filter.mpr ⟨h, rfl⟩, rfl⟩

theorem blocked_iff {users : UsersData} {u : Uid} : blocked users u = true ↔ Blocks users u := by
  unfold blocked Blocks
  rw [Bool.or_eq_true, decide_eq_true_eq, decide_eq_true_eq, mem_usersOf, mem_usersOf]

private theorem unblocked_iff {s : Backend} {d : Screens} {room : ChatRoom} :
    Unblocked s d room ↔
      ∀ other ∈ otherMember d.keys s.currentUser room, ¬ Blocks d.users other := by
  unfold Unblocked Blocks
  simp only [mem_usersOf, not_or]

section Filtered

variable {τ κ : Type} [DecidableEq κ] {visible : Device → τ → Bool} {uid : τ → Uid}

private theorem hides_filterBlock (hides : ∀ d x, visible d x = true → ¬ Blocks d.users (uid x))
    (s : Feed τ) : Hides s.device.users ((s.filterBlock visible).items.map uid) := by
  intro u hu
  obtain ⟨x, hx, rfl⟩ := List.mem_map.mp hu
  exact hides s.device x (List.mem_filter.mp hx).2

private theorem hides_received (hides : ∀ d x, visible d x = true → ¬ Blocks d.users (uid x))
    (key : τ → κ) (keep : τ → Bool) (r : τ → τ → Prop) [DecidableRel r] (models : List τ)
    (s : Feed τ) :
    Hides s.device.users ((s.received key keep r visible models).items.map uid) := by
  have hrows := hides_filterBlock hides (s.merge key keep r models)
  unfold Feed.received
  dsimp only
  split
  · exact hrows
  · exact hrows

end Filtered

private theorem not_blocks {users : UsersData} {u : Uid} (h : blocked users u = false) :
    ¬ Blocks users u := by
  rw [← blocked_iff, h]
  exact Bool.false_ne_true

private theorem home_hides (d : Device) (a : Article) (h : Home.visible d a = true) :
    ¬ Blocks d.users a.uid := by
  unfold Home.visible at h
  rw [Bool.and_eq_true, Bool.not_eq_true'] at h
  exact not_blocks h.1

private theorem thread_hides (d : Device) (a : Article) (h : ArticleList.visible d a = true) :
    ¬ Blocks d.users a.uid := by
  unfold ArticleList.visible at h
  rw [Bool.not_eq_true'] at h
  exact not_blocks h

private theorem search_hides (d : Device) (u : LoginUser) (h : Search.visible d u = true) :
    ¬ Blocks d.users u.key := by
  unfold Search.visible at h
  rw [Bool.and_eq_true, Bool.and_eq_true, Bool.not_eq_true'] at h
  exact not_blocks h.1.1

/-- The member found first beside the account speaks for the others. -/
def Spokesman (s : Backend) (d : Screens) (room : ChatRoom) : Prop :=
  (∀ other ∈ otherMember d.keys s.currentUser room, ¬ Blocks d.users other) →
    Hides d.users (others s room)

/-- He does so in every room of two. -/
theorem spokesman_of_one {s : Backend} {d : Screens} {room : ChatRoom} {u : Uid}
    (h : others s room = [u]) : Spokesman s d room := by
  have hfirst : otherMember d.keys s.currentUser room = some u := by
    have hperm := d.keys.perm (others s room)
    rw [h] at hperm
    have hlist : d.keys.order (others s room) = [u] := by
      rw [h]
      exact List.perm_singleton.mp hperm
    show (d.keys.order (others s room)).head? = some u
    rw [hlist]
    rfl
  intro hhides v hv
  rw [h] at hv
  obtain rfl := List.mem_singleton.mp hv
  exact hhides v hfirst

private theorem rooms_hide_iff {s : Backend} {d t : Screens} (h : filterBlock s d = some t) :
    (∀ room ∈ t.chatRooms, Hides d.users (others s room)) ↔
      ∀ room ∈ d.chatRooms, Spokesman s d room := by
  unfold filterBlock at h
  obtain ⟨_, h⟩ := Option.ite_none_right_eq_some.mp h
  obtain rfl := Option.some.inj h
  have hmem : ∀ room, room ∈ d.chatRooms.filter (fun room => Unblocked s d room) ↔
      room ∈ d.chatRooms ∧ ∀ other ∈ otherMember d.keys s.currentUser room,
        ¬ Blocks d.users other := by
    intro room
    rw [List.mem_filter, decide_eq_true_eq, unblocked_iff]
  constructor
  · exact fun hhides room hroom hfirst => hhides room ((hmem room).mpr ⟨hroom, hfirst⟩)
  · intro hspokesman room hroom
    obtain ⟨hroom, hfirst⟩ := (hmem room).mp hroom
    exact hspokesman room hroom hfirst

private theorem delivered_hides_iff {s : Backend} {d : Screens} {b : Bind Document}
    {documents : List Document} {models : List ChatRoom} {e : Lists.Outcome}
    (parsed : roomModels s documents = some models)
    (h : chatRoomDelivered s d b documents = some e) :
    (∀ room ∈ e.client.chatRooms, Hides d.users (others s room)) ↔
      ∀ room ∈ mergeRooms models d.chatRooms, Spokesman s d room := by
  unfold chatRoomDelivered at h
  rw [parsed] at h
  obtain ⟨t, ht, rfl⟩ := Option.map_eq_some_iff.mp h
  exact rooms_hide_iff ht

/-- Sorting a history traps on a key that is no number, once it compares. -/
def Sortable (history : History) : Prop :=
  history.entries.length < 2 ∨ ∀ key ∈ history.keys, (intOf key).isSome

/-- None of the entries with fewer than fifty newer ones names a blocked user. -/
def Clean (users : UsersData) (uid : String → Uid) (history : History) : Prop :=
  ∀ p ∈ history.entries, newer secondOf history (secondOf p.1) < historyLimit →
    ¬ Blocks users (uid p.2)

theorem latest_eq_some {listing : Listing String String} {history tmp : History} :
    latest listing history = some tmp ↔
      Sortable history ∧ newest listing secondOf historyLimit history = tmp := by
  have hsortable : Sortable history ↔
      ¬ (2 ≤ history.entries.length ∧ ∃ key ∈ history.keys, intOf key = none) := by
    unfold Sortable
    rw [not_and_or, Nat.not_le]
    simp only [not_exists, not_and, Option.isSome_iff_ne_none, ne_eq]
  unfold latest
  rw [hsortable, Option.ite_none_left_eq_some, Option.some.injEq]

/-- However the history is listed, the rows of a loaded list name nobody blocked. -/
private theorem notices_hide_iff (users : UsersData) (uid : String → Uid) (log : HistoryLog)
    (s : Notices) :
    (∀ listing t, notices listing uid (.ok log) s = some t → Hides users t.uids) ↔
      (Sortable log.history → Clean users uid log.history) := by
  have hrows : ∀ listing, (∀ t, notices listing uid (.ok log) s = some t → Hides users t.uids) ↔
      (Sortable log.history → ∀ p ∈ (newest listing secondOf historyLimit log.history).entries,
        ¬ Blocks users (uid p.2)) := by
    intro listing
    constructor
    · intro h hsortable p hp
      have hlatest : latest listing log.history =
          some (newest listing secondOf historyLimit log.history) :=
        latest_eq_some.mpr ⟨hsortable, rfl⟩
      have hsome : (noticesOf listing uid log.history).isSome = true := by
        unfold noticesOf
        rw [hlatest]
        rfl
      obtain ⟨t, ht⟩ := Option.isSome_iff_exists.mp hsome
      have huids : t.uids = (newest listing secondOf historyLimit log.history).entries.map
          fun e => uid e.2 := by
        unfold noticesOf at ht
        rw [hlatest] at ht
        obtain rfl := Option.some.inj ht
        rfl
      have hhides := h t ht
      rw [huids] at hhides
      exact hhides _ (List.mem_map.mpr ⟨p, hp, rfl⟩)
    · intro h t ht u hu
      obtain ⟨tmp, htmp, rfl⟩ := Option.map_eq_some_iff.mp ht
      obtain ⟨hsortable, rfl⟩ := latest_eq_some.mp htmp
      obtain ⟨p, hp, rfl⟩ := List.mem_map.mp hu
      exact h hsortable p hp
  simp only [hrows]
  unfold Clean
  rw [← forall_newest_iff (P := fun p => ¬ Blocks users (uid p.2))]
  exact ⟨fun h hsortable listing => h listing hsortable, fun h listing hsortable =>
    h hsortable listing⟩

/-- Right after a load, the lists of articles and of users name nobody who is blocked either
way; the list of rooms does so exactly if in each room the member found first speaks for the
others; and the two notice lists exactly if nobody blocked is among the newest entries. -/
theorem blocking_hides_iff (users : UsersData) :
    (∀ (handler : HomeHandler) (models : List Article) (s : Feed Article), s.device.users = users →
      Hides users ((homeCallback handler (.ok models) s).items.map Article.uid) ∧
        Hides users ((Home.viewWillAppear s).items.map Article.uid)) ∧
    (∀ (models : List Article) (s : Feed Article), s.device.users = users →
      Hides users ((ArticleList.observeArticle (.ok models) s).items.map Article.uid)) ∧
    (∀ (models : List LoginUser) (s : Feed LoginUser), s.device.users = users →
      Hides users ((Search.observeUser (.ok models) s).items.map LoginUser.key) ∧
        Hides users ((Search.refresh (.ok models) s).items.map LoginUser.key)) ∧
    (∀ (s : Backend) (d : Screens) (b : Bind Document) (documents : List Document)
      (models : List ChatRoom) (e : Lists.Outcome), d.users = users →
        roomModels s documents = some models → chatRoomDelivered s d b documents = some e →
          ((∀ room ∈ e.client.chatRooms, Hides users (others s room)) ↔
            ∀ room ∈ mergeRooms models d.chatRooms, Spokesman s d room)) ∧
    (∀ (log : Footprint) (s : Notices),
      (∀ listing t, observeFootprint listing (.ok log) s = some t → Hides users t.uids) ↔
        (Sortable log.history → Clean users id log.history)) ∧
    (∀ (log : ArticleReplyLog) (s : Notices),
      (∀ listing t, observeArticleReplyLog listing (.ok log) s = some t → Hides users t.uids) ↔
        (Sortable log.history → Clean users firstComponent log.history)) := by
  refine ⟨?_, ?_, ?_, ?_, notices_hide_iff users id, notices_hide_iff users firstComponent⟩
  · rintro handler models s rfl
    constructor
    · cases handler with
      | observeArticle => exact hides_received home_hides _ _ _ _ s
      | refresh => exact hides_received home_hides _ _ _ _ s
    · exact hides_filterBlock home_hides s
  · rintro models s rfl
    exact hides_received thread_hides _ _ _ _ s
  · rintro models s rfl
    constructor
    · exact hides_received search_hides _ _ _ _ s
    · exact hides_received search_hides _ _ _ _ s
  · rintro s d b documents models e rfl parsed delivered
    exact delivered_hides_iff parsed delivered

section Example

/-- Bob has been blocked, and has visited the profile before. -/
private def users : UsersData := { userBlock := AList.singleton "bob" true }

private def visits : Footprint := ⟨"alice", AList.singleton "1538000000" "bob"⟩

theorem footprint_names_blocked : ∃ t, observeFootprint Listing.plain (.ok visits) {} = some t ∧
    t.uids = ["bob"] ∧ ¬ Hides users t.uids := by
  refine ⟨_, rfl, rfl, fun h => h "bob" List.mem_cons_self (.inl rfl)⟩

private def backend : Backend where
  account := { currentUser := some "alice", uids := fun _ => "", urls := fun _ => "" }
  rooms := []

private def screens : Screens where
  users := users
  keys := { order := id, perm := List.Perm.refl }

private def bind : Bind Document := ⟨0, 0, "alice", none, 0⟩

/-- A room with Bob and one with Carol. -/
private def rooms : List Document :=
  [(1, { newRoom "alice" "bob" 2 with lastUpdateMessage := some "hi" }),
    (2, { newRoom "carol" "alice" 3 with lastUpdateMessage := some "hello" })]

theorem blocking_hides_rooms : ∃ models e, roomModels backend rooms = some models ∧
    chatRoomDelivered backend screens bind rooms = some e ∧
    e.client.chatRooms.map ChatRoom.key = [2] ∧
    ((∀ room ∈ e.client.chatRooms, Hides users (others backend room)) ↔
      ∀ room ∈ mergeRooms models screens.chatRooms, Spokesman backend screens room) := by
  refine ⟨_, _, rfl, rfl, by decide, ?_⟩
  exact (blocking_hides_iff users).2.2.2.1 backend screens bind rooms _ _ rfl rfl rfl

end Example

end PlateChat.Screen.Blocking
