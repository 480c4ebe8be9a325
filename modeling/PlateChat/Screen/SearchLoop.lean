/- PlateChat/Screen/SearchLoop
   digest: The search screen with its service: what a search finds, page after page. -/

import PlateChat.Binding.Gate
import PlateChat.Screen.Merging

set_option autoImplicit false
set_option relaxedAutoImplicit false

/-!
A page is asked for when a search starts and when the last cell is displayed. The criteria
are applied to what has been loaded: a page without a match leaves the table empty, and then
no cell asks for the next one. A search that starts while a page is loading is not given its
first page, and takes in the one that was loading.
-/

namespace PlateChat.Screen.SearchLoop

open PlateChat.Foundation.Listening PlateChat.Foundation.Merge PlateChat.Foundation.Paging
open PlateChat.Foundation.Run PlateChat.Model.Members PlateChat.Model.Profile
open PlateChat.Binding.Services PlateChat.Binding.Removal PlateChat.Binding.Users
open PlateChat.Binding.Hosting PlateChat.Binding.Gate PlateChat.Screen.Feeds
open PlateChat.Screen.Merging

abbrev Requests := Awaiting LoginUserHandler LoginUserCursor LoginUserDocument
  (LoginUserPage (Feed LoginUser)) (Feed LoginUser)

/-- The screen, and the rows of its table that have been displayed since the last reload. -/
structure SearchScreen where
  requests : Requests
  shown : List Nat := []

namespace SearchScreen

def feed (s : SearchScreen) : Feed LoginUser := s.requests.service.lists

def setFeed (s : SearchScreen) (feed : Feed LoginUser) : SearchScreen :=
  { s with requests := { s.requests with service := { s.requests.service with lists := feed } } }

def bindUser (s : SearchScreen)
    (callbackHandler : Outcome LoginUser → Feed LoginUser → Feed LoginUser) :
    SearchScreen :=
  { s with requests := Binding.Gate.call userPager s.requests (.bindUser callbackHandler) }

def observeUser (s : SearchScreen) : SearchScreen := s.bindUser Search.observeUser

def viewDidLoad (device : Device) : SearchScreen :=
  observeUser { requests := { service := { lists := { device := device } } } }

/-- The search window hands over to the screen: the lists and the cursor are cleared. -/
def search (s : SearchScreen) : SearchScreen :=
  observeUser {
    requests := { s.requests with service := { s.requests.service with
      cursors := fun _ => none
      lists := Search.search s.requests.service.lists } } }

/-- A pull on an empty list ends at once. -/
def refresh (s : SearchScreen) : SearchScreen :=
  if s.feed.items.length = 0 then s else s.bindUser Search.refresh

/-- A row of the table comes into sight; the last row of the list asks for more. -/
def willDisplayCell (s : SearchScreen) (row : Nat) : Option SearchScreen :=
  if row < s.feed.table.length then
    let s := { s with shown := row :: s.shown }
    some (if row = lastIndex s.feed.items then s.observeUser else s)
  else none

/-- A reload that waits on the main queue runs. -/
def reloadData (s : SearchScreen) : Option SearchScreen :=
  if s.feed.reloads = 0 then none
  else some { s.setFeed { s.feed.reloadData with reloads := s.feed.reloads - 1 } with shown := [] }

def answered (s : SearchScreen) (n : Nat) (a : Answer LoginUserDocument) : SearchScreen :=
  { s with requests := Binding.Gate.deliver userPager s.requests n a }

end SearchScreen

inductive Act
  | search
  | refresh
  | willDisplayCell (row : Nat)
  | reloadData
  | collectionType
  | device (users : Device)
  | deliver (n date : Nat)
  | fail (n : Nat)
  | missing (n : Nat)
  deriving DecidableEq

/-- A collection of users that stays as it is. -/
structure Users where
  dated : LoginUserDocument → Bool
  contents : Contents Uid LoginUserDoc

namespace Users

variable (c : Users)

/-- The active users, of which the query of `bindUser` gives pages. -/
def active : List LoginUserDocument :=
  (loginUsers c.dated).selected (loginUserQuery none) c.contents.documents

/-- What the listener `n` delivers. -/
def page (s : SearchScreen) (n : Nat) : List LoginUserDocument :=
  userPager.found (loginUsers c.dated) c.contents.documents s.requests.service n

def step (s : SearchScreen) : Act → Option SearchScreen
  | .search => some s.search
  | .refresh => some s.refresh
  | .willDisplayCell row => s.willDisplayCell row
  | .reloadData => s.reloadData
  | .collectionType => some (s.setFeed (Search.collectionType s.feed))
  | .device device => some (s.setFeed { s.feed with device := device })
  | .deliver n date => some (s.answered n (.snapshot date (c.page s n)))
  | .fail n => some (s.answered n .error)
  | .missing n => some (s.answered n .nothing)

end Users

/-- Pages are pages of active users, and what is held was read from the collection. -/
structure Sound (c : Users) (s : SearchScreen) : Prop where
  awaited : ∀ n ∈ s.requests.waiting, s.requests.service.handles.Active n
  pages : ∀ n p, userPager.pageOf s.requests.service n = some p →
    p.callbackHandler = Search.observeUser ∧ p.query = loginUserQuery p.query.startAfter ∧
      ∀ d ∈ p.query.startAfter, d ∈ c.active
  cursor : ∀ d ∈ s.requests.service.cursors .lastLoginUserDocument, d ∈ c.active
  held : ∀ u ∈ s.feed.org, ∃ date, ∃ d ∈ c.active, LoginUser.ofDocument date d = .ok u

section Sound

variable {c : Users} {s : SearchScreen}

theorem active_keyed : (c.active.map Prod.fst).Nodup :=
  (loginUsers c.dated).selected_keyed _ c.contents

theorem active_distinct : (c.active.map (loginUsers c.dated).rank).Nodup :=
  (loginUsers c.dated).selected_distinct _ c.contents

theorem eq_of_id {d e : LoginUserDocument} (hd : d ∈ c.active) (he : e ∈ c.active)
    (hid : d.1 = e.1) : d = e :=
  List.inj_on_of_nodup_map active_keyed hd he hid

theorem id_mem_iff {l : List LoginUserDocument} (sub : ∀ d ∈ l, d ∈ c.active)
    {d : LoginUserDocument} (hd : d ∈ c.active) : d.1 ∈ l.map Prod.fst ↔ d ∈ l := by
  refine ⟨fun h => ?_, List.mem_map_of_mem⟩
  obtain ⟨e, he, hid⟩ := List.mem_map.mp h
  exact eq_of_id (sub e he) hd hid ▸ he

theorem Sound.page_eq (h : Sound c s) {n : Nat}
    {p : Page LoginUserCursor LoginUserDocument LoginUser (Feed LoginUser)}
    (hp : userPager.pageOf s.requests.service n = some p) :
    c.page s n =
      Foundation.Paging.page (loginUsers c.dated).rank 60 p.query.startAfter c.active := by
  have hquery := (h.pages n p hp).2.1
  rw [Users.page, userPager.found_of_page _ hp, hquery]
  exact (loginUsers c.dated).fetch_of_limit (q := loginUserQuery p.query.startAfter) rfl _

theorem Sound.mem_page (h : Sound c s) {n : Nat} {d : LoginUserDocument} (hd : d ∈ c.page s n) :
    d ∈ c.active := by
  rcases hp : userPager.pageOf s.requests.service n with _ | p
  · rw [Users.page, Pager.found, hp] at hd
    cases hd
  · rw [h.page_eq hp] at hd
    exact mem_of_page hd

theorem loginUserModels_isSome (date : Nat) {documents : List LoginUserDocument} :
    (loginUserModels date documents).isSome ↔ ∀ d ∈ documents, d.2.Parses := by
  have hparse : (∃ users, parseAll (LoginUser.ofDocument date) documents = .ok users) ↔
      ∀ d ∈ documents, d.2.Parses := by
    simp only [parseAll_isOk, LoginUser.parses_iff]
  rw [← hparse]
  unfold loginUserModels
  split <;> simp_all

theorem mem_loginUserModels {date : Nat} {documents : List LoginUserDocument}
    {models : List LoginUser} (h : loginUserModels date documents = some models) {u : LoginUser}
    (hu : u ∈ models) : ∃ d ∈ documents, LoginUser.ofDocument date d = .ok u := by
  unfold loginUserModels at h
  split at h
  · rename_i users hparsed
    obtain rfl := Option.some.inj h
    exact mem_parseAll hparsed ((List.mem_insertionSort _).mp hu)
  · cases h

theorem keys_loginUserModels {date : Nat} {documents : List LoginUserDocument}
    {models : List LoginUser} (h : loginUserModels date documents = some models) (k : Uid) :
    k ∈ models.map LoginUser.key ↔ k ∈ documents.map Prod.fst := by
  unfold loginUserModels at h
  split at h
  · rename_i users hparsed
    obtain rfl := Option.some.inj h
    have hkeys : users.map LoginUser.key = documents.map Prod.fst :=
      map_parseAll (fun _ _ hu => (LoginUser.of_parsed hu).1) hparsed
    rw [((List.perm_insertionSort _ users).map LoginUser.key).mem_iff, hkeys]
  · cases h

theorem SearchScreen.bindUser_of_loading {callbackHandler : Outcome LoginUser → _}
    (loading : s.requests.service.status = .loading) : s.bindUser callbackHandler = s := by
  have hcall : Binding.Gate.call userPager s.requests (.bindUser callbackHandler) = s.requests := by
    rw [Binding.Gate.call, if_neg fun h => h.2 loading, userPager.call_of_loading rfl loading]
  rw [SearchScreen.bindUser, hcall]

/-- The page that a call asks for, from the cursor on. -/
def SearchScreen.nextPage (s : SearchScreen)
    (callbackHandler : Outcome LoginUser → Feed LoginUser → Feed LoginUser) :
    LoginUserPage (Feed LoginUser) :=
  UserService.loginUserPage s.requests.service callbackHandler

theorem SearchScreen.bindUser_of_idle {callbackHandler : Outcome LoginUser → _}
    (idle : s.requests.service.status ≠ .loading) : s.bindUser callbackHandler = { s with
      requests := {
        service := { s.requests.service with
          handles := s.requests.service.handles.register .bindLoginUserListHandler
            (s.nextPage callbackHandler)
          status := .loading }
        waiting := s.requests.waiting ++ [s.requests.service.handles.listeners.length]
        intruded := false } } := by
  rw [SearchScreen.bindUser, Binding.Gate.call, if_pos ⟨rfl, idle⟩, userPager.call_of_asks rfl idle]
  rfl

theorem bindUser_feed {callbackHandler : Outcome LoginUser → _} :
    (s.bindUser callbackHandler).feed = s.feed := by
  by_cases hloading : s.requests.service.status = .loading
  · rw [SearchScreen.bindUser_of_loading hloading]
  · rw [SearchScreen.bindUser_of_idle hloading]
    rfl

private theorem sound_bindUser (h : Sound c s) {callbackHandler : Outcome LoginUser → _}
    (observes : callbackHandler = Search.observeUser) : Sound c (s.bindUser callbackHandler) := by
  by_cases hloading : s.requests.service.status = .loading
  · rw [SearchScreen.bindUser_of_loading hloading]
    exact h
  rw [SearchScreen.bindUser_of_idle hloading]
  refine ⟨fun n hn => ?_, fun n p hp => ?_, h.cursor, h.held⟩
  · rcases List.mem_append.mp hn with hn | hn
    · exact Handles.active_register.mpr (.inr (h.awaited n hn))
    · exact Handles.active_register.mpr (.inl (List.mem_singleton.mp hn))
  · obtain ⟨q, hq, hpage⟩ := Option.bind_eq_some_iff.mp hp
    have hlt := Handles.lt_of_queryOf hq
    rw [Handles.length_register] at hlt
    rcases Nat.lt_succ_iff_lt_or_eq.mp hlt with hold | rfl
    · rw [Handles.queryOf_register_of_lt hold] at hq
      exact h.pages n p (Option.bind_eq_some_iff.mpr ⟨q, hq, hpage⟩)
    · rw [Handles.queryOf_register_self] at hq
      obtain rfl := Option.some.inj hq
      obtain rfl := Option.some.inj hpage
      exact ⟨observes, rfl, h.cursor⟩

private theorem sound_setFeed (h : Sound c s) {feed : Feed LoginUser}
    (sub : ∀ u ∈ feed.org, u ∈ s.feed.org) : Sound c (s.setFeed feed) :=
  ⟨h.awaited, h.pages, h.cursor, fun u hu => h.held u (sub u hu)⟩

private theorem sound_shown (h : Sound c s) (shown : List Nat) :
    Sound c { s with shown := shown } :=
  ⟨h.awaited, h.pages, h.cursor, h.held⟩

theorem SearchScreen.answered_of_inactive {n : Nat} {a : Answer LoginUserDocument}
    (inactive : ¬ s.requests.service.handles.Active n) : s.answered n a = s := by
  rw [SearchScreen.answered, Binding.Gate.deliver, if_neg inactive]

theorem SearchScreen.answered_requests {n : Nat} {a : Answer LoginUserDocument}
    (hactive : s.requests.service.handles.Active n) :
    (s.answered n a).requests.service = userPager.api.deliver s.requests.service n a ∧
      (s.answered n a).requests.waiting = s.requests.waiting.filter fun m => m ≠ n := by
  rw [SearchScreen.answered, Binding.Gate.deliver, if_pos hactive]
  exact ⟨rfl, rfl⟩

private theorem answered_service {n : Nat} {a : Answer LoginUserDocument}
    (hactive : s.requests.service.handles.Active n) :
    ∃ p, userPager.pageOf s.requests.service n = some p ∧ (s.answered n a).requests.service =
      (Pager.told s.requests.service n a).receive loginUserModels p a := by
  obtain ⟨q, hq⟩ := Handles.queryOf_of_active hactive
  have hp : userPager.pageOf s.requests.service n = some q.toPage := by
    rw [Pager.pageOf, hq]
    rfl
  refine ⟨q.toPage, hp, ?_⟩
  rw [(SearchScreen.answered_requests hactive).1, userPager.deliver_of_page hactive hp]
  rfl

theorem Sound.feed_delivered (h : Sound c s) {n : Nat}
    (hactive : s.requests.service.handles.Active n) (date : Nat) :
    (s.answered n (.snapshot date (c.page s n))).feed =
      match loginUserModels date (c.page s n) with
      | some models => Search.observeUser (.ok models) s.feed
      | none => s.feed := by
  obtain ⟨p, hp, hservice⟩ := answered_service (a := .snapshot date (c.page s n)) hactive
  rw [SearchScreen.feed, hservice, receive_lists, (h.pages n p hp).1]
  cases loginUserModels date (c.page s n) <;> rfl

/-- An error leaves the lists and the cursor. -/
theorem Sound.error_delivered (h : Sound c s) {n : Nat} {a : Answer LoginUserDocument}
    (hactive : s.requests.service.handles.Active n) (ha : a = .error ∨ a = .nothing) :
    (s.answered n a).feed = s.feed ∧
      (s.answered n a).requests.service.cursors = s.requests.service.cursors := by
  obtain ⟨p, hp, hservice⟩ := answered_service (a := a) hactive
  have hcallback := (h.pages n p hp).1
  rw [SearchScreen.feed, hservice]
  rcases ha with rfl | rfl
  · simp only [Service.receive, hcallback]
    exact ⟨rfl, rfl⟩
  · simp only [Service.receive, hcallback]
    exact ⟨rfl, rfl⟩

private theorem sound_answered (h : Sound c s) {n : Nat} {a : Answer LoginUserDocument}
    (hactive : s.requests.service.handles.Active n)
    (cursor : ∀ d ∈ (s.answered n a).requests.service.cursors .lastLoginUserDocument, d ∈ c.active)
    (held : ∀ u ∈ (s.answered n a).feed.org,
      ∃ date, ∃ d ∈ c.active, LoginUser.ofDocument date d = .ok u) :
    Sound c (s.answered n a) := by
  obtain ⟨hservice, hwaiting⟩ := SearchScreen.answered_requests (a := a) hactive
  refine ⟨fun m hm => ?_, fun m p hp => ?_, cursor, held⟩
  · rw [hwaiting] at hm
    obtain ⟨hm, hne⟩ := List.mem_filter.mp hm
    rw [hservice]
    rcases userPager.api.deliver_handles s.requests.service n a with hhandles | hhandles
    · rw [hhandles]
      exact h.awaited m hm
    · rw [hhandles, Handles.active_fail]
      exact ⟨h.awaited m hm, (of_decide_eq_true hne).symm⟩
  · rw [hservice, userPager.pageOf_deliver] at hp
    exact h.pages m p hp

private theorem sound_delivered (h : Sound c s) (n date : Nat) :
    Sound c (s.answered n (.snapshot date (c.page s n))) := by
  by_cases hactive : s.requests.service.handles.Active n
  swap
  · rw [SearchScreen.answered_of_inactive hactive]
    exact h
  refine sound_answered h hactive (fun d hd => ?_) fun u hu => ?_
  · obtain ⟨p, hp, hservice⟩ := answered_service (a := .snapshot date (c.page s n)) hactive
    rw [hservice, receive_cursors] at hd
    rcases hcursor : p.cursor with _ | x
    · rw [hcursor] at hd
      exact h.cursor d hd
    · cases x
      rw [hcursor] at hd
      dsimp only at hd
      rw [Function.update_self] at hd
      exact h.mem_page (List.mem_of_getLast? hd)
  · rw [h.feed_delivered hactive] at hu
    split at hu
    · rename_i models hmodels
      rcases Option.or_eq_some_iff.mp (mem_received_org.mp hu).1 with hnew | ⟨_, hold⟩
      · obtain ⟨d, hd, hparse⟩ := mem_loginUserModels hmodels (mem_of_version hnew)
        exact ⟨date, d, h.mem_page hd, hparse⟩
      · exact h.held u (mem_of_version hold)
    · exact h.held u hu

private theorem sound_refused (h : Sound c s) {n : Nat} {a : Answer LoginUserDocument}
    (ha : a = .error ∨ a = .nothing) : Sound c (s.answered n a) := by
  by_cases hactive : s.requests.service.handles.Active n
  swap
  · rw [SearchScreen.answered_of_inactive hactive]
    exact h
  obtain ⟨hfeed, hcursors⟩ := h.error_delivered hactive ha
  refine sound_answered h hactive (fun d hd => ?_) fun u hu => ?_
  · rw [hcursors] at hd
    exact h.cursor d hd
  · rw [hfeed] at hu
    exact h.held u hu

/-- The lists and the cursor of a search that starts. -/
private def cleared (s : SearchScreen) : SearchScreen where
  requests := { s.requests with service := { s.requests.service with
    cursors := fun _ => none
    lists := Search.search s.requests.service.lists } }

private theorem search_eq : s.search = (cleared s).observeUser := rfl

theorem search_feed : s.search.feed = Search.search s.feed := by
  rw [search_eq, SearchScreen.observeUser, bindUser_feed]
  rfl

theorem opened_feed (device : Device) :
    (SearchScreen.viewDidLoad device).feed = { device := device } := by
  rw [SearchScreen.viewDidLoad, SearchScreen.observeUser, bindUser_feed]
  rfl

private theorem sound_cleared (h : Sound c s) : Sound c (cleared s) :=
  ⟨h.awaited, h.pages, (fun _ hd => nomatch hd), (fun _ hu => nomatch hu)⟩

private theorem sound_search (h : Sound c s) : Sound c s.search :=
  sound_bindUser (sound_cleared h) rfl

theorem sound_step {e : Act} {t : SearchScreen} (h : Sound c s) (hstep : c.step s e = some t) :
    Sound c t := by
  cases e with
  | search =>
    obtain rfl := Option.some.inj hstep
    exact sound_search h
  | refresh =>
    obtain rfl := Option.some.inj hstep
    unfold SearchScreen.refresh
    split
    · exact h
    · exact sound_bindUser h rfl
  | willDisplayCell row =>
    obtain ⟨_, hstep⟩ := Option.ite_none_right_eq_some.mp hstep
    obtain rfl := Option.some.inj hstep
    have hshown := sound_shown h (row :: s.shown)
    split
    · exact sound_bindUser hshown rfl
    · exact hshown
  | reloadData =>
    obtain ⟨_, hstep⟩ := Option.ite_none_left_eq_some.mp hstep
    obtain rfl := Option.some.inj hstep
    exact ⟨h.awaited, h.pages, h.cursor, h.held⟩
  | collectionType =>
    obtain rfl := Option.some.inj hstep
    exact sound_setFeed h fun _ hu => hu
  | device device =>
    obtain rfl := Option.some.inj hstep
    exact sound_setFeed h fun _ hu => hu
  | deliver n date =>
    obtain rfl := Option.some.inj hstep
    exact sound_delivered h n date
  | fail n =>
    obtain rfl := Option.some.inj hstep
    exact sound_refused h (.inl rfl)
  | missing n =>
    obtain rfl := Option.some.inj hstep
    exact sound_refused h (.inr rfl)

theorem sound_opened (device : Device) : Sound c (SearchScreen.viewDidLoad device) := by
  refine sound_bindUser ⟨fun n hn => ?_, fun n p hp => ?_, fun d hd => ?_, fun u hu => ?_⟩ rfl
  · cases hn
  · cases hp
  · cases hd
  · cases hu

/-- A page is delivered. -/
def Act.Delivers (e : Act) : Prop := ∃ n date, e = .deliver n date

theorem Sound.lists_kept (h : Sound c s) {e : Act} {t : SearchScreen} (other : ¬ e.Delivers)
    (hstep : c.step s e = some t) : t.feed.org = s.feed.org ∧ t.feed.items = s.feed.items ∨
      t.feed.org = [] ∧ t.feed.items = [] := by
  have hsame : t.feed = s.feed →
      t.feed.org = s.feed.org ∧ t.feed.items = s.feed.items ∨
        t.feed.org = [] ∧ t.feed.items = [] := by
    intro hfeed
    rw [hfeed]
    exact .inl ⟨rfl, rfl⟩
  have hrefused : ∀ n a, a = .error ∨ a = .nothing → (s.answered n a).feed = s.feed := by
    intro n a ha
    by_cases hactive : s.requests.service.handles.Active n
    · exact (h.error_delivered hactive ha).1
    · rw [SearchScreen.answered_of_inactive hactive]
  cases e with
  | deliver n date => exact absurd ⟨n, date, rfl⟩ other
  | search =>
    obtain rfl := Option.some.inj hstep
    rw [search_feed]
    exact .inr ⟨rfl, rfl⟩
  | refresh =>
    obtain rfl := Option.some.inj hstep
    apply hsame
    unfold SearchScreen.refresh
    split
    · rfl
    · rw [bindUser_feed]
  | willDisplayCell row =>
    obtain ⟨_, hstep⟩ := Option.ite_none_right_eq_some.mp hstep
    obtain rfl := Option.some.inj hstep
    apply hsame
    split
    · exact bindUser_feed
    · rfl
  | reloadData =>
    obtain ⟨_, hstep⟩ := Option.ite_none_left_eq_some.mp hstep
    obtain rfl := Option.some.inj hstep
    exact .inl ⟨rfl, rfl⟩
  | collectionType =>
    obtain rfl := Option.some.inj hstep
    exact .inl ⟨rfl, rfl⟩
  | device device =>
    obtain rfl := Option.some.inj hstep
    exact .inl ⟨rfl, rfl⟩
  | fail n =>
    obtain rfl := Option.some.inj hstep
    exact hsame (hrefused n .error (.inl rfl))
  | missing n =>
    obtain rfl := Option.some.inj hstep
    exact hsame (hrefused n .nothing (.inr rfl))

theorem Sound.keys_delivered (h : Sound c s) {n : Nat}
    (hactive : s.requests.service.handles.Active n) (date : Nat) (k : Uid) :
    k ∈ (s.answered n (.snapshot date (c.page s n))).feed.org.map LoginUser.key ↔
      (∀ d ∈ c.page s n, d.2.Parses) ∧ k ∈ (c.page s n).map Prod.fst ∨
        k ∈ s.feed.org.map LoginUser.key := by
  rw [h.feed_delivered hactive, ← loginUserModels_isSome date]
  rcases hmodels : loginUserModels date (c.page s n) with _ | models
  · simp
  · have horg : (Search.observeUser (.ok models) s.feed).org =
        ((unique LoginUser.key (models ++ s.feed.org)).filter all).insertionSort newestUser :=
      received_org _ _ _ _ _ _
    have hall : (unique LoginUser.key (models ++ s.feed.org)).filter all =
        unique LoginUser.key (models ++ s.feed.org) := List.filter_eq_self.mpr fun _ _ => rfl
    dsimp only
    rw [horg, hall, ((List.perm_insertionSort _ _).map LoginUser.key).mem_iff, mem_keys_unique,
      List.map_append, List.mem_append, keys_loginUserModels hmodels]
    simp

end Sound

section Prefix

variable {c : Users} {s : SearchScreen}

/-- The users held are the first ones of the query order. -/
def Prefix (c : Users) (s : SearchScreen) : Prop :=
  ∃ m, ∀ k, k ∈ s.feed.org.map LoginUser.key ↔
    k ∈ ((ordered (loginUsers c.dated).rank c.active).take m).map Prod.fst

/-- A page that is delivered starts behind a user who is held, or at the beginning, unless it
adds nothing. -/
def Joins (c : Users) (s : SearchScreen) : Act → Prop
  | .deliver n _ => s.requests.service.handles.Active n →
    c.page s n = [] ∨ (¬ ∀ d ∈ c.page s n, d.2.Parses) ∨
      ∀ p ∈ userPager.pageOf s.requests.service n, ∀ d ∈ p.query.startAfter,
        d.1 ∈ s.feed.org.map LoginUser.key
  | _ => True

def PrefixNext (c : Users) (s : SearchScreen) (e : Act) : Prop := ∀ t ∈ c.step s e, Prefix c t

/-- Once all loads have delivered. -/
def PrefixAtRest (c : Users) (s : SearchScreen) (e : Act) : Prop :=
  ∀ t ∈ c.step s e, t.requests.waiting = [] → Prefix c t

private theorem prefix_iff_leading (h : Sound c s) : Prefix c s ↔
    Leading (loginUsers c.dated).rank c.active fun d => d.1 ∈ s.feed.org.map LoginUser.key := by
  have hsub : ∀ m, ∀ d ∈ (ordered (loginUsers c.dated).rank c.active).take m, d ∈ c.active :=
    fun m d hd => mem_ordered.mp (List.mem_of_mem_take hd)
  constructor
  · rintro ⟨m, hm⟩
    exact ⟨m, fun d hd => (hm d.1).trans (id_mem_iff (hsub m) hd)⟩
  · rintro ⟨m, hm⟩
    refine ⟨m, fun k => ⟨fun hk => ?_, fun hk => ?_⟩⟩
    · obtain ⟨u, hu, rfl⟩ := List.mem_map.mp hk
      obtain ⟨date, d, hd, hparse⟩ := h.held u hu
      rw [(LoginUser.of_parsed hparse).1] at hk ⊢
      exact List.mem_map_of_mem ((hm d hd).mp hk)
    · obtain ⟨d, hd, rfl⟩ := List.mem_map.mp hk
      exact (hm d (hsub m d hd)).mpr hd

private theorem prefix_of_keys {t : SearchScreen} (h : Prefix c s)
    (keys : ∀ k, k ∈ t.feed.org.map LoginUser.key ↔ k ∈ s.feed.org.map LoginUser.key) :
    Prefix c t := by
  obtain ⟨m, hm⟩ := h
  exact ⟨m, fun k => (keys k).trans (hm k)⟩

private theorem prefix_empty {t : SearchScreen} (h : t.feed.org = []) : Prefix c t :=
  ⟨0, fun k => by simp [h]⟩

private theorem prefix_delivered_iff (h : Sound c s) (hleads : Prefix c s) (n date : Nat) :
    Prefix c (s.answered n (.snapshot date (c.page s n))) ↔ Joins c s (.deliver n date) := by
  by_cases hactive : s.requests.service.handles.Active n
  swap
  · rw [SearchScreen.answered_of_inactive hactive]
    exact iff_of_true hleads fun hactive' => absurd hactive' hactive
  have hkeys := h.keys_delivered hactive date
  by_cases hparses : ∀ d ∈ c.page s n, d.2.Parses
  swap
  · refine iff_of_true (prefix_of_keys hleads fun k => ?_) fun _ => .inr (.inl hparses)
    rw [hkeys, or_iff_right fun hnew => hparses hnew.1]
  obtain ⟨p, hp, _⟩ := answered_service (a := .snapshot date (c.page s n)) hactive
  have hpage := h.page_eq hp
  have hknown := (h.pages n p hp).2.2
  have hadded := leading_page_iff active_distinct 60 hknown ((prefix_iff_leading h).mp hleads)
  rw [← hpage] at hadded
  rw [prefix_iff_leading (sound_delivered h n date)]
  have hsame : ∀ d ∈ c.active, (d.1 ∈ (s.answered n (.snapshot date (c.page s n))).feed.org.map
      LoginUser.key ↔ d.1 ∈ s.feed.org.map LoginUser.key ∨ d ∈ c.page s n) := by
    intro d hd
    rw [hkeys, and_iff_right hparses, id_mem_iff (fun e he => h.mem_page he) hd, or_comm]
  rw [leading_congr hsame, hadded]
  constructor
  · rintro (hnil | hheld) _
    · exact .inl hnil
    · refine .inr (.inr fun p' hp' => ?_)
      obtain rfl := Option.some.inj (hp.symm.trans hp')
      exact hheld
  · intro hjoins
    rcases hjoins hactive with hnil | hunreadable | hheld
    · exact .inl hnil
    · exact absurd hparses hunreadable
    · exact .inr (hheld p hp)

private theorem prefix_of_org {t : SearchScreen} (h : Prefix c s) (org : t.feed.org = s.feed.org) :
    Prefix c t := prefix_of_keys h fun k => by rw [org]

private theorem prefixNext_iff (h : Sound c s) (hleads : Prefix c s) (e : Act) :
    PrefixNext c s e ↔ Joins c s e := by
  by_cases hdelivers : e.Delivers
  · obtain ⟨n, date, rfl⟩ := hdelivers
    rw [PrefixNext, next_iff rfl]
    exact prefix_delivered_iff h hleads n date
  refine iff_of_true (fun t ht => ?_) ?_
  · rcases h.lists_kept hdelivers ht with ⟨horg, _⟩ | ⟨horg, _⟩
    · exact prefix_of_org hleads horg
    · exact prefix_empty horg
  · cases e with
    | deliver n date => exact absurd ⟨n, date, rfl⟩ hdelivers
    | _ => trivial

private theorem prefix_opened (device : Device) : Prefix c (SearchScreen.viewDidLoad device) := by
  refine prefix_empty ?_
  rw [opened_feed]

/-- In a run from the screen's opening, whenever the searches are started: the users held are
the first ones of the query order at every moment exactly if every page that is delivered
joins them, and then they are once all loads have delivered. -/
theorem search_prefix_iff (c : Users) (device : Device) (events : List Act) :
    (Along c.step (Joins c) (SearchScreen.viewDidLoad device) events →
      Along c.step (PrefixAtRest c) (SearchScreen.viewDidLoad device) events) ∧
    (Along c.step (PrefixNext c) (SearchScreen.viewDidLoad device) events ↔
      Along c.step (Joins c) (SearchScreen.viewDidLoad device) events) := by
  have hkeep : ∀ s e t, Sound c s ∧ Prefix c s → PrefixNext c s e → c.step s e = some t →
      Sound c t ∧ Prefix c t :=
    fun s e t h hnext ht => ⟨sound_step h.1 ht, hnext t ht⟩
  have hopened := And.intro (sound_opened (c := c) device) (prefix_opened (c := c) device)
  have hiff : Along c.step (PrefixNext c) (SearchScreen.viewDidLoad device) events ↔
      Along c.step (Joins c) (SearchScreen.viewDidLoad device) events :=
    along_congr (fun s e h => prefixNext_iff h.1 h.2 e) hkeep hopened
  refine ⟨fun hjoins => ?_, hiff⟩
  exact along_keeps hkeep (fun s e _ hnext t ht _ => hnext t ht) (hiff.mpr hjoins) hopened

end Prefix

section Completeness

variable {c : Users} {s t : SearchScreen} {device : Device}

/-- The user, whenever his document is parsed, satisfies the criteria of the filter. -/
def Matches (device : Device) (d : LoginUserDocument) : Prop :=
  ∃ date u, LoginUser.ofDocument date d = .ok u ∧ Search.visible device u = true

/-- The loop of a search: pages, reloads, and cells that come into sight. -/
def InLoop (_ : SearchScreen) : Act → Prop
  | .deliver _ _ => True
  | .reloadData => True
  | .willDisplayCell _ => True
  | _ => False

/-- No load is unanswered, no reload pending, and every cell has been displayed. -/
structure Rest (s : SearchScreen) : Prop where
  answered : s.requests.waiting = []
  reloaded : s.feed.reloads = 0
  displayed : ∀ row < s.feed.table.length, row ∈ s.shown

/-- Where the loop comes to rest with an empty list, nobody satisfies the criteria. -/
def Complete (c : Users) (s : SearchScreen) : Prop :=
  ∀ t, Reaches c.step InLoop s.search t → Rest t → t.feed.items = [] →
    ∀ d ∈ c.active, ¬ Matches s.feed.device d

/-- The page parses and has a match in it. -/
def HasMatch (device : Device) (documents : List LoginUserDocument) : Prop :=
  (∀ d ∈ documents, d.2.Parses) ∧ ∃ d ∈ documents, Matches device d

/-- The first page has a match and is not held up by the gate, or a page has that is awaited. -/
def Promising (c : Users) (s : SearchScreen) : Prop :=
  s.requests.service.status ≠ .loading ∧ HasMatch s.feed.device
      (Foundation.Paging.page (loginUsers c.dated).rank 60 none c.active) ∨
    ∃ n ∈ s.requests.waiting, HasMatch s.feed.device (c.page s n)

/-- The criteria do not depend on the moment of the parse. -/
theorem visible_of_matches {d : LoginUserDocument} (h : Matches device d) {date : Nat}
    {u : LoginUser} (hu : LoginUser.ofDocument date d = .ok u) :
    Search.visible device u = true := by
  obtain ⟨date', u', hu', hvisible⟩ := h
  have hsame : Search.visible device u = Search.visible device u' := by
    unfold LoginUser.ofDocument at hu hu'
    dsimp only at hu hu'
    split at hu
    · rename_i he hp hs
      simp only [he, hp, hs] at hu'
      cases hu
      cases hu'
      rfl
    · cases hu
  rw [hsame, hvisible]

instance (device : Device) (d : LoginUserDocument) : Decidable (Matches device d) :=
  decidable_of_iff (∃ u ∈ (LoginUser.ofDocument 0 d).toOption, Search.visible device u = true) (by
    constructor
    · rintro ⟨u, hu, hvisible⟩
      rcases hparse : LoginUser.ofDocument 0 d with e | v
      · rw [hparse] at hu
        cases hu
      · rw [hparse] at hu
        obtain rfl := Option.some.inj hu
        exact ⟨0, v, hparse, hvisible⟩
    · intro h
      obtain ⟨date, u, hu, _⟩ := id h
      have hparsed : ∃ v, LoginUser.ofDocument 0 d = .ok v :=
        LoginUser.parses_iff.mpr (LoginUser.parses_iff.mp ⟨u, hu⟩)
      obtain ⟨v, hv⟩ := hparsed
      exact ⟨v, by rw [hv]; rfl, visible_of_matches h hv⟩)

instance (device : Device) (documents : List LoginUserDocument) :
    Decidable (HasMatch device documents) :=
  inferInstanceAs (Decidable ((∀ d ∈ documents, d.2.Parses) ∧ ∃ d ∈ documents, Matches device d))

instance (c : Users) (s : SearchScreen) : Decidable (Promising c s) :=
  inferInstanceAs (Decidable (_ ∧ HasMatch _ _ ∨ ∃ n ∈ s.requests.waiting, HasMatch _ _))

private theorem search_device : s.search.feed.device = s.feed.device := by
  rw [search_feed]
  rfl

private theorem lt_of_mem_page {n : Nat} {d : LoginUserDocument} (hd : d ∈ c.page s n) :
    n < s.requests.service.handles.listeners.length := by
  rcases hp : userPager.pageOf s.requests.service n with _ | p
  · rw [Users.page, Pager.found, hp] at hd
    cases hd
  · exact userPager.lt_of_pageOf hp

private theorem page_bindUser {callbackHandler : Outcome LoginUser → _} {n : Nat}
    (hn : n < s.requests.service.handles.listeners.length) :
    c.page (s.bindUser callbackHandler) n = c.page s n := by
  by_cases hloading : s.requests.service.status = .loading
  · rw [SearchScreen.bindUser_of_loading hloading]
  · rw [SearchScreen.bindUser_of_idle hloading]
    unfold Users.page Pager.found Pager.pageOf
    dsimp only
    rw [Handles.queryOf_register_of_lt hn]

private theorem page_answered {n m : Nat} {a : Answer LoginUserDocument} :
    c.page (s.answered m a) n = c.page s n := by
  by_cases hactive : s.requests.service.handles.Active m
  · unfold Users.page Pager.found
    rw [(SearchScreen.answered_requests hactive).1, userPager.pageOf_deliver]
  · rw [SearchScreen.answered_of_inactive hactive]

private theorem waiting_bindUser {callbackHandler : Outcome LoginUser → _} {n : Nat}
    (hn : n ∈ s.requests.waiting) : n ∈ (s.bindUser callbackHandler).requests.waiting := by
  by_cases hloading : s.requests.service.status = .loading
  · rw [SearchScreen.bindUser_of_loading hloading]
    exact hn
  · rw [SearchScreen.bindUser_of_idle hloading]
    exact List.mem_append_left _ hn

private theorem awaited_search (h : Sound c s) (P : List LoginUserDocument → Prop) :
    (∃ n ∈ s.search.requests.waiting, P (c.page s.search n)) ↔
      s.requests.service.status ≠ .loading ∧
          P (Foundation.Paging.page (loginUsers c.dated).rank 60 none c.active) ∨
        ∃ n ∈ s.requests.waiting, P (c.page s n) := by
  have hold : ∀ n ∈ s.requests.waiting, c.page s.search n = c.page s n := by
    intro n hn
    exact page_bindUser (s := cleared s) (Handles.lt_of_active (h.awaited n hn))
  by_cases hloading : s.requests.service.status = .loading
  · have hsame : s.search.requests.waiting = s.requests.waiting := by
      rw [search_eq, SearchScreen.observeUser,
        SearchScreen.bindUser_of_loading (s := cleared s) hloading]
      rfl
    rw [hsame]
    simp only [hloading, ne_eq, not_true_eq_false, false_and, false_or]
    exact exists_congr fun n => and_congr_right fun hn => by rw [hold n hn]
  · have hwaiting : s.search.requests.waiting =
        s.requests.waiting ++ [s.requests.service.handles.listeners.length] := by
      rw [search_eq, SearchScreen.observeUser,
        SearchScreen.bindUser_of_idle (s := cleared s) hloading]
      rfl
    have hnew : c.page s.search s.requests.service.handles.listeners.length =
        Foundation.Paging.page (loginUsers c.dated).rank 60 none c.active := by
      have hp : userPager.pageOf s.search.requests.service
          s.requests.service.handles.listeners.length =
            some ((cleared s).nextPage Search.observeUser).toPage := by
        rw [search_eq, SearchScreen.observeUser,
          SearchScreen.bindUser_of_idle (s := cleared s) hloading]
        unfold Pager.pageOf
        dsimp only
        exact congrArg (fun q => Option.bind q userPager.page) Handles.queryOf_register_self
      exact (sound_search h).page_eq hp
    rw [hwaiting]
    constructor
    · rintro ⟨n, hn, hP⟩
      rcases List.mem_append.mp hn with hn | hn
      · exact .inr ⟨n, hn, hold n hn ▸ hP⟩
      · rw [List.mem_singleton.mp hn, hnew] at hP
        exact .inl ⟨hloading, hP⟩
    · rintro (⟨_, hP⟩ | ⟨n, hn, hP⟩)
      · exact ⟨_, List.mem_append_right _ List.mem_cons_self, hnew.symm ▸ hP⟩
      · exact ⟨n, List.mem_append_left _ hn, (hold n hn).symm ▸ hP⟩

private theorem promising_iff (h : Sound c s) : Promising c s ↔
    ∃ n ∈ s.search.requests.waiting, HasMatch s.feed.device (c.page s.search n) :=
  (awaited_search h (HasMatch s.feed.device)).symm

/-- The match is awaited or held, and the rows are those of the held users that satisfy. -/
private structure Promised (c : Users) (device : Device) (n : Nat) (d : LoginUserDocument)
    (documents : List LoginUserDocument) (t : SearchScreen) : Prop where
  sound : Sound c t
  device_eq : t.feed.device = device
  rows : t.feed.items = t.feed.org.filter (Search.visible device)
  page_eq : c.page t n = documents
  kept : n ∈ t.requests.waiting ∨ d.1 ∈ t.feed.org.map LoginUser.key

section Promised

variable {n : Nat} {d : LoginUserDocument} {documents : List LoginUserDocument}

private theorem promised_bindUser (h : Promised c device n d documents s) (hd : d ∈ documents)
    {callbackHandler : Outcome LoginUser → _} (observes : callbackHandler = Search.observeUser) :
    Promised c device n d documents (s.bindUser callbackHandler) := by
  have hn : n < s.requests.service.handles.listeners.length := by
    rw [← h.page_eq] at hd
    exact lt_of_mem_page hd
  refine ⟨sound_bindUser h.sound observes, ?_, ?_, (page_bindUser hn).trans h.page_eq, ?_⟩
  · rw [bindUser_feed]
    exact h.device_eq
  · rw [bindUser_feed]
    exact h.rows
  · rw [bindUser_feed]
    exact h.kept.imp_left waiting_bindUser

private theorem promised_delivered (h : Promised c device n d documents s) (hd : d ∈ documents)
    (parses : ∀ d ∈ documents, d.2.Parses) (m date : Nat) :
    Promised c device n d documents (s.answered m (.snapshot date (c.page s m))) := by
  by_cases hactive : s.requests.service.handles.Active m
  swap
  · rw [SearchScreen.answered_of_inactive hactive]
    exact h
  have hfeed := h.sound.feed_delivered hactive date
  refine ⟨sound_delivered h.sound m date, ?_, ?_, page_answered.trans h.page_eq, ?_⟩
  · rw [hfeed]
    split
    · exact received_device.trans h.device_eq
    · exact h.device_eq
  · rw [hfeed]
    split
    · rw [← h.device_eq]
      exact received_items
    · exact h.rows
  · rw [h.sound.keys_delivered hactive date, (SearchScreen.answered_requests hactive).2]
    rcases h.kept with hwaits | hheld
    · by_cases hm : n = m
      · subst hm
        refine .inr (.inl ⟨?_, ?_⟩)
        · rw [h.page_eq]
          exact parses
        · rw [h.page_eq]
          exact List.mem_map_of_mem hd
      · exact .inl (List.mem_filter.mpr ⟨hwaits, decide_eq_true hm⟩)
    · exact .inr (.inr hheld)

private theorem promised_step (h : Promised c device n d documents s) (hd : d ∈ documents)
    (parses : ∀ d ∈ documents, d.2.Parses) {e : Act} (hloop : InLoop s e)
    (hstep : c.step s e = some t) : Promised c device n d documents t := by
  cases e with
  | deliver m date =>
    obtain rfl := Option.some.inj hstep
    exact promised_delivered h hd parses m date
  | reloadData =>
    have hsound := sound_step h.sound hstep
    obtain ⟨_, hstep⟩ := Option.ite_none_left_eq_some.mp hstep
    obtain rfl := Option.some.inj hstep
    exact ⟨hsound, h.device_eq, h.rows, h.page_eq, h.kept⟩
  | willDisplayCell row =>
    obtain ⟨_, hstep⟩ := Option.ite_none_right_eq_some.mp hstep
    obtain rfl := Option.some.inj hstep
    have hshown : Promised c device n d documents { s with shown := row :: s.shown } :=
      ⟨sound_shown h.sound _, h.device_eq, h.rows, h.page_eq, h.kept⟩
    split
    · exact promised_bindUser hshown hd rfl
    · exact hshown
  | _ => exact absurd hloop id

private theorem promised_not_empty (h : Promised c device n d documents t) (hd : d ∈ c.active)
    (hmatch : Matches device d) (rest : Rest t) : t.feed.items ≠ [] := by
  have hheld : d.1 ∈ t.feed.org.map LoginUser.key := by
    refine h.kept.resolve_left fun hwaits => ?_
    rw [rest.answered] at hwaits
    cases hwaits
  obtain ⟨u, hu, hkey⟩ := List.mem_map.mp hheld
  obtain ⟨date, e, he, hparse⟩ := h.sound.held u hu
  have hid : e.1 = d.1 := (LoginUser.of_parsed hparse).1.symm.trans hkey
  obtain rfl : e = d := eq_of_id he hd hid
  have hrow : u ∈ t.feed.items := by
    rw [h.rows]
    exact List.mem_filter.mpr ⟨hu, visible_of_matches hmatch hparse⟩
  exact List.ne_nil_of_mem hrow

end Promised

private theorem complete_of_promising (h : Sound c s) (promising : Promising c s) :
    Complete c s := by
  obtain ⟨n, hwaits, hparses, d, hd, hmatch⟩ := (promising_iff h).mp promising
  have hstart : Promised c s.feed.device n d (c.page s.search n) s.search := by
    refine ⟨sound_search h, search_device, ?_, rfl, .inl hwaits⟩
    rw [search_feed]
    rfl
  intro t hreach rest hempty
  have hlast := hreach.keeps (P := Promised c s.feed.device n d (c.page s.search n))
    (fun s e t hs hloop hstep => promised_step hs hd hparses hloop hstep) hstart
  exact absurd hempty (promised_not_empty hlast ((sound_search h).mem_page hd) hmatch rest)

/-- Neither what is held nor what is awaited has a match, and the table is empty. -/
private structure Barren (c : Users) (device : Device) (t : SearchScreen) : Prop where
  sound : Sound c t
  device_eq : t.feed.device = device
  items : t.feed.items = []
  table : t.feed.table = []
  held : ∀ u ∈ t.feed.org, Search.visible device u = false
  awaited : ∀ n ∈ t.requests.waiting, (∀ d ∈ c.page t n, d.2.Parses) →
    ∀ d ∈ c.page t n, ¬ Matches device d

/-- Each awaited page is delivered once, and the pending reloads run. -/
private def Draining (s : SearchScreen) : Act → Prop
  | .deliver n _ => n ∈ s.requests.waiting
  | .reloadData => True
  | _ => False

/-- The page brings nobody who satisfies the criteria, so the handler returns early. -/
private theorem barren_observed (h : Barren c device s) {n date : Nat} {models : List LoginUser}
    (hn : n ∈ s.requests.waiting) (hmodels : loginUserModels date (c.page s n) = some models) :
    (∀ u ∈ (Search.observeUser (.ok models) s.feed).org, Search.visible device u = false) ∧
      (Search.observeUser (.ok models) s.feed).items = [] ∧
      Search.observeUser (.ok models) s.feed =
        (s.feed.merge LoginUser.key all newestUser models).filterBlock Search.visible := by
  have hparses := (loginUserModels_isSome date).mp (Option.isSome_iff_exists.mpr ⟨models, hmodels⟩)
  have hheld : ∀ u ∈ (Search.observeUser (.ok models) s.feed).org,
      Search.visible device u = false := by
    intro u hu
    rcases Option.or_eq_some_iff.mp (mem_received_org.mp hu).1 with hnew | ⟨_, hold⟩
    · obtain ⟨d, hd, hparse⟩ := mem_loginUserModels hmodels (mem_of_version hnew)
      refine Bool.eq_false_iff.mpr fun hvisible => ?_
      exact h.awaited n hn hparses d hd ⟨date, u, hparse, hvisible⟩
    · exact h.held u (mem_of_version hold)
  have hrows : (Search.observeUser (.ok models) s.feed).items =
      (Search.observeUser (.ok models) s.feed).org.filter (Search.visible s.feed.device) :=
    received_items
  have hitems : (Search.observeUser (.ok models) s.feed).items = [] := by
    rw [hrows, h.device_eq, List.filter_eq_nil_iff]
    exact fun u hu => Bool.eq_false_iff.mp (hheld u hu)
  refine ⟨hheld, hitems, received_of_length ?_⟩
  rw [h.items]
  exact (congrArg List.length hitems).symm

private theorem barren_delivered (h : Barren c device s) {n : Nat} (hn : n ∈ s.requests.waiting)
    (date : Nat) : Barren c device (s.answered n (.snapshot date (c.page s n))) ∧
      (s.answered n (.snapshot date (c.page s n))).feed.reloads = s.feed.reloads := by
  have hactive := h.sound.awaited n hn
  have hsound := sound_delivered h.sound n date
  have hrest : ∀ m ∈ (s.answered n (.snapshot date (c.page s n))).requests.waiting,
      (∀ d ∈ c.page (s.answered n (.snapshot date (c.page s n))) m, d.2.Parses) →
        ∀ d ∈ c.page (s.answered n (.snapshot date (c.page s n))) m, ¬ Matches device d := by
    intro m hm
    rw [(SearchScreen.answered_requests hactive).2] at hm
    rw [page_answered]
    exact h.awaited m (List.mem_filter.mp hm).1
  have hfeed := h.sound.feed_delivered hactive date
  rcases hmodels : loginUserModels date (c.page s n) with _ | models
  · rw [hmodels] at hfeed
    dsimp only at hfeed
    refine ⟨⟨hsound, ?_, ?_, ?_, ?_, hrest⟩, ?_⟩ <;> rw [hfeed]
    · exact h.device_eq
    · exact h.items
    · exact h.table
    · exact h.held
  rw [hmodels] at hfeed
  dsimp only at hfeed
  obtain ⟨hheld, hitems, hquiet⟩ := barren_observed h hn hmodels
  refine ⟨⟨hsound, ?_, ?_, ?_, ?_, hrest⟩, ?_⟩ <;> rw [hfeed]
  · exact received_device.trans h.device_eq
  · exact hitems
  · rw [hquiet]
    exact h.table
  · exact hheld
  · rw [hquiet]
    rfl

private theorem barren_reloaded (h : Barren c device s) (hstep : s.reloadData = some t) :
    Barren c device t ∧ t.feed.reloads + 1 = s.feed.reloads ∧
      t.requests.waiting = s.requests.waiting := by
  have hsound := sound_step h.sound (e := .reloadData) hstep
  obtain ⟨hpending, hstep⟩ := Option.ite_none_left_eq_some.mp hstep
  obtain rfl := Option.some.inj hstep
  refine ⟨⟨hsound, h.device_eq, h.items, h.items, h.held, h.awaited⟩, ?_, rfl⟩
  exact Nat.sub_add_cancel (Nat.pos_of_ne_zero hpending)

private def pending (s : SearchScreen) : Nat := s.requests.waiting.length + s.feed.reloads

private theorem barren_step (h : Barren c device s) {e : Act} (hdrains : Draining s e)
    (hstep : c.step s e = some t) : Barren c device t ∧ pending t < pending s := by
  cases e with
  | deliver n date =>
    obtain rfl := Option.some.inj hstep
    obtain ⟨hbarren, hreloads⟩ := barren_delivered h hdrains date
    refine ⟨hbarren, ?_⟩
    have hlt : (s.requests.waiting.filter fun m => m ≠ n).length < s.requests.waiting.length :=
      List.length_filter_lt_length_iff_exists.mpr ⟨n, hdrains, by simp⟩
    rw [pending, pending, hreloads,
      (SearchScreen.answered_requests (h.sound.awaited n hdrains)).2]
    omega
  | reloadData =>
    obtain ⟨hbarren, hreloads, hwaiting⟩ := barren_reloaded h hstep
    refine ⟨hbarren, ?_⟩
    rw [pending, pending, hwaiting]
    omega
  | _ => exact absurd hdrains id

private theorem barren_search (h : Sound c s) (hopeless : ¬ Promising c s) :
    Barren c s.feed.device s.search := by
  have hfeed := search_feed (s := s)
  refine ⟨sound_search h, search_device, ?_, ?_, ?_, fun n hn hparses d hd hmatch => ?_⟩
  · rw [hfeed]
    rfl
  · rw [hfeed]
    rfl
  · rw [hfeed]
    exact fun u hu => nomatch hu
  · exact hopeless ((promising_iff h).mpr ⟨n, hn, hparses, d, hd, hmatch⟩)

private theorem rest_of_halted (h : Barren c device t) (halted : Halted c.step Draining t) :
    Rest t := by
  have hwaiting : t.requests.waiting = [] := by
    by_contra hne
    obtain ⟨n, hn⟩ := List.exists_mem_of_ne_nil _ hne
    exact halted _ ⟨.deliver n 0, hn, rfl⟩
  have hreloads : t.feed.reloads = 0 := by
    by_contra hne
    exact halted _ ⟨.reloadData, trivial, if_neg hne⟩
  refine ⟨hwaiting, hreloads, fun row hrow => ?_⟩
  rw [h.table] at hrow
  exact absurd hrow (Nat.not_lt_zero row)

private theorem hopeless_stays_empty (h : Sound c s) (hopeless : ¬ Promising c s) :
    ∃ t, Reaches c.step InLoop s.search t ∧ Rest t ∧ t.feed.items = [] := by
  have hbarren := barren_search h hopeless
  have hrests : Rests c.step Draining s.search :=
    rests_of_rank Nat.lt_wfRel.wf pending
      (fun s e t hs hdrains hstep => (barren_step hs hdrains hstep).1)
      (fun s e t hs hdrains hstep => (barren_step hs hdrains hstep).2) hbarren
  obtain ⟨t, hreach, halted⟩ := hrests.halts
  have hlast := hreach.keeps (P := Barren c s.feed.device)
    (fun s e t hs hdrains hstep => (barren_step hs hdrains hstep).1) hbarren
  refine ⟨t, hreach.mono fun s e hdrains => ?_, rest_of_halted hlast halted, hlast.items⟩
  cases e with
  | deliver n date => trivial
  | reloadData => trivial
  | _ => exact absurd hdrains id

private theorem complete_iff (h : Sound c s) :
    Complete c s ↔ (∀ d ∈ c.active, ¬ Matches s.feed.device d) ∨ Promising c s := by
  constructor
  · intro hcomplete
    by_cases hpromising : Promising c s
    · exact .inr hpromising
    · obtain ⟨t, hreach, rest, hempty⟩ := hopeless_stays_empty h hpromising
      exact .inl (hcomplete t hreach rest hempty)
  · rintro (hnobody | hpromising)
    · exact fun _ _ _ _ => hnobody
    · exact complete_of_promising h hpromising

/-- From any state of the screen that a run leads to: a search that comes to rest with an empty
list has missed nobody exactly if nobody satisfies the criteria, or the first page or one that
is awaited when it starts has somebody who does. -/
theorem search_complete_iff (c : Users) (device : Device) (events : List Act) (s : SearchScreen)
    (h : run c.step (SearchScreen.viewDidLoad device) events = some s) :
    Complete c s ↔ (∀ d ∈ c.active, ¬ Matches s.feed.device d) ∨ Promising c s := by
  have hsound : Sound c s := run_invariant (P := Sound c) (fun _ _ _ hs => sound_step hs) h
    (sound_opened device)
  exact complete_iff hsound

end Completeness

section Example

/-- One user more than a page holds; the last one is the only woman. -/
private def user (n : Nat) : LoginUserDocument :=
  (toString n, {
    email := some ""
    password := some ""
    age := some 20
    sex := some (if n = 0 then 2 else 1)
    status := some 1
    lastLoginDate := some n
    createdAt := some n })

private def crowd : Users where
  dated := fun _ => true
  contents := {
    documents := (List.range 61).map user
    keyed := by decide +kernel }

private def women : Device := { uid := "alice", search := { sex := 2 } }

private def men : Device := { uid := "alice", search := { sex := 1 } }

/-- The first page has been delivered. -/
private def loaded (device : Device) : SearchScreen :=
  (SearchScreen.viewDidLoad device).answered 0
    (.snapshot 70 (crowd.page (SearchScreen.viewDidLoad device) 0))

private theorem run_loaded (device : Device) :
    run crowd.step (SearchScreen.viewDidLoad device) [.deliver 0 70] = some (loaded device) :=
  run_cons.mpr ⟨_, rfl, rfl⟩

/-- She is on the second page, which nothing asks for. -/
theorem search_misses_second_page : ¬ Complete crowd (loaded women) := by
  have hsound : Sound crowd (loaded women) :=
    sound_step (sound_opened women) (e := .deliver 0 70) rfl
  rw [complete_iff hsound]
  rintro (hnobody | hpromising)
  · have hmatch : ∃ d ∈ crowd.active, Matches (loaded women).feed.device d := by
      decide +kernel
    obtain ⟨d, hd, hmatch⟩ := hmatch
    exact hnobody d hd hmatch
  · have hnone : ¬ Promising crowd (loaded women) := by
      decide +kernel
    exact hnone hpromising

theorem search_complete_iff_men : run crowd.step (SearchScreen.viewDidLoad men) [.deliver 0 70] =
    some (loaded men) ∧ (Complete crowd (loaded men) ↔
      (∀ d ∈ crowd.active, ¬ Matches (loaded men).feed.device d) ∨ Promising crowd (loaded men)) :=
  ⟨run_loaded men, search_complete_iff crowd men [.deliver 0 70] (loaded men) (run_loaded men)⟩

/-- A search is started while the second page is loading. -/
private def hasty : List Act :=
  [.deliver 0 70, .reloadData, .willDisplayCell 59, .search, .deliver 1 71]

private theorem hasty_leaves_gap :
    ∃ t ∈ run crowd.step (SearchScreen.viewDidLoad { uid := "alice" }) hasty,
      t.requests.waiting = [] ∧ t.feed.org.map LoginUser.key = ["0"] ∧
        (ordered (loginUsers crowd.dated).rank crowd.active).head?.map Prod.fst = some "60" := by
  decide +kernel

/-- The first page is missing below the second. -/
theorem search_leaves_gap : ¬ Along crowd.step (PrefixAtRest crowd)
    (SearchScreen.viewDidLoad { uid := "alice" }) hasty := by
  intro h
  obtain ⟨t, ht, hwaiting, hkeys, hfirst⟩ := hasty_leaves_gap
  obtain ⟨m, hm⟩ := along_last (P := fun t => t.requests.waiting = [] → Prefix crowd t)
    (by simp [hasty]) h ht hwaiting
  obtain ⟨d, hhead, hid⟩ := Option.map_eq_some_iff.mp hfirst
  obtain ⟨rest, hordered⟩ := List.head?_eq_some_iff.mp hhead
  rw [hkeys, hordered] at hm
  cases m with
  | zero => exact absurd ((hm "0").mp List.mem_cons_self) (by simp)
  | succ m =>
    have hheld := (hm "60").mpr (by simp [hid])
    exact absurd hheld (by decide)

end Example

end PlateChat.Screen.SearchLoop
