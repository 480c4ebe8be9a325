/- PlateChat/Screen/Scrolling
   digest: The two profile screens, the sections of their tables, and what scrolling loads. -/

import PlateChat.Binding.Pages
import PlateChat.Foundation.Progress
import PlateChat.Screen.Merging

set_option autoImplicit false
set_option relaxedAutoImplicit false

/-!
Both screens list the articles of one user behind a profile; a user's page has the row of
the talk button in between. Both ask for the next page when the last row of section 1 is
displayed, which holds the articles on one of them only.
-/

namespace PlateChat.Screen.Scrolling

open PlateChat.Foundation.Listening PlateChat.Foundation.Merge PlateChat.Foundation.Paging
open PlateChat.Foundation.Progress PlateChat.Model.Members PlateChat.Model.Profile
open PlateChat.Binding.Services PlateChat.Binding.Removal PlateChat.Binding.Hosting
open PlateChat.Screen.Feeds PlateChat.Screen.Merging

inductive Profile
  | userDetail
  | myProfile
  deriving DecidableEq

structure IndexPath where
  inSection : Nat
  row : Nat
  deriving DecidableEq

/-- A screen is its service; the lists are what the service's callbacks write to. -/
abbrev ProfileScreen := ArticleService (Feed Article)

namespace Profile

def numberOfSections : Profile → Nat
  | .userDetail => 3
  | .myProfile => 2

def numberOfRows (p : Profile) (articles : List Article) (inSection : Nat) : Nat :=
  match p with
  | .userDetail =>
    match inSection with
    | 0 => 1
    | 1 => 1
    | _ => articles.length
  | .myProfile => if inSection = 0 then 1 else articles.length

/-- The section that lists the articles is the last one. -/
def articleSection (p : Profile) : Nat := p.numberOfSections - 1

/-- The row is there, as far as the table has been told. -/
def HasRow (p : Profile) (s : ProfileScreen) (i : IndexPath) : Prop :=
  i.inSection < p.numberOfSections ∧ i.row < p.numberOfRows s.lists.table i.inSection

instance (p : Profile) (s : ProfileScreen) (i : IndexPath) : Decidable (p.HasRow s i) :=
  inferInstanceAs (Decidable (_ ∧ _))

def callback : Profile → Outcome Article → Feed Article → Feed Article
  | .userDetail => UserDetail.observeArticle
  | .myProfile => MyProfile.observeArticle

def observeArticle (p : Profile) (uid : Uid) (s : ProfileScreen) : ProfileScreen :=
  ArticleService.bindUidArticle s uid p.callback

def isEndOfSections (s : ProfileScreen) (i : IndexPath) : Prop := i.row = lastIndex s.lists.items

instance (s : ProfileScreen) (i : IndexPath) : Decidable (isEndOfSections s i) :=
  inferInstanceAs (Decidable (_ = _))

/-- A row comes into sight. -/
def willDisplayCell (p : Profile) (uid : Uid) (s : ProfileScreen) (i : IndexPath) :
    Option ProfileScreen :=
  if p.HasRow s i then
    some (if i.inSection = 1 ∧ isEndOfSections s i then p.observeArticle uid s else s)
  else none

def viewDidLoad (p : Profile) (uid : Uid) (device : Device) : ProfileScreen :=
  p.observeArticle uid { lists := { device := device } }

/-- One's own articles are asked for while there are none, another user's each time. -/
def viewWillAppear (p : Profile) (uid : Uid) (s : ProfileScreen) : ProfileScreen :=
  match p with
  | .userDetail => p.observeArticle uid { s with lists := UserDetail.viewWillAppear s.lists }
  | .myProfile =>
    let s := { s with lists := MyProfile.viewWillAppear s.lists }
    if s.lists.items.length = 0 then p.observeArticle uid s else s

/-- The screen as it first appears. -/
def appeared (p : Profile) (uid : Uid) (device : Device) : ProfileScreen :=
  p.viewWillAppear uid (p.viewDidLoad uid device)

/-- A reload that waits on the main queue runs. -/
def reloadData (s : ProfileScreen) : Option ProfileScreen :=
  if s.lists.reloads = 0 then none
  else some { s with lists := { s.lists.reloadData with reloads := s.lists.reloads - 1 } }

/-- The profile that only a user's page fetches arrives. -/
def userInfo (p : Profile) (s : ProfileScreen) : Option ProfileScreen :=
  match p with
  | .userDetail => some { s with lists := UserDetail.userInfo s.lists }
  | .myProfile => none

end Profile

/-- The articles of a user: they stay as they are, and the active ones can be read. -/
structure Articles (uid : Uid) where
  dated : ArticleDocument → Bool
  contents : Contents Nat ArticleDoc
  readable : ∀ d ∈ (articles dated).selected (articleQuery [("uid", .string uid)] none)
    contents.documents, d.2.Parses

namespace Articles

variable {uid : Uid} (c : Articles uid)

/-- The active articles, of which the query of `bindUidArticle` gives pages. -/
def active : List ArticleDocument :=
  (articles c.dated).selected (articleQuery [("uid", .string uid)] none) c.contents.documents

/-- From the newest on. -/
def inOrder : List ArticleDocument := ordered (articles c.dated).rank c.active

/-- The one snapshot of the page that is loading. -/
def deliver (s : ProfileScreen) (date : Nat) : Option ProfileScreen :=
  let n := s.handles.listeners.length - 1
  if s.status = .loading then
    some (articlePager.api.deliver s n
      (.snapshot date (articlePager.found (articles c.dated) c.contents.documents s n)))
  else none

end Articles

inductive Act
  | viewWillAppear
  | willDisplayCell (i : IndexPath)
  | reloadData
  | userInfo
  | deliver (date : Nat)
  deriving DecidableEq

def Act.delivers : Act → Bool
  | .deliver _ => true
  | _ => false

section Steps

variable {uid : Uid} (p : Profile) (c : Articles uid)

def step (s : ProfileScreen) : Act → Option ProfileScreen
  | .viewWillAppear => some (p.viewWillAppear uid s)
  | .willDisplayCell i => p.willDisplayCell uid s i
  | .reloadData => Profile.reloadData s
  | .userInfo => p.userInfo s
  | .deliver date => c.deliver s date

/-- The screen's life from its first appearance on. -/
abbrev Life (device : Device) := Execution (step p c) (p.appeared uid device)

/-- The last article of the table is displayed, if it shows any. -/
def ShowsLast (s : ProfileScreen) (v : Act) : Prop :=
  s.lists.table = [] ∨ v = .willDisplayCell ⟨p.articleSection, s.lists.table.length - 1⟩

/-- The reader scrolls down to the last article again and again; what is asked for is
answered, and reloads run. -/
structure Scrolls {device : Device} (x : Life p c device) : Prop where
  answered : LeadsTo (fun k => (x.states k).status = .loading) fun k =>
    (x.events k).delivers = true
  reloaded : LeadsTo (fun k => (x.states k).lists.reloads ≠ 0) fun k => x.events k = .reloadData
  shown : ∀ k, ∃ j, k ≤ j ∧ ShowsLast p (x.states j) (x.events j)

end Steps

/-- All active articles are in the list. -/
def Complete {uid : Uid} (c : Articles uid) (s : ProfileScreen) : Prop :=
  ∀ d ∈ c.active, d.1 ∈ s.lists.items.map Article.key

/-- After `m` pages: the cursor stands behind the last of them, and what has been delivered is
held; the page that is loading is the next one, and a table that knows no reload to wait for
has the rows of the list. -/
structure Paged {uid : Uid} (p : Profile) (c : Articles uid) (m : Nat) (s : ProfileScreen) :
    Prop where
  stands : StandsAt (articles c.dated).rank 30 c.active (m % lap 30 c.active.length)
    (s.cursors .lastUidArticle)
  held : (s.lists.items.map Article.key).Perm ((c.inOrder.take (m * 30)).map Prod.fst)
  live : ∀ a ∈ s.lists.items, active a = true
  awaited : s.status = .loading → s.handles.Active (s.handles.listeners.length - 1) ∧
    articlePager.pageOf s (s.handles.listeners.length - 1) = some {
      query := articleQuery [("uid", .string uid)] (s.cursors .lastUidArticle)
      cursor := some .lastUidArticle
      callbackHandler := p.callback }
  told : s.lists.reloads = 0 → s.lists.table.length = s.lists.items.length

section Paged

variable {uid : Uid} {p : Profile} {c : Articles uid} {m : Nat} {s : ProfileScreen}

theorem active_keyed : (c.active.map Prod.fst).Nodup :=
  (articles c.dated).selected_keyed _ c.contents

theorem active_distinct : (c.active.map (articles c.dated).rank).Nodup :=
  (articles c.dated).selected_distinct _ c.contents

theorem inOrder_keyed : (c.inOrder.map Prod.fst).Nodup :=
  ((ordered_perm : c.inOrder.Perm c.active).map Prod.fst).nodup_iff.mpr active_keyed

theorem taken_keyed (k : Nat) : ((c.inOrder.take k).map Prod.fst).Nodup :=
  inOrder_keyed.sublist ((List.take_sublist _ _).map _)

theorem length_inOrder : c.inOrder.length = c.active.length := length_ordered

theorem Paged.length (h : Paged p c m s) :
    s.lists.items.length = min (m * 30) c.active.length := by
  have hlen := h.held.length_eq
  rwa [List.length_map, List.length_map, List.length_take, length_inOrder] at hlen

theorem Paged.complete_iff (h : Paged p c m s) : Complete c s ↔ c.active.length ≤ m * 30 := by
  constructor
  · intro hall
    have hsub : (c.active.map Prod.fst).Subperm (s.lists.items.map Article.key) := by
      refine List.subperm_of_subset active_keyed fun k hk => ?_
      obtain ⟨d, hd, rfl⟩ := List.mem_map.mp hk
      exact hall d hd
    have hle := hsub.length_le
    rw [List.length_map, List.length_map, h.length] at hle
    omega
  · intro hle d hd
    have hfull : c.inOrder.take (m * 30) = c.inOrder :=
      List.take_of_length_le (by rwa [length_inOrder])
    rw [h.held.mem_iff, hfull]
    exact List.mem_map_of_mem (mem_ordered.mpr hd)

theorem Paged.keys_of_complete (h : Paged p c m s) (all : Complete c s) (k : Nat) :
    k ∈ s.lists.items.map Article.key ↔ k ∈ c.active.map Prod.fst := by
  constructor
  · intro hk
    rw [h.held.mem_iff] at hk
    obtain ⟨d, hd, rfl⟩ := List.mem_map.mp hk
    exact List.mem_map_of_mem (mem_ordered.mp (List.mem_of_mem_take hd))
  · intro hk
    obtain ⟨d, hd, rfl⟩ := List.mem_map.mp hk
    exact all d hd

/-- Only the list of the table changes, and what waits for a reload. -/
theorem Paged.feed (h : Paged p c m s) (f : Feed Article) (items : f.items = s.lists.items)
    (told : f.reloads = 0 → f.table.length = s.lists.items.length) :
    Paged p c m { s with lists := f } where
  stands := h.stands
  held := by
    show (f.items.map Article.key).Perm _
    rw [items]
    exact h.held
  live := by
    show ∀ a ∈ f.items, active a = true
    rw [items]
    exact h.live
  awaited := h.awaited
  told := by
    show f.reloads = 0 → f.table.length = f.items.length
    rw [items]
    exact told

theorem lists_observe : (p.observeArticle uid s).lists = s.lists := by
  unfold Profile.observeArticle ArticleService.bindUidArticle Service.bind
  split <;> rfl

theorem Paged.observe (h : Paged p c m s) :
    Paged p c m (p.observeArticle uid s) ∧ (p.observeArticle uid s).status = .loading := by
  unfold Profile.observeArticle ArticleService.bindUidArticle Service.bind
  split
  · rename_i hloading
    exact ⟨h, hloading⟩
  · refine ⟨⟨h.stands, h.held, h.live, fun _ => ?_, h.told⟩, rfl⟩
    dsimp only
    rw [Handles.length_register, Nat.add_sub_cancel]
    refine ⟨Handles.active_register.mpr (.inl rfl), ?_⟩
    rw [Pager.pageOf, Handles.queryOf_register_self]
    rfl

theorem status_of_active {d : ArticleDocument} (hd : d ∈ c.active) : d.2.status = some 1 := by
  have hselected := (List.mem_filter.mp hd).2
  simp only [Collection.selects, articleQuery, articles, List.singleton_append, List.all_cons,
    List.all_nil, Bool.and_true, Bool.and_eq_true, decide_eq_true_eq] at hselected
  obtain ⟨status, hstatus, hone⟩ := Option.map_eq_some_iff.mp hselected.2.2
  rw [hstatus]
  exact congrArg some (FieldValue.int.inj hone)

theorem articleModels_of_active (date : Nat) {documents : List ArticleDocument}
    (sub : ∀ d ∈ documents, d ∈ c.active) :
    ∃ models, articleModels date documents = some models ∧
      (∀ a ∈ models, active a = true) ∧
      ∀ k, k ∈ models.map Article.key ↔ k ∈ documents.map Prod.fst := by
  obtain ⟨read, hread⟩ : ∃ read, parseAll (Article.ofDocument date) documents = .ok read :=
    Article.parseAll_iff.mpr fun d hd => c.readable d (sub d hd)
  have hkeys : read.map Article.key = documents.map Prod.fst :=
    map_parseAll (fun _ _ ha => (Article.status_of_parsed ha).1) hread
  have hlive : ∀ a ∈ read, a.status = 1 := by
    intro a ha
    obtain ⟨d, hd, hparsed⟩ := mem_parseAll hread ha
    have hstatus := (Article.status_of_parsed hparsed).2
    rw [status_of_active (sub d hd)] at hstatus
    exact (Option.some.inj hstatus).symm
  have hsame : ∀ a, a ∈ (read.insertionSort fun a b => b.createdDate ≤ a.createdDate).filter
      (fun article => article.status = 1) ↔ a ∈ read := by
    intro a
    rw [List.mem_filter, List.mem_insertionSort, decide_eq_true_eq]
    exact and_iff_left_of_imp (hlive a)
  refine ⟨_, by rw [articleModels, hread], fun a ha => ?_, fun k => ?_⟩
  · exact decide_eq_true (hlive a ((hsame a).mp ha))
  · rw [← hkeys]
    simp only [List.mem_map, hsame]

theorem callback_items (p : Profile) (models : List Article) (f : Feed Article) :
    (p.callback (.ok models) f).items =
      ((unique Article.key (models ++ f.items)).filter active).insertionSort newestFirst ∧
    ((p.callback (.ok models) f).reloads = 0 → f.reloads = 0 ∧
      f.items.length = (p.callback (.ok models) f).items.length) ∧
    (p.callback (.ok models) f).table = f.table := by
  have hcallback : p.callback (.ok models) f =
      f.single.received Article.key active newestFirst (fun _ => all) models := by
    cases p <;> rfl
  have hall : ∀ l : List Article, l.filter all = l := fun l => List.filter_eq_self.mpr fun _ _ => rfl
  rw [hcallback]
  refine ⟨?_, ?_, ?_⟩
  · rw [received_items, hall, received_org]
    rfl
  · unfold Feed.received
    dsimp only
    split
    · rename_i hsame
      exact fun hreloads => ⟨hreloads, hsame⟩
    · exact fun hreloads => absurd hreloads (Nat.succ_ne_zero _)
  · unfold Feed.received
    dsimp only
    split <;> rfl

/-- The next page. -/
def nextPage (c : Articles uid) (m : Nat) : List ArticleDocument :=
  slice (articles c.dated).rank 30 (m % lap 30 c.active.length) c.active

theorem mem_nextPage {d : ArticleDocument} (h : d ∈ nextPage c m) : d ∈ c.active :=
  mem_ordered.mp (List.mem_of_mem_drop (List.mem_of_mem_take h))

theorem Paged.deliver_eq (h : Paged p c m s) (date : Nat) (loading : s.status = .loading) :
    ∃ models, (∀ a ∈ models, active a = true) ∧
      (∀ k, k ∈ models.map Article.key ↔ k ∈ (nextPage c m).map Prod.fst) ∧
      c.deliver s date = some { s with
        cursors := Function.update s.cursors .lastUidArticle (nextPage c m).getLast?
        status := .done
        lists := p.callback (.ok models) s.lists } := by
  obtain ⟨hactive, hpage⟩ := h.awaited loading
  obtain ⟨models, hmodels, hlive, hkeys⟩ := articleModels_of_active (c := c) date
    fun d hd => mem_nextPage (m := m) hd
  have hfound : articlePager.found (articles c.dated) c.contents.documents s
      (s.handles.listeners.length - 1) = nextPage c m := by
    rw [articlePager.found_of_page _ hpage, nextPage, ← h.stands.page_eq]
    exact (articles c.dated).fetch_of_limit rfl _
  refine ⟨models, hlive, hkeys, ?_⟩
  unfold Articles.deliver
  dsimp only
  rw [if_pos loading, hfound, articlePager.deliver_of_page hactive hpage, Pager.told]
  show some (Service.receive articleModels _ s _) = _
  unfold Service.receive
  dsimp only
  rw [hmodels]

theorem Paged.deliver (h : Paged p c m s) {date : Nat} {s' : ProfileScreen}
    (hdeliver : c.deliver s date = some s') :
    s.status = .loading ∧ Paged p c (m + 1) s' ∧ s'.status ≠ .loading ∧
      (s'.lists.reloads = 0 → s.lists.reloads = 0) := by
  have hloading : s.status = .loading := by
    by_contra hidle
    unfold Articles.deliver at hdeliver
    rw [if_neg hidle] at hdeliver
    cases hdeliver
  obtain ⟨models, hlive, hkeys, heq⟩ := h.deliver_eq date hloading
  obtain rfl := Option.some.inj (heq.symm.trans hdeliver)
  obtain ⟨hitems, hreloads, htable⟩ := callback_items p models s.lists
  have hall : ∀ a ∈ unique Article.key (models ++ s.lists.items), active a = true := by
    intro a ha
    rcases List.mem_append.mp (mem_of_version (mem_unique.mp ha)) with ha | ha
    · exact hlive a ha
    · exact h.live a ha
  have hkept : (unique Article.key (models ++ s.lists.items)).filter active =
      unique Article.key (models ++ s.lists.items) := List.filter_eq_self.mpr hall
  rw [hkept] at hitems
  refine ⟨hloading, ⟨?_, ?_, ?_, ?_, ?_⟩, fun hstatus => (by cases hstatus),
    fun hnone => (hreloads hnone).1⟩
  · show StandsAt (articles c.dated).rank 30 c.active ((m + 1) % lap 30 c.active.length)
      (Function.update s.cursors .lastUidArticle (nextPage c m).getLast? .lastUidArticle)
    rw [Function.update_self, nextPage, ← h.stands.page_eq]
    exact h.stands.load active_distinct (by decide)
  · show ((p.callback (.ok models) s.lists).items.map Article.key).Perm _
    rw [hitems]
    have hperm := (List.perm_insertionSort newestFirst
      (unique Article.key (models ++ s.lists.items))).map Article.key
    have hkeyed : ((unique Article.key (models ++ s.lists.items)).map Article.key).Nodup :=
      keyed_unique Article.key _
    refine hperm.trans ((List.perm_ext_iff_of_nodup hkeyed (taken_keyed _)).mpr fun k => ?_)
    rw [mem_keys_unique, List.map_append, List.mem_append, hkeys, h.held.mem_iff]
    simp only [List.mem_map, Articles.inOrder, nextPage,
      mem_take_load (by decide : 0 < 30), or_and_right, exists_or]
  · show ∀ a ∈ (p.callback (.ok models) s.lists).items, active a = true
    rw [hitems]
    intro a ha
    exact hall a ((List.mem_insertionSort _).mp ha)
  · intro hstatus
    cases hstatus
  · show (p.callback (.ok models) s.lists).reloads = 0 →
      (p.callback (.ok models) s.lists).table.length = _
    intro hnone
    obtain ⟨hbefore, hsame⟩ := hreloads hnone
    rw [htable, h.told hbefore]
    exact hsame

theorem Paged.idle_of_delivers (h : Paged p c m s) {v : Act} {s' : ProfileScreen}
    (delivers : v.delivers = true) (hstep : Scrolling.step p c s v = some s') :
    s'.status ≠ .loading := by
  cases v with
  | deliver date => exact (h.deliver hstep).2.2.1
  | viewWillAppear => cases delivers
  | willDisplayCell i => cases delivers
  | reloadData => cases delivers
  | userInfo => cases delivers

/-- Whatever happens, the pages that have come are held. -/
theorem Paged.step (h : Paged p c m s) {v : Act} {s' : ProfileScreen}
    (hstep : Scrolling.step p c s v = some s') :
    Paged p c (m + if v.delivers then 1 else 0) s' := by
  cases v with
  | deliver date => exact (h.deliver hstep).2.1
  | viewWillAppear =>
    obtain rfl := Option.some.inj hstep
    have hfeed : Paged p c m { s with lists := s.lists.reloadData } :=
      h.feed s.lists.reloadData rfl fun _ => rfl
    show Paged p c m (p.viewWillAppear uid s)
    cases p with
    | userDetail => exact hfeed.observe.1
    | myProfile =>
      unfold Profile.viewWillAppear
      dsimp only
      split
      · exact hfeed.observe.1
      · exact hfeed
  | willDisplayCell i =>
    simp only [Scrolling.step, Profile.willDisplayCell, Option.ite_none_right_eq_some] at hstep
    obtain ⟨_, hstep⟩ := hstep
    obtain rfl := Option.some.inj hstep
    show Paged p c m _
    split
    · exact h.observe.1
    · exact h
  | reloadData =>
    simp only [Scrolling.step, Profile.reloadData, Option.ite_none_left_eq_some] at hstep
    obtain ⟨_, hstep⟩ := hstep
    obtain rfl := Option.some.inj hstep
    exact h.feed _ rfl fun _ => rfl
  | userInfo =>
    cases p with
    | myProfile => cases hstep
    | userDetail =>
      obtain rfl := Option.some.inj hstep
      exact h.feed s.lists.reloadData rfl fun _ => rfl

theorem loading_step (loading : s.status = .loading) {v : Act} {s' : ProfileScreen}
    (hstep : Scrolling.step p c s v = some s') : v.delivers = true ∨ s'.status = .loading := by
  have hasks : ∀ t : ProfileScreen, t.status = .loading →
      (p.observeArticle uid t).status = .loading := by
    intro t ht
    unfold Profile.observeArticle ArticleService.bindUidArticle Service.bind
    rw [if_pos ht]
    exact ht
  cases v with
  | deliver date => exact .inl rfl
  | viewWillAppear =>
    obtain rfl := Option.some.inj hstep
    right
    unfold Profile.viewWillAppear
    cases p with
    | userDetail => exact hasks _ loading
    | myProfile =>
      dsimp only
      split
      · exact hasks _ loading
      · exact loading
  | willDisplayCell i =>
    simp only [Scrolling.step, Profile.willDisplayCell, Option.ite_none_right_eq_some] at hstep
    obtain ⟨_, hstep⟩ := hstep
    obtain rfl := Option.some.inj hstep
    right
    split
    · exact hasks _ loading
    · exact loading
  | reloadData =>
    simp only [Scrolling.step, Profile.reloadData, Option.ite_none_left_eq_some] at hstep
    obtain ⟨_, hstep⟩ := hstep
    obtain rfl := Option.some.inj hstep
    exact .inr loading
  | userInfo =>
    cases p with
    | myProfile => cases hstep
    | userDetail =>
      obtain rfl := Option.some.inj hstep
      exact .inr loading

/-- An idle screen starts to load when it appears again, or by the last row of section 1;
until then it waits for fewer and fewer reloads. -/
theorem idle_step (idle : s.status ≠ .loading) {v : Act} {s' : ProfileScreen}
    (hstep : Scrolling.step p c s v = some s') :
    v.delivers = false ∧ s'.lists.items = s.lists.items ∧
    s'.lists.reloads ≤ s.lists.reloads ∧
    (v = .reloadData → s'.lists.reloads < s.lists.reloads) ∧
    (s'.status = .loading → v = .viewWillAppear ∨ ∃ i, v = .willDisplayCell i ∧
      i.inSection = 1 ∧ p.HasRow s i ∧ Profile.isEndOfSections s i) := by
  cases v with
  | deliver date =>
    simp only [Scrolling.step, Articles.deliver, if_neg idle] at hstep
    cases hstep
  | viewWillAppear =>
    obtain rfl := Option.some.inj hstep
    have hlists : (p.viewWillAppear uid s).lists = s.lists.reloadData := by
      unfold Profile.viewWillAppear
      cases p with
      | userDetail => exact lists_observe
      | myProfile =>
        dsimp only
        split
        · exact lists_observe
        · rfl
    rw [hlists]
    exact ⟨rfl, rfl, le_refl _, fun h => (by cases h), fun _ => .inl rfl⟩
  | willDisplayCell i =>
    simp only [Scrolling.step, Profile.willDisplayCell, Option.ite_none_right_eq_some] at hstep
    obtain ⟨hrow, hstep⟩ := hstep
    obtain rfl := Option.some.inj hstep
    by_cases hlast : i.inSection = 1 ∧ Profile.isEndOfSections s i
    · rw [if_pos hlast, lists_observe]
      exact ⟨rfl, rfl, le_refl _, fun h => (by cases h),
        fun _ => .inr ⟨i, rfl, hlast.1, hrow, hlast.2⟩⟩
    · rw [if_neg hlast]
      exact ⟨rfl, rfl, le_refl _, fun h => (by cases h), fun hloading => absurd hloading idle⟩
  | reloadData =>
    simp only [Scrolling.step, Profile.reloadData, Option.ite_none_left_eq_some] at hstep
    obtain ⟨hsome, hstep⟩ := hstep
    obtain rfl := Option.some.inj hstep
    have hless : s.lists.reloads - 1 < s.lists.reloads := by omega
    exact ⟨rfl, rfl, le_of_lt hless, fun _ => hless, fun hloading => absurd hloading idle⟩
  | userInfo =>
    cases p with
    | myProfile => cases hstep
    | userDetail =>
      obtain rfl := Option.some.inj hstep
      exact ⟨rfl, rfl, le_refl _, fun h => (by cases h), fun hloading => absurd hloading idle⟩

theorem paged_appeared (p : Profile) (c : Articles uid) (device : Device) :
    Paged p c 0 (p.appeared uid device) ∧ (p.appeared uid device).status = .loading := by
  have hempty : Paged p c 0 { lists := { device := device } } := by
    constructor
    · rw [Nat.zero_mod]
      exact standsAt_none
    · rw [Nat.zero_mul]
      exact List.Perm.refl _
    · intro a ha
      exact absurd ha List.not_mem_nil
    · intro hloading
      cases hloading
    · exact fun _ => rfl
  obtain ⟨hpaged, hloading⟩ := hempty.observe
  have hfeed := hpaged.feed (p.viewDidLoad uid device).lists.reloadData rfl fun _ => rfl
  unfold Profile.appeared Profile.viewWillAppear
  cases p with
  | userDetail => exact hfeed.observe
  | myProfile =>
    dsimp only
    split
    · exact hfeed.observe
    · exact ⟨hfeed, hloading⟩

end Paged

section Lives

variable {uid : Uid} {p : Profile} {c : Articles uid} {device : Device}

/-- How many pages have come before the `k`-th event. -/
def pages (x : Life p c device) : ℕ → ℕ := x.count Act.delivers

theorem paged (x : Life p c device) (k : ℕ) : Paged p c (pages x k) (x.states k) := by
  induction k with
  | zero =>
    rw [x.starts]
    exact (paged_appeared p c device).1
  | succ k ih => exact ih.step (x.steps k)

theorem first_page {x : Life p c device} (scrolls : Scrolls p c x) : ∃ k, 1 ≤ pages x k := by
  have hloading : (x.states 0).status = .loading := by
    rw [x.starts]
    exact (paged_appeared p c device).2
  obtain ⟨j, _, hj⟩ := scrolls.answered 0 hloading
  refine ⟨j + 1, ?_⟩
  show 1 ≤ x.count Act.delivers j + if (x.events j).delivers = true then 1 else 0
  rw [if_pos hj]
  exact Nat.le_add_left 1 _

theorem idle_persists {x : Life p c device} {k : ℕ} (idle : (x.states k).status ≠ .loading) :
    (x.states (k + 1)).status = .loading ∨ (x.states (k + 1)).status ≠ .loading ∧
      (x.states (k + 1)).lists.reloads ≤ (x.states k).lists.reloads :=
  (em _).imp_right fun hidle => ⟨hidle, (idle_step idle (x.steps k)).2.2.1⟩

theorem reloads_run {x : Life p c device} (scrolls : Scrolls p c x) :
    LeadsTo (fun k => (x.states k).status ≠ .loading) fun k =>
      (x.states k).status = .loading ∨
        (x.states k).status ≠ .loading ∧ (x.states k).lists.reloads = 0 := by
  refine LeadsTo.of_rank (fun k => (x.states k).lists.reloads) fun n => ?_
  rcases Nat.eq_zero_or_pos n with rfl | hpos
  · exact LeadsTo.of_imp fun k h => .inl (.inr h)
  · have huntil := LeadsTo.of_until
      (p := fun k => (x.states k).status ≠ .loading ∧ (x.states k).lists.reloads = n)
      (q := fun k => (x.states (k + 1)).status = .loading ∨
        (x.states (k + 1)).status ≠ .loading ∧ (x.states (k + 1)).lists.reloads < n)
      (e := fun k => x.events k = .reloadData)
      (fun k ⟨hidle, hn⟩ => by
        rcases idle_persists hidle with hloading | ⟨hidle', hle⟩
        · exact .inl (.inl hloading)
        · rw [hn] at hle
          rcases lt_or_eq_of_le hle with hless | heq
          · exact .inl (.inr ⟨hidle', hless⟩)
          · exact .inr ⟨hidle', heq⟩)
      (fun k ⟨_, hn⟩ => scrolls.reloaded k fun hnone => Nat.ne_of_gt hpos (hn.symm.trans hnone))
    intro k hk
    obtain ⟨j, hkj, hnext | ⟨⟨hidle, hn⟩, hreload⟩⟩ := huntil k hk
    · exact ⟨j + 1, by omega, hnext.imp .inl id⟩
    · have hless := (idle_step hidle (x.steps j)).2.2.2.1 hreload
      rw [hn] at hless
      rcases idle_persists hidle with hloading | ⟨hidle', _⟩
      · exact ⟨j + 1, by omega, .inl (.inl hloading)⟩
      · exact ⟨j + 1, by omega, .inr ⟨hidle', hless⟩⟩

theorem last_row_loads {s s' : ProfileScreen} {m : Nat} {v : Act} (h : Paged .myProfile c m s)
    (some' : s.lists.items ≠ []) (reloads : s.lists.reloads = 0)
    (shown : ShowsLast .myProfile s v) (hstep : step .myProfile c s v = some s') :
    s'.status = .loading := by
  have hlen := h.told reloads
  have hpos := List.length_pos_iff.mpr some'
  rcases shown with hempty | rfl
  · rw [hempty] at hlen
    exact absurd hlen.symm (Nat.ne_of_gt hpos)
  · simp only [step, Profile.willDisplayCell, Option.ite_none_right_eq_some] at hstep
    obtain ⟨_, hstep⟩ := hstep
    have hend : (Profile.myProfile.articleSection = 1) ∧ Profile.isEndOfSections s
        ⟨Profile.myProfile.articleSection, s.lists.table.length - 1⟩ := by
      refine ⟨rfl, ?_⟩
      unfold Profile.isEndOfSections lastIndex
      rw [if_neg (Nat.ne_of_gt hpos), hlen]
    rw [if_pos hend] at hstep
    obtain rfl := Option.some.inj hstep
    exact h.observe.2

/-- With an article held, an idle screen of one's own comes to load. -/
theorem idle_loads {x : Life .myProfile c device} (scrolls : Scrolls .myProfile c x)
    (some' : c.active ≠ []) :
    LeadsTo (fun k => (x.states k).status ≠ .loading ∧ 1 ≤ pages x k)
      fun k => (x.states k).status = .loading := by
  have hstays : ∀ k, 1 ≤ pages x k → 1 ≤ pages x (k + 1) :=
    fun k h => h.trans (x.count_mono Act.delivers (Nat.le_succ k))
  have hquiet : LeadsTo
      (fun k => (x.states k).status ≠ .loading ∧ 1 ≤ pages x k)
      fun k => (x.states k).status = .loading ∨
        ((x.states k).status ≠ .loading ∧ (x.states k).lists.reloads = 0) ∧ 1 ≤ pages x k := by
    rintro k ⟨hidle, hpages⟩
    obtain ⟨j, hkj, hj⟩ := reloads_run scrolls k hidle
    exact ⟨j, hkj, hj.imp_right fun h => ⟨h, hpages.trans (x.count_mono Act.delivers hkj)⟩⟩
  have hlast := LeadsTo.of_until
    (p := fun k => ((x.states k).status ≠ .loading ∧ (x.states k).lists.reloads = 0) ∧
      1 ≤ pages x k)
    (q := fun k => (x.states (k + 1)).status = .loading)
    (e := fun k => ShowsLast .myProfile (x.states k) (x.events k))
    (fun k ⟨⟨hidle, hnone⟩, hpages⟩ => by
      refine (idle_persists hidle).imp_right fun ⟨hidle', hle⟩ => ?_
      rw [hnone] at hle
      exact ⟨⟨hidle', Nat.le_zero.mp hle⟩, hstays k hpages⟩)
    (fun k _ => scrolls.shown k)
  intro k hk
  obtain ⟨i, hki, hloading | hready⟩ := hquiet k hk
  · exact ⟨i, hki, hloading⟩
  · obtain ⟨j, hij, hloading | ⟨⟨⟨_, hnone⟩, hpages⟩, hshown⟩⟩ := hlast i hready
    · exact ⟨j + 1, by omega, hloading⟩
    · have hheld : (x.states j).lists.items ≠ [] := by
        have hlen := (paged x j).length
        have hpos := List.length_pos_iff.mpr some'
        rw [← List.length_pos_iff]
        omega
      exact ⟨j + 1, by omega, last_row_loads (paged x j) hheld hnone hshown (x.steps j)⟩

theorem pages_unbounded {x : Life .myProfile c device} (scrolls : Scrolls .myProfile c x)
    (some' : c.active ≠ []) (m : ℕ) : ∃ k, m ≤ pages x k := by
  obtain ⟨first, hfirst⟩ := first_page scrolls
  refine x.count_unbounded (fun k => ?_) m
  -- a later moment with a page behind it
  have hpages : 1 ≤ pages x (max k first) :=
    hfirst.trans (x.count_mono Act.delivers (le_max_right k first))
  obtain ⟨i, hki, hloading⟩ : ∃ i, max k first ≤ i ∧ (x.states i).status = .loading := by
    by_cases hidle : (x.states (max k first)).status = .loading
    · exact ⟨_, le_refl _, hidle⟩
    · exact idle_loads scrolls some' _ ⟨hidle, hpages⟩
  obtain ⟨j, hij, hj⟩ := scrolls.answered i hloading
  exact ⟨j, ((le_max_left k first).trans hki).trans hij, hj⟩

theorem own_complete {x : Life .myProfile c device} (scrolls : Scrolls .myProfile c x) :
    ∃ N, ∀ k, N ≤ k → Complete c (x.states k) := by
  by_cases hnone : c.active = []
  · refine ⟨0, fun k _ d hd => ?_⟩
    rw [hnone] at hd
    exact absurd hd List.not_mem_nil
  · obtain ⟨N, hN⟩ := pages_unbounded scrolls hnone c.active.length
    refine ⟨N, fun k hk => (paged x k).complete_iff.mpr ?_⟩
    have hmono := hN.trans (x.count_mono Act.delivers hk)
    have hpages : c.active.length ≤ pages x k := hmono
    omega

/-- The talk button asks for nothing once two articles are held. -/
theorem talk_row_quiet {s s' : ProfileScreen} {v : Act} (two : 2 ≤ s.lists.items.length)
    (idle : s.status ≠ .loading) (once : v ≠ .viewWillAppear)
    (hstep : step .userDetail c s v = some s') : s'.status ≠ .loading := by
  intro hloading
  rcases (idle_step idle hstep).2.2.2.2 hloading with hagain | ⟨i, _, hsection, hrow, hend⟩
  · exact once hagain
  · have hzero : i.row < 1 := by
      have hlt := hrow.2
      rw [hsection] at hlt
      exact hlt
    unfold Profile.isEndOfSections lastIndex at hend
    rw [if_neg (by omega)] at hend
    omega

/-- A user's page that has appeared once holds one page, if two articles are there. -/
theorem one_page {x : Life .userDetail c device} (once : ∀ k, x.events k ≠ .viewWillAppear)
    (two : 2 ≤ c.active.length) (k : ℕ) :
    pages x k = 0 ∧ (x.states k).status = .loading ∨
      pages x k = 1 ∧ (x.states k).status ≠ .loading := by
  induction k with
  | zero =>
    rw [x.starts]
    exact .inl ⟨rfl, (paged_appeared .userDetail c device).2⟩
  | succ k ih =>
    have hcount : pages x (k + 1) = pages x k + if (x.events k).delivers = true then 1 else 0 := rfl
    rcases ih with ⟨hpages, hloading⟩ | ⟨hpages, hidle⟩
    · by_cases hdelivers : (x.events k).delivers = true
      · right
        rw [hcount, hpages, if_pos hdelivers]
        exact ⟨rfl, (paged x k).idle_of_delivers hdelivers (x.steps k)⟩
      · left
        rw [hcount, hpages, if_neg hdelivers]
        exact ⟨rfl, (loading_step hloading (x.steps k)).resolve_left hdelivers⟩
    · right
      have hheld : 2 ≤ (x.states k).lists.items.length := by
        have hlen := (paged x k).length
        omega
      rw [hcount, hpages, (idle_step hidle (x.steps k)).1]
      exact ⟨rfl, talk_row_quiet hheld hidle (once k) (x.steps k)⟩

theorem other_complete_iff {x : Life .userDetail c device} (scrolls : Scrolls .userDetail c x)
    (once : ∀ k, x.events k ≠ .viewWillAppear) :
    (∃ N, ∀ k, N ≤ k → Complete c (x.states k)) ↔ c.active.length ≤ 30 := by
  constructor
  · rintro ⟨N, hN⟩
    by_contra hmore
    have hle := (paged x N).complete_iff.mp (hN N (le_refl N))
    rcases one_page once (by omega) N with ⟨hpages, _⟩ | ⟨hpages, _⟩ <;> omega
  · intro hle
    obtain ⟨N, hN⟩ := first_page scrolls
    refine ⟨N, fun k hk => (paged x k).complete_iff.mpr ?_⟩
    have hpages : 1 ≤ pages x k := hN.trans (x.count_mono Act.delivers hk)
    omega

end Lives

/-- Scrolling on, the owner comes to hold all articles for good; another reader, on a page that
appears once, does exactly if they fit on one page, and only then both hold the same. -/
theorem all_reached_iff {uid : Uid} (c : Articles uid) {device device' : Device}
    {own : Life .myProfile c device} {other : Life .userDetail c device'}
    (ownScrolls : Scrolls .myProfile c own) (otherScrolls : Scrolls .userDetail c other)
    (once : ∀ k, other.events k ≠ .viewWillAppear) :
    (∃ N, ∀ k, N ≤ k → Complete c (own.states k)) ∧
    ((∃ N, ∀ k, N ≤ k → Complete c (other.states k)) ↔ c.active.length ≤ 30) ∧
    ((∃ N, ∀ k, N ≤ k → ∀ key, key ∈ (other.states k).lists.items.map Article.key ↔
        key ∈ (own.states k).lists.items.map Article.key) ↔ c.active.length ≤ 30) := by
  obtain ⟨N, hown⟩ := own_complete ownScrolls
  have hother := other_complete_iff otherScrolls once
  refine ⟨⟨N, hown⟩, hother, ?_⟩
  rw [← hother]
  constructor
  · rintro ⟨M, hsame⟩
    refine ⟨max M N, fun k hk d hd => ?_⟩
    rw [hsame k ((le_max_left M N).trans hk)]
    exact hown k ((le_max_right M N).trans hk) d hd
  · rintro ⟨M, hall⟩
    refine ⟨max M N, fun k hk key => ?_⟩
    rw [(paged other k).keys_of_complete (hall k ((le_max_left M N).trans hk)),
      (paged own k).keys_of_complete (hown k ((le_max_right M N).trans hk))]

section Reader

variable {uid : Uid} (p : Profile) (c : Articles uid) (device : Device)

/-- What is due comes first. -/
def next (s : ProfileScreen) : Act :=
  if s.status = .loading then .deliver 0
  else if s.lists.reloads ≠ 0 then .reloadData
  else if s.lists.table = [] then .willDisplayCell ⟨0, 0⟩
  else .willDisplayCell ⟨p.articleSection, s.lists.table.length - 1⟩

theorem next_possible (s : ProfileScreen) : (step p c s (next p s)).isSome := by
  unfold next
  split
  · rename_i hloading
    simp only [step, Articles.deliver, if_pos hloading, Option.isSome_some]
  · split
    · rename_i hreloads
      simp only [step, Profile.reloadData, if_neg hreloads, Option.isSome_some]
    · split
      · have hrow : p.HasRow s ⟨0, 0⟩ := by
          cases p <;> exact ⟨by decide, Nat.one_pos⟩
        simp only [step, Profile.willDisplayCell, if_pos hrow, Option.isSome_some]
      · rename_i hsome
        have hpos := List.length_pos_iff.mpr hsome
        have hless : s.lists.table.length - 1 < s.lists.table.length := by omega
        have hrow : p.HasRow s ⟨p.articleSection, s.lists.table.length - 1⟩ := by
          cases p <;> exact ⟨Nat.lt_succ_self _, hless⟩
        simp only [step, Profile.willDisplayCell, if_pos hrow, Option.isSome_some]

def reader : Life p c device := Execution.ofNext _ (next p) (next_possible p c)

theorem reader_next (k : ℕ) :
    (reader p c device).events k = next p ((reader p c device).states k) := rfl

theorem reader_once (k : ℕ) : (reader p c device).events k ≠ .viewWillAppear := by
  rw [reader_next]
  unfold next
  split
  · exact fun h => by cases h
  · split
    · exact fun h => by cases h
    · split <;> exact fun h => by cases h

theorem reader_reloads {k : ℕ} (idle : ((reader p c device).states k).status ≠ .loading)
    (waits : ((reader p c device).states k).lists.reloads ≠ 0) :
    (reader p c device).events k = .reloadData := by
  rw [reader_next, next, if_neg idle, if_pos waits]

theorem reader_settles : ∀ k, ((reader p c device).states k).status ≠ .loading →
    ∃ j, k ≤ j ∧ ((reader p c device).states j).status ≠ .loading ∧
      ((reader p c device).states j).lists.reloads = 0 := by
  refine LeadsTo.of_rank (fun k => ((reader p c device).states k).lists.reloads) fun n => ?_
  rintro k ⟨hidle, hn⟩
  by_cases hnone : ((reader p c device).states k).lists.reloads = 0
  · exact ⟨k, le_refl k, .inl ⟨hidle, hnone⟩⟩
  · have hreload := reader_reloads p c device hidle hnone
    have hstep := idle_step hidle ((reader p c device).steps k)
    refine ⟨k + 1, Nat.le_succ k, .inr ⟨fun hloading => ?_, hn ▸ hstep.2.2.2.1 hreload⟩⟩
    rcases hstep.2.2.2.2 hloading with hagain | ⟨i, hcell, _⟩
    · rw [hreload] at hagain
      cases hagain
    · rw [hreload] at hcell
      cases hcell

theorem reader_delivers {k : ℕ} (loading : ((reader p c device).states k).status = .loading) :
    (reader p c device).events k = .deliver 0 := by
  rw [reader_next, next, if_pos loading]

theorem reader_scrolls : Scrolls p c (reader p c device) := by
  have hidle : ∀ k, ((reader p c device).states k).status = .loading →
      ((reader p c device).states (k + 1)).status ≠ .loading := by
    intro k hloading
    have hevent := reader_delivers p c device hloading
    exact (paged _ k).idle_of_delivers (by rw [hevent]; rfl) ((reader p c device).steps k)
  refine ⟨fun k hloading => ?_, fun k hwaits => ?_, fun k => ?_⟩
  · refine ⟨k, le_refl k, ?_⟩
    show ((reader p c device).events k).delivers = true
    rw [reader_delivers p c device hloading]
    rfl
  · by_cases hloading : ((reader p c device).states k).status = .loading
    · have hstep := (reader p c device).steps k
      rw [reader_delivers p c device hloading] at hstep
      have hstill := mt ((paged _ k).deliver hstep).2.2.2 hwaits
      exact ⟨k + 1, Nat.le_succ k, reader_reloads p c device (hidle k hloading) hstill⟩
    · exact ⟨k, le_refl k, reader_reloads p c device hloading hwaits⟩
  · obtain ⟨i, hki, hi⟩ : ∃ i, k ≤ i ∧ ((reader p c device).states i).status ≠ .loading := by
      by_cases hloading : ((reader p c device).states k).status = .loading
      · exact ⟨k + 1, Nat.le_succ k, hidle k hloading⟩
      · exact ⟨k, le_refl k, hloading⟩
    obtain ⟨j, hij, hj, hnone⟩ := reader_settles p c device i hi
    refine ⟨j, hki.trans hij, ?_⟩
    by_cases hempty : ((reader p c device).states j).lists.table = []
    · exact .inl hempty
    · right
      rw [reader_next, next, if_neg hj, if_neg (not_not.mpr hnone), if_neg hempty]

end Reader

section Example

private def written (k : Nat) : ArticleDocument :=
  (k, { uid := some "bob", text := some "hello", status := some 1, createdAt := some k })

/-- Bob has written `n` articles. -/
private def ofBob (n : Nat) : Articles "bob" where
  dated d := d.2.createdAt.isSome
  contents := {
    documents := (List.range n).map written
    keyed := by
      rw [List.map_map]
      exact List.nodup_range.map_on fun _ _ _ _ h => h }
  readable d hd := by
    obtain ⟨k, _, rfl⟩ := List.mem_map.mp (List.mem_of_mem_filter hd)
    exact ⟨rfl, rfl, rfl⟩

private theorem length_ofBob (n : Nat) : (ofBob n).active.length = n := by
  have hall : (ofBob n).active = (List.range n).map written := by
    refine List.filter_eq_self.mpr fun d hd => ?_
    obtain ⟨k, _, rfl⟩ := List.mem_map.mp hd
    rfl
  rw [hall, List.length_map, List.length_range]

/-- The thirty-first article is on Bob's own list only. -/
theorem last_article_unreached :
    ¬ ∀ (c : Articles "bob") (device device' : Device) (own : Life .myProfile c device)
      (other : Life .userDetail c device'), Scrolls .myProfile c own →
      Scrolls .userDetail c other → (∀ k, other.events k ≠ .viewWillAppear) →
      ∃ N, ∀ k, N ≤ k → Complete c (other.states k) := by
  intro claim
  have hall := claim (ofBob 31) { uid := "bob" } { uid := "alice" } (reader _ _ _) (reader _ _ _)
    (reader_scrolls _ _ _) (reader_scrolls _ _ _) (reader_once _ _ _)
  rw [other_complete_iff (reader_scrolls _ _ _) (reader_once _ _ _), length_ofBob] at hall
  revert hall
  decide

theorem all_reached_iff_thirty :
    ∃ N, ∀ k, N ≤ k → ∀ key,
      key ∈ ((reader .userDetail (ofBob 30) { uid := "alice" }).states k).lists.items.map
          Article.key ↔
        key ∈ ((reader .myProfile (ofBob 30) { uid := "bob" }).states k).lists.items.map
          Article.key := by
  have hreached := all_reached_iff (ofBob 30)
    (reader_scrolls .myProfile (ofBob 30) { uid := "bob" })
    (reader_scrolls .userDetail (ofBob 30) { uid := "alice" }) (reader_once _ _ _)
  refine hreached.2.2.mpr ?_
  rw [length_ofBob]

end Example

end PlateChat.Screen.Scrolling
