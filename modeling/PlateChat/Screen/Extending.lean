/- PlateChat/Screen/Extending
   digest: The search screen pages by the last login and sorts by the creation of the account. -/

import PlateChat.Screen.SearchLoop

set_option autoImplicit false
set_option relaxedAutoImplicit false

/-!
The other lists are sorted by the date that their queries page by, and a page goes below what
is shown. The users come in the order of their last login and are sorted by the date of their
account, so that a new account that has not been used goes to the top when its page comes.
-/

namespace PlateChat.Screen.Extending

open PlateChat.Foundation.Merge PlateChat.Foundation.Run PlateChat.Model.Members
open PlateChat.Model.Profile PlateChat.Binding.Services PlateChat.Binding.Users
open PlateChat.Binding.Removal PlateChat.Screen.Feeds PlateChat.Screen.Merging
open PlateChat.Screen.SearchLoop

/-- The users that the table asks for, in order. -/
def rows (s : SearchScreen) : List Uid := s.feed.items.map LoginUser.key

/-- The list before a page is the beginning of the list after it. -/
def Extends (c : Users) (s : SearchScreen) : Act → Prop
  | .deliver n date => rows s <+: rows (s.answered n (.snapshot date (c.page s n)))
  | _ => True

instance (c : Users) (s : SearchScreen) : ∀ e, Decidable (Extends c s e)
  | .deliver _ _ => inferInstanceAs (Decidable (_ <+: _))
  | .search | .refresh | .willDisplayCell _ | .reloadData | .collectionType | .device _ | .fail _
  | .missing _ => .isTrue trivial

/-- Whoever is shown satisfies the criteria still, and whoever satisfies them and is not shown
yet was created earlier than everybody who is. -/
structure AddsBelow (c : Users) (s : SearchScreen) (n : Nat) : Prop where
  still : ∀ u ∈ s.feed.items, Search.visible s.feed.device u = true
  held : ∀ u ∈ s.feed.org, Search.visible s.feed.device u = true → u.key ∉ rows s →
    ∀ v ∈ s.feed.items, u.createdDate < v.createdDate
  brought : ∀ d ∈ c.page s n, Matches s.feed.device d → d.1 ∉ rows s →
    ∀ date ∈ d.2.createdAt, ∀ v ∈ s.feed.items, date < v.createdDate

/-- A page that is taken in adds below what is shown. -/
def Below (c : Users) (s : SearchScreen) : Act → Prop
  | .deliver n _ => s.requests.service.handles.Active n → (∀ d ∈ c.page s n, d.2.Parses) →
    AddsBelow c s n
  | _ => True

/-- Every account has a date, and no two have the same. -/
structure Created (c : Users) : Prop where
  dated : ∀ d ∈ c.active, d.2.createdAt.isSome = true
  apart : ∀ d ∈ c.active, ∀ e ∈ c.active, d.2.createdAt = e.2.createdAt → d = e

section Lists

variable {c : Users} {s t : SearchScreen}

/-- The users held are sorted, and those shown are some of them. -/
private structure Listed (s : SearchScreen) : Prop where
  keyed : Keyed LoginUser.key s.feed.org
  sorted : s.feed.org.Pairwise newestUser
  rows : s.feed.items.Sublist s.feed.org

private theorem listed_empty (org : t.feed.org = []) (items : t.feed.items = []) : Listed t := by
  refine ⟨?_, ?_, ?_⟩
  · rw [org]
    exact List.nodup_nil
  · rw [org]
    exact .nil
  · rw [items]
    exact List.nil_sublist _

private theorem listed_same (h : Listed s) (org : t.feed.org = s.feed.org)
    (items : t.feed.items = s.feed.items) : Listed t := by
  refine ⟨?_, ?_, ?_⟩
  · rw [org]
    exact h.keyed
  · rw [org]
    exact h.sorted
  · rw [org, items]
    exact h.rows

private theorem listed_received (models : List LoginUser) {feed : Feed LoginUser}
    (hfeed : t.feed = Search.observeUser (.ok models) feed) : Listed t := by
  have horg : t.feed.org =
      ((unique LoginUser.key (models ++ feed.org)).filter all).insertionSort newestUser := by
    rw [hfeed]
    exact received_org _ _ _ _ _ _
  have hitems : t.feed.items = t.feed.org.filter (Search.visible feed.device) := by
    rw [hfeed]
    exact received_items
  refine ⟨?_, ?_, ?_⟩
  · have hkeyed : Keyed LoginUser.key ((unique LoginUser.key (models ++ feed.org)).filter all) :=
      (keyed_unique LoginUser.key _).sublist (List.filter_sublist.map LoginUser.key)
    rw [horg]
    exact hkeyed.perm (List.perm_insertionSort _ _)
  · rw [horg]
    exact List.pairwise_insertionSort _ _
  · rw [hitems]
    exact List.filter_sublist

private theorem listed_step (h : Sound c s) (hlisted : Listed s) {e : Act}
    (hstep : c.step s e = some t) : Listed t := by
  by_cases hdelivers : e.Delivers
  swap
  · rcases h.lists_kept hdelivers hstep with ⟨horg, hitems⟩ | ⟨horg, hitems⟩
    · exact listed_same hlisted horg hitems
    · exact listed_empty horg hitems
  obtain ⟨n, date, rfl⟩ := hdelivers
  obtain rfl := Option.some.inj hstep
  by_cases hactive : s.requests.service.handles.Active n
  swap
  · rw [SearchScreen.answered_of_inactive hactive]
    exact hlisted
  have hfeed := h.feed_delivered hactive date
  rcases hmodels : loginUserModels date (c.page s n) with _ | models
  · rw [hmodels] at hfeed
    exact listed_same hlisted (congrArg Feed.org hfeed) (congrArg Feed.items hfeed)
  · rw [hmodels] at hfeed
    exact listed_received models hfeed

private theorem listed_opened (device : Device) : Listed (SearchScreen.viewDidLoad device) := by
  refine listed_empty ?_ ?_
  · rw [opened_feed]
  · rw [opened_feed]

private theorem createdDate_of_parsed {date : Nat} {d : LoginUserDocument} {u : LoginUser}
    (h : LoginUser.ofDocument date d = .ok u) : u.createdDate = d.2.createdAt.getD date := by
  unfold LoginUser.ofDocument at h
  dsimp only at h
  split at h
  · cases h
    rfl
  · cases h

private theorem document_of_held (h : Sound c s) (hcreated : Created c) {u : LoginUser}
    (hu : u ∈ s.feed.org) : ∃ d ∈ c.active, d.1 = u.key ∧ d.2.createdAt = some u.createdDate ∧
      ∀ device, Search.visible device u = true ↔ Matches device d := by
  obtain ⟨date, d, hd, hparsed⟩ := h.held u hu
  obtain ⟨created, hsome⟩ := Option.isSome_iff_exists.mp (hcreated.dated d hd)
  refine ⟨d, hd, (LoginUser.of_parsed hparsed).1.symm, ?_, fun device => ⟨fun hvisible => ?_, ?_⟩⟩
  · rw [createdDate_of_parsed hparsed, hsome]
    rfl
  · exact ⟨date, u, hparsed, hvisible⟩
  · exact fun hmatch => visible_of_matches hmatch hparsed

/-- When the account was created. -/
private def created (c : Users) (k : Uid) : Nat :=
  ((version Prod.fst c.active k).bind fun d => d.2.createdAt).getD 0

private theorem created_of_mem {d : LoginUserDocument} (hd : d ∈ c.active) :
    created c d.1 = d.2.createdAt.getD 0 := by
  have hversion : version Prod.fst c.active d.1 = some d :=
    (version_eq_some active_keyed).mpr ⟨hd, rfl⟩
  rw [created, hversion]
  rfl

private theorem created_of_held (h : Sound c s) (hcreated : Created c) {u : LoginUser}
    (hu : u ∈ s.feed.org) : created c u.key = u.createdDate := by
  obtain ⟨d, hd, hkey, hdate, _⟩ := document_of_held h hcreated hu
  rw [← hkey, created_of_mem hd, hdate]
  rfl

/-- The first account of the rows is the newest. -/
private theorem rows_strict (h : Sound c s) (hcreated : Created c) (hlisted : Listed s) :
    (rows s).Pairwise fun k k' => created c k' < created c k := by
  have hkeyed : s.feed.items.Pairwise fun u v => u.key ≠ v.key :=
    List.pairwise_map.mp (hlisted.keyed.sublist (hlisted.rows.map LoginUser.key))
  have hsorted := hlisted.sorted.sublist hlisted.rows
  refine List.pairwise_map.mpr ((hkeyed.and hsorted).imp_of_mem fun {u v} hu hv huv => ?_)
  have hu := hlisted.rows.subset hu
  have hv := hlisted.rows.subset hv
  rw [created_of_held h hcreated hu, created_of_held h hcreated hv]
  refine lt_of_le_of_ne huv.2 fun hsame => huv.1 ?_
  obtain ⟨d, hd, hkey, hdate, _⟩ := document_of_held h hcreated hu
  obtain ⟨e, he, hkey', hdate', _⟩ := document_of_held h hcreated hv
  obtain rfl := hcreated.apart d hd e he (by rw [hdate, hdate', hsame])
  exact hkey.symm.trans hkey'

private theorem mem_rows_delivered (h : Sound c s) (hcreated : Created c) {n : Nat}
    (hactive : s.requests.service.handles.Active n) (hparses : ∀ d ∈ c.page s n, d.2.Parses)
    (date : Nat) (k : Uid) : k ∈ rows (s.answered n (.snapshot date (c.page s n))) ↔
      ∃ d ∈ c.active, d.1 = k ∧ Matches s.feed.device d ∧
        (d ∈ c.page s n ∨ k ∈ s.feed.org.map LoginUser.key) := by
  have hsound := sound_step h (e := .deliver n date) rfl
  have hkeys := h.keys_delivered hactive date k
  have hitems : (s.answered n (.snapshot date (c.page s n))).feed.items =
      (s.answered n (.snapshot date (c.page s n))).feed.org.filter
        (Search.visible s.feed.device) := by
    obtain ⟨models, hmodels⟩ :=
      Option.isSome_iff_exists.mp ((loginUserModels_isSome date).mpr hparses)
    have hfeed := h.feed_delivered hactive date
    rw [hmodels] at hfeed
    rw [hfeed]
    exact received_items
  rw [and_iff_right hparses] at hkeys
  constructor
  · intro hk
    obtain ⟨u, hu, rfl⟩ := List.mem_map.mp hk
    rw [hitems] at hu
    obtain ⟨hu, hvisible⟩ := List.mem_filter.mp hu
    obtain ⟨d, hd, hkey, _, hmatches⟩ := document_of_held hsound hcreated hu
    refine ⟨d, hd, hkey, (hmatches _).mp hvisible, ?_⟩
    refine (hkeys.mp (List.mem_map_of_mem hu)).imp_left fun hpage => ?_
    rw [← hkey] at hpage
    exact (id_mem_iff (fun e he => h.mem_page he) hd).mp hpage
  · rintro ⟨d, hd, rfl, hmatch, hcomes⟩
    obtain ⟨u, hu, hkey⟩ := List.mem_map.mp (hkeys.mpr (hcomes.imp_left List.mem_map_of_mem))
    obtain ⟨e, he, hkey', _, hmatches⟩ := document_of_held hsound hcreated hu
    obtain rfl := eq_of_id he hd (hkey'.trans hkey)
    refine List.mem_map.mpr ⟨u, ?_, hkey⟩
    rw [hitems]
    exact List.mem_filter.mpr ⟨hu, (hmatches _).mpr hmatch⟩

private theorem extends_delivered_iff (h : Sound c s) (hcreated : Created c) (hlisted : Listed s)
    {n : Nat} (hactive : s.requests.service.handles.Active n)
    (hparses : ∀ d ∈ c.page s n, d.2.Parses) (date : Nat) :
    rows s <+: rows (s.answered n (.snapshot date (c.page s n))) ↔ AddsBelow c s n := by
  have hsound := sound_step h (e := .deliver n date) rfl
  have hlisted' := listed_step h hlisted (e := .deliver n date) rfl
  have hmem := mem_rows_delivered h hcreated hactive hparses date
  rw [prefix_iff_of_sorted (fun _ _ hlt => Nat.lt_asymm hlt) (rows_strict h hcreated hlisted)
    (rows_strict hsound hcreated hlisted')]
  constructor
  · rintro ⟨hsub, hbelow⟩
    have hshown : ∀ v ∈ s.feed.items, ∀ k, k ∈ rows (s.answered n (.snapshot date (c.page s n))) →
        k ∉ rows s → created c k < v.createdDate := by
      intro v hv k hk hnew
      rw [← created_of_held h hcreated (hlisted.rows.subset hv)]
      exact hbelow k hk hnew _ (List.mem_map_of_mem hv)
    refine ⟨fun u hu => ?_, fun u hu hvisible hnew v hv => ?_,
      fun d hd hmatch hnew date' hdate v hv => ?_⟩
    · obtain ⟨d, hd, hkey, hmatch, _⟩ := (hmem u.key).mp (hsub _ (List.mem_map_of_mem hu))
      obtain ⟨e, he, hkey', _, hmatches⟩ := document_of_held h hcreated (hlisted.rows.subset hu)
      obtain rfl := eq_of_id he hd (hkey'.trans hkey.symm)
      exact (hmatches _).mpr hmatch
    · obtain ⟨d, hd, hkey, _, hmatches⟩ := document_of_held h hcreated hu
      rw [← created_of_held h hcreated hu]
      refine hshown v hv _ ((hmem _).mpr ⟨d, hd, hkey, (hmatches _).mp hvisible, ?_⟩) hnew
      exact .inr (List.mem_map_of_mem hu)
    · have hactive := h.mem_page hd
      have hlt := hshown v hv _ ((hmem _).mpr ⟨d, hactive, rfl, hmatch, .inl hd⟩) hnew
      rw [created_of_mem hactive, hdate] at hlt
      exact hlt
  · rintro ⟨hstill, hheld, hbrought⟩
    refine ⟨fun k hk => ?_, fun k hk hnew k' hk' => ?_⟩
    · obtain ⟨u, hu, rfl⟩ := List.mem_map.mp hk
      have horg := hlisted.rows.subset hu
      obtain ⟨d, hd, hkey, _, hmatches⟩ := document_of_held h hcreated horg
      refine (hmem _).mpr ⟨d, hd, hkey, (hmatches _).mp (hstill u hu), ?_⟩
      exact .inr (List.mem_map_of_mem horg)
    · obtain ⟨v, hv, rfl⟩ := List.mem_map.mp hk'
      rw [created_of_held h hcreated (hlisted.rows.subset hv)]
      obtain ⟨d, hd, rfl, hmatch, hpage | horg⟩ := (hmem k).mp hk
      · obtain ⟨date', hdate⟩ := Option.isSome_iff_exists.mp (hcreated.dated d hd)
        rw [created_of_mem hd, hdate]
        exact hbrought d hpage hmatch hnew date' hdate v hv
      · obtain ⟨u, hu, hkey⟩ := List.mem_map.mp horg
        obtain ⟨e, he, hkey', _, hmatches⟩ := document_of_held h hcreated hu
        obtain rfl := eq_of_id he hd (hkey'.trans hkey)
        rw [← hkey] at hnew
        rw [← hkey, created_of_held h hcreated hu]
        exact hheld u hu ((hmatches _).mpr hmatch) hnew v hv

private theorem extends_of_feed {n date : Nat}
    (hfeed : (s.answered n (.snapshot date (c.page s n))).feed = s.feed) :
    Extends c s (.deliver n date) :=
  ⟨[], by rw [List.append_nil, rows, rows, hfeed]⟩

private theorem extends_iff (h : Sound c s) (hcreated : Created c) (hlisted : Listed s) (e : Act) :
    Extends c s e ↔ Below c s e := by
  cases e with
  | deliver n date =>
    by_cases hactive : s.requests.service.handles.Active n
    swap
    · have hsame : s.answered n (.snapshot date (c.page s n)) = s :=
        SearchScreen.answered_of_inactive hactive
      exact iff_of_true (extends_of_feed (congrArg SearchScreen.feed hsame))
        fun hactive' => absurd hactive' hactive
    by_cases hparses : ∀ d ∈ c.page s n, d.2.Parses
    · refine (extends_delivered_iff h hcreated hlisted hactive hparses date).trans ?_
      exact ⟨fun hadds _ _ => hadds, fun hbelow => hbelow hactive hparses⟩
    · have hnone : loginUserModels date (c.page s n) = none :=
        Option.not_isSome_iff_eq_none.mp fun hsome =>
          hparses ((loginUserModels_isSome date).mp hsome)
      have hfeed := h.feed_delivered hactive date
      rw [hnone] at hfeed
      exact iff_of_true (extends_of_feed hfeed) fun _ hparses' => absurd hparses' hparses
  | _ => exact Iff.rfl

end Lists

/-- In every run from the screen's opening: no page moves what is shown exactly if whoever comes
in with one was created before everybody who is shown. -/
theorem search_extends_iff (c : Users) (hcreated : Created c) (device : Device)
    (events : List Act) : Along c.step (Extends c) (SearchScreen.viewDidLoad device) events ↔
      Along c.step (Below c) (SearchScreen.viewDidLoad device) events := by
  refine along_congr (P := fun s => Sound c s ∧ Listed s)
    (fun s e h => extends_iff h.1 hcreated h.2 e) (fun s e t h _ hstep => ?_)
    ⟨sound_opened device, listed_opened device⟩
  exact ⟨sound_step h.1 hstep, listed_step h.1 h.2 hstep⟩

section Example

/-- The account of `n`, who was last seen at `1000 + n`. -/
private def account (createdAt n : Nat) : LoginUserDocument :=
  (toString n, {
    email := some ""
    password := some ""
    age := some 20
    sex := some 1
    status := some 1
    lastLoginDate := some (1000 + n)
    createdAt := some createdAt })

/-- One user more than a page holds; the first of them has not come back. -/
private def members (first : Nat) : Users where
  dated := fun _ => true
  contents := {
    documents := (List.range 61).map fun n => account (if n = 0 then first else n) n
    keyed := by
      have hkeys : ((List.range 61).map fun n => toString n).Nodup := by
        decide +kernel
      rw [List.map_map]
      exact hkeys }

private def firstTwo : List Act :=
  [.deliver 0 2000, .reloadData, .willDisplayCell 59, .deliver 1 2001]

/-- The account of the last page is the newest one. -/
theorem newcomer_goes_on_top : ¬ ∀ c : Users, Created c →
    (c.active.map fun d => d.2.lastLoginDate).Nodup → ∀ (device : Device) (events : List Act),
      Along c.step (Extends c) (SearchScreen.viewDidLoad device) events := by
  intro claim
  have hcreated : Created (members 999) := ⟨by decide +kernel, by decide +kernel⟩
  have hall := claim (members 999) hcreated (by decide +kernel) { uid := "alice" } firstTwo
  revert hall
  decide +kernel

theorem search_extends_iff_oldest : Along (members 0).step (Below (members 0))
    (SearchScreen.viewDidLoad { uid := "alice" }) firstTwo :=
  (search_extends_iff (members 0) ⟨by decide +kernel, by decide +kernel⟩ { uid := "alice" }
    firstTwo).mp (by decide +kernel)

end Example

end PlateChat.Screen.Extending
