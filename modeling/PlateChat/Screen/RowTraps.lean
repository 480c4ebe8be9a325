/- PlateChat/Screen/RowTraps
   digest: Rows that a table still asks for when its list has them no longer. -/

import Mathlib.Data.List.Perm.Subperm
import PlateChat.Screen.Reload

set_option autoImplicit false
set_option relaxedAutoImplicit false

/-!
A table asks for the rows that it counted when it was last reloaded, and each is read from the
list as it is by then, without a look at its length. The list may have become shorter: after a
block, as the reload that follows a delivery waits on the main queue, or for good, where the
settings empty it and tell no table.
-/

namespace PlateChat.Screen.RowTraps

open PlateChat.Foundation.Merge PlateChat.Foundation.Run PlateChat.Model.Profile
open PlateChat.Binding.Services PlateChat.Screen.Feeds PlateChat.Screen.Reload
open PlateChat.Screen.Merging (HomeHandler)

variable {ν α τ κ : Type} [DecidableEq κ]

/-- `cellForRowAt` for a row that the table has and the list has not. -/
def Traps (s : Feed τ) (i : Nat) : Prop := i < s.table.length ∧ s.items[i]? = none

instance (s : Feed τ) (i : Nat) : Decidable (Traps s i) := inferInstanceAs (Decidable (_ ∧ _))

/-- What an action does to the lists and to the table. -/
inductive Kind
  | shows
  | filters
  | clears
  | delays
  | loses
  deriving DecidableEq

def Kind.does (visible : Device → τ → Bool) : Kind → Feed τ → Feed τ
  | .shows, s => s.reloadData
  | .filters, s => (s.filterBlock visible).reloadData
  | .clears, s => s.cleared.reloadData
  | .delays, s => { s with reloads := s.reloads + 1 }
  | .loses, s => s.cleared

/-- The actions of a screen by what they do, and whether it has one list only. -/
structure Kinds (S : FeedScreen ν α τ κ) where
  handler : ν
  kind : α → Kind
  single : Bool
  act_eq : ∀ a s, S.act a s = (kind a).does S.visible s
  base_single : ∀ s, S.base s = if single then s.single else s

/-- The services hand over what all callbacks of the screen keep. -/
def Handed (S : FeedScreen ν α τ κ) (_ : Feed τ) : Event ν α τ → Prop
  | .received _ (.ok models) => ∀ m ∈ models, ∀ v, S.keep v m = true
  | _ => True

variable {S : FeedScreen ν α τ κ}

namespace Kinds

variable (K : Kinds S)

/-- Where a delivery merges. -/
def held (s : Feed τ) : List τ := if K.single then s.items else s.org

/-- The rows that are left by a delivery of nothing. -/
def left (s : Feed τ) : Nat := ((K.held s).filter (S.visible s.device)).length

/-- Nobody is blocked, no criteria change, a delivery hides nothing that is visible, and no list
is emptied behind its table. -/
def Calm (s : Feed τ) : Event ν α τ → Prop
  | .received _ (.ok models) => (∀ m ∈ models, ∀ v, S.keep v m = true) ∧
      ∀ m ∈ models, ∀ x ∈ K.held s, S.key m = S.key x → S.visible s.device x = true →
        S.visible s.device m = true
  | .device _ => False
  | .act a => K.kind a ≠ .loses
  | _ => True

/-- Some row of the table traps in a calm continuation. -/
def TrapAhead (s : Feed τ) : Prop := ∃ t i, Reaches S.step K.Calm s t ∧ Traps t i

/-- The table may be reloaded before anything is delivered. -/
def Reloads (s : Feed τ) : Prop := 0 < s.reloads ∨ ∃ a, K.kind a = .shows ∨ K.kind a = .delays

/-- The table has more rows than the list, or than a delivery leaves, or will have. -/
def Exposed (s : Feed τ) : Prop :=
  s.items.length < s.table.length ∨ K.left s < s.table.length ∨
    K.left s < s.items.length ∧ K.Reloads s

end Kinds

theorem exists_traps (s : Feed τ) : (∃ i, Traps s i) ↔ s.items.length < s.table.length := by
  constructor
  · rintro ⟨i, hi, hnone⟩
    have hle := List.getElem?_eq_none_iff.mp hnone
    omega
  · intro h
    exact ⟨s.items.length, h, by simp⟩

omit [DecidableEq κ] in
theorem length_le_of_keys (key : τ → κ) {l l' : List τ} (keyed : Keyed key l)
    (h : ∀ x ∈ l, key x ∈ l'.map key) : l.length ≤ l'.length := by
  have hsub : l.map key ⊆ l'.map key := by
    intro k hk
    obtain ⟨x, hx, rfl⟩ := List.mem_map.mp hk
    exact h x hx
  simpa using (List.Nodup.subperm keyed hsub).length_le

/-- What a run of deliveries keeps: the lists are in order, and every callback keeps what is
held. -/
structure Sound (S : FeedScreen ν α τ κ) (s : Feed τ) : Prop where
  ordered : Ordered S.key S.r s
  kept : ∀ x ∈ s.org, ∀ v, S.keep v x = true

section Delivery

variable {K : Kinds S} {s : Feed τ} {v : ν} {models : List τ}

theorem base_org (K : Kinds S) (s : Feed τ) : (S.base s).org = K.held s := by
  rw [K.base_single, Kinds.held]
  split <;> rfl

theorem held_subset (sound : Sound S s) : ∀ x ∈ K.held s, x ∈ s.org := by
  intro x hx
  unfold Kinds.held at hx
  split at hx
  · exact sound.ordered.sub.subset hx
  · exact hx

theorem held_keyed (sound : Sound S s) : Keyed S.key (K.held s) := by
  unfold Kinds.held
  split
  · exact sound.ordered.keyed.sublist (sound.ordered.sub.map S.key)
  · exact sound.ordered.keyed

/-- What a delivery leaves. -/
structure Delivered (K : Kinds S) (v : ν) (models : List τ) (s t : Feed τ) : Prop where
  org : t.org = ((unique S.key (models ++ K.held s)).filter (S.keep v)).insertionSort S.r
  items : t.items = t.org.filter (S.visible s.device)
  table : t.table = s.table
  device : t.device = s.device

theorem callback_delivered (K : Kinds S) (v : ν) (models : List τ) (s : Feed τ) :
    Delivered K v models s (S.callback v (.ok models) s) := by
  have htable : (S.base s).table = s.table := by
    rw [K.base_single]
    split <;> rfl
  have hdevice : (S.base s).device = s.device := by
    rw [K.base_single]
    split <;> rfl
  have horg := base_org K s
  rw [S.ok]
  unfold Feed.received
  dsimp only
  split
  · exact ⟨horg ▸ rfl, hdevice ▸ rfl, htable, hdevice⟩
  · exact ⟨horg ▸ rfl, hdevice ▸ rfl, htable, hdevice⟩

theorem mem_delivered {t : Feed τ} (h : Delivered K v models s t) {x : τ} :
    x ∈ t.org ↔ (version S.key models (S.key x)).or (version S.key (K.held s) (S.key x)) = some x ∧
      S.keep v x = true := by
  rw [h.org, List.mem_insertionSort, List.mem_filter, mem_unique, version_append]

theorem sound_delivered {t : Feed τ} (sound : Sound S s) (h : Delivered K v models s t)
    (handed : ∀ m ∈ models, ∀ v, S.keep v m = true) (ordered : Ordered S.key S.r t) :
    Sound S t := by
  refine ⟨ordered, fun x hx w => ?_⟩
  rcases Option.or_eq_some_iff.mp ((mem_delivered h).mp hx).1 with hmodel | ⟨-, hheld⟩
  · exact handed x (mem_of_version hmodel) w
  · exact sound.kept x (held_subset sound x (mem_of_version hheld)) w

theorem left_of_filtered {t : Feed τ} (h : t.items = t.org.filter (S.visible t.device)) :
    K.left t = t.items.length := by
  unfold Kinds.left Kinds.held
  split
  · rw [h, List.filter_filter]
    simp
  · rw [h]

/-- A delivery that hides nothing loses no row. -/
theorem left_le_delivered {t : Feed τ} (sound : Sound S s) (h : Delivered K v models s t)
    (calm : K.Calm s (.received v (.ok models) : Event ν α τ)) : K.left s ≤ t.items.length := by
  obtain ⟨handed, hides⟩ := calm
  refine length_le_of_keys S.key
    ((held_keyed (K := K) sound).sublist (List.filter_sublist.map S.key)) fun x hx => ?_
  obtain ⟨hheld, hvisible⟩ := List.mem_filter.mp hx
  have hversion : version S.key (K.held s) (S.key x) = some x :=
    (version_eq_some (held_keyed sound)).mpr ⟨hheld, rfl⟩
  have hrow : ∀ y, y ∈ t.org → S.visible s.device y = true → S.key y = S.key x →
      S.key x ∈ t.items.map S.key := by
    intro y hy hyvisible hkey
    rw [h.items, ← hkey]
    exact List.mem_map_of_mem (List.mem_filter.mpr ⟨hy, hyvisible⟩)
  cases hmodel : version S.key models (S.key x) with
  | none =>
    refine hrow x ((mem_delivered h).mpr ⟨?_, sound.kept x (held_subset sound x hheld) v⟩)
      hvisible rfl
    rw [hmodel, Option.none_or, hversion]
  | some m =>
    have hkey : S.key m = S.key x := key_of_version hmodel
    have hmem : m ∈ models := mem_of_version hmodel
    refine hrow m ((mem_delivered h).mpr ⟨?_, handed m hmem v⟩)
      (hides m hmem x hheld hkey hvisible) hkey
    rw [hkey, hmodel, Option.some_or]

theorem delivered_nil_le {t : Feed τ} (h : Delivered K v [] s t) :
    t.items.length ≤ K.left s := by
  have hperm : t.org.Perm ((unique S.key (K.held s)).filter (S.keep v)) := by
    rw [h.org, List.nil_append]
    exact List.perm_insertionSort _ _
  have hkeyed : Keyed S.key (t.items) := by
    rw [h.items]
    refine List.Nodup.sublist (List.filter_sublist.map S.key) (Keyed.perm ?_ hperm)
    exact (keyed_unique S.key (K.held s)).sublist (List.filter_sublist.map S.key)
  refine length_le_of_keys S.key hkeyed fun x hx => List.mem_map_of_mem ?_
  rw [h.items] at hx
  obtain ⟨hx, hvisible⟩ := List.mem_filter.mp hx
  have hversion := ((mem_delivered h).mp hx).1
  exact List.mem_filter.mpr ⟨mem_of_version hversion, hvisible⟩

end Delivery

section Steps

variable {K : Kinds S} {s t : Feed τ} {e : Event ν α τ}

theorem left_base (K : Kinds S) (s : Feed τ) : K.left (S.base s) = K.left s := by
  rw [K.base_single]
  unfold Kinds.left Kinds.held
  split <;> rfl

theorem sound_step (K : Kinds S) (sound : Sound S s) (handed : Handed S s e)
    (hstep : S.step s e = some t) : Sound S t := by
  have ordered := FeedScreen.ordered_step sound.ordered hstep
  cases e with
  | received v outcome =>
    cases outcome with
    | ok models =>
      obtain rfl := Option.some.inj hstep
      exact sound_delivered sound (callback_delivered K v models s) handed ordered
    | error e =>
      obtain rfl := Option.some.inj hstep
      refine ⟨ordered, fun x hx w => sound.kept x (held_subset (K := K) sound x ?_) w⟩
      rw [S.error, base_org K] at hx
      exact hx
  | device device =>
    obtain rfl := Option.some.inj hstep
    exact ⟨ordered, sound.kept⟩
  | reload =>
    obtain ⟨_, hstep⟩ := Option.ite_none_left_eq_some.mp hstep
    obtain rfl := Option.some.inj hstep
    exact ⟨ordered, sound.kept⟩
  | act a =>
    obtain rfl := Option.some.inj hstep
    refine ⟨ordered, fun x hx w => ?_⟩
    rw [K.act_eq] at hx
    cases hkind : K.kind a with
    | shows | filters | delays =>
      rw [hkind] at hx
      exact sound.kept x hx w
    | clears | loses =>
      rw [hkind] at hx
      cases hx

theorem handed_of_calm (calm : K.Calm s e) : Handed S s e := by
  cases e with
  | received v outcome =>
    cases outcome with
    | ok models => exact calm.1
    | error e => trivial
  | _ => trivial

theorem exposed_base (K : Kinds S) (s : Feed τ) : K.Exposed (S.base s) ↔ K.Exposed s := by
  have hsame : (S.base s).items = s.items ∧ (S.base s).table = s.table ∧
      (S.base s).reloads = s.reloads := by
    rw [K.base_single]
    split <;> exact ⟨rfl, rfl, rfl⟩
  rw [Kinds.Exposed, Kinds.Reloads, left_base, hsame.1, hsame.2.1, hsame.2.2]
  rfl

theorem not_exposed_filtered (h : t.items = t.org.filter (S.visible t.device))
    (htable : t.table.length ≤ t.items.length) : ¬ K.Exposed t := by
  simp only [Kinds.Exposed, left_of_filtered h]
  omega

/-- The table stays within the list, and within what a delivery leaves. -/
theorem not_exposed_step (sound : Sound S s) (h : ¬ K.Exposed s) (calm : K.Calm s e)
    (hstep : S.step s e = some t) : ¬ K.Exposed t := by
  simp only [Kinds.Exposed, not_or, not_and, not_lt] at h
  obtain ⟨hitems, hleft, hreloads⟩ := h
  have hwithin : K.Reloads s → s.items.length ≤ K.left s :=
    fun hr => not_lt.mp fun hlt => hreloads hlt hr
  cases e with
  | received v outcome =>
    cases outcome with
    | ok models =>
      obtain rfl := Option.some.inj hstep
      have hdelivered := callback_delivered K v models s
      have hle := left_le_delivered sound hdelivered calm
      refine not_exposed_filtered (hdelivered.device ▸ hdelivered.items) ?_
      rw [hdelivered.table]
      omega
    | error e =>
      obtain rfl := Option.some.inj hstep
      rw [S.error, exposed_base, Kinds.Exposed, not_or, not_or, not_and, not_lt, not_lt]
      exact ⟨hitems, hleft, hreloads⟩
  | device device => exact calm.elim
  | reload =>
    obtain ⟨hpending, hstep⟩ := Option.ite_none_left_eq_some.mp hstep
    obtain rfl := Option.some.inj hstep
    have hle : s.items.length ≤ K.left s := hwithin (.inl (Nat.pos_of_ne_zero hpending))
    rintro (hlt | hlt | ⟨hlt, -⟩)
    · exact absurd hlt (lt_irrefl _)
    · exact absurd hlt (not_lt.mpr hle)
    · exact absurd hlt (not_lt.mpr hle)
  | act a =>
    obtain rfl := Option.some.inj hstep
    rw [K.act_eq]
    cases hkind : K.kind a with
    | shows =>
      have hle : s.items.length ≤ K.left s := hwithin (.inr ⟨a, .inl hkind⟩)
      rintro (hlt | hlt | ⟨hlt, -⟩)
      · exact absurd hlt (lt_irrefl _)
      · exact absurd hlt (not_lt.mpr hle)
      · exact absurd hlt (not_lt.mpr hle)
    | filters => exact not_exposed_filtered rfl le_rfl
    | clears => exact not_exposed_filtered rfl le_rfl
    | delays =>
      have hle : s.items.length ≤ K.left s := hwithin (.inr ⟨a, .inr hkind⟩)
      rintro (hlt | hlt | ⟨hlt, -⟩)
      · exact absurd hlt (not_lt.mpr hitems)
      · exact absurd hlt (not_lt.mpr hleft)
      · exact absurd hlt (not_lt.mpr hle)
    | loses => exact absurd hkind calm

/-- A delivery of nothing leaves a trap where the table has more rows than that. -/
theorem trapAhead_of_left (h : K.left s < s.table.length) : K.TrapAhead s := by
  have hdelivered := callback_delivered K K.handler [] s
  have hle := delivered_nil_le hdelivered
  obtain ⟨i, hi⟩ := (exists_traps (S.callback K.handler (.ok []) s)).mpr (by
    rw [hdelivered.table]
    omega)
  refine ⟨_, i, .single ⟨.received K.handler (.ok []), ?_, rfl⟩, hi⟩
  exact ⟨nofun, nofun⟩

/-- A table that is reloaded before the delivery takes in the rows that it will lose. -/
theorem trapAhead_of_reload (h : K.left s < s.items.length) (hreloads : 0 < s.reloads) :
    K.TrapAhead s := by
  have hstep : S.step s (.reload : Event ν α τ) =
      some { s.reloadData with reloads := s.reloads - 1 } := if_neg (by omega)
  have hahead : K.TrapAhead { s.reloadData with reloads := s.reloads - 1 } := trapAhead_of_left h
  obtain ⟨t, i, hreach, htraps⟩ := hahead
  exact ⟨t, i, .head ⟨.reload, trivial, hstep⟩ hreach, htraps⟩

theorem trapAhead_of_exposed (h : K.Exposed s) : K.TrapAhead s := by
  rcases h with hitems | hleft | ⟨hlt, hreloads | ⟨a, hkind⟩⟩
  · obtain ⟨i, hi⟩ := (exists_traps s).mpr hitems
    exact ⟨s, i, .refl, hi⟩
  · exact trapAhead_of_left hleft
  · exact trapAhead_of_reload hlt hreloads
  · have hstep : S.step s (.act a : Event ν α τ) = some ((K.kind a).does S.visible s) := by
      rw [← K.act_eq]
      rfl
    have hcalm : K.Calm s (.act a : Event ν α τ) := by
      rcases hkind with hkind | hkind <;> simp [Kinds.Calm, hkind]
    have hahead : K.TrapAhead ((K.kind a).does S.visible s) := by
      rcases hkind with hkind | hkind
      · rw [hkind]
        exact trapAhead_of_left hlt
      · rw [hkind]
        exact trapAhead_of_reload hlt (Nat.succ_pos _)
    obtain ⟨t, i, hreach, htraps⟩ := hahead
    exact ⟨t, i, .head ⟨.act a, hcalm, hstep⟩ hreach, htraps⟩

theorem trapAhead_iff (sound : Sound S s) : K.TrapAhead s ↔ K.Exposed s := by
  refine ⟨?_, trapAhead_of_exposed⟩
  rintro ⟨t, i, hreach, htraps⟩
  by_contra hsafe
  obtain ⟨-, hnot⟩ : Sound S t ∧ ¬ K.Exposed t :=
    hreach.keeps (P := fun s => Sound S s ∧ ¬ K.Exposed s)
      (fun _ _ _ h calm hstep => ⟨sound_step K h.1 (handed_of_calm calm) hstep,
        not_exposed_step h.1 h.2 calm hstep⟩) ⟨sound, hsafe⟩
  exact hnot (.inl ((exists_traps t).mp ⟨i, htraps⟩))

end Steps

section Single

variable {K : Kinds S} {s t : Feed τ} {e : Event ν α τ}

theorem left_single (hsingle : K.single = true) (hall : ∀ d x, S.visible d x = true) (s : Feed τ) :
    K.left s = s.items.length := by
  unfold Kinds.left Kinds.held
  rw [if_pos hsingle, List.filter_eq_self.mpr fun x _ => hall s.device x]

theorem exposed_single (hsingle : K.single = true) (hall : ∀ d x, S.visible d x = true)
    (s : Feed τ) : K.Exposed s ↔ s.items.length < s.table.length := by
  unfold Kinds.Exposed
  rw [left_single hsingle hall]
  omega

theorem within_step (hsingle : K.single = true) (hall : ∀ d x, S.visible d x = true)
    (sound : Sound S s) (h : s.table.length ≤ s.items.length) (handed : Handed S s e)
    (hkeeps : ∀ a, K.kind a ≠ .loses) (hstep : S.step s e = some t) :
    t.table.length ≤ t.items.length := by
  by_cases hdevice : ∃ device, e = .device device
  · obtain ⟨device, rfl⟩ := hdevice
    obtain rfl := Option.some.inj hstep
    exact h
  have hcalm : K.Calm s e := by
    cases e with
    | received v outcome =>
      cases outcome with
      | ok models => exact ⟨handed, fun m _ _ _ _ _ => hall s.device m⟩
      | error e => trivial
    | device device => exact hdevice ⟨device, rfl⟩
    | reload => trivial
    | act a => exact hkeeps a
  have hsafe : ¬ K.Exposed s := by
    rw [exposed_single hsingle hall]
    omega
  have hnot := not_exposed_step sound hsafe hcalm hstep
  rw [exposed_single hsingle hall] at hnot
  omega

end Single

def homeKinds : Kinds home where
  handler := .observeArticle
  kind
    | .viewWillAppear => .filters
    | .deleteAccount => .loses
  single := false
  act_eq a _ := by cases a <;> rfl
  base_single _ := rfl

def articleListKinds : Kinds articleList where
  handler := ()
  kind a := nomatch a
  single := false
  act_eq a := nomatch a
  base_single _ := rfl

def myProfileKinds : Kinds myProfile where
  handler := ()
  kind
    | .viewWillAppear => .shows
    | .deleteArticle => .clears
    | .deleteAccount => .loses
  single := true
  act_eq a _ := by cases a <;> rfl
  base_single _ := rfl

def userDetailKinds : Kinds userDetail where
  handler := ()
  kind _ := .shows
  single := true
  act_eq a _ := by cases a <;> rfl
  base_single _ := rfl

def searchKinds : Kinds search where
  handler := .observeUser
  kind
    | .search => .clears
    | .collectionType => .delays
  single := false
  act_eq a _ := by cases a <;> rfl
  base_single _ := rfl

/-- In every state that a run of deliveries of the services reaches. -/
def Everywhere (S : FeedScreen ν α τ κ) (start : Feed τ) (P : Feed τ → Prop) : Prop :=
  ∀ (events : List (Event ν α τ)) (s : Feed τ), Along S.step (Handed S) start events →
    run S.step start events = some s → P s

theorem everywhere_trapAhead {start : Feed τ} (K : Kinds S) (sound : Sound S start) :
    Everywhere S start fun s => K.TrapAhead s ↔ K.Exposed s := by
  intro events s along hr
  exact trapAhead_iff (run_keeps (P := Sound S)
    (fun _ _ _ h handed hstep => sound_step K h handed hstep) along hr sound)

theorem sound_empty (S : FeedScreen ν α τ κ) (device : Device) : Sound S { device := device } :=
  ⟨⟨List.nodup_nil, .nil, .slnil⟩, nofun⟩

theorem sound_opened (device : Device) {article : Article} (live : active article = true) :
    Sound articleList (ArticleList.opened device article) := by
  refine ⟨⟨List.nodup_singleton _, List.pairwise_singleton _ _, List.Sublist.refl _⟩, ?_⟩
  intro x hx _
  exact List.mem_singleton.mp hx ▸ live

/-- How many rows blocking and the criteria leave. -/
def shown (visible : Device → τ → Bool) (s : Feed τ) : Nat :=
  (s.org.filter (visible s.device)).length

/-- On the home screen, in a thread and in the search a row traps in some calm continuation
exactly if the table has more rows than the list or than are left of it, or if rows that are to
go will be counted by a reload first. On the own profile it does while the list is shorter than
the table, and on the profile of another user never. -/
theorem row_traps_iff (device : Device) {article : Article} (live : active article = true) :
    (Everywhere home { device := device } fun s => homeKinds.TrapAhead s ↔
      s.items.length < s.table.length ∨ shown Home.visible s < s.table.length ∨
        shown Home.visible s < s.items.length ∧ 0 < s.reloads) ∧
    (Everywhere articleList (ArticleList.opened device article) fun s =>
      articleListKinds.TrapAhead s ↔
        s.items.length < s.table.length ∨ shown ArticleList.visible s < s.table.length ∨
          shown ArticleList.visible s < s.items.length ∧ 0 < s.reloads) ∧
    (Everywhere search { device := device } fun s => searchKinds.TrapAhead s ↔
      s.items.length < s.table.length ∨ shown Search.visible s < s.table.length ∨
        shown Search.visible s < s.items.length) ∧
    (Everywhere myProfile { device := device } fun s => myProfileKinds.TrapAhead s ↔
      s.items.length < s.table.length) ∧
    Everywhere userDetail { device := device } fun s => ∀ i, ¬ Traps s i := by
  refine ⟨fun events s along hr => ?_, fun events s along hr => ?_, fun events s along hr => ?_,
    fun events s along hr => ?_, fun events s along hr i htraps => ?_⟩
  · refine (everywhere_trapAhead homeKinds (sound_empty home device) events s along hr).trans ?_
    have hnone : ¬ ∃ a, homeKinds.kind a = .shows ∨ homeKinds.kind a = .delays := by
      rintro ⟨a, h⟩
      cases a <;> simp [homeKinds] at h
    simp only [Kinds.Exposed, Kinds.Reloads, hnone, or_false]
    rfl
  · refine (everywhere_trapAhead articleListKinds (sound_opened device live) events s along
      hr).trans ?_
    have hnone : ¬ ∃ a, articleListKinds.kind a = .shows ∨ articleListKinds.kind a = .delays :=
      fun ⟨a, _⟩ => nomatch a
    simp only [Kinds.Exposed, Kinds.Reloads, hnone, or_false]
    rfl
  · refine (everywhere_trapAhead searchKinds (sound_empty search device) events s along hr).trans ?_
    have hdelays : ∃ a, searchKinds.kind a = .shows ∨ searchKinds.kind a = .delays :=
      ⟨.collectionType, .inr rfl⟩
    simp only [Kinds.Exposed, Kinds.Reloads, hdelays, or_true, and_true]
    rfl
  · refine (everywhere_trapAhead myProfileKinds (sound_empty myProfile device) events s along
      hr).trans ?_
    exact exposed_single rfl (fun _ _ => rfl) s
  · obtain ⟨-, hwithin⟩ := run_keeps
      (P := fun s => Sound userDetail s ∧ s.table.length ≤ s.items.length)
      (fun _ _ _ h handed hstep => ⟨sound_step userDetailKinds h.1 handed hstep,
        within_step (K := userDetailKinds) rfl (fun _ _ => rfl) h.1 h.2 handed
          (fun _ heq => nomatch heq) hstep⟩)
      along hr ⟨sound_empty userDetail device, Nat.le_refl 0⟩
    have hlt := (exists_traps s).mp ⟨i, htraps⟩
    omega

section Example

private def article : Article where
  key := 7
  uid := "bob"
  text := "hello"
  createdDate := 3
  status := 1
  userNickname := "bob"
  userProfileImageUrl := ""
  userPrefectureId := 0
  userSex := 0
  parentKey := ""
  toKey := ""
  toUid := ""

private def alice : Device := { uid := "alice" }

/-- Bob's article is shown, and alice blocks him. -/
private def blocks : List (Event HomeHandler HomeAction Article) :=
  [.received .observeArticle (.ok [article]), .reload,
    .device { alice with users := { userBlock := AList.singleton "bob" true } }]

/-- Bob deletes his account while his article is shown. -/
private def leaves : List (Event Unit ProfileAction Article) :=
  [.received () (.ok [article]), .reload, .act .deleteAccount]

private theorem blocks_handed : Along home.step (Handed home) { device := alice } blocks := by
  refine .cons (fun m hm v => ?_) rfl (.cons trivial rfl (.cons trivial rfl trivial))
  obtain rfl := List.mem_singleton.mp hm
  cases v <;> rfl

private theorem leaves_handed : Along myProfile.step (Handed myProfile) { device := alice }
    leaves := by
  refine .cons (fun m hm _ => ?_) rfl (.cons trivial rfl (.cons trivial rfl trivial))
  obtain rfl := List.mem_singleton.mp hm
  rfl

theorem row_traps_iff_blocked :
    (∃ s, run home.step { device := alice } blocks = some s ∧ homeKinds.TrapAhead s) ∧
      ∃ s, run myProfile.step { device := alice } leaves = some s ∧
        myProfileKinds.TrapAhead s := by
  obtain ⟨hhome, -, -, hprofile, -⟩ := row_traps_iff alice (show active article = true from rfl)
  exact ⟨⟨_, rfl, (hhome blocks _ blocks_handed rfl).mpr (by decide)⟩,
    ⟨_, rfl, (hprofile leaves _ leaves_handed rfl).mpr (by decide)⟩⟩

end Example

end PlateChat.Screen.RowTraps
