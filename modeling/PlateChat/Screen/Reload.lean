/- PlateChat/Screen/Reload
   digest: When a list screen may leave its table as it is. -/

import PlateChat.Foundation.Run
import PlateChat.Screen.Merging

set_option autoImplicit false
set_option relaxedAutoImplicit false

/-!
A delivery that leaves the number of rows as it was is taken for one that leaves the rows
as they were. It is one if nothing visible is new or different in it, nothing shown has
been hidden and nothing hidden come to light since, and rows of the same date keep their
places.
-/

namespace PlateChat.Screen.Reload

open PlateChat.Foundation.Merge PlateChat.Foundation.Run PlateChat.Model.Members
open PlateChat.Model.Profile PlateChat.Binding.Services PlateChat.Screen.Feeds
open PlateChat.Screen.Merging (HomeHandler homeCallback)

/-- What a delivery has to be for the visible rows to stay the same. -/
structure Unaltered {τ κ : Type} [DecidableEq κ] (key : τ → κ) (keep : τ → Bool)
    (r : τ → τ → Prop) (visible : τ → Bool) (models held items : List τ) : Prop where
  delivered : ∀ m ∈ unique key models, keep m = true → visible m = true → m ∈ items
  shown : ∀ x ∈ items, keep x = true ∧ visible x = true ∧
    (key x ∈ models.map key → x ∈ unique key models)
  hidden : ∀ x ∈ held, key x ∉ models.map key → keep x = true → visible x = true → x ∈ items
  placed : ∀ a b, [a, b].Sublist items → r b a → b ∈ unique key models →
    [a, b].Sublist (unique key models)

section Merge

variable {τ κ : Type} [DecidableEq κ] {key : τ → κ} {keep visible : τ → Bool}
  {r : τ → τ → Prop} [DecidableRel r] {models held items : List τ}

/-- The rows after a merge. -/
def rows (key : τ → κ) (keep : τ → Bool) (r : τ → τ → Prop) [DecidableRel r]
    (visible : τ → Bool) (models held : List τ) : List τ :=
  (((unique key (models ++ held)).filter keep).insertionSort r).filter visible

private theorem mem_rows (keyed : Keyed key held) {x : τ} :
    x ∈ rows key keep r visible models held ↔ (x ∈ unique key models ∨
      x ∈ held ∧ key x ∉ models.map key) ∧ keep x = true ∧ visible x = true := by
  unfold rows
  rw [List.mem_filter, List.mem_insertionSort, List.mem_filter, unique_append models keyed,
    List.mem_append, List.mem_filter, and_assoc]
  simp only [decide_eq_true_eq]

private theorem before_rows (keyed : Keyed key held) {a b : τ} (hab : r a b)
    (ha : keep a = true ∧ visible a = true) (hb : keep b = true ∧ visible b = true)
    (h : [a, b].Sublist
      (unique key models ++ held.filter fun x => key x ∉ models.map key)) :
    [a, b].Sublist (rows key keep r visible models held) := by
  have hkept : [a, b].filter keep = [a, b] := by simp [ha.1, hb.1]
  have hvisible : [a, b].filter visible = [a, b] := by simp [ha.2, hb.2]
  have hsorted : [a, b].Sublist (((unique key (models ++ held)).filter keep).insertionSort r) := by
    apply List.pair_sublist_insertionSort hab
    rw [unique_append models keyed, ← hkept]
    exact h.filter keep
  unfold rows
  rw [← hvisible]
  exact hsorted.filter visible

private theorem nodup_rows : (rows key keep r visible models held).Nodup := by
  have hperm := List.perm_insertionSort r ((unique key (models ++ held)).filter keep)
  have hunique := (keyed_unique key (models ++ held)).of_map
  exact (hperm.nodup_iff.mpr (hunique.filter keep)).filter visible

private theorem not_before_of_rows_eq (keyed : Keyed key held)
    (heq : rows key keep r visible models held = items) {a b : τ} (hab : [a, b].Sublist items)
    (hba : r b a) : ¬ [b, a].Sublist
      (unique key models ++ held.filter fun x => key x ∉ models.map key) := by
  intro hfirst
  have hmema : a ∈ items := hab.subset (by simp)
  have hmemb : b ∈ items := hab.subset (by simp)
  rw [← heq, mem_rows keyed] at hmema hmemb
  have hrows : [b, a].Sublist (rows key keep r visible models held) :=
    before_rows keyed hba hmemb.2 hmema.2 hfirst
  rw [heq] at hrows
  rw [← heq] at hab
  exact before_asymm nodup_rows hab (heq ▸ hrows)

private theorem unaltered_of_rows_eq (keyed : Keyed key held)
    (heq : rows key keep r visible models held = items) :
    Unaltered key keep r visible models held items := by
  have hmem : ∀ {x}, x ∈ items ↔ _ := fun {x} => heq ▸ mem_rows keyed
  refine ⟨fun m hm hkeep hvisible => ?_, fun x hx => ?_, fun x hx hkey hkeep hvisible => ?_,
    fun a b hab hba hb => ?_⟩
  · exact hmem.mpr ⟨.inl hm, hkeep, hvisible⟩
  · obtain ⟨hx, hkeep, hvisible⟩ := hmem.mp hx
    exact ⟨hkeep, hvisible, fun hkey => hx.resolve_right fun hheld => hheld.2 hkey⟩
  · exact hmem.mpr ⟨.inr ⟨hx, hkey⟩, hkeep, hvisible⟩
  · have hlast := not_before_of_rows_eq keyed heq hab hba
    have hne : a ≠ b := by
      rintro rfl
      rw [← heq] at hab
      exact before_asymm nodup_rows hab hab
    rcases (hmem.mp (hab.subset (by simp : a ∈ [a, b]))).1 with ha | ⟨ha, hkey⟩
    · refine (before_or ha hb hne).resolve_right fun hbefore => hlast ?_
      exact hbefore.trans (List.sublist_append_left _ _)
    · have hrest : a ∈ held.filter fun x => key x ∉ models.map key :=
        List.mem_filter.mpr ⟨ha, decide_eq_true hkey⟩
      refine absurd ?_ hlast
      exact (List.singleton_sublist.mpr hb).append (List.singleton_sublist.mpr hrest)

omit [DecidableRel r] in
private theorem before_of_unaltered (unaltered : Unaltered key keep r visible models held items)
    (sub : items.Sublist held) {a b : τ} (hab : [a, b].Sublist items) (hba : r b a) :
    [a, b].Sublist (unique key models ++ held.filter fun x => key x ∉ models.map key) := by
  have ha : a ∈ items := hab.subset (by simp)
  have hb : b ∈ items := hab.subset (by simp)
  by_cases hkeyb : key b ∈ models.map key
  · have hmodel := (unaltered.shown b hb).2.2 hkeyb
    exact (unaltered.placed a b hab hba hmodel).trans (List.sublist_append_left _ _)
  · have hrestb : b ∈ held.filter fun x => key x ∉ models.map key :=
      List.mem_filter.mpr ⟨sub.subset hb, decide_eq_true hkeyb⟩
    by_cases hkeya : key a ∈ models.map key
    · have hmodel := (unaltered.shown a ha).2.2 hkeya
      exact (List.singleton_sublist.mpr hmodel).append (List.singleton_sublist.mpr hrestb)
    · have hfilter : ([a, b].filter fun x => key x ∉ models.map key) = [a, b] := by
        refine List.filter_eq_self.mpr fun x hx => decide_eq_true ?_
        rcases List.mem_pair.mp hx with rfl | rfl
        · exact hkeya
        · exact hkeyb
      refine List.Sublist.trans ?_ (List.sublist_append_right _ _)
      rw [← hfilter]
      exact (hab.trans sub).filter _

private theorem rows_eq_of_unaltered [Std.Total r] [IsTrans τ r] (keyed : Keyed key held)
    (sub : items.Sublist held) (sorted : items.Pairwise r)
    (unaltered : Unaltered key keep r visible models held items) :
    rows key keep r visible models held = items := by
  have hmem : ∀ x, x ∈ items ↔ x ∈ rows key keep r visible models held := by
    intro x
    rw [mem_rows keyed]
    constructor
    · intro hx
      obtain ⟨hkeep, hvisible, hmodels⟩ := unaltered.shown x hx
      refine ⟨?_, hkeep, hvisible⟩
      by_cases hkey : key x ∈ models.map key
      · exact .inl (hmodels hkey)
      · exact .inr ⟨sub.subset hx, hkey⟩
    · rintro ⟨hx | ⟨hx, hkey⟩, hkeep, hvisible⟩
      · exact unaltered.delivered x hx hkeep hvisible
      · exact unaltered.hidden x hx hkey hkeep hvisible
  have hsorted : (rows key keep r visible models held).Pairwise r :=
    (List.pairwise_insertionSort r _).filter visible
  have hnodup : items.Nodup := keyed.of_map.sublist sub
  refine (eq_of_before hnodup nodup_rows hmem hsorted fun a b hab hba => ?_).symm
  have ha := unaltered.shown a (hab.subset (by simp))
  have hb := unaltered.shown b (hab.subset (by simp))
  have hbefore := before_of_unaltered unaltered sub hab hba
  exact before_rows keyed (sorted.forall_sublist hab) ⟨ha.1, ha.2.1⟩ ⟨hb.1, hb.2.1⟩ hbefore

/-- The rows stay the same exactly if the delivery is of that kind. -/
theorem rows_eq_iff [Std.Total r] [IsTrans τ r] (keyed : Keyed key held)
    (sub : items.Sublist held) (sorted : items.Pairwise r) :
    rows key keep r visible models held = items ↔
      Unaltered key keep r visible models held items :=
  ⟨unaltered_of_rows_eq keyed, rows_eq_of_unaltered keyed sub sorted⟩

end Merge

/-- What a run keeps: one entry for each key, in order, and rows only of what is held. -/
structure Ordered {τ κ : Type} (key : τ → κ) (r : τ → τ → Prop) (s : Feed τ) : Prop where
  keyed : Keyed key s.org
  sorted : s.org.Pairwise r
  sub : s.items.Sublist s.org

/-- A screen by what its callbacks do: `base` is where they merge, `act` what else the screen
does with its lists. -/
structure FeedScreen (ν α τ κ : Type) [DecidableEq κ] where
  key : τ → κ
  keep : ν → τ → Bool
  r : τ → τ → Prop
  [decidable : DecidableRel r]
  [total : Std.Total r]
  [trans : IsTrans τ r]
  visible : Device → τ → Bool
  base : Feed τ → Feed τ
  callback : ν → Outcome τ → Feed τ → Feed τ
  act : α → Feed τ → Feed τ
  base_eq : ∀ s, base s = s ∨ base s = s.single
  ok : ∀ v models s, callback v (.ok models) s = (base s).received key (keep v) r visible models
  error : ∀ v e s, callback v (.error e) s = base s
  ordered : ∀ a s, Ordered key r s → Ordered key r (act a s)

attribute [instance] FeedScreen.decidable FeedScreen.total FeedScreen.trans

/-- `device` is a change of the block state or of the criteria, `reload` a turn of the main
queue. -/
inductive Event (ν α τ : Type)
  | received (v : ν) (outcome : Outcome τ)
  | device (device : Device)
  | reload
  | act (a : α)

namespace FeedScreen

variable {ν α τ κ : Type} [DecidableEq κ] (S : FeedScreen ν α τ κ)

def step (s : Feed τ) : Event ν α τ → Option (Feed τ)
  | .received v outcome => some (S.callback v outcome s)
  | .device device => some { s with device := device }
  | .reload =>
    if s.reloads = 0 then none else some { s.reloadData with reloads := s.reloads - 1 }
  | .act a => some (S.act a s)

/-- The callback returns without a reload. -/
def Early (v : ν) (models : List τ) (s : Feed τ) : Prop :=
  s.items.length = (S.callback v (.ok models) s).items.length

/-- A callback that returns early leaves on the table what it leaves in the list. -/
def Shown (s : Feed τ) : Event ν α τ → Prop
  | .received v (.ok models) => S.Early v models s →
      (S.callback v (.ok models) s).table = (S.callback v (.ok models) s).items
  | _ => True

/-- It starts from a list that the table shows. -/
def Current (s : Feed τ) : Event ν α τ → Prop
  | .received v (.ok models) => S.Early v models s → s.table = s.items
  | _ => True

/-- It starts from models that change nothing visible. -/
def Repeated (s : Feed τ) : Event ν α τ → Prop
  | .received v (.ok models) => S.Early v models s →
      Unaltered S.key (S.keep v) S.r (S.visible s.device) models (S.base s).org s.items
  | _ => True

instance (v : ν) (models : List τ) (s : Feed τ) : Decidable (S.Early v models s) :=
  inferInstanceAs (Decidable (_ = _))

instance [DecidableEq τ] (s : Feed τ) : ∀ e, Decidable (S.Shown s e)
  | .received v (.ok models) => inferInstanceAs (Decidable (S.Early v models s → _ = _))
  | .received _ (.error _) => .isTrue trivial
  | .device _ => .isTrue trivial
  | .reload => .isTrue trivial
  | .act _ => .isTrue trivial

instance [DecidableEq τ] (s : Feed τ) : ∀ e, Decidable (S.Current s e)
  | .received v (.ok models) => inferInstanceAs (Decidable (S.Early v models s → _ = _))
  | .received _ (.error _) => .isTrue trivial
  | .device _ => .isTrue trivial
  | .reload => .isTrue trivial
  | .act _ => .isTrue trivial

variable {S} {s : Feed τ}

private theorem base_fields : (S.base s).items = s.items ∧ (S.base s).table = s.table ∧
    (S.base s).device = s.device := by
  rcases S.base_eq s with h | h <;> rw [h] <;> exact ⟨rfl, rfl, rfl⟩

private theorem ordered_base (h : Ordered S.key S.r s) : Ordered S.key S.r (S.base s) := by
  rcases S.base_eq s with hbase | hbase
  · rw [hbase]
    exact h
  · rw [hbase]
    refine ⟨?_, h.sorted.sublist h.sub, List.Sublist.refl _⟩
    exact List.Nodup.sublist (h.sub.map S.key) h.keyed

/-- What a callback leaves: the merge and its rows, and on the table nothing new. -/
private structure Leaves (S : FeedScreen ν α τ κ) (v : ν) (models : List τ) (s t : Feed τ) :
    Prop where
  org : t.org =
    ((unique S.key (models ++ (S.base s).org)).filter (S.keep v)).insertionSort S.r
  items : t.items = rows S.key (S.keep v) S.r (S.visible s.device) models (S.base s).org
  table : t.table = s.table

private theorem callback_leaves (v : ν) (models : List τ) :
    Leaves S v models s (S.callback v (.ok models) s) := by
  obtain ⟨hitems, htable, hdevice⟩ := base_fields (S := S) (s := s)
  have hrows : rows S.key (S.keep v) S.r (S.visible s.device) models (S.base s).org =
      rows S.key (S.keep v) S.r (S.visible (S.base s).device) models (S.base s).org := by
    rw [hdevice]
  rw [S.ok]
  unfold Feed.received
  dsimp only
  split
  · exact ⟨rfl, hrows.symm, htable⟩
  · exact ⟨rfl, hrows.symm, htable⟩

private theorem ordered_callback {v : ν} {models : List τ} {t : Feed τ}
    (h : Leaves S v models s t) : Ordered S.key S.r t := by
  have hperm := List.perm_insertionSort S.r
    ((unique S.key (models ++ (S.base s).org)).filter (S.keep v))
  have hunique : Keyed S.key ((unique S.key (models ++ (S.base s).org)).filter (S.keep v)) := by
    have hsub := List.filter_sublist (p := S.keep v) (l := unique S.key (models ++ (S.base s).org))
    exact (keyed_unique S.key (models ++ (S.base s).org)).sublist (hsub.map S.key)
  refine ⟨?_, ?_, ?_⟩
  · rw [h.org]
    exact hunique.perm hperm
  · rw [h.org]
    exact List.pairwise_insertionSort S.r _
  · rw [h.org, h.items]
    exact List.filter_sublist

theorem ordered_step {e : Event ν α τ} {t : Feed τ} (h : Ordered S.key S.r s)
    (hstep : S.step s e = some t) : Ordered S.key S.r t := by
  cases e with
  | received v outcome =>
    obtain rfl := Option.some.inj hstep
    cases outcome with
    | ok models => exact ordered_callback (callback_leaves v models)
    | error e =>
      rw [S.error]
      exact ordered_base h
  | device device =>
    obtain rfl := Option.some.inj hstep
    exact ⟨h.keyed, h.sorted, h.sub⟩
  | reload =>
    obtain ⟨_, hstep⟩ := Option.ite_none_left_eq_some.mp hstep
    obtain rfl := Option.some.inj hstep
    exact ⟨h.keyed, h.sorted, h.sub⟩
  | act a =>
    obtain rfl := Option.some.inj hstep
    exact S.ordered a s h

private theorem shown_iff (h : Ordered S.key S.r s) (e : Event ν α τ) :
    S.Current s e ∧ S.Shown s e ↔ S.Current s e ∧ S.Repeated s e := by
  refine and_congr_right fun hcurrent => ?_
  cases e with
  | received v outcome =>
    cases outcome with
    | ok models =>
      have hleaves := callback_leaves (S := S) (s := s) v models
      have hbase := ordered_base h
      rw [FeedScreen.Shown, FeedScreen.Repeated]
      refine forall_congr' fun early => ?_
      have htable : s.table = s.items := hcurrent early
      have hitems : (S.base s).items = s.items := base_fields.1
      have hsub : s.items.Sublist (S.base s).org := hitems ▸ hbase.sub
      rw [hleaves.table, hleaves.items, htable,
        ← rows_eq_iff hbase.keyed hsub (hbase.sorted.sublist hsub)]
      exact eq_comm
    | error e => exact Iff.rfl
  | device device => exact Iff.rfl
  | reload => exact Iff.rfl
  | act a => exact Iff.rfl

/-- In a run whose early returns start from what the table shows, all of them leave it shown
exactly if all of them are handed models that change nothing visible. -/
theorem shown_run_iff (h : Ordered S.key S.r s) {events : List (Event ν α τ)}
    (current : Along S.step S.Current s events) :
    Along S.step S.Shown s events ↔ Along S.step S.Repeated s events := by
  have hboth : Along S.step (fun s e => S.Current s e ∧ S.Shown s e) s events ↔
      Along S.step (fun s e => S.Current s e ∧ S.Repeated s e) s events :=
    along_congr (P := Ordered S.key S.r) (fun _ e h => shown_iff h e)
      (fun _ _ _ h _ hstep => ordered_step h hstep) h
  rw [along_and_iff, along_and_iff] at hboth
  exact ⟨fun hs => (hboth.mp ⟨current, hs⟩).2, fun hr => (hboth.mpr ⟨current, hr⟩).2⟩

end FeedScreen

section Ordered

variable {τ κ : Type} {key : τ → κ} {r : τ → τ → Prop}

private theorem ordered_empty (device : Device) : Ordered key r { device := device } :=
  ⟨List.nodup_nil, .nil, .slnil⟩

private theorem ordered_cleared (s : Feed τ) : Ordered key r s.cleared :=
  ⟨List.nodup_nil, .nil, .slnil⟩

private theorem ordered_reloadData {s : Feed τ} (h : Ordered key r s) :
    Ordered key r s.reloadData :=
  ⟨h.keyed, h.sorted, h.sub⟩

private theorem ordered_filterBlock {s : Feed τ} (h : Ordered key r s)
    (visible : Device → τ → Bool) : Ordered key r (s.filterBlock visible) :=
  ⟨h.keyed, h.sorted, List.filter_sublist⟩

end Ordered

inductive HomeAction
  | viewWillAppear
  | deleteAccount

def home : FeedScreen HomeHandler HomeAction Article Nat where
  key := Article.key
  keep
    | .observeArticle => active
    | .refresh => all
  r := newestFirst
  visible := Home.visible
  base := id
  callback := homeCallback
  act
    | .viewWillAppear => Home.viewWillAppear
    | .deleteAccount => Home.deleteAccount
  base_eq _ := .inl rfl
  ok v _ _ := by cases v <;> rfl
  error v _ _ := by cases v <;> rfl
  ordered a s h := by
    cases a with
    | viewWillAppear => exact ordered_reloadData (ordered_filterBlock h Home.visible)
    | deleteAccount => exact ordered_cleared s

/-- The screen of a thread changes its lists in no other way. -/
def articleList : FeedScreen Unit Empty Article Nat where
  key := Article.key
  keep _ := active
  r := newestFirst
  visible := ArticleList.visible
  base := id
  callback _ := ArticleList.observeArticle
  act a := nomatch a
  base_eq _ := .inl rfl
  ok _ _ _ := rfl
  error _ _ _ := rfl
  ordered a := nomatch a

inductive ProfileAction
  | viewWillAppear
  | deleteArticle
  | deleteAccount

def myProfile : FeedScreen Unit ProfileAction Article Nat where
  key := Article.key
  keep _ := active
  r := newestFirst
  visible _ := all
  base := Feed.single
  callback _ := MyProfile.observeArticle
  act
    | .viewWillAppear => MyProfile.viewWillAppear
    | .deleteArticle => MyProfile.deleteArticle
    | .deleteAccount => MyProfile.deleteAccount
  base_eq _ := .inr rfl
  ok _ _ _ := rfl
  error _ _ _ := rfl
  ordered a s h := by
    cases a with
    | viewWillAppear => exact ordered_reloadData h
    | deleteArticle => exact ordered_reloadData (ordered_cleared s)
    | deleteAccount => exact ordered_cleared s

inductive UserDetailAction
  | viewWillAppear
  | userInfo

def userDetail : FeedScreen Unit UserDetailAction Article Nat where
  key := Article.key
  keep _ := active
  r := newestFirst
  visible _ := all
  base := Feed.single
  callback _ := UserDetail.observeArticle
  act
    | .viewWillAppear => UserDetail.viewWillAppear
    | .userInfo => UserDetail.userInfo
  base_eq _ := .inr rfl
  ok _ _ _ := rfl
  error _ _ _ := rfl
  ordered a _ h := by cases a <;> exact ordered_reloadData h

inductive SearchHandler
  | observeUser
  | refresh

inductive SearchAction
  | search
  | collectionType

def search : FeedScreen SearchHandler SearchAction LoginUser Uid where
  key := LoginUser.key
  keep _ := all
  r := newestUser
  visible := Search.visible
  base := id
  callback
    | .observeUser => Search.observeUser
    | .refresh => Search.refresh
  act
    | .search => Search.search
    | .collectionType => Search.collectionType
  base_eq _ := .inl rfl
  ok v _ _ := by cases v <;> rfl
  error v _ _ := by cases v <;> rfl
  ordered a s h := by
    cases a with
    | search => exact ordered_reloadData (ordered_cleared s)
    | collectionType => exact ⟨h.keyed, h.sorted, h.sub⟩

/-- Runs of a screen in which every early return starts from what the table shows: the table is
right after all of them exactly if each was handed models that change nothing visible. -/
def ShortcutExact {ν α τ κ : Type} [DecidableEq κ] (S : FeedScreen ν α τ κ) (start : Feed τ) :
    Prop :=
  ∀ events : List (Event ν α τ), Along S.step S.Current start events →
    (Along S.step S.Shown start events ↔ Along S.step S.Repeated start events)

theorem reload_shortcut_iff (device : Device) (article : Article) :
    ShortcutExact home { device := device } ∧
      ShortcutExact articleList (ArticleList.opened device article) ∧
      ShortcutExact myProfile { device := device } ∧
      ShortcutExact userDetail { device := device } ∧
      ShortcutExact search { device := device } := by
  have hopened : Ordered Article.key newestFirst (ArticleList.opened device article) :=
    ⟨List.nodup_singleton _, List.pairwise_singleton _ _, List.Sublist.refl _⟩
  refine ⟨?_, ?_, ?_, ?_, ?_⟩
  · exact fun _ current => FeedScreen.shown_run_iff (ordered_empty device) current
  · exact fun _ current => FeedScreen.shown_run_iff hopened current
  · exact fun _ current => FeedScreen.shown_run_iff (ordered_empty device) current
  · exact fun _ current => FeedScreen.shown_run_iff (ordered_empty device) current
  · exact fun _ current => FeedScreen.shown_run_iff (ordered_empty device) current

section Example

private def article (key : Nat) (userNickname : String) (date : Nat) : Article where
  key := key
  uid := "bob"
  text := "hello"
  createdDate := date
  status := 1
  userNickname := userNickname
  userProfileImageUrl := ""
  userPrefectureId := 0
  userSex := 0
  parentKey := ""
  toKey := ""
  toUid := ""

private def start : Feed Article := { device := { uid := "alice" } }

/-- Bob renames himself, and his article is delivered again. -/
private def renamed : List (Event HomeHandler HomeAction Article) :=
  [.received .observeArticle (.ok [article 7 "bob" 3]), .reload,
    .received .observeArticle (.ok [article 7 "bobby" 3])]

theorem table_stale_after_rename : ¬ Along home.step home.Shown start renamed := by decide

/-- The first page twice, and a block that hides nothing in between. -/
private def repeated : List (Event HomeHandler HomeAction Article) :=
  [.received .observeArticle (.ok [article 7 "bob" 3]), .reload,
    .device { uid := "alice", users := { userBlock := AList.singleton "carol" true } },
    .received .refresh (.ok [article 7 "bob" 3])]

theorem table_shown_after_repeated : Along home.step home.Repeated start repeated := by
  have current : Along home.step home.Current start repeated := by decide
  have shown : Along home.step home.Shown start repeated := by decide
  exact ((reload_shortcut_iff start.device (article 7 "bob" 3)).1 repeated current).mp shown

end Example

end PlateChat.Screen.Reload
