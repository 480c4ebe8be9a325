/- PlateChat/Foundation/Merge
   digest: Keyed lists that deliveries are merged into, and what determines them. -/

import Mathlib.Data.List.Induction
import Mathlib.Data.List.Sort

set_option autoImplicit false
set_option relaxedAutoImplicit false

/-!
A list with one entry for each key is a table: for each key it has a version or none.
Putting a delivery in front and dropping repeated keys overwrites the table, whatever
order the entries stand in; and a sorted list whose entries are ranked apart is fixed by
its table.
-/

namespace PlateChat.Foundation.Merge

universe u v

variable {τ : Type u} {κ : Type v} [DecidableEq κ] (key : τ → κ)

def appendNew (result : List τ) (e : τ) : List τ :=
  if result.any fun r => key r = key e then result else result ++ [e]

/-- Of the elements with one key, the first. -/
def unique (elements : List τ) : List τ := elements.foldl (appendNew key) []

/-- The version of a key: its first entry. -/
def version (l : List τ) (k : κ) : Option τ := l.find? fun x => key x = k

/-- One entry for each key. -/
def Keyed (l : List τ) : Prop := (l.map key).Nodup

variable {key} {l l' : List τ} {k : κ} {x : τ}

theorem key_of_version (h : version key l k = some x) : key x = k := by
  have hk := List.find?_some h
  exact of_decide_eq_true hk

theorem mem_of_version (h : version key l k = some x) : x ∈ l := List.mem_of_find?_eq_some h

theorem version_isSome : (version key l k).isSome = true ↔ k ∈ l.map key := by
  simp [version, List.find?_isSome]

theorem version_eq_none : version key l k = none ↔ k ∉ l.map key := by
  simp [version, List.find?_eq_none]

theorem version_append (l l' : List τ) :
    version key (l ++ l') k = (version key l k).or (version key l' k) :=
  List.find?_append

theorem version_singleton (e : τ) :
    version key [e] k = if key e = k then some e else none := by
  by_cases h : key e = k <;> simp [version, h]

theorem version_eq_some (keyed : Keyed key l) :
    version key l k = some x ↔ x ∈ l ∧ key x = k := by
  refine ⟨fun h => ⟨mem_of_version h, key_of_version h⟩, ?_⟩
  rintro ⟨hx, rfl⟩
  have hsome : (version key l (key x)).isSome = true :=
    version_isSome.mpr (List.mem_map_of_mem hx)
  obtain ⟨y, hy⟩ := Option.isSome_iff_exists.mp hsome
  have heq : y = x := List.inj_on_of_nodup_map keyed (mem_of_version hy) hx (key_of_version hy)
  rw [hy, heq]

omit [DecidableEq κ] in
theorem Keyed.perm (keyed : Keyed key l) (h : l'.Perm l) : Keyed key l' :=
  (h.map key).nodup_iff.mpr keyed

theorem version_perm (keyed : Keyed key l) (h : l'.Perm l) :
    version key l' k = version key l k := by
  apply Option.ext
  intro y
  rw [version_eq_some (keyed.perm h), version_eq_some keyed, h.mem_iff]

theorem appendNew_of_mem {result : List τ} {e : τ} (h : key e ∈ result.map key) :
    appendNew key result e = result := by
  obtain ⟨r, hr, hk⟩ := List.mem_map.mp h
  exact if_pos (List.any_eq_true.mpr ⟨r, hr, decide_eq_true hk⟩)

theorem appendNew_of_not_mem {result : List τ} {e : τ} (h : key e ∉ result.map key) :
    appendNew key result e = result ++ [e] := by
  refine if_neg fun hany => h ?_
  obtain ⟨r, hr, hk⟩ := List.any_eq_true.mp hany
  exact List.mem_map.mpr ⟨r, hr, of_decide_eq_true hk⟩

theorem keyed_appendNew {result : List τ} (keyed : Keyed key result) (e : τ) :
    Keyed key (appendNew key result e) := by
  by_cases h : key e ∈ result.map key
  · rw [appendNew_of_mem h]
    exact keyed
  · rw [appendNew_of_not_mem h, Keyed, List.map_append]
    refine List.nodup_append.mpr ⟨keyed, List.nodup_singleton _, ?_⟩
    rintro a ha b hb rfl
    obtain rfl := List.mem_singleton.mp hb
    exact h ha

theorem version_appendNew (result : List τ) (e : τ) :
    version key (appendNew key result e) k = (version key result k).or (version key [e] k) := by
  by_cases h : key e ∈ result.map key
  · rw [appendNew_of_mem h, version_singleton]
    by_cases hk : key e = k
    · subst hk
      obtain ⟨y, hy⟩ := Option.isSome_iff_exists.mp (version_isSome.mpr h)
      rw [hy, Option.some_or]
    · rw [if_neg hk, Option.or_none]
  · rw [appendNew_of_not_mem h, version_append]

theorem keyed_foldl {result elements : List τ} (keyed : Keyed key result) :
    Keyed key (elements.foldl (appendNew key) result) := by
  induction elements generalizing result with
  | nil => exact keyed
  | cons e rest ih => exact ih (keyed_appendNew keyed e)

theorem version_foldl (result elements : List τ) :
    version key (elements.foldl (appendNew key) result) k =
      (version key result k).or (version key elements k) := by
  induction elements generalizing result with
  | nil => simp [version]
  | cons e rest ih =>
    have hcons : version key (e :: rest) k = (version key [e] k).or (version key rest k) :=
      version_append [e] rest
    rw [List.foldl_cons, ih, version_appendNew, hcons, Option.or_assoc]

variable (key) in
theorem keyed_unique (elements : List τ) : Keyed key (unique key elements) :=
  keyed_foldl List.nodup_nil

theorem version_unique (elements : List τ) :
    version key (unique key elements) k = version key elements k :=
  version_foldl [] elements

theorem mem_unique {elements : List τ} :
    x ∈ unique key elements ↔ version key elements (key x) = some x := by
  rw [← version_unique, version_eq_some (keyed_unique key elements)]
  exact (and_iff_left rfl).symm

theorem foldl_appendNew (result : List τ) {elements : List τ} (keyed : Keyed key elements) :
    elements.foldl (appendNew key) result =
      result ++ elements.filter fun x => key x ∉ result.map key := by
  induction elements generalizing result with
  | nil => simp
  | cons e rest ih =>
    obtain ⟨hfresh, hrest⟩ := List.nodup_cons.mp keyed
    rw [List.foldl_cons, ih _ hrest]
    by_cases h : key e ∈ result.map key
    · rw [appendNew_of_mem h, List.filter_cons_of_neg (by simpa using h)]
    · rw [appendNew_of_not_mem h, List.filter_cons_of_pos (by simpa using h), List.append_assoc]
      have hsame : (rest.filter fun x => key x ∉ (result ++ [e]).map key) =
          rest.filter fun x => key x ∉ result.map key := by
        refine List.filter_congr fun x hx => ?_
        have hne : key x ≠ key e := fun heq => hfresh (heq ▸ List.mem_map_of_mem hx)
        simp [hne]
      rw [hsame]
      rfl

theorem mem_keys_unique {elements : List τ} :
    k ∈ (unique key elements).map key ↔ k ∈ elements.map key := by
  rw [← version_isSome, version_unique, version_isSome]

theorem unique_append (models : List τ) {held : List τ} (keyed : Keyed key held) :
    unique key (models ++ held) =
      unique key models ++ held.filter fun x => key x ∉ models.map key := by
  have hfold : unique key (models ++ held) = held.foldl (appendNew key) (unique key models) :=
    List.foldl_append
  rw [hfold, foldl_appendNew _ keyed]
  congr 1
  exact List.filter_congr fun x _ => by simp only [mem_keys_unique]

section Order

variable {a b : τ}

theorem before_or (ha : a ∈ l) (hb : b ∈ l) (hne : a ≠ b) :
    [a, b].Sublist l ∨ [b, a].Sublist l := by
  induction l with
  | nil => cases ha
  | cons x l ih =>
    rcases List.mem_cons.mp ha with hax | hal
    · have hbl := (List.mem_cons.mp hb).resolve_left fun hbx => hne (hax.trans hbx.symm)
      subst hax
      exact .inl ((List.singleton_sublist.mpr hbl).cons_cons a)
    · rcases List.mem_cons.mp hb with hbx | hbl
      · subst hbx
        exact .inr ((List.singleton_sublist.mpr hal).cons_cons b)
      · exact (ih hal hbl).imp (List.Sublist.cons x) (List.Sublist.cons x)

theorem before_asymm (nodup : l.Nodup) (h : [a, b].Sublist l) : ¬ [b, a].Sublist l := by
  induction l with
  | nil => cases h
  | cons x l ih =>
    obtain ⟨hx, hl⟩ := List.nodup_cons.mp nodup
    intro h'
    cases h with
    | cons _ h =>
      cases h' with
      | cons _ h' => exact ih hl h h'
      | cons_cons _ h' => exact hx (h.subset (by simp))
    | cons_cons _ h =>
      cases h' with
      | cons _ h' => exact hx (h'.subset (by simp))
      | cons_cons _ h' => exact hx (List.singleton_sublist.mp h)

theorem eq_of_before {r : τ → τ → Prop} (nodup : l.Nodup) (nodup' : l'.Nodup)
    (mem : ∀ x, x ∈ l ↔ x ∈ l') (sorted : l'.Pairwise r)
    (tied : ∀ a b, [a, b].Sublist l → r b a → [a, b].Sublist l') : l = l' := by
  have hperm : l.Perm l' := (List.perm_ext_iff_of_nodup nodup nodup').mpr mem
  have hown : l.Pairwise fun a b => [a, b].Sublist l :=
    List.pairwise_iff_forall_sublist.mpr fun h => h
  have hother : l'.Pairwise fun a b => [a, b].Sublist l := by
    refine List.pairwise_iff_forall_sublist.mpr fun {a b} h => ?_
    have ha : a ∈ l := (mem a).mpr (h.subset (by simp))
    have hb : b ∈ l := (mem b).mpr (h.subset (by simp))
    have hne : a ≠ b := by
      rintro rfl
      exact before_asymm nodup' h h
    rcases before_or ha hb hne with hab | hba
    · exact hab
    · exact absurd (tied b a hba (sorted.forall_sublist h)) (before_asymm nodup' h)
  exact hperm.eq_of_pairwise (fun a b _ _ h h' => absurd h' (before_asymm nodup h)) hown hother

end Order

/-- A sorted list begins another one if it is part of it and comes before the rest. -/
theorem prefix_iff_of_sorted {r : τ → τ → Prop} (asymm : ∀ a b, r a b → ¬ r b a)
    (sorted : l.Pairwise r) (sorted' : l'.Pairwise r) :
    l <+: l' ↔ (∀ x ∈ l, x ∈ l') ∧ ∀ x ∈ l', x ∉ l → ∀ y ∈ l, r y x := by
  classical
  have hnodup : ∀ {m : List τ}, m.Pairwise r → m.Nodup := by
    intro m hm
    refine hm.imp fun {a b} h heq => ?_
    subst heq
    exact asymm a a h h
  constructor
  · rintro ⟨rest, rfl⟩
    refine ⟨fun x hx => List.mem_append_left _ hx, fun x hx hnew y hy => ?_⟩
    exact (List.pairwise_append.mp sorted').2.2 y hy x ((List.mem_append.mp hx).resolve_left hnew)
  · rintro ⟨hsub, hbelow⟩
    have hjoined : (l ++ l'.filter fun x => x ∉ l).Pairwise r := by
      refine List.pairwise_append.mpr ⟨sorted, sorted'.filter _, fun y hy x hx => ?_⟩
      obtain ⟨hx, hnew⟩ := List.mem_filter.mp hx
      exact hbelow x hx (of_decide_eq_true hnew) y hy
    have hperm : (l ++ l'.filter fun x => x ∉ l).Perm l' := by
      refine (List.perm_ext_iff_of_nodup (hnodup hjoined) (hnodup sorted')).mpr fun x => ?_
      by_cases hx : x ∈ l
      · simp [hx, hsub x hx]
      · simp [hx]
    have heq := hperm.eq_of_pairwise (fun a b _ _ hab hba => absurd hba (asymm a b hab))
      hjoined sorted'
    exact heq ▸ List.prefix_append _ _

theorem perm_of_versions (keyed : Keyed key l) (keyed' : Keyed key l')
    (h : ∀ k, version key l k = version key l' k) : l.Perm l' := by
  refine (List.perm_ext_iff_of_nodup keyed.of_map keyed'.of_map).mpr fun y => ?_
  have hmem := version_eq_some (k := key y) (x := y) keyed
  have hmem' := version_eq_some (k := key y) (x := y) keyed'
  rw [h (key y), hmem'] at hmem
  simpa using hmem.symm

/-- Sorted by ranks that tell the entries apart, they are the same list. -/
theorem eq_of_versions {r : τ → τ → Prop} (keyed : Keyed key l) (keyed' : Keyed key l')
    (h : ∀ k, version key l k = version key l' k) (sorted : l.Pairwise r)
    (sorted' : l'.Pairwise r) (apart : ∀ a ∈ l, ∀ b ∈ l, r a b → r b a → a = b) : l = l' := by
  have hperm := perm_of_versions keyed keyed' h
  refine hperm.eq_of_pairwise (fun a b ha hb => ?_) sorted sorted'
  exact apart a ha b (hperm.mem_iff.mpr hb)

/-- What the last delivery that contains a key says of it. -/
def latest (key : τ → κ) (deliveries : List (List τ)) (k : κ) : Option τ :=
  deliveries.foldl (fun held models => (version key models k).or held) none

theorem latest_append (deliveries : List (List τ)) (models : List τ) :
    latest key (deliveries ++ [models]) k =
      (version key models k).or (latest key deliveries k) := by
  simp [latest]

theorem latest_eq_some {deliveries : List (List τ)} : latest key deliveries k = some x ↔
    ∃ before models after, deliveries = before ++ models :: after ∧ version key models k = some x ∧
      ∀ later ∈ after, k ∉ later.map key := by
  induction deliveries using List.reverseRecOn with
  | nil => simp [latest]
  | append_singleton deliveries last ih =>
    rw [latest_append]
    constructor
    · intro h
      rcases hlast : version key last k with _ | y
      · rw [hlast, Option.none_or] at h
        obtain ⟨before, models, after, rfl, hversion, hafter⟩ := ih.mp h
        refine ⟨before, models, after ++ [last], by simp, hversion, fun later hlater => ?_⟩
        rcases List.mem_append.mp hlater with hlater | hlater
        · exact hafter later hlater
        · obtain rfl := List.mem_singleton.mp hlater
          exact version_eq_none.mp hlast
      · rw [hlast, Option.some_or] at h
        exact ⟨deliveries, last, [], by simp, hlast.trans h, fun _ h => nomatch h⟩
    · rintro ⟨before, models, after, heq, hversion, hafter⟩
      rcases List.eq_nil_or_concat after with rfl | ⟨after, later, rfl⟩
      · obtain ⟨rfl, hlast⟩ := List.append_inj' heq rfl
        obtain rfl := List.cons.inj hlast |>.1
        rw [hversion, Option.some_or]
      · have hsplit : deliveries ++ [last] = (before ++ models :: after) ++ [later] := by
          simpa using heq
        obtain ⟨hinit, hlast⟩ := List.append_inj' hsplit rfl
        obtain rfl := List.cons.inj hlast |>.1
        have hnone := version_eq_none.mpr (hafter last (by simp))
        rw [hnone, Option.none_or, ih]
        exact ⟨before, models, after, hinit, hversion, fun l hl => hafter l (by simp [hl])⟩

theorem latest_isSome {deliveries : List (List τ)} :
    (latest key deliveries k).isSome = true ↔ ∃ models ∈ deliveries, k ∈ models.map key := by
  induction deliveries using List.reverseRecOn with
  | nil => simp [latest]
  | append_singleton deliveries last ih =>
    rw [latest_append, Option.isSome_or, Bool.or_eq_true, version_isSome, ih]
    simp only [List.mem_append, List.mem_singleton, or_and_right, exists_or, exists_eq_left]
    exact or_comm

theorem latest_of_unchanged {deliveries : List (List τ)}
    (unchanged : ∀ models ∈ deliveries, ∀ a ∈ models, ∀ models' ∈ deliveries, ∀ b ∈ models',
      key a = key b → a = b) :
    latest key deliveries k = some x ↔ key x = k ∧ ∃ models ∈ deliveries, x ∈ models := by
  constructor
  · intro h
    obtain ⟨before, models, after, rfl, hversion, _⟩ := latest_eq_some.mp h
    exact ⟨key_of_version hversion, models, by simp, mem_of_version hversion⟩
  · rintro ⟨rfl, models, hmodels, hx⟩
    have hsome := latest_isSome.mpr ⟨models, hmodels, List.mem_map_of_mem (f := key) hx⟩
    obtain ⟨y, hy⟩ := Option.isSome_iff_exists.mp hsome
    obtain ⟨before, models', after, hsplit, hversion, _⟩ := latest_eq_some.mp hy
    have hmem : models' ∈ deliveries := by simp [hsplit]
    have heq := unchanged models' hmem y (mem_of_version hversion) models hmodels x hx
      (key_of_version hversion)
    rw [hy, heq]

/-- A list that holds what the deliveries say last, in the order of `r`. -/
structure Merged (key : τ → κ) (r : τ → τ → Prop) (deliveries : List (List τ)) (l : List τ) :
    Prop where
  keyed : Keyed key l
  sorted : l.Pairwise r
  versions : ∀ k, version key l k = latest key deliveries k

variable {r : τ → τ → Prop} {deliveries deliveries' : List (List τ)}

theorem Merged.nil : Merged key r [] [] :=
  ⟨List.nodup_nil, .nil, fun _ => rfl⟩

theorem Merged.deliver [DecidableRel r] [Std.Total r] [IsTrans τ r] {keep : τ → Bool}
    {models : List τ} (h : Merged key r deliveries l)
    (kept : ∀ a ∈ unique key (models ++ l), keep a = true) :
    Merged key r (deliveries ++ [models])
      (((unique key (models ++ l)).filter keep).insertionSort r) := by
  have hall : (unique key (models ++ l)).filter keep = unique key (models ++ l) :=
    List.filter_eq_self.mpr kept
  rw [hall]
  have hperm := List.perm_insertionSort r (unique key (models ++ l))
  have hunique := keyed_unique key (models ++ l)
  refine ⟨hunique.perm hperm, List.pairwise_insertionSort r _, fun k => ?_⟩
  rw [version_perm hunique hperm, version_unique, version_append, h.versions, latest_append]

theorem Merged.mem_map (h : Merged key r deliveries l) (k : κ) :
    k ∈ l.map key ↔ ∃ models ∈ deliveries, k ∈ models.map key := by
  rw [← version_isSome, h.versions, latest_isSome]

theorem Merged.of_latest (h : Merged key r deliveries l) (hx : x ∈ l) :
    ∃ before models after, deliveries = before ++ models :: after ∧ x ∈ models ∧
      ∀ later ∈ after, key x ∉ later.map key := by
  have hversion := (version_eq_some (k := key x) h.keyed).mpr ⟨hx, rfl⟩
  rw [h.versions] at hversion
  obtain ⟨before, models, after, hsplit, hmodels, hafter⟩ := latest_eq_some.mp hversion
  exact ⟨before, models, after, hsplit, mem_of_version hmodels, hafter⟩

/-- Of things that do not change, the same deliveries in any order, and as often as one likes,
leave the same list. -/
theorem Merged.eq (h : Merged key r deliveries l) (h' : Merged key r deliveries' l')
    (same : ∀ models, models ∈ deliveries ↔ models ∈ deliveries')
    (unchanged : ∀ models ∈ deliveries, ∀ a ∈ models, ∀ models' ∈ deliveries, ∀ b ∈ models',
      key a = key b → a = b)
    (apart : ∀ models ∈ deliveries, ∀ a ∈ models, ∀ models' ∈ deliveries, ∀ b ∈ models',
      r a b → r b a → key a = key b) : l = l' := by
  have hversions : ∀ k, version key l k = version key l' k := by
    intro k
    rw [h.versions, h'.versions]
    apply Option.ext
    intro y
    have unchanged' : ∀ models ∈ deliveries', ∀ a ∈ models, ∀ models' ∈ deliveries',
        ∀ b ∈ models', key a = key b → a = b := by
      simpa only [same] using unchanged
    rw [latest_of_unchanged unchanged, latest_of_unchanged unchanged']
    simp only [same]
  refine eq_of_versions h.keyed h'.keyed hversions h.sorted h'.sorted fun a ha b hb hab hba => ?_
  obtain ⟨before, models, after, rfl, hmodels, _⟩ := h.of_latest ha
  obtain ⟨before', models', after', hsplit, hmodels', _⟩ := h.of_latest hb
  have hmem : models' ∈ before ++ models :: after := by simp [hsplit]
  have hkey := apart models (by simp) a hmodels models' hmem b hmodels' hab hba
  exact unchanged models (by simp) a hmodels models' hmem b hmodels' hkey

end PlateChat.Foundation.Merge
