/- PlateChat/Screen/Merging
   digest: What a list holds after any sequence of deliveries. -/

import PlateChat.Screen.Feeds
import PlateChat.Screen.Talk

set_option autoImplicit false
set_option relaxedAutoImplicit false

namespace PlateChat.Screen.Merging

open PlateChat.Foundation.Merge PlateChat.Model.Members PlateChat.Model.Profile
open PlateChat.Model.Message PlateChat.Binding.Services PlateChat.Binding.Users
open PlateChat.Screen.Feeds PlateChat.Screen.Talk

/-- A delivery that a service has handed over: what it made of some documents. -/
structure Handed {D M : Type} (models : Nat → List D → Option (List M)) where
  date : Nat
  documents : List D
  handed : List M
  parsed : models date documents = some handed

/-- One item for each key, in order, each from the last delivery that had its key, and of all
keys that were delivered. -/
structure Holds {τ κ : Type} (key : τ → κ) (r : τ → τ → Prop) (deliveries : List (List τ))
    (l : List τ) : Prop where
  keyed : (l.map key).Nodup
  sorted : l.Pairwise r
  latest : ∀ x ∈ l, ∃ before models after, deliveries = before ++ models :: after ∧ x ∈ models ∧
    ∀ later ∈ after, key x ∉ later.map key
  delivered : ∀ k, k ∈ l.map key ↔ ∃ models ∈ deliveries, k ∈ models.map key

/-- The items never change, and no two of them have the same date. -/
structure Fixed {τ κ : Type} (key : τ → κ) (date : τ → Nat) (deliveries : List (List τ)) :
    Prop where
  unchanged : ∀ models ∈ deliveries, ∀ a ∈ models, ∀ models' ∈ deliveries, ∀ b ∈ models',
    key a = key b → a = b
  apart : ∀ models ∈ deliveries, ∀ a ∈ models, ∀ models' ∈ deliveries, ∀ b ∈ models',
    date a = date b → key a = key b

section General

variable {τ κ : Type} [DecidableEq κ] {key : τ → κ} {r : τ → τ → Prop}
  {deliveries deliveries' : List (List τ)} {l l' : List τ}

private theorem holds_of_merged (h : Merged key r deliveries l) : Holds key r deliveries l :=
  ⟨h.keyed, h.sorted, fun _ hx => h.of_latest hx, h.mem_map⟩

private theorem eq_of_fixed {date : τ → Nat} (tied : ∀ a b, r a b → r b a → date a = date b)
    (h : Merged key r deliveries l) (h' : Merged key r deliveries' l')
    (same : ∀ models, models ∈ deliveries ↔ models ∈ deliveries')
    (fixed : Fixed key date deliveries) : l = l' := by
  refine h.eq h' same fixed.unchanged fun models hm a ha models' hm' b hb hab hba => ?_
  exact fixed.apart models hm a ha models' hm' b hb (tied a b hab hba)

end General

section Home

/-- The callbacks of `bindArticle` and of `bindNewArticle`. -/
inductive HomeHandler
  | observeArticle
  | refresh
  deriving DecidableEq

def homeCallback : HomeHandler → Outcome Article → Feed Article → Feed Article
  | .observeArticle => Home.observeArticle
  | .refresh => Home.refresh

def homeRun (s : Feed Article) (deliveries : List (HomeHandler × Handed articleModels)) :
    Feed Article :=
  deliveries.foldl (fun s d => homeCallback d.1 (.ok d.2.handed) s) s

def articlesOf (deliveries : List (HomeHandler × Handed articleModels)) : List (List Article) :=
  deliveries.map fun d => d.2.handed

theorem active_of_handed (d : Handed articleModels) : ∀ a ∈ d.handed, active a = true := by
  intro a ha
  have hparsed := d.parsed
  unfold articleModels at hparsed
  split at hparsed
  · obtain hmodels := Option.some.inj hparsed
    rw [← hmodels] at ha
    exact (List.mem_filter.mp ha).2
  · cases hparsed

theorem received_org {τ κ : Type} [DecidableEq κ] (key : τ → κ) (keep : τ → Bool)
    (r : τ → τ → Prop) [DecidableRel r] (visible : Device → τ → Bool) (models : List τ)
    (s : Feed τ) : (s.received key keep r visible models).org =
      ((unique key (models ++ s.org)).filter keep).insertionSort r := by
  unfold Feed.received
  dsimp only
  split <;> rfl

section Received

variable {τ κ : Type} [DecidableEq κ] {key : τ → κ} {keep : τ → Bool} {r : τ → τ → Prop}
  [DecidableRel r] {visible : Device → τ → Bool} {models : List τ} {s : Feed τ}

/-- Of each key the delivered item is held, or else the one held before. -/
theorem mem_received_org {x : τ} : x ∈ (s.received key keep r visible models).org ↔
    (version key models (key x)).or (version key s.org (key x)) = some x ∧ keep x = true := by
  rw [received_org, List.mem_insertionSort, List.mem_filter, mem_unique, version_append]

theorem received_device : (s.received key keep r visible models).device = s.device := by
  unfold Feed.received
  dsimp only
  split <;> rfl

theorem received_items : (s.received key keep r visible models).items =
    (s.received key keep r visible models).org.filter (visible s.device) := by
  unfold Feed.received
  dsimp only
  split <;> rfl

theorem received_of_length
    (h : s.items.length = (s.received key keep r visible models).items.length) :
    s.received key keep r visible models = (s.merge key keep r models).filterBlock visible := by
  rw [received_items, received_org] at h
  exact if_pos h

end Received

private theorem merged_homeRun (s : Feed Article) (empty : s.org = [])
    (deliveries : List (HomeHandler × Handed articleModels)) :
    Merged Article.key newestFirst (articlesOf deliveries) (homeRun s deliveries).org ∧
      ∀ a ∈ (homeRun s deliveries).org, active a = true := by
  induction deliveries using List.reverseRecOn with
  | nil =>
    have hempty : (homeRun s []).org = [] := empty
    rw [hempty]
    exact ⟨Merged.nil, fun _ h => nomatch h⟩
  | append_singleton deliveries d ih =>
    obtain ⟨handler, d⟩ := d
    obtain ⟨hmerged, hactive⟩ := ih
    have hrun : homeRun s (deliveries ++ [(handler, d)]) =
        homeCallback handler (.ok d.handed) (homeRun s deliveries) := by
      simp [homeRun]
    have hall : ∀ a ∈ unique Article.key (d.handed ++ (homeRun s deliveries).org),
        active a = true := by
      intro a ha
      rcases List.mem_append.mp (mem_of_version (mem_unique.mp ha)) with ha | ha
      · exact active_of_handed d a ha
      · exact hactive a ha
    have horg : ∃ keep : Article → Bool, (∀ a, active a = true → keep a = true) ∧
        (homeRun s (deliveries ++ [(handler, d)])).org =
          ((unique Article.key (d.handed ++ (homeRun s deliveries).org)).filter
            keep).insertionSort newestFirst := by
      rw [hrun]
      cases handler with
      | observeArticle => exact ⟨active, fun _ h => h, received_org _ _ _ _ _ _⟩
      | refresh => exact ⟨all, fun _ _ => rfl, received_org _ _ _ _ _ _⟩
    obtain ⟨keep, hkeep, horg⟩ := horg
    have hlist : articlesOf (deliveries ++ [(handler, d)]) =
        articlesOf deliveries ++ [d.handed] := by
      simp [articlesOf]
    rw [horg, hlist]
    refine ⟨hmerged.deliver fun a ha => hkeep a (hall a ha), fun a ha => ?_⟩
    have hmem := (List.mem_filter.mp ((List.perm_insertionSort _ _).mem_iff.mp ha)).1
    exact hall a hmem

end Home

section Search

def searchRun (s : Feed LoginUser) (deliveries : List (Handed loginUserModels)) : Feed LoginUser :=
  deliveries.foldl (fun s d => Search.observeUser (.ok d.handed) s) s

private theorem merged_searchRun (s : Feed LoginUser) (empty : s.org = [])
    (deliveries : List (Handed loginUserModels)) :
    Merged LoginUser.key newestUser (deliveries.map Handed.handed)
      (searchRun s deliveries).org := by
  induction deliveries using List.reverseRecOn with
  | nil =>
    have hempty : (searchRun s []).org = [] := empty
    rw [hempty]
    exact Merged.nil
  | append_singleton deliveries d ih =>
    have hrun : searchRun s (deliveries ++ [d]) =
        Search.observeUser (.ok d.handed) (searchRun s deliveries) := by
      simp [searchRun]
    have horg : (Search.observeUser (.ok d.handed) (searchRun s deliveries)).org =
        ((unique LoginUser.key (d.handed ++ (searchRun s deliveries).org)).filter
          all).insertionSort newestUser := received_org _ _ _ _ _ _
    rw [hrun, horg, List.map_append]
    exact ih.deliver fun _ _ => rfl

end Search

section Talk

def talkRun (messages : List ChatMessage) (deliveries : List (Handed chatMessageModels)) :
    List ChatMessage :=
  deliveries.foldl (fun messages d => showMessages (.ok d.handed) messages) messages

def oldestFirst (a b : ChatMessage) : Prop := a.sentDate ≤ b.sentDate

instance : DecidableRel oldestFirst := fun a b => Nat.decLe a.sentDate b.sentDate

instance : Std.Total oldestFirst := ⟨fun _ _ => Nat.le_total _ _⟩

instance : IsTrans ChatMessage oldestFirst := ⟨fun _ _ _ hab hbc => Nat.le_trans hab hbc⟩

private theorem merged_talkRun (deliveries : List (Handed chatMessageModels)) :
    Merged ChatMessage.messageId oldestFirst (deliveries.map Handed.handed)
      (talkRun [] deliveries) := by
  induction deliveries using List.reverseRecOn with
  | nil => exact Merged.nil
  | append_singleton deliveries d ih =>
    have hrun : talkRun [] (deliveries ++ [d]) =
        showMessages (.ok d.handed) (talkRun [] deliveries) := by
      simp [talkRun]
    have hshow : showMessages (.ok d.handed) (talkRun [] deliveries) =
        ((unique ChatMessage.messageId (d.handed ++ talkRun [] deliveries)).filter
          all).insertionSort oldestFirst := by
      have hfilter : (unique ChatMessage.messageId (d.handed ++ talkRun [] deliveries)).filter
          all = unique ChatMessage.messageId (d.handed ++ talkRun [] deliveries) :=
        List.filter_eq_self.mpr fun _ _ => rfl
      rw [hfilter]
      rfl
    rw [hrun, hshow, List.map_append]
    exact ih.deliver fun _ _ => rfl

end Talk

/-- The three lists that only deliveries fill: after any sequence of them each holds, in the
order of its screen, the last version of every item delivered; and of items that do not change
and have different dates, the same deliveries in another order or number make the same list. -/
theorem lists_hold_latest :
    (∀ (s : Feed Article) (deliveries : List (HomeHandler × Handed articleModels)), s.org = [] →
      Holds Article.key newestFirst (articlesOf deliveries) (homeRun s deliveries).org ∧
      ∀ deliveries', (∀ models, models ∈ articlesOf deliveries ↔ models ∈ articlesOf deliveries') →
        Fixed Article.key Article.createdDate (articlesOf deliveries) →
          (homeRun s deliveries).org = (homeRun s deliveries').org) ∧
    (∀ (s : Feed LoginUser) (deliveries : List (Handed loginUserModels)), s.org = [] →
      Holds LoginUser.key newestUser (deliveries.map Handed.handed) (searchRun s deliveries).org ∧
      ∀ deliveries' : List (Handed loginUserModels),
        (∀ models, models ∈ deliveries.map Handed.handed ↔
          models ∈ deliveries'.map Handed.handed) →
        Fixed LoginUser.key LoginUser.createdDate (deliveries.map Handed.handed) →
          (searchRun s deliveries).org = (searchRun s deliveries').org) ∧
    (∀ deliveries : List (Handed chatMessageModels),
      Holds ChatMessage.messageId oldestFirst (deliveries.map Handed.handed)
        (talkRun [] deliveries) ∧
      ∀ deliveries' : List (Handed chatMessageModels),
        (∀ models, models ∈ deliveries.map Handed.handed ↔
          models ∈ deliveries'.map Handed.handed) →
        Fixed ChatMessage.messageId ChatMessage.sentDate (deliveries.map Handed.handed) →
          talkRun [] deliveries = talkRun [] deliveries') := by
  refine ⟨fun s deliveries empty => ?_, fun s deliveries empty => ?_, fun deliveries => ?_⟩
  · have hmerged := fun deliveries => (merged_homeRun s empty deliveries).1
    refine ⟨holds_of_merged (hmerged deliveries), fun deliveries' same fixed => ?_⟩
    exact eq_of_fixed (fun _ _ hab hba => Nat.le_antisymm hba hab) (hmerged deliveries)
      (hmerged deliveries') same fixed
  · have hmerged := merged_searchRun s empty
    refine ⟨holds_of_merged (hmerged deliveries), fun deliveries' same fixed => ?_⟩
    exact eq_of_fixed (fun _ _ hab hba => Nat.le_antisymm hba hab) (hmerged deliveries)
      (hmerged deliveries') same fixed
  · refine ⟨holds_of_merged (merged_talkRun deliveries), fun deliveries' same fixed => ?_⟩
    exact eq_of_fixed (fun _ _ hab hba => Nat.le_antisymm hab hba) (merged_talkRun deliveries)
      (merged_talkRun deliveries') same fixed

section Example

private def article (key : Nat) (uid : Uid) (createdAt : Nat) : ArticleDocument :=
  (key, { uid := some uid, text := some "hello", status := some 1, createdAt := some createdAt })

private def home : Feed Article := { device := { uid := "alice" } }

private def firstPage : Handed articleModels :=
  ⟨9, [article 8 "carol" 5, article 7 "bob" 3], _, rfl⟩

private def newPage : Handed articleModels :=
  ⟨9, [article 9 "bob" 6, article 8 "carol" 5], _, rfl⟩

private def user (key : Uid) (createdAt : Nat) : LoginUserDocument :=
  (key, { email := some "", password := some "", status := some 1, createdAt := some createdAt })

private def search : Feed LoginUser := { device := { uid := "alice" } }

private def users : Handed loginUserModels := ⟨9, [user "bob" 1, user "carol" 2], _, rfl⟩

private def moreUsers : Handed loginUserModels := ⟨9, [user "dave" 4], _, rfl⟩

private def message (key : Nat) (createdAt : Nat) : ChatMessageDocument :=
  (key, ⟨some "bob", some 1, some createdAt, none, some "hi", none⟩)

private def messages : Handed chatMessageModels := ⟨9, [message 5 8, message 4 6], _, rfl⟩

private def oldMessages : Handed chatMessageModels := ⟨9, [message 3 2], _, rfl⟩

private theorem unchanged_messages : ∀ models ∈ [messages, oldMessages].map Handed.handed,
    ∀ a ∈ models, ∀ models' ∈ [messages, oldMessages].map Handed.handed, ∀ b ∈ models',
      a.messageId = b.messageId → a = b := by
  intro models hm a ha models' hm' b hb hkey
  have hkeys : (([messages, oldMessages].map Handed.handed).flatten.map
      ChatMessage.messageId).Nodup := by
    decide
  exact List.inj_on_of_nodup_map hkeys (List.mem_flatten.mpr ⟨models, hm, ha⟩)
    (List.mem_flatten.mpr ⟨models', hm', hb⟩) hkey

private theorem mem_swapped {τ : Type} {a b : τ} (x : τ) : x ∈ [a, b] ↔ x ∈ [b, a, b] := by
  simp only [List.mem_cons, List.not_mem_nil, or_false]
  tauto

theorem lists_hold_latest_swapped :
    (homeRun home [(.observeArticle, firstPage), (.refresh, newPage)]).org =
        (homeRun home
          [(.refresh, newPage), (.observeArticle, firstPage), (.refresh, newPage)]).org ∧
      (searchRun search [users, moreUsers]).org =
        (searchRun search [moreUsers, users, moreUsers]).org ∧
      talkRun [] [messages, oldMessages] = talkRun [] [oldMessages, messages, oldMessages] := by
  obtain ⟨hhome, hsearch, htalk⟩ := lists_hold_latest
  refine ⟨?_, ?_, ?_⟩
  · exact (hhome home _ rfl).2 _ mem_swapped ⟨by decide, by decide⟩
  · exact (hsearch search _ rfl).2 _ mem_swapped ⟨by decide, by decide⟩
  · exact (htalk _).2 _ mem_swapped ⟨unchanged_messages, by decide⟩

end Example

end PlateChat.Screen.Merging
