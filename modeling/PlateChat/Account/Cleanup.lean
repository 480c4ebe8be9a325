/- PlateChat/Account/Cleanup
   digest: The articles of a deleted user are all ended, a window of them at each delivery. -/

import PlateChat.Account.Window
import PlateChat.Foundation.Settle

set_option autoImplicit false
set_option relaxedAutoImplicit false

/-!
The deletion's listener ends the articles it is shown, and what it has ended leaves its
window. While one is active the window is not empty, so every delivery finds work, and
one for each article is enough.
-/

namespace PlateChat.Account.Cleanup

open PlateChat.Foundation.Run PlateChat.Foundation.EventLoop PlateChat.Foundation.Settle
open PlateChat.Model.Members PlateChat.Model.Profile
open PlateChat.Account.Service PlateChat.Account.Window

/-- The write that ends an article. -/
def ending (key : Nat) : Request := .setArticle key { status := some 0 }

/-- The article that a request ends. -/
def endedKey : Request → Option Nat
  | .setArticle key p => if p = { status := some 0 } then some key else none
  | _ => none

/-- The writes of articles that the program issues. -/
def Ordinary (r : Request) : Prop :=
  ∀ key p, r = .setArticle key p → p.status = none ∨ p = { status := some 0 }

def ActiveOf (u : Uid) (d : ArticleDoc) : Prop := d.uid = some u ∧ d.status = some 1

instance (u : Uid) (d : ArticleDoc) : Decidable (ActiveOf u d) :=
  inferInstanceAs (Decidable (_ ∧ _))

/-- A query finds the document, and it parses. -/
def Readable (d : ArticleDoc) : Prop := d.Parses ∧ d.createdAt.isSome

instance (d : ArticleDoc) : Decidable (Readable d) :=
  inferInstanceAs (Decidable (_ ∧ _))

/-- The keys of the active articles of `u`. -/
def activeKeys (u : Uid) (s : Backend) : List Nat :=
  (s.articles.filter fun a => ActiveOf u a.2).map Prod.fst

theorem mem_activeKeys {u : Uid} {s : Backend} {k : Nat} :
    k ∈ activeKeys u s ↔ ∃ d, (k, d) ∈ s.articles ∧ ActiveOf u d := by
  simp only [activeKeys, List.mem_map, List.mem_filter, decide_eq_true_eq, Prod.exists,
    exists_and_right, exists_eq_right]

theorem nodup_activeKeys {u : Uid} {s : Backend} (unique : (s.articles.map Prod.fst).Nodup) :
    (activeKeys u s).Nodup :=
  (List.filter_sublist.map Prod.fst).nodup unique

/-- The end of an article is on its way. -/
def Pending (w : Phone) (k : Nat) : Prop := ⟨ending k, none⟩ ∈ w.inflight

instance (w : Phone) (k : Nat) : Decidable (Pending w k) :=
  decidable_of_iff (∃ q ∈ w.inflight, q.request = ending k ∧ q.answer.isNone) <| by
    constructor
    · rintro ⟨⟨r, a⟩, hq, rfl, ha⟩
      obtain rfl := Option.isNone_iff_eq_none.mp ha
      exact hq
    · intro h
      exact ⟨_, h, rfl, rfl⟩

/-- The active articles whose end is not on its way. -/
def waiting (u : Uid) (w : Phone) : Nat :=
  (activeKeys u w.server).countP fun k => ¬ Pending w k

/-- The listener of the deletion is handed the articles. -/
def Delivers (u : Uid) (w : Phone) : Event Action Change → Prop
  | .deliver j true => ∃ x ∈ w.watches[j]?, x.listener = .endArticles u
  | _ => False

instance (u : Uid) (w : Phone) : ∀ e, Decidable (Delivers u w e)
  | .deliver j true => inferInstanceAs (Decidable (∃ x ∈ w.watches[j]?, x.listener = .endArticles u))
  | .deliver _ false => .isFalse id
  | .act _ => .isFalse id
  | .serve _ _ => .isFalse id
  | .handle _ => .isFalse id
  | .env _ => .isFalse id

/-- What other devices do to the articles, while nothing of `u` is posted: what is active then
was active before and can be read, and no article changes its author. -/
def PostsNothing (u : Uid) (s : Backend) : Change → Prop
  | .articles documents => (documents.map Prod.fst).Nodup ∧
      (∀ a ∈ documents, ActiveOf u a.2 → Readable a.2 ∧ a.1 ∈ activeKeys u s) ∧
      ∀ a ∈ documents, ∀ b ∈ s.articles, a.1 = b.1 → a.2.uid = b.2.uid
  | _ => True

instance (u : Uid) (s : Backend) : ∀ h, Decidable (PostsNothing u s h)
  | .articles documents => inferInstanceAs (Decidable ((documents.map Prod.fst).Nodup ∧
      (∀ a ∈ documents, ActiveOf u a.2 → Readable a.2 ∧ a.1 ∈ activeKeys u s) ∧
      ∀ a ∈ documents, ∀ b ∈ s.articles, a.1 = b.1 → a.2.uid = b.2.uid))
  | .profile _ _ => .isTrue trivial
  | .userBlock _ _ => .isTrue trivial
  | .userBlocked _ _ => .isTrue trivial

/-- Ends succeed, and the articles are handed over when no active one is about to be ended. -/
def Cleaning (u : Uid) (w : Phone) : Event Action Change → Prop
  | .serve i ok => ok = true ∨ ∀ q ∈ w.inflight[i]?, endedKey q.request = none
  | .deliver j ok => Delivers u w (.deliver j ok) → ∀ k ∈ activeKeys u w.server, ¬ Pending w k
  | .env h => PostsNothing u w.server h
  | .act _ | .handle _ => True

instance (u : Uid) (w : Phone) : ∀ e, Decidable (Cleaning u w e)
  | .serve i ok =>
    inferInstanceAs (Decidable (ok = true ∨ ∀ q ∈ w.inflight[i]?, endedKey q.request = none))
  | .deliver j ok => inferInstanceAs (Decidable (Delivers u w (.deliver j ok) →
      ∀ k ∈ activeKeys u w.server, ¬ Pending w k))
  | .env h => inferInstanceAs (Decidable (PostsNothing u w.server h))
  | .act _ => .isTrue trivial
  | .handle _ => .isTrue trivial

/-- Every active article of `u` can be read. -/
structure Sound (u : Uid) (w : Phone) : Prop where
  unique : (w.server.articles.map Prod.fst).Nodup
  readable : ∀ a ∈ w.server.articles, ActiveOf u a.2 → Readable a.2
  writes : ∀ q ∈ w.inflight, Ordinary q.request

/-- What the cleanup touches: it issues ends of active articles of `u` only, an end changes
nothing but a status, and nothing changes the author of an article. -/
structure Tidy (u : Uid) (w : Phone) (e : Event Action Change) : Prop where
  issues : Delivers u w e → ∃ o, notify w.server w.client (.endArticles u)
    (some (snapshot w.server (.endArticles u))) = some o ∧
      ∀ r ∈ o.requests, ∃ k ∈ activeKeys u w.server, r = ending k
  status : ∀ i k w', e = .serve i true → w.inflight[i]? = some ⟨ending k, none⟩ →
    step w e = some w' → w'.server.articles =
      w.server.articles.map fun a => if a.1 = k then (a.1, { a.2 with status := some 0 }) else a
  authors : ∀ w', step w e = some w' → ∀ k d d', (k, d) ∈ w.server.articles →
    (k, d') ∈ w'.server.articles → d'.uid = d.uid

theorem ends_window {u : Uid} {w : Phone} (sound : Sound u w) :
    notify w.server w.client (.endArticles u) (some (snapshot w.server (.endArticles u))) =
      some { client := w.client, requests :=
        ((articlesOf w.server.articles u).take deletedArticleLimit).map fun a => ending a.1 } := by
  have hall : ∀ a ∈ (articlesOf w.server.articles u).take deletedArticleLimit, a.2.Parses := by
    intro a ha
    obtain ⟨hmem, hactive⟩ := mem_articlesOf_iff.mp (List.mem_of_mem_take ha)
    exact (sound.readable a hmem ⟨hactive.1, hactive.2.1⟩).1
  show some (endArticlesDelivered w.server w.client _) = _
  rw [endArticlesDelivered_ends, ends, if_pos hall]
  rfl

theorem ends_one {u : Uid} {w : Phone} (sound : Sound u w) {k : Nat}
    (hk : k ∈ activeKeys u w.server) : ∃ j ∈ activeKeys u w.server,
      ending j ∈ ((articlesOf w.server.articles u).take deletedArticleLimit).map
        fun a => ending a.1 := by
  obtain ⟨d, hmem, hactive⟩ := mem_activeKeys.mp hk
  have hshown : (k, d) ∈ articlesOf w.server.articles u :=
    mem_articlesOf_iff.mpr ⟨hmem, hactive.1, hactive.2, (sound.readable _ hmem hactive).2⟩
  cases hlist : articlesOf w.server.articles u with
  | nil =>
    rw [hlist] at hshown
    cases hshown
  | cons a rest =>
    have ha : a ∈ articlesOf w.server.articles u := by
      rw [hlist]
      exact List.mem_cons_self
    obtain ⟨hfirst, huid, hstatus, -⟩ := mem_articlesOf_iff.mp ha
    refine ⟨a.1, mem_activeKeys.mpr ⟨a.2, hfirst, huid, hstatus⟩, ?_⟩
    exact List.mem_map.mpr ⟨a, List.mem_cons_self, rfl⟩

theorem ordinary_of_fromListener {r : Request} (h : fromListener r = false) : Ordinary r := by
  rintro key p rfl
  cases h

private theorem ordinary_repairs {want : ArticlePatch} {documents : List (Nat × ArticleDoc)} :
    ∀ r ∈ repairs want documents, Ordinary r := by
  intro r hr
  obtain ⟨-, a, -, -, rfl⟩ := mem_repairs.mp hr
  intro key p heq
  cases heq
  exact .inl rfl

theorem notify_ordinary {s : Backend} {d : Device} {l : Listener} {x : Option Snapshot}
    {o : Outcome} (ho : notify s d l x = some o) : ∀ r ∈ o.requests, Ordinary r := by
  intro r hr
  cases notify_notified ho with
  | propagate uid documents =>
    rw [articlesDelivered_repairs fun _ _ _ => profileData_missing] at hr
    exact ordinary_repairs r hr
  | propagateImage uid documents =>
    rw [articlesDelivered_repairs fun _ _ _ => imageData_missing] at hr
    exact ordinary_repairs r hr
  | endArticles uid documents =>
    rw [endArticlesDelivered_ends] at hr
    change r ∈ ends documents at hr
    unfold ends at hr
    split at hr
    · obtain ⟨a, -, rfl⟩ := List.mem_map.mp hr
      intro key p heq
      cases heq
      exact .inr rfl
    · cases hr
  | switchUser call loginEmail loginPassword documents =>
    unfold switchDelivered at hr
    split at hr
    · cases hr
    · split at hr
      · obtain rfl := List.mem_singleton.mp hr
        exact fun _ _ h => nomatch h
      · cases hr
  | failed | switchFailed | syncBlockUser | syncBlockedUser => cases hr

theorem active_patched {u : Uid} {key : Nat} {p : ArticlePatch}
    (ordinary : p.status = none ∨ p = { status := some 0 }) {a : Nat × ArticleDoc}
    (h : ActiveOf u (patched key p a).2) : ActiveOf u a.2 ∧
      (Readable a.2 → Readable (patched key p a).2) ∧
      (a.1 = key → p ≠ { status := some 0 }) := by
  rcases ordinary with hstatus | rfl
  · obtain ⟨huid, -, hstat, hdate⟩ := patched_query key hstatus a
    unfold ActiveOf at h ⊢
    unfold Readable
    rw [huid, hstat] at h
    rw [hdate, patched_parses hstatus]
    refine ⟨h, id, fun _ hend => ?_⟩
    rw [hend] at hstatus
    cases hstatus
  · by_cases hkey : a.1 = key
    · rw [patched, if_pos hkey] at h
      have hzero : (some 0 : Option Int) = some 1 := h.2
      cases hzero
    · rw [patched, if_neg hkey] at h ⊢
      exact ⟨h, id, fun heq => absurd heq hkey⟩

/-- What a step under the guard keeps: nothing becomes active, and an active article's end
that is on its way stays on its way. -/
structure Kept (u : Uid) (w w' : Phone) : Prop where
  sound : Sound u w'
  active : ∀ k ∈ activeKeys u w'.server, k ∈ activeKeys u w.server
  pending : ∀ k ∈ activeKeys u w'.server, Pending w k → Pending w' k

private theorem kept_same {u : Uid} {w w' : Phone} (sound : Sound u w)
    (hserver : w'.server = w.server) (writes : ∀ q ∈ w'.inflight, Ordinary q.request)
    (pending : ∀ k, Pending w k → Pending w' k) : Kept u w w' where
  sound := ⟨hserver ▸ sound.unique, hserver ▸ sound.readable, writes⟩
  active := hserver ▸ fun _ hk => hk
  pending k _ := pending k

private theorem sound_served {u : Uid} {w : Phone} (sound : Sound u w) {i : Nat} {r : Request}
    (ok : Bool) (hi : w.inflight[i]? = some ⟨r, none⟩) :
    Sound u (w.served program i r ok) ∧
      ∀ k ∈ activeKeys u (w.served program i r ok).server, k ∈ activeKeys u w.server := by
  have hr : Ordinary r := sound.writes _ (List.mem_of_getElem? hi)
  have hwrites : ∀ q ∈ (w.served program i r ok).inflight, Ordinary q.request :=
    World.calls_served sound.writes hr
  have hserver : (w.served program i r ok).server = (serve w.server r ok).1 := rfl
  rcases serve_articles w.server r ok with hsame | ⟨key, p, rfl, rfl, hmap⟩
  · rw [← hserver] at hsame
    refine ⟨⟨hsame ▸ sound.unique, hsame ▸ sound.readable, hwrites⟩, fun k hk => ?_⟩
    unfold activeKeys at hk ⊢
    rwa [hsame] at hk
  · rw [← hserver] at hmap
    have hp := hr key p rfl
    refine ⟨⟨?_, ?_, hwrites⟩, ?_⟩
    · rw [hmap, List.map_map]
      have hkeys : Prod.fst ∘ patched key p = Prod.fst := funext (patched_key key p)
      rw [hkeys]
      exact sound.unique
    · rw [hmap]
      intro b hb hactive
      obtain ⟨a, ha, rfl⟩ := List.mem_map.mp hb
      obtain ⟨hold, hreadable, -⟩ := active_patched hp hactive
      exact hreadable (sound.readable a ha hold)
    · intro k hk
      obtain ⟨d, hmem, hactive⟩ := mem_activeKeys.mp hk
      rw [hmap] at hmem
      obtain ⟨a, ha, heq⟩ := List.mem_map.mp hmem
      have hd : d = (patched key p a).2 := congrArg Prod.snd heq.symm
      have hkey : a.1 = k := by rw [← patched_key key p a, heq]
      rw [hd] at hactive
      exact mem_activeKeys.mpr ⟨a.2, hkey ▸ ha, (active_patched hp hactive).1⟩

private theorem kept_serve {u : Uid} {w : Phone} (sound : Sound u w) {i : Nat} {ok : Bool}
    {r : Request} (hi : w.inflight[i]? = some ⟨r, none⟩)
    (guard : Cleaning u w (.serve i ok)) : Kept u w (w.served program i r ok) := by
  obtain ⟨hsound, hactive⟩ := sound_served sound ok hi
  refine ⟨hsound, hactive, fun k hk hpending => ?_⟩
  have hother : ending k ≠ r := by
    rintro rfl
    -- the end of `k` has succeeded, so `k` is not active any more
    have hok : ok = true := by
      refine guard.resolve_right fun hnone => ?_
      have hended := hnone _ hi
      simp [endedKey, ending] at hended
    subst hok
    obtain ⟨d, hmem, hstill⟩ := mem_activeKeys.mp hk
    obtain ⟨a, -, heq⟩ := List.mem_map.mp
      (show (k, d) ∈ w.server.articles.map (patched k { status := some 0 }) from hmem)
    have hd : d = (patched k { status := some 0 } a).2 := congrArg Prod.snd heq.symm
    have hkey : a.1 = k := by rw [← patched_key k { status := some 0 } a, heq]
    rw [hd] at hstill
    exact (active_patched (.inr rfl) hstill).2.2 hkey rfl
  unfold Pending
  rw [World.served_inflight]
  exact mem_served_of_ne _ hi hpending fun heq => hother (congrArg Call.request heq)

theorem kept_step {u : Uid} {w w' : Phone} {e : Event Action Change} (sound : Sound u w)
    (guard : Cleaning u w e) (hstep : step w e = some w') : Kept u w w' := by
  cases Program.step_fires hstep with
  | act he =>
    obtain rfl := Option.some.inj he
    refine kept_same sound rfl (World.calls_perform sound.writes fun r hr => ?_) fun k hk => ?_
    · exact ordinary_of_fromListener (act_fromListener _ _ _ r hr)
    · exact pending_perform hk
  | serve hi => exact kept_serve sound hi guard
  | handle hi he =>
    refine kept_same sound rfl (World.calls_perform (World.calls_landed sound.writes)
      fun r hr => ?_) fun k hk => ?_
    · exact ordinary_of_fromListener (handle_fromListener he r hr)
    · exact pending_perform (pending_landed hi hk)
  | deliver hj he =>
    refine kept_same sound rfl (World.calls_perform sound.writes fun r hr => ?_) fun k hk => ?_
    · exact notify_ordinary he r hr
    · exact pending_perform hk
  | @env h =>
    cases h with
    | articles documents =>
      obtain ⟨hunique, hactive, -⟩ := guard
      refine ⟨⟨hunique, fun a ha h => (hactive a ha h).1, sound.writes⟩, fun k hk => ?_,
        fun _ _ hpending => hpending⟩
      obtain ⟨d, hmem, hact⟩ := mem_activeKeys.mp hk
      exact (hactive _ hmem hact).2
    | profile | userBlock | userBlocked =>
      exact ⟨⟨sound.unique, sound.readable, sound.writes⟩, fun _ hk => hk, fun _ _ hk => hk⟩

private theorem waiting_le {u : Uid} {w w' : Phone} (kept : Kept u w w') :
    waiting u w' ≤ waiting u w := by
  have hsub : (activeKeys u w'.server).Subperm (activeKeys u w.server) :=
    List.subperm_of_subset (nodup_activeKeys kept.sound.unique) kept.active
  have hfewer : waiting u w' ≤ (activeKeys u w'.server).countP fun k => ¬ Pending w k := by
    refine List.countP_mono_left fun k hk hnot => ?_
    simp only [decide_eq_true_eq] at hnot ⊢
    exact fun hpending => hnot (kept.pending k hk hpending)
  exact hfewer.trans (hsub.countP_le _)

private theorem waiting_lt {u : Uid} {w w' : Phone} {e : Event Action Change} (sound : Sound u w)
    (guard : Cleaning u w e) (delivers : Delivers u w e) (hstep : step w e = some w') {k : Nat}
    (hk : k ∈ activeKeys u w.server) : waiting u w' < waiting u w := by
  obtain ⟨i, hi, hissued⟩ := ends_one sound hk
  have hold : ¬ Pending w i := by
    cases e with
    | deliver j ok => exact guard delivers i hi
    | act | serve | handle | env => exact delivers.elim
  have hsame : w'.server = w.server ∧ Pending w' i ∧ ∀ k, Pending w k → Pending w' k := by
    cases Program.step_fires hstep with
    | @deliver j ok x o hj he =>
      cases ok with
      | false => exact delivers.elim
      | true =>
        obtain ⟨y, hy, hlistener⟩ := delivers
        obtain rfl : x = y := Option.some.inj (hj.symm.trans hy)
        rw [hlistener] at he ⊢
        obtain rfl := Option.some.inj ((ends_window sound).symm.trans he)
        refine ⟨rfl, ?_, fun k hk => pending_perform hk⟩
        exact List.mem_append_right _ (List.mem_map_of_mem hissued)
    | act | serve | handle | env => exact delivers.elim
  obtain ⟨hserver, hnew, hkept⟩ := hsame
  unfold waiting
  rw [hserver]
  refine countP_lt (fun k _ hnot => ?_) hi ?_ ?_
  · simp only [decide_eq_true_eq] at hnot ⊢
    exact fun hpending => hnot (hkept k hpending)
  · exact decide_eq_true hold
  · exact decide_eq_false fun hnot => hnot hnew

theorem tidy_of_sound {u : Uid} {w : Phone} {e : Event Action Change} (sound : Sound u w)
    (guard : Cleaning u w e) : Tidy u w e where
  issues _ := by
    refine ⟨_, ends_window sound, fun r hr => ?_⟩
    obtain ⟨a, ha, rfl⟩ := List.mem_map.mp hr
    obtain ⟨hmem, huid, hstatus, -⟩ := mem_articlesOf_iff.mp (List.mem_of_mem_take ha)
    exact ⟨a.1, mem_activeKeys.mpr ⟨a.2, hmem, huid, hstatus⟩, rfl⟩
  status := by
    rintro i k w' rfl hi hstep
    have hserved : step w (.serve i true) = some (w.served program i (ending k) true) :=
      Program.fires_step (.serve hi)
    obtain rfl := Option.some.inj (hserved.symm.trans hstep)
    rfl
  authors := by
    intro w' hstep k d d' hd hd'
    have hsame : w'.server.articles = w.server.articles → d'.uid = d.uid := by
      intro heq
      rw [heq] at hd'
      have hpair := List.inj_on_of_nodup_map sound.unique hd' hd rfl
      rw [show d' = d from congrArg Prod.snd hpair]
    cases Program.step_fires hstep with
    | act | handle | deliver => exact hsame rfl
    | @serve i ok r hi =>
      rcases serve_articles w.server r ok with heq | ⟨key, p, rfl, rfl, hmap⟩
      · exact hsame heq
      · change (k, d') ∈ (serve w.server (.setArticle key p) true).1.articles at hd'
        rw [hmap] at hd'
        obtain ⟨a, ha, heq⟩ := List.mem_map.mp hd'
        have hkey : a.1 = k := by rw [← patched_key key p a, heq]
        have hpair := List.inj_on_of_nodup_map sound.unique ha hd hkey
        have huid : (patched key p a).2.uid = a.2.uid := by
          unfold patched
          split <;> rfl
        rw [show d' = (patched key p a).2 from congrArg Prod.snd heq.symm, huid, hpair]
    | @env h =>
      cases h with
      | articles documents => exact guard.2.2 _ hd' _ hd rfl
      | profile | userBlock | userBlocked => exact hsame rfl

/-- However many articles `u` has active, after more deliveries than that none is; and the
deletion touches nothing else. -/
theorem articles_ended {u : Uid} {w w' : Phone} {events : List (Event Action Change)}
    (sound : Sound u w) (along : Along step (Cleaning u) w events)
    (hr : run step w events = some w') :
    Along step (Tidy u) w events ∧
      ((activeKeys u w.server).length < occurrences step (Delivers u) w events →
        activeKeys u w'.server = []) := by
  constructor
  · exact along_keeps (fun _ _ _ hs hg hstep => (kept_step hs hg hstep).sound)
      (fun _ _ hs hg => tidy_of_sound hs hg) along sound
  · intro hmany
    have hspent : activeKeys u w'.server = [] ∨
        waiting u w' + occurrences step (Delivers u) w events ≤ waiting u w := by
      refine occurrences_le (Sound u) (fun w => activeKeys u w.server = []) (waiting u)
        (fun _ _ _ hs hg hstep => (kept_step hs hg hstep).sound) ?_ ?_ along hr sound
      · intro s e t hs hg hstep hnone
        refine List.eq_nil_iff_forall_not_mem.mpr fun k hk => ?_
        have hold := (kept_step hs hg hstep).active k hk
        rw [hnone] at hold
        cases hold
      · intro s e t hs hg hstep
        by_cases hdelivers : Delivers u s e
        · by_cases hnone : activeKeys u s.server = []
          · exact .inl hnone
          · obtain ⟨k, hk⟩ := List.exists_mem_of_ne_nil _ hnone
            have hlt := waiting_lt hs hg hdelivers hstep hk
            rw [if_pos hdelivers]
            exact .inr (by omega)
        · rw [if_neg hdelivers]
          exact .inr (waiting_le (kept_step hs hg hstep))
    refine hspent.resolve_right fun hle => ?_
    have hstock : waiting u w ≤ (activeKeys u w.server).length := List.countP_le_length
    omega

section Example

private def posted (uid : Uid) (date : Nat) : ArticleDoc where
  uid := some uid
  text := some "hello"
  status := some 1
  createdAt := some date

/-- Alice has deleted her account; two of the articles are hers. -/
private def deleted : Phone where
  server := {
    uids := fun _ => "dave"
    urls := fun _ => ""
    articles := [(0, posted "alice" 3), (1, posted "bob" 4), (2, posted "alice" 5)] }
  client := { emails := fun _ => "" }
  watches := [⟨.endArticles "alice", true⟩]

private def threeDeliveries : List (Event Action Change) :=
  [.deliver 0 true, .serve 0 true, .handle 0, .serve 0 true, .handle 0, .deliver 0 true,
    .deliver 0 true]

theorem articles_ended_alice :
    Along step (Cleaning "alice") deleted threeDeliveries ∧
      (activeKeys "alice" deleted.server).length = 2 ∧
      occurrences step (Delivers "alice") deleted threeDeliveries = 3 ∧
      ∃ w, run step deleted threeDeliveries = some w ∧
        Along step (Tidy "alice") deleted threeDeliveries ∧ activeKeys "alice" w.server = [] := by
  have sound : Sound "alice" deleted := ⟨by decide, by decide, List.forall_mem_nil _⟩
  have cleaning : Along step (Cleaning "alice") deleted threeDeliveries := by decide
  have hactive : (activeKeys "alice" deleted.server).length = 2 := by decide
  have hdeliveries : occurrences step (Delivers "alice") deleted threeDeliveries = 3 := by decide
  have hrun : (run step deleted threeDeliveries).isSome = true := by decide
  obtain ⟨w, hw⟩ := Option.isSome_iff_exists.mp hrun
  obtain ⟨htidy, hended⟩ := articles_ended sound cleaning hw
  exact ⟨cleaning, hactive, hdeliveries, w, hw, htidy, hended (by rw [hactive, hdeliveries]; decide)⟩

end Example

end PlateChat.Account.Cleanup
