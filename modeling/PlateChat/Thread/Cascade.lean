/- PlateChat/Thread/Cascade
   digest: Which threads end with their root, and what that depends on. -/

import PlateChat.Foundation.Settle
import PlateChat.Thread.Roots

set_option autoImplicit false
set_option relaxedAutoImplicit false

/-!
Deleting a root ends the root itself; the rest of its thread follows only if the copy on
the author's device was marked. Then a listener ends what it is shown, until nothing
active is left that it can read.
-/

namespace PlateChat.Thread.Cascade

open PlateChat.Foundation.Run PlateChat.Foundation.EventLoop PlateChat.Foundation.Settle
open PlateChat.Model.Members PlateChat.Model.LocalData PlateChat.Model.Profile
open PlateChat.Thread.Service PlateChat.Thread.Roots

variable {names : KeyNames}

/-- The author has called `deleteArticle` with a copy of his article. -/
def deleted (names : KeyNames) (s : Board) (article : Article) : Network :=
  let w : Network := { server := s, client := {} }
  w.perform (act names w.client (.deleteArticle (some article.uid) article))

/-- The article carries the key of the thread. -/
def InThread (names : KeyNames) (article : Article) (d : ArticleDoc) : Prop :=
  d.parentKey = some (names.name article.key)

instance (article : Article) (d : ArticleDoc) : Decidable (InThread names article d) :=
  inferInstanceAs (Decidable (_ = _))

/-- Everything comes to rest, and then the thread as it was is ended and the rest untouched. -/
def EndsThread (names : KeyNames) (s : Board) (article : Article) : Prop :=
  Rests (step names) OnItsOwn (deleted names s article) ∧
    ∀ w, Reaches (step names) OnItsOwn (deleted names s article) w →
      Halted (step names) OnItsOwn w → ∀ k d, (k, d) ∈ s.articles →
        (InThread names article d → ∃ e, (k, e) ∈ w.server.articles ∧ e.status = some 0) ∧
        (¬ InThread names article d → k ≠ article.key → (k, d) ∈ w.server.articles)

/-- An article that the listener is shown and can read. -/
def Endable (d : ArticleDoc) : Prop :=
  d.status = some 1 ∧ d.createdAt.isSome ∧ d.uid.isSome ∧ d.text.isSome

instance (d : ArticleDoc) : Decidable (Endable d) :=
  inferInstanceAs (Decidable (_ ∧ _ ∧ _ ∧ _))

/-- What a delivery issues: an end for every article shown, if all of them parse. -/
def endsOf (_ : Listener) (documents : List (Nat × ArticleDoc)) : List Request :=
  if ∀ a ∈ documents, a.2.Parses then documents.map fun a => .endArticle a.1 else []

theorem mem_endsOf {l : Listener} {documents : List (Nat × ArticleDoc)} {r : Request} :
    r ∈ endsOf l documents ↔
      (∀ a ∈ documents, a.2.Parses) ∧ ∃ a ∈ documents, r = .endArticle a.1 := by
  unfold endsOf
  split
  · rename_i hparses
    rw [List.mem_map]
    constructor
    · rintro ⟨a, ha, rfl⟩
      exact ⟨hparses, a, ha, rfl⟩
    · rintro ⟨-, a, ha, rfl⟩
      exact ⟨a, ha, rfl⟩
  · rename_i hparses
    constructor
    · intro hr
      cases hr
    · rintro ⟨hall, -⟩
      exact absurd hall hparses

theorem notify_endsOf (s : Board) (c : Clients) (l : Listener)
    (documents : List (Nat × ArticleDoc)) :
    notify s c l (some documents) = some { client := c, requests := endsOf l documents } := by
  unfold endsOf
  cases hparsed : parseAll (Article.ofDocument s.clock) documents with
  | ok articles =>
    have hkeys := map_parseAll (f := Article.key) (g := Prod.fst)
      (fun d m h => (Article.keys_of_parsed h).1) hparsed
    have hmap := congrArg (List.map Request.endArticle) hkeys
    simp only [List.map_map] at hmap
    rw [if_pos (Article.parseAll_iff.mp ⟨articles, hparsed⟩)]
    simp only [notify, hparsed]
    exact congrArg (fun requests => some ({ client := c, requests := requests } : Outcome)) hmap
  | error e =>
    simp only [notify, hparsed]
    rw [if_neg (Article.parseAll_error hparsed)]

theorem lasting : Lasting (program names) where
  handle {s c r a e} h := by
    rcases r with ⟨data, article⟩ | key | article | key <;> rcases a with added | ok
    · obtain rfl := Option.some.inj h
      split
      · unfold addCompletion
        split
        · split <;> rfl
        · rfl
      · rfl
    · cases h
    · cases h
    · obtain rfl := Option.some.inj h
      rfl
    · cases h
    · obtain rfl := Option.some.inj h
      split
      · exact deleteCompletion_removed names c article
      · rfl
    · cases h
    · obtain rfl := Option.some.inj h
      rfl
  notify {s c l x e} h := by
    rcases x with _ | documents
    · obtain rfl := Option.some.inj h
      rfl
    · have hends := notify_endsOf s c l documents
      rw [show notify s c l (some documents) = some e from h] at hends
      obtain rfl := Option.some.inj hends
      rfl

/-- The articles with some of them ended. -/
def endAll (keys : List Nat) (articles : List (Nat × ArticleDoc)) : List (Nat × ArticleDoc) :=
  articles.map fun a => if a.1 ∈ keys then (a.1, ended a.2) else a

theorem mem_endAll {keys : List Nat} {articles : List (Nat × ArticleDoc)} {k : Nat}
    {d : ArticleDoc} : (k, d) ∈ endAll keys articles ↔
      ∃ e, (k, e) ∈ articles ∧ d = if k ∈ keys then ended e else e := by
  unfold endAll
  rw [List.mem_map]
  constructor
  · rintro ⟨⟨j, e⟩, hmem, heq⟩
    by_cases hj : j ∈ keys
    · rw [if_pos hj] at heq
      cases heq
      exact ⟨e, hmem, (if_pos hj).symm⟩
    · rw [if_neg hj] at heq
      cases heq
      exact ⟨d, hmem, (if_neg hj).symm⟩
  · rintro ⟨e, hmem, rfl⟩
    refine ⟨(k, e), hmem, ?_⟩
    by_cases hk : k ∈ keys
    · simp only [hk, if_true]
    · simp only [hk, if_false]

theorem endAll_nil (articles : List (Nat × ArticleDoc)) : endAll [] articles = articles := by
  unfold endAll
  simp only [List.not_mem_nil, if_false, List.map_id']

theorem update_endAll {s : Board} {keys : List Nat} {articles : List (Nat × ArticleDoc)}
    (h : s.articles = endAll keys articles) (key : Nat) :
    (s.update key ended).articles = endAll (key :: keys) articles := by
  show s.articles.map _ = _
  rw [h]
  unfold endAll
  rw [List.map_map]
  refine List.map_congr_left fun a _ => ?_
  obtain ⟨k, d⟩ := a
  by_cases hkey : k = key
  · subst hkey
    by_cases hk : k ∈ keys
    · simp only [Function.comp_apply, hk, if_true, List.mem_cons, or_true]
      rfl
    · simp only [Function.comp_apply, hk, if_false, if_true, List.mem_cons, true_or]
  · by_cases hk : k ∈ keys
    · simp only [Function.comp_apply, hk, hkey, if_true, if_false, List.mem_cons, or_true]
    · simp only [Function.comp_apply, hk, hkey, if_false, List.mem_cons, or_self]

/-- An article that the listener of a marked copy may end. -/
def Chosen (names : KeyNames) (s : Board) (article : Article) (k : Nat) : Prop :=
  article.parentKey = names.name article.key ∧
    ∃ d, (k, d) ∈ s.articles ∧ InThread names article d ∧ Endable d

/-- Only the root and chosen articles are ended or about to be. -/
structure Confined (names : KeyNames) (s : Board) (article : Article) (w : Network) : Prop where
  ends : ∃ keys, w.server.articles = endAll keys s.articles ∧
    ∀ k ∈ keys, k = article.key ∨ Chosen names s article k
  calls : ∀ q ∈ w.inflight, (q.request = .deleteArticle article ∨
    ∃ k, q.request = .endArticle k ∧ Chosen names s article k) ∧
      ∀ a ∈ q.answer, a = .written true
  watches : ∀ x ∈ w.watches, article.parentKey = names.name article.key ∧
    x.listener = ⟨article.parentKey⟩

/-- What the query shows of a confined board is chosen, once it parses. -/
private theorem chosen_of_query {s : Board} {article : Article} {t : Board} {keys : List Nat}
    (ends : t.articles = endAll keys s.articles)
    (marked : article.parentKey = names.name article.key) {a : Nat × ArticleDoc}
    (ha : a ∈ query t article.parentKey) (parses : a.2.Parses) : Chosen names s article a.1 := by
  obtain ⟨hmem, hparent, hstatus, hdate⟩ := mem_query.mp ha
  obtain ⟨k, d⟩ := a
  rw [ends] at hmem
  obtain ⟨e, hold, rfl⟩ := mem_endAll.mp hmem
  by_cases hk : k ∈ keys
  · simp [hk, ended] at hstatus
  · simp only [hk, if_false] at hparent hstatus hdate parses
    exact ⟨marked, e, hold, hparent.trans (congrArg some marked), hstatus, hdate, parses.1,
      parses.2.1⟩

private theorem ends_update {s : Board} {article : Article} {w : Network}
    (h : Confined names s article w) {key : Nat}
    (may : key = article.key ∨ Chosen names s article key) :
    ∃ keys, (w.server.update key ended).articles = endAll keys s.articles ∧
      ∀ k ∈ keys, k = article.key ∨ Chosen names s article k := by
  obtain ⟨keys, hkeys, hreached⟩ := h.ends
  refine ⟨key :: keys, update_endAll hkeys key, fun k hk => ?_⟩
  rcases List.mem_cons.mp hk with rfl | hk
  · exact may
  · exact hreached k hk

private theorem confined_served {s : Board} {article : Article} {w : Network}
    (h : Confined names s article w) {i : Nat} {r : Request}
    (hi : w.inflight[i]? = some ⟨r, none⟩) :
    Confined names s article (w.served (program names) i r true) := by
  have hwatches : ∀ x ∈ (w.served (program names) i r true).watches,
      article.parentKey = names.name article.key ∧ x.listener = ⟨article.parentKey⟩ := by
    intro x hx
    obtain ⟨y, hy, hl⟩ := mem_served_watches hx
    rw [← hl]
    exact h.watches y hy
  rcases (h.calls _ (List.mem_of_getElem? hi)).1 with rfl | ⟨k, rfl, hchosen⟩
  · refine ⟨ends_update h (.inl rfl), ?_, hwatches⟩
    exact World.calls_served h.calls ⟨.inl rfl, fun a ha => (Option.some.inj ha).symm⟩
  · refine ⟨ends_update h (.inr hchosen), ?_, hwatches⟩
    exact World.calls_served h.calls
      ⟨.inr ⟨k, rfl, hchosen⟩, fun a ha => (Option.some.inj ha).symm⟩

/-- The completions issue nothing; that of a marked copy's deletion registers its listener. -/
private theorem confined_handled {s : Board} {article : Article} {w : Network}
    (h : Confined names s article w) {i : Nat} {r : Request} {a : Answer} {e : Outcome}
    (hi : w.inflight[i]? = some ⟨r, some a⟩) (he : handle names w.client r a = some e) :
    Confined names s article ((w.landed i).perform e) := by
  obtain ⟨hrequest, hanswer⟩ := h.calls _ (List.mem_of_getElem? hi)
  obtain rfl := hanswer a rfl
  have hcalls : ∀ e : Outcome, e.requests = [] → ∀ q ∈ ((w.landed i).perform e).inflight,
      (q.request = .deleteArticle article ∨
        ∃ k, q.request = .endArticle k ∧ Chosen names s article k) ∧
      ∀ a ∈ q.answer, a = .written true := by
    intro e hnone
    refine World.calls_perform (World.calls_landed h.calls) ?_
    rw [hnone]
    exact List.forall_mem_nil _
  rcases hrequest with rfl | ⟨k, rfl, _⟩
  · obtain rfl := Option.some.inj he
    simp only [if_true]
    unfold deleteCompletion
    split
    · rename_i hmarked
      refine ⟨h.ends, hcalls _ rfl, fun x hx => ?_⟩
      rw [World.perform_watches _ _ rfl] at hx
      rcases List.mem_append.mp hx with hx | hx
      · exact h.watches x hx
      · obtain rfl := List.mem_singleton.mp hx
        exact ⟨hmarked.symm, rfl⟩
    · exact ⟨h.ends, hcalls _ rfl, fun x hx => h.watches x (mem_handled_watches rfl hx)⟩
  · obtain rfl := Option.some.inj he
    exact ⟨h.ends, hcalls _ rfl, fun x hx => h.watches x (mem_handled_watches rfl hx)⟩

private theorem confined_delivered {s : Board} {article : Article} {w : Network}
    (h : Confined names s article w) {j : Nat} {x : Watch Listener} {e : Outcome}
    (hj : w.watches[j]? = some x)
    (he : notify w.server w.client x.listener (some (query w.server x.listener.parentKey)) =
      some e) : Confined names s article ((w.delivered j x.listener).perform e) := by
  obtain ⟨keys, hkeys, _⟩ := h.ends
  obtain ⟨hmarked, hl⟩ := h.watches x (List.mem_of_getElem? hj)
  have hends := notify_endsOf w.server w.client x.listener (query w.server x.listener.parentKey)
  obtain rfl := Option.some.inj (hends.symm.trans he)
  refine ⟨h.ends, World.calls_perform (w := w.delivered j x.listener) h.calls ?_, ?_⟩
  · intro r hr
    obtain ⟨hparses, a, ha, rfl⟩ := (mem_endsOf (l := x.listener)).mp hr
    rw [hl] at ha hparses
    refine ⟨.inr ⟨a.1, rfl, chosen_of_query hkeys hmarked ha (hparses a ha)⟩, ?_⟩
    exact fun a ha => absurd ha (Option.not_mem_none a)
  · intro y hy
    obtain ⟨z, hz, hlz⟩ := mem_delivered_watches hj rfl hy
    rw [← hlz]
    exact h.watches z hz

private theorem confined_own {s : Board} {article : Article} {w w' : Network}
    (h : Confined names s article w) (own : Own (program names) w w') :
    Confined names s article w' := by
  cases own with
  | served hi => exact confined_served h hi
  | handled hi he => exact confined_handled h hi he
  | delivered hj _ he => exact confined_delivered h hj he

private def isDeletion (q : Call Request Answer) : Bool :=
  match q.request with
  | .deleteArticle _ => true
  | _ => false

/-- The deletions still to complete, and the articles still to end. -/
private def work (w : Network) : Nat :=
  w.inflight.countP isDeletion + w.server.articles.countP fun a => a.2.status ≠ some 0

private theorem active_update (s : Board) (key : Nat) :
    (s.update key ended).articles.countP (fun a => a.2.status ≠ some 0) <
        s.articles.countP (fun a => a.2.status ≠ some 0) ∨
      (s.update key ended).articles = s.articles := by
  by_cases hactive : ∃ a ∈ s.articles, a.1 = key ∧ a.2.status ≠ some 0
  · obtain ⟨a, ha, hkey, hstatus⟩ := hactive
    left
    show (s.articles.map _).countP _ < _
    rw [List.countP_map]
    refine countP_lt ?_ ha (decide_eq_true hstatus) ?_
    · intro b _ hb
      simp only [Function.comp_apply, decide_eq_true_eq] at hb ⊢
      by_cases hbkey : b.1 = key
      · rw [if_pos hbkey] at hb
        exact absurd rfl hb
      · rwa [if_neg hbkey] at hb
    · simp only [Function.comp_apply, if_pos hkey, decide_eq_false_iff_not]
      exact fun hne => hne rfl
  · right
    have hsame : ∀ b ∈ s.articles, (if b.1 = key then (key, ended b.2) else b) = b := by
      intro b hb
      by_cases hbkey : b.1 = key
      · have hstatus : b.2.status = some 0 := by
          by_contra hne
          exact hactive ⟨b, hb, hbkey, hne⟩
        rw [if_pos hbkey, ← hbkey, ended, ← hstatus]
      · rw [if_neg hbkey]
    show s.articles.map _ = s.articles
    rw [List.map_congr_left hsame, List.map_id']

private theorem query_congr {s t : Board} (h : t.articles = s.articles) (parentKey : String) :
    query t parentKey = query s parentKey := by
  unfold query
  rw [h]

private theorem descent_update {w : Network} {i key : Nat} {r : Request}
    (hi : w.inflight[i]? = some ⟨r, none⟩)
    (hserve : serve names w.server r true = (w.server.update key ended, .written true)) :
    work (w.served (program names) i r true) < work w ∨
      work (w.served (program names) i r true) = work w ∧ ∀ x ∈ w.watches,
        query (serve names w.server r true).1 x.listener.parentKey =
          query w.server x.listener.parentKey := by
  have hdeletions := countP_served isDeletion ⟨r, some (serve names w.server r true).2⟩ hi
  have hsame : isDeletion ⟨r, some (serve names w.server r true).2⟩ = isDeletion ⟨r, none⟩ := by
    cases r <;> rfl
  rw [hsame] at hdeletions
  have hserver : (w.served (program names) i r true).server = w.server.update key ended :=
    congrArg Prod.fst hserve
  have hflight : (w.served (program names) i r true).inflight =
      w.inflight.set i ⟨r, some (serve names w.server r true).2⟩ := World.served_inflight _ _ _ _ _
  have hactive := active_update w.server key
  rw [hserve]
  unfold work
  rw [hserver, hflight]
  rcases hactive with hless | hsame
  · left
    omega
  · right
    refine ⟨?_, fun x _ => query_congr hsame _⟩
    rw [hsame]
    omega

private theorem descent (s : Board) (article : Article) :
    Descent (program names) work (Confined names s article) where
  serve {w i r} h hi := by
    rcases (h.calls _ (List.mem_of_getElem? hi)).1 with rfl | ⟨k, rfl, _⟩
    · exact descent_update hi rfl
    · exact descent_update hi rfl
  handle {w i r a e} h hi he := by
    obtain ⟨hrequest, hanswer⟩ := h.calls _ (List.mem_of_getElem? hi)
    obtain rfl := hanswer a rfl
    have hdeletions := countP_landed isDeletion hi
    rcases hrequest with rfl | ⟨k, rfl, _⟩
    · left
      have hone : isDeletion ⟨.deleteArticle article, some (.written true)⟩ = true := rfl
      rw [hone, if_pos rfl] at hdeletions
      obtain rfl := Option.some.inj he
      have hquiet := deleteCompletion_requests names w.client article
      unfold work
      rw [World.perform_inflight]
      simp only [if_true, hquiet, List.map_nil, List.append_nil]
      show (w.inflight.eraseIdx i).countP isDeletion + w.server.articles.countP _ < _
      omega
    · right
      have hzero : isDeletion ⟨.endArticle k, some (.written true)⟩ = false := rfl
      rw [hzero] at hdeletions
      obtain rfl := Option.some.inj he
      refine ⟨?_, rfl, rfl⟩
      unfold work
      rw [World.perform_inflight]
      simp only [List.map_nil, List.append_nil]
      show (w.inflight.eraseIdx i).countP isDeletion + w.server.articles.countP _ = _
      simp only [Bool.false_eq_true, if_false] at hdeletions
      omega
  deliver {w j x e} h hj hdue he := by
    right
    have hends := notify_endsOf w.server w.client x.listener (query w.server x.listener.parentKey)
    obtain rfl := Option.some.inj (hends.symm.trans he)
    refine ⟨?_, rfl⟩
    have hnone : ((endsOf x.listener (query w.server x.listener.parentKey)).map
        fun r => (⟨r, none⟩ : Call Request Answer)).countP isDeletion = 0 := by
      rw [List.countP_eq_zero]
      intro q hq
      obtain ⟨r, hr, rfl⟩ := List.mem_map.mp hq
      obtain ⟨-, a, -, rfl⟩ := mem_endsOf.mp hr
      exact Bool.false_ne_true
    unfold work
    rw [World.perform_inflight, List.countP_append, hnone]
    rfl

private theorem confined_deleted (s : Board) (article : Article) :
    Confined names s article (deleted names s article) := by
  have hflight : (deleted names s article).inflight = [⟨.deleteArticle article, none⟩] := by
    simp [deleted, act, deleteArticle]
  have hwatches : (deleted names s article).watches = [] := by
    simp [deleted, act, deleteArticle, World.perform]
  refine ⟨⟨[], (endAll_nil _).symm, List.forall_mem_nil _⟩, ?_, ?_⟩
  · rw [hflight]
    intro q hq
    obtain rfl := List.mem_singleton.mp hq
    exact ⟨.inl rfl, fun a ha => absurd ha (Option.not_mem_none a)⟩
  · rw [hwatches]
    exact List.forall_mem_nil _

theorem rests (s : Board) (article : Article) :
    Rests (step names) OnItsOwn (deleted names s article) :=
  (descent s article).rests lasting confined_own (confined_deleted s article)

private theorem repairs (w : Network) (l : Listener) : Repairs endsOf (program names) l w where
  shows r hr hsame := by
    obtain ⟨-, a, ha, rfl⟩ := mem_endsOf.mp hr
    have hgone : a ∉ query (w.server.update a.1 ended) l.parentKey := by
      intro hshown
      obtain ⟨hmem, _, hstatus, _⟩ := mem_query.mp hshown
      rcases Board.mem_update.mp hmem with ⟨_, hne⟩ | ⟨_, d, _, hd⟩
      · exact hne rfl
      · rw [hd] at hstatus
        cases hstatus
    have hquery : query (w.server.update a.1 ended) l.parentKey = query w.server l.parentKey :=
      hsame
    rw [hquery] at hgone
    exact hgone ha
  issues {e} he r hr := by
    have hends := notify_endsOf w.server w.client l (query w.server l.parentKey)
    obtain rfl := Option.some.inj (hends.symm.trans he)
    exact hr

/-- The root is about to be ended, or ended. -/
private def RootEnding (article : Article) (w : Network) : Prop :=
  ⟨.deleteArticle article, none⟩ ∈ w.inflight ∨
    ∀ d, (article.key, d) ∈ w.server.articles → d.status = some 0

private theorem status_update {s : Board} {key k : Nat}
    (h : ∀ d, (k, d) ∈ s.articles → d.status = some 0) :
    ∀ d, (k, d) ∈ (s.update key ended).articles → d.status = some 0 := by
  intro d hmem
  rcases Board.mem_update.mp hmem with ⟨hold, _⟩ | ⟨_, e, _, rfl⟩
  · exact h d hold
  · rfl

private theorem rootEnding_own {s : Board} {article : Article} {w w' : Network}
    (confined : Confined names s article w) (h : RootEnding article w)
    (own : Own (program names) w w') : RootEnding article w' := by
  cases own with
  | @served i r hi =>
    rcases (confined.calls _ (List.mem_of_getElem? hi)).1 with rfl | ⟨k, rfl, _⟩
    · right
      intro d hmem
      rcases Board.mem_update.mp hmem with ⟨_, hne⟩ | ⟨_, e, _, rfl⟩
      · exact absurd rfl hne
      · rfl
    · rcases h with hpending | hended
      · exact .inl (pending_served hi hpending (by simp))
      · exact .inr (status_update hended)
  | handled hi he => exact h.imp_left fun hq => pending_perform (pending_landed hi hq)
  | delivered hj hdue he => exact h.imp_left fun hq => pending_perform (w := w.delivered _ _) hq

/-- The deletion of a marked copy is on its way, or its listener is at work. -/
private def ThreadEnding (names : KeyNames) (article : Article) (w : Network) : Prop :=
  (∃ q ∈ w.inflight, q.request = .deleteArticle article) ∨
    Attended endsOf (program names) ⟨article.parentKey⟩ w

private theorem threadEnding_own {s : Board} {article : Article} {w w' : Network}
    (marked : article.parentKey = names.name article.key)
    (confined : Confined names s article w) (h : ThreadEnding names article w)
    (own : Own (program names) w w') : ThreadEnding names article w' := by
  rcases h with ⟨q, hq, hrequest⟩ | hattended
  · cases own with
    | @served i r hi =>
      left
      rcases List.mem_cons.mp ((perm_landed hi).mem_iff.mp hq) with rfl | hrest
      · exact ⟨_, (perm_served _ hi).mem_iff.mpr List.mem_cons_self, hrequest⟩
      · exact ⟨q, (perm_served _ hi).mem_iff.mpr (List.mem_cons_of_mem _ hrest), hrequest⟩
    | @handled i r a e hi he =>
      rcases List.mem_cons.mp ((perm_landed hi).mem_iff.mp hq) with rfl | hrest
      · right
        obtain rfl := (confined.calls _ (List.mem_of_getElem? hi)).2 a rfl
        obtain rfl : r = .deleteArticle article := hrequest
        obtain rfl := Option.some.inj he
        refine ⟨⟨⟨article.parentKey⟩, true⟩, ?_, rfl, .inl rfl⟩
        simp only [if_true, deleteCompletion, if_pos marked.symm]
        rw [World.perform_watches _ _ rfl]
        exact List.mem_append_right _ List.mem_cons_self
      · exact .inl ⟨q, pending_perform (w := w.landed i) hrest, hrequest⟩
    | delivered hj hdue he =>
      exact .inl ⟨q, pending_perform (w := w.delivered _ _) hq, hrequest⟩
  · exact .inr (hattended.own lasting (repairs w _) own)

private theorem flight_halted {s : Board} {article : Article} {w : Network}
    (confined : Confined names s article w) (halt : Halted (step names) OnItsOwn w) :
    w.inflight = [] := by
  refine List.eq_nil_iff_forall_not_mem.mpr ?_
  rintro ⟨r, a⟩ hq
  obtain ⟨hrequest, hanswer⟩ := confined.calls _ hq
  cases a with
  | none => exact halted_served halt _ hq rfl
  | some a =>
    obtain rfl := hanswer a rfl
    have htrapped := halted_handled halt hq
    rcases hrequest with rfl | ⟨k, rfl, _⟩
    · cases htrapped
    · cases htrapped

/-- At rest a marked copy's listener has nothing readable left to end. -/
private theorem query_halted {s : Board} {article : Article} {w : Network}
    (confined : Confined names s article w) (ending : ThreadEnding names article w)
    (halt : Halted (step names) OnItsOwn w)
    (parses : ∀ a ∈ query w.server article.parentKey, a.2.Parses) :
    query w.server article.parentKey = [] := by
  rcases ending with ⟨q, hq, _⟩ | hattended
  · rw [flight_halted confined halt] at hq
    cases hq
  · have hsettled : endsOf ⟨article.parentKey⟩ (query w.server article.parentKey) = [] :=
      hattended.settled halt (notify_endsOf w.server w.client ⟨article.parentKey⟩ _)
    unfold endsOf at hsettled
    rw [if_pos parses] at hsettled
    exact List.map_eq_nil_iff.mp hsettled

/-- What has to be the case for a thread to end with its root: the rest of it has ended
already, or the copy is marked and the listener can read all that has not. -/
def Ending (names : KeyNames) (s : Board) (article : Article) : Prop :=
  (∀ a ∈ s.articles, InThread names article a.2 → a.1 ≠ article.key → a.2.status = some 0) ∨
    article.parentKey = names.name article.key ∧
      ∀ a ∈ s.articles, InThread names article a.2 → a.1 ≠ article.key →
        a.2.status = some 0 ∨ Endable a.2

private theorem root_halted {s : Board} {article : Article} {w : Network}
    (confined : Confined names s article w) (root : RootEnding article w)
    (halt : Halted (step names) OnItsOwn w) :
    ∀ d, (article.key, d) ∈ w.server.articles → d.status = some 0 := by
  rcases root with hpending | hended
  · rw [flight_halted confined halt] at hpending
    cases hpending
  · exact hended

private theorem query_parses {s : Board} {article : Article} {w : Network}
    (confined : Confined names s article w)
    (root : ∀ d, (article.key, d) ∈ w.server.articles → d.status = some 0)
    (marked : article.parentKey = names.name article.key)
    (endable : ∀ a ∈ s.articles, InThread names article a.2 → a.1 ≠ article.key →
      a.2.status = some 0 ∨ Endable a.2) :
    ∀ a ∈ query w.server article.parentKey, a.2.Parses := by
  obtain ⟨keys, hkeys, _⟩ := confined.ends
  rintro ⟨k, d⟩ ha
  obtain ⟨hshown, hparent, hone, _⟩ := mem_query.mp ha
  have hnow := hkeys ▸ hshown
  obtain ⟨e, hold, rfl⟩ := mem_endAll.mp hnow
  by_cases hk : k ∈ keys
  · simp [hk, ended] at hone
  · simp only [hk, if_false] at hparent hone hshown ⊢
    by_cases hroot : k = article.key
    · rw [root e (hroot ▸ hshown)] at hone
      cases hone
    · rcases endable (k, e) hold (hparent.trans (congrArg some marked)) hroot with hzero | hend
      · rw [hzero] at hone
        cases hone
      · exact ⟨hend.2.2.1, hend.2.2.2, by rw [hone]; rfl⟩

private theorem ends_of_ending {s : Board} {article : Article} (ending : Ending names s article)
    {w : Network} (confined : Confined names s article w) (root : RootEnding article w)
    (thread : article.parentKey = names.name article.key → ThreadEnding names article w)
    (halt : Halted (step names) OnItsOwn w) {k : Nat} {d : ArticleDoc} (hmem : (k, d) ∈ s.articles)
    (hthread : InThread names article d) : ∃ e, (k, e) ∈ w.server.articles ∧ e.status = some 0 := by
  obtain ⟨keys, hkeys, _⟩ := confined.ends
  have hnow : (k, if k ∈ keys then ended d else d) ∈ w.server.articles := by
    rw [hkeys]
    exact mem_endAll.mpr ⟨d, hmem, rfl⟩
  refine ⟨_, hnow, ?_⟩
  by_cases hk : k ∈ keys
  · rw [if_pos hk]
    rfl
  rw [if_neg hk] at hnow ⊢
  have hended := root_halted confined root halt
  by_cases hroot : k = article.key
  · exact hended d (hroot ▸ hnow)
  rcases ending with hall | ⟨marked, hall⟩
  · exact hall (k, d) hmem hthread hroot
  · rcases hall (k, d) hmem hthread hroot with hzero | ⟨hstatus, hdate, _, _⟩
    · exact hzero
    · -- an endable article would be shown, but its listener has left nothing
      have hempty := query_halted confined (thread marked) halt
        (query_parses confined hended marked hall)
      have hshown : (k, d) ∈ query w.server article.parentKey :=
        mem_query.mpr ⟨hnow, hthread.trans (congrArg some marked.symm), hstatus, hdate⟩
      rw [hempty] at hshown
      cases hshown

/-- A thread ends with its root, and nothing else changes, exactly when the rest of it has
ended already, or the author's copy is marked and all that is active can be read. -/
theorem ends_thread_iff {s : Board} (unique : (s.articles.map Prod.fst).Nodup)
    (article : Article) : EndsThread names s article ↔ Ending names s article := by
  have hstart : Confined names s article (deleted names s article) := confined_deleted s article
  have hpending : ⟨.deleteArticle article, none⟩ ∈ (deleted names s article).inflight := by
    simp [deleted, act, deleteArticle]
  constructor
  · rintro ⟨hrests, hends⟩
    obtain ⟨w, hreach, halt⟩ := hrests.halts
    have hconfined : Confined names s article w := reaches_own confined_own hreach hstart
    obtain ⟨keys, hkeys, hreached⟩ := hconfined.ends
    -- an article of the thread that was active has been chosen
    have hchosen : ∀ k d, (k, d) ∈ s.articles → InThread names article d → k ≠ article.key →
        d.status = some 0 ∨ Chosen names s article k := by
      intro k d hmem hthread hroot
      obtain ⟨e, hnow, hstatus⟩ := (hends w hreach halt k d hmem).1 hthread
      rw [hkeys] at hnow
      obtain ⟨d', hold, rfl⟩ := mem_endAll.mp hnow
      obtain rfl := eq_of_key unique hmem hold
      by_cases hk : k ∈ keys
      · exact .inr ((hreached k hk).resolve_left hroot)
      · rw [if_neg hk] at hstatus
        exact .inl hstatus
    by_cases marked : article.parentKey = names.name article.key
    · refine .inr ⟨marked, ?_⟩
      rintro ⟨k, d⟩ hmem hthread hroot
      refine (hchosen k d hmem hthread hroot).imp_right ?_
      rintro ⟨_, d', hold, _, hendable⟩
      obtain rfl := eq_of_key unique hmem hold
      exact hendable
    · left
      rintro ⟨k, d⟩ hmem hthread hroot
      exact (hchosen k d hmem hthread hroot).resolve_right fun h => marked h.1
  · intro ending
    refine ⟨rests s article, fun w hreach halt k d hmem => ?_⟩
    have hconfined : Confined names s article w := reaches_own confined_own hreach hstart
    have hroot : RootEnding article w := (reaches_own (P := fun w => Confined names s article w ∧
      RootEnding article w) (fun h own => ⟨confined_own h.1 own, rootEnding_own h.1 h.2 own⟩)
      hreach ⟨hstart, .inl hpending⟩).2
    have hthread : article.parentKey = names.name article.key → ThreadEnding names article w :=
      fun marked => (reaches_own (P := fun w => Confined names s article w ∧
        ThreadEnding names article w)
        (fun h own => ⟨confined_own h.1 own, threadEnding_own marked h.1 h.2 own⟩) hreach
        ⟨hstart, .inl ⟨_, hpending, rfl⟩⟩).2
    refine ⟨ends_of_ending ending hconfined hroot hthread halt hmem, fun hout hne => ?_⟩
    obtain ⟨keys, hkeys, hreached⟩ := hconfined.ends
    have hkept : k ∉ keys := by
      intro hk
      rcases hreached k hk with hkey | ⟨_, d', hold, hin, _⟩
      · exact hne hkey
      · obtain rfl := eq_of_key unique hmem hold
        exact hout hin
    rw [hkeys]
    exact mem_endAll.mpr ⟨d, hmem, (if_neg hkept).symm⟩

section Example

private def alices : AccountData := { nickname := some "alice" }

/-- Alice's copy of her article, as it was posted or after its first reply. -/
private def copyOf (parentKey : String) : Article where
  key := 0
  uid := "alice"
  text := "hello"
  createdDate := 0
  status := 1
  userNickname := "alice"
  userProfileImageUrl := ""
  userPrefectureId := 0
  userSex := 0
  parentKey := parentKey
  toKey := ""
  toUid := ""

/-- Alice posts, Bob replies and marks her article, and Alice deletes it by an old copy. -/
private def replied : List (Event Action Change) :=
  [.act (.createArticle (some "alice") alices "hello" none), .serve 0 true, .handle 0,
    .act (.createArticle (some "bob") alices "hi" (some (copyOf ""))), .serve 0 true, .handle 0,
    .serve 0 true, .handle 0, .act (.deleteArticle (some "alice") (copyOf "")), .serve 0 true,
    .handle 0]

/-- The copy is one of the first version; nothing moves any more, and Bob's reply is active. -/
theorem stale_copy_leaves_reply :
    Along (step KeyNames.plain) FromCopies { server := {}, client := {} } replied ∧
      ((run (step KeyNames.plain) { server := {}, client := {} } replied).map fun w =>
        w.server.articles.map fun a => (a.1, a.2.parentKey, a.2.status)) =
        some [(1, some "0", some 1), (0, some "0", some 0)] ∧
      ((run (step KeyNames.plain) { server := {}, client := {} } replied).map fun w =>
        (decide (Held w.server (copyOf "")), w.inflight.length, w.watches.length)) =
        some (true, 0, 0) := by
  decide

private def thread : Board where
  articles := [
    (1, { createData KeyNames.plain "bob" alices "hi" (some (copyOf "")) with createdAt := some 1 }),
    (0, { createData KeyNames.plain "alice" alices "hello" none with
      createdAt := some 0, parentKey := some "0" })]
  next := 2
  clock := 2

/-- By a marked copy the same thread ends. -/
theorem ends_thread_marked : EndsThread KeyNames.plain thread (copyOf "0") :=
  (ends_thread_iff (by decide) (copyOf "0")).mpr (.inr (by decide))

end Example

end PlateChat.Thread.Cascade
