/- PlateChat/Thread/Posting
   digest: One post through its three writes, and what is stored when its caller is told. -/

import PlateChat.History.Service
import PlateChat.Thread.Service

set_option autoImplicit false
set_option relaxedAutoImplicit false

/-!
A reply is stored first. Its entry in the reply log and the mark of its root follow in the
completion of that write, the entry with no handler, the mark with the caller's.
-/

namespace PlateChat.Thread.Posting

open PlateChat.Foundation.Run PlateChat.Foundation.EventLoop PlateChat.Foundation.Newest
open PlateChat.Model.Members PlateChat.Model.LocalData PlateChat.Model.Profile
open PlateChat.Model.Histories
open PlateChat.Thread.Service (KeyNames Board Clients createData Change)

/-- What is posted, by whom, and the copy of the article that it answers. -/
structure Post where
  uid : Uid
  account : AccountData
  text : String
  article : Option Article
  deriving DecidableEq

/-- The articles, and the documents of the reply log. -/
structure Server where
  board : Board
  logs : History.Service.Store := {}

/-- `completed` lists what the caller's handler has been given, the latest first. -/
structure Client where
  clients : Clients := {}
  currentUser : Option Uid
  devices : History.Service.Devices
  completed : List (Option ServiceError) := []

inductive Request
  | article (r : Thread.Service.Request)
  | log (r : History.Service.Request)

inductive Answer
  | article (a : Thread.Service.Answer)
  | log (a : History.Service.Answer)

abbrev Outcome := Effect Client Request Empty

/-- A post registers no listener. -/
def articleOutcome (c : Client) (e : Thread.Service.Outcome) : Outcome where
  client := { c with clients := e.client }
  requests := e.requests.map .article

def logOutcome (c : Client) (e : History.Service.Outcome) : Outcome where
  client := { c with devices := e.client }
  requests := e.requests.map .log

section Program

variable {Day : Type} [DecidableEq Day] (names : KeyNames) (cal : Calendar Day)
  (listing : Listing String String)

/-- The stored reply is entered in the log of the user it answers. -/
def replyLog (c : Client) : Thread.Service.Request → Thread.Service.Answer → Outcome
  | .addArticle _ (some article), .added (some key) =>
    logOutcome c (History.Service.addArticleReplyLog c.devices c.currentUser article.uid
      (names.name key))
  | _, _ => { client := c }

/-- What the caller's handler is given: the error of the first write or of the mark, and `nil`
when no mark is to be made or the mark is made. -/
def completions : Thread.Service.Request → Thread.Service.Answer → List (Option ServiceError)
  | .addArticle _ _, .added none => [some .updateError]
  | .addArticle _ (some article), .added (some _) => if article.parentKey = "" then [] else [none]
  | .addArticle _ none, .added (some _) => [none]
  | .markRoot _, .written ok => [if ok then none else some .updateError]
  | _, _ => []

@[simp] theorem completions_refused (d : ArticleDoc) (article : Option Article) :
    completions (.addArticle d article) (.added none) = [some .updateError] := by
  cases article <;> rfl

@[simp] theorem completions_written (d : ArticleDoc) (article : Option Article) (ok : Bool) :
    completions (.addArticle d article) (.written ok) = [] := by
  cases article <;> rfl

def handle (c : Client) : Request → Answer → Option Outcome
  | .article r, .article a => (Thread.Service.handle names c.clients r a).map fun e =>
    (replyLog names c r a).andThen fun c => articleOutcome { c with
      completed := completions r a ++ c.completed } e
  | .log r, .log a => (History.Service.handle cal listing c.devices r a).map (logOutcome c)
  | _, _ => none

def serve (s : Server) : Request → Bool → Server × Answer
  | .article r, ok =>
    let served := Thread.Service.serve names s.board r ok
    ({ s with board := served.1 }, .article served.2)
  | .log r, ok =>
    let served := History.Service.serve s.logs r ok
    ({ s with logs := served.1 }, .log served.2)

/-- One post; other clients write into the stored articles meanwhile. -/
def program : Program Server Client Empty Change Request Answer Empty Unit where
  act _ _ v := nomatch v
  serve := Posting.serve names
  handle _ c r a := Posting.handle names cal listing c r a
  snapshot _ _ := ()
  notify _ _ l _ := nomatch l
  env s h := { s with board := Thread.Service.env s.board h }

abbrev Network := World Server Client Request Answer Empty

/-- `createArticle` has been called. -/
def start (s : Server) (c : Client) (post : Post) : Network :=
  ({ server := s, client := c } : Network).perform (articleOutcome c
    (Thread.Service.createArticle names c.clients (some post.uid) post.account post.text
      post.article))

abbrev step : Network → Event Empty Change → Option Network := (program names cal listing).step

end Program

/-- The article that a reply leads back to. -/
def rootOf (names : KeyNames) (article : Article) : String :=
  if article.parentKey ≠ "" then article.parentKey else names.name article.key

/-- A stored article carries its own key as the key of its thread. -/
def Marked (names : KeyNames) (b : Board) (root : String) : Prop :=
  ∃ a ∈ b.articles, names.name a.1 = root ∧ a.2.parentKey = some root

instance (names : KeyNames) (b : Board) (root : String) : Decidable (Marked names b root) :=
  inferInstanceAs (Decidable (∃ a ∈ b.articles, _))

def ids (b : Board) : List Nat := b.articles.map Prod.fst

/-- Nothing of the post is stored. -/
def Untouched (s t : Server) : Prop := ids t.board = ids s.board ∧ t.logs = s.logs

/-- The post is stored, as one article more. -/
def Added (s : Server) (post : Post) (t : Server) : Prop :=
  ids t.board = s.board.next :: ids s.board ∧
    ∃ d, (s.board.next, d) ∈ t.board.articles ∧ d.uid = some post.uid ∧ d.text = some post.text

/-- What the store must be like when the handler is given this. -/
def Promised (names : KeyNames) (s : Server) (post : Post) (t : Server) :
    Option ServiceError → Prop
  | some _ => Untouched s t
  | none => Added s post t ∧ ∀ article ∈ post.article, Marked names t.board (rootOf names article)

section Updates

variable {names : KeyNames} {b : Board} {key : Nat} {f : ArticleDoc → ArticleDoc}

theorem ids_update : ids (b.update key f) = ids b := by
  unfold ids Board.update
  rw [List.map_map]
  refine List.map_congr_left fun a _ => ?_
  simp only [Function.comp_apply]
  split
  · exact (‹a.1 = key›).symm
  · rfl

theorem added_update {s t : Server} {post : Post} (h : Added s post t)
    (same : ∀ d, (f d).uid = d.uid ∧ (f d).text = d.text) :
    Added s post { t with board := t.board.update key f } := by
  obtain ⟨hids, d, hd, huid, htext⟩ := h
  refine ⟨ids_update.trans hids, ?_⟩
  by_cases hkey : s.board.next = key
  · refine ⟨f d, Board.mem_update.mpr (.inr ⟨hkey, d, hkey ▸ hd, rfl⟩), ?_⟩
    exact ⟨(same d).1.trans huid, (same d).2.trans htext⟩
  · exact ⟨d, Board.mem_update.mpr (.inl ⟨hd, hkey⟩), huid, htext⟩

theorem marked_update {root : String} (h : Marked names b root)
    (same : ∀ d, (f d).parentKey = d.parentKey ∨ (f d).parentKey = some (names.name key)) :
    Marked names (b.update key f) root := by
  obtain ⟨⟨k, d⟩, hd, hname, hparent⟩ := h
  by_cases hkey : k = key
  · subst hkey
    refine ⟨(k, f d), Board.mem_update.mpr (.inr ⟨rfl, d, hd, rfl⟩), hname, ?_⟩
    rcases same d with hsame | hown
    · exact hsame.trans hparent
    · exact hown.trans (congrArg some hname)
  · exact ⟨(k, d), Board.mem_update.mpr (.inl ⟨hd, hkey⟩), hname, hparent⟩

theorem marked_self (stored : key ∈ ids b) :
    Marked names (b.update key fun d => { d with parentKey := some (names.name key) })
      (names.name key) := by
  obtain ⟨⟨k, d⟩, hd, rfl⟩ := List.mem_map.mp stored
  exact ⟨_, Board.mem_update.mpr (.inr ⟨rfl, d, hd, rfl⟩), rfl, rfl⟩

end Updates

section Stages

variable {Day : Type} [DecidableEq Day] {names : KeyNames} {cal : Calendar Day}
  {listing : Listing String String} {s : Server} {post : Post}

/-- The first write of the post. -/
def firstWrite (names : KeyNames) (post : Post) : Request :=
  .article (.addArticle (createData names post.uid post.account post.text post.article)
    post.article)

/-- While the first write is in flight: its answer tells what is stored. -/
def Awaits (s : Server) (post : Post) (t : Server) : Option Answer → Prop
  | some (.article (.added (some _))) => Added s post t
  | _ => Untouched s t ∧ t.board.next = s.board.next

/-- What may be in flight once the post is stored. -/
def Follows (names : KeyNames) (post : Post) (t : Server) : Call Request Answer → Prop
  | ⟨.log _, _⟩ => True
  | ⟨.article r, a⟩ => ∃ article, post.article = some article ∧ article.parentKey = "" ∧
      r = .markRoot article.key ∧
      (a = some (.article (.written true)) → Marked names t.board (names.name article.key))

inductive Stage (names : KeyNames) (s : Server) (post : Post) (w : Network) : Prop
  | posting {answer : Option Answer} : w.inflight = [⟨firstWrite names post, answer⟩] →
      Awaits s post w.server answer → Stage names s post w
  | refused : Untouched s w.server → w.inflight = [] → Stage names s post w
  | posted : Added s post w.server → (∀ q ∈ w.inflight, Follows names post w.server q) →
      Stage names s post w

theorem stage_start (c : Client) : Stage names s post (start names s c post) :=
  .posting rfl ⟨⟨rfl, rfl⟩, rfl⟩

theorem stage_env {w : Network} (h : Stage names s post w) (change : Change) :
    Stage names s post (w.install (program names cal listing)
      ((program names cal listing).env w.server change)) := by
  obtain ⟨key, data⟩ := change
  cases h with
  | @posting answer hflight hawaits =>
    refine .posting hflight ?_
    unfold Awaits at hawaits ⊢
    split at hawaits
    · exact added_update hawaits fun d => ⟨rfl, rfl⟩
    · exact ⟨⟨ids_update.trans hawaits.1.1, hawaits.1.2⟩, hawaits.2⟩
  | refused huntouched hflight =>
    exact .refused ⟨ids_update.trans huntouched.1, huntouched.2⟩ hflight
  | posted hadded hfollows =>
    refine .posted (added_update hadded fun d => ⟨rfl, rfl⟩) fun q hq => ?_
    have hq' := hfollows q hq
    obtain ⟨r | r, a⟩ := q
    · obtain ⟨article, harticle, hkey, hr, hmarked⟩ := hq'
      exact ⟨article, harticle, hkey, hr, fun ha => marked_update (hmarked ha) fun d => .inl rfl⟩
    · trivial

private theorem awaits_served {t : Server} (huntouched : Untouched s t)
    (hnext : t.board.next = s.board.next) (ok : Bool) :
    Awaits s post (serve names t (firstWrite names post) ok).1
      (some (serve names t (firstWrite names post) ok).2) := by
  obtain ⟨hids, hlogs⟩ := huntouched
  cases ok with
  | true =>
    let d : ArticleDoc :=
      { createData names post.uid post.account post.text post.article with
        createdAt := some t.board.clock }
    show Added s post { t with board := t.board.add d }
    refine ⟨?_, d, List.mem_cons.mpr (.inl ?_), rfl, rfl⟩
    · show t.board.next :: ids t.board = _
      rw [hids, hnext]
    · rw [hnext]
  | false => exact ⟨⟨hids, hlogs⟩, hnext⟩

private theorem follows_marked {t : Server} {article : Article} {q : Call Request Answer}
    (h : Follows names post t q) (ok : Bool) :
    Follows names post (serve names t (.article (.markRoot article.key)) ok).1 q := by
  obtain ⟨r | r, a⟩ := q
  · obtain ⟨article', harticle', hkey', hr', hmarked⟩ := h
    refine ⟨article', harticle', hkey', hr', fun ha => ?_⟩
    cases ok with
    | true => exact marked_update (hmarked ha) fun d => .inr rfl
    | false => exact hmarked ha
  · trivial

theorem stage_serve (known : ∀ article ∈ post.article, article.key ∈ ids s.board) {w : Network}
    (h : Stage names s post w) {i : Nat} {r : Request} (ok : Bool)
    (hi : w.inflight[i]? = some ⟨r, none⟩) :
    Stage names s post (w.served (program names cal listing) i r ok) := by
  cases h with
  | @posting answer hflight hawaits =>
    rw [hflight] at hi
    rcases i with _ | i
    swap
    · cases hi
    cases hi
    obtain ⟨huntouched, hnext⟩ := hawaits
    have hserved : (w.served (program names cal listing) 0 (firstWrite names post) ok).inflight =
        [⟨firstWrite names post, some (serve names w.server (firstWrite names post) ok).2⟩] := by
      rw [World.served_inflight, hflight]
      rfl
    exact .posting hserved (awaits_served huntouched hnext ok)
  | refused huntouched hflight =>
    rw [hflight] at hi
    cases hi
  | posted hadded hfollows =>
    have hr := hfollows _ (List.mem_of_getElem? hi)
    rcases r with r | r
    · obtain ⟨article, harticle, hkey, rfl, -⟩ := hr
      have hstored : article.key ∈ ids w.server.board := by
        rw [hadded.1]
        exact List.mem_cons_of_mem _ (known article harticle)
      refine .posted ?_ (World.calls_served (fun q hq => follows_marked (hfollows q hq) ok)
        ⟨article, harticle, hkey, rfl, fun ha => ?_⟩)
      · cases ok with
        | true => exact added_update hadded fun d => ⟨rfl, rfl⟩
        | false => exact hadded
      · cases ok with
        | true => exact marked_self hstored
        | false => cases ha
    · have hkept : ∀ q ∈ w.inflight, Follows names post (serve names w.server (.log r) ok).1 q := by
        intro q hq
        have hq' := hfollows q hq
        obtain ⟨r | r, a⟩ := q <;> exact hq'
      exact .posted hadded (World.calls_served hkept trivial)

theorem handle_log {c : Client} {r : History.Service.Request} {a : Answer} {o : Outcome}
    (h : handle names cal listing c (.log r) a = some o) :
    o.client.completed = c.completed ∧ ∀ q ∈ o.requests, ∃ r', q = .log r' := by
  cases a with
  | article a => cases h
  | log a =>
    obtain ⟨e, _, rfl⟩ := Option.map_eq_some_iff.mp h
    exact ⟨rfl, fun q hq => (List.mem_map.mp hq).imp fun r' hr' => hr'.2.symm⟩

theorem replyLog_completed (c : Client) (r : Thread.Service.Request) (a : Thread.Service.Answer) :
    (replyLog names c r a).client.completed = c.completed := by
  unfold replyLog
  split <;> rfl

theorem replyLog_requests (c : Client) (r : Thread.Service.Request) (a : Thread.Service.Answer) :
    ∀ q ∈ (replyLog names c r a).requests, ∃ r', q = .log r' := by
  unfold replyLog
  split
  · exact fun q hq => (List.mem_map.mp hq).imp fun r' hr' => hr'.2.symm
  · exact fun q hq => absurd hq List.not_mem_nil

theorem replyLog_refused (c : Client) (data : ArticleDoc) (article : Option Article) :
    replyLog names c (.addArticle data article) (.added none) = { client := c } := by
  cases article <;> rfl

theorem handle_article {c : Client} {r : Thread.Service.Request} {a : Answer} {o : Outcome}
    (h : handle names cal listing c (.article r) a = some o) :
    ∃ b e, a = .article b ∧ Thread.Service.handle names c.clients r b = some e ∧
      o.client.completed = completions r b ++ c.completed ∧
      ∀ q ∈ o.requests, (∃ r', q = .log r') ∨ ∃ r' ∈ e.requests, q = .article r' := by
  cases a with
  | log a => cases h
  | article b =>
    obtain ⟨e, he, rfl⟩ := Option.map_eq_some_iff.mp h
    refine ⟨b, e, rfl, he, ?_, fun q hq => ?_⟩
    · show completions r b ++ (replyLog names c r b).client.completed = _
      rw [replyLog_completed]
    · rcases List.mem_append.mp hq with hq | hq
      · exact .inl (replyLog_requests c r b q hq)
      · obtain ⟨r', hr', rfl⟩ := List.mem_map.mp hq
        exact .inr ⟨r', hr', rfl⟩

/-- After the first write a root whose copy is not marked is marked, and nothing else is. -/
theorem follows_added {c : Clients} {e : Thread.Service.Outcome} {data : ArticleDoc} {key : Nat}
    (he : Thread.Service.handle names c (.addArticle data post.article) (.added (some key)) = some e)
    {r : Thread.Service.Request} (hr : r ∈ e.requests) (t : Server) :
    Follows names post t ⟨.article r, none⟩ := by
  obtain rfl := Option.some.inj he
  rw [Option.isSome_some, if_pos rfl] at hr
  unfold Thread.Service.addCompletion at hr
  split at hr
  · rename_i article harticle
    split at hr
    · rename_i hkey
      dsimp only at hr
      split at hr
      · obtain rfl := List.mem_singleton.mp hr
        exact ⟨article, harticle, hkey, rfl, fun ha => nomatch ha⟩
      · cases hr
    · cases hr
  · cases hr

theorem stage_handle {w : Network} (h : Stage names s post w) {i : Nat} {r : Request} {a : Answer}
    {o : Outcome} (hi : w.inflight[i]? = some ⟨r, some a⟩)
    (ho : handle names cal listing w.client r a = some o) :
    Stage names s post ((w.landed i).perform o) := by
  cases h with
  | @posting answer hflight hawaits =>
    rw [hflight] at hi
    rcases i with _ | i
    swap
    · cases hi
    cases hi
    have hnone : (w.landed 0).inflight = [] := by
      show w.inflight.eraseIdx 0 = []
      rw [hflight]
      rfl
    obtain ⟨b, e, rfl, he, -, hrequests⟩ := handle_article ho
    cases b with
    | written ok => cases he
    | added key =>
      cases key with
      | none =>
        obtain rfl := Option.some.inj he
        have hquiet : o.requests = [] := by
          obtain rfl := Option.some.inj ho
          show (replyLog names w.client (.addArticle _ post.article) (.added none)).requests ++ _ = []
          rw [replyLog_refused]
          rfl
        refine .refused hawaits.1 ?_
        rw [World.perform_inflight, hnone, hquiet]
        rfl
      | some key =>
        refine .posted hawaits ?_
        refine World.calls_perform (fun q hq => ?_) fun q hq => ?_
        · rw [hnone] at hq
          cases hq
        · rcases hrequests q hq with ⟨r', rfl⟩ | ⟨r', hr', rfl⟩
          · trivial
          · exact follows_added he hr' _
  | refused huntouched hflight =>
    rw [hflight] at hi
    cases hi
  | posted hadded hfollows =>
    refine .posted hadded (World.calls_perform (World.calls_landed hfollows) fun q hq => ?_)
    have hr := hfollows _ (List.mem_of_getElem? hi)
    rcases r with r | r
    · obtain ⟨article, harticle, hkey, rfl, -⟩ := hr
      obtain ⟨b, e, rfl, he, -, hrequests⟩ := handle_article ho
      cases b with
      | added key => cases he
      | written ok =>
        obtain rfl := Option.some.inj he
        rcases hrequests q hq with ⟨r', rfl⟩ | ⟨r', hr', rfl⟩
        · trivial
        · cases hr'
    · obtain ⟨r', rfl⟩ := (handle_log ho).2 q hq
      trivial

theorem stage_step (known : ∀ article ∈ post.article, article.key ∈ ids s.board) {w w' : Network}
    {ev : Event Empty Change} (h : Stage names s post w)
    (hstep : step names cal listing w ev = some w') : Stage names s post w' := by
  have hfires := Program.step_fires hstep
  cases hfires with
  | @act v e he => exact v.elim
  | serve hi => exact stage_serve known h _ hi
  | handle hi ho => exact stage_handle h hi ho
  | @deliver j ok x e hj he => exact x.listener.elim
  | env => exact stage_env h _

/-- When the handler has just been given something, the store is as it says. -/
def AllOrNothing (names : KeyNames) (cal : Calendar Day) (listing : Listing String String)
    (s : Server) (post : Post) (w : Network) (ev : Event Empty Change) : Prop :=
  ∀ w' ∈ step names cal listing w ev, ∀ result,
    w'.client.completed = result :: w.client.completed → Promised names s post w'.server result

/-- The mark of the root is not refused; and when a reply is stored whose copy of the answered
article names a root, that root is marked already. -/
def Whole (names : KeyNames) (w : Network) : Event Empty Change → Prop
  | .handle i =>
    match w.inflight[i]? with
    | some ⟨.article (.markRoot _), some (.article (.written ok))⟩ => ok = true
    | some ⟨.article (.addArticle _ (some article)), some (.article (.added (some _)))⟩ =>
      article.parentKey ≠ "" → Marked names w.server.board article.parentKey
    | _ => True
  | _ => True

theorem untouched_not_added {t : Server} (h : Added s post t) : ¬ Untouched s t := by
  intro huntouched
  have hlength := congrArg List.length (h.1.symm.trans huntouched.1)
  rw [List.length_cons] at hlength
  omega

theorem promised_first (c : Client) {t : Server} {b : Thread.Service.Answer}
    (awaits : Awaits s post t (some (.article b))) :
    (∀ result, completions (.addArticle (createData names post.uid post.account post.text
        post.article) post.article) b ++ c.completed = result :: c.completed →
      Promised names s post t result) ↔
    ∀ article ∈ post.article, ∀ key, b = .added (some key) → article.parentKey ≠ "" →
      Marked names t.board article.parentKey := by
  rcases b with (_ | key) | ok
  · -- an error, and nothing has been stored
    rw [completions_refused]
    refine iff_of_true (fun result hresult => ?_) fun article _ key hkey => nomatch hkey
    obtain rfl := (List.cons.inj hresult).1
    exact awaits.1
  · have hadded : Added s post t := awaits
    rcases harticle : post.article with _ | article
    · refine iff_of_true (fun result hresult => ?_) fun article harticle => nomatch harticle
      obtain rfl := (List.cons.inj hresult).1
      refine ⟨hadded, fun article hmem => ?_⟩
      rw [harticle] at hmem
      cases hmem
    · by_cases hkey : article.parentKey = ""
      · -- the caller is told by the mark
        refine iff_of_true (fun result hresult => ?_) fun article' hmem key' _ hne => ?_
        · have hnone : completions (.addArticle (createData names post.uid post.account post.text
              (some article)) (some article)) (.added (some key)) = [] := if_pos hkey
          rw [hnone] at hresult
          exact absurd (congrArg List.length hresult) (by simp)
        · obtain rfl := Option.some.inj hmem
          exact absurd hkey hne
      · have hone : completions (.addArticle (createData names post.uid post.account post.text
            (some article)) (some article)) (.added (some key)) = [none] := if_neg hkey
        rw [hone]
        have hroot : rootOf names article = article.parentKey := if_pos hkey
        constructor
        · intro h article' hmem key' _ _
          obtain rfl := Option.some.inj hmem
          have hmarked := (h none rfl).2 article harticle
          rwa [hroot] at hmarked
        · intro h result hresult
          obtain rfl := (List.cons.inj hresult).1
          refine ⟨hadded, fun article' hmem => ?_⟩
          obtain rfl := Option.some.inj (harticle.symm.trans hmem)
          rw [hroot]
          exact h article rfl key rfl hkey
  · refine iff_of_true (fun result hresult => ?_) fun article _ key hkey => nomatch hkey
    rw [completions_written] at hresult
    exact absurd (congrArg List.length hresult) (by simp)

theorem promised_of_same {completed completed' : List (Option ServiceError)} {t : Server}
    (same : completed' = completed) (result : Option ServiceError)
    (hresult : completed' = result :: completed) : Promised names s post t result := by
  rw [same] at hresult
  exact absurd (congrArg List.length hresult) (by simp)

theorem allOrNothing_handle {w : Network} {i : Nat} {r : Request} {a : Answer} {o : Outcome}
    (hi : w.inflight[i]? = some ⟨r, some a⟩)
    (ho : handle names cal listing w.client r a = some o) :
    AllOrNothing names cal listing s post w (.handle i) ↔ ∀ result,
      o.client.completed = result :: w.client.completed →
        Promised names s post w.server result :=
  next_iff (Program.fires_step (.handle hi ho))

/-- A completion that does not run tells nothing. -/
theorem allOrNothing_stuck {w : Network} {ev : Event Empty Change}
    (h : step names cal listing w ev = none) : AllOrNothing names cal listing s post w ev := by
  intro w' hw'
  rw [h] at hw'
  cases hw'

theorem allOrNothing_trapped {w : Network} {i : Nat} {r : Request} {a : Answer}
    (hi : w.inflight[i]? = some ⟨r, some a⟩)
    (ho : handle names cal listing w.client r a = none) :
    AllOrNothing names cal listing s post w (.handle i) := by
  refine allOrNothing_stuck ?_
  simp only [step, Program.step, hi]
  exact congrArg (Option.map _) ho

private theorem whole_first {w : Network} (i : Nat) {a : Answer}
    (hi : w.inflight[i]? = some ⟨firstWrite names post, some a⟩)
    (awaits : Awaits s post w.server (some a)) :
    AllOrNothing names cal listing s post w (.handle i) ↔ Whole names w (.handle i) := by
  have hwhole : Whole names w (.handle i) ↔ ∀ article ∈ post.article, ∀ key,
      a = .article (.added (some key)) → article.parentKey ≠ "" →
        Marked names w.server.board article.parentKey := by
    rw [Whole, hi, firstWrite]
    rcases post.article with _ | article
    · exact iff_of_true trivial fun article h => nomatch h
    · rcases a with ((_ | key) | ok) | a <;> simp
  rw [hwhole]
  rcases hstep : handle names cal listing w.client (firstWrite names post) a with _ | o
  · refine iff_of_true (allOrNothing_trapped hi hstep) fun article _ key ha => ?_
    rw [ha] at hstep
    cases hstep
  · obtain ⟨b, e, rfl, -, hcompleted, -⟩ := handle_article hstep
    rw [allOrNothing_handle hi hstep, hcompleted, promised_first w.client awaits]
    simp

private theorem whole_mark {w : Network} (hadded : Added s post w.server) (i : Nat)
    {article : Article} {a : Answer} (harticle : post.article = some article)
    (hkey : article.parentKey = "")
    (hmarked : a = .article (.written true) →
      Marked names w.server.board (names.name article.key))
    (hi : w.inflight[i]? = some ⟨.article (.markRoot article.key), some a⟩) :
    AllOrNothing names cal listing s post w (.handle i) ↔ Whole names w (.handle i) := by
  have hwhole : Whole names w (.handle i) ↔ a ≠ .article (.written false) := by
    rw [Whole, hi]
    rcases a with (key | ok) | a
    · simp
    · cases ok <;> simp
    · simp
  rw [hwhole]
  rcases hstep : handle names cal listing w.client (.article (.markRoot article.key)) a with _ | o
  · refine iff_of_true (allOrNothing_trapped hi hstep) ?_
    rintro rfl
    cases hstep
  · obtain ⟨b, e, rfl, he, hcompleted, -⟩ := handle_article hstep
    rw [allOrNothing_handle hi hstep, hcompleted]
    rcases b with key | ok
    · cases he
    cases ok with
    | true =>
      refine iff_of_true (fun result hresult => ?_) (by simp)
      obtain rfl := (List.cons.inj hresult).1
      refine ⟨hadded, fun article' hmem => ?_⟩
      obtain rfl := Option.some.inj (harticle.symm.trans hmem)
      have hroot : rootOf names article = names.name article.key := if_neg (not_not.mpr hkey)
      rw [hroot]
      exact hmarked rfl
    | false =>
      refine iff_of_false (fun h => ?_) (by simp)
      exact untouched_not_added hadded (h (some .updateError) rfl)

theorem whole_iff {w : Network} (h : Stage names s post w) (ev : Event Empty Change) :
    AllOrNothing names cal listing s post w ev ↔ Whole names w ev := by
  cases ev with
  | act v => exact v.elim
  | serve i ok =>
    refine iff_of_true (fun w' hstep => promised_of_same ?_) trivial
    cases Program.step_fires hstep
    rfl
  | deliver j ok =>
    refine iff_of_true (fun w' hstep => ?_) trivial
    have hfires := Program.step_fires hstep
    cases hfires with
    | @deliver j ok x e hj he => exact x.listener.elim
  | env change =>
    refine iff_of_true (fun w' hstep => promised_of_same ?_) trivial
    cases Program.step_fires hstep
    rfl
  | handle i =>
    rcases hi : w.inflight[i]? with _ | ⟨r, _ | a⟩
    · refine iff_of_true (allOrNothing_stuck ?_) ?_
      · simp only [step, Program.step, hi]
      · simp only [Whole, hi]
    · refine iff_of_true (allOrNothing_stuck ?_) ?_
      · simp only [step, Program.step, hi]
      · simp only [Whole, hi]
    · cases h with
      | @posting answer hflight hawaits =>
        have hfirst : w.inflight[i]? = some ⟨firstWrite names post, answer⟩ := by
          rcases i with _ | i
          · rw [hflight]
            rfl
          · rw [hflight] at hi
            cases hi
        obtain ⟨rfl, rfl⟩ := Call.mk.inj (Option.some.inj (hi.symm.trans hfirst))
        exact whole_first i hi hawaits
      | refused huntouched hflight =>
        rw [hflight] at hi
        cases hi
      | posted hadded hfollows =>
        have hr := hfollows _ (List.mem_of_getElem? hi)
        rcases r with r | r
        · obtain ⟨article, harticle, hkey, rfl, hmarked⟩ := hr
          exact whole_mark hadded i harticle hkey (fun ha => hmarked (congrArg some ha)) hi
        · refine iff_of_true ?_ (by simp only [Whole, hi])
          rcases hstep : handle names cal listing w.client (.log r) a with _ | o
          · exact allOrNothing_trapped hi hstep
          · exact (allOrNothing_handle hi hstep).mpr (promised_of_same (handle_log hstep).1)

/-- A post whose caller is told nothing but what is so: exactly when its mark is not refused and
no reply is stored under a root that is not marked. -/
theorem all_or_nothing_iff (c : Client)
    (known : ∀ article ∈ post.article, article.key ∈ ids s.board)
    (events : List (Event Empty Change)) :
    Along (step names cal listing) (AllOrNothing names cal listing s post) (start names s c post)
        events ↔
      Along (step names cal listing) (Whole names) (start names s c post) events :=
  along_congr (P := Stage names s post) (fun _ ev h => whole_iff h ev)
    (fun _ _ _ h _ hstep => stage_step known h hstep) (stage_start c)

end Stages

section Example

private def question : ArticleDoc where
  uid := some "bob"
  text := some "Is anybody there?"
  status := some 1
  createdAt := some 3
  parentKey := some ""
  toKey := some ""
  toUid := some ""

/-- Bob has asked something that nobody has answered yet. -/
private def asked : Server where
  board := { articles := [(0, question)], versions := [(0, question)], next := 1, clock := 4 }

/-- Alice's copy of the question. -/
private def copy : Article where
  key := 0
  uid := "bob"
  text := "Is anybody there?"
  createdDate := 3
  status := 1
  userNickname := ""
  userProfileImageUrl := ""
  userPrefectureId := 0
  userSex := 0
  parentKey := ""
  toKey := ""
  toUid := ""

private def reply : Post where
  uid := "alice"
  account := {}
  text := "Yes, good evening"
  article := some copy

private def eight : Timestamp := ⟨28800, by decide, by decide⟩

private def device : Client where
  currentUser := some "alice"
  devices := { clock := ⟨eight, eight⟩ }

/-- The reply is stored, and the mark of the question is refused. -/
private def refusedMark : List (Event Empty Change) :=
  [.serve 0 true, .handle 0, .serve 1 false, .handle 1]

/-- Alice is told of a failure, and her reply stands. -/
theorem failed_post_stored :
    ¬ ∀ (s : Server) (c : Client) (post : Post) (events : List (Event Empty Change)),
      (∀ article ∈ post.article, article.key ∈ ids s.board) →
        Along (step KeyNames.plain Calendar.utc Listing.plain)
          (AllOrNothing KeyNames.plain Calendar.utc Listing.plain s post)
          (start KeyNames.plain s c post) events := by
  intro claim
  have along := claim asked device reply refusedMark (by decide)
  have hpromised := (((along.2 _ rfl).2 _ rfl).2 _ rfl).1 _ rfl (some .updateError) rfl
  exact absurd hpromised.1 (by decide)

theorem all_or_nothing_iff_asked :
    (∀ article ∈ reply.article, article.key ∈ ids asked.board) ∧
      (Along (step KeyNames.plain Calendar.utc Listing.plain)
          (AllOrNothing KeyNames.plain Calendar.utc Listing.plain asked reply)
          (start KeyNames.plain asked device reply) refusedMark ↔
        Along (step KeyNames.plain Calendar.utc Listing.plain) (Whole KeyNames.plain)
          (start KeyNames.plain asked device reply) refusedMark) :=
  ⟨by decide, all_or_nothing_iff device (by decide) refusedMark⟩

end Example

end PlateChat.Thread.Posting
