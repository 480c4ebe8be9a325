/- PlateChat/Thread/Service
   digest: Articles and replies as they are posted, marked and deleted by all clients. -/

import PlateChat.Foundation.EventLoop
import PlateChat.Model.LocalData
import PlateChat.Model.Profile

set_option autoImplicit false
set_option relaxedAutoImplicit false

/-!
A reply copies its thread's key from the client's copy of the article it answers, which
may be old. The first reply of a thread marks the root with the root's own key, in a
second write that may fail, and deleting a root ends its thread if the copy at hand was
marked.
-/

namespace PlateChat.Thread.Service

open PlateChat.Foundation.Run PlateChat.Foundation.EventLoop
open PlateChat.Model.Members PlateChat.Model.LocalData PlateChat.Model.Profile

/-- The ids of the documents. -/
structure KeyNames where
  name : Nat → String
  injective : ∀ j k, name j = name k → j = k
  name_ne : ∀ k, name k ≠ ""

/-- Numbers for ids. -/
def KeyNames.plain : KeyNames where
  name := Nat.repr
  injective j k h := by
    have hdigits : Nat.toDigits 10 j = Nat.toDigits 10 k := by
      rw [← Nat.toList_repr, ← Nat.toList_repr, h]
    have hvalue := congrArg (fun cs => Nat.ofDigitChars 10 cs 0) hdigits
    simpa only [Nat.ofDigitChars_ten_toDigits] using hvalue
  name_ne k h := by
    have hdigits : Nat.toDigits 10 k = [] := by
      rw [← Nat.toList_repr, h]
      rfl
    exact Nat.toDigits_ne_nil hdigits

/-- The stored articles, `next` the next document's id; `versions` lists every version of a
document that was ever stored. -/
structure Board where
  articles : List (Nat × ArticleDoc) := []
  versions : List (Nat × ArticleDoc) := []
  next : Nat := 0
  clock : Nat := 0

namespace Board

/-- `addDocument`. -/
def add (s : Board) (d : ArticleDoc) : Board where
  articles := (s.next, d) :: s.articles
  versions := (s.next, d) :: s.versions
  next := s.next + 1
  clock := s.clock + 1

/-- `setData` with `merge: true` on a stored article. -/
def update (s : Board) (key : Nat) (f : ArticleDoc → ArticleDoc) : Board :=
  { s with
    articles := s.articles.map fun a => if a.1 = key then (key, f a.2) else a
    versions := ((s.articles.filter fun a => a.1 = key).map fun a => (key, f a.2)) ++ s.versions
    clock := s.clock + 1 }

theorem mem_update {s : Board} {key k : Nat} {f : ArticleDoc → ArticleDoc} {d : ArticleDoc} :
    (k, d) ∈ (s.update key f).articles ↔
      (k, d) ∈ s.articles ∧ k ≠ key ∨ k = key ∧ ∃ d', (key, d') ∈ s.articles ∧ d = f d' := by
  simp only [update, List.mem_map]
  constructor
  · rintro ⟨⟨j, e⟩, hmem, heq⟩
    split at heq
    · rename_i hj
      cases heq
      exact .inr ⟨rfl, e, hj ▸ hmem, rfl⟩
    · rename_i hj
      cases heq
      exact .inl ⟨hmem, hj⟩
  · rintro (⟨hmem, hne⟩ | ⟨rfl, d', hmem, rfl⟩)
    · exact ⟨(k, d), hmem, if_neg hne⟩
    · exact ⟨(k, d'), hmem, if_pos rfl⟩

theorem mem_versions_update {s : Board} {key k : Nat} {f : ArticleDoc → ArticleDoc}
    {d : ArticleDoc} : (k, d) ∈ (s.update key f).versions ↔
      (k = key ∧ ∃ d', (key, d') ∈ s.articles ∧ d = f d') ∨ (k, d) ∈ s.versions := by
  simp only [update, List.mem_append, List.mem_map, List.mem_filter, decide_eq_true_eq]
  constructor
  · rintro (⟨⟨j, e⟩, ⟨hmem, rfl⟩, heq⟩ | h)
    · cases heq
      exact .inl ⟨rfl, e, hmem, rfl⟩
    · exact .inr h
  · rintro (⟨rfl, d', hmem, rfl⟩ | h)
    · exact .inl ⟨(k, d'), ⟨hmem, rfl⟩, rfl⟩
    · exact .inr h

end Board

inductive Request
  | addArticle (data : ArticleDoc) (article : Option Article)
  | markRoot (key : Nat)
  | deleteArticle (article : Article)
  | endArticle (key : Nat)
  deriving DecidableEq

inductive Answer
  | added (key : Option Nat)
  | written (ok : Bool)

/-- The listener that a deletion registers, on the active articles of one thread. -/
structure Listener where
  parentKey : String
  deriving DecidableEq

/-- Whether the service object of the next completion is still there. -/
structure Clients where
  service : Bool := true

abbrev Outcome := Effect Clients Request Listener

/-- The document of a new article, without the time that the server fills in. -/
def createData (names : KeyNames) (uid : Uid) (account : AccountData) (text : String)
    (article : Option Article) : ArticleDoc where
  uid := some uid
  text := some text
  status := some 1
  createdAt := none
  userProfileImageUrl := some (account.myProfileImage.getD "")
  userPrefectureId := some account.prefectureId
  userSex := some account.sex
  userNickname := some (account.nickname.getD "")
  parentKey := match article with
    | some article =>
      some (if article.parentKey ≠ "" then article.parentKey else names.name article.key)
    | none => some ""
  toKey := match article with
    | some article => some (names.name article.key)
    | none => some ""
  toUid := match article with
    | some article => some article.uid
    | none => some ""

def createArticle (names : KeyNames) (c : Clients) (currentUser : Option Uid)
    (account : AccountData) (text : String) (article : Option Article) : Outcome :=
  match currentUser with
  | none => { client := c }
  | some uid => {
      client := c
      requests := [.addArticle (createData names uid account text article) article] }

/-- Only the author's own articles are deleted. -/
def deleteArticle (c : Clients) (currentUser : Option Uid) (article : Article) : Outcome :=
  match currentUser with
  | none => { client := c }
  | some uid =>
    if article.uid ≠ uid then { client := c }
    else { client := c, requests := [.deleteArticle article] }

inductive Action
  | createArticle (currentUser : Option Uid) (account : AccountData) (text : String)
      (article : Option Article)
  | deleteArticle (currentUser : Option Uid) (article : Article)
  | service (present : Bool)
  deriving DecidableEq

def act (names : KeyNames) (c : Clients) : Action → Outcome
  | .createArticle currentUser account text article =>
    Service.createArticle names c currentUser account text article
  | .deleteArticle currentUser article => Service.deleteArticle c currentUser article
  | .service present => { client := { c with service := present } }

def ended (d : ArticleDoc) : ArticleDoc := { d with status := some 0 }

def serve (names : KeyNames) (s : Board) : Request → Bool → Board × Answer
  | .addArticle data _, true =>
    (s.add { data with createdAt := some s.clock }, .added (some s.next))
  | .addArticle _ _, false => (s, .added none)
  | .markRoot key, true =>
    (s.update key fun d => { d with parentKey := some (names.name key) }, .written true)
  | .deleteArticle article, true => (s.update article.key ended, .written true)
  | .endArticle key, true => (s.update key ended, .written true)
  | .markRoot _, false | .deleteArticle _, false | .endArticle _, false => (s, .written false)

/-- The reply is stored; a root whose copy is not marked is marked now. The entry in the
reply log, which is another service's, is left out. -/
def addCompletion (c : Clients) (article : Option Article) : Outcome :=
  match article with
  | some article =>
    if article.parentKey = "" then
      { client := c, requests := if c.service then [.markRoot article.key] else [] }
    else { client := c }
  | none => { client := c }

/-- The article is ended; whether its thread follows depends on the copy. -/
def deleteCompletion (names : KeyNames) (c : Clients) (article : Article) : Outcome :=
  if names.name article.key = article.parentKey then
    { client := c, listeners := [⟨article.parentKey⟩] }
  else { client := c }

def handle (names : KeyNames) (c : Clients) : Request → Answer → Option Outcome
  | .addArticle _ article, .added key =>
    some (if key.isSome then addCompletion c article else { client := c })
  | .markRoot _, .written _ => some { client := c }
  | .deleteArticle article, .written ok =>
    some (if ok then deleteCompletion names c article else { client := c })
  | .endArticle _, .written _ => some { client := c }
  | _, _ => none

/-- The active articles that carry the thread's key, the newest first. -/
def query (s : Board) (parentKey : String) : List (Nat × ArticleDoc) :=
  (s.articles.filter fun a =>
    a.2.parentKey = some parentKey ∧ a.2.status = some 1 ∧ a.2.createdAt.isSome)
    |>.insertionSort fun a b => ¬ Precedes b a

/-- All articles of a snapshot are ended, unless one of them does not parse. -/
def notify (s : Board) (c : Clients) (_ : Listener) :
    Option (List (Nat × ArticleDoc)) → Option Outcome
  | some documents =>
    match parseAll (Article.ofDocument s.clock) documents with
    | .ok articles => some { client := c, requests := articles.map fun a => .endArticle a.key }
    | .error _ => some { client := c }
  | none => some { client := c }

/-- What other services write into stored articles. -/
inductive Change
  | patch (key : Nat) (data : ArticlePatch)
  deriving DecidableEq

def env (s : Board) : Change → Board
  | .patch key data => s.update key data.merge

def program (names : KeyNames) :
    Program Board Clients Action Change Request Answer Listener (List (Nat × ArticleDoc)) where
  act _ c v := some (Service.act names c v)
  serve := Service.serve names
  handle _ c r a := Service.handle names c r a
  snapshot s l := query s l.parentKey
  notify := Service.notify
  env := Service.env

abbrev Network := World Board Clients Request Answer Listener

abbrev step (names : KeyNames) : Network → Event Action Change → Option Network :=
  (program names).step

theorem deleteCompletion_requests (names : KeyNames) (c : Clients) (article : Article) :
    (deleteCompletion names c article).requests = [] := by
  unfold deleteCompletion
  split
  · rfl
  · rfl

theorem deleteCompletion_removed (names : KeyNames) (c : Clients) (article : Article) :
    (deleteCompletion names c article).removed = [] := by
  unfold deleteCompletion
  split
  · rfl
  · rfl

theorem mem_query {s : Board} {parentKey : String} {a : Nat × ArticleDoc} :
    a ∈ query s parentKey ↔ a ∈ s.articles ∧ a.2.parentKey = some parentKey ∧
      a.2.status = some 1 ∧ a.2.createdAt.isSome := by
  unfold query
  rw [(List.perm_insertionSort _ _).mem_iff]
  simp only [List.mem_filter, decide_eq_true_eq]

theorem eq_of_key {articles : List (Nat × ArticleDoc)} (unique : (articles.map Prod.fst).Nodup)
    {k : Nat} {d d' : ArticleDoc} (h : (k, d) ∈ articles) (h' : (k, d') ∈ articles) : d = d' := by
  have heq := List.inj_on_of_nodup_map unique h h' rfl
  exact congrArg Prod.snd heq

end PlateChat.Thread.Service
