/- PlateChat/Thread/Roots
   digest: Every reply carries the key of its thread's root, however old the copy it answered. -/

import PlateChat.Foundation.Rules
import PlateChat.Thread.Service

set_option autoImplicit false
set_option relaxedAutoImplicit false

/-!
No document loses its `toKey`, and only a root's `parentKey` ever changes, from empty to
the root's own key. So every version of a document says the same of its thread, except
that an old copy of a root may not be marked yet; and then the copy's own key serves.
-/

namespace PlateChat.Thread.Roots

open PlateChat.Foundation.Run PlateChat.Foundation.EventLoop PlateChat.Foundation.Rules
open PlateChat.Model.Members PlateChat.Model.LocalData PlateChat.Model.Profile
open PlateChat.Thread.Service

variable {names : KeyNames}

abbrev Articles := List (Nat × ArticleDoc)

/-- Following `toKey` from `k` ends at `r`. -/
inductive RootOf (names : KeyNames) (articles : Articles) : Nat → Nat → Prop
  | root {k : Nat} {d : ArticleDoc} : (k, d) ∈ articles → d.toKey.getD "" = "" →
      RootOf names articles k k
  | reply {k j r : Nat} {d : ArticleDoc} : (k, d) ∈ articles → d.toKey = some (names.name j) →
      RootOf names articles j r → RootOf names articles k r

/-- Documents stay, with the `toKey` they have. -/
def Grows (articles articles' : Articles) : Prop :=
  ∀ k d, (k, d) ∈ articles → ∃ d', (k, d') ∈ articles' ∧ d'.toKey = d.toKey

theorem RootOf.mono {articles articles' : Articles} (grows : Grows articles articles') {k r : Nat}
    (h : RootOf names articles k r) : RootOf names articles' k r := by
  induction h with
  | root hmem hroot =>
    obtain ⟨d', hmem', hto⟩ := grows _ _ hmem
    exact .root hmem' (hto ▸ hroot)
  | reply hmem hto _ ih =>
    obtain ⟨d', hmem', hto'⟩ := grows _ _ hmem
    exact .reply hmem' (hto'.trans hto) ih

/-- There is one root at most. -/
theorem RootOf.unique {articles : Articles} (unique : (articles.map Prod.fst).Nodup) {k r r' : Nat}
    (h : RootOf names articles k r) (h' : RootOf names articles k r') : r = r' := by
  induction h with
  | root hmem hroot =>
    cases h' with
    | root => rfl
    | reply hmem' hto =>
      obtain rfl := eq_of_key unique hmem hmem'
      rw [hto] at hroot
      exact absurd hroot (names.name_ne _)
  | reply hmem hto _ ih =>
    cases h' with
    | root hmem' hroot =>
      obtain rfl := eq_of_key unique hmem hmem'
      rw [hto] at hroot
      exact absurd hroot (names.name_ne _)
    | reply hmem' hto' hnext =>
      obtain rfl := eq_of_key unique hmem hmem'
      obtain rfl := names.injective _ _ (Option.some.inj (hto.symm.trans hto'))
      exact ih hnext

/-- A document says of its thread what is the case. -/
structure Threaded (names : KeyNames) (articles : Articles) (k : Nat) (d : ArticleDoc) : Prop where
  reply : d.toKey.getD "" ≠ "" →
    ∃ r, RootOf names articles k r ∧ d.parentKey = some (names.name r)
  root : d.toKey.getD "" = "" →
    d.parentKey.getD "" = "" ∨ d.parentKey = some (names.name k)

theorem Threaded.mono {articles articles' : Articles} (grows : Grows articles articles') {k : Nat}
    {d : ArticleDoc} (h : Threaded names articles k d) : Threaded names articles' k d where
  reply hto := by
    obtain ⟨r, hr, hparent⟩ := h.reply hto
    exact ⟨r, hr.mono grows, hparent⟩
  root := h.root

/-- Documents are never lost or mixed up, and every version ever stored is right. -/
structure Sound (names : KeyNames) (s : Board) : Prop where
  fresh : ∀ a ∈ s.articles, a.1 < s.next
  unique : (s.articles.map Prod.fst).Nodup
  current : ∀ a ∈ s.articles, a ∈ s.versions
  stored : Grows s.versions s.articles
  threaded : ∀ k d, (k, d) ∈ s.versions → Threaded names s.articles k d

def IsRoot (s : Board) (k : Nat) : Prop := ∃ d, (k, d) ∈ s.articles ∧ d.toKey.getD "" = ""

/-- A new article is a root, or answers an article of its thread. -/
def Placed (names : KeyNames) (s : Board) (data : ArticleDoc) : Prop :=
  data.toKey.getD "" = "" ∧ data.parentKey.getD "" = "" ∨
    ∃ j r, data.toKey = some (names.name j) ∧ RootOf names s.articles j r ∧
      data.parentKey = some (names.name r)

/-- A copy that some client may hold: any version of a document, parsed at any time. -/
def Held (s : Board) (article : Article) : Prop :=
  ∃ version ∈ s.versions, ∃ date, Article.ofDocument date version = .ok article

theorem ofDocument_createdDate {version : Nat × ArticleDoc} {article : Article} :
    (∃ date, Article.ofDocument date version = .ok article) ↔
      Article.ofDocument article.createdDate version = .ok article := by
  refine ⟨?_, fun h => ⟨_, h⟩⟩
  rintro ⟨date, hparsed⟩
  unfold Article.ofDocument at hparsed ⊢
  dsimp only at hparsed ⊢
  split at hparsed
  · cases hparsed
    cases version.2.createdAt <;> rfl
  · cases hparsed

instance (s : Board) (article : Article) : Decidable (Held s article) :=
  decidable_of_iff (∃ version ∈ s.versions,
      Article.ofDocument article.createdDate version = .ok article)
    (exists_congr fun _ => and_congr_right fun _ => ofDocument_createdDate.symm)

/-- A reply copies the root of the article it answers. -/
theorem placed_createData {s : Board} (h : Sound names s) (uid : Uid) (account : AccountData)
    (text : String) {article : Option Article} (held : ∀ a ∈ article, Held s a) :
    Placed names s (createData names uid account text article) := by
  cases article with
  | none => exact .inl ⟨rfl, rfl⟩
  | some article =>
    obtain ⟨⟨k, d⟩, hversion, date, hparsed⟩ := held article rfl
    obtain ⟨hkey, hparent, _⟩ := Article.keys_of_parsed hparsed
    have hthreaded := h.threaded k d hversion
    obtain ⟨d', hmem, hto⟩ := h.stored k d hversion
    right
    by_cases hroot : d.toKey.getD "" = ""
    · -- the copy is one of a root: its own key is what a reply carries
      have hown : RootOf names s.articles k k := .root hmem (hto ▸ hroot)
      refine ⟨k, k, by rw [createData, hkey], hown, ?_⟩
      rcases hthreaded.root hroot with hempty | hmarked
      · simp [createData, hparent, hempty, hkey]
      · simp [createData, hparent, hmarked, names.name_ne]
    · obtain ⟨r, hr, hname⟩ := hthreaded.reply hroot
      refine ⟨k, r, by rw [createData, hkey], hr, ?_⟩
      simp [createData, hparent, hname, names.name_ne]

theorem isRoot_of_unmarked {s : Board} (h : Sound names s) {article : Article}
    (held : Held s article) (unmarked : article.parentKey = "") : IsRoot s article.key := by
  obtain ⟨⟨k, d⟩, hversion, date, hparsed⟩ := held
  obtain ⟨hkey, hparent, _⟩ := Article.keys_of_parsed hparsed
  obtain ⟨d', hmem, hto⟩ := h.stored k d hversion
  refine ⟨d', by rw [hkey]; exact hmem, ?_⟩
  rw [hto]
  by_contra hreply
  obtain ⟨r, _, hname⟩ := (h.threaded k d hversion).reply hreply
  rw [hparent, hname] at unmarked
  exact names.name_ne r unmarked

theorem grows_add (s : Board) (d : ArticleDoc) : Grows s.articles (s.add d).articles :=
  fun _ e hmem => ⟨e, List.mem_cons_of_mem _ hmem, rfl⟩

theorem sound_add {s : Board} (h : Sound names s) {d : ArticleDoc} (placed : Placed names s d) :
    Sound names (s.add d) where
  fresh := by
    intro a ha
    show a.1 < s.next + 1
    rcases List.mem_cons.mp ha with rfl | ha
    · exact Nat.lt_succ_self _
    · exact Nat.lt_succ_of_lt (h.fresh a ha)
  unique := by
    refine List.nodup_cons.mpr ⟨fun hmem => ?_, h.unique⟩
    obtain ⟨a, ha, hkey⟩ := List.mem_map.mp hmem
    have hlt := h.fresh a ha
    have heq : a.1 = s.next := hkey
    omega
  current := by
    intro a ha
    rcases List.mem_cons.mp ha with rfl | ha
    · exact List.mem_cons_self
    · exact List.mem_cons_of_mem _ (h.current a ha)
  stored := by
    intro k e hmem
    rcases List.mem_cons.mp hmem with heq | hmem
    · cases heq
      exact ⟨d, List.mem_cons_self, rfl⟩
    · obtain ⟨e', hmem', hto⟩ := h.stored k e hmem
      exact ⟨e', List.mem_cons_of_mem _ hmem', hto⟩
  threaded := by
    intro k e hmem
    rcases List.mem_cons.mp hmem with heq | hmem
    · cases heq
      rcases placed with ⟨hroot, hempty⟩ | ⟨j, r, hto, hr, hparent⟩
      · exact ⟨fun hreply => absurd hroot hreply, fun _ => .inl hempty⟩
      · refine ⟨fun _ => ⟨r, ?_, hparent⟩, fun hroot => ?_⟩
        · exact .reply List.mem_cons_self hto (hr.mono (grows_add s d))
        · rw [hto] at hroot
          exact absurd hroot (names.name_ne j)
    · exact (h.threaded k e hmem).mono (grows_add s d)

/-- A write that leaves the thread alone, or marks a root. -/
def Marks (names : KeyNames) (s : Board) (key : Nat) (f : ArticleDoc → ArticleDoc) : Prop :=
  ∀ d, (key, d) ∈ s.articles → (f d).toKey = d.toKey ∧ ((f d).parentKey = d.parentKey ∨
    d.toKey.getD "" = "" ∧ (f d).parentKey = some (names.name key))

theorem grows_update {s : Board} {key : Nat} {f : ArticleDoc → ArticleDoc}
    (marks : Marks names s key f) : Grows s.articles (s.update key f).articles := by
  intro k d hmem
  by_cases hk : k = key
  · subst hk
    exact ⟨f d, Board.mem_update.mpr (.inr ⟨rfl, d, hmem, rfl⟩), (marks d hmem).1⟩
  · exact ⟨d, Board.mem_update.mpr (.inl ⟨hmem, hk⟩), rfl⟩

theorem sound_update {s : Board} (h : Sound names s) {key : Nat} {f : ArticleDoc → ArticleDoc}
    (marks : Marks names s key f) : Sound names (s.update key f) := by
  have grows := grows_update marks
  have hkeys : (s.update key f).articles.map Prod.fst = s.articles.map Prod.fst := by
    simp only [Board.update, List.map_map]
    refine List.map_congr_left fun a _ => ?_
    simp only [Function.comp_apply]
    split
    · exact ‹a.1 = key›.symm
    · rfl
  refine ⟨fun a ha => ?_, hkeys ▸ h.unique, fun a ha => ?_, fun k d hmem => ?_, fun k d hmem => ?_⟩
  · have hkey : a.1 ∈ s.articles.map Prod.fst := hkeys ▸ List.mem_map_of_mem ha
    obtain ⟨b, hb, heq⟩ := List.mem_map.mp hkey
    rw [← heq]
    exact h.fresh b hb
  · obtain ⟨k, d⟩ := a
    rcases Board.mem_update.mp ha with ⟨hold, _⟩ | hnew
    · exact Board.mem_versions_update.mpr (.inr (h.current _ hold))
    · exact Board.mem_versions_update.mpr (.inl hnew)
  · rcases Board.mem_versions_update.mp hmem with ⟨rfl, d', hold, rfl⟩ | hold
    · exact ⟨f d', Board.mem_update.mpr (.inr ⟨rfl, d', hold, rfl⟩), rfl⟩
    · obtain ⟨e, hstored, hto⟩ := h.stored k d hold
      obtain ⟨e', hstored', hto'⟩ := grows k e hstored
      exact ⟨e', hstored', hto'.trans hto⟩
  · rcases Board.mem_versions_update.mp hmem with ⟨rfl, d', hold, rfl⟩ | hold
    · have hthreaded := (h.threaded k d' (h.current _ hold)).mono grows
      obtain ⟨hto, hparent⟩ := marks d' hold
      refine ⟨fun hreply => ?_, fun hroot => ?_⟩
      · rw [hto] at hreply
        rcases hparent with hparent | ⟨hroot, _⟩
        · rw [hparent]
          exact hthreaded.reply hreply
        · exact absurd hroot hreply
      · rw [hto] at hroot
        rcases hparent with hparent | ⟨_, hmarked⟩
        · rw [hparent]
          exact hthreaded.root hroot
        · exact .inr hmarked
    · exact (h.threaded k d hold).mono grows

/-- What a request in flight has to say of the threads. -/
def RequestSound (names : KeyNames) (s : Board) : Request → Prop
  | .addArticle data article => Placed names s data ∧
      ∀ a ∈ article, a.parentKey = "" → IsRoot s a.key
  | .markRoot key => IsRoot s key
  | .deleteArticle _ | .endArticle _ => True

def parts (names : KeyNames) : Parts Board Clients Request Answer Listener where
  server := Sound names
  client _ _ := True
  call s q := RequestSound names s q.request
  watch _ _ := True

private theorem isRoot_mono {s t : Board} (grows : Grows s.articles t.articles) {k : Nat}
    (h : IsRoot s k) : IsRoot t k := by
  obtain ⟨d, hmem, hroot⟩ := h
  obtain ⟨d', hmem', hto⟩ := grows k d hmem
  exact ⟨d', hmem', hto ▸ hroot⟩

private theorem requestSound_mono {s t : Board} (grows : Grows s.articles t.articles)
    {r : Request} (h : RequestSound names s r) : RequestSound names t r := by
  cases r with
  | addArticle data article =>
    refine ⟨?_, fun a ha hempty => isRoot_mono grows (h.2 a ha hempty)⟩
    rcases h.1 with hroot | ⟨j, r, hto, hr, hparent⟩
    · exact .inl hroot
    · exact .inr ⟨j, r, hto, hr.mono grows, hparent⟩
  | markRoot key => exact isRoot_mono grows h
  | deleteArticle article => trivial
  | endArticle key => trivial

private theorem stable_of_grows {s t : Board} (grows : Grows s.articles t.articles) :
    (parts names).Stable s t where
  client _ _ := trivial
  call _ h := requestSound_mono grows h
  watch _ _ := trivial

/-- Every reply is made from a copy that some client may hold. -/
def FromCopies (w : Network) : Event Action Change → Prop
  | .act (.createArticle _ _ _ article) => ∀ a ∈ article, Held w.server a
  | _ => True

instance (w : Network) : ∀ e, Decidable (FromCopies w e)
  | .act (.createArticle _ _ _ article) =>
    inferInstanceAs (Decidable (∀ a ∈ article, Held w.server a))
  | .act (.deleteArticle _ _) => .isTrue trivial
  | .act (.service _) => .isTrue trivial
  | .serve _ _ => .isTrue trivial
  | .handle _ => .isTrue trivial
  | .deliver _ _ => .isTrue trivial
  | .env _ => .isTrue trivial

private theorem marks_ended (names : KeyNames) (s : Board) (key : Nat) : Marks names s key ended :=
  fun _ _ => ⟨rfl, .inl rfl⟩

private theorem admits_quiet {s : Board} {e : Outcome} (h : e.requests = []) :
    (parts names).Admits s e where
  client := trivial
  requests r hr := by
    rw [h] at hr
    cases hr
  listeners _ _ := trivial

private theorem admits_one {s : Board} {c : Clients} {r : Request} (h : RequestSound names s r) :
    (parts names).Admits s { client := c, requests := [r] } := .one trivial h

private theorem act_admits {w : Network} (h : (parts names).Holds w) {a : Action}
    (copies : FromCopies w (.act a)) : (parts names).Admits w.server (act names w.client a) := by
  cases a with
  | createArticle currentUser account text article =>
    rcases currentUser with _ | uid
    · exact admits_quiet rfl
    · refine admits_one ⟨placed_createData h.server uid account text copies, ?_⟩
      exact fun a ha hempty => isRoot_of_unmarked h.server (copies a ha) hempty
  | deleteArticle currentUser article =>
    rcases currentUser with _ | uid
    · exact admits_quiet rfl
    · simp only [act, deleteArticle]
      split
      · exact admits_quiet rfl
      · exact admits_one trivial
  | service present => exact admits_quiet rfl

private theorem serve_kept {w : Network} (h : (parts names).Holds w) {r : Request} (ok : Bool)
    (hr : RequestSound names w.server r) :
    Sound names (serve names w.server r ok).1 ∧
      Grows w.server.articles (serve names w.server r ok).1.articles := by
  have hsame : Grows w.server.articles w.server.articles := fun _ d hmem => ⟨d, hmem, rfl⟩
  cases ok with
  | false => cases r <;> exact ⟨h.server, hsame⟩
  | true =>
    cases r with
    | addArticle data article => exact ⟨sound_add h.server hr.1, grows_add _ _⟩
    | markRoot key =>
      have marks : Marks names w.server key
          fun d => { d with parentKey := some (names.name key) } := by
        intro d hmem
        obtain ⟨d', hmem', hroot⟩ := hr
        obtain rfl := eq_of_key h.server.unique hmem hmem'
        exact ⟨rfl, .inr ⟨hroot, rfl⟩⟩
      exact ⟨sound_update h.server marks, grows_update marks⟩
    | deleteArticle article =>
      have marks := marks_ended names w.server
      exact ⟨sound_update h.server (marks _), grows_update (marks _)⟩
    | endArticle key =>
      have marks := marks_ended names w.server
      exact ⟨sound_update h.server (marks _), grows_update (marks _)⟩

private theorem handle_admits {w : Network} {r : Request} {a : Answer} {e : Outcome}
    (hr : RequestSound names w.server r) (he : handle names w.client r a = some e) :
    (parts names).Admits w.server e := by
  rcases r with ⟨data, article⟩ | key | article | key <;> rcases a with added | ok
  · obtain rfl := Option.some.inj he
    split
    · unfold addCompletion
      split
      · split
        · rename_i article hempty
          have hroot := hr.2 article rfl hempty
          cases w.client.service with
          | true => exact admits_one hroot
          | false => exact admits_quiet rfl
        · exact admits_quiet rfl
      · exact admits_quiet rfl
    · exact admits_quiet rfl
  · cases he
  · cases he
  · obtain rfl := Option.some.inj he
    exact admits_quiet rfl
  · cases he
  · obtain rfl := Option.some.inj he
    split
    · exact admits_quiet (deleteCompletion_requests names _ _)
    · exact admits_quiet rfl
  · cases he
  · obtain rfl := Option.some.inj he
    exact admits_quiet rfl

private theorem notify_admits {s : Board} {c : Clients} (l : Listener)
    {x : Option (List (Nat × ArticleDoc))} {e : Outcome} (he : notify s c l x = some e) :
    (parts names).Admits s e := by
  refine ⟨trivial, fun r hr => ?_, fun _ _ => trivial⟩
  unfold notify at he
  split at he
  · split at he
    · obtain rfl := Option.some.inj he
      obtain ⟨a, _, rfl⟩ := List.mem_map.mp hr
      trivial
    · obtain rfl := Option.some.inj he
      cases hr
  · obtain rfl := Option.some.inj he
    cases hr

theorem kept : (parts names).Kept (program names) FromCopies where
  act h hg he := by
    obtain rfl := Option.some.inj he
    exact act_admits h hg
  serve h _ hi := by
    have hr := h.calls _ (List.mem_of_getElem? hi)
    obtain ⟨hserver, hgrows⟩ := serve_kept h _ hr
    exact ⟨hserver, stable_of_grows hgrows, requestSound_mono hgrows hr⟩
  handle h _ hi he := handle_admits (h.calls _ (List.mem_of_getElem? hi)) he
  deliver {_ _ _ x _} _ _ _ he := notify_admits x.listener he
  env {w c} h _ := by
    obtain ⟨key, data⟩ := c
    have marks : Marks names w.server key data.merge := fun _ _ => ⟨rfl, .inl rfl⟩
    exact ⟨sound_update h.server marks, stable_of_grows (grows_update marks)⟩

/-- Beginning with no article, every stored reply names the root that following `toKey` from
it reaches, and every other article nothing or itself. -/
theorem threads_rooted {c : Clients} {events : List (Event Action Change)} {w : Network}
    (copies : Along (step names) FromCopies { server := {}, client := c } events)
    (hr : run (step names) { server := {}, client := c } events = some w) :
    (w.server.articles.map Prod.fst).Nodup ∧ ∀ k d, (k, d) ∈ w.server.articles →
      (d.toKey.getD "" ≠ "" → ∃ r, RootOf names w.server.articles k r ∧
        d.parentKey = some (names.name r)) ∧
      (d.toKey.getD "" = "" → d.parentKey.getD "" = "" ∨ d.parentKey = some (names.name k)) := by
  have hempty : Sound names {} := by
    refine ⟨List.forall_mem_nil _, List.nodup_nil, List.forall_mem_nil _, ?_, ?_⟩
    · exact fun _ _ hmem => absurd hmem List.not_mem_nil
    · exact fun _ _ hmem => absurd hmem List.not_mem_nil
  have hstart : (parts names).Holds ({ server := {}, client := c } : Network) :=
    ⟨hempty, trivial, List.forall_mem_nil _, List.forall_mem_nil _⟩
  have hsound := (kept.run copies hr hstart).server
  refine ⟨hsound.unique, fun k d hmem => ?_⟩
  have hthreaded := hsound.threaded k d (hsound.current _ hmem)
  exact ⟨hthreaded.reply, hthreaded.root⟩

section Example

private def alices : AccountData := { nickname := some "alice" }

private def copyOf (key : Nat) (uid text parentKey toKey toUid : String) : Article where
  key := key
  uid := uid
  text := text
  createdDate := key
  status := 1
  userNickname := "alice"
  userProfileImageUrl := ""
  userPrefectureId := 0
  userSex := 0
  parentKey := parentKey
  toKey := toKey
  toUid := toUid

/-- Two replies to an unmarked copy of the root, one to the first reply; no marking succeeds. -/
private def conversation : List (Event Action Change) :=
  [.act (.createArticle (some "alice") alices "hello" none), .serve 0 true, .handle 0,
    .act (.createArticle (some "bob") alices "hi" (some (copyOf 0 "alice" "hello" "" "" ""))),
    .act (.createArticle (some "carol") alices "yo" (some (copyOf 0 "alice" "hello" "" "" ""))),
    .serve 0 true, .serve 1 true, .handle 0, .serve 1 false,
    .act (.createArticle (some "alice") alices "and"
      (some (copyOf 1 "bob" "hi" "0" "0" "alice"))), .serve 2 true]

theorem threads_rooted_conversation :
    Along (step KeyNames.plain) FromCopies { server := {}, client := {} } conversation ∧
      ∃ w, run (step KeyNames.plain) { server := {}, client := {} } conversation = some w ∧
        (w.server.articles.map Prod.fst).Nodup ∧ ∀ k d, (k, d) ∈ w.server.articles →
          (d.toKey.getD "" ≠ "" → ∃ r, RootOf KeyNames.plain w.server.articles k r ∧
            d.parentKey = some (KeyNames.plain.name r)) ∧
          (d.toKey.getD "" = "" → d.parentKey.getD "" = "" ∨
            d.parentKey = some (KeyNames.plain.name k)) := by
  have copies : Along (step KeyNames.plain) FromCopies { server := {}, client := {} }
      conversation := by
    decide
  have hrun : (run (step KeyNames.plain) { server := {}, client := {} }
      conversation).isSome = true := by
    decide
  obtain ⟨w, hw⟩ := Option.isSome_iff_exists.mp hrun
  exact ⟨copies, w, hw, threads_rooted copies hw⟩

end Example

end PlateChat.Thread.Roots
