/- PlateChat/Account/Window
   digest: What a propagating listener writes into the articles it is shown, field by field. -/

import PlateChat.Account.Service

set_option autoImplicit false
set_option relaxedAutoImplicit false

/-!
A propagating listener wants some fields of the articles to have the values of its
device's account. It reads a field with a default, writes it where the value read is
another, and never touches what decides which articles it is shown.
-/

namespace PlateChat.Account.Window

open PlateChat.Foundation.EventLoop
open PlateChat.Model.Members PlateChat.Model.LocalData PlateChat.Model.Profile
open PlateChat.Account.Service

section Field

variable {α : Type} [DecidableEq α]

/-- What a listener writes into a field: the wanted value, where another one is read. -/
def lacking (want raw : Option α) (default : α) : Option α :=
  if some (raw.getD default) ≠ want then want else none

/-- A write that leaves a field alone or sets what is wanted. -/
def Sets (new want : Option α) : Prop := new = none ∨ new = want

/-- One, while a field is stored otherwise than wanted. -/
def off (want raw : Option α) : Nat := if want = none ∨ raw = want then 0 else 1

instance (new want : Option α) : Decidable (Sets new want) :=
  inferInstanceAs (Decidable (_ ∨ _))

theorem sets_lacking (want raw : Option α) (default : α) :
    Sets (lacking want raw default) want := by
  unfold lacking
  split
  · exact .inr rfl
  · exact .inl rfl

omit [DecidableEq α] in
theorem Sets.trans {new want goal : Option α} (h : Sets new want) (h' : Sets want goal) :
    Sets new goal := by
  rcases h with rfl | rfl
  · exact .inl rfl
  · exact h'

theorem lacking_eq_none {want raw : Option α} {default : α} :
    lacking want raw default = none ↔ want = none ∨ some (raw.getD default) = want := by
  unfold lacking
  by_cases h : some (raw.getD default) = want
  · simp [h]
  · simp [h]

theorem lacking_eq_ite {want raw : Option α} {default : α}
    [Decidable (some (raw.getD default) ≠ want)] :
    (if some (raw.getD default) ≠ want then want else none) = lacking want raw default := by
  unfold lacking
  split <;> simp_all

theorem lacking_some_eq_ite {want : α} {raw : Option α} {default : α}
    [Decidable (raw.getD default ≠ want)] :
    (if raw.getD default ≠ want then some want else none) =
      lacking (some want) raw default := by
  unfold lacking
  split <;> simp_all

theorem lacking_or_ne {want raw : Option α} {default : α} (h : lacking want raw default ≠ none) :
    (lacking want raw default).or raw ≠ raw := by
  intro hsame
  have hset := sets_lacking want raw default
  rcases hset with hnone | hwant
  · exact h hnone
  · rw [hwant] at h hsame
    obtain ⟨v, rfl⟩ := Option.ne_none_iff_exists'.mp h
    have hraw : raw = some v := hsame.symm
    have hnone : lacking (some v) raw default = none :=
      lacking_eq_none.mpr (.inr (by rw [hraw]; rfl))
    rw [hnone] at hwant
    cases hwant

theorem off_or {new want : Option α} (h : Sets new want) (raw : Option α) :
    off want (new.or raw) < off want raw ∨
      off want (new.or raw) = off want raw ∧ new.or raw = raw := by
  rcases h with rfl | rfl
  · exact .inr ⟨rfl, rfl⟩
  · cases new with
    | none => exact .inr ⟨rfl, rfl⟩
    | some v =>
      have hset : (some v).or raw = some v := rfl
      rw [hset]
      by_cases hraw : raw = some v
      · exact .inr ⟨by rw [hraw], hraw.symm⟩
      · left
        simp [off, hraw]

end Field

/-- What the listener of `updateLoginUser` wants of every article. -/
def wanted (account : AccountData) : ArticlePatch where
  userNickname := account.nickname
  userPrefectureId := some account.prefectureId
  userSex := some account.sex
  userProfileImageUrl := account.myProfileImage

/-- What the listener of `uploadProfileImage` wants. -/
def wantedImage (account : AccountData) : ArticlePatch where
  userProfileImageUrl := account.myProfileImage

/-- The fields of an article that are read otherwise than wanted. -/
def missing (want : ArticlePatch) (d : ArticleDoc) : ArticlePatch where
  userNickname := lacking want.userNickname d.userNickname ""
  userPrefectureId := lacking want.userPrefectureId d.userPrefectureId 0
  userSex := lacking want.userSex d.userSex 0
  userProfileImageUrl := lacking want.userProfileImageUrl d.userProfileImageUrl ""

/-- A write that sets nothing but what is wanted. -/
structure Within (p want : ArticlePatch) : Prop where
  status : p.status = none
  nickname : Sets p.userNickname want.userNickname
  prefectureId : Sets p.userPrefectureId want.userPrefectureId
  sex : Sets p.userSex want.userSex
  image : Sets p.userProfileImageUrl want.userProfileImageUrl

instance (p want : ArticlePatch) : Decidable (Within p want) :=
  decidable_of_iff (p.status = none ∧ Sets p.userNickname want.userNickname ∧
      Sets p.userPrefectureId want.userPrefectureId ∧ Sets p.userSex want.userSex ∧
      Sets p.userProfileImageUrl want.userProfileImageUrl)
    ⟨fun h => ⟨h.1, h.2.1, h.2.2.1, h.2.2.2.1, h.2.2.2.2⟩,
      fun h => ⟨h.status, h.nickname, h.prefectureId, h.sex, h.image⟩⟩

/-- How many fields of an article are stored otherwise than wanted. -/
def offs (want : ArticlePatch) (d : ArticleDoc) : Nat :=
  off want.userNickname d.userNickname + off want.userPrefectureId d.userPrefectureId +
    off want.userSex d.userSex + off want.userProfileImageUrl d.userProfileImageUrl

theorem profileData_missing {account : AccountData} {date : Nat} {a : Nat × ArticleDoc}
    {article : Article} (h : Article.ofDocument date a = .ok article) :
    profileData account article = missing (wanted account) a.2 := by
  unfold Article.ofDocument at h
  dsimp only at h
  split at h
  · cases h
    simp only [profileData, missing, wanted, ArticlePatch.mk.injEq]
    exact ⟨trivial, lacking_eq_ite, lacking_some_eq_ite, lacking_some_eq_ite, lacking_eq_ite⟩
  · cases h

theorem imageData_missing {account : AccountData} {date : Nat} {a : Nat × ArticleDoc}
    {article : Article} (h : Article.ofDocument date a = .ok article) :
    imageData account article = missing (wantedImage account) a.2 := by
  unfold Article.ofDocument at h
  dsimp only at h
  split at h
  · cases h
    simp only [imageData, missing, wantedImage, ArticlePatch.mk.injEq]
    exact ⟨trivial, (lacking_eq_none.mpr (.inl rfl)).symm, (lacking_eq_none.mpr (.inl rfl)).symm,
      (lacking_eq_none.mpr (.inl rfl)).symm, lacking_eq_ite⟩
  · cases h

theorem within_missing (want : ArticlePatch) (d : ArticleDoc) : Within (missing want d) want where
  status := rfl
  nickname := sets_lacking _ _ _
  prefectureId := sets_lacking _ _ _
  sex := sets_lacking _ _ _
  image := sets_lacking _ _ _

theorem Within.trans {p want goal : ArticlePatch} (h : Within p want) (h' : Within want goal) :
    Within p goal where
  status := h.status
  nickname := h.nickname.trans h'.nickname
  prefectureId := h.prefectureId.trans h'.prefectureId
  sex := h.sex.trans h'.sex
  image := h.image.trans h'.image

/-- An article gets no worse by what is wanted, and if it gets no better it stays as it is. -/
theorem offs_merge {p want : ArticlePatch} (h : Within p want) (d : ArticleDoc) :
    offs want (p.merge d) < offs want d ∨
      offs want (p.merge d) = offs want d ∧ p.merge d = d := by
  have hnickname := off_or h.nickname d.userNickname
  have hprefecture := off_or h.prefectureId d.userPrefectureId
  have hsex := off_or h.sex d.userSex
  have himage := off_or h.image d.userProfileImageUrl
  by_cases hless : offs want (p.merge d) < offs want d
  · exact .inl hless
  · -- no field got worse, so each of them stays as it is
    simp only [offs, ArticlePatch.merge] at hless
    have hstatus : (none : Option Int).or d.status = d.status := Option.none_or
    obtain ⟨heq₁, hsame₁⟩ := hnickname.resolve_left (by omega)
    obtain ⟨heq₂, hsame₂⟩ := hprefecture.resolve_left (by omega)
    obtain ⟨heq₃, hsame₃⟩ := hsex.resolve_left (by omega)
    obtain ⟨heq₄, hsame₄⟩ := himage.resolve_left (by omega)
    have hmerge : p.merge d = d := by
      rw [ArticlePatch.merge, h.status, hstatus, hsame₁, hsame₂, hsame₃, hsame₄]
    exact .inr ⟨by rw [hmerge], hmerge⟩

/-- What is read of an article, as a wish. -/
def readings (d : ArticleDoc) : ArticlePatch where
  userNickname := some (d.userNickname.getD "")
  userPrefectureId := some (d.userPrefectureId.getD 0)
  userSex := some (d.userSex.getD 0)
  userProfileImageUrl := some (d.userProfileImageUrl.getD "")

theorem missing_eq_empty {want : ArticlePatch} {d : ArticleDoc} (hstatus : want.status = none) :
    missing want d = {} ↔ Within want (readings d) := by
  have hsets : ∀ {α : Type} [DecidableEq α] {want raw : Option α} {default : α},
      lacking want raw default = none ↔ Sets want (some (raw.getD default)) := by
    intro α _ want raw default
    rw [lacking_eq_none]
    exact or_congr_right eq_comm
  simp only [missing, ArticlePatch.mk.injEq, hsets]
  constructor
  · rintro ⟨-, hnickname, hprefecture, hsex, himage⟩
    exact ⟨hstatus, hnickname, hprefecture, hsex, himage⟩
  · intro h
    exact ⟨trivial, h.nickname, h.prefectureId, h.sex, h.image⟩

theorem merge_missing_ne {want : ArticlePatch} {d : ArticleDoc} (h : missing want d ≠ {}) :
    (missing want d).merge d ≠ d := by
  intro hsame
  apply h
  have hnickname := congrArg ArticleDoc.userNickname hsame
  have hprefecture := congrArg ArticleDoc.userPrefectureId hsame
  have hsex := congrArg ArticleDoc.userSex hsame
  have himage := congrArg ArticleDoc.userProfileImageUrl hsame
  have h₁ := not_imp_not.mp lacking_or_ne hnickname
  have h₂ := not_imp_not.mp lacking_or_ne hprefecture
  have h₃ := not_imp_not.mp lacking_or_ne hsex
  have h₄ := not_imp_not.mp lacking_or_ne himage
  simp only [missing, h₁, h₂, h₃, h₄]

/-- What the propagating listeners of an account are shown. -/
def window (s : Backend) (uid : Uid) : List (Nat × ArticleDoc) :=
  (articlesOf s.articles uid).take articleLimit

/-- An article after a write under a key. -/
def patched (key : Nat) (p : ArticlePatch) (a : Nat × ArticleDoc) : Nat × ArticleDoc :=
  if a.1 = key then (a.1, p.merge a.2) else a

theorem mergeArticle_articles (s : Backend) (key : Nat) (p : ArticlePatch) :
    (s.mergeArticle key p).articles = s.articles.map (patched key p) := rfl

theorem patched_key (key : Nat) (p : ArticlePatch) (a : Nat × ArticleDoc) :
    (patched key p a).1 = a.1 := by
  unfold patched
  split <;> rfl

theorem patched_query (key : Nat) {p : ArticlePatch} (hstatus : p.status = none)
    (a : Nat × ArticleDoc) : (patched key p a).2.uid = a.2.uid ∧
      (patched key p a).2.text = a.2.text ∧ (patched key p a).2.status = a.2.status ∧
      (patched key p a).2.createdAt = a.2.createdAt := by
  unfold patched
  split
  · simp [ArticlePatch.merge, hstatus]
  · exact ⟨rfl, rfl, rfl, rfl⟩

theorem patched_parses {key : Nat} {p : ArticlePatch} (hstatus : p.status = none)
    {a : Nat × ArticleDoc} : (patched key p a).2.Parses ↔ a.2.Parses := by
  obtain ⟨huid, htext, hstat, -⟩ := patched_query key hstatus a
  unfold ArticleDoc.Parses
  rw [huid, htext, hstat]

theorem articlesOf_patched {key : Nat} {p : ArticlePatch} (hstatus : p.status = none)
    (articles : List (Nat × ArticleDoc)) (uid : Uid) :
    articlesOf (articles.map (patched key p)) uid =
      (articlesOf articles uid).map (patched key p) := by
  unfold articlesOf
  rw [List.filter_map, List.map_insertionSort (fun a b => ¬ Precedes b a) fun a b => ¬ Precedes b a]
  · congr 2
    refine List.filter_congr fun a _ => ?_
    obtain ⟨huid, -, hstat, hdate⟩ := patched_query key hstatus a
    simp only [Function.comp_apply, huid, hstat, hdate]
  · intro a _ b _
    obtain ⟨-, -, -, ha⟩ := patched_query key hstatus a
    obtain ⟨-, -, -, hb⟩ := patched_query key hstatus b
    simp only [Precedes, patched_key, ha, hb]

theorem window_mergeArticle {key : Nat} {p : ArticlePatch} (hstatus : p.status = none)
    (s : Backend) (uid : Uid) :
    window (s.mergeArticle key p) uid = (window s uid).map (patched key p) := by
  unfold window
  rw [mergeArticle_articles, articlesOf_patched hstatus, List.map_take]

/-- How many fields of all articles are stored otherwise than wanted. -/
def mismatch (want : ArticlePatch) (articles : List (Nat × ArticleDoc)) : Nat :=
  articles.foldr (fun a n => offs want a.2 + n) 0

theorem mismatch_patched {p want : ArticlePatch} (h : Within p want) (key : Nat)
    (articles : List (Nat × ArticleDoc)) :
    mismatch want (articles.map (patched key p)) < mismatch want articles ∨
      mismatch want (articles.map (patched key p)) = mismatch want articles ∧
        articles.map (patched key p) = articles := by
  have hone : ∀ a : Nat × ArticleDoc, offs want (patched key p a).2 < offs want a.2 ∨
      offs want (patched key p a).2 = offs want a.2 ∧ patched key p a = a := by
    intro a
    unfold patched
    split
    · refine (offs_merge h a.2).imp_right fun ⟨heq, hsame⟩ => ⟨heq, ?_⟩
      rw [hsame]
    · exact .inr ⟨rfl, rfl⟩
  induction articles with
  | nil => exact .inr ⟨rfl, rfl⟩
  | cons a rest ih =>
    have hbefore : mismatch want (a :: rest) = offs want a.2 + mismatch want rest := rfl
    have hafter : mismatch want ((a :: rest).map (patched key p)) =
        offs want (patched key p a).2 + mismatch want (rest.map (patched key p)) := rfl
    rw [hbefore, hafter, List.map_cons]
    rcases hone a with hlt | ⟨heq, hsame⟩ <;> rcases ih with hless | ⟨hrest, hsames⟩
    · exact .inl (by omega)
    · exact .inl (by omega)
    · exact .inl (by omega)
    · exact .inr ⟨by omega, by rw [hsame, hsames]⟩

/-- A pending write that sets something else than what is wanted. -/
def stale (want : ArticlePatch) (q : Call Request Answer) : Bool :=
  q.answer.isNone && match q.request with
    | .setArticle _ p => !decide (Within p want)
    | _ => false

/-- What is left to do until every article is as wanted: the stale writes, then the fields. -/
def unsettled (want : ArticlePatch) (flight : List (Call Request Answer)) (s : Backend) : ℕ ×ₗ ℕ :=
  toLex (flight.countP (stale want), mismatch want s.articles)

theorem unsettled_served (want : ArticlePatch) {flight : List (Call Request Answer)} {i key : Nat}
    {p : ArticlePatch} (hi : flight[i]? = some ⟨.setArticle key p, none⟩) (s : Backend)
    (a : Answer) :
    unsettled want (flight.set i ⟨.setArticle key p, some a⟩) (s.mergeArticle key p) <
        unsettled want flight s ∨
      unsettled want (flight.set i ⟨.setArticle key p, some a⟩) (s.mergeArticle key p) =
        unsettled want flight s ∧ (s.mergeArticle key p).articles = s.articles := by
  have hcount := countP_served (stale want) ⟨.setArticle key p, some a⟩ hi
  have hafter : stale want ⟨.setArticle key p, some a⟩ = false := rfl
  rw [hafter] at hcount
  simp only [unsettled, Prod.Lex.toLex_lt_toLex]
  by_cases hwithin : Within p want
  · have hbefore : stale want ⟨.setArticle key p, none⟩ = false := by
      simp [stale, hwithin]
    rw [hbefore] at hcount
    simp only [Bool.false_eq_true, if_false, Nat.add_zero] at hcount
    rw [hcount]
    rcases mismatch_patched hwithin key s.articles with hlt | ⟨heq, hsame⟩
    · exact .inl (.inr ⟨rfl, hlt⟩)
    · exact .inr ⟨by rw [mergeArticle_articles, heq], hsame⟩
  · have hbefore : stale want ⟨.setArticle key p, none⟩ = true := by
      simp [stale, hwithin]
    rw [hbefore] at hcount
    simp only [if_true, Bool.false_eq_true, if_false] at hcount
    exact .inl (.inl (by omega))

theorem unsettled_other (want : ArticlePatch) {flight : List (Call Request Answer)} {i : Nat}
    {r : Request} (hi : flight[i]? = some ⟨r, none⟩) (hr : ∀ key p, r ≠ .setArticle key p)
    {s s' : Backend} (harticles : s'.articles = s.articles) (a : Answer) :
    unsettled want (flight.set i ⟨r, some a⟩) s' = unsettled want flight s := by
  have hcount := countP_served (stale want) ⟨r, some a⟩ hi
  have hafter : stale want ⟨r, some a⟩ = false := rfl
  have hbefore : stale want ⟨r, none⟩ = false := by
    cases r with
    | setArticle key p => exact absurd rfl (hr key p)
    | _ => rfl
  rw [hafter, hbefore] at hcount
  simp only [Bool.false_eq_true, if_false, Nat.add_zero] at hcount
  rw [unsettled, unsettled, hcount, harticles]

theorem unsettled_landed (want : ArticlePatch) {flight : List (Call Request Answer)} {i : Nat}
    {r : Request} {a : Answer} (hi : flight[i]? = some ⟨r, some a⟩) (s : Backend) :
    unsettled want (flight.eraseIdx i) s = unsettled want flight s := by
  have hcount := countP_landed (stale want) hi
  have hfresh : stale want ⟨r, some a⟩ = false := rfl
  rw [hfresh] at hcount
  simp only [Bool.false_eq_true, if_false, Nat.add_zero] at hcount
  rw [unsettled, unsettled, hcount]

/-- A write for every article that is not as wanted, if all that are shown parse. -/
def repairs (want : ArticlePatch) (documents : List (Nat × ArticleDoc)) : List Request :=
  if ∀ a ∈ documents, a.2.Parses then
    (documents.filter fun a => missing want a.2 ≠ {}).map fun a => .setArticle a.1 (missing want a.2)
  else []

theorem mem_repairs {want : ArticlePatch} {documents : List (Nat × ArticleDoc)} {r : Request} :
    r ∈ repairs want documents ↔ (∀ a ∈ documents, a.2.Parses) ∧
      ∃ a ∈ documents, missing want a.2 ≠ {} ∧ r = .setArticle a.1 (missing want a.2) := by
  unfold repairs
  split
  · rename_i hall
    rw [List.mem_map]
    constructor
    · rintro ⟨a, ha, rfl⟩
      obtain ⟨hmem, hmissing⟩ := List.mem_filter.mp ha
      exact ⟨hall, a, hmem, of_decide_eq_true hmissing, rfl⟩
    · rintro ⟨-, a, hmem, hmissing, rfl⟩
      exact ⟨a, List.mem_filter.mpr ⟨hmem, decide_eq_true hmissing⟩, rfl⟩
  · rename_i hall
    constructor
    · intro h
      cases h
    · intro h
      exact absurd h.1 hall

theorem articlesDelivered_repairs {d : Device} {data : AccountData → Article → ArticlePatch}
    {want : ArticlePatch} (hdata : ∀ date a article, Article.ofDocument date a = .ok article →
      data d.account article = missing want a.2) (s : Backend)
    (documents : List (Nat × ArticleDoc)) :
    (articlesDelivered s d data documents).requests = repairs want documents := by
  unfold articlesDelivered repairs
  cases hparsed : parseAll (Article.ofDocument s.clock) documents with
  | ok articles =>
    rw [if_pos (Article.parseAll_iff.mp ⟨articles, hparsed⟩)]
    refine filter_parseAll (fun a article h => ?_) hparsed
    rw [hdata _ _ _ h, (Article.keys_of_parsed h).1]
    exact ⟨rfl, rfl⟩
  | error e =>
    rw [if_neg (Article.parseAll_error hparsed)]

/-- Writes that set what is wanted leave nothing more to do. -/
theorem unsettled_repairs {want goal : ArticlePatch} (hwant : Within want goal)
    (documents : List (Nat × ArticleDoc)) (flight : List (Call Request Answer)) (s : Backend) :
    unsettled goal (flight ++ (repairs want documents).map fun r => ⟨r, none⟩) s =
      unsettled goal flight s := by
  have hnone : ((repairs want documents).map fun r => (⟨r, none⟩ : Call Request Answer)).countP
      (stale goal) = 0 := by
    rw [List.countP_eq_zero]
    intro q hq
    obtain ⟨r, hr, rfl⟩ := List.mem_map.mp hq
    obtain ⟨-, a, -, -, rfl⟩ := mem_repairs.mp hr
    have hwithin := (within_missing want a.2).trans hwant
    simp [stale, hwithin]
  rw [unsettled, unsettled, List.countP_append, hnone, Nat.add_zero]

/-- An end for every article, if all that are shown parse. -/
def ends (documents : List (Nat × ArticleDoc)) : List Request :=
  if ∀ a ∈ documents, a.2.Parses then
    documents.map fun a => .setArticle a.1 { status := some 0 }
  else []

theorem endArticlesDelivered_ends (s : Backend) (d : Device)
    (documents : List (Nat × ArticleDoc)) :
    endArticlesDelivered s d documents = { client := d, requests := ends documents } := by
  unfold endArticlesDelivered ends
  cases hparsed : parseAll (Article.ofDocument s.clock) documents with
  | ok articles =>
    rw [if_pos (Article.parseAll_iff.mp ⟨articles, hparsed⟩)]
    refine congrArg (fun requests => ({ client := d, requests := requests } : Outcome)) ?_
    refine map_parseAll (fun a article h => ?_) hparsed
    rw [(Article.keys_of_parsed h).1]
  | error e =>
    rw [if_neg (Article.parseAll_error hparsed)]

theorem serve_articles (s : Backend) (r : Request) (ok : Bool) :
    (serve s r ok).1.articles = s.articles ∨ ∃ key p, r = .setArticle key p ∧ ok = true ∧
      (serve s r ok).1.articles = s.articles.map (patched key p) := by
  cases ok with
  | false => left; cases r <;> rfl
  | true =>
    cases r with
    | setArticle key p => exact .inr ⟨key, p, rfl, rfl, rfl⟩
    | createAuth email password =>
      left
      simp only [serve, createAuth]
      split <;> rfl
    | signInCreated email password =>
      left
      simp only [serve, signInCreated]
      split <;> rfl
    | signIn call user =>
      left
      simp only [serve, signIn]
      split <;> rfl
    | setNewUser | setProfile | setDeleted | setLogin | getProfile | putAvatar | downloadURL
    | setImage | getBlockUser | getBlockedUser => exact .inl rfl

/-- A repair shows in what its own listener is shown next. -/
theorem window_repaired {want : ArticlePatch} {s : Backend} {uid : Uid} {r : Request}
    (h : r ∈ repairs want (window s uid)) : window (serve s r true).1 uid ≠ window s uid := by
  obtain ⟨-, a, ha, hmissing, rfl⟩ := mem_repairs.mp h
  show window (s.mergeArticle a.1 (missing want a.2)) uid ≠ _
  rw [window_mergeArticle rfl]
  intro hsame
  have hfixed : patched a.1 (missing want a.2) a = a := by
    have hid : (window s uid).map (patched a.1 (missing want a.2)) = (window s uid).map id := by
      rw [hsame, List.map_id]
    exact List.map_inj_left.mp hid a ha
  rw [patched, if_pos rfl] at hfixed
  exact merge_missing_ne hmissing (congrArg Prod.snd hfixed)

end PlateChat.Account.Window
