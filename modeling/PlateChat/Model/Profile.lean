/- PlateChat/Model/Profile
   digest: Account profiles and articles as stored, as parsed, and as kept on the device. -/

import Mathlib.Data.List.Sort
import PlateChat.Model.Members

set_option autoImplicit false
set_option relaxedAutoImplicit false

namespace PlateChat.Model.Profile

open PlateChat.Foundation.Dictionary PlateChat.Model.Members

/-- A document of `login_user`: what a read of each field as its type yields. A write
with `merge: true` carries the same fields, `none` where it leaves one alone. -/
structure LoginUserDoc where
  email : Option String := none
  password : Option String := none
  loginEmail : Option String := none
  loginPassword : Option String := none
  nickname : Option String := none
  sex : Option Int := none
  prefectureId : Option Int := none
  age : Option Int := none
  profileText : Option String := none
  profileImageUrl : Option String := none
  status : Option Int := none
  notificationOn : Option Bool := none
  notificationReply : Option Bool := none
  notificationMessage : Option Bool := none
  notificationFootprint : Option Bool := none
  fcmToken : Option String := none
  lastLoginDate : Option Nat := none
  createdAt : Option Nat := none
  updatedAt : Option Nat := none
  deriving DecidableEq

def LoginUserDoc.merge (new old : LoginUserDoc) : LoginUserDoc where
  email := new.email.or old.email
  password := new.password.or old.password
  loginEmail := new.loginEmail.or old.loginEmail
  loginPassword := new.loginPassword.or old.loginPassword
  nickname := new.nickname.or old.nickname
  sex := new.sex.or old.sex
  prefectureId := new.prefectureId.or old.prefectureId
  age := new.age.or old.age
  profileText := new.profileText.or old.profileText
  profileImageUrl := new.profileImageUrl.or old.profileImageUrl
  status := new.status.or old.status
  notificationOn := new.notificationOn.or old.notificationOn
  notificationReply := new.notificationReply.or old.notificationReply
  notificationMessage := new.notificationMessage.or old.notificationMessage
  notificationFootprint := new.notificationFootprint.or old.notificationFootprint
  fcmToken := new.fcmToken.or old.fcmToken
  lastLoginDate := new.lastLoginDate.or old.lastLoginDate
  createdAt := new.createdAt.or old.createdAt
  updatedAt := new.updatedAt.or old.updatedAt

structure LoginUser where
  key : Uid
  email : String
  password : String
  loginEmail : String
  loginPassword : String
  nickname : String
  sex : Int
  prefectureId : Int
  age : Int
  profileText : String
  profileImageUrl : String
  status : Int
  notificationOn : Bool
  createdDate : Nat
  updatedDate : Nat
  notificationReply : Bool
  notificationMessage : Bool
  notificationFootprint : Bool
  deriving DecidableEq

/-- The parsed profile; `date` is the moment of the parse. -/
def LoginUser.ofDocument (date : Nat) (document : Uid × LoginUserDoc) :
    Except ModelError LoginUser :=
  let d := document.2
  match d.email, d.password, d.status with
  | some email, some password, some status => .ok {
      key := document.1
      email := email
      password := password
      loginEmail := d.loginEmail.getD ""
      loginPassword := d.loginPassword.getD ""
      nickname := d.nickname.getD ""
      sex := d.sex.getD 0
      prefectureId := d.prefectureId.getD 0
      age := d.age.getD 0
      profileText := d.profileText.getD ""
      profileImageUrl := d.profileImageUrl.getD ""
      status := status
      notificationOn := d.notificationOn.getD true
      createdDate := d.createdAt.getD date
      updatedDate := d.updatedAt.getD date
      notificationReply := d.notificationReply.getD true
      notificationMessage := d.notificationMessage.getD true
      notificationFootprint := d.notificationFootprint.getD true }
  | _, _, _ => .error .parseError

/-- The document of a profile parses. -/
def LoginUserDoc.Parses (d : LoginUserDoc) : Prop :=
  d.email.isSome ∧ d.password.isSome ∧ d.status.isSome

instance (d : LoginUserDoc) : Decidable d.Parses :=
  inferInstanceAs (Decidable (_ ∧ _ ∧ _))

theorem LoginUser.parses_iff {date : Nat} {document : Uid × LoginUserDoc} :
    (∃ user, LoginUser.ofDocument date document = .ok user) ↔ document.2.Parses := by
  unfold LoginUser.ofDocument LoginUserDoc.Parses
  rcases document with ⟨key, d⟩
  rcases he : d.email with _ | email <;> rcases hp : d.password with _ | password <;>
    rcases hs : d.status with _ | status <;> simp [he, hp, hs]

theorem LoginUser.of_parsed {date : Nat} {document : Uid × LoginUserDoc} {user : LoginUser}
    (h : LoginUser.ofDocument date document = .ok user) :
    user.key = document.1 ∧ user.nickname = document.2.nickname.getD "" ∧
      user.sex = document.2.sex.getD 0 ∧ user.prefectureId = document.2.prefectureId.getD 0 ∧
      user.profileImageUrl = document.2.profileImageUrl.getD "" := by
  unfold LoginUser.ofDocument at h
  dsimp only at h
  split at h
  · cases h
    exact ⟨rfl, rfl, rfl, rfl, rfl⟩
  · cases h

/-- A document of `article`. -/
structure ArticleDoc where
  uid : Option Uid
  text : Option String
  status : Option Int
  createdAt : Option Nat
  userNickname : Option String := none
  userProfileImageUrl : Option String := none
  userPrefectureId : Option Int := none
  userSex : Option Int := none
  parentKey : Option String := none
  toKey : Option String := none
  toUid : Option Uid := none
  deriving DecidableEq

structure Article where
  key : Nat
  uid : Uid
  text : String
  createdDate : Nat
  status : Int
  userNickname : String
  userProfileImageUrl : String
  userPrefectureId : Int
  userSex : Int
  parentKey : String
  toKey : String
  toUid : Uid
  deriving DecidableEq

def Article.ofDocument (date : Nat) (document : Nat × ArticleDoc) : Except ModelError Article :=
  let d := document.2
  match d.uid, d.text, d.status with
  | some uid, some text, some status => .ok {
      key := document.1
      uid := uid
      text := text
      createdDate := d.createdAt.getD date
      status := status
      userNickname := d.userNickname.getD ""
      userProfileImageUrl := d.userProfileImageUrl.getD ""
      userPrefectureId := d.userPrefectureId.getD 0
      userSex := d.userSex.getD 0
      parentKey := d.parentKey.getD ""
      toKey := d.toKey.getD ""
      toUid := d.toUid.getD "" }
  | _, _, _ => .error .parseError

/-- The document of an article parses. -/
def ArticleDoc.Parses (d : ArticleDoc) : Prop := d.uid.isSome ∧ d.text.isSome ∧ d.status.isSome

instance (d : ArticleDoc) : Decidable d.Parses :=
  inferInstanceAs (Decidable (_ ∧ _ ∧ _))

theorem Article.parses_iff {date : Nat} {document : Nat × ArticleDoc} :
    (∃ article, Article.ofDocument date document = .ok article) ↔ document.2.Parses := by
  unfold Article.ofDocument ArticleDoc.Parses
  rcases document with ⟨key, d⟩
  rcases hu : d.uid with _ | uid <;> rcases ht : d.text with _ | text <;>
    rcases hs : d.status with _ | status <;> simp [hu, ht, hs]

theorem Article.parseAll_iff {date : Nat} {documents : List (Nat × ArticleDoc)} :
    (∃ articles, parseAll (Article.ofDocument date) documents = .ok articles) ↔
      ∀ a ∈ documents, a.2.Parses := by
  simp only [parseAll_isOk, Article.parses_iff]

theorem Article.parseAll_error {date : Nat} {documents : List (Nat × ArticleDoc)}
    {e : ModelError} (h : parseAll (Article.ofDocument date) documents = .error e) :
    ¬ ∀ a ∈ documents, a.2.Parses := by
  intro hall
  obtain ⟨articles, harticles⟩ := Article.parseAll_iff.mpr hall
  rw [h] at harticles
  cases harticles

theorem Article.status_of_parsed {date : Nat} {document : Nat × ArticleDoc} {article : Article}
    (h : Article.ofDocument date document = .ok article) :
    article.key = document.1 ∧ document.2.status = some article.status := by
  unfold Article.ofDocument at h
  dsimp only at h
  split at h
  · cases h
    exact ⟨rfl, ‹_›⟩
  · cases h

theorem Article.uid_of_parsed {date : Nat} {document : Nat × ArticleDoc} {article : Article}
    (h : Article.ofDocument date document = .ok article) :
    article.key = document.1 ∧ document.2.uid = some article.uid := by
  unfold Article.ofDocument at h
  dsimp only at h
  split at h
  · cases h
    exact ⟨rfl, ‹_›⟩
  · cases h

theorem Article.keys_of_parsed {date : Nat} {document : Nat × ArticleDoc} {article : Article}
    (h : Article.ofDocument date document = .ok article) :
    article.key = document.1 ∧ article.parentKey = document.2.parentKey.getD "" ∧
      article.toKey = document.2.toKey.getD "" := by
  unfold Article.ofDocument at h
  dsimp only at h
  split at h
  · cases h
    exact ⟨rfl, rfl, rfl⟩
  · cases h

/-- What the program writes into an existing article with `merge: true`. -/
structure ArticlePatch where
  status : Option Int := none
  userNickname : Option String := none
  userPrefectureId : Option Int := none
  userSex : Option Int := none
  userProfileImageUrl : Option String := none
  deriving DecidableEq

def ArticlePatch.merge (p : ArticlePatch) (d : ArticleDoc) : ArticleDoc :=
  { d with
    status := p.status.or d.status
    userNickname := p.userNickname.or d.userNickname
    userPrefectureId := p.userPrefectureId.or d.userPrefectureId
    userSex := p.userSex.or d.userSex
    userProfileImageUrl := p.userProfileImageUrl.or d.userProfileImageUrl }

/-- The order of a query by `created_at`, the newest first; equal dates go by the document id. -/
def Precedes (a b : Nat × ArticleDoc) : Prop :=
  b.2.createdAt.getD 0 < a.2.createdAt.getD 0 ∨
    b.2.createdAt.getD 0 = a.2.createdAt.getD 0 ∧ b.1 < a.1

instance (a b : Nat × ArticleDoc) : Decidable (Precedes a b) :=
  inferInstanceAs (Decidable (_ ∨ _ ∧ _))

/-- The status-1 articles of `uid`, the newest first. -/
def articlesOf (articles : List (Nat × ArticleDoc)) (uid : Uid) : List (Nat × ArticleDoc) :=
  (articles.filter fun a => a.2.uid = some uid ∧ a.2.status = some 1 ∧ a.2.createdAt.isSome)
    |>.insertionSort fun a b => ¬ Precedes b a

theorem mem_articlesOf_iff {articles : List (Nat × ArticleDoc)} {uid : Uid}
    {a : Nat × ArticleDoc} : a ∈ articlesOf articles uid ↔
      a ∈ articles ∧ a.2.uid = some uid ∧ a.2.status = some 1 ∧ a.2.createdAt.isSome := by
  unfold articlesOf
  rw [(List.perm_insertionSort _ _).mem_iff]
  simp only [List.mem_filter, decide_eq_true_eq]

theorem mem_articlesOf {articles : List (Nat × ArticleDoc)} {uid : Uid} {a : Nat × ArticleDoc}
    (h : a ∈ articlesOf articles uid) : a ∈ articles ∧ a.2.uid = some uid :=
  (mem_articlesOf_iff.mp h).imp_right And.left

end PlateChat.Model.Profile
