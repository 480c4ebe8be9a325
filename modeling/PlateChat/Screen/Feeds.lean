/- PlateChat/Screen/Feeds
   digest: The screens that list articles or users, and how each takes in what is delivered. -/

import PlateChat.Binding.Users
import PlateChat.Foundation.Merge
import PlateChat.Model.LocalData

set_option autoImplicit false
set_option relaxedAutoImplicit false

/-!
Five screens take in their deliveries alike: the models go before the held ones, repeated
keys are dropped, the rest is sorted, what blocking hides is left out, and unless the
number of rows is what it was the table is told to reload on the main queue's next turn.
They differ in what they filter, and two of them have only one list.
-/

namespace PlateChat.Screen.Feeds

open PlateChat.Foundation.Merge PlateChat.Model.Members PlateChat.Model.LocalData
open PlateChat.Model.Profile PlateChat.Binding.Services PlateChat.Binding.Users
open PlateChat.Screen.Lists (usersOf)

/-- The persisted search criteria, with the defaults that the search screen registers. -/
structure UserSearchData where
  ageLower : Int := 18
  ageUpper : Int := 99
  sex : Int := 0
  prefectureId : Int := 0
  deriving DecidableEq

/-- What the callbacks read besides their screen's lists: the block dictionaries, the account's
uid, which is there before the screens are, and the search criteria. -/
structure Device where
  users : UsersData := {}
  uid : Uid
  search : UserSearchData := {}
  deriving DecidableEq

/-- A list screen: `org` is all it holds, `items` what its table asks for, `table` what the
table showed when it was last reloaded, and `reloads` counts those that wait on the main queue. -/
structure Feed (τ : Type) where
  device : Device
  org : List τ := []
  items : List τ := []
  table : List τ := []
  reloads : Nat := 0
  deriving DecidableEq

section Feed

variable {τ κ : Type} [DecidableEq κ]

namespace Feed

/-- Only `visible` models are handed to the table. -/
def filterBlock (visible : Device → τ → Bool) (s : Feed τ) : Feed τ :=
  { s with items := s.org.filter (visible s.device) }

/-- New models go before the held ones of the same key. -/
def merge (key : τ → κ) (keep : τ → Bool) (r : τ → τ → Prop) [DecidableRel r] (models : List τ)
    (s : Feed τ) : Feed τ :=
  { s with org := ((unique key (models ++ s.org)).filter keep).insertionSort r }

/-- Equal counts before and after pass for no change. -/
def received (key : τ → κ) (keep : τ → Bool) (r : τ → τ → Prop) [DecidableRel r]
    (visible : Device → τ → Bool) (models : List τ) (s : Feed τ) : Feed τ :=
  let preMessageCount := s.items.length
  let t := (s.merge key keep r models).filterBlock visible
  if preMessageCount = t.items.length then t else { t with reloads := t.reloads + 1 }

/-- An error is logged. -/
def callback (key : τ → κ) (keep : τ → Bool) (r : τ → τ → Prop) [DecidableRel r]
    (visible : Device → τ → Bool) : Outcome τ → Feed τ → Feed τ
  | .ok models, s => s.received key keep r visible models
  | .error _, s => s

def reloadData (s : Feed τ) : Feed τ := { s with table := s.items }

/-- A screen with one list merges into what its table asks for. -/
def single (s : Feed τ) : Feed τ := { s with org := s.items }

/-- The lists are emptied; the table is not told. -/
def cleared (s : Feed τ) : Feed τ := { s with org := [], items := [] }

end Feed

end Feed

/-- Neither side of a block is shown to the other. -/
def blocked (users : UsersData) (uid : Uid) : Bool :=
  uid ∈ usersOf users.userBlock || uid ∈ usersOf users.userBlocked

def newestFirst (a b : Article) : Prop := b.createdDate ≤ a.createdDate

instance : DecidableRel newestFirst := fun a b => Nat.decLe b.createdDate a.createdDate

instance : Std.Total newestFirst := ⟨fun _ _ => Nat.le_total _ _⟩

instance : IsTrans Article newestFirst := ⟨fun _ _ _ hab hbc => Nat.le_trans hbc hab⟩

def newestUser (a b : LoginUser) : Prop := b.createdDate ≤ a.createdDate

instance : DecidableRel newestUser := fun a b => Nat.decLe b.createdDate a.createdDate

instance : Std.Total newestUser := ⟨fun _ _ => Nat.le_total _ _⟩

instance : IsTrans LoginUser newestUser := ⟨fun _ _ _ hab hbc => Nat.le_trans hbc hab⟩

def active (article : Article) : Bool := article.status = 1

def all {τ : Type} (_ : τ) : Bool := true

/-- The last index of an array, and 0 for an empty one. -/
def lastIndex {τ : Type} (array : List τ) : Nat := if array.length = 0 then 0 else array.length - 1

namespace Home

def visible (d : Device) (article : Article) : Bool :=
  !blocked d.users article.uid && active article

def filterBlock : Feed Article → Feed Article := Feed.filterBlock visible

def observeArticle : Outcome Article → Feed Article → Feed Article :=
  Feed.callback Article.key active newestFirst visible

/-- What `bindNewArticle` delivers is merged without a look at the status. -/
def refresh : Outcome Article → Feed Article → Feed Article :=
  Feed.callback Article.key all newestFirst visible

def viewWillAppear (s : Feed Article) : Feed Article := (filterBlock s).reloadData

/-- The settings empty the lists before the account is deleted. -/
def deleteAccount (s : Feed Article) : Feed Article := s.cleared

end Home

namespace ArticleList

def visible (d : Device) (article : Article) : Bool := !blocked d.users article.uid

def filterBlock : Feed Article → Feed Article := Feed.filterBlock visible

def observeArticle : Outcome Article → Feed Article → Feed Article :=
  Feed.callback Article.key active newestFirst visible

/-- The article that was chosen is there before the table is. -/
def opened (device : Device) (article : Article) : Feed Article where
  device := device
  org := [article]
  items := [article]
  table := [article]

end ArticleList

namespace MyProfile

def observeArticle (outcome : Outcome Article) (s : Feed Article) : Feed Article :=
  Feed.callback Article.key active newestFirst (fun _ => all) outcome s.single

def viewWillAppear (s : Feed Article) : Feed Article := s.reloadData

/-- A deleted article takes the list with it. -/
def deleteArticle (s : Feed Article) : Feed Article := s.cleared.reloadData

def deleteAccount (s : Feed Article) : Feed Article := s.cleared

end MyProfile

namespace UserDetail

def observeArticle (outcome : Outcome Article) (s : Feed Article) : Feed Article :=
  Feed.callback Article.key active newestFirst (fun _ => all) outcome s.single

def viewWillAppear (s : Feed Article) : Feed Article := s.reloadData

/-- The profile of the user has arrived. -/
def userInfo (s : Feed Article) : Feed Article := s.reloadData

end UserDetail

namespace Search

/-- The criteria of the search window. -/
def satisfies (search : UserSearchData) (user : LoginUser) : Bool :=
  search.ageLower ≤ user.age && user.age ≤ search.ageUpper &&
    (search.sex ≤ 0 || user.sex = search.sex) &&
    (search.prefectureId ≤ 0 || user.prefectureId = search.prefectureId)

def visible (d : Device) (user : LoginUser) : Bool :=
  !blocked d.users user.key && user.key ≠ d.uid && satisfies d.search user

def filterBlock : Feed LoginUser → Feed LoginUser := Feed.filterBlock visible

def observeUser : Outcome LoginUser → Feed LoginUser → Feed LoginUser :=
  Feed.callback LoginUser.key all newestUser visible

def refresh : Outcome LoginUser → Feed LoginUser → Feed LoginUser :=
  Feed.callback LoginUser.key all newestUser visible

/-- The lists of a new search; `bindUser` follows. -/
def search (s : Feed LoginUser) : Feed LoginUser := s.cleared.reloadData

/-- The other layout. -/
def collectionType (s : Feed LoginUser) : Feed LoginUser := { s with reloads := s.reloads + 1 }

end Search

end PlateChat.Screen.Feeds
