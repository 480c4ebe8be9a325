/- PlateChat/Binding/Users
   digest: The paging part of the user service. -/

import PlateChat.Binding.Removal

set_option autoImplicit false
set_option relaxedAutoImplicit false

namespace PlateChat.Binding.Users

open PlateChat.Foundation.Listening PlateChat.Model.Members PlateChat.Model.Profile
open PlateChat.Binding.Services PlateChat.Binding.Removal

inductive LoginUserHandler
  | bindLoginUserListHandler
  deriving DecidableEq

inductive LoginUserCursor
  | lastLoginUserDocument
  deriving DecidableEq

abbrev LoginUserDocument := Uid × LoginUserDoc

/-- Users are ordered by two fields. -/
structure LoginUserPage (L : Type) extends Page LoginUserCursor LoginUserDocument LoginUser L where
  thenDescending : String

abbrev UserService (L : Type) :=
  Service LoginUserHandler LoginUserCursor LoginUserDocument (LoginUserPage L) L

variable {L : Type}

/-- Sixty active users, the last to log in first, and of those the newest. -/
def loginUserQuery (startAfter : Option LoginUserDocument) : Query LoginUserDocument where
  collection := "/login_user/"
  whereField := [("status", .int 1)]
  descending := some "last_login_date"
  startAfter := startAfter
  limit := some 60

/-- What a snapshot holds is handed over whole, the newest accounts first. -/
def loginUserModels (date : Nat) (documents : List LoginUserDocument) : Option (List LoginUser) :=
  match parseAll (LoginUser.ofDocument date) documents with
  | .ok users => some (users.insertionSort fun a b => b.createdDate ≤ a.createdDate)
  | .error _ => none

namespace UserService

def loginUserPage (s : UserService L) (callbackHandler : Outcome LoginUser → L → L) :
    LoginUserPage L where
  query := loginUserQuery (s.cursors .lastLoginUserDocument)
  cursor := some .lastLoginUserDocument
  callbackHandler := callbackHandler
  thenDescending := "created_at"

def bindUser (s : UserService L) (callbackHandler : Outcome LoginUser → L → L) : UserService L :=
  s.bind .bindLoginUserListHandler (loginUserPage s callbackHandler)

def notify (page : LoginUserPage L) (a : Answer LoginUserDocument) (s : UserService L) :
    UserService L :=
  s.receive loginUserModels page.toPage a

end UserService

inductive UserCall (L : Type)
  | bindUser (callbackHandler : Outcome LoginUser → L → L)

def userCall (s : UserService L) : UserCall L → UserService L
  | .bindUser callbackHandler => UserService.bindUser s callbackHandler

private theorem bindUser_takes (s : UserService L) (callbackHandler : Outcome LoginUser → L → L) :
    Takes s.handles (bindMoves s .bindLoginUserListHandler)
      (UserService.bindUser s callbackHandler).handles := by
  unfold bindMoves UserService.bindUser Service.bind
  split
  · exact .done _
  · exact .register _ _ (.done _)

def userApi : Api LoginUserHandler LoginUserCursor LoginUserDocument (LoginUserPage L) L
    (UserCall L) where
  call := userCall
  notify := UserService.notify
  moves s := fun
    | .bindUser _ => bindMoves s .bindLoginUserListHandler
  takes s v := by
    cases v with
    | bindUser callbackHandler => exact bindUser_takes s callbackHandler
  keeps page a s := s.receive_handles loginUserModels page.toPage a

end PlateChat.Binding.Users
