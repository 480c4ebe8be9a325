/- PlateChat/Model/LocalData
   digest: What the device keeps of the signed-in account. -/

import PlateChat.Model.Members

set_option autoImplicit false
set_option relaxedAutoImplicit false

namespace PlateChat.Model.LocalData

open PlateChat.Foundation.Dictionary PlateChat.Model.Members

/-- The persisted block dictionaries; a getter on an absent entry yields the empty one. -/
structure UsersData where
  userBlock : Dict Uid Bool := ∅
  userBlocked : Dict Uid Bool := ∅
  deriving DecidableEq

/-- The persisted fields of the account; strings that were never set read as `nil`. -/
structure AccountData where
  nickname : Option String := none
  loginEmail : Option String := none
  loginPassword : Option String := none
  sex : Int := 0
  prefectureId : Int := 0
  age : Int := 0
  profileText : Option String := none
  myProfileImage : Option String := none
  fcmToken : Option String := none
  notificationOn : Bool := false
  notificationReply : Bool := false
  notificationMessage : Bool := false
  notificationFootprint : Bool := false
  deriving DecidableEq

end PlateChat.Model.LocalData
