/- PlateChat/Model/Message
   digest: The messages of a room as stored and as parsed. -/

import PlateChat.Model.Members

set_option autoImplicit false
set_option relaxedAutoImplicit false

namespace PlateChat.Model.Message

open PlateChat.Foundation.Dictionary PlateChat.Model.Members

/-- A document of `messages`: what a read of each field as its type yields. -/
structure ChatMessageDoc where
  sender : Option Uid
  status : Option Int
  createdAt : Option Nat
  unreads : Option (Dict Uid Bool)
  text : Option String
  imageURL : Option String := none
  deriving DecidableEq

/-- An image is kept by its address. -/
inductive MessageKind
  | text (text : String)
  | photo (url : String)
  deriving DecidableEq

structure ChatMessage where
  messageId : Nat
  sender : Uid
  sentDate : Nat
  kind : MessageKind
  unreads : Dict Uid Bool
  status : Int
  deriving DecidableEq

/-- The image goes before the text. -/
def kindOf (d : ChatMessageDoc) : MessageKind :=
  match d.imageURL with
  | some url => .photo url
  | none => .text (d.text.getD "")

/-- The parsed message; `date` is the moment of the parse. -/
def ChatMessage.ofDocument (date : Nat) (document : Nat × ChatMessageDoc) :
    Except ModelError ChatMessage :=
  let d := document.2
  match d.sender, d.status with
  | some sender, some status => .ok {
      messageId := document.1
      sender := sender
      sentDate := d.createdAt.getD date
      kind := kindOf d
      unreads := d.unreads.getD (AList.singleton "" false)
      status := status }
  | _, _ => .error .parseError

end PlateChat.Model.Message
