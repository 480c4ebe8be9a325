/- PlateChat/Screen/Photos
   digest: Photos posted from the talk screens of one phone, from the touch to the message. -/

import PlateChat.Screen.ReadMarks

set_option autoImplicit false
set_option relaxedAutoImplicit false

/-!
A photo is put into the storage, its address is asked for, a message with the address is
added, and then the screen exchanges its service and asks for the messages again. All the
while an indicator lies over the phone that swallows the touches, unless somebody else
takes it down. The writes to the document of the room that follow a message are left out.
-/

namespace PlateChat.Screen.Photos

open PlateChat.Foundation.Dictionary PlateChat.Foundation.Run PlateChat.Foundation.EventLoop
open PlateChat.Foundation.Rules PlateChat.Model.Members PlateChat.Model.Room
open PlateChat.Model.Message
open PlateChat.Screen.ReadMarks (messageData imageText)

/-- What `postImage` and its closures have at hand; the objects are known by numbers. -/
structure Post (Picture : Type) where
  number : Nat
  screen : Nat
  service : Nat
  uid : Uid
  chatRoom : ChatRoom
  imageName : String
  jpeg : Picture
  deriving DecidableEq

def letters : List Char :=
  "abcdefghijklmnopqrstuvwxyzABCDEFGHIJKLMNOPQRSTUVWXYZ0123456789".toList

/-- What each `arc4random_uniform` gave is handed over. -/
def getRandomString (rands : List (Fin 62)) : String :=
  String.ofList (rands.map fun rand => letters.getD rand ' ')

def path (chatRoomKey : Nat) (imageName : String) : String :=
  "chat_room/" ++ chatRoomKey.repr ++ "/" ++ imageName ++ ".jpg"

/-- An object of the storage as it was put; `post` is known only for the phone's own. -/
structure Put (Picture : Type) where
  chatRoomKey : Nat
  imageName : String
  jpeg : Picture
  post : Option Nat := none
  deriving DecidableEq

def Put.path {Picture : Type} (put : Put Picture) : String :=
  Photos.path put.chatRoomKey put.imageName

/-- A message of a room; `post` is known only for the phone's own photos. -/
structure Stored where
  chatRoomKey : Nat
  data : ChatMessageDoc
  post : Option Nat := none
  deriving DecidableEq

/-- All that was ever put, and all messages, the last ones first. -/
structure Backend (Picture : Type) where
  puts : List (Put Picture) := []
  messages : List Stored := []
  clock : Nat := 0

/-- What a photo listener of a screen is known by. -/
structure Listener where
  screen : Nat
  service : Nat
  deriving DecidableEq

/-- A `ChatMessageViewController`; `bindTalkHandler` is kept only of a photo. -/
structure TalkScreen where
  screen : Nat
  chatRoom : ChatRoom
  chatMessageService : Nat
  bindTalkHandler : Option Listener := none
  deriving DecidableEq

/-- `screens` are on the stacks of the tabs, `held` were left while a listener that a pull had
left behind kept them. `masks` is set once the default mask is. `posts` and `reports` tell
what was posted, and which posts came to their `callbackHandler` with or without an error. -/
structure Phone (Picture : Type) where
  currentUser : Option Uid := none
  hud : Bool := false
  masks : Bool := false
  screens : List TalkScreen := []
  held : List TalkScreen := []
  next : Nat := 0
  posts : List (Post Picture) := []
  reports : List (Nat × Bool) := []

variable {Picture : Type}

namespace Phone

/-- The screens that exist. -/
def talks (p : Phone Picture) : List TalkScreen := p.screens ++ p.held

def blocked (p : Phone Picture) : Bool := p.hud && p.masks

/-- Nobody has the service of the post any more. -/
def Gone (p : Phone Picture) (post : Post Picture) : Prop :=
  ∀ t ∈ p.talks, t.chatMessageService ≠ post.service

/-- The screen exists. -/
def Exists (p : Phone Picture) (screen : Nat) : Prop := ∃ t ∈ p.talks, t.screen = screen

instance (p : Phone Picture) (post : Post Picture) : Decidable (p.Gone post) :=
  inferInstanceAs (Decidable (∀ t ∈ p.talks, _))

instance (p : Phone Picture) (screen : Nat) : Decidable (p.Exists screen) :=
  inferInstanceAs (Decidable (∃ t ∈ p.talks, _))

def showLoading (p : Phone Picture) : Phone Picture := { p with hud := true, masks := true }

def hideLoading (p : Phone Picture) : Phone Picture := { p with hud := false }

end Phone

/-- `aftterImagePost` and `reloadData` are blocks that wait on the main queue. -/
inductive Request (Picture : Type)
  | putData (post : Post Picture)
  | downloadURL (post : Post Picture)
  | addDocument (post : Post Picture)
  | aftterImagePost (screen : Nat)
  | reloadData (screen : Nat)
  deriving DecidableEq

/-- A touch reaches any screen on the stacks, by going back to it or to its tab. `back` leaves
a screen for good, `covered` is the way to another screen and back, `refresh` a pull that asks
for messages, `indicator` what another list does to the indicator. -/
inductive Action (Picture : Type)
  | auth (user : Option Uid)
  | indicator (up : Bool)
  | opened (chatRoom : ChatRoom)
  | covered (screen : Nat)
  | refresh (screen : Nat)
  | back (screen : Nat) (holds : Bool)
  | postImage (screen : Nat) (image : Option Picture) (rands : List (Fin 62))

abbrev Outcome (Picture : Type) := Effect (Phone Picture) (Request Picture) Listener

def handlers (ts : List TalkScreen) : List Listener := ts.filterMap TalkScreen.bindTalkHandler

/-- The screens of that number. -/
def numbered (screen : Nat) (ts : List TalkScreen) : List TalkScreen :=
  ts.filter fun t => t.screen = screen

def opened (p : Phone Picture) (chatRoom : ChatRoom) : Outcome Picture where
  client := { p with
    screens := ⟨p.next, chatRoom, p.next + 1, none⟩ :: p.screens
    next := p.next + 2 }

/-- `viewWillDisappear` removes what the service holds. -/
def covered (p : Phone Picture) (screen : Nat) : Outcome Picture where
  client := p
  removed := handlers (numbered screen p.screens)

/-- The handle of a photo is overwritten and what it stood for stays registered. -/
def refresh (p : Phone Picture) (screen : Nat) : Outcome Picture where
  client := { p with
    screens := p.screens.map fun t =>
      if t.screen = screen then { t with bindTalkHandler := none } else t }

def back (p : Phone Picture) (screen : Nat) (holds : Bool) : Outcome Picture where
  client := { p with
    screens := p.screens.filter fun t => t.screen ≠ screen
    held := if holds then numbered screen p.screens ++ p.held else p.held }
  removed := handlers (numbered screen p.screens)

/-- The indicator goes up before anything is checked. -/
def postImage (p : Phone Picture) (screen : Nat) (image : Option Picture)
    (rands : List (Fin 62)) : Outcome Picture :=
  match numbered screen p.screens with
  | t :: _ =>
    match p.currentUser, image with
    | some uid, some jpeg =>
      let post := ⟨p.next, t.screen, t.chatMessageService, uid, t.chatRoom,
        getRandomString rands, jpeg⟩
      { client := { p.showLoading with next := p.next + 1, posts := post :: p.posts }
        requests := [.putData post] }
    | _, _ => { client := p.showLoading }
  | [] => { client := p }

/-- A touch under the indicator does nothing. -/
def touch (p : Phone Picture) (e : Outcome Picture) : Outcome Picture :=
  if p.blocked then { client := p } else e

def act (p : Phone Picture) : Action Picture → Outcome Picture
  | .auth user => { client := { p with currentUser := user } }
  | .indicator up => { client := { p with hud := up } }
  | .opened chatRoom => touch p (opened p chatRoom)
  | .covered screen => touch p (covered p screen)
  | .refresh screen => touch p (refresh p screen)
  | .back screen holds => touch p (back p screen holds)
  | .postImage screen image rands => touch p (postImage p screen image rands)

def Post.put (post : Post Picture) : Put Picture :=
  ⟨post.chatRoom.key, post.imageName, post.jpeg, some post.number⟩

/-- The message of a photo, `url` being where the storage shows an object. -/
def Post.data (url : String → String) (post : Post Picture) : ChatMessageDoc :=
  messageData post.uid imageText (some (url (path post.chatRoom.key post.imageName)))
    post.chatRoom

def serve (url : String → String) (s : Backend Picture) :
    Request Picture → Bool → Backend Picture × Bool
  | .putData post, true => ({ s with puts := post.put :: s.puts, clock := s.clock + 1 }, true)
  | .addDocument post, true =>
    ({ s with
        messages := ⟨post.chatRoom.key, { post.data url with createdAt := some s.clock },
          some post.number⟩ :: s.messages
        clock := s.clock + 1 }, true)
  | _, ok => (s, ok)

def report (p : Phone Picture) (post : Post Picture) (ok : Bool) : Phone Picture :=
  { p with reports := (post.number, ok) :: p.reports }

/-- The `callbackHandler` of both pickers. -/
def imageCallback (p : Phone Picture) (post : Post Picture) (ok : Bool) : Outcome Picture :=
  let p := report p post ok
  if p.Exists post.screen then
    if ok then { client := p, requests := [.aftterImagePost post.screen] }
    else { client := p.hideLoading }
  else { client := p }

/-- A new service, whose listener is there if somebody is signed in. -/
def renewed (p : Phone Picture) (screen : Nat) (t : TalkScreen) : TalkScreen :=
  if t.screen = screen then { t with
    chatMessageService := p.next
    bindTalkHandler := p.currentUser.map fun _ => ⟨screen, p.next⟩ }
  else t

/-- The block keeps a screen that was left until its end, and the new service ends with it. -/
def aftterImagePost (p : Phone Picture) (screen : Nat) : Outcome Picture :=
  if p.Exists screen then {
    client := { p with
      screens := p.screens.map (renewed p screen)
      held := p.held.map (renewed p screen)
      next := p.next + 1 }
    listeners := (p.currentUser.map fun _ => ⟨screen, p.next⟩).toList
    removed := handlers (numbered screen p.talks) }
  else { client := p }

/-- `unreads!` and `(self?.chatRoom)!` need the service. -/
def handle (p : Phone Picture) : Request Picture → Bool → Option (Outcome Picture)
  | .putData post, true => some { client := p, requests := [.downloadURL post] }
  | .downloadURL post, true =>
    if p.Gone post then none else some { client := p, requests := [.addDocument post] }
  | .addDocument post, true => if p.Gone post then none else some (imageCallback p post true)
  | .putData post, false | .downloadURL post, false | .addDocument post, false =>
    some (imageCallback p post false)
  | .aftterImagePost screen, _ => some (aftterImagePost p screen)
  | .reloadData screen, _ =>
    some { client := if p.Exists screen then p.hideLoading else p }

/-- A page of messages is shown by a block on the main queue, an error is logged. -/
def notify (p : Phone Picture) (l : Listener) : Option Unit → Outcome Picture
  | some () => { client := p, requests := [.reloadData l.screen] }
  | none => { client := p }

/-- What other devices store. -/
inductive Change (Picture : Type)
  | put (put : Put Picture)
  | message (message : Stored)

def env (s : Backend Picture) : Change Picture → Backend Picture
  | .put put => { s with puts := { put with post := none } :: s.puts, clock := s.clock + 1 }
  | .message message =>
    { s with messages := { message with post := none } :: s.messages, clock := s.clock + 1 }

def program (url : String → String) : Program (Backend Picture) (Phone Picture) (Action Picture)
    (Change Picture) (Request Picture) Bool Listener Unit where
  act _ p v := some (Photos.act p v)
  serve := Photos.serve url
  handle _ p r a := Photos.handle p r a
  snapshot _ _ := ()
  notify _ p l x := some (Photos.notify p l x)
  env := Photos.env

abbrev Network (Picture : Type) :=
  World (Backend Picture) (Phone Picture) (Request Picture) Bool Listener

def start : Network Picture := ⟨{}, {}, [], []⟩

abbrev Entry (Picture : Type) := Call (Request Picture) Bool

def screenOf : Request Picture → Option Nat
  | .putData post | .downloadURL post | .addDocument post => some post.screen
  | .aftterImagePost screen => some screen
  | .reloadData _ => none

def postOf : Request Picture → Option (Post Picture)
  | .putData post | .downloadURL post | .addDocument post => some post
  | .aftterImagePost _ | .reloadData _ => none

/-- Screens and services have numbers that were given, a service is of one screen, and a post
knows its screen and its service. -/
structure Sound (p : Phone Picture) (l : List (Entry Picture)) : Prop where
  bound : ∀ t ∈ p.talks, t.screen < p.next ∧ t.chatMessageService < p.next
  single : ∀ t ∈ p.talks, ∀ t' ∈ p.talks, t.chatMessageService = t'.chatMessageService →
    t.screen = t'.screen
  entries : ∀ q ∈ l, ∀ screen ∈ screenOf q.request, screen < p.next
  posts : ∀ q ∈ l, ∀ post ∈ postOf q.request, post.service < p.next ∧
    ∀ t ∈ p.talks, t.chatMessageService = post.service → t.screen = post.screen

/-- A screen of `p'` is one of `p`, or its service is new. -/
structure Grows (p p' : Phone Picture) : Prop where
  next : p.next ≤ p'.next
  talks : ∀ t' ∈ p'.talks, (∃ t ∈ p.talks, t'.screen = t.screen ∧
      t'.chatMessageService = t.chatMessageService) ∨
    (p.next ≤ t'.chatMessageService ∧ t'.chatMessageService < p'.next ∧ t'.screen < p'.next ∧
      ∀ t ∈ p'.talks, t.chatMessageService = t'.chatMessageService → t.screen = t'.screen)

theorem Grows.same {p p' : Phone Picture} (next : p'.next = p.next)
    (talks : ∀ t ∈ p'.talks, t ∈ p.talks) : Grows p p' where
  next := next ▸ Nat.le_refl _
  talks t ht := .inl ⟨t, talks t ht, rfl, rfl⟩

theorem Sound.grows {p p' : Phone Picture} {l : List (Entry Picture)} (h : Sound p l)
    (grows : Grows p p') : Sound p' l where
  bound t' ht' := by
    rcases grows.talks t' ht' with ⟨t, ht, hscreen, hservice⟩ | ⟨_, hservice, hscreen, _⟩
    · have hold := h.bound t ht
      have hnext := grows.next
      omega
    · exact ⟨hscreen, hservice⟩
  single t₁ h₁ t₂ h₂ heq := by
    rcases grows.talks t₁ h₁ with ⟨s₁, hs₁, hscreen₁, hservice₁⟩ | ⟨_, _, _, hone⟩
    · rcases grows.talks t₂ h₂ with ⟨s₂, hs₂, hscreen₂, hservice₂⟩ | ⟨_, _, _, hone⟩
      · rw [hscreen₁, hscreen₂]
        exact h.single s₁ hs₁ s₂ hs₂ (hservice₁ ▸ hservice₂ ▸ heq)
      · exact hone t₁ h₁ heq
    · exact (hone t₂ h₂ heq.symm).symm
  entries q hq screen hs := Nat.lt_of_lt_of_le (h.entries q hq screen hs) grows.next
  posts q hq post hpost := by
    obtain ⟨hbound, hknown⟩ := h.posts q hq post hpost
    refine ⟨Nat.lt_of_lt_of_le hbound grows.next, fun t' ht' heq => ?_⟩
    rcases grows.talks t' ht' with ⟨t, ht, hscreen, hservice⟩ | ⟨hnew, _, _, _⟩
    · rw [hscreen]
      exact hknown t ht (hservice ▸ heq)
    · omega

theorem Sound.requests {p : Phone Picture} {l l' : List (Entry Picture)} (h : Sound p l)
    (hl : ∀ q ∈ l', ∃ q₀ ∈ l, q₀.request = q.request) : Sound p l' where
  bound := h.bound
  single := h.single
  entries q hq := by
    obtain ⟨q₀, hq₀, heq⟩ := hl q hq
    exact heq ▸ h.entries q₀ hq₀
  posts q hq := by
    obtain ⟨q₀, hq₀, heq⟩ := hl q hq
    exact heq ▸ h.posts q₀ hq₀

/-- What an effect leaves behind fits the numbers. -/
structure Fits (p : Phone Picture) (e : Outcome Picture) : Prop where
  grows : Grows p e.client
  entries : ∀ r ∈ e.requests, ∀ screen ∈ screenOf r, screen < e.client.next
  posts : ∀ r ∈ e.requests, ∀ post ∈ postOf r, post.service < e.client.next ∧
    ∀ t ∈ e.client.talks, t.chatMessageService = post.service → t.screen = post.screen

theorem Fits.quiet {p : Phone Picture} {e : Outcome Picture} (grows : Grows p e.client)
    (requests : e.requests = []) : Fits p e where
  grows := grows
  entries _ hr := absurd (requests ▸ hr) List.not_mem_nil
  posts _ hr := absurd (requests ▸ hr) List.not_mem_nil

theorem Sound.performed {p : Phone Picture} {l : List (Entry Picture)} {e : Outcome Picture}
    (h : Sound p l) (fits : Fits p e) :
    Sound e.client (l ++ e.requests.map fun r => ⟨r, none⟩) where
  bound := (h.grows fits.grows).bound
  single := (h.grows fits.grows).single
  entries q hq := by
    rcases List.mem_append.mp hq with hq | hq
    · exact (h.grows fits.grows).entries q hq
    · obtain ⟨r, hr, rfl⟩ := List.mem_map.mp hq
      exact fits.entries r hr
  posts q hq := by
    rcases List.mem_append.mp hq with hq | hq
    · exact (h.grows fits.grows).posts q hq
    · obtain ⟨r, hr, rfl⟩ := List.mem_map.mp hq
      exact fits.posts r hr

theorem mem_numbered {screen : Nat} {ts : List TalkScreen} {t : TalkScreen} :
    t ∈ numbered screen ts ↔ t ∈ ts ∧ t.screen = screen := by
  simp [numbered]

private theorem fits_opened {p : Phone Picture} {l : List (Entry Picture)} (h : Sound p l)
    (chatRoom : ChatRoom) : Fits p (opened p chatRoom) := by
  refine .quiet ⟨Nat.le_add_right _ _, fun t' ht' => ?_⟩ rfl
  rcases List.mem_cons.mp ht' with rfl | ht'
  · refine .inr ⟨Nat.le_succ _, Nat.lt_succ_self _, by simp [opened], fun t ht heq => ?_⟩
    rcases List.mem_cons.mp ht with rfl | ht
    · rfl
    · have hold := (h.bound t ht).2
      simp only at heq
      omega
  · exact .inl ⟨t', ht', rfl, rfl⟩

theorem talks_back {p : Phone Picture} {screen : Nat} {holds : Bool} {t : TalkScreen}
    (ht : t ∈ (back p screen holds).client.talks) : t ∈ p.talks := by
  unfold back Phone.talks at *
  simp only [List.mem_append, List.mem_filter] at ht ⊢
  cases holds with
  | false => exact ht.imp_left And.left
  | true =>
    rcases ht with ht | ht
    · exact .inl ht.1
    · rcases List.mem_append.mp ht with ht | ht
      · exact .inl (mem_numbered.mp ht).1
      · exact .inr ht

theorem grows_refresh (p : Phone Picture) (screen : Nat) : Grows p (refresh p screen).client where
  next := Nat.le_refl _
  talks t' ht' := by
    rcases List.mem_append.mp ht' with ht' | ht'
    · obtain ⟨t, ht, rfl⟩ := List.mem_map.mp ht'
      refine .inl ⟨t, List.mem_append_left _ ht, ?_, ?_⟩ <;> split <;> rfl
    · exact .inl ⟨t', List.mem_append_right _ ht', rfl, rfl⟩

private theorem fits_postImage {p : Phone Picture} {l : List (Entry Picture)} (h : Sound p l)
    (screen : Nat) (image : Option Picture) (rands : List (Fin 62)) :
    Fits p (postImage p screen image rands) := by
  unfold postImage
  split
  · rename_i t ts hts
    have ht : t ∈ p.talks := by
      have hmem : t ∈ numbered screen p.screens := hts ▸ List.mem_cons_self
      exact List.mem_append_left _ (mem_numbered.mp hmem).1
    have hgrows : ∀ n posts, p.next ≤ n →
        Grows p { p.showLoading with next := n, posts := posts } := fun n posts hn =>
      ⟨hn, fun t ht => .inl ⟨t, ht, rfl, rfl⟩⟩
    split
    · refine ⟨hgrows _ _ (Nat.le_succ _), fun r hr s hs => ?_, fun r hr post hpost => ?_⟩
      · obtain rfl := List.mem_singleton.mp hr
        obtain rfl := Option.some.inj hs
        exact Nat.lt_succ_of_lt (h.bound t ht).1
      · obtain rfl := List.mem_singleton.mp hr
        obtain rfl := Option.some.inj hpost
        exact ⟨Nat.lt_succ_of_lt (h.bound t ht).2, fun t' ht' heq => h.single t' ht' t ht heq⟩
    · exact .quiet (.same rfl fun _ ht => ht) rfl
  · exact .quiet (.same rfl fun _ ht => ht) rfl

theorem fits_act {p : Phone Picture} {l : List (Entry Picture)} (h : Sound p l)
    (v : Action Picture) : Fits p (act p v) := by
  have hsame : Fits p ({ client := p } : Outcome Picture) := .quiet (.same rfl fun _ ht => ht) rfl
  have htouch : ∀ e, Fits p e → Fits p (touch p e) := by
    intro e he
    unfold touch
    split
    · exact hsame
    · exact he
  cases v with
  | auth user => exact .quiet (.same rfl fun _ ht => ht) rfl
  | indicator up => exact .quiet (.same rfl fun _ ht => ht) rfl
  | opened chatRoom => exact htouch _ (fits_opened h chatRoom)
  | covered screen => exact htouch _ (.quiet (.same rfl fun _ ht => ht) rfl)
  | refresh screen => exact htouch _ (.quiet (grows_refresh p screen) rfl)
  | back screen holds => exact htouch _ (.quiet (.same rfl fun _ ht => talks_back ht) rfl)
  | postImage screen image rands => exact htouch _ (fits_postImage h screen image rands)

@[simp] theorem renewed_screen (p : Phone Picture) (screen : Nat) (t : TalkScreen) :
    (renewed p screen t).screen = t.screen := by
  unfold renewed
  split <;> rfl

theorem renewed_service (p : Phone Picture) (screen : Nat) (t : TalkScreen) :
    (renewed p screen t).chatMessageService =
      if t.screen = screen then p.next else t.chatMessageService := by
  unfold renewed
  split <;> rfl

theorem talks_aftterImagePost {p : Phone Picture} {screen : Nat} (h : p.Exists screen) :
    (aftterImagePost p screen).client.talks = p.talks.map (renewed p screen) := by
  unfold aftterImagePost
  rw [if_pos h]
  exact List.map_append.symm

private theorem fits_aftterImagePost {p : Phone Picture} {l : List (Entry Picture)}
    (h : Sound p l) (screen : Nat) : Fits p (aftterImagePost p screen) := by
  by_cases hs : p.Exists screen
  · refine .quiet ⟨?_, fun t' ht' => ?_⟩ ?_
    · unfold aftterImagePost
      rw [if_pos hs]
      exact Nat.le_succ _
    · rw [talks_aftterImagePost hs] at ht' ⊢
      obtain ⟨t, ht, rfl⟩ := List.mem_map.mp ht'
      have hnext : (aftterImagePost p screen).client.next = p.next + 1 := by
        unfold aftterImagePost
        rw [if_pos hs]
      rw [hnext, renewed_screen, renewed_service]
      by_cases hscreen : t.screen = screen
      · rw [if_pos hscreen]
        refine .inr ⟨Nat.le_refl _, Nat.lt_succ_self _, Nat.lt_succ_of_lt (h.bound t ht).1, ?_⟩
        intro u' hu' heq
        obtain ⟨u, hu, rfl⟩ := List.mem_map.mp hu'
        rw [renewed_service] at heq
        rw [renewed_screen]
        split at heq
        · exact ‹u.screen = screen›.trans hscreen.symm
        · have hold := (h.bound u hu).2
          omega
      · rw [if_neg hscreen]
        exact .inl ⟨t, ht, rfl, rfl⟩
    · unfold aftterImagePost
      split <;> rfl
  · unfold aftterImagePost
    rw [if_neg hs]
    exact .quiet (.same rfl fun _ ht => ht) rfl

private theorem fits_imageCallback {p : Phone Picture} {post : Post Picture} (ok : Bool)
    (bound : post.screen < p.next) : Fits p (imageCallback p post ok) := by
  unfold imageCallback
  dsimp only
  split
  · cases ok with
    | false => exact .quiet (.same rfl fun _ ht => ht) rfl
    | true =>
      refine ⟨.same rfl fun _ ht => ht, fun r hr s hs => ?_, fun r hr post' hpost => ?_⟩
      · obtain rfl := List.mem_singleton.mp hr
        obtain rfl := Option.some.inj hs
        exact bound
      · obtain rfl := List.mem_singleton.mp hr
        cases hpost
  · exact .quiet (.same rfl fun _ ht => ht) rfl

theorem fits_handle {p : Phone Picture} {l : List (Entry Picture)} (h : Sound p l)
    {r : Request Picture} {a : Bool} (mem : ⟨r, some a⟩ ∈ l) {e : Outcome Picture}
    (he : handle p r a = some e) : Fits p e := by
  have hbound := h.entries _ mem
  have hposts := h.posts _ mem
  have hnext : ∀ r', screenOf r' = screenOf r → postOf r' = postOf r →
      Fits p { client := p, requests := [r'] } := by
    intro r' hscreen hpost
    refine ⟨.same rfl fun _ ht => ht, fun q hq s hs => ?_, fun q hq post hq' => ?_⟩
    · obtain rfl := List.mem_singleton.mp hq
      exact hbound s (hscreen ▸ hs)
    · obtain rfl := List.mem_singleton.mp hq
      exact hposts post (hpost ▸ hq')
  cases r with
  | putData post =>
    cases a with
    | true =>
      obtain rfl := Option.some.inj he
      exact hnext _ rfl rfl
    | false =>
      obtain rfl := Option.some.inj he
      exact fits_imageCallback false (hbound _ rfl)
  | downloadURL post =>
    cases a with
    | true =>
      obtain ⟨_, hsent⟩ := Option.ite_none_left_eq_some.mp he
      obtain rfl := Option.some.inj hsent
      exact hnext _ rfl rfl
    | false =>
      obtain rfl := Option.some.inj he
      exact fits_imageCallback false (hbound _ rfl)
  | addDocument post =>
    cases a with
    | true =>
      obtain ⟨_, hsent⟩ := Option.ite_none_left_eq_some.mp he
      obtain rfl := Option.some.inj hsent
      exact fits_imageCallback true (hbound _ rfl)
    | false =>
      obtain rfl := Option.some.inj he
      exact fits_imageCallback false (hbound _ rfl)
  | aftterImagePost screen =>
    obtain rfl := Option.some.inj he
    exact fits_aftterImagePost h screen
  | reloadData screen =>
    obtain rfl := Option.some.inj he
    refine .quiet (.same ?_ fun t ht => ?_) rfl
    · dsimp only
      split <;> rfl
    · dsimp only at ht
      split at ht <;> exact ht

theorem fits_notify (p : Phone Picture) (l : Listener) (x : Option Unit) :
    Fits p (notify p l x) := by
  cases x with
  | none => exact .quiet (.same rfl fun _ ht => ht) rfl
  | some u =>
    refine ⟨.same rfl fun _ ht => ht, fun r hr s hs => ?_, fun r hr post hpost => ?_⟩
    · obtain rfl := List.mem_singleton.mp hr
      cases hs
    · obtain rfl := List.mem_singleton.mp hr
      cases hpost

theorem sound_step {url : String → String} {w w' : Network Picture}
    {e : Event (Action Picture) (Change Picture)} (h : Sound w.client w.inflight)
    (hstep : (program url).step w e = some w') : Sound w'.client w'.inflight := by
  cases Program.step_fires hstep with
  | act he =>
    obtain rfl := Option.some.inj he
    exact h.performed (fits_act h _)
  | serve hi =>
    refine h.requests fun q hq => ?_
    rcases List.mem_or_eq_of_mem_set hq with hq | rfl
    · exact ⟨q, hq, rfl⟩
    · exact ⟨_, List.mem_of_getElem? hi, rfl⟩
  | @handle i _ _ _ hi he =>
    have hrest : Sound w.client (w.landed i).inflight := h.requests fun q hq =>
      ⟨q, List.mem_of_mem_eraseIdx hq, rfl⟩
    exact hrest.performed (fits_handle h (List.mem_of_getElem? hi) he)
  | deliver hj he =>
    obtain rfl := Option.some.inj he
    exact h.performed (fits_notify _ _ _)
  | env => exact h

end PlateChat.Screen.Photos
