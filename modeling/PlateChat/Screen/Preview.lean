/- PlateChat/Screen/Preview
   digest: The text that a room shows in the list, and the texts of the posts behind it. -/

import PlateChat.Screen.ReadMarks

set_option autoImplicit false
set_option relaxedAutoImplicit false

/-!
A post is two writes, of the message and then of the room, and the room write of one
post may land before that of another whose message is older. After an image there is a
third: the service writes the text of the message, the screen a text of its own.
-/

namespace PlateChat.Screen.Preview

open PlateChat.Foundation.Dictionary PlateChat.Foundation.Run PlateChat.Foundation.EventLoop
open PlateChat.Foundation.Rules
open PlateChat.Model.Members PlateChat.Model.Room
open PlateChat.Binding.Services (ChatMessageDocument)
open PlateChat.Screen.ReadMarks (Talk messageData imageText)

/-- `aftterImagePost` is the block that it hands to the main queue. -/
inductive Request
  | putImage (uid : Uid) (chatRoom : ChatRoom)
  | addMessage (uid : Uid) (text : String) (imageURL : Option String) (chatRoom : ChatRoom)
  | aftterImagePost
  | lastChatTime (text : String)
  deriving DecidableEq

inductive Answer
  | image (url : Option String)
  | added (key : Option Nat)
  | turn
  | written (ok : Bool)
  deriving DecidableEq

/-- Whether the next completion finds its screen too. -/
structure Clients extends ReadMarks.Clients where
  screen : Bool := true

abbrev Outcome := Effect Clients Request Empty

def postChatMessage (c : Clients) (currentUser : Option Uid) (text : String)
    (chatRoom : ChatRoom) : Outcome :=
  match currentUser with
  | some uid => { client := c, requests := [.addMessage uid text none chatRoom] }
  | none => { client := c }

def postImage (c : Clients) (currentUser : Option Uid) (chatRoom : ChatRoom) : Outcome :=
  match currentUser with
  | some uid => { client := c, requests := [.putImage uid chatRoom] }
  | none => { client := c }

/-- `finds` is what the next completions will find. -/
inductive Action
  | postChatMessage (currentUser : Option Uid) (text : String) (chatRoom : ChatRoom)
  | postImage (currentUser : Option Uid) (chatRoom : ChatRoom)
  | finds (clients : Clients)

def act (c : Clients) : Action → Outcome
  | .postChatMessage currentUser text chatRoom =>
    Preview.postChatMessage c currentUser text chatRoom
  | .postImage currentUser chatRoom => Preview.postImage c currentUser chatRoom
  | .finds clients => { client := clients }

def serve (s : Talk) : Request → Bool → Talk × Answer
  | .putImage _ _, true =>
    ({ s with clock := s.clock + 1 }, .image (some (toString s.clock ++ ".jpg")))
  | .putImage _ _, false => (s, .image none)
  | .addMessage uid text imageURL chatRoom, true =>
    (s.add { messageData uid text imageURL chatRoom with createdAt := some s.clock },
      .added (some s.next))
  | .addMessage _ _ _ _, false => (s, .added none)
  | .aftterImagePost, _ => (s, .turn)
  | .lastChatTime text, true => (s.patch (.lastChatTime (some text)), .written true)
  | .lastChatTime _, false => (s, .written false)

def updateLastChatTime (c : Clients) (text : String) : List Request :=
  if c.signedIn then [.lastChatTime text] else []

/-- The image is stored; without its service the members cannot be unwrapped. -/
def imageCompletion (c : Clients) (uid : Uid) (chatRoom : ChatRoom) (imageURL : String) :
    Option Outcome :=
  if c.service then some {
    client := c
    requests := [.addMessage uid imageText (some imageURL) chatRoom] }
  else none

/-- After a text the screen updates the room, after an image the service, and then the screen. -/
def addCompletion (c : Clients) (text : String) (imageURL : Option String) : Option Outcome :=
  match imageURL with
  | some _ =>
    if c.service then some {
      client := c
      requests := updateLastChatTime c text ++ if c.screen then [.aftterImagePost] else [] }
    else none
  | none => some {
      client := c
      requests := if c.screen then updateLastChatTime c text else [] }

/-- What the screen says of an image. -/
def postedText : String := "画像を投稿しました"

def handle (c : Clients) : Request → Answer → Option Outcome
  | .putImage uid chatRoom, .image (some imageURL) => imageCompletion c uid chatRoom imageURL
  | .putImage _ _, .image none => some { client := c }
  | .addMessage _ text imageURL _, .added (some _) => addCompletion c text imageURL
  | .addMessage _ _ _ _, .added none => some { client := c }
  | .aftterImagePost, .turn => some { client := c, requests := updateLastChatTime c postedText }
  | .lastChatTime _, .written _ => some { client := c }
  | _, _ => none

/-- Whatever else is written into the room. -/
inductive Change
  | status (value : Int)
  | unreadCounts (counts : Dict Uid Int)

def env (s : Talk) : Change → Talk
  | .status value => s.patch (.status value)
  | .unreadCounts counts => s.patch (.unreadCounts counts)

def program : Program Talk Clients Action Change Request Answer Empty Unit where
  act _ c v := some (Preview.act c v)
  serve := Preview.serve
  handle _ c r a := Preview.handle c r a
  snapshot _ _ := ()
  notify _ _ l _ := nomatch l
  env := Preview.env

abbrev Network := World Talk Clients Request Answer Empty

abbrev step : Network → Event Action Change → Option Network := program.step

/-- The room as `cerateChatRoom` adds it. -/
def start (key : Nat) (uid otherUid : Uid) (serverTimestamp : Nat) : Network :=
  ⟨Talk.created key uid otherUid serverTimestamp, {}, [], []⟩

/-- No message has a later time. -/
def IsNewest (s : Talk) (m : ChatMessageDocument) : Prop :=
  m ∈ s.messages ∧ ∃ t, m.2.createdAt = some t ∧
    ∀ m' ∈ s.messages, ∀ t' ∈ m'.2.createdAt, t' ≤ t

def Shown (s : Talk) (m : ChatMessageDocument) : Prop :=
  s.room.lastUpdateMessage = m.2.text

/-- The message is written and its completion has not run, or an update with its text has
not landed. -/
def Owes (m : ChatMessageDocument) : Call Request Answer → Prop
  | ⟨.addMessage _ _ _ _, some (.added (some key))⟩ => key = m.1
  | ⟨.lastChatTime text, none⟩ => m.2.text = some text
  | _ => False

def Owed (l : List (Call Request Answer)) (m : ChatMessageDocument) : Prop := ∃ q ∈ l, Owes m q

/-- The completion of a message finds what it needs to update the room. -/
def Finds (c : Clients) (imageURL : Option String) : Prop :=
  c.signedIn = true ∧ (imageURL = none → c.screen = true)

/-- Every write succeeds. An update of the room lands with the text of the newest message, or
before another that has it, and the completion of the newest message, unless the room has its
text by other means, issues one. -/
def InOrder (w : Network) : Event Action Change → Prop
  | .serve i ok => ok = true ∧ ∀ text, w.inflight[i]? = some ⟨.lastChatTime text, none⟩ →
      ∀ m, IsNewest w.server m → m.2.text = some text ∨ Owed (w.inflight.eraseIdx i) m
  | .handle i => ∀ uid text imageURL chatRoom, ∀ m, IsNewest w.server m →
      w.inflight[i]? = some ⟨.addMessage uid text imageURL chatRoom, some (.added (some m.1))⟩ →
        Finds w.client imageURL ∨ Shown w.server m ∨ Owed (w.inflight.eraseIdx i) m
  | _ => True

/-- No post and no update of the room is on its way; a completion may be. -/
def Quiet (w : Network) : Prop :=
  ∀ q ∈ w.inflight, ∃ text ok, q = ⟨.lastChatTime text, some (.written ok)⟩

/-- An answered write has stored its text under its key. -/
def parts : Parts Talk Clients Request Answer Empty where
  server s := ∀ m ∈ s.messages, m.1 < s.next ∧ ∀ t ∈ m.2.createdAt, t < s.clock
  client _ _ := True
  call s
    | ⟨.addMessage _ text _ _, some (.added (some key))⟩ =>
      key < s.next ∧ ∀ m ∈ s.messages, m.1 = key → m.2.text = some text
    | _ => True
  watch _ _ := True

private theorem stable_same {s t : Talk} (messages : t.messages = s.messages)
    (next : s.next = t.next) : parts.Stable s t where
  client _ _ := trivial
  call q h := by
    unfold parts at h ⊢
    dsimp only at h ⊢
    split at h
    · rw [messages, ← next]
      exact h
    · trivial
  watch _ _ := trivial

private theorem stable_add (s : Talk) (d : Model.Message.ChatMessageDoc) :
    parts.Stable s (s.add d) where
  client _ _ := trivial
  call q h := by
    unfold parts at h ⊢
    dsimp only at h ⊢
    split at h
    · rename_i key _
      refine ⟨Nat.lt_succ_of_lt h.1, fun m hm hkey => ?_⟩
      rcases List.mem_cons.mp hm with rfl | hm
      · exact absurd h.1 (hkey ▸ Nat.lt_irrefl _)
      · exact h.2 m hm hkey
    · trivial
  watch _ _ := trivial

private theorem server_add {s : Talk} (h : parts.server s) (uid : Uid) (text : String)
    (imageURL : Option String) (chatRoom : ChatRoom) :
    parts.server
      (s.add { messageData uid text imageURL chatRoom with createdAt := some s.clock }) := by
  intro m hm
  rcases List.mem_cons.mp hm with rfl | hm
  · refine ⟨Nat.lt_succ_self _, fun t ht => ?_⟩
    obtain rfl := Option.some.inj ht
    exact Nat.lt_succ_self _
  · obtain ⟨hkey, htime⟩ := h m hm
    exact ⟨Nat.lt_succ_of_lt hkey, fun t ht => Nat.lt_succ_of_lt (htime t ht)⟩

private theorem admits_unanswered (s : Talk) (e : Outcome) : parts.Admits s e where
  client := trivial
  requests r _ := by cases r <;> exact trivial
  listeners l := nomatch l

private theorem server_patch {s : Talk} (h : parts.server s) (p : Patch) :
    parts.server (s.patch p) :=
  fun m hm => ⟨(h m hm).1, fun t ht => Nat.lt_succ_of_lt ((h m hm).2 t ht)⟩

private theorem env_eq_patch (s : Talk) (h : Change) : ∃ p, env s h = s.patch p ∧
    (s.patch p).room.lastUpdateMessage = s.room.lastUpdateMessage := by
  cases h with
  | status value => exact ⟨.status value, rfl, rfl⟩
  | unreadCounts counts => exact ⟨.unreadCounts counts, rfl, rfl⟩

theorem parts_kept : parts.Kept program (fun _ _ => True) where
  act _ _ _ := admits_unanswered _ _
  serve {w _ ok r} h _ _ := by
    cases r with
    | putImage uid chatRoom =>
      cases ok with
      | false => exact ⟨h.server, Parts.Stable.refl _ _, trivial⟩
      | true =>
        refine ⟨fun m hm => ?_, stable_same rfl rfl, trivial⟩
        obtain ⟨hkey, htime⟩ := h.server m hm
        exact ⟨hkey, fun t ht => Nat.lt_succ_of_lt (htime t ht)⟩
    | addMessage uid text imageURL chatRoom =>
      cases ok with
      | false => exact ⟨h.server, Parts.Stable.refl _ _, trivial⟩
      | true =>
        refine ⟨server_add h.server uid text imageURL chatRoom, stable_add _ _,
          Nat.lt_succ_self _, fun m hm hkey => ?_⟩
        rcases List.mem_cons.mp hm with rfl | hm
        · rfl
        · exact absurd (h.server m hm).1 (hkey ▸ Nat.lt_irrefl _)
    | aftterImagePost => exact ⟨h.server, Parts.Stable.refl _ _, trivial⟩
    | lastChatTime text =>
      cases ok with
      | false => exact ⟨h.server, Parts.Stable.refl _ _, trivial⟩
      | true => exact ⟨server_patch h.server _, stable_same rfl rfl, trivial⟩
  handle _ _ _ _ := admits_unanswered _ _
  deliver {_ _ _ x _} _ _ _ _ := nomatch x.listener
  env {w c} h _ := by
    obtain ⟨p, hp, _⟩ := env_eq_patch w.server c
    show parts.server (env w.server c) ∧ parts.Stable w.server (env w.server c)
    rw [hp]
    exact ⟨server_patch h.server p, stable_same rfl rfl⟩

/-- A new message is later than all others. -/
theorem newest_add {s : Talk} (h : parts.server s) {d : Model.Message.ChatMessageDoc}
    (now : d.createdAt = some s.clock) {m : ChatMessageDocument} (newest : IsNewest (s.add d) m) :
    m = (s.next, d) := by
  obtain ⟨hm, t, ht, hlast⟩ := newest
  rcases List.mem_cons.mp hm with rfl | hm
  · rfl
  · have hold := (h m hm).2 t ht
    have hnew := hlast _ List.mem_cons_self s.clock now
    omega

theorem Owed.mono {l l' : List (Call Request Answer)} {m : ChatMessageDocument}
    (h : ∀ q ∈ l, Owes m q → q ∈ l') (owed : Owed l m) : Owed l' m := by
  obtain ⟨q, hq, howes⟩ := owed
  exact ⟨q, h q hq howes, howes⟩

/-- The room shows the newest message, or is going to. -/
def Covered (w : Network) : Prop :=
  ∀ m, IsNewest w.server m → Shown w.server m ∨ Owed w.inflight m

private theorem covered_served {w : Network} {i : Nat} {ok : Bool} {r : Request}
    (h : parts.Holds w) (covered : Covered w) (inOrder : InOrder w (.serve i ok))
    (hi : w.inflight[i]? = some ⟨r, none⟩) : Covered (w.served program i r ok) := by
  obtain ⟨rfl, hupdate⟩ := inOrder
  -- what is owed by others stays owed
  have hkeep : ∀ m z, ¬ Owes m ⟨r, none⟩ → Owed w.inflight m → Owed (w.inflight.set i z) m := by
    intro m z hnot howed
    refine howed.mono fun q hq howes => mem_served_of_ne z hi hq ?_
    rintro rfl
    exact hnot howes
  intro m newest
  cases r with
  | putImage uid chatRoom => exact (covered m newest).imp_right (hkeep m _ fun h => h)
  | aftterImagePost => exact (covered m newest).imp_right (hkeep m _ fun h => h)
  | addMessage uid text imageURL chatRoom =>
    obtain rfl := newest_add h.server rfl newest
    refine .inr ⟨_, (perm_served _ hi).mem_iff.mpr List.mem_cons_self, ?_⟩
    rfl
  | lastChatTime text =>
    rcases hupdate text hi m newest with htext | howed
    · exact .inl htext.symm
    · refine .inr (howed.mono fun q hq _ => ?_)
      exact (perm_served _ hi).mem_iff.mpr (List.mem_cons_of_mem _ hq)

private theorem update_of_addCompletion {c : Clients} {text : String} {imageURL : Option String}
    {e : Outcome} (he : addCompletion c text imageURL = some e) (finds : Finds c imageURL) :
    .lastChatTime text ∈ e.requests := by
  have hupdate : .lastChatTime text ∈ updateLastChatTime c text := by
    unfold updateLastChatTime
    rw [if_pos finds.1]
    exact List.mem_cons_self
  unfold addCompletion at he
  cases imageURL with
  | none =>
    obtain rfl := Option.some.inj he
    dsimp only
    rw [if_pos (finds.2 rfl)]
    exact hupdate
  | some url =>
    obtain ⟨_, hsent⟩ := Option.ite_none_right_eq_some.mp he
    obtain rfl := Option.some.inj hsent
    exact List.mem_append_left _ hupdate

private theorem covered_handled {w : Network} {i : Nat} {r : Request} {a : Answer} {e : Outcome}
    (h : parts.Holds w) (covered : Covered w) (inOrder : InOrder w (.handle i))
    (hi : w.inflight[i]? = some ⟨r, some a⟩) (he : handle w.client r a = some e) :
    Covered ((w.landed i).perform e) := by
  intro m newest
  have hrest : Owed (w.inflight.eraseIdx i) m → Owed ((w.landed i).perform e).inflight m :=
    fun howed => howed.mono fun q hq _ => List.mem_append_left _ hq
  rcases covered m newest with hshown | ⟨q, hq, howes⟩
  · exact .inl hshown
  · by_cases hlanded : q = ⟨r, some a⟩
    · subst hlanded
      cases r with
      | addMessage uid text imageURL chatRoom =>
        cases a with
        | added key =>
          cases key with
          | none => exact howes.elim
          | some key =>
            obtain rfl : key = m.1 := howes
            have hcall := h.calls _ hq
            have htext : m.2.text = some text := hcall.2 m newest.1 rfl
            rcases inOrder uid text imageURL chatRoom m newest hi with hfinds | hshown | howed
            · have hissued := update_of_addCompletion he hfinds
              refine .inr ⟨⟨.lastChatTime text, none⟩, ?_, htext⟩
              exact List.mem_append_right _ (List.mem_map_of_mem hissued)
            · exact .inl hshown
            · exact .inr (hrest howed)
        | _ => exact howes.elim
      | _ => exact howes.elim
    · exact .inr (hrest ⟨q, mem_landed_of_ne hi hq hlanded, howes⟩)

/-- An event in order leaves the newest message shown or owed. -/
theorem covered_step {w w' : Network} {e : Event Action Change} (h : parts.Holds w)
    (covered : Covered w) (inOrder : InOrder w e) (hstep : step w e = some w') : Covered w' := by
  cases Program.step_fires hstep with
  | act _ =>
    intro m newest
    exact (covered m newest).imp_right fun howed =>
      howed.mono fun q hq _ => List.mem_append_left _ hq
  | serve hi => exact covered_served h covered inOrder hi
  | handle hi he => exact covered_handled h covered inOrder hi he
  | @deliver _ _ x => exact nomatch x.listener
  | @env c =>
    obtain ⟨p, hp, hsame⟩ := env_eq_patch w.server c
    intro m newest
    have hserver : (w.install program (program.env w.server c)).server = w.server.patch p := hp
    have hbefore : IsNewest w.server m := by
      rw [hserver] at newest
      exact newest
    refine (covered m hbefore).imp_left fun hshown => ?_
    unfold Shown
    rw [hserver]
    exact hsame.trans hshown

/-- In a run in order, the room shows the text of its newest message whenever no post and no
update of the room is on its way. -/
theorem preview_newest (key : Nat) (uid otherUid : Uid) (serverTimestamp : Nat)
    {es : List (Event Action Change)} {w : Network}
    (inOrder : Along step InOrder (start key uid otherUid serverTimestamp) es)
    (hr : run step (start key uid otherUid serverTimestamp) es = some w) (quiet : Quiet w) :
    ∀ m, IsNewest w.server m → w.server.room.lastUpdateMessage = m.2.text := by
  have hkept : parts.Holds w ∧ Covered w := by
    refine run_keeps (P := fun w => parts.Holds w ∧ Covered w) (fun v e v' hv hg hstep => ?_)
      inOrder hr ⟨⟨?_, trivial, ?_, ?_⟩, ?_⟩
    · exact ⟨parts_kept.step hv.1 trivial hstep, covered_step hv.1 hv.2 hg hstep⟩
    · exact fun m hm => nomatch hm
    · exact fun q hq => nomatch hq
    · exact fun x hx => nomatch hx
    · exact fun m newest => nomatch newest.1
  intro m newest
  rcases hkept.2 m newest with hshown | ⟨q, hq, howes⟩
  · exact hshown
  · obtain ⟨text, ok, rfl⟩ := quiet q hq
    exact howes.elim

section Example

private def copy : ChatRoom where
  key := 1
  owner := "alice"
  members := (AList.singleton "alice" true).insert "bob" true
  unreadCounts := some ((AList.singleton "alice" 0).insert "bob" 0)
  status := 1
  createdDate := 0
  updatedDate := 0
  lastUpdateMessage := some ""

/-- Bob's post is on its way as the update for Alice's lands. -/
private def greets : List (Event Action Change) :=
  [.act (.postChatMessage (some "alice") "hello" copy),
    .act (.postChatMessage (some "bob") "hi" copy), .serve 0 true, .handle 0, .serve 1 true,
    .serve 0 true, .handle 0, .serve 1 true]

private def hello : ChatMessageDocument :=
  (0, { messageData "alice" "hello" none copy with createdAt := some 0 })

private def hi : ChatMessageDocument :=
  (1, { messageData "bob" "hi" none copy with createdAt := some 2 })

private theorem eq_hi {s : Talk} (messages : s.messages = [hi, hello]) {m : ChatMessageDocument}
    (newest : IsNewest s m) : m = hi := by
  obtain ⟨hm, t, ht, hlast⟩ := newest
  rw [messages] at hm hlast
  rcases List.mem_cons.mp hm with rfl | hm
  · rfl
  · obtain rfl := List.mem_singleton.mp hm
    have hlater : 2 ≤ t := hlast hi List.mem_cons_self 2 rfl
    obtain rfl := Option.some.inj ht
    omega

private theorem greets_inOrder : Along step InOrder (start 1 "alice" "bob" 0) greets := by
  refine .cons trivial rfl (.cons trivial rfl (.cons ⟨rfl, ?_⟩ rfl (.cons ?_ rfl
    (.cons ⟨rfl, ?_⟩ rfl (.cons ⟨rfl, ?_⟩ rfl (.cons ?_ rfl (.cons ⟨rfl, ?_⟩ rfl trivial)))))))
  · rintro text ⟨⟩
  · intro uid text imageURL chatRoom m _ hi
    obtain ⟨hrequest, -⟩ := Call.mk.inj (Option.some.inj hi)
    cases hrequest
    exact .inl ⟨rfl, fun _ => rfl⟩
  · intro text hi m newest
    cases hi
    obtain rfl := List.mem_singleton.mp newest.1
    exact .inl rfl
  · rintro text ⟨⟩
  · intro uid text imageURL chatRoom m _ hi
    obtain ⟨hrequest, -⟩ := Call.mk.inj (Option.some.inj hi)
    cases hrequest
    exact .inl ⟨rfl, fun _ => rfl⟩
  · intro text hi m newest
    cases hi
    obtain rfl := eq_hi rfl newest
    exact .inl rfl

theorem preview_newest_hello : ∃ w, run step (start 1 "alice" "bob" 0) greets = some w ∧
    w.server.messages = [hi, hello] ∧ IsNewest w.server hi ∧
      w.server.room.lastUpdateMessage = hi.2.text := by
  have newest : ∀ w, run step (start 1 "alice" "bob" 0) greets = some w →
      IsNewest w.server hi := by
    intro w hr
    cases hr
    refine ⟨List.mem_cons_self, 2, rfl, fun m hm t ht => ?_⟩
    rcases List.mem_cons.mp hm with rfl | hm
    · exact (Option.some.inj ht).ge
    · obtain rfl := List.mem_singleton.mp hm
      obtain rfl := Option.some.inj ht
      exact Nat.zero_le 2
  refine ⟨_, rfl, rfl, newest _ rfl, ?_⟩
  refine preview_newest 1 "alice" "bob" 0 greets_inOrder rfl ?_ hi (newest _ rfl)
  intro q hq
  rcases List.mem_cons.mp hq with rfl | hq
  · exact ⟨"hello", true, rfl⟩
  · exact ⟨"hi", true, List.mem_singleton.mp hq⟩

private def sendsImage : List (Event Action Change) :=
  [.act (.postImage (some "alice") copy), .serve 0 true, .handle 0, .serve 0 true, .handle 0,
    .serve 0 true, .handle 0, .serve 0 true, .handle 0, .serve 0 true, .handle 0]

/-- One image, every write in order: the message says it was sent, the room that it was posted. -/
theorem image_preview_differs : ∃ w m, run step (start 1 "alice" "bob" 0) sendsImage = some w ∧
    w.inflight = [] ∧ IsNewest w.server m ∧ m.2.text = some "画像を送信しました" ∧
      w.server.room.lastUpdateMessage = some "画像を投稿しました" ∧
      w.server.room.lastUpdateMessage ≠ m.2.text := by
  refine ⟨_, (0, { messageData "alice" imageText (some "0.jpg") copy with createdAt := some 1 }),
    rfl, rfl, ⟨?_, 1, rfl, fun m hm t ht => ?_⟩, rfl, rfl, by decide⟩
  · exact List.mem_cons_self
  · obtain rfl := List.mem_singleton.mp hm
    exact (Option.some.inj ht).ge

/-- Two texts, the update of the older one lands last. -/
example : ∃ w, run step (start 1 "alice" "bob" 0)
    [.act (.postChatMessage (some "alice") "hello" copy), .serve 0 true,
      .act (.postChatMessage (some "bob") "hi" copy), .serve 1 true, .handle 0, .handle 0,
      .serve 1 true, .serve 0 true] = some w ∧
    w.server.messages.map (·.2.text) = [some "hi", some "hello"] ∧
      w.server.room.lastUpdateMessage = some "hello" :=
  ⟨_, rfl, rfl, rfl⟩

end Example

end PlateChat.Screen.Preview
