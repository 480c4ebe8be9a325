/- PlateChat/Screen/PhotoMessages
   digest: A photo comes to one message that shows it, or to none and an error. -/

import PlateChat.Model.Histories
import PlateChat.Screen.Photos

set_option autoImplicit false
set_option relaxedAutoImplicit false

/-!
Every photo that was posted has one request on its way or one report behind it. The address
in its message shows what was put last under the name that was drawn for it.
-/

namespace PlateChat.Screen.PhotoMessages

open PlateChat.Foundation.Run PlateChat.Foundation.EventLoop
open PlateChat.Model.Histories (digitsOf_toDigits)
open PlateChat.Screen.Photos

variable {Picture : Type}

/-- The address shows what was put last where it leads. -/
def shown (url : String → String) (s : Backend Picture) (address : String) : Option Picture :=
  (s.puts.find? fun put => url put.path = address).map Put.jpeg

def isOf (n : Nat) (q : Entry Picture) : Bool :=
  (postOf q.request).any fun post => post.number = n

/-- The message is stored and nobody has heard of it. -/
def isStored (n : Nat) : Entry Picture → Bool
  | ⟨.addDocument post, some true⟩ => post.number = n
  | _ => false

/-- The picture is in the storage. -/
def IsPut : Entry Picture → Prop
  | ⟨.putData _, a⟩ => a = some true
  | _ => True

/-- The messages of one post. -/
def messagesOf (s : Backend Picture) (n : Nat) : Nat :=
  s.messages.countP fun m => m.post = some n

def reportsOf (p : Phone Picture) (n : Nat) : Nat := p.reports.countP fun r => r.1 = n

/-- What is said of a post and its message, wherever it is on its way. -/
structure Ledger (url : String → String) (w : Network Picture) : Prop where
  once : ∀ n, w.inflight.countP (isOf n) + reportsOf w.client n =
    w.client.posts.countP fun post => post.number = n
  stored : ∀ n, messagesOf w.server n =
    w.inflight.countP (isStored n) + w.client.reports.countP fun r => r = (n, true)
  fresh : ∀ post ∈ w.client.posts, post.number < w.client.next
  single : (w.client.posts.map Post.number).Nodup
  known : ∀ q ∈ w.inflight, ∀ post ∈ postOf q.request, post ∈ w.client.posts
  put : ∀ q ∈ w.inflight, IsPut q → ∀ post ∈ postOf q.request, post.put ∈ w.server.puts
  messages : ∀ m ∈ w.server.messages, ∀ n ∈ m.post, ∃ post ∈ w.client.posts, post.number = n ∧
    m.chatRoomKey = post.chatRoom.key ∧ (∃ t, m.data = { post.data url with createdAt := t }) ∧
    post.put ∈ w.server.puts

/-- A call leaves the posts alone, or makes one. -/
inductive Acts (p : Phone Picture) (e : Outcome Picture) : Prop
  | none : e.client.posts = p.posts → e.client.reports = p.reports → e.client.next ≥ p.next →
      e.requests = [] → Acts p e
  | post (post : Post Picture) : post.number = p.next → e.client.posts = post :: p.posts →
      e.client.reports = p.reports → e.client.next = p.next + 1 →
      e.requests = [.putData post] → Acts p e

theorem acts (p : Phone Picture) (v : Action Picture) : Acts p (act p v) := by
  have hnone : Acts p ({ client := p } : Outcome Picture) := .none rfl rfl (Nat.le_refl _) rfl
  have htouch : ∀ e, Acts p e → Acts p (touch p e) := by
    intro e he
    unfold touch
    split
    · exact hnone
    · exact he
  cases v with
  | auth user => exact .none rfl rfl (Nat.le_refl _) rfl
  | indicator up => exact .none rfl rfl (Nat.le_refl _) rfl
  | opened chatRoom => exact htouch _ (.none rfl rfl (Nat.le_add_right _ _) rfl)
  | covered screen => exact htouch _ (.none rfl rfl (Nat.le_refl _) rfl)
  | refresh screen => exact htouch _ (.none rfl rfl (Nat.le_refl _) rfl)
  | back screen holds => exact htouch _ (.none rfl rfl (Nat.le_refl _) rfl)
  | postImage screen image rands =>
    refine htouch _ ?_
    unfold postImage
    split
    · split
      · exact .post _ rfl rfl rfl rfl rfl
      · exact .none rfl rfl (Nat.le_refl _) rfl
    · exact hnone

/-- A completion sends the post on, reports its end, or has nothing to do with posts. -/
inductive Handles (p : Phone Picture) (r : Request Picture) (a : Bool) (e : Outcome Picture) : Prop
  | next (r' : Request Picture) (post : Post Picture) : postOf r = some post →
      postOf r' = some post → (∀ n, isStored n ⟨r, some a⟩ = false) → IsPut ⟨r, some a⟩ →
      e.client = p → e.requests = [r'] → Handles p r a e
  | reported (post : Post Picture) (ok : Bool) : postOf r = some post →
      (∀ n, isStored n ⟨r, some a⟩ = decide ((post.number, ok) = (n, true))) →
      e.client.posts = p.posts → e.client.reports = (post.number, ok) :: p.reports →
      e.client.next = p.next → (∀ r' ∈ e.requests, postOf r' = none) → Handles p r a e
  | none : postOf r = none → e.client.posts = p.posts → e.client.reports = p.reports →
      e.client.next ≥ p.next → e.requests = [] → Handles p r a e

private theorem handles_callback {p : Phone Picture} {r : Request Picture} {a : Bool}
    {post : Post Picture} (ok : Bool) (of : postOf r = some post)
    (stored : ∀ n, isStored n ⟨r, some a⟩ = decide ((post.number, ok) = (n, true))) :
    Handles p r a (imageCallback p post ok) := by
  refine .reported post ok of stored ?_ ?_ ?_ fun r' hr' => ?_
  all_goals unfold imageCallback at *; dsimp only at *
  · split
    · cases ok <;> rfl
    · rfl
  · split
    · cases ok <;> rfl
    · rfl
  · split
    · cases ok <;> rfl
    · rfl
  · split at hr'
    · cases ok with
      | false => exact absurd hr' List.not_mem_nil
      | true =>
        obtain rfl := List.mem_singleton.mp hr'
        rfl
    · exact absurd hr' List.not_mem_nil

theorem handles {p : Phone Picture} {r : Request Picture} {a : Bool} {e : Outcome Picture}
    (he : handle p r a = some e) : Handles p r a e := by
  cases r with
  | putData post =>
    cases a with
    | true =>
      obtain rfl := Option.some.inj he
      exact .next _ post rfl rfl (fun _ => rfl) rfl rfl rfl
    | false =>
      obtain rfl := Option.some.inj he
      exact handles_callback false rfl fun n => by simp [isStored]
  | downloadURL post =>
    cases a with
    | true =>
      obtain ⟨_, hsent⟩ := Option.ite_none_left_eq_some.mp he
      obtain rfl := Option.some.inj hsent
      exact .next _ post rfl rfl (fun _ => rfl) trivial rfl rfl
    | false =>
      obtain rfl := Option.some.inj he
      exact handles_callback false rfl fun n => by simp [isStored]
  | addDocument post =>
    cases a with
    | true =>
      obtain ⟨_, hsent⟩ := Option.ite_none_left_eq_some.mp he
      obtain rfl := Option.some.inj hsent
      exact handles_callback true rfl fun n => by simp [isStored]
    | false =>
      obtain rfl := Option.some.inj he
      exact handles_callback false rfl fun n => by simp [isStored]
  | aftterImagePost screen =>
    obtain rfl := Option.some.inj he
    refine .none rfl ?_ ?_ ?_ ?_
    all_goals unfold aftterImagePost; split
    · rfl
    · rfl
    · rfl
    · rfl
    · exact Nat.le_succ _
    · exact Nat.le_refl _
    · rfl
    · rfl
  | reloadData screen =>
    obtain rfl := Option.some.inj he
    refine .none rfl ?_ ?_ ?_ rfl
    all_goals dsimp only; split
    · rfl
    · rfl
    · rfl
    · rfl
    · exact Nat.le_refl _
    · exact Nat.le_refl _

theorem isOf_of {n : Nat} {r : Request Picture} {a : Option Bool} {post : Post Picture}
    (h : postOf r = some post) : isOf n ⟨r, a⟩ = decide (post.number = n) := by
  unfold isOf
  rw [h]
  rfl

theorem isOf_none {n : Nat} {r : Request Picture} {a : Option Bool} (h : postOf r = none) :
    isOf n ⟨r, a⟩ = false := by
  unfold isOf
  rw [h]
  rfl

theorem isStored_unanswered (n : Nat) (r : Request Picture) : isStored n ⟨r, none⟩ = false := by
  cases r <;> rfl

theorem countP_issued (n : Nat) {l : List (Entry Picture)} {rs : List (Request Picture)}
    (h : ∀ r ∈ rs, postOf r = none) :
    (l ++ rs.map fun r => (⟨r, none⟩ : Entry Picture)).countP (isOf n) = l.countP (isOf n) ∧
      (l ++ rs.map fun r => (⟨r, none⟩ : Entry Picture)).countP (isStored n) =
        l.countP (isStored n) := by
  constructor
  · have hnone : (rs.map fun r => (⟨r, none⟩ : Entry Picture)).countP (isOf n) = 0 := by
      refine List.countP_eq_zero.mpr fun q hq => ?_
      obtain ⟨r, hr, rfl⟩ := List.mem_map.mp hq
      rw [isOf_none (h r hr)]
      exact Bool.false_ne_true
    rw [List.countP_append, hnone, Nat.add_zero]
  · have hnone : (rs.map fun r => (⟨r, none⟩ : Entry Picture)).countP (isStored n) = 0 := by
      refine List.countP_eq_zero.mpr fun q hq => ?_
      obtain ⟨r, _, rfl⟩ := List.mem_map.mp hq
      rw [isStored_unanswered]
      exact Bool.false_ne_true
    rw [List.countP_append, hnone, Nat.add_zero]

variable {url : String → String}

private theorem ledger_act {w : Network Picture} (h : Ledger url w) (v : Action Picture) :
    Ledger url (w.perform (act w.client v)) := by
  rcases acts w.client v with ⟨posts, reports, next, requests⟩ |
    ⟨post, number, posts, reports, next, requests⟩
  · have hflight : (w.perform (act w.client v)).inflight = w.inflight := by
      show w.inflight ++ (act w.client v).requests.map _ = _
      rw [requests, List.map_nil, List.append_nil]
    refine ⟨fun n => ?_, fun n => ?_, fun post hp => ?_, ?_, ?_, ?_, ?_⟩
    · rw [hflight, World.perform_client, reportsOf, posts, reports]
      exact h.once n
    · rw [hflight, World.perform_client, reports]
      exact h.stored n
    · exact Nat.lt_of_lt_of_le (h.fresh post (posts ▸ hp)) next
    · rw [World.perform_client, posts]
      exact h.single
    · rw [hflight, World.perform_client, posts]
      exact h.known
    · rw [hflight]
      exact h.put
    · rw [World.perform_client, posts]
      exact h.messages
  · have hflight : (w.perform (act w.client v)).inflight = w.inflight ++ [⟨.putData post, none⟩] := by
      show w.inflight ++ (act w.client v).requests.map _ = _
      rw [requests]
      rfl
    refine ⟨fun n => ?_, fun n => ?_, ?_, ?_, fun q hq post' hp => ?_, fun q hq hput post' hp => ?_,
      fun m hm n hn => ?_⟩
    · rw [hflight, World.perform_client, reportsOf, posts, reports, List.countP_append,
        List.countP_cons, List.countP_cons, isOf_of rfl]
      have hold := h.once n
      unfold reportsOf at hold
      simp only [List.countP_nil, decide_eq_true_eq]
      omega
    · rw [hflight, World.perform_client, reports, List.countP_append, List.countP_cons,
        isStored_unanswered]
      exact h.stored n
    · intro post' hp
      rw [World.perform_client, posts] at hp
      rw [World.perform_client, next]
      rcases List.mem_cons.mp hp with rfl | hp
      · exact number ▸ Nat.lt_succ_self _
      · exact Nat.lt_succ_of_lt (h.fresh post' hp)
    · rw [World.perform_client, posts, List.map_cons, List.nodup_cons]
      refine ⟨fun hmem => ?_, h.single⟩
      obtain ⟨post', hp, heq⟩ := List.mem_map.mp hmem
      have hlt := h.fresh post' hp
      omega
    · rw [World.perform_client, posts]
      rw [hflight] at hq
      rcases List.mem_append.mp hq with hq | hq
      · exact List.mem_cons_of_mem _ (h.known q hq post' hp)
      · obtain rfl := List.mem_singleton.mp hq
        obtain rfl := Option.some.inj hp
        exact List.mem_cons_self
    · rw [hflight] at hq
      rcases List.mem_append.mp hq with hq | hq
      · exact h.put q hq hput post' hp
      · obtain rfl := List.mem_singleton.mp hq
        cases hput
    · obtain ⟨post', hp, hrest⟩ := h.messages m hm n hn
      rw [World.perform_client, posts]
      exact ⟨post', List.mem_cons_of_mem _ hp, hrest⟩

private theorem ledger_handle {w : Network Picture} (h : Ledger url w) {i : Nat}
    {r : Request Picture} {a : Bool} (hi : w.inflight[i]? = some ⟨r, some a⟩)
    {e : Outcome Picture} (he : Handles w.client r a e) :
    Ledger url ((w.landed i).perform e) := by
  have hmem := List.mem_of_getElem? hi
  have hof := fun n => countP_landed (isOf n) hi
  have hstored := fun n => countP_landed (isStored n) hi
  have hrest : ∀ q ∈ w.inflight.eraseIdx i, q ∈ w.inflight := fun _ => List.mem_of_mem_eraseIdx
  rcases he with ⟨r', post, of, of', stored, put, client, requests⟩ |
    ⟨post, ok, of, stored, posts, reports, next, requests⟩ |
    ⟨of, posts, reports, next, requests⟩
  · have hflight : ((w.landed i).perform e).inflight = w.inflight.eraseIdx i ++ [⟨r', none⟩] := by
      show w.inflight.eraseIdx i ++ e.requests.map _ = _
      rw [requests]
      rfl
    refine ⟨fun n => ?_, fun n => ?_, ?_, ?_, fun q hq post' hp => ?_, fun q hq hput post' hp => ?_,
      ?_⟩
    · rw [hflight, World.perform_client, client, List.countP_append, List.countP_cons,
        isOf_of of', ← h.once n, hof n, isOf_of of, List.countP_nil]
      omega
    · rw [hflight, World.perform_client, client, List.countP_append, List.countP_cons,
        isStored_unanswered]
      have hold := h.stored n
      rw [hstored n, stored n] at hold
      exact hold
    · rw [World.perform_client, client]
      exact h.fresh
    · rw [World.perform_client, client]
      exact h.single
    · rw [World.perform_client, client]
      rw [hflight] at hq
      rcases List.mem_append.mp hq with hq | hq
      · exact h.known q (hrest q hq) post' hp
      · obtain rfl := List.mem_singleton.mp hq
        obtain rfl := Option.some.inj (of'.symm.trans hp)
        exact h.known _ hmem post of
    · rw [hflight] at hq
      rcases List.mem_append.mp hq with hq | hq
      · exact h.put q (hrest q hq) hput post' hp
      · obtain rfl := List.mem_singleton.mp hq
        obtain rfl := Option.some.inj (of'.symm.trans hp)
        exact h.put _ hmem put post of
    · rw [World.perform_client, client]
      exact h.messages
  · have hissued := fun n => countP_issued n (l := w.inflight.eraseIdx i) requests
    have hknown : ∀ q ∈ ((w.landed i).perform e).inflight, ∀ post' ∈ postOf q.request,
        q ∈ w.inflight := by
      intro q hq post' hp
      rcases List.mem_append.mp hq with hq | hq
      · exact hrest q hq
      · obtain ⟨r', hr', rfl⟩ := List.mem_map.mp hq
        rw [requests r' hr'] at hp
        cases hp
    refine ⟨fun n => ?_, fun n => ?_, ?_, ?_, fun q hq post' hp => ?_, fun q hq hput post' hp => ?_,
      ?_⟩
    · show (w.inflight.eraseIdx i ++ e.requests.map _).countP _ + _ = _
      rw [(hissued n).1, World.perform_client, reportsOf, reports, posts, ← h.once n, hof n,
        isOf_of of, List.countP_cons, reportsOf]
      simp only [decide_eq_true_eq]
      omega
    · show _ = (w.inflight.eraseIdx i ++ e.requests.map _).countP _ + _
      have hold := h.stored n
      rw [hstored n, stored n] at hold
      rw [(hissued n).2, World.perform_client, reports, List.countP_cons]
      show messagesOf w.server n = _
      omega
    · rw [World.perform_client, posts, next]
      exact h.fresh
    · rw [World.perform_client, posts]
      exact h.single
    · rw [World.perform_client, posts]
      exact h.known q (hknown q hq post' hp) post' hp
    · exact h.put q (hknown q hq post' hp) hput post' hp
    · rw [World.perform_client, posts]
      exact h.messages
  · have hflight : ((w.landed i).perform e).inflight = w.inflight.eraseIdx i := by
      show w.inflight.eraseIdx i ++ e.requests.map _ = _
      rw [requests, List.map_nil, List.append_nil]
    have hidle : ∀ n, isStored n ⟨r, some a⟩ = false := by
      intro n
      cases r <;> first | rfl | cases of
    refine ⟨fun n => ?_, fun n => ?_, fun post hp => ?_, ?_, fun q hq => ?_, fun q hq => ?_, ?_⟩
    · rw [hflight, World.perform_client, reportsOf, reports, posts, ← h.once n, hof n,
        isOf_none of, reportsOf]
      rfl
    · have hold := h.stored n
      rw [hstored n, hidle n] at hold
      rw [hflight, World.perform_client, reports]
      exact hold
    · exact Nat.lt_of_lt_of_le (h.fresh post (posts ▸ hp)) next
    · rw [World.perform_client, posts]
      exact h.single
    · rw [World.perform_client, posts]
      exact h.known q (hrest q (hflight ▸ hq))
    · exact h.put q (hrest q (hflight ▸ hq))
    · rw [World.perform_client, posts]
      exact h.messages

private theorem ledger_answered {w w' : Network Picture} (h : Ledger url w) {i : Nat}
    {r : Request Picture} (ok : Bool) (hi : w.inflight[i]? = some ⟨r, none⟩)
    (client : w'.client = w.client) (flight : w'.inflight = w.inflight.set i ⟨r, some ok⟩)
    (puts : ∀ put ∈ w.server.puts, put ∈ w'.server.puts)
    (put : IsPut ⟨r, some ok⟩ → ∀ post ∈ postOf r, post.put ∈ w'.server.puts)
    (stored : ∀ n, messagesOf w'.server n =
      messagesOf w.server n + if isStored n ⟨r, some ok⟩ then 1 else 0)
    (messages : ∀ m ∈ w'.server.messages, m ∈ w.server.messages ∨ ∃ post ∈ postOf r,
      m.post = some post.number ∧ m.chatRoomKey = post.chatRoom.key ∧
        (∃ t, m.data = { post.data url with createdAt := t }) ∧ IsPut ⟨r, none⟩) :
    Ledger url w' := by
  have hmem := List.mem_of_getElem? hi
  refine ⟨fun n => ?_, fun n => ?_, client ▸ h.fresh, client ▸ h.single, fun q hq post hp => ?_,
    fun q hq hput post hp => ?_, fun m hm n hn => ?_⟩
  · have hset := countP_served (isOf n) (⟨r, some ok⟩ : Entry Picture) hi
    have hsame : isOf n ⟨r, some ok⟩ = isOf n (⟨r, none⟩ : Entry Picture) := rfl
    rw [hsame] at hset
    rw [flight, client, ← h.once n]
    omega
  · have hset := countP_served (isStored n) (⟨r, some ok⟩ : Entry Picture) hi
    rw [isStored_unanswered] at hset
    have hold := h.stored n
    rw [flight, client, stored n]
    simp only [Bool.false_eq_true, if_false, Nat.add_zero] at hset
    omega
  · rw [client]
    rw [flight] at hq
    rcases List.mem_or_eq_of_mem_set hq with hq | rfl
    · exact h.known q hq post hp
    · exact h.known _ hmem post hp
  · rw [flight] at hq
    rcases List.mem_or_eq_of_mem_set hq with hq | rfl
    · exact puts _ (h.put q hq hput post hp)
    · exact put hput post hp
  · rw [client]
    rcases messages m hm with hold | ⟨post, hp, hn', hroom, hdata, hput⟩
    · obtain ⟨post, hp, hnumber, hroom, hdata, hput⟩ := h.messages m hold n hn
      exact ⟨post, hp, hnumber, hroom, hdata, puts _ hput⟩
    · obtain rfl := Option.some.inj (hn'.symm.trans hn)
      exact ⟨post, h.known _ hmem post hp, rfl, hroom, hdata, puts _ (h.put _ hmem hput post hp)⟩

private theorem ledger_serve {w : Network Picture} (h : Ledger url w) {i : Nat}
    {r : Request Picture} (ok : Bool) (hi : w.inflight[i]? = some ⟨r, none⟩) :
    Ledger url (w.served (program url) i r ok) := by
  have hmem := List.mem_of_getElem? hi
  have hold : ∀ a, (serve url w.server r ok) = (w.server, a) →
      (IsPut ⟨r, some a⟩ → ∀ post ∈ postOf r, post.put ∈ w.server.puts) →
      (∀ n, isStored n ⟨r, some a⟩ = false) → Ledger url (w.served (program url) i r ok) := by
    intro a hserve hput hstored
    have hserver : (w.served (program url) i r ok).server = w.server := congrArg Prod.fst hserve
    have hanswer : ((program url).serve w.server r ok).2 = a := congrArg Prod.snd hserve
    refine ledger_answered h a hi rfl ?_ ?_ ?_ (fun n => ?_) ?_
    · rw [World.served_inflight, hanswer]
    · rw [hserver]
      exact fun _ hp => hp
    · rw [hserver]
      exact hput
    · rw [hserver, hstored n]
      rfl
    · rw [hserver]
      exact fun _ hm => .inl hm
  cases r with
  | putData post =>
    cases ok with
    | false => exact hold false rfl (fun hp => absurd hp (by simp [IsPut])) fun _ => rfl
    | true =>
      refine ledger_answered h true hi rfl rfl (fun _ hp => List.mem_cons_of_mem _ hp)
        (fun _ post' hp => ?_) (fun _ => rfl) fun _ hm => .inl hm
      obtain rfl := Option.some.inj hp
      exact List.mem_cons_self
  | downloadURL post => cases ok <;> exact hold _ rfl (fun _ => h.put _ hmem trivial) fun _ => rfl
  | addDocument post =>
    cases ok with
    | false => exact hold false rfl (fun _ => h.put _ hmem trivial) fun _ => rfl
    | true =>
      refine ledger_answered h true hi rfl rfl (fun _ hp => hp)
        (fun _ => h.put _ hmem trivial) (fun n => ?_) fun m hm => ?_
      · show List.countP _ (_ :: _) = _
        rw [List.countP_cons]
        simp [messagesOf, isStored]
      · rcases List.mem_cons.mp hm with rfl | hm
        · exact .inr ⟨post, rfl, rfl, rfl, ⟨_, rfl⟩, trivial⟩
        · exact .inl hm
  | aftterImagePost screen =>
    cases ok <;> exact hold _ rfl (fun _ _ hp => by cases hp) fun _ => rfl
  | reloadData screen =>
    cases ok <;> exact hold _ rfl (fun _ _ hp => by cases hp) fun _ => rfl

private theorem ledger_noticed {w : Network Picture} (h : Ledger url w) {j : Nat} (x : Listener)
    (y : Option Unit) : Ledger url ((w.delivered j x).perform (notify w.client x y)) := by
  have hclient : (notify w.client x y).client = w.client := by cases y <;> rfl
  have hnone : ∀ r ∈ (notify w.client x y).requests, postOf r = none := by
    intro r hr
    cases y with
    | none => exact absurd hr List.not_mem_nil
    | some u =>
      obtain rfl := List.mem_singleton.mp hr
      rfl
  have hold : ∀ q ∈ ((w.delivered j x).perform (notify w.client x y)).inflight,
      ∀ post ∈ postOf q.request, q ∈ w.inflight := by
    intro q hq post hp
    rcases List.mem_append.mp hq with hq | hq
    · exact hq
    · obtain ⟨r, hr, rfl⟩ := List.mem_map.mp hq
      rw [hnone r hr] at hp
      cases hp
  refine ⟨fun n => ?_, fun n => ?_, ?_, ?_, fun q hq post hp => ?_, fun q hq hput post hp => ?_, ?_⟩
  · rw [World.perform_inflight, World.perform_client, hclient, ← h.once n]
    exact congrArg (· + _) (countP_issued n hnone).1
  · rw [World.perform_inflight, World.perform_client, hclient]
    exact (h.stored n).trans (congrArg (· + _) (countP_issued n hnone).2.symm)
  · rw [World.perform_client, hclient]
    exact h.fresh
  · rw [World.perform_client, hclient]
    exact h.single
  · rw [World.perform_client, hclient]
    exact h.known q (hold q hq post hp) post hp
  · exact h.put q (hold q hq post hp) hput post hp
  · rw [World.perform_client, hclient]
    exact h.messages

private theorem ledger_changed {w : Network Picture} (h : Ledger url w) (c : Change Picture) :
    Ledger url (w.install (program url) (env w.server c)) := by
  have hputs : ∀ put ∈ w.server.puts, put ∈ (env w.server c).puts := fun put hp => by
    cases c with
    | put _ => exact List.mem_cons_of_mem _ hp
    | message _ => exact hp
  have hstored : ∀ n, messagesOf (env w.server c) n = messagesOf w.server n := fun n => by
    cases c with
    | put _ => rfl
    | message m =>
      show List.countP _ (_ :: _) = _
      rw [List.countP_cons]
      simp [messagesOf]
  refine ⟨h.once, fun n => (hstored n).trans (h.stored n), h.fresh, h.single, h.known,
    fun q hq hput post hp => hputs _ (h.put q hq hput post hp), fun m hm n hn => ?_⟩
  have hmem : m ∈ w.server.messages := by
    cases c with
    | put _ => exact hm
    | message _ =>
      rcases List.mem_cons.mp hm with rfl | hm
      · cases hn
      · exact hm
  obtain ⟨post, hp, hnumber, hroom, hdata, hput⟩ := h.messages m hmem n hn
  exact ⟨post, hp, hnumber, hroom, hdata, hputs _ hput⟩

theorem ledger_step {w w' : Network Picture} {e : Event (Action Picture) (Change Picture)}
    (h : Ledger url w) (hstep : (program url).step w e = some w') : Ledger url w' := by
  cases Program.step_fires hstep with
  | act he =>
    obtain rfl := Option.some.inj he
    exact ledger_act h _
  | serve hi => exact ledger_serve h _ hi
  | handle hi he => exact ledger_handle h hi (handles he)
  | @deliver j ok x _ hj he =>
    obtain rfl := Option.some.inj he
    exact ledger_noticed h _ _
  | @env c => exact ledger_changed h c

theorem ledger_start : Ledger url (start : Network Picture) where
  once _ := rfl
  stored _ := rfl
  fresh _ h := absurd h List.not_mem_nil
  single := List.nodup_nil
  known _ h := absurd h List.not_mem_nil
  put _ h := absurd h List.not_mem_nil
  messages _ h := absurd h List.not_mem_nil

private theorem toList_path (chatRoomKey : Nat) (imageName : String) :
    (path chatRoomKey imageName).toList = "chat_room/".toList ++
      (Nat.toDigits 10 chatRoomKey ++ '/' :: (imageName.toList ++ ".jpg".toList)) := by
  unfold path
  simp only [String.toList_append, Nat.toList_repr, List.append_assoc]
  rfl

/-- The digits of the room end at the slash. -/
theorem path_injective {k k' : Nat} {n n' : String} (h : path k n = path k' n') :
    k = k' ∧ n = n' := by
  have hlist := congrArg String.toList h
  rw [toList_path, toList_path, List.append_cancel_left_eq] at hlist
  have hdigits : ∀ (k : Nat) (rest : List Char),
      (Nat.toDigits 10 k ++ '/' :: rest).takeWhile (· ≠ '/') = Nat.toDigits 10 k := by
    intro k rest
    rw [List.takeWhile_append_of_pos]
    · simp
    · intro c hc
      have hdigit := Nat.isDigit_of_mem_toDigits (by decide) (by decide) hc
      refine decide_eq_true fun heq => ?_
      rw [heq] at hdigit
      exact absurd hdigit (by decide)
  have hkeys := congrArg (List.takeWhile (· ≠ '/')) hlist
  rw [hdigits, hdigits] at hkeys
  rw [hkeys, List.append_cancel_left_eq] at hlist
  have hnames := List.append_cancel_right (List.cons.inj hlist).2
  refine ⟨?_, String.toList_injective hnames⟩
  refine Option.some.inj ?_
  rw [← digitsOf_toDigits k, ← digitsOf_toDigits k', hkeys]

/-- What was put later under the name of a picture stands before it. -/
theorem shown_of_puts (inj : Function.Injective url) {s : Backend Picture}
    {later earlier : List (Put Picture)} {put : Put Picture}
    (h : s.puts = later ++ put :: earlier) : shown url s (url put.path) =
      some ((later.find? fun other => other.chatRoomKey = put.chatRoomKey ∧
        other.imageName = put.imageName).getD put).jpeg := by
  have hsame : ∀ other : Put Picture, decide (url other.path = url put.path) =
      decide (other.chatRoomKey = put.chatRoomKey ∧ other.imageName = put.imageName) := by
    intro other
    refine decide_eq_decide.mpr ⟨fun heq => path_injective (inj heq), fun ⟨hkey, hname⟩ => ?_⟩
    unfold Put.path
    rw [hkey, hname]
  unfold shown
  rw [h]
  simp only [hsame, List.find?_append]
  cases later.find? fun other => other.chatRoomKey = put.chatRoomKey ∧
      other.imageName = put.imageName with
  | none => simp
  | some other => rfl

theorem isOf_of_isStored {n : Nat} {q : Entry Picture} (h : isStored n q = true) :
    isOf n q = true := by
  unfold isStored at h
  split at h
  · exact (isOf_of rfl).trans h
  · cases h

theorem reportsOf_eq (p : Phone Picture) (n : Nat) : reportsOf p n =
    p.reports.countP (fun r => r = (n, true)) + p.reports.countP (fun r => r = (n, false)) := by
  unfold reportsOf
  induction p.reports with
  | nil => rfl
  | cons r rs ih =>
    obtain ⟨k, ok⟩ := r
    simp only [List.countP_cons, ih, Prod.mk.injEq, decide_eq_true_eq]
    cases ok <;> simp only [and_true, and_false, if_false, reduceCtorEq] <;> omega

/-- A photo is on its way or has been reported, once; without an error it has come to one
message, with one to none. The message is as its sender made it, and shows the picture or
what was put under its name since. -/
theorem photo_all_or_nothing (url : String → String) (inj : Function.Injective url)
    {es : List (Event (Action Picture) (Change Picture))} {w : Network Picture}
    (hr : run (program url).step start es = some w) {post : Post Picture}
    (hp : post ∈ w.client.posts) :
    w.inflight.countP (isOf post.number) + reportsOf w.client post.number = 1 ∧
      messagesOf w.server post.number ≤ 1 ∧
      ((post.number, true) ∈ w.client.reports → messagesOf w.server post.number = 1) ∧
      ((post.number, false) ∈ w.client.reports → messagesOf w.server post.number = 0) ∧
      ∀ m ∈ w.server.messages, m.post = some post.number →
        m.chatRoomKey = post.chatRoom.key ∧ (∃ t, m.data = { post.data url with createdAt := t }) ∧
        ∃ later earlier, w.server.puts = later ++ post.put :: earlier ∧
          m.data.imageURL.bind (shown url w.server) =
            some ((later.find? fun put => put.chatRoomKey = post.chatRoom.key ∧
              put.imageName = post.imageName).getD post.put).jpeg := by
  have h : Ledger url w := run_invariant (fun _ _ _ h hstep => ledger_step h hstep) hr ledger_start
  have hone : w.client.posts.countP (fun p => p.number = post.number) = 1 := by
    have hcount := List.count_eq_one_of_mem h.single (List.mem_map_of_mem hp)
    rw [List.count, List.countP_map] at hcount
    exact hcount
  have honce := (h.once post.number).trans hone
  have hstored := h.stored post.number
  have hreports := reportsOf_eq w.client post.number
  have hpart : w.inflight.countP (isStored post.number) ≤ w.inflight.countP (isOf post.number) :=
    List.countP_mono_left fun q _ hq => isOf_of_isStored hq
  refine ⟨honce, by omega, fun hmem => ?_, fun hmem => ?_, fun m hm hn => ?_⟩
  · have hpos : 0 < w.client.reports.countP fun r => r = (post.number, true) :=
      List.countP_pos_iff.mpr ⟨_, hmem, decide_eq_true rfl⟩
    omega
  · have hpos : 0 < w.client.reports.countP fun r => r = (post.number, false) :=
      List.countP_pos_iff.mpr ⟨_, hmem, decide_eq_true rfl⟩
    omega
  · obtain ⟨post', hp', hnumber, hroom, ⟨t, hdata⟩, hput⟩ := h.messages m hm _ hn
    have hsame : post' = post := List.inj_on_of_nodup_map h.single hp' hp hnumber
    rw [hsame] at hroom hdata hput
    obtain ⟨later, earlier, hputs⟩ := List.append_of_mem hput
    refine ⟨hroom, ⟨t, hdata⟩, later, earlier, hputs, ?_⟩
    have hurl : m.data.imageURL = some (url post.put.path) := by
      rw [hdata]
      rfl
    rw [hurl, Option.bind_some]
    exact shown_of_puts inj hputs

section Example

/-- A photo is posted and goes well to its end, and another device uses its name. -/
def posted : List (Event (Action Nat) (Change Nat)) :=
  [.act (.auth (some "a")), .act (.opened ⟨0, "a", ∅, none, 1, 0, 0, none⟩),
    .act (.postImage 0 (some 7) [0]), .serve 0 true, .handle 0, .serve 0 true, .handle 0,
    .serve 0 true, .handle 0, .env (.put ⟨0, "a", 8, none⟩)]

theorem photo_all_or_nothing_posted : ∃ w, run (program id).step start posted = some w ∧
    ∃ post ∈ w.client.posts, messagesOf w.server post.number = 1 ∧ post.jpeg = 7 ∧
      ∃ m ∈ w.server.messages, m.data.imageURL.bind (shown id w.server) = some 8 := by
  have hrun : run (program id).step start posted = some _ := rfl
  refine ⟨_, hrun, _, List.mem_cons_self, ?_, rfl, _, List.mem_cons_self, rfl⟩
  exact (photo_all_or_nothing id Function.injective_id hrun List.mem_cons_self).2.2.1
    List.mem_cons_self

end Example

end PlateChat.Screen.PhotoMessages
