/- PlateChat/Screen/PhotoTraps
   digest: When the completion of a photo finds its service gone, and what keeps it from that. -/

import PlateChat.Screen.Photos

set_option autoImplicit false
set_option relaxedAutoImplicit false

/-!
The completions of a photo unwrap a service that the screen may have exchanged or taken with
it. Only the indicator stands between a touch and that, and the posts of one phone share it.
-/

namespace PlateChat.Screen.PhotoTraps

open PlateChat.Foundation.Run PlateChat.Foundation.EventLoop
open PlateChat.Model.Members PlateChat.Model.Room
open PlateChat.Screen.Photos

variable {Picture : Type}

/-- The post can still come to its message. -/
def Running (post : Post Picture) : Entry Picture → Prop
  | ⟨.putData post', a⟩ | ⟨.downloadURL post', a⟩ | ⟨.addDocument post', a⟩ =>
    post' = post ∧ a ≠ some false
  | _ => False

/-- The post can end with an error that takes the indicator down. -/
def MayFail (p : Phone Picture) : Entry Picture → Prop
  | ⟨.putData post, _⟩ | ⟨.downloadURL post, _⟩ => p.Exists post.screen
  | ⟨.addDocument post, a⟩ => a ≠ some true ∧ p.Exists post.screen
  | _ => False

/-- The service of the screen is going to be exchanged. -/
def Renews (screen : Nat) : Entry Picture → Prop
  | ⟨.addDocument post, some true⟩ => post.screen = screen
  | ⟨.aftterImagePost screen', _⟩ => screen' = screen
  | _ => False

/-- One takes the indicator down over the other, or the service from under it. -/
def Clash (p : Phone Picture) (q q' : Entry Picture) : Prop :=
  MayFail p q ∧ (MayFail p q' ∨ ∃ t ∈ p.screens, Renews t.screen q') ∨
    ∃ post, Running post q ∧ Renews post.screen q'

def Apart (p : Phone Picture) (q q' : Entry Picture) : Prop := ¬ Clash p q q' ∧ ¬ Clash p q' q

/-- Every post that can still come to its message has its service, nothing that is on its way
is open to a touch, and no two of them clash. -/
structure Safe (p : Phone Picture) (l : List (Entry Picture)) : Prop where
  served : ∀ q ∈ l, ∀ post, Running post q → ¬ p.Gone post
  masked : p.blocked = false → ∀ q ∈ l, ¬ MayFail p q ∧ ∀ t ∈ p.screens, ¬ Renews t.screen q
  apart : l.Pairwise (Apart p)

/-- A photo and what follows it, the display of messages apart. -/
def OnItsWay (q : Entry Picture) : Prop := ∀ screen, q.request ≠ .reloadData screen

/-- The indicator is taken down by another list, or by the listener of a photo that was posted. -/
def TakesDown (w : Network Picture) : Event (Action Picture) (Change Picture) → Prop
  | .act (.indicator false) => True
  | .handle i => ∃ screen a, w.inflight[i]? = some ⟨.reloadData screen, some a⟩ ∧
      w.client.Exists screen
  | _ => False

/-- No post is on its way when the indicator is taken down. -/
def Undisturbed (w : Network Picture) (e : Event (Action Picture) (Change Picture)) : Prop :=
  TakesDown w e → ∀ q ∈ w.inflight, ¬ OnItsWay q

theorem Apart.symm {p : Phone Picture} {q q' : Entry Picture} (h : Apart p q q') : Apart p q' q :=
  ⟨h.2, h.1⟩

theorem Safe.perm {p : Phone Picture} {l l' : List (Entry Picture)} (h : Safe p l)
    (hl : l.Perm l') : Safe p l' where
  served q hq := h.served q (hl.mem_iff.mpr hq)
  masked hb q hq := h.masked hb q (hl.mem_iff.mpr hq)
  apart := (hl.pairwise_iff Apart.symm).mp h.apart

/-- What safety asks of one entry. -/
structure Fine (p : Phone Picture) (q : Entry Picture) : Prop where
  served : ∀ post, Running post q → ¬ p.Gone post
  masked : p.blocked = false → ¬ MayFail p q ∧ ∀ t ∈ p.screens, ¬ Renews t.screen q

theorem safe_cons {p : Phone Picture} {q : Entry Picture} {l : List (Entry Picture)} :
    Safe p (q :: l) ↔ Fine p q ∧ (∀ q' ∈ l, Apart p q q') ∧ Safe p l := by
  constructor
  · intro h
    obtain ⟨hfirst, hrest⟩ := List.pairwise_cons.mp h.apart
    refine ⟨⟨h.served q List.mem_cons_self, fun hb => h.masked hb q List.mem_cons_self⟩, hfirst,
      ⟨fun q' hq' => h.served q' (List.mem_cons_of_mem q hq'), fun hb q' hq' => ?_, hrest⟩⟩
    exact h.masked hb q' (List.mem_cons_of_mem q hq')
  · rintro ⟨fine, hfirst, h⟩
    refine ⟨fun q' hq' => ?_, fun hb q' hq' => ?_, List.pairwise_cons.mpr ⟨hfirst, h.apart⟩⟩
    · rcases List.mem_cons.mp hq' with rfl | hq'
      · exact fine.served
      · exact h.served q' hq'
    · rcases List.mem_cons.mp hq' with rfl | hq'
      · exact fine.masked hb
      · exact h.masked hb q' hq'

theorem screenOf_of_renews {screen : Nat} {q : Entry Picture} (h : Renews screen q) :
    screenOf q.request = some screen := by
  unfold Renews at h
  split at h
  · exact congrArg some h
  · exact congrArg some h
  · exact h.elim

theorem mayFail_of_exists {p p' : Phone Picture} {q : Entry Picture} (h : MayFail p' q)
    (imp : ∀ screen ∈ screenOf q.request, p'.Exists screen → p.Exists screen) : MayFail p q := by
  unfold MayFail at h ⊢
  split at h
  · exact imp _ rfl h
  · exact imp _ rfl h
  · exact ⟨h.1, imp _ rfl h.2⟩
  · exact h.elim

/-- What still runs on a screen that exists may fail, or exchanges the service. -/
theorem mayFail_or_renews {p : Phone Picture} {q : Entry Picture} {post : Post Picture}
    (running : Running post q) (h : p.Exists post.screen) : MayFail p q ∨ Renews post.screen q := by
  obtain ⟨r, a⟩ := q
  cases r with
  | putData post' =>
    obtain ⟨rfl, _⟩ := running
    exact .inl h
  | downloadURL post' =>
    obtain ⟨rfl, _⟩ := running
    exact .inl h
  | addDocument post' =>
    obtain ⟨rfl, _⟩ := running
    by_cases ha : a = some true
    · subst ha
      exact .inr rfl
    · exact .inl ⟨ha, h⟩
  | aftterImagePost screen => exact running.elim
  | reloadData screen => exact running.elim

theorem postOf_of_running {q : Entry Picture} {post : Post Picture} (running : Running post q) :
    postOf q.request = some post := by
  unfold Running at running
  split at running
  · exact congrArg some running.1
  · exact congrArg some running.1
  · exact congrArg some running.1
  · exact running.elim

theorem exists_of_served {p : Phone Picture} {l : List (Entry Picture)} (h : Sound p l)
    {q : Entry Picture} (hq : q ∈ l) {post : Post Picture} (running : Running post q)
    (served : ¬ p.Gone post) :
    ∃ t ∈ p.talks, t.chatMessageService = post.service ∧ t.screen = post.screen := by
  unfold Phone.Gone at served
  push Not at served
  obtain ⟨t, ht, heq⟩ := served
  exact ⟨t, ht, heq, (h.posts q hq post (postOf_of_running running)).2 t ht heq⟩

theorem Safe.phone {p p' : Phone Picture} {l : List (Entry Picture)} (h : Safe p l)
    (served : ∀ q ∈ l, ∀ post, Running post q → ¬ p.Gone post → ¬ p'.Gone post)
    (masked : p'.blocked = false → p.blocked = false)
    (existing : ∀ q ∈ l, ∀ screen ∈ screenOf q.request, p'.Exists screen → p.Exists screen)
    (stack : ∀ q ∈ l, ∀ screen ∈ screenOf q.request, (∃ t ∈ p'.screens, t.screen = screen) →
      ∃ t ∈ p.screens, t.screen = screen) : Safe p' l := by
  have hrenews : ∀ q ∈ l, (∃ t ∈ p'.screens, Renews t.screen q) →
      ∃ t ∈ p.screens, Renews t.screen q := by
    rintro q hq ⟨t', ht', hrenews⟩
    obtain ⟨t, ht, heq⟩ := stack q hq _ (screenOf_of_renews hrenews) ⟨t', ht', rfl⟩
    exact ⟨t, ht, heq ▸ hrenews⟩
  have hfail : ∀ q ∈ l, MayFail p' q → MayFail p q := fun q hq hm =>
    mayFail_of_exists hm (existing q hq)
  have hclash : ∀ q ∈ l, ∀ q' ∈ l, Clash p' q q' → Clash p q q' := by
    rintro q hq q' hq' (⟨hm, hother⟩ | hrun)
    · exact .inl ⟨hfail q hq hm, hother.imp (hfail q' hq') (hrenews q' hq')⟩
    · exact .inr hrun
  refine ⟨fun q hq post hrun => served q hq post hrun (h.served q hq post hrun),
    fun hb q hq => ?_, ?_⟩
  · obtain ⟨hnot, hstack⟩ := h.masked (masked hb) q hq
    refine ⟨fun hm => hnot (hfail q hq hm), fun t ht hr => ?_⟩
    obtain ⟨t', ht', hr'⟩ := hrenews q hq ⟨t, ht, hr⟩
    exact hstack t' ht' hr'
  · refine h.apart.imp_of_mem fun hq hq' hapart => ?_
    exact ⟨fun hc => hapart.1 (hclash _ hq _ hq' hc), fun hc => hapart.2 (hclash _ hq' _ hq hc)⟩

/-- `q'` can do no more than `q`. -/
structure Tamer (p : Phone Picture) (q q' : Entry Picture) : Prop where
  running : ∀ post, Running post q' → Running post q
  mayFail : MayFail p q' → MayFail p q
  renews : ∀ screen, Renews screen q' → Renews screen q

theorem Safe.tamer {p : Phone Picture} {q q' : Entry Picture} {l : List (Entry Picture)}
    (h : Safe p (q :: l)) (tamer : Tamer p q q') : Safe p (q' :: l) := by
  obtain ⟨fine, hfirst, hrest⟩ := safe_cons.mp h
  have hfrom : ∀ x, Clash p q' x → Clash p q x := by
    rintro x (⟨hm, hother⟩ | ⟨post, hrun, hr⟩)
    · exact .inl ⟨tamer.mayFail hm, hother⟩
    · exact .inr ⟨post, tamer.running post hrun, hr⟩
  have hto : ∀ x, Clash p x q' → Clash p x q := by
    rintro x (⟨hm, hother⟩ | ⟨post, hrun, hr⟩)
    · refine .inl ⟨hm, hother.imp tamer.mayFail ?_⟩
      rintro ⟨t, ht, hr⟩
      exact ⟨t, ht, tamer.renews _ hr⟩
    · exact .inr ⟨post, hrun, tamer.renews _ hr⟩
  refine safe_cons.mpr ⟨⟨fun post hrun => fine.served post (tamer.running post hrun),
    fun hb => ?_⟩, fun x hx => ?_, hrest⟩
  · obtain ⟨hnot, hstack⟩ := fine.masked hb
    exact ⟨fun hm => hnot (tamer.mayFail hm), fun t ht hr => hstack t ht (tamer.renews _ hr)⟩
  · exact ⟨fun hc => (hfirst x hx).1 (hfrom x hc), fun hc => (hfirst x hx).2 (hto x hc)⟩

theorem Safe.idle {p : Phone Picture} {q : Entry Picture} {l : List (Entry Picture)}
    (h : Safe p l) (running : ∀ post, ¬ Running post q) (mayFail : ¬ MayFail p q)
    (renews : ∀ screen, ¬ Renews screen q) : Safe p (q :: l) := by
  refine safe_cons.mpr ⟨⟨fun post hrun => absurd hrun (running post),
    fun _ => ⟨mayFail, fun t _ => renews t.screen⟩⟩, fun x _ => ⟨?_, ?_⟩, h⟩
  · rintro (⟨hm, _⟩ | ⟨post, hrun, _⟩)
    · exact mayFail hm
    · exact running post hrun
  · rintro (⟨_, hm | ⟨t, _, hr⟩⟩ | ⟨post, _, hr⟩)
    · exact mayFail hm
    · exact renews _ hr
    · exact renews _ hr

theorem safe_of_none {p : Phone Picture} {l : List (Entry Picture)}
    (h : ∀ q ∈ l, ¬ OnItsWay q) : Safe p l := by
  induction l with
  | nil => exact ⟨fun q hq => absurd hq List.not_mem_nil, fun _ q hq => absurd hq List.not_mem_nil,
      List.Pairwise.nil⟩
  | cons q l ih =>
    have hq := h q List.mem_cons_self
    unfold OnItsWay at hq
    push Not at hq
    obtain ⟨screen, hreload⟩ := hq
    obtain ⟨r, a⟩ := q
    obtain rfl := hreload
    exact (ih fun q hq => h q (List.mem_cons_of_mem _ hq)).idle (fun _ h => h) id fun _ h => h

theorem Safe.same {p p' : Phone Picture} {l : List (Entry Picture)} (h : Safe p l)
    (masked : p'.blocked = false → p.blocked = false)
    (served : ∀ t ∈ p.talks, ∃ t' ∈ p'.talks, t'.chatMessageService = t.chatMessageService)
    (talks : ∀ t' ∈ p'.talks, ∃ t ∈ p.talks, t.screen = t'.screen)
    (screens : ∀ t' ∈ p'.screens, ∃ t ∈ p.screens, t.screen = t'.screen) : Safe p' l := by
  refine h.phone (fun q _ post _ hserved hgone => hserved fun t ht => ?_) masked ?_ ?_
  · obtain ⟨t', ht', heq⟩ := served t ht
    exact heq ▸ hgone t' ht'
  · rintro q _ screen _ ⟨t', ht', rfl⟩
    exact talks t' ht'
  · rintro q _ screen _ ⟨t', ht', rfl⟩
    exact screens t' ht'

private theorem safe_opened {p : Phone Picture} {l : List (Entry Picture)} (sound : Sound p l)
    (h : Safe p l) (chatRoom : ChatRoom) : Safe (opened p chatRoom).client l := by
  have hold : ∀ q ∈ l, ∀ screen ∈ screenOf q.request, p.next ≠ screen := fun q hq screen hs heq =>
    absurd (sound.entries q hq screen hs) (heq ▸ Nat.lt_irrefl _)
  refine h.phone (fun q _ post _ hserved hgone => hserved fun t ht => ?_) id ?_ ?_
  · exact hgone t (List.mem_cons_of_mem _ ht)
  · rintro q hq screen hs ⟨t, ht, heq⟩
    rcases List.mem_cons.mp ht with rfl | ht
    · exact absurd heq (hold q hq screen hs)
    · exact ⟨t, ht, heq⟩
  · rintro q hq screen hs ⟨t, ht, heq⟩
    rcases List.mem_cons.mp ht with rfl | ht
    · exact absurd heq (hold q hq screen hs)
    · exact ⟨t, ht, heq⟩

/-- On a phone that can be touched only screens that were left still wait for something. -/
private theorem safe_back {p : Phone Picture} {l : List (Entry Picture)} (sound : Sound p l)
    (h : Safe p l) (touched : p.blocked = false) (screen : Nat) (holds : Bool) :
    Safe (back p screen holds).client l := by
  refine h.phone (fun q hq post hrun hserved hgone => ?_) id ?_ ?_
  · obtain ⟨t, ht, hservice, hscreen⟩ := exists_of_served sound hq hrun hserved
    obtain ⟨hnot, hstack⟩ := h.masked touched q hq
    have hrenews := (mayFail_or_renews hrun ⟨t, ht, hscreen⟩).resolve_left hnot
    rcases List.mem_append.mp ht with ht | ht
    · exact hstack t ht (hscreen ▸ hrenews)
    · refine hgone t (List.mem_append_right _ ?_) hservice
      unfold back
      cases holds with
      | false => exact ht
      | true => exact List.mem_append_right _ ht
  · rintro q _ s _ ⟨t, ht, heq⟩
    exact ⟨t, talks_back ht, heq⟩
  · rintro q _ s _ ⟨t, ht, heq⟩
    exact ⟨t, (List.mem_filter.mp ht).1, heq⟩

theorem Safe.append {p : Phone Picture} {l : List (Entry Picture)} (h : Safe p l)
    {q : Entry Picture} (fine : Fine p q) (apart : ∀ q' ∈ l, Apart p q q') :
    Safe p (l ++ [q]) :=
  (safe_cons.mpr ⟨fine, apart, h⟩).perm (List.perm_append_singleton q l).symm

/-- A post starts on a phone that can be touched, and closes it. -/
private theorem safe_postImage {p : Phone Picture} {l : List (Entry Picture)}
    (h : Safe p l) (touched : p.blocked = false) (screen : Nat) (image : Option Picture)
    (rands : List (Fin 62)) :
    Safe (postImage p screen image rands).client
      (l ++ (postImage p screen image rands).requests.map fun r => ⟨r, none⟩) := by
  have hshown : ∀ n posts, Safe { p.showLoading with next := n, posts := posts } l := fun n posts =>
    h.same (fun hb => absurd hb Bool.noConfusion) (fun t ht => ⟨t, ht, rfl⟩)
      (fun t ht => ⟨t, ht, rfl⟩) (fun t ht => ⟨t, ht, rfl⟩)
  unfold postImage
  split
  · rename_i t ts hts
    have ht : t ∈ p.screens := by
      have hmem : t ∈ numbered screen p.screens := hts ▸ List.mem_cons_self
      exact (mem_numbered.mp hmem).1
    split
    · refine (hshown _ _).append ⟨fun post hrun hgone => ?_, fun hb => absurd hb Bool.noConfusion⟩
        fun q' hq' => ?_
      · obtain ⟨rfl, _⟩ := hrun
        exact hgone t (List.mem_append_left _ ht) rfl
      · obtain ⟨hnot, hstack⟩ := h.masked touched q' hq'
        refine ⟨?_, ?_⟩
        · rintro (⟨_, hm | ⟨t', ht', hr⟩⟩ | ⟨post, hrun, hr⟩)
          · exact hnot hm
          · exact hstack t' ht' hr
          · obtain ⟨rfl, _⟩ := hrun
            exact hstack t ht hr
        · rintro (⟨hm, _⟩ | ⟨post, _, hr⟩)
          · exact hnot hm
          · exact hr
    · rw [List.map_nil, List.append_nil]
      exact hshown _ _
  · rw [List.map_nil, List.append_nil]
    exact h

theorem safe_act {p : Phone Picture} {l : List (Entry Picture)} (sound : Sound p l)
    (h : Safe p l) (v : Action Picture)
    (undisturbed : v = .indicator false → ∀ q ∈ l, ¬ OnItsWay q) :
    Safe (act p v).client (l ++ (act p v).requests.map fun r => ⟨r, none⟩) := by
  have htouch : ∀ e : Outcome Picture, (p.blocked = false →
      Safe e.client (l ++ e.requests.map fun r => ⟨r, none⟩)) →
      Safe (touch p e).client (l ++ (touch p e).requests.map fun r => ⟨r, none⟩) := by
    intro e he
    unfold touch
    split
    · rw [List.map_nil, List.append_nil]
      exact h
    · exact he (Bool.eq_false_iff.mpr ‹_›)
  have hquiet : ∀ {l' : List (Entry Picture)} {p' : Phone Picture}, Safe p' l' →
      Safe p' (l' ++ List.map (fun r => ⟨r, none⟩) []) := fun h => by
    rwa [List.map_nil, List.append_nil]
  cases v with
  | auth user =>
    exact hquiet (h.same id (fun t ht => ⟨t, ht, rfl⟩) (fun t ht => ⟨t, ht, rfl⟩)
      (fun t ht => ⟨t, ht, rfl⟩))
  | indicator up =>
    cases up with
    | false => exact hquiet (safe_of_none (undisturbed rfl))
    | true =>
      refine hquiet (h.same (fun hb => ?_) (fun t ht => ⟨t, ht, rfl⟩) (fun t ht => ⟨t, ht, rfl⟩)
        (fun t ht => ⟨t, ht, rfl⟩))
      have hmasks : p.masks = false := hb
      unfold Phone.blocked
      rw [hmasks, Bool.and_false]
  | opened chatRoom => exact htouch _ fun _ => hquiet (safe_opened sound h chatRoom)
  | covered screen => exact htouch _ fun _ => hquiet h
  | refresh screen =>
    refine htouch _ fun _ => hquiet (h.same id (fun t ht => ?_) (fun t' ht' => ?_) fun t' ht' => ?_)
    · rcases List.mem_append.mp ht with ht | ht
      · refine ⟨_, List.mem_append_left _ (List.mem_map_of_mem ht), ?_⟩
        split <;> rfl
      · exact ⟨t, List.mem_append_right _ ht, rfl⟩
    · rcases (grows_refresh p screen).talks t' ht' with ⟨t, ht, hscreen, _⟩ | ⟨hnew, hlt, _, _⟩
      · exact ⟨t, ht, hscreen.symm⟩
      · exact absurd hnew (Nat.not_le.mpr hlt)
    · obtain ⟨t, ht, rfl⟩ := List.mem_map.mp ht'
      refine ⟨t, ht, ?_⟩
      split <;> rfl
  | back screen holds => exact htouch _ fun hb => hquiet (safe_back sound h hb screen holds)
  | postImage screen image rands => exact htouch _ fun hb => safe_postImage h hb screen image rands

private theorem safe_added {p : Phone Picture} {post : Post Picture} {rest : List (Entry Picture)}
    (sound : Sound p (⟨.addDocument post, none⟩ :: rest))
    (h : Safe p (⟨.addDocument post, none⟩ :: rest)) :
    Safe p (⟨.addDocument post, some true⟩ :: rest) := by
  obtain ⟨fine, hfirst, hrest⟩ := safe_cons.mp h
  have hfail : p.Exists post.screen → MayFail p ⟨.addDocument post, none⟩ := fun hs =>
    ⟨(Option.some_ne_none true).symm, hs⟩
  have hrun : Running post ⟨.addDocument post, none⟩ := ⟨rfl, (Option.some_ne_none false).symm⟩
  have hdone : ¬ MayFail p ⟨.addDocument post, some true⟩ := fun hm => hm.1 rfl
  refine safe_cons.mpr ⟨⟨fun post' hpost => ?_, fun hb => ⟨hdone, fun t ht hr => ?_⟩⟩,
    fun x hx => ⟨?_, ?_⟩, hrest⟩
  · obtain ⟨rfl, _⟩ := hpost
    exact fine.served _ hrun
  · exact (fine.masked hb).1 (hfail ⟨t, List.mem_append_left _ ht, hr.symm⟩)
  · rintro (⟨hm, _⟩ | ⟨post', ⟨rfl, _⟩, hr⟩)
    · exact hdone hm
    · exact (hfirst x hx).1 (.inr ⟨_, hrun, hr⟩)
  · rintro (⟨hm, hm' | ⟨t, ht, hr⟩⟩ | ⟨post', hrun', hr⟩)
    · exact hdone hm'
    · have hexists := hfail ⟨t, List.mem_append_left _ ht, hr.symm⟩
      exact (hfirst x hx).2 (.inl ⟨hm, .inl hexists⟩)
    · obtain ⟨t, ht, _, hscreen⟩ := exists_of_served sound (List.mem_cons_of_mem _ hx) hrun'
        (hrest.served x hx post' hrun')
      have heq : post.screen = post'.screen := hr
      have hexists := hfail ⟨t, ht, hscreen.trans heq.symm⟩
      rcases mayFail_or_renews hrun' ⟨t, ht, hscreen⟩ with hm | hr'
      · exact (hfirst x hx).2 (.inl ⟨hm, .inl hexists⟩)
      · exact (hfirst x hx).1 (.inr ⟨post, hrun, heq ▸ hr'⟩)

theorem safe_serve {p : Phone Picture} {r : Request Picture} {rest : List (Entry Picture)}
    (sound : Sound p (⟨r, none⟩ :: rest)) (h : Safe p (⟨r, none⟩ :: rest)) (ok : Bool) :
    Safe p (⟨r, some ok⟩ :: rest) := by
  have hpost : ∀ post post' : Post Picture, post' = post ∧ some ok ≠ some false →
      post' = post ∧ (none : Option Bool) ≠ some false := fun _ _ h =>
    ⟨h.1, (Option.some_ne_none false).symm⟩
  cases r with
  | putData post => exact h.tamer ⟨fun _ => hpost _ _, id, fun _ hr => hr⟩
  | downloadURL post => exact h.tamer ⟨fun _ => hpost _ _, id, fun _ hr => hr⟩
  | addDocument post =>
    cases ok with
    | true => exact safe_added sound h
    | false =>
      exact h.tamer ⟨fun _ => hpost _ _, fun hm => ⟨(Option.some_ne_none true).symm, hm.2⟩,
        fun _ hr => hr⟩
  | aftterImagePost screen => exact h.tamer ⟨fun _ hrun => hrun, id, fun _ hr => hr⟩
  | reloadData screen => exact h.tamer ⟨fun _ hrun => hrun, id, fun _ hr => hr⟩

private theorem safe_failed {p : Phone Picture} {q : Entry Picture} {post : Post Picture}
    {rest : List (Entry Picture)} (h : Safe p (q :: rest))
    (fails : p.Exists post.screen → MayFail p q) :
    Safe (imageCallback p post false).client
      (rest ++ (imageCallback p post false).requests.map fun r => ⟨r, none⟩) := by
  obtain ⟨_, hfirst, hrest⟩ := safe_cons.mp h
  unfold imageCallback
  dsimp only
  split
  · have hm := fails ‹_›
    rw [if_neg Bool.false_ne_true, List.map_nil, List.append_nil]
    refine ⟨hrest.served, fun _ x hx => ?_, hrest.apart⟩
    have hclash := (hfirst x hx).1
    exact ⟨fun hx' => hclash (.inl ⟨hm, .inl hx'⟩), fun t ht hr => hclash (.inl ⟨hm, .inr ⟨t, ht, hr⟩⟩)⟩
  · rw [List.map_nil, List.append_nil]
    exact ⟨hrest.served, hrest.masked, hrest.apart⟩

private theorem safe_renewed {p : Phone Picture} {screen : Nat} {a : Option Bool}
    {rest : List (Entry Picture)} (sound : Sound p rest)
    (h : Safe p (⟨.aftterImagePost screen, a⟩ :: rest)) :
    Safe (aftterImagePost p screen).client rest := by
  obtain ⟨_, hfirst, hrest⟩ := safe_cons.mp h
  by_cases hs : p.Exists screen
  · have htalks := talks_aftterImagePost hs
    refine hrest.phone (fun q hq post hrun hserved hgone => ?_) ?_ ?_ ?_
    · obtain ⟨t, ht, hservice, hscreen⟩ := exists_of_served sound hq hrun hserved
      have hother : t.screen ≠ screen := fun heq =>
        (hfirst q hq).2 (.inr ⟨post, hrun, heq.symm.trans hscreen⟩)
      refine hgone (renewed p screen t) (htalks ▸ List.mem_map_of_mem ht) ?_
      rw [renewed_service, if_neg hother]
      exact hservice
    · unfold aftterImagePost
      rw [if_pos hs]
      exact id
    · rintro q _ s _ ⟨t', ht', heq⟩
      rw [htalks] at ht'
      obtain ⟨t, ht, rfl⟩ := List.mem_map.mp ht'
      exact ⟨t, ht, (renewed_screen p screen t).symm.trans heq⟩
    · rintro q _ s _ ⟨t', ht', heq⟩
      unfold aftterImagePost at ht'
      rw [if_pos hs] at ht'
      obtain ⟨t, ht, rfl⟩ := List.mem_map.mp ht'
      exact ⟨t, ht, (renewed_screen p screen t).symm.trans heq⟩
  · unfold aftterImagePost
    rw [if_neg hs]
    exact hrest

theorem safe_handle {p : Phone Picture} {r : Request Picture} {a : Bool}
    {rest : List (Entry Picture)} (sound : Sound p rest) (h : Safe p (⟨r, some a⟩ :: rest))
    {e : Outcome Picture} (he : handle p r a = some e)
    (undisturbed : ∀ screen, r = .reloadData screen → p.Exists screen →
      ∀ q ∈ rest, ¬ OnItsWay q) :
    Safe e.client (rest ++ e.requests.map fun r => ⟨r, none⟩) := by
  have hnext : ∀ r', Tamer p ⟨r, some a⟩ ⟨r', none⟩ → Safe p (rest ++ [⟨r', none⟩]) :=
    fun r' tamer => (h.tamer tamer).perm (List.perm_append_singleton _ rest).symm
  cases r with
  | putData post =>
    cases a with
    | false =>
      obtain rfl := Option.some.inj he
      exact safe_failed h id
    | true =>
      obtain rfl := Option.some.inj he
      exact hnext _ ⟨fun _ hrun => ⟨hrun.1, by simp⟩, id, fun _ hr => hr⟩
  | downloadURL post =>
    cases a with
    | false =>
      obtain rfl := Option.some.inj he
      exact safe_failed h id
    | true =>
      obtain ⟨_, hsent⟩ := Option.ite_none_left_eq_some.mp he
      obtain rfl := Option.some.inj hsent
      exact hnext _ ⟨fun _ hrun => ⟨hrun.1, by simp⟩, fun hm => hm.2, fun _ hr => hr.elim⟩
  | addDocument post =>
    cases a with
    | false =>
      obtain rfl := Option.some.inj he
      exact safe_failed h fun hs => ⟨by simp, hs⟩
    | true =>
      obtain ⟨_, hsent⟩ := Option.ite_none_left_eq_some.mp he
      obtain rfl := Option.some.inj hsent
      unfold imageCallback
      dsimp only
      split
      · have hturn := hnext (.aftterImagePost post.screen)
          ⟨fun _ hrun => hrun.elim, fun hm => hm.elim, fun _ hr => hr⟩
        exact ⟨hturn.served, hturn.masked, hturn.apart⟩
      · obtain ⟨_, _, hrest⟩ := safe_cons.mp h
        rw [List.map_nil, List.append_nil]
        exact ⟨hrest.served, hrest.masked, hrest.apart⟩
  | aftterImagePost screen =>
    obtain rfl := Option.some.inj he
    have hnone : (aftterImagePost p screen).requests = [] := by
      unfold aftterImagePost
      split <;> rfl
    rw [hnone, List.map_nil, List.append_nil]
    exact safe_renewed sound h
  | reloadData screen =>
    obtain rfl := Option.some.inj he
    rw [List.map_nil, List.append_nil]
    by_cases hs : p.Exists screen
    · exact safe_of_none (undisturbed screen rfl hs)
    · dsimp only
      rw [if_neg hs]
      exact (safe_cons.mp h).2.2

theorem answer_eq (url : String → String) (s : Backend Picture) (r : Request Picture) (ok : Bool) :
    (serve url s r ok).2 = ok := by
  cases r <;> cases ok <;> rfl

theorem safe_step {url : String → String} {w w' : Network Picture}
    {e : Event (Action Picture) (Change Picture)} (sound : Sound w.client w.inflight)
    (h : Safe w.client w.inflight) (undisturbed : Undisturbed w e)
    (hstep : (program url).step w e = some w') : Safe w'.client w'.inflight := by
  cases Program.step_fires hstep with
  | @act v _ he =>
    obtain rfl := Option.some.inj he
    refine safe_act sound h v ?_
    rintro rfl
    exact undisturbed trivial
  | @serve i ok r hi =>
    have hperm := perm_landed hi
    have hsame : ((program url).serve w.server r ok).2 = ok := answer_eq url w.server r ok
    refine Safe.perm ?_ (perm_served ⟨r, some _⟩ hi).symm
    rw [hsame]
    exact safe_serve (sound.requests fun q hq => ⟨q, hperm.mem_iff.mpr hq, rfl⟩) (h.perm hperm) ok
  | @handle i r a e hi he =>
    have hperm := perm_landed hi
    have hrest : Sound w.client (w.inflight.eraseIdx i) := sound.requests fun q hq =>
      ⟨q, List.mem_of_mem_eraseIdx hq, rfl⟩
    refine safe_handle hrest (h.perm hperm) he ?_
    rintro screen rfl hs q hq
    exact undisturbed ⟨screen, a, hi, hs⟩ q (List.mem_of_mem_eraseIdx hq)
  | @deliver j ok x e hj he =>
    obtain rfl := Option.some.inj he
    show Safe (notify w.client x.listener _).client
      (w.inflight ++ (notify w.client x.listener _).requests.map fun r => ⟨r, none⟩)
    cases hx : (if ok then some ((program url).snapshot w.server x.listener) else none) with
    | none =>
      show Safe w.client (w.inflight ++ [])
      rw [List.append_nil]
      exact h
    | some u =>
      refine Safe.perm ?_ (List.perm_append_singleton _ w.inflight).symm
      exact h.idle (fun _ h => h) id fun _ h => h
  | env => exact h

theorem gone_of_handle_none {p : Phone Picture} {r : Request Picture} {a : Bool}
    (h : handle p r a = none) : ∃ post, Running post ⟨r, some a⟩ ∧ p.Gone post := by
  have hok : some true ≠ some false := by simp
  cases r with
  | putData post => cases a <;> cases h
  | downloadURL post =>
    cases a with
    | false => cases h
    | true =>
      by_cases hgone : p.Gone post
      · exact ⟨post, ⟨rfl, hok⟩, hgone⟩
      · cases (if_neg hgone).symm.trans h
  | addDocument post =>
    cases a with
    | false => cases h
    | true =>
      by_cases hgone : p.Gone post
      · exact ⟨post, ⟨rfl, hok⟩, hgone⟩
      · cases (if_neg hgone).symm.trans h
  | aftterImagePost screen => cases h
  | reloadData screen => cases h

theorem not_traps_of_safe {url : String → String} {w : Network Picture}
    (h : Safe w.client w.inflight) (e : Event (Action Picture) (Change Picture)) :
    ¬ (program url).Traps w e := by
  intro htraps
  cases e with
  | act v => cases Program.traps_act.mp htraps
  | serve i ok => exact Program.not_traps_serve htraps
  | env c => exact Program.not_traps_env htraps
  | deliver j ok =>
    obtain ⟨⟨x, hx⟩, hnone⟩ := htraps
    simp only [Program.step, hx, program, Option.map_some] at hnone
    cases hnone
  | handle i =>
    obtain ⟨r, a, hi, hnone⟩ := Program.traps_handle.mp htraps
    obtain ⟨post, hrun, hgone⟩ := gone_of_handle_none hnone
    exact h.served _ (List.mem_of_getElem? hi) post hrun hgone

section Ahead

variable {url : String → String} {w : Network Picture}

/-- States that an undisturbed run leads to. -/
def Leads (url : String → String) : Network Picture → Network Picture → Prop :=
  Reaches (program url).step Undisturbed

/-- Without any more disturbance the phone can come to a completion that traps. -/
def TrapAhead (url : String → String) (w : Network Picture) : Prop :=
  ∃ w' e, Leads url w w' ∧ Undisturbed w' e ∧ (program url).Traps w' e

theorem TrapAhead.of_leads {w' : Network Picture} (h : Leads url w w')
    (ahead : TrapAhead url w') : TrapAhead url w := by
  obtain ⟨w'', e, hleads, htraps⟩ := ahead
  exact ⟨w'', e, h.trans hleads, htraps⟩

theorem sound_leads {w' : Network Picture} (h : Leads url w w')
    (sound : Sound w.client w.inflight) : Sound w'.client w'.inflight :=
  Reaches.keeps (P := fun w => Sound w.client w.inflight)
    (fun _ _ _ hs _ hstep => sound_step hs hstep) h sound

theorem leads_served (url : String → String) {i : Nat} {r : Request Picture}
    (hi : w.inflight[i]? = some ⟨r, none⟩) (ok : Bool) :
    ∃ w', Leads url w w' ∧ w'.client = w.client ∧
      w'.inflight = w.inflight.set i ⟨r, some ok⟩ := by
  refine ⟨w.served (program url) i r ok,
    .single ⟨.serve i ok, fun h => h.elim, Program.fires_step (.serve hi)⟩, rfl, ?_⟩
  have hsame : ((program url).serve w.server r ok).2 = ok := answer_eq url w.server r ok
  rw [World.served_inflight, hsame]

theorem leads_handled (url : String → String) {i : Nat} {r : Request Picture} {a : Bool}
    (hi : w.inflight[i]? = some ⟨r, some a⟩) (hr : screenOf r ≠ none)
    {e : Outcome Picture} (he : handle w.client r a = some e) :
    ∃ w', Leads url w w' ∧ w'.client = e.client ∧
      w'.inflight = w.inflight.eraseIdx i ++ e.requests.map fun r => ⟨r, none⟩ := by
  refine ⟨(w.landed i).perform e, .single ⟨.handle i, ?_, Program.fires_step (.handle hi he)⟩,
    rfl, rfl⟩
  rintro ⟨screen, a', hi', _⟩
  rw [hi] at hi'
  exact absurd (congrArg (fun q => screenOf q.request) (Option.some.inj hi')) hr

theorem leads_acted (url : String → String) (w : Network Picture) {v : Action Picture}
    (hv : v ≠ .indicator false) :
    ∃ w', Leads url w w' ∧ w'.client = (act w.client v).client ∧
      w'.inflight = w.inflight ++ (act w.client v).requests.map fun r => ⟨r, none⟩ := by
  refine ⟨w.perform (act w.client v), .single ⟨.act v, ?_, Program.fires_step (.act rfl)⟩,
    rfl, rfl⟩
  intro htakes
  cases v with
  | indicator up =>
    cases up with
    | false => exact absurd rfl hv
    | true => exact htakes.elim
  | _ => exact htakes.elim

theorem getElem?_set_of_some {l : List (Entry Picture)} {i : Nat} {q : Entry Picture}
    (h : l[i]? = some q) (q' : Entry Picture) : (l.set i q')[i]? = some q' :=
  List.getElem?_set_self (List.getElem?_eq_some_iff.mp h).1

theorem getElem?_landed (l : List (Entry Picture)) (q : Entry Picture) :
    (l ++ [q])[l.length]? = some q :=
  List.getElem?_concat_length

theorem trap_of_gone {i : Nat} {q : Entry Picture} (hi : w.inflight[i]? = some q)
    {post : Post Picture} (running : Running post q) (gone : w.client.Gone post) :
    TrapAhead url w := by
  have hstuck : ∀ {w : Network Picture} {i : Nat} {r : Request Picture},
      w.inflight[i]? = some ⟨r, some true⟩ → screenOf r ≠ none →
      handle w.client r true = none → TrapAhead url w := by
    intro w i r hi hr hnone
    refine ⟨w, .handle i, .refl, ?_, Program.traps_handle.mpr ⟨r, true, hi, hnone⟩⟩
    rintro ⟨screen, a, hi', _⟩
    rw [hi] at hi'
    exact absurd (congrArg (fun q => screenOf q.request) (Option.some.inj hi')) hr
  have hserve : ∀ {w : Network Picture} {i : Nat} {r : Request Picture},
      w.inflight[i]? = some ⟨r, none⟩ → (∀ w', w'.client = w.client →
        w'.inflight[i]? = some ⟨r, some true⟩ → TrapAhead url w') → TrapAhead url w := by
    intro w i r hi hnext
    obtain ⟨w', hleads, hclient, hflight⟩ := leads_served url hi true
    exact (hnext w' hclient (hflight ▸ getElem?_set_of_some hi _)).of_leads hleads
  have hurl : ∀ {w : Network Picture} {i : Nat}, w.client.Gone post →
      w.inflight[i]? = some ⟨.downloadURL post, none⟩ → TrapAhead url w := by
    intro w i hgone hi
    refine hserve hi fun w' hclient hi' => hstuck hi' (Option.some_ne_none _) ?_
    exact if_pos (hclient ▸ hgone)
  have hput : ∀ {w : Network Picture} {i : Nat}, w.client.Gone post →
      w.inflight[i]? = some ⟨.putData post, some true⟩ → TrapAhead url w := by
    intro w i hgone hi
    obtain ⟨w', hleads, hclient, hflight⟩ := leads_handled url hi
      (Option.some_ne_none _) rfl
    refine (hurl (hclient ▸ hgone) (i := (w.inflight.eraseIdx i).length) ?_).of_leads hleads
    rw [hflight]
    exact getElem?_landed _ _
  obtain ⟨r, a⟩ := q
  cases r with
  | putData post' =>
    obtain ⟨rfl, ha⟩ := running
    rcases a with _ | _ | _
    · exact hserve hi fun w' hclient hi' => hput (hclient ▸ gone) hi'
    · exact absurd rfl ha
    · exact hput gone hi
  | downloadURL post' =>
    obtain ⟨rfl, ha⟩ := running
    rcases a with _ | _ | _
    · exact hurl gone hi
    · exact absurd rfl ha
    · exact hstuck hi (Option.some_ne_none _) (if_pos gone)
  | addDocument post' =>
    obtain ⟨rfl, ha⟩ := running
    rcases a with _ | _ | _
    · refine hserve hi fun w' hclient hi' => hstuck hi' (Option.some_ne_none _) ?_
      exact if_pos (hclient ▸ gone)
    · exact absurd rfl ha
    · exact hstuck hi (Option.some_ne_none _) (if_pos gone)
  | aftterImagePost screen => exact running.elim
  | reloadData screen => exact running.elim

/-- The post has failed: the indicator is down, and nothing else has changed. -/
structure Failed (w : Network Picture) (i : Nat) (w' : Network Picture) : Prop where
  client : ∃ reports, w'.client = { w.client with hud := false, reports := reports }
  rest : ∀ q ∈ w.inflight.eraseIdx i, q ∈ w'.inflight

theorem leads_failed (url : String → String) {i : Nat} {q : Entry Picture}
    (hi : w.inflight[i]? = some q)
    (mayFail : MayFail w.client q) :
    TrapAhead url w ∨ ∃ w', Leads url w w' ∧ Failed w i w' := by
  have hend : ∀ {w : Network Picture} {i : Nat} {r : Request Picture} {post : Post Picture},
      w.inflight[i]? = some ⟨r, some false⟩ → screenOf r ≠ none →
      handle w.client r false = some (imageCallback w.client post false) →
      w.client.Exists post.screen → ∃ w', Leads url w w' ∧ Failed w i w' := by
    intro w i r post hi hr he hs
    obtain ⟨w', hleads, hclient, hflight⟩ := leads_handled url hi hr he
    refine ⟨w', hleads, ⟨(report w.client post false).reports, ?_⟩, fun x hx => ?_⟩
    · have hexists : (report w.client post false).Exists post.screen := hs
      rw [hclient]
      unfold imageCallback
      dsimp only
      rw [if_pos hexists, if_neg Bool.false_ne_true]
      rfl
    · rw [hflight]
      exact List.mem_append_left _ hx
  have hserve : ∀ {w : Network Picture} {i : Nat} {r : Request Picture} {post : Post Picture},
      w.inflight[i]? = some ⟨r, none⟩ → screenOf r ≠ none →
      (∀ c, handle c r false = some (imageCallback c post false)) →
      w.client.Exists post.screen → ∃ w', Leads url w w' ∧ Failed w i w' := by
    intro w i r post hi hr he hs
    obtain ⟨w₁, hleads, hclient, hflight⟩ := leads_served url hi false
    obtain ⟨w₂, hleads', hfailed⟩ := hend (hflight ▸ getElem?_set_of_some hi _) hr (he _)
      (hclient ▸ hs)
    refine ⟨w₂, hleads.trans hleads', hclient ▸ hfailed.client, fun x hx => hfailed.rest x ?_⟩
    rw [hflight, List.eraseIdx_set_eq]
    exact hx
  -- the next request of the same post stands at the end and fails there
  have hnext : ∀ {w : Network Picture} {i : Nat} {r : Request Picture} {post : Post Picture}
      (r' : Request Picture), w.inflight[i]? = some ⟨r, some true⟩ → screenOf r ≠ none →
      handle w.client r true = some { client := w.client, requests := [r'] } →
      (∀ {w : Network Picture} {i : Nat}, w.inflight[i]? = some ⟨r', none⟩ →
        w.client.Exists post.screen → ∃ w', Leads url w w' ∧ Failed w i w') →
      w.client.Exists post.screen → ∃ w', Leads url w w' ∧ Failed w i w' := by
    intro w i r post r' hi hr he hthen hs
    obtain ⟨w₁, hleads, hsame, hflight⟩ := leads_handled url hi hr he
    have hclient : w₁.client = w.client := hsame
    have hlast : w₁.inflight[(w.inflight.eraseIdx i).length]? = some ⟨r', none⟩ :=
      hflight ▸ getElem?_landed _ _
    obtain ⟨w₂, hleads', hfailed⟩ := hthen hlast (hclient ▸ hs)
    refine ⟨w₂, hleads.trans hleads', hclient ▸ hfailed.client, fun x hx => hfailed.rest x ?_⟩
    rw [hflight, List.eraseIdx_append_of_length_le (Nat.le_refl _)]
    exact List.mem_append_left _ hx
  have hsome : ∀ s : Nat, some s ≠ none := Option.some_ne_none
  obtain ⟨r, a⟩ := q
  cases r with
  | putData post =>
    rcases a with _ | _ | _
    · exact .inr (hserve hi (hsome _) (fun _ => rfl) mayFail)
    · exact .inr (hend hi (hsome _) rfl mayFail)
    · refine .inr (hnext (.downloadURL post) hi (hsome _) rfl (fun hi' hs => ?_) mayFail)
      exact hserve hi' (hsome _) (fun _ => rfl) hs
  | downloadURL post =>
    rcases a with _ | _ | _
    · exact .inr (hserve hi (hsome _) (fun _ => rfl) mayFail)
    · exact .inr (hend hi (hsome _) rfl mayFail)
    · by_cases hgone : w.client.Gone post
      · exact .inl (trap_of_gone hi ⟨rfl, by simp⟩ hgone)
      · refine .inr (hnext (.addDocument post) hi (hsome _) (if_neg hgone) (fun hi' hs => ?_)
          mayFail)
        exact hserve hi' (hsome _) (fun _ => rfl) hs
  | addDocument post =>
    obtain ⟨ha, hs⟩ := mayFail
    rcases a with _ | _ | _
    · exact .inr (hserve hi (hsome _) (fun _ => rfl) hs)
    · exact .inr (hend hi (hsome _) rfl hs)
    · exact absurd rfl ha
  | aftterImagePost screen => exact mayFail.elim
  | reloadData screen => exact mayFail.elim

/-- The screen has a new service, and who counted on an old one of it is without. -/
structure Renewed (w : Network Picture) (i screen : Nat) (w' : Network Picture) : Prop where
  rest : ∀ q ∈ w.inflight.eraseIdx i, q ∈ w'.inflight
  gone : ∀ post : Post Picture, post.service < w.client.next → (∀ t ∈ w.client.talks,
    t.chatMessageService = post.service → t.screen = screen) → w'.client.Gone post

theorem leads_renewed (url : String → String) {i : Nat} {q : Entry Picture}
    (hi : w.inflight[i]? = some q) {screen : Nat} (renews : Renews screen q) (hs : w.client.Exists screen) :
    TrapAhead url w ∨ ∃ w', Leads url w w' ∧ Renewed w i screen w' := by
  have hturn : ∀ {w : Network Picture} {i : Nat} {a : Bool}, w.client.Exists screen →
      w.inflight[i]? = some ⟨.aftterImagePost screen, some a⟩ →
      ∃ w', Leads url w w' ∧ Renewed w i screen w' := by
    intro w i a hs hi
    obtain ⟨w', hleads, hclient, hflight⟩ := leads_handled url hi
      (Option.some_ne_none _) rfl
    refine ⟨w', hleads, fun x hx => hflight ▸ List.mem_append_left _ hx,
      fun post hold hknown t' ht' heq => ?_⟩
    rw [hclient, talks_aftterImagePost hs] at ht'
    obtain ⟨t, ht, rfl⟩ := List.mem_map.mp ht'
    rw [renewed_service] at heq
    split at heq
    · omega
    · exact absurd (hknown t ht heq) ‹_›
  have hblock : ∀ {w : Network Picture} {i : Nat}, w.client.Exists screen →
      w.inflight[i]? = some ⟨.aftterImagePost screen, none⟩ →
      ∃ w', Leads url w w' ∧ Renewed w i screen w' := by
    intro w i hs hi
    obtain ⟨w₁, hleads, hclient, hflight⟩ := leads_served url hi true
    obtain ⟨w₂, hleads', hrenewed⟩ := hturn (hclient ▸ hs) (hflight ▸ getElem?_set_of_some hi _)
    refine ⟨w₂, hleads.trans hleads', fun x hx => hrenewed.rest x ?_, hclient ▸ hrenewed.gone⟩
    rw [hflight, List.eraseIdx_set_eq]
    exact hx
  obtain ⟨r, a⟩ := q
  cases r with
  | putData post => exact renews.elim
  | downloadURL post => exact renews.elim
  | addDocument post =>
    rcases a with _ | _ | _
    · exact renews.elim
    · exact renews.elim
    · obtain rfl : post.screen = screen := renews
      by_cases hgone : w.client.Gone post
      · exact .inl (trap_of_gone hi ⟨rfl, by simp⟩ hgone)
      · obtain ⟨w₁, hleads, hclient, hflight⟩ := leads_handled url hi
          (Option.some_ne_none _) (if_neg hgone)
        have hexists : (report w.client post true).Exists post.screen := hs
        unfold imageCallback at hclient hflight
        dsimp only at hclient hflight
        rw [if_pos hexists, if_pos rfl] at hclient hflight
        have hlast : w₁.inflight[(w.inflight.eraseIdx i).length]? =
            some ⟨.aftterImagePost post.screen, none⟩ := hflight ▸ getElem?_landed _ _
        obtain ⟨w₂, hleads', hrenewed⟩ := hblock (hclient ▸ hexists) hlast
        refine .inr ⟨w₂, hleads.trans hleads', fun x hx => hrenewed.rest x ?_, ?_⟩
        · rw [hflight, List.eraseIdx_append_of_length_le (Nat.le_refl _)]
          exact List.mem_append_left _ hx
        · have hwithout := hrenewed.gone
          rw [hclient] at hwithout
          exact hwithout
  | aftterImagePost screen' =>
    obtain rfl : screen' = screen := renews
    rcases a with _ | a
    · exact .inr (hblock hs hi)
    · exact .inr (hturn hs hi)
  | reloadData screen' => exact renews.elim

theorem postImage_posts {p : Phone Picture} {uid : Uid} (user : p.currentUser = some uid)
    {t : TalkScreen} (ht : t ∈ p.screens) (jpeg : Picture) (rands : List (Fin 62)) :
    ∃ t' ∈ p.screens, ∃ post : Post Picture, t'.screen = t.screen ∧ post.screen = t.screen ∧
      post.service = t'.chatMessageService ∧ postImage p t.screen (some jpeg) rands =
        { client := { p.showLoading with next := p.next + 1, posts := post :: p.posts }
          requests := [.putData post] } := by
  have hmem : t ∈ numbered t.screen p.screens := mem_numbered.mpr ⟨ht, rfl⟩
  unfold postImage
  rw [user]
  cases hts : numbered t.screen p.screens with
  | nil => exact absurd (hts ▸ hmem) List.not_mem_nil
  | cons t' ts =>
    obtain ⟨ht', hscreen⟩ := mem_numbered.mp (hts ▸ List.mem_cons_self : t' ∈ numbered t.screen _)
    exact ⟨t', ht', _, hscreen, hscreen, rfl, rfl⟩

/-- A photo starts from a screen of a phone that can be touched. -/
structure Started (w : Network Picture) (t : TalkScreen) (post : Post Picture)
    (w' : Network Picture) : Prop where
  screen : post.screen = t.screen
  service : ∃ t' ∈ w.client.screens, t'.screen = t.screen ∧ post.service = t'.chatMessageService
  flight : w'.inflight = w.inflight ++ [⟨.putData post, none⟩]
  screens : w'.client.screens = w.client.screens
  held : w'.client.held = w.client.held

theorem leads_started [Inhabited Picture] (url : String → String)
    (touched : w.client.blocked = false) {t : TalkScreen}
    (ht : t ∈ w.client.screens) : ∃ w' post, Leads url w w' ∧ Started w t post w' := by
  obtain ⟨w₁, hleads, hclient, hflight⟩ := leads_acted url w
    (v := .auth (some "")) (by simp)
  obtain ⟨w₂, hleads', hclient', hflight'⟩ := leads_acted url w₁
    (v := .postImage t.screen (some default) []) (by simp)
  have huser : w₁.client.currentUser = some "" := hclient ▸ rfl
  have hmem : t ∈ w₁.client.screens := hclient ▸ ht
  have hopen : w₁.client.blocked = false := hclient ▸ touched
  obtain ⟨t', ht', post, hscreen, hposted, hservice, hact⟩ :=
    postImage_posts huser hmem default []
  have htouch : act w₁.client (.postImage t.screen (some default) []) =
      postImage w₁.client t.screen (some default) [] := by
    show touch _ _ = _
    unfold touch
    rw [hopen]
    rfl
  rw [htouch, hact] at hclient' hflight'
  have hscreens : w₁.client.screens = w.client.screens := by
    rw [hclient]
    rfl
  have hheld : w₁.client.held = w.client.held := by
    rw [hclient]
    rfl
  refine ⟨w₂, post, hleads.trans hleads', hposted, ⟨t', hscreens ▸ ht', hscreen, hservice⟩,
    ?_, ?_, ?_⟩
  · rw [hflight', hflight]
    exact congrArg (· ++ _) (List.append_nil _)
  · rw [hclient']
    exact hscreens
  · rw [hclient']
    exact hheld

/-- An error that is still to come uncovers a photo that has just been posted on a new screen. -/
theorem trap_of_failing [Inhabited Picture] (sound : Sound w.client w.inflight)
    (touched : w.client.blocked = false) {i : Nat} {q : Entry Picture}
    (hi : w.inflight[i]? = some q) (mayFail : MayFail w.client q) : TrapAhead url w := by
  have hlt : i < w.inflight.length := (List.getElem?_eq_some_iff.mp hi).1
  let chatRoom : ChatRoom := ⟨0, "", ∅, none, 1, 0, 0, none⟩
  let fresh : TalkScreen := ⟨w.client.next, chatRoom, w.client.next + 1, none⟩
  obtain ⟨w₁, hleads₁, hclient₁, hflight₁⟩ := leads_acted url w
    (v := .opened chatRoom) (by simp)
  have htouch : act w.client (.opened chatRoom) = opened w.client chatRoom := by
    show touch _ _ = _
    unfold touch
    rw [touched]
    rfl
  rw [htouch] at hclient₁ hflight₁
  have hfresh : fresh ∈ w₁.client.screens := hclient₁ ▸ List.mem_cons_self
  have hopen : w₁.client.blocked = false := hclient₁ ▸ touched
  have hheld₁ : w₁.client.held = w.client.held := by
    rw [hclient₁]
    rfl
  obtain ⟨w₂, post, hleads₂, hstarted⟩ := leads_started url hopen hfresh
  have hflight₂ : w₂.inflight = w.inflight ++ [⟨.putData post, none⟩] := by
    rw [hstarted.flight, hflight₁]
    exact congrArg (· ++ _) (List.append_nil _)
  have hi₂ : w₂.inflight[i]? = some q := by
    rw [hflight₂, List.getElem?_append_left hlt]
    exact hi
  have hmay₂ : MayFail w₂.client q := by
    refine mayFail_of_exists mayFail fun screen _ ⟨t, ht, heq⟩ => ⟨t, ?_, heq⟩
    unfold Phone.talks
    rw [hstarted.screens, hstarted.held, hheld₁, hclient₁]
    exact List.mem_cons_of_mem _ ht
  rcases leads_failed url hi₂ hmay₂ with htrap | ⟨w₃, hleads₃, ⟨reports, hclient₃⟩, hrest⟩
  · exact htrap.of_leads (hleads₁.trans hleads₂)
  · have hleads : Leads url w w₃ := (hleads₁.trans hleads₂).trans hleads₃
    have hnew : ⟨.putData post, none⟩ ∈ w₃.inflight := by
      refine hrest _ ?_
      rw [hflight₂, List.eraseIdx_append_of_lt_length hlt]
      exact List.mem_append_right _ List.mem_cons_self
    have hknown := ((sound_leads hleads sound).posts _ hnew post rfl).2
    have hheld₃ : w₃.client.held = w.client.held := by
      rw [hclient₃]
      exact hstarted.held.trans hheld₁
    -- the new screen is left, and was the only one with the service of the photo
    obtain ⟨w₄, hleads₄, hclient₄, hflight₄⟩ := leads_acted url w₃
      (v := .back w.client.next false) (by simp)
    have hback : act w₃.client (.back w.client.next false) = back w₃.client w.client.next false := by
      show touch _ _ = _
      unfold touch
      rw [hclient₃]
      rfl
    rw [hback] at hclient₄ hflight₄
    have hgone : w₄.client.Gone post := by
      intro t ht heq
      rw [hclient₄] at ht
      rcases List.mem_append.mp ht with ht' | ht'
      · obtain ⟨hmem, hne⟩ := List.mem_filter.mp ht'
        have hscreen := hknown t (List.mem_append_left _ hmem) heq
        rw [hstarted.screen] at hscreen
        exact of_decide_eq_true hne hscreen
      · have hmem : t ∈ w₃.client.held := ht'
        have hscreen := hknown t (List.mem_append_right _ hmem) heq
        have hbound := (sound.bound t (List.mem_append_right _ (hheld₃ ▸ hmem))).1
        rw [hstarted.screen] at hscreen
        exact Nat.lt_irrefl _ (hscreen ▸ hbound)
    have hlast : ⟨.putData post, none⟩ ∈ w₄.inflight := hflight₄ ▸ List.mem_append_left _ hnew
    obtain ⟨k, hk⟩ := List.mem_iff_getElem?.mp hlast
    exact (trap_of_gone hk ⟨rfl, by simp⟩ hgone).of_leads (hleads.trans hleads₄)

/-- With a touch possible, an exchange that is still to come takes the service from a photo that
has just been posted, as an error does. -/
theorem trap_of_touched [Inhabited Picture] (sound : Sound w.client w.inflight)
    (touched : w.client.blocked = false) {q : Entry Picture} (hq : q ∈ w.inflight)
    (h : MayFail w.client q ∨ ∃ t ∈ w.client.screens, Renews t.screen q) : TrapAhead url w := by
  obtain ⟨i, hi⟩ := List.mem_iff_getElem?.mp hq
  have hlt : i < w.inflight.length := (List.getElem?_eq_some_iff.mp hi).1
  rcases h with hm | ⟨t, ht, hrenews⟩
  · exact trap_of_failing sound touched hi hm
  · obtain ⟨w₁, post, hleads, hstarted⟩ := leads_started url touched ht
    have hsound := sound_leads hleads sound
    have hi' : w₁.inflight[i]? = some q := by
      rw [hstarted.flight, List.getElem?_append_left hlt]
      exact hi
    have htalks : w₁.client.talks = w.client.talks := by
      unfold Phone.talks
      rw [hstarted.screens, hstarted.held]
    have hnew : ⟨.putData post, none⟩ ∈ w₁.inflight.eraseIdx i := by
      rw [hstarted.flight, List.eraseIdx_append_of_lt_length hlt]
      exact List.mem_append_right _ List.mem_cons_self
    have hexists : w₁.client.Exists t.screen :=
      ⟨t, htalks ▸ List.mem_append_left _ ht, rfl⟩
    rcases leads_renewed url hi' hrenews hexists with htrap | ⟨w₂, hleads', hrenewed⟩
    · exact htrap.of_leads hleads
    · obtain ⟨k, hk⟩ := List.mem_iff_getElem?.mp (hrenewed.rest _ hnew)
      have hknown := hsound.posts _ (List.mem_of_mem_eraseIdx hnew) post rfl
      have hgone := hrenewed.gone post hknown.1 (hstarted.screen ▸ hknown.2)
      exact (trap_of_gone hk ⟨rfl, by simp⟩ hgone).of_leads (hleads.trans hleads')

theorem exists_clash {p : Phone Picture} {l : List (Entry Picture)}
    (h : ¬ l.Pairwise (Apart p)) : ∃ q q' rest, l.Perm (q :: q' :: rest) ∧ Clash p q q' := by
  induction l with
  | nil => exact absurd List.Pairwise.nil h
  | cons q l ih =>
    by_cases hl : l.Pairwise (Apart p)
    · have hfirst : ¬ ∀ q' ∈ l, Apart p q q' := fun hq => h (List.pairwise_cons.mpr ⟨hq, hl⟩)
      push Not at hfirst
      obtain ⟨q', hq', hnot⟩ := hfirst
      obtain ⟨l₁, l₂, rfl⟩ := List.append_of_mem hq'
      have hperm : (q :: (l₁ ++ q' :: l₂)).Perm (q :: q' :: (l₁ ++ l₂)) :=
        List.perm_middle.cons q
      by_cases hclash : Clash p q q'
      · exact ⟨q, q', _, hperm, hclash⟩
      · refine ⟨q', q, _, hperm.trans (List.Perm.swap _ _ _), ?_⟩
        by_contra hother
        exact hnot ⟨hclash, hother⟩
    · obtain ⟨x, y, rest, hperm, hclash⟩ := ih hl
      refine ⟨x, y, q :: rest, (hperm.cons q).trans ?_, hclash⟩
      exact (List.Perm.swap x q _).trans ((List.Perm.swap y q _).cons x)

theorem landed_of_perm {l rest : List (Entry Picture)} {q q' : Entry Picture}
    (h : l.Perm (q :: q' :: rest)) : ∃ i, l[i]? = some q ∧ q' ∈ l.eraseIdx i := by
  obtain ⟨i, hi⟩ := List.mem_iff_getElem?.mp (h.mem_iff.mpr List.mem_cons_self)
  refine ⟨i, hi, ?_⟩
  have hrest := ((perm_landed hi).symm.trans h).cons_inv
  exact hrest.mem_iff.mpr List.mem_cons_self

theorem trap_of_clash [Inhabited Picture] (sound : Sound w.client w.inflight)
    {q q' : Entry Picture} {rest : List (Entry Picture)} (h : w.inflight.Perm (q :: q' :: rest))
    (clash : Clash w.client q q') : TrapAhead url w := by
  rcases clash with ⟨hm, hother⟩ | ⟨post, hrun, hrenews⟩
  · obtain ⟨i, hi, hmem⟩ := landed_of_perm h
    rcases leads_failed url hi hm with htrap | ⟨w', hleads, ⟨reports, hclient⟩, hrest⟩
    · exact htrap
    · have htouched : w'.client.blocked = false := hclient ▸ rfl
      refine (trap_of_touched (sound_leads hleads sound) htouched (hrest q' hmem) ?_).of_leads hleads
      rw [hclient]
      exact hother
  · obtain ⟨i, hi, hmem⟩ := landed_of_perm (h.trans (List.Perm.swap _ _ _))
    obtain ⟨k, hk⟩ := List.mem_iff_getElem?.mp (List.mem_of_mem_eraseIdx hmem)
    have hknown := sound.posts q (List.mem_of_mem_eraseIdx hmem) post (postOf_of_running hrun)
    by_cases hgone : w.client.Gone post
    · exact trap_of_gone hk hrun hgone
    · obtain ⟨t, ht, _, hscreen⟩ := exists_of_served sound (List.mem_of_mem_eraseIdx hmem) hrun hgone
      rcases leads_renewed url hi hrenews ⟨t, ht, hscreen⟩ with
        htrap | ⟨w', hleads, hrenewed⟩
      · exact htrap
      · obtain ⟨j, hj⟩ := List.mem_iff_getElem?.mp (hrenewed.rest q hmem)
        exact (trap_of_gone hj hrun (hrenewed.gone post hknown.1 hknown.2)).of_leads hleads

theorem trap_of_unsafe [Inhabited Picture] (sound : Sound w.client w.inflight)
    (h : ¬ Safe w.client w.inflight) : TrapAhead url w := by
  by_contra hnot
  refine h ⟨fun q hq post hrun hgone => ?_, fun hb q hq => ⟨fun hm => ?_, fun t ht hr => ?_⟩, ?_⟩
  · obtain ⟨i, hi⟩ := List.mem_iff_getElem?.mp hq
    exact hnot (trap_of_gone hi hrun hgone)
  · exact hnot (trap_of_touched sound hb hq (.inl hm))
  · exact hnot (trap_of_touched sound hb hq (.inr ⟨t, ht, hr⟩))
  · by_contra hpairs
    obtain ⟨q, q', rest, hperm, hclash⟩ := exists_clash hpairs
    exact hnot (trap_of_clash sound hperm hclash)

theorem safe_of_leads {w' : Network Picture} (h : Leads url w w')
    (sound : Sound w.client w.inflight) (safe : Safe w.client w.inflight) :
    Safe w'.client w'.inflight := by
  refine (Reaches.keeps (P := fun w => Sound w.client w.inflight ∧ Safe w.client w.inflight)
    (fun s e t hs hg hstep => ?_) h ⟨sound, safe⟩).2
  exact ⟨sound_step hs.1 hstep, safe_step hs.1 hs.2 hg hstep⟩

theorem sound_start : Sound (start : Network Picture).client (start : Network Picture).inflight :=
  ⟨fun _ h => absurd h List.not_mem_nil, fun _ h => absurd h List.not_mem_nil,
    fun _ h => absurd h List.not_mem_nil, fun _ h => absurd h List.not_mem_nil⟩

/-- Undisturbed from the start no completion traps; in any state, however it was reached, one
is ahead exactly if the phone is not safe. -/
theorem photo_traps_iff [Inhabited Picture] (url : String → String) :
    ¬ TrapAhead url (start : Network Picture) ∧
      ∀ es (w : Network Picture), run (program url).step start es = some w →
        (TrapAhead url w ↔ ¬ Safe w.client w.inflight) := by
  have hiff : ∀ w : Network Picture, Sound w.client w.inflight →
      (TrapAhead url w ↔ ¬ Safe w.client w.inflight) := by
    refine fun w hsound => ⟨?_, trap_of_unsafe hsound⟩
    rintro ⟨w', e, hleads, _, htraps⟩ safe
    exact not_traps_of_safe (safe_of_leads hleads hsound safe) e htraps
  refine ⟨fun h => (hiff start sound_start).mp h (safe_of_none fun q hq => absurd hq List.not_mem_nil),
    fun es w hr => hiff w ?_⟩
  exact run_invariant (P := fun w => Sound w.client w.inflight)
    (fun _ _ _ hs hstep => sound_step hs hstep) hr sound_start

end Ahead

section Example

/-- A photo is posted from a room, and a list that loads takes the indicator down. -/
def disturbed : List (Event (Action Nat) (Change Nat)) :=
  [.act (.auth (some "a")), .act (.opened ⟨0, "a", ∅, none, 1, 0, 0, none⟩),
    .act (.postImage 0 (some 7) []), .act (.indicator false)]

theorem photo_traps_iff_disturbed : ∃ w, run (program id).step start disturbed = some w ∧
    TrapAhead id w := by
  refine ⟨_, rfl, ((@photo_traps_iff Nat _ id).2 disturbed _ rfl).mpr fun safe => ?_⟩
  obtain ⟨hnot, _⟩ := safe.masked rfl _ List.mem_cons_self
  exact hnot ⟨_, List.mem_cons_self, rfl⟩

end Example

end PlateChat.Screen.PhotoTraps
