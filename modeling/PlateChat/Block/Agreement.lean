/- PlateChat/Block/Agreement
   digest: Whether the two block documents agree after each action, steps failing or not. -/

import PlateChat.Block.Service

set_option autoImplicit false
set_option relaxedAutoImplicit false

namespace PlateChat.Block.Agreement

open PlateChat.Foundation.Dictionary PlateChat.Foundation.Run PlateChat.Foundation.EventLoop
open PlateChat.Model.Members PlateChat.Model.LocalData PlateChat.Block.Service

/-- `a` is stored as blocking `b` exactly when `b` is stored as blocked by `a`. -/
def Agree (s : Store) : Prop :=
  ∀ a b, s.mark ⟨.userBlock, a, b⟩ = some true ↔ s.mark ⟨.userBlocked, b, a⟩ = some true

/-- The actions the screens offer. -/
def FromScreen : Action → Prop
  | .blockUser _ | .blockUserRelease _ => True
  | _ => False

instance : ∀ v, Decidable (FromScreen v)
  | .blockUser _ | .blockUserRelease _ => .isTrue trivial
  | .addBlockUser _ | .releaseBlockUser _ | .addBlockedUser _ | .releaseBlockedUser _ =>
    .isFalse id

/-- Actions run one after the other; any fetch or write may fail. -/
def Sequential (w : Network) : Event Action Empty → Prop
  | .act v => w.inflight.isEmpty = true ∧ FromScreen v
  | _ => True

instance (w : Network) : ∀ ev, Decidable (Sequential w ev)
  | .act v => inferInstanceAs (Decidable (w.inflight.isEmpty = true ∧ FromScreen v))
  | .serve _ _ | .handle _ | .deliver _ _ | .env _ => .isTrue trivial

/-- Losing this request leaves the two documents as the action wants them: only the
write of the second service can be lost to their disagreement, and it is harmless
where the stored mark already says what the write would have said. -/
def HarmlessLoss (s : Store) : Option (Call Request Answer) → Prop
  | some ⟨.set e _, none⟩ =>
    e.collection = .userBlocked → (s.mark e.slot = some true ↔ e.value = true)
  | _ => True

instance (s : Store) : ∀ c, Decidable (HarmlessLoss s c)
  | some ⟨.set e _, none⟩ => inferInstanceAs
    (Decidable (e.collection = .userBlocked → (s.mark e.slot = some true ↔ e.value = true)))
  | some ⟨.get _, _⟩ | some ⟨.set _ _, some _⟩ | none => .isTrue trivial

def NoHalfAction (w : Network) : Event Action Empty → Prop
  | .serve i false => HarmlessLoss w.server w.inflight[i]?
  | _ => True

instance (w : Network) : ∀ ev, Decidable (NoHalfAction w ev)
  | .serve i false => inferInstanceAs (Decidable (HarmlessLoss w.server w.inflight[i]?))
  | .serve _ true | .act _ | .handle _ | .deliver _ _ | .env _ => .isTrue trivial

/-- The first document is written, the second one is not: all other pairs agree. -/
structure Half (s : Store) (p : Pair) (value : Bool) : Prop where
  first : s.mark ⟨.userBlock, p.uid, p.otherUid⟩ = some value
  others : ∀ a b, (a, b) ≠ (p.uid, p.otherUid) →
    (s.mark ⟨.userBlock, a, b⟩ = some true ↔ s.mark ⟨.userBlocked, b, a⟩ = some true)

/-- What holds of the store before the write of a call. -/
def Ready (s : Store) (e : Edit) : Prop :=
  match e.collection with
  | .userBlock => e.chained = true ∧ Agree s
  | .userBlocked => e.chained = false ∧ Half s e.pair e.value

/-- Where the single action under way stands. -/
inductive Phase (s : Store) : List (Call Request Answer) → Prop
  | idle (agree : Agree s) : Phase s []
  | fetching {e : Edit} {a : Option Answer} (ready : Ready s e)
      (current : ∀ document, a = some (.fetched document) →
        Current s e (dataOf e (parsed e.document document))) : Phase s [⟨.get e, a⟩]
  | writing {e : Edit} {data : Dict Uid Bool} (ready : Ready s e) (current : Current s e data)
      (own : data.lookup e.key = some e.value) : Phase s [⟨.set e data, none⟩]
  | written {e : Edit} {data : Dict Uid Bool} {error : Option ServiceError}
      (half : e.chained = true → error = none → Half s e.pair e.value)
      (agree : e.chained = false ∨ error ≠ none → Agree s) :
      Phase s [⟨.set e data, some (.written error)⟩]

theorem phase_start (u : Uid → UsersData) : Phase (start {} u).server (start {} u).inflight :=
  .idle fun _ _ => Iff.rfl

private theorem slot_eq {c : Collection} {a b : Uid} {e : Edit} (hc : e.collection = c) :
    (⟨.userBlock, a, b⟩ : Slot) = e.slot ↔
      c = .userBlock ∧ a = e.pair.uid ∧ b = e.pair.otherUid := by
  subst hc
  unfold Edit.slot Edit.document Edit.key
  cases e.collection <;> simp

private theorem slot_eq' {c : Collection} {a b : Uid} {e : Edit} (hc : e.collection = c) :
    (⟨.userBlocked, b, a⟩ : Slot) = e.slot ↔
      c = .userBlocked ∧ a = e.pair.uid ∧ b = e.pair.otherUid := by
  subst hc
  unfold Edit.slot Edit.document Edit.key
  cases e.collection <;> simp [and_comm]

private theorem half_of_first {s : Store} {e : Edit} {data : Dict Uid Bool}
    (hc : e.collection = .userBlock) (agree : Agree s) (current : Current s e data)
    (own : data.lookup e.key = some e.value) :
    Half (s.setData e.collection e.document data) e.pair e.value where
  first := by
    rw [mark_current current own, if_pos ((slot_eq hc).mpr ⟨rfl, rfl, rfl⟩)]
  others := by
    intro a b hab
    have hne : (⟨.userBlock, a, b⟩ : Slot) ≠ e.slot := fun h => by
      obtain ⟨_, rfl, rfl⟩ := (slot_eq hc).mp h
      exact hab rfl
    have hne' : (⟨.userBlocked, b, a⟩ : Slot) ≠ e.slot := fun h => by
      cases ((slot_eq' hc).mp h).1
    rw [mark_current current own, mark_current current own, if_neg hne, if_neg hne']
    exact agree a b

private theorem agree_of_second {s : Store} {e : Edit} {data : Dict Uid Bool}
    (hc : e.collection = .userBlocked) (half : Half s e.pair e.value) (current : Current s e data)
    (own : data.lookup e.key = some e.value) :
    Agree (s.setData e.collection e.document data) := by
  intro a b
  have hne : (⟨.userBlock, a, b⟩ : Slot) ≠ e.slot := fun h => by
    cases ((slot_eq hc).mp h).1
  rw [mark_current current own, mark_current current own, if_neg hne]
  by_cases hab : (a, b) = (e.pair.uid, e.pair.otherUid)
  · obtain ⟨rfl, rfl⟩ := Prod.mk.inj hab
    rw [if_pos ((slot_eq' hc).mpr ⟨rfl, rfl, rfl⟩), half.first]
  · have hne' : (⟨.userBlocked, b, a⟩ : Slot) ≠ e.slot := fun h => by
      obtain ⟨_, rfl, rfl⟩ := (slot_eq' hc).mp h
      exact hab rfl
    rw [if_neg hne']
    exact half.others a b hab

/-- A lost second write leaves agreement where the mark is already right. -/
private theorem agree_of_loss {s : Store} {e : Edit} (hc : e.collection = .userBlocked)
    (half : Half s e.pair e.value) (harmless : s.mark e.slot = some true ↔ e.value = true) :
    Agree s := by
  intro a b
  by_cases hab : (a, b) = (e.pair.uid, e.pair.otherUid)
  · obtain ⟨rfl, rfl⟩ := Prod.mk.inj hab
    have hslot : (⟨.userBlocked, e.pair.otherUid, e.pair.uid⟩ : Slot) = e.slot :=
      (slot_eq' hc).mpr ⟨rfl, rfl, rfl⟩
    rw [half.first, hslot, harmless, Option.some_inj]
  · exact half.others a b hab

private theorem phase_served {s : Store} {e : Edit} {data : Dict Uid Bool} (ready : Ready s e)
    (current : Current s e data) (own : data.lookup e.key = some e.value) :
    Phase (s.setData e.collection e.document data) [⟨.set e data, some (.written none)⟩] := by
  unfold Ready at ready
  split at ready
  · have half := half_of_first ‹_› ready.2 current own
    refine .written (fun _ _ => half) ?_
    rintro (h | h)
    · rw [ready.1] at h
      cases h
    · exact (h rfl).elim
  · have agree := agree_of_second ‹_› ready.2 current own
    refine .written ?_ (fun _ => agree)
    intro h
    rw [ready.1] at h
    cases h

private theorem phase_lost {s : Store} {e : Edit} {data : Dict Uid Bool} (ready : Ready s e)
    (harmless : HarmlessLoss s (some ⟨.set e data, none⟩)) :
    Phase s [⟨.set e data, some (.written (some .updateError))⟩] := by
  refine .written (fun _ h => nomatch h) fun _ => ?_
  unfold Ready at ready
  split at ready
  · exact ready.2
  · exact agree_of_loss ‹_› ready.2 (harmless ‹_›)

private theorem ready_act {s : Store} {c : Devices} {v : Action} (screen : FromScreen v)
    (agree : Agree s) : ∃ e, Ready s e ∧ act c v = updateMembers c e := by
  cases v with
  | blockUser p => exact ⟨⟨.userBlock, p, true, true⟩, ⟨rfl, agree⟩, rfl⟩
  | blockUserRelease p => exact ⟨⟨.userBlock, p, false, true⟩, ⟨rfl, agree⟩, rfl⟩
  | addBlockUser p | releaseBlockUser p | addBlockedUser p | releaseBlockedUser p =>
    exact screen.elim

private theorem only {β : Type} {x y : β} {l : List β} {i : Nat} (hl : l = [x])
    (hi : l[i]? = some y) : i = 0 ∧ y = x := by
  subst hl
  cases i with
  | zero => exact ⟨rfl, (Option.some.inj hi).symm⟩
  | succ i => cases hi

private theorem phase_act {w : Network} {v : Action} (h : Phase w.server w.inflight)
    (sequential : Sequential w (.act v)) :
    Phase w.server (w.perform (act w.client v)).inflight := by
  have hidle : w.inflight = [] := List.isEmpty_iff.mp sequential.1
  rw [hidle] at h
  cases h with
  | idle agree =>
    obtain ⟨e, ready, hact⟩ := ready_act (c := w.client) sequential.2 agree
    rw [hact, World.perform_inflight, hidle]
    exact .fetching ready fun _ h => nomatch h

private theorem phase_serve {w : Network} {i : Nat} {ok : Bool} {r : Request}
    (h : Phase w.server w.inflight) (whole : NoHalfAction w (.serve i ok))
    (hi : w.inflight[i]? = some ⟨r, none⟩) :
    Phase (serve w.server r ok).1 (w.inflight.set i ⟨r, some (serve w.server r ok).2⟩) := by
  generalize hl : w.inflight = l at h
  cases h with
  | idle agree =>
    rw [hl] at hi
    cases hi
  | @fetching e a ready current =>
    obtain ⟨rfl, hr⟩ := only hl hi
    cases hr
    have hserver : (serve w.server (.get e) ok).1 = w.server := by
      cases ok <;> rfl
    rw [hserver]
    refine .fetching ready fun document hd => ?_
    exact current_fetched w.server e ok (Option.some.inj hd)
  | writing ready current own =>
    obtain ⟨rfl, hr⟩ := only hl hi
    cases hr
    cases ok with
    | true => exact phase_served ready current own
    | false =>
      have hloss : HarmlessLoss w.server w.inflight[0]? := whole
      rw [hi] at hloss
      exact phase_lost ready hloss
  | written half agree =>
    obtain ⟨rfl, hr⟩ := only hl hi
    cases hr

private theorem phase_handle {w : Network} {i : Nat} {r : Request} {a : Answer} {o : Outcome}
    (h : Phase w.server w.inflight) (hi : w.inflight[i]? = some ⟨r, some a⟩)
    (ho : handle w.client r a = some o) :
    Phase w.server (w.inflight.eraseIdx i ++ o.requests.map fun r => ⟨r, none⟩) := by
  generalize hl : w.inflight = l at h
  cases h with
  | idle agree =>
    rw [hl] at hi
    cases hi
  | @fetching e b ready current =>
    obtain ⟨rfl, hr⟩ := only hl hi
    cases hr
    cases a with
    | fetched document =>
      obtain rfl := Option.some.inj ho
      exact .writing ready (current document rfl) (dataOf_key e _)
    | written error => cases ho
  | writing ready current own =>
    obtain ⟨rfl, hr⟩ := only hl hi
    cases hr
  | @written e data error half agree =>
    obtain ⟨rfl, hr⟩ := only hl hi
    cases hr
    obtain rfl := Option.some.inj ho
    rcases writeCompletion_cases w.client e data error with
      ⟨hchained, herror, _, hreq⟩ | ⟨hend, _, hreq⟩
    · rw [hreq]
      exact .fetching (e := e.twin) ⟨rfl, half hchained herror⟩ fun _ h => nomatch h
    · rw [hreq]
      exact .idle (agree hend)

theorem phase_step {w w' : Network} {ev : Event Action Empty} (h : Phase w.server w.inflight)
    (sequential : Sequential w ev) (whole : NoHalfAction w ev) (hstep : step w ev = some w') :
    Phase w'.server w'.inflight := by
  have hfires := Program.step_fires hstep
  cases hfires with
  | @act v o ho =>
    obtain rfl : act w.client v = o := Option.some.inj ho
    exact phase_act h sequential
  | serve hi => exact phase_serve h whole hi
  | handle hi ho => exact phase_handle h hi ho
  | @deliver j ok x e hj he => exact x.listener.elim
  | @env v => exact v.elim

/-- Whatever fails, the documents agree after each action, unless a second write is
lost that would have changed its mark. -/
theorem agree_after_each_action (u : Uid → UsersData) (es : List (Event Action Empty))
    (w : Network) (sequential : Along step Sequential (start {} u) es)
    (whole : Along step NoHalfAction (start {} u) es) (hr : run step (start {} u) es = some w)
    (idle : w.inflight = []) : Agree w.server := by
  have hphase : Phase w.server w.inflight := by
    refine run_keeps (P := fun w => Phase w.server w.inflight) ?_
      (along_and sequential whole) hr (phase_start u)
    intro t ev t' ht hg hstep
    exact phase_step ht hg.1 hg.2 hstep
  rw [idle] at hphase
  cases hphase with
  | idle agree => exact agree

section Example

private def ab : Pair := ⟨"a", "b", by decide, by decide⟩

/-- The first document is written; the write of the second one fails. -/
private def halfBlocked : List (Event Action Empty) :=
  [.act (.blockUser ab), .serve 0 true, .handle 0, .serve 0 true, .handle 0,
    .serve 0 true, .handle 0, .serve 0 false, .handle 0]

/-- A failed fetch is survived, and a failed first write ends the second action. -/
private def blockedThenFailing : List (Event Action Empty) :=
  [.act (.blockUser ab), .serve 0 false, .handle 0, .serve 0 true, .handle 0,
    .serve 0 false, .handle 0, .serve 0 true, .handle 0,
    .act (.blockUserRelease ab), .serve 0 true, .handle 0, .serve 0 false, .handle 0]

theorem half_blocked_disagrees :
    ¬ ∀ (u : Uid → UsersData) (es : List (Event Action Empty)) (w : Network),
      Along step Sequential (start {} u) es → run step (start {} u) es = some w →
      w.inflight = [] → Agree w.server := by
  intro claim
  have hseen : (run step (start {} fun _ => {}) halfBlocked).map (fun w =>
      (w.inflight.isEmpty, w.server.mark ⟨.userBlock, "a", "b"⟩,
        w.server.mark ⟨.userBlocked, "b", "a"⟩)) = some (true, some true, none) := by decide
  obtain ⟨w, hw, hval⟩ := Option.map_eq_some_iff.mp hseen
  simp only [Prod.mk.injEq, List.isEmpty_iff] at hval
  have hagree := claim (fun _ => {}) halfBlocked w (by decide) hw hval.1 "a" "b"
  rw [hval.2.1, hval.2.2] at hagree
  cases hagree.mp rfl

theorem agree_blocked_then_failing :
    ∃ w, run step (start {} fun _ => {}) blockedThenFailing = some w ∧ Agree w.server := by
  have hidle : (run step (start {} fun _ => {}) blockedThenFailing).map
      (fun w => w.inflight.isEmpty) = some true := by decide
  obtain ⟨w, hw, hval⟩ := Option.map_eq_some_iff.mp hidle
  exact ⟨w, hw, agree_after_each_action (fun _ => {}) blockedThenFailing w (by decide)
    (by decide) hw (List.isEmpty_iff.mp hval)⟩

end Example

end PlateChat.Block.Agreement
