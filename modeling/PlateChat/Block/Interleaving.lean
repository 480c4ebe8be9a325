/- PlateChat/Block/Interleaving
   digest: Interleaved calls on shared documents, and the writes that lose no update. -/

import PlateChat.Block.Service

set_option autoImplicit false
set_option relaxedAutoImplicit false

namespace PlateChat.Block.Interleaving

open PlateChat.Foundation.Dictionary PlateChat.Foundation.Run PlateChat.Foundation.EventLoop
open PlateChat.Model.Members PlateChat.Model.LocalData PlateChat.Block.Service

/-- Every fetch and write succeeds, and no user starts a call for a target while
another call of theirs for that target is under way. -/
def Admitted (w : Network) : Event Action Empty → Prop
  | .act v => ∀ c ∈ w.inflight, c.request.edit.pair ≠ v.pair
  | .serve _ ok => ok = true
  | _ => True

instance (w : Network) : ∀ ev, Decidable (Admitted w ev)
  | .act v => inferInstanceAs (Decidable (∀ c ∈ w.inflight, c.request.edit.pair ≠ v.pair))
  | .serve _ ok => inferInstanceAs (Decidable (ok = true))
  | .handle _ | .deliver _ _ | .env _ => .isTrue trivial

/-- A call about to be served writes no member whose stored value has changed since its fetch. -/
def FreshCall (s : Store) : Option (Call Request Answer) → Prop
  | some ⟨.set e data, none⟩ => Current s e data
  | _ => True

instance (s : Store) : ∀ c, Decidable (FreshCall s c)
  | some ⟨.set e data, none⟩ => inferInstanceAs (Decidable (Current s e data))
  | some ⟨.get _, _⟩ | some ⟨.set _ _, some _⟩ | none => .isTrue trivial

def Fresh (w : Network) : Event Action Empty → Prop
  | .serve i _ => FreshCall w.server w.inflight[i]?
  | _ => True

instance (w : Network) : ∀ ev, Decidable (Fresh w ev)
  | .serve i _ => inferInstanceAs (Decidable (FreshCall w.server w.inflight[i]?))
  | .act _ | .handle _ | .deliver _ _ | .env _ => .isTrue trivial

/-- The value requested by the latest call for a slot. -/
def lastCall (called : List Edit) (l : Slot) : Option Bool :=
  (called.find? fun e => e.slot = l).map Edit.value

/-- The value every slot should hold: the last request, else what it held at the start. -/
def expected (s : Store) (called : List Edit) (l : Slot) : Option Bool :=
  (lastCall called l).or (s.mark l)

/-- No update is lost or undone. -/
def UpdatesKept (s : Store) (w : Network) : Prop :=
  ∀ l, w.server.mark l = expected s w.client.called l

/-- The call still has a write to be served. -/
def Unsettled : Call Request Answer → Prop
  | ⟨.set _ _, some _⟩ => False
  | _ => True

theorem lastCall_cons_self (e : Edit) (called : List Edit) :
    lastCall (e :: called) e.slot = some e.value := by
  simp [lastCall]

theorem lastCall_cons_ne {e : Edit} {l : Slot} (h : e.slot ≠ l) (called : List Edit) :
    lastCall (e :: called) l = lastCall called l := by
  simp [lastCall, h]

/-- Calls in flight concern different pairs, each is the last one for its slot, and
every slot without a pending write holds what it should. -/
structure Sound (s server : Store) (called : List Edit) (flight : List (Call Request Answer)) :
    Prop where
  pairs : (flight.map fun c => c.request.edit.pair).Nodup
  own : ∀ c ∈ flight, ∀ e data, c.request = .set e data → data.lookup e.key = some e.value
  last : ∀ c ∈ flight, lastCall called c.request.edit.slot = some c.request.edit.value
  settled : ∀ l, (∀ c ∈ flight, Unsettled c → c.request.edit.slot ≠ l) →
    server.mark l = expected s called l

namespace Sound

variable {s server : Store} {called : List Edit} {flight rest : List (Call Request Answer)}
  {c c' : Call Request Answer} {e : Edit} {data : Dict Uid Bool}

theorem perm (h : Sound s server called flight) (p : flight.Perm rest) :
    Sound s server called rest where
  pairs := (p.map _).nodup_iff.mp h.pairs
  own c hc := h.own c (p.mem_iff.mpr hc)
  last c hc := h.last c (p.mem_iff.mpr hc)
  settled l hl := h.settled l fun c hc => hl c (p.mem_iff.mp hc)

theorem call (h : Sound s server called flight)
    (hpair : ∀ c ∈ flight, c.request.edit.pair ≠ e.pair) :
    Sound s server (e :: called) (⟨.get e, none⟩ :: flight) where
  pairs := by
    refine List.nodup_cons.mpr ⟨?_, h.pairs⟩
    intro hmem
    obtain ⟨c, hc, he⟩ := List.mem_map.mp hmem
    exact hpair c hc he
  own := by
    intro c hc f data hreq
    rcases List.mem_cons.mp hc with rfl | hc
    · cases hreq
    · exact h.own c hc f data hreq
  last := by
    intro c hc
    rcases List.mem_cons.mp hc with rfl | hc
    · exact lastCall_cons_self e called
    · have hne : e.slot ≠ c.request.edit.slot := fun he =>
        hpair c hc (Edit.pair_of_slot he).symm
      rw [lastCall_cons_ne hne]
      exact h.last c hc
  settled := by
    intro l hl
    have hne : e.slot ≠ l := hl _ List.mem_cons_self trivial
    have hold := h.settled l fun c hc => hl c (List.mem_cons_of_mem _ hc)
    rw [hold, expected, expected, lastCall_cons_ne hne]

theorem proceed (h : Sound s server called (c :: rest))
    (hedit : c'.request.edit = c.request.edit)
    (hown : ∀ e data, c'.request = .set e data → data.lookup e.key = some e.value)
    (hopen : Unsettled c → Unsettled c') : Sound s server called (c' :: rest) where
  pairs := by
    have hp := h.pairs
    rw [List.map_cons] at hp ⊢
    rw [hedit]
    exact hp
  own := by
    intro d hd f data hreq
    rcases List.mem_cons.mp hd with rfl | hd
    · exact hown f data hreq
    · exact h.own d (List.mem_cons_of_mem _ hd) f data hreq
  last := by
    intro d hd
    rcases List.mem_cons.mp hd with rfl | hd
    · rw [hedit]
      exact h.last c List.mem_cons_self
    · exact h.last d (List.mem_cons_of_mem _ hd)
  settled := by
    intro l hl
    apply h.settled l
    intro d hd hun
    rcases List.mem_cons.mp hd with rfl | hd
    · rw [← hedit]
      exact hl c' List.mem_cons_self (hopen hun)
    · exact hl d (List.mem_cons_of_mem _ hd) hun

theorem write (h : Sound s server called (⟨.set e data, none⟩ :: rest))
    (current : Current server e data) (a : Answer) :
    Sound s (server.setData e.collection e.document data) called
      (⟨.set e data, some a⟩ :: rest) where
  pairs := h.pairs
  own := by
    intro d hd f data' hreq
    rcases List.mem_cons.mp hd with rfl | hd
    · exact h.own _ List.mem_cons_self f data' hreq
    · exact h.own d (List.mem_cons_of_mem _ hd) f data' hreq
  last := by
    intro d hd
    rcases List.mem_cons.mp hd with rfl | hd
    · exact h.last ⟨.set e data, none⟩ List.mem_cons_self
    · exact h.last d (List.mem_cons_of_mem _ hd)
  settled := by
    intro l hl
    have hown := h.own _ List.mem_cons_self e data rfl
    rw [mark_current current hown]
    split
    · subst l
      have hlast : lastCall called e.slot = some e.value := h.last _ List.mem_cons_self
      rw [expected, hlast, Option.some_or]
    · apply h.settled l
      intro d hd hun
      rcases List.mem_cons.mp hd with rfl | hd
      · exact fun he => ‹l ≠ e.slot› he.symm
      · exact hl d (List.mem_cons_of_mem _ hd) hun

theorem finish {a : Answer} (h : Sound s server called (⟨.set e data, some a⟩ :: rest)) :
    Sound s server called rest where
  pairs := (List.nodup_cons.mp h.pairs).2
  own c hc := h.own c (List.mem_cons_of_mem _ hc)
  last c hc := h.last c (List.mem_cons_of_mem _ hc)
  settled := by
    intro l hl
    apply h.settled l
    intro d hd hun
    rcases List.mem_cons.mp hd with rfl | hd
    · exact hun.elim
    · exact hl d hd hun

theorem alone (h : Sound s server called (c :: rest)) :
    ∀ d ∈ rest, d.request.edit.pair ≠ c.request.edit.pair := by
  intro d hd he
  have hmem : c.request.edit.pair ∈ rest.map fun c => c.request.edit.pair :=
    List.mem_map.mpr ⟨d, hd, he⟩
  exact (List.nodup_cons.mp h.pairs).1 hmem

end Sound

def SoundIn (s : Store) (w : Network) : Prop := Sound s w.server w.client.called w.inflight

theorem sound_start (s : Store) (u : Uid → UsersData) : SoundIn s (start s u) where
  pairs := List.nodup_nil
  own _ hc := nomatch hc
  last _ hc := nomatch hc
  settled _ _ := rfl

private theorem landed_perm (w : Network) {i : Nat} {r : Request} {a : Answer} (o : Outcome)
    (h : w.inflight[i]? = some ⟨r, some a⟩) :
    w.inflight.Perm (⟨r, some a⟩ :: w.inflight.eraseIdx i) ∧
    ((w.landed i).perform o).inflight.Perm
      (o.requests.map (fun q => ⟨q, none⟩) ++ w.inflight.eraseIdx i) :=
  ⟨perm_landed h, List.perm_append_comm⟩

private theorem sound_serve {s : Store} {w : Network} {i : Nat} {r : Request} (h : SoundIn s w)
    (fresh : FreshCall w.server w.inflight[i]?) (hi : w.inflight[i]? = some ⟨r, none⟩) :
    SoundIn s (w.served program i r true) := by
  have hperm := h.perm (perm_landed hi)
  have hback := (perm_served ⟨r, some (serve w.server r true).2⟩ hi).symm
  cases r with
  | get e =>
    refine (hperm.proceed ?_ ?_ ?_).perm hback
    · rfl
    · intro f data hreq
      cases hreq
    · exact fun hu => hu
  | set e data =>
    rw [hi] at fresh
    exact (hperm.write fresh _).perm hback

private theorem sound_handle {s : Store} {w : Network} {i : Nat} {r : Request} {a : Answer}
    {o : Outcome} (h : SoundIn s w) (hi : w.inflight[i]? = some ⟨r, some a⟩)
    (ho : handle w.client r a = some o) : SoundIn s ((w.landed i).perform o) := by
  obtain ⟨hbefore, hafter⟩ := landed_perm w o hi
  have hperm := h.perm hbefore
  rcases r with e | ⟨e, data⟩ <;> rcases a with answer | error
  · obtain rfl := Option.some.inj ho
    have hgo : Sound s w.server w.client.called
        (⟨.set e (dataOf e (parsed e.document answer)), none⟩ :: w.inflight.eraseIdx i) :=
      hperm.proceed rfl (by
        intro f data hreq
        cases hreq
        exact dataOf_key e _) (fun _ => trivial)
    show Sound s w.server (fetchCompletion w.client e answer).client.called _
    rw [fetchCompletion_called]
    exact hgo.perm hafter.symm
  · cases ho
  · cases ho
  · obtain rfl := Option.some.inj ho
    have hend := hperm.finish
    show Sound s w.server (writeCompletion w.client e data error).client.called _
    rcases writeCompletion_cases w.client e data error with
      ⟨_, _, hcalled, hreq⟩ | ⟨_, hcalled, hreq⟩
    · rw [hcalled]
      rw [hreq] at hafter
      have hnext : Sound s w.server (e.twin :: w.client.called)
          (⟨.get e.twin, none⟩ :: w.inflight.eraseIdx i) := hend.call hperm.alone
      exact hnext.perm hafter.symm
    · rw [hcalled]
      rw [hreq] at hafter
      exact hend.perm hafter.symm

theorem sound_step {s : Store} {w w' : Network} {ev : Event Action Empty} (h : SoundIn s w)
    (admitted : Admitted w ev) (fresh : Fresh w ev) (hstep : step w ev = some w') :
    SoundIn s w' := by
  have hfires := Program.step_fires hstep
  cases hfires with
  | @act v e he =>
    obtain ⟨edit, hpair, hact⟩ := act_cases w.client v
    have he' : act w.client v = e := Option.some.inj he
    rw [hact] at he'
    subst he'
    have hcall := Sound.call (e := edit) h (by
      intro c hc
      rw [hpair]
      exact admitted c hc)
    exact hcall.perm (List.perm_append_singleton _ _).symm
  | @serve i ok r hi =>
    obtain rfl : ok = true := admitted
    exact sound_serve h fresh hi
  | handle hi ho => exact sound_handle h hi ho
  | @deliver j ok x e hj he => exact x.listener.elim
  | @env v => exact v.elim

/-- Calls that never write a stale member lose no update, in any order of their steps. -/
theorem updates_kept_of_fresh (s : Store) (u : Uid → UsersData) (es : List (Event Action Empty))
    (w : Network) (admitted : Along step Admitted (start s u) es)
    (fresh : Along step Fresh (start s u) es) (hr : run step (start s u) es = some w)
    (idle : w.inflight = []) : UpdatesKept s w := by
  have hsound : SoundIn s w := by
    refine run_keeps (P := SoundIn s) ?_ (along_and admitted fresh) hr (sound_start s u)
    intro t ev t' ht hg hstep
    exact sound_step ht hg.1 hg.2 hstep
  intro l
  apply hsound.settled l
  intro c hc
  rw [idle] at hc
  cases hc

section Example

private def xv : Pair := ⟨"x", "v", by decide, by decide⟩

private def yv : Pair := ⟨"y", "v", by decide, by decide⟩

/-- `v` is blocked by `x`, who is about to release them while `y` is about to block them. -/
private def blockedByX : Store where
  userBlocked := AList.singleton "v" ⟨some (AList.singleton "x" true)⟩

/-- Both fetch, `x` writes, then `y` writes what they had fetched. -/
private def overlapping : List (Event Action Empty) :=
  [.act (.releaseBlockedUser xv), .act (.addBlockedUser yv), .serve 0 true, .serve 1 true,
    .handle 0, .serve 1 true, .handle 1, .handle 0, .serve 0 true, .handle 0]

/-- The second user fetches after the first one has written. -/
private def ordered : List (Event Action Empty) :=
  [.act (.releaseBlockedUser xv), .serve 0 true, .act (.addBlockedUser yv), .handle 0,
    .serve 1 true, .serve 0 true, .handle 1, .handle 0, .serve 0 true, .handle 0]

theorem release_undone_by_stale_write :
    ¬ ∀ (s : Store) (u : Uid → UsersData) (es : List (Event Action Empty)) (w : Network),
      Along step Admitted (start s u) es → run step (start s u) es = some w →
      w.inflight = [] → UpdatesKept s w := by
  intro claim
  have hseen : (run step (start blockedByX fun _ => {}) overlapping).map (fun w =>
      (w.inflight.isEmpty, w.server.mark ⟨.userBlocked, "v", "x"⟩,
        expected blockedByX w.client.called ⟨.userBlocked, "v", "x"⟩)) =
      some (true, some true, some false) := by decide
  obtain ⟨w, hw, hval⟩ := Option.map_eq_some_iff.mp hseen
  simp only [Prod.mk.injEq, List.isEmpty_iff] at hval
  have hkept := claim blockedByX (fun _ => {}) overlapping w (by decide) hw hval.1
    ⟨.userBlocked, "v", "x"⟩
  rw [hval.2.1, hval.2.2] at hkept
  cases hkept

theorem updates_kept_ordered :
    ∃ w, run step (start blockedByX fun _ => {}) ordered = some w ∧ UpdatesKept blockedByX w := by
  have hidle : (run step (start blockedByX fun _ => {}) ordered).map
      (fun w => w.inflight.isEmpty) = some true := by decide
  obtain ⟨w, hw, hval⟩ := Option.map_eq_some_iff.mp hidle
  exact ⟨w, hw, updates_kept_of_fresh blockedByX (fun _ => {}) ordered w (by decide) (by decide)
    hw (List.isEmpty_iff.mp hval)⟩

end Example

end PlateChat.Block.Interleaving
