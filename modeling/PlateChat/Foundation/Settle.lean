/- PlateChat/Foundation/Settle
   digest: Callback programs left to themselves: what their steps do, and when they rest. -/

import PlateChat.Foundation.EventLoop

set_option autoImplicit false
set_option relaxedAutoImplicit false

/-!
Left to itself a program serves the requests in flight, runs their handlers, and hands
every listener whose result has changed the new one. A listener that repairs what it is
shown has done its work once nothing moves any more.
-/

namespace PlateChat.Foundation.Settle

open PlateChat.Foundation.Run PlateChat.Foundation.EventLoop

universe u

variable {S C ν η ρ α ℓ δ : Type}

/-- What happens by itself: due results are delivered, and requests succeed. -/
def OnItsOwn (w : World S C ρ α ℓ) : Event ν η → Prop
  | .serve _ ok => ok = true
  | .handle _ => True
  | .deliver j ok => ok = true ∧ ∃ x ∈ w.watches[j]?, x.due = true
  | .act _ | .env _ => False

instance (w : World S C ρ α ℓ) : ∀ e : Event ν η, Decidable (OnItsOwn w e)
  | .serve _ ok => inferInstanceAs (Decidable (ok = true))
  | .handle _ => .isTrue trivial
  | .deliver j ok => inferInstanceAs (Decidable (ok = true ∧ ∃ x ∈ w.watches[j]?, x.due = true))
  | .act _ => .isFalse id
  | .env _ => .isFalse id

variable [DecidableEq ℓ] [DecidableEq δ]

/-- A step that happens by itself, with its event forgotten. -/
inductive Own (p : Program S C ν η ρ α ℓ δ) (w : World S C ρ α ℓ) : World S C ρ α ℓ → Prop
  | served {i : Nat} {r : ρ} : w.inflight[i]? = some ⟨r, none⟩ → Own p w (w.served p i r true)
  | handled {i : Nat} {r : ρ} {a : α} {e : Effect C ρ ℓ} : w.inflight[i]? = some ⟨r, some a⟩ →
      p.handle w.server w.client r a = some e → Own p w ((w.landed i).perform e)
  | delivered {j : Nat} {x : Watch ℓ} {e : Effect C ρ ℓ} : w.watches[j]? = some x →
      x.due = true → p.notify w.server w.client x.listener
        (some (p.snapshot w.server x.listener)) = some e →
      Own p w ((w.delivered j x.listener).perform e)

variable {p : Program S C ν η ρ α ℓ δ} {w w' : World S C ρ α ℓ}

theorem own_of_step {ev : Event ν η} (hg : OnItsOwn w ev) (h : p.step w ev = some w') :
    Own p w w' := by
  cases Program.step_fires h with
  | act => exact hg.elim
  | serve hi =>
    obtain rfl : _ = true := hg
    exact .served hi
  | handle hi he => exact .handled hi he
  | @deliver j ok x e hj he =>
    obtain ⟨rfl, y, hy, hdue⟩ := hg
    obtain rfl : x = y := Option.some.inj (hj.symm.trans hy)
    exact .delivered hj hdue he
  | env => exact hg.elim

theorem halted_served (h : Halted p.step OnItsOwn w) : ∀ c ∈ w.inflight, c.answer ≠ none := by
  rintro ⟨r, a⟩ hc rfl
  obtain ⟨i, hi⟩ := List.mem_iff_getElem?.mp hc
  have hserved : p.step w (.serve i true) = some (w.served p i r true) :=
    Program.fires_step (.serve hi)
  exact h _ ⟨.serve i true, rfl, hserved⟩

theorem halted_handled (h : Halted p.step OnItsOwn w) {r : ρ} {a : α}
    (hq : ⟨r, some a⟩ ∈ w.inflight) : p.handle w.server w.client r a = none := by
  obtain ⟨i, hi⟩ := List.mem_iff_getElem?.mp hq
  cases he : p.handle w.server w.client r a with
  | none => rfl
  | some e =>
    have hhandled : p.step w (.handle i) = some ((w.landed i).perform e) :=
      Program.fires_step (.handle hi he)
    exact absurd ⟨.handle i, trivial, hhandled⟩ (h _)

theorem halted_due (h : Halted p.step OnItsOwn w) {x : Watch ℓ} (hx : x ∈ w.watches)
    {e : Effect C ρ ℓ} (hnotify : p.notify w.server w.client x.listener
      (some (p.snapshot w.server x.listener)) = some e) : x.due = false := by
  cases hdue : x.due with
  | false => rfl
  | true =>
    obtain ⟨j, hj⟩ := List.mem_iff_getElem?.mp hx
    have hg : OnItsOwn (ν := ν) (η := η) w (.deliver j true) := ⟨rfl, x, hj, hdue⟩
    have hdelivered : p.step w (.deliver j true) = some ((w.delivered j x.listener).perform e) :=
      Program.fires_step (.deliver hj hnotify)
    exact absurd ⟨.deliver j true, hg, hdelivered⟩ (h _)

theorem halted_of_idle (flight : w.inflight = []) (idle : ∀ x ∈ w.watches, x.due = false) :
    Halted p.step OnItsOwn w := by
  rintro w' ⟨ev, hg, hstep⟩
  cases own_of_step hg hstep with
  | served hi | handled hi =>
    rw [flight] at hi
    cases hi
  | delivered hj hdue =>
    rw [idle _ (List.mem_of_getElem? hj)] at hdue
    cases hdue

omit [DecidableEq ℓ] in
theorem mem_served_watches {i : Nat} {r : ρ} {x : Watch ℓ}
    (hx : x ∈ (w.served p i r true).watches) : ∃ y ∈ w.watches, y.listener = x.listener := by
  obtain ⟨y, hy, rfl⟩ := List.mem_map.mp hx
  exact ⟨y, hy, rfl⟩

omit [DecidableEq δ] in
theorem mem_handled_watches {i : Nat} {x : Watch ℓ} {e : Effect C ρ ℓ} (hlis : e.listeners = [])
    (hx : x ∈ ((w.landed i).perform e).watches) : x ∈ w.watches := by
  rcases List.mem_append.mp hx with hx | hx
  · exact List.mem_of_mem_filter hx
  · rw [hlis] at hx
    cases hx

omit [DecidableEq δ] in
theorem mem_delivered_watches {j : Nat} {x y : Watch ℓ} {e : Effect C ρ ℓ}
    (hj : w.watches[j]? = some x) (hlis : e.listeners = [])
    (hy : y ∈ ((w.delivered j x.listener).perform e).watches) :
    ∃ z ∈ w.watches, z.listener = y.listener := by
  rcases List.mem_append.mp hy with hy | hy
  · rcases List.mem_or_eq_of_mem_set (List.mem_of_mem_filter hy) with hy | rfl
    · exact ⟨y, hy, rfl⟩
    · exact ⟨x, List.mem_of_getElem? hj, rfl⟩
  · rw [hlis] at hy
    cases hy

omit [DecidableEq ℓ] in
theorem mem_served {i : Nat} {r : ρ} {c : Call ρ α} (hi : w.inflight[i]? = some ⟨r, none⟩)
    (hc : c ∈ w.inflight) (hne : c ≠ ⟨r, none⟩) : c ∈ (w.served p i r true).inflight := by
  rw [World.served_inflight]
  exact mem_served_of_ne _ hi hc hne

omit [DecidableEq ℓ] in
theorem pending_served {i : Nat} {r q : ρ} (hi : w.inflight[i]? = some ⟨r, none⟩)
    (hq : ⟨q, none⟩ ∈ w.inflight) (hne : q ≠ r) : ⟨q, none⟩ ∈ (w.served p i r true).inflight :=
  mem_served hi hq fun heq => hne (congrArg Call.request heq)

omit [DecidableEq ℓ] [DecidableEq δ] in
theorem mem_landed {i : Nat} {q c : Call ρ α} (hi : w.inflight[i]? = some q)
    (hc : c ∈ w.inflight) (hne : c ≠ q) : c ∈ (w.landed i).inflight :=
  mem_landed_of_ne hi hc hne

omit [DecidableEq ℓ] [DecidableEq δ] in
theorem pending_landed {i : Nat} {r q : ρ} {a : α} (hi : w.inflight[i]? = some ⟨r, some a⟩)
    (hq : ⟨q, none⟩ ∈ w.inflight) : ⟨q, none⟩ ∈ (w.landed i).inflight :=
  mem_landed hi hq fun heq => nomatch heq

omit [DecidableEq δ] in
theorem pending_perform {e : Effect C ρ ℓ} {q : Call ρ α} (hq : q ∈ w.inflight) :
    q ∈ (w.perform e).inflight :=
  List.mem_append_left _ hq

def unanswered (w : World S C ρ α ℓ) : Nat := w.inflight.countP fun c => c.answer.isNone

omit [DecidableEq ℓ] in
theorem unanswered_served {i : Nat} {r : ρ} (hi : w.inflight[i]? = some ⟨r, none⟩) :
    unanswered (w.served p i r true) < unanswered w := by
  have hcount := countP_served (fun c : Call ρ α => c.answer.isNone)
    ⟨r, some (p.serve w.server r true).2⟩ hi
  simp only [Option.isNone_none, Option.isNone_some, if_true, Bool.false_eq_true,
    if_false] at hcount
  unfold unanswered
  rw [World.served_inflight]
  omega

omit [DecidableEq ℓ] [DecidableEq δ] in
theorem unanswered_landed {i : Nat} {r : ρ} {a : α} (hi : w.inflight[i]? = some ⟨r, some a⟩) :
    unanswered (w.landed i) = unanswered w :=
  (countP_landed (fun c : Call ρ α => c.answer.isNone) hi).symm

omit [DecidableEq δ] in
theorem unanswered_perform (w : World S C ρ α ℓ) (e : Effect C ρ ℓ) :
    unanswered (w.perform e) = unanswered w + e.requests.length := by
  unfold unanswered
  rw [World.perform_inflight, List.countP_append, List.countP_map]
  congr 1
  rw [List.countP_eq_length]
  intro r _
  rfl

/-- No listener is ever removed. -/
structure Lasting (p : Program S C ν η ρ α ℓ δ) : Prop where
  handle : ∀ {s c r a e}, p.handle s c r a = some e → e.removed = []
  notify : ∀ {s c l x e}, p.notify s c l x = some e → e.removed = []

section Descent

variable {β : Type u} [PartialOrder β]

/-- Every step lowers the work that is left, or keeps it and adds nothing: a served request
changes no result, a handler issues nothing, a delivery registers no listener. -/
structure Descent (p : Program S C ν η ρ α ℓ δ) (work : World S C ρ α ℓ → β)
    (inv : World S C ρ α ℓ → Prop) : Prop where
  serve : ∀ {w i r}, inv w → w.inflight[i]? = some ⟨r, none⟩ →
    work (w.served p i r true) < work w ∨ work (w.served p i r true) = work w ∧
      ∀ x ∈ w.watches, p.snapshot (p.serve w.server r true).1 x.listener =
        p.snapshot w.server x.listener
  handle : ∀ {w i r a e}, inv w → w.inflight[i]? = some ⟨r, some a⟩ →
    p.handle w.server w.client r a = some e →
    work ((w.landed i).perform e) < work w ∨
      work ((w.landed i).perform e) = work w ∧ e.requests = [] ∧ e.listeners = []
  deliver : ∀ {w j x e}, inv w → w.watches[j]? = some x → x.due = true →
    p.notify w.server w.client x.listener (some (p.snapshot w.server x.listener)) = some e →
    work ((w.delivered j x.listener).perform e) < work w ∨
      work ((w.delivered j x.listener).perform e) = work w ∧ e.listeners = []

/-- The work that is left, then the results to deliver, the requests to serve, and those
to handle. -/
private def rank (work : World S C ρ α ℓ → β) (w : World S C ρ α ℓ) : β ×ₗ Rank4 :=
  toLex (work w, rank4 0 (w.watches.countP Watch.due)
    (w.inflight.countP fun c => c.answer.isNone) w.inflight.length)

omit [DecidableEq ℓ] [DecidableEq δ] in
private theorem rank_lt {work : World S C ρ α ℓ → β}
    (h : work w' < work w ∨ work w' = work w ∧
      (w'.watches.countP Watch.due < w.watches.countP Watch.due ∨
        w'.watches.countP Watch.due ≤ w.watches.countP Watch.due ∧
          (w'.inflight.countP (fun c => c.answer.isNone) <
            w.inflight.countP (fun c => c.answer.isNone) ∨
            w'.inflight.countP (fun c => c.answer.isNone) ≤
              w.inflight.countP (fun c => c.answer.isNone) ∧
              w'.inflight.length < w.inflight.length))) : rank work w' < rank work w := by
  simp only [rank, Prod.Lex.toLex_lt_toLex]
  refine h.imp_right fun hsame => ⟨hsame.1, rank4_lt ?_⟩
  exact .inr ⟨Nat.le_refl _, hsame.2⟩

private theorem rank_falls {work : World S C ρ α ℓ → β} {inv : World S C ρ α ℓ → Prop}
    (lasting : Lasting p) (descent : Descent p work inv) (hinv : inv w) (own : Own p w w') :
    rank work w' < rank work w := by
  apply rank_lt
  cases own with
  | @served i r hi =>
    refine (descent.serve hinv hi).imp_right fun ⟨hwork, hsame⟩ => ⟨hwork, .inr ⟨?_, .inl ?_⟩⟩
    · rw [World.served, World.install_watches_same p w _ hsame]
    · exact unanswered_served hi
  | @handled i r a e hi he =>
    refine (descent.handle hinv hi he).imp_right fun ⟨hwork, hreq, hlis⟩ => ⟨hwork, ?_⟩
    have hwatches : ((w.landed i).perform e).watches = w.watches := by
      rw [World.perform_watches _ _ (lasting.handle he), hlis]
      exact List.append_nil _
    have hinflight : ((w.landed i).perform e).inflight = w.inflight.eraseIdx i := by
      rw [World.perform_inflight, hreq]
      exact List.append_nil _
    have hcount := unanswered_landed hi
    have hlength := (perm_landed hi).length_eq
    rw [List.length_cons] at hlength
    rw [hwatches, hinflight]
    exact .inr ⟨Nat.le_refl _, .inr ⟨Nat.le_of_eq hcount, by omega⟩⟩
  | @delivered j x e hj hdue he =>
    refine (descent.deliver hinv hj hdue he).imp_right fun ⟨hwork, hlis⟩ => ⟨hwork, .inl ?_⟩
    have hwatches : ((w.delivered j x.listener).perform e).watches =
        w.watches.set j ⟨x.listener, false⟩ := by
      rw [World.perform_watches _ _ (lasting.notify he), hlis]
      exact List.append_nil _
    have hcount := countP_served Watch.due ⟨x.listener, false⟩ hj
    rw [hdue] at hcount
    simp only [if_true, Bool.false_eq_true, if_false] at hcount
    rw [hwatches]
    omega

/-- A program whose work descends comes to rest. -/
theorem Descent.rests [WellFoundedLT β] {work : World S C ρ α ℓ → β}
    {inv : World S C ρ α ℓ → Prop} (descent : Descent p work inv) (lasting : Lasting p)
    (keep : ∀ {w w'}, inv w → Own p w w' → inv w') (h : inv w) : Rests p.step OnItsOwn w :=
  rests_of_rank wellFounded_lt (rank work)
    (fun _ _ _ hs hg hstep => keep hs (own_of_step hg hstep))
    (fun _ _ _ hs hg hstep => rank_falls lasting descent hs (own_of_step hg hstep)) h

end Descent

theorem reaches_own {P : World S C ρ α ℓ → Prop}
    (keep : ∀ {w w'}, P w → Own p w w' → P w')
    (hreach : Reaches p.step OnItsOwn w w') (h : P w) : P w' :=
  hreach.keeps (fun _ _ _ hs hg hstep => keep hs (own_of_step hg hstep)) h

section Issues

/-- No handler and no delivery registers a listener. -/
structure Steady (p : Program S C ν η ρ α ℓ δ) : Prop extends Lasting p where
  handle_registers : ∀ {s c r a e}, p.handle s c r a = some e → e.listeners = []
  notify_registers : ∀ {s c l x e}, p.notify s c l x = some e → e.listeners = []

theorem Steady.listeners_own (steady : Steady p) (own : Own p w w') :
    w'.watches.map Watch.listener = w.watches.map Watch.listener := by
  cases own with
  | served hi =>
    show (w.watches.map _).map Watch.listener = _
    rw [List.map_map]
    rfl
  | handled hi he =>
    rw [World.perform_watches _ _ (steady.handle he), steady.handle_registers he, List.map_nil,
      List.append_nil]
    rfl
  | delivered hj hdue he =>
    rw [World.perform_watches _ _ (steady.notify he), steady.notify_registers he, List.map_nil,
      List.append_nil]
    show (w.watches.set _ _).map Watch.listener = _
    obtain ⟨hlt, rfl⟩ := List.getElem?_eq_some_iff.mp hj
    have hself := List.set_getElem_self
      (show _ < (w.watches.map Watch.listener).length by rw [List.length_map]; exact hlt)
    rw [List.getElem_map] at hself
    rw [List.map_set]
    exact hself

/-- A step by itself that leaves more requests unanswered than it has found. -/
def Issuing (p : Program S C ν η ρ α ℓ δ) (w w' : World S C ρ α ℓ) : Prop :=
  Moves p.step OnItsOwn w w' ∧ unanswered w < unanswered w'

/-- However the steps follow one another, only finitely many of them issue requests. -/
def IssuesEnd (p : Program S C ν η ρ α ℓ δ) : World S C ρ α ℓ → Prop :=
  Acc fun t s => ∃ m, Reaches p.step OnItsOwn s m ∧ Issuing p m t

private theorem idle_falls (steady : Steady p) (own : Own p w w')
    (quiet : ¬ unanswered w < unanswered w') :
    rank4 (unanswered w') (w'.watches.countP Watch.due) w'.inflight.length 0 <
      rank4 (unanswered w) (w.watches.countP Watch.due) w.inflight.length 0 := by
  apply rank4_lt
  cases own with
  | served hi => exact .inl (unanswered_served hi)
  | @handled i r a e hi he =>
    have hlength := (perm_landed hi).length_eq
    rw [List.length_cons] at hlength
    rw [unanswered_perform, unanswered_landed hi] at quiet ⊢
    have hnone : e.requests = [] := List.length_eq_zero_iff.mp (by omega)
    have hwatches : ((w.landed i).perform e).watches = w.watches := by
      rw [World.perform_watches _ _ (steady.handle he), steady.handle_registers he]
      exact List.append_nil _
    have hinflight : ((w.landed i).perform e).inflight = w.inflight.eraseIdx i := by
      rw [World.perform_inflight, hnone]
      exact List.append_nil _
    rw [hwatches, hinflight, hnone, List.length_nil]
    omega
  | @delivered j x e hj hdue he =>
    have hcount := countP_served Watch.due ⟨x.listener, false⟩ hj
    rw [hdue] at hcount
    simp only [if_true, Bool.false_eq_true, if_false] at hcount
    have hwatches : ((w.delivered j x.listener).perform e).watches =
        w.watches.set j ⟨x.listener, false⟩ := by
      rw [World.perform_watches _ _ (steady.notify he), steady.notify_registers he]
      exact List.append_nil _
    have hdelivered : unanswered (w.delivered j x.listener) = unanswered w := rfl
    rw [unanswered_perform, hdelivered] at quiet ⊢
    rw [hwatches]
    omega

/-- A program issues requests forever exactly when it never rests. -/
theorem issuesEnd_iff_rests (steady : Steady p) : IssuesEnd p w ↔ Rests p.step OnItsOwn w := by
  have wf : WellFounded fun a b : Rank4 => a < b := wellFounded_lt
  constructor
  · intro h
    induction h with
    | intro s _ ih =>
      have key : ∀ b : Rank4, ∀ m,
          rank4 (unanswered m) (m.watches.countP Watch.due) m.inflight.length 0 = b →
          Reaches p.step OnItsOwn s m → Rests p.step OnItsOwn m := by
        intro b
        induction b using wf.induction with
        | _ b ihb =>
          rintro m rfl hreach
          refine Acc.intro m fun t hmove => ?_
          by_cases hissuing : unanswered m < unanswered t
          · exact ih t ⟨m, hreach, hmove, hissuing⟩
          · obtain ⟨ev, hg, hstep⟩ := id hmove
            have hfalls := idle_falls steady (own_of_step hg hstep) hissuing
            exact ihb _ hfalls t rfl (hreach.tail hmove)
      exact key _ s rfl .refl
  · intro h
    refine Subrelation.accessible ?_ (Acc.transGen h)
    rintro t s ⟨m, hreach, hissuing⟩
    have hpath : Relation.TransGen (Moves p.step OnItsOwn) s t := .tail' hreach hissuing.1
    exact Relation.transGen_swap.mpr hpath

end Issues

section Attended

variable (fixes : ℓ → δ → List ρ)

/-- The listener is due, or all that its result calls for is on its way. -/
def Attended (p : Program S C ν η ρ α ℓ δ) (l : ℓ) (w : World S C ρ α ℓ) : Prop :=
  ∃ x ∈ w.watches, x.listener = l ∧
    (x.due = true ∨ ∀ r ∈ fixes l (p.snapshot w.server l), ⟨r, none⟩ ∈ w.inflight)

/-- A repair shows in the result, and a delivery issues all that the result calls for. -/
structure Repairs (p : Program S C ν η ρ α ℓ δ) (l : ℓ) (w : World S C ρ α ℓ) : Prop where
  shows : ∀ r ∈ fixes l (p.snapshot w.server l),
    p.snapshot (p.serve w.server r true).1 l ≠ p.snapshot w.server l
  issues : ∀ {e}, p.notify w.server w.client l (some (p.snapshot w.server l)) = some e →
    ∀ r ∈ fixes l (p.snapshot w.server l), r ∈ e.requests

variable {fixes}

private theorem mem_perform_watches {e : Effect C ρ ℓ} (hremoved : e.removed = []) {x : Watch ℓ}
    (hx : x ∈ w.watches) : x ∈ (w.perform e).watches := by
  rw [World.perform_watches _ _ hremoved]
  exact List.mem_append_left _ hx

theorem Attended.own {l : ℓ} (lasting : Lasting p) (repairs : Repairs fixes p l w)
    (h : Attended fixes p l w) (own : Own p w w') : Attended fixes p l w' := by
  obtain ⟨x, hx, hl, hstate⟩ := h
  cases own with
  | @served i r hi =>
    refine ⟨_, List.mem_map_of_mem hx, hl, ?_⟩
    by_cases hsame : p.snapshot (p.serve w.server r true).1 l = p.snapshot w.server l
    · refine hstate.imp (fun hdue => by simp [hdue]) fun hpending q hq => ?_
      change q ∈ fixes l (p.snapshot (p.serve w.server r true).1 l) at hq
      rw [hsame] at hq
      refine pending_served hi (hpending q hq) ?_
      rintro rfl
      exact repairs.shows q hq hsame
    · left
      have hne : p.snapshot w.server x.listener ≠
          p.snapshot (p.serve w.server r true).1 x.listener := by
        rw [hl]
        exact fun heq => hsame heq.symm
      simp [hne]
  | handled hi he =>
    refine ⟨x, mem_perform_watches (lasting.handle he) hx, hl, hstate.imp_right ?_⟩
    exact fun hpending q hq => pending_perform (pending_landed hi (hpending q hq))
  | @delivered j y e hj hdue he =>
    by_cases hxy : x = y
    · subst hxy
      refine ⟨⟨x.listener, false⟩, mem_perform_watches (lasting.notify he) ?_, hl, .inr ?_⟩
      · exact (perm_served _ hj).mem_iff.mpr List.mem_cons_self
      · intro q hq
        rw [hl] at he
        have hissued := repairs.issues he q hq
        exact List.mem_append_right _ (List.mem_map_of_mem hissued)
    · refine ⟨x, mem_perform_watches (lasting.notify he) ?_, hl, hstate.imp_right ?_⟩
      · exact mem_served_of_ne _ hj hx hxy
      · exact fun hpending q hq => pending_perform (hpending q hq)

/-- At rest an attended listener finds nothing to repair. -/
theorem Attended.settled {l : ℓ} (h : Attended fixes p l w) (halt : Halted p.step OnItsOwn w)
    {e : Effect C ρ ℓ}
    (hnotify : p.notify w.server w.client l (some (p.snapshot w.server l)) = some e) :
    fixes l (p.snapshot w.server l) = [] := by
  obtain ⟨x, hx, rfl, hdue | hpending⟩ := h
  · rw [halted_due halt hx hnotify] at hdue
    cases hdue
  · refine List.eq_nil_iff_forall_not_mem.mpr fun r hr => ?_
    exact halted_served halt _ (hpending r hr) rfl

end Attended

end PlateChat.Foundation.Settle
