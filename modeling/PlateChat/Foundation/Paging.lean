/- PlateChat/Foundation/Paging
   digest: Pages of an ordered collection, each behind the last document of the one before. -/

import Mathlib.Data.List.Sort
import Mathlib.Order.Lattice

set_option autoImplicit false
set_option relaxedAutoImplicit false

namespace PlateChat.Foundation.Paging

universe u v

variable {D : Type u} {ρ : Type v} [LinearOrder ρ] (rank : D → ρ)

/-- The collection in the order of its ranks. -/
def ordered (docs : List D) : List D := docs.insertionSort fun a b => rank a ≤ rank b

/-- What stands behind the cursor, and all of it without one. -/
def behind (cursor : Option D) (docs : List D) : List D :=
  (ordered rank docs).filter fun d => ∀ c ∈ cursor, rank c < rank d

def page (limit : Nat) (cursor : Option D) (docs : List D) : List D :=
  (behind rank cursor docs).take limit

/-- The documents number `k * limit + 1` to `(k + 1) * limit`. -/
def slice (limit k : Nat) (docs : List D) : List D :=
  ((ordered rank docs).drop (k * limit)).take limit

section Order

variable {rank} {docs : List D} {cursor : Option D} {limit : Nat}

theorem ordered_perm : (ordered rank docs).Perm docs := List.perm_insertionSort _ _

@[simp] theorem length_ordered : (ordered rank docs).length = docs.length :=
  ordered_perm.length_eq

@[simp] theorem mem_ordered {d : D} : d ∈ ordered rank docs ↔ d ∈ docs := ordered_perm.mem_iff

theorem ordered_sorted : (ordered rank docs).Pairwise fun a b => rank a ≤ rank b := by
  have : Std.Total fun a b : D => rank a ≤ rank b := ⟨fun a b => le_total _ _⟩
  have : IsTrans D fun a b => rank a ≤ rank b := ⟨fun _ _ _ hab hbc => hab.trans hbc⟩
  exact List.pairwise_insertionSort _ _

theorem ordered_strict (distinct : (docs.map rank).Nodup) :
    (ordered rank docs).Pairwise fun a b => rank a < rank b := by
  have hnodup : ((ordered rank docs).map rank).Nodup :=
    ((ordered_perm.map rank).nodup_iff).mpr distinct
  have hne : (ordered rank docs).Pairwise fun a b => rank a ≠ rank b :=
    List.pairwise_map.mp hnodup
  exact (ordered_sorted.and hne).imp fun h => lt_of_le_of_ne h.1 h.2

theorem mem_behind {d : D} :
    d ∈ behind rank cursor docs ↔ d ∈ docs ∧ ∀ c ∈ cursor, rank c < rank d := by
  rw [behind, List.mem_filter, mem_ordered, decide_eq_true_eq]

theorem behind_sorted : (behind rank cursor docs).Pairwise fun a b => rank a ≤ rank b :=
  ordered_sorted.filter _

@[simp] theorem behind_none : behind rank none docs = ordered rank docs := by
  simp [behind]

theorem mem_behind_of_page {d : D} (h : d ∈ page rank limit cursor docs) :
    d ∈ behind rank cursor docs := List.mem_of_mem_take h

theorem mem_of_page {d : D} (h : d ∈ page rank limit cursor docs) : d ∈ docs :=
  (mem_behind.mp (mem_behind_of_page h)).1

/-- A page holds, with each of its documents, those between the cursor and it. -/
theorem mem_page_of_lt {a b : D} (hb : b ∈ page rank limit cursor docs)
    (ha : a ∈ behind rank cursor docs) (hab : rank a < rank b) :
    a ∈ page rank limit cursor docs := by
  have hsplit := List.take_append_drop limit (behind rank cursor docs)
  have hsorted : ((behind rank cursor docs).take limit ++
      (behind rank cursor docs).drop limit).Pairwise fun a b => rank a ≤ rank b := by
    rw [hsplit]
    exact behind_sorted
  rw [← hsplit, List.mem_append] at ha
  refine ha.resolve_right fun hdrop => ?_
  have hba := (List.pairwise_append.mp hsorted).2.2 b hb a hdrop
  exact absurd hab (not_lt.mpr hba)

theorem le_last {d last : D} (hlast : (page rank limit cursor docs).getLast? = some last)
    (hd : d ∈ page rank limit cursor docs) : rank d ≤ rank last := by
  obtain ⟨init, hinit⟩ := List.getLast?_eq_some_iff.mp hlast
  have hsorted : (page rank limit cursor docs).Pairwise fun a b => rank a ≤ rank b :=
    behind_sorted.sublist (List.take_sublist _ _)
  rw [hinit] at hsorted hd
  rcases List.mem_append.mp hd with hd | hd
  · exact (List.pairwise_append.mp hsorted).2.2 d hd last List.mem_cons_self
  · exact le_of_eq (congrArg rank (List.mem_singleton.mp hd))

/-- The last document of a page is as far as another if fewer than a page's worth of what it
was chosen from stand before that one, and not all of it does. -/
theorem le_last_iff {d f : D} (last : (page rank limit cursor docs).getLast? = some d) :
    rank f ≤ rank d ↔
      (behind rank cursor docs).countP (fun x => rank x < rank f) < limit ∧
        ∃ x ∈ behind rank cursor docs, rank f ≤ rank x := by
  obtain ⟨init, hinit⟩ := List.getLast?_eq_some_iff.mp last
  have hsplit : init ++ [d] ++ (behind rank cursor docs).drop limit = behind rank cursor docs := by
    rw [← hinit]
    exact List.take_append_drop limit _
  have hsorted : (behind rank cursor docs).Pairwise fun a b => rank a ≤ rank b := behind_sorted
  rw [← hsplit] at hsorted
  obtain ⟨hpage, _, hcross⟩ := List.pairwise_append.mp hsorted
  have hbelow : ∀ x ∈ init, rank x ≤ rank d :=
    fun x hx => (List.pairwise_append.mp hpage).2.2 x hx d List.mem_cons_self
  have hlen : (init ++ [d]).length ≤ limit := hinit ▸ List.length_take_le limit _
  rw [List.length_append, List.length_singleton] at hlen
  constructor
  · intro hle
    have hmem : d ∈ behind rank cursor docs := by
      rw [← hsplit]
      simp
    have hdrop : ((behind rank cursor docs).drop limit).countP (fun x => rank x < rank f) = 0 := by
      rw [List.countP_eq_zero]
      intro x hx hlt
      have hdx := hcross d (by simp) x hx
      exact absurd (of_decide_eq_true hlt) (not_lt.mpr (hle.trans hdx))
    have hinit : init.countP (fun x => rank x < rank f) ≤ init.length := List.countP_le_length
    refine ⟨?_, d, hmem, hle⟩
    rw [← hsplit, List.countP_append, List.countP_append, hdrop]
    simp [not_lt.mpr hle]
    omega
  · rintro ⟨hcount, x, hx, hfx⟩
    by_contra hlt
    rw [not_le] at hlt
    have hpage : ∀ y ∈ init ++ [d], rank y < rank f := by
      intro y hy
      rcases List.mem_append.mp hy with hy | hy
      · exact (hbelow y hy).trans_lt hlt
      · obtain rfl := List.mem_singleton.mp hy
        exact hlt
    have hall : (init ++ [d]).countP (fun x => rank x < rank f) = (init ++ [d]).length :=
      List.countP_eq_length.mpr fun y hy => decide_eq_true (hpage y hy)
    have hdrop : x ∈ (behind rank cursor docs).drop limit := by
      rw [← hsplit] at hx
      refine (List.mem_append.mp hx).resolve_left fun hx => ?_
      exact absurd (hpage x hx) (not_lt.mpr hfx)
    have hfull : (init ++ [d]).length = limit := by
      rw [← hinit]
      refine List.length_take_of_le ?_
      have hpos := List.length_pos_of_mem hdrop
      rw [List.length_drop] at hpos
      omega
    rw [← hsplit, List.countP_append, hall, hfull] at hcount
    omega

end Order

section Laps

variable {rank} {docs : List D} {cursor : Option D} {limit k : Nat}

/-- Behind the cursor stands the collection from the slice `k` on. -/
def StandsAt (rank : D → ρ) (limit : Nat) (docs : List D) (k : Nat) (cursor : Option D) : Prop :=
  behind rank cursor docs = (ordered rank docs).drop (k * limit)

theorem standsAt_none : StandsAt rank limit docs 0 none := by
  simp [StandsAt]

theorem StandsAt.page_eq (h : StandsAt rank limit docs k cursor) :
    page rank limit cursor docs = slice rank limit k docs := by
  rw [page, h, slice]

theorem behind_some (distinct : (docs.map rank).Nodup) {c : D} {before after : List D}
    (hsplit : ordered rank docs = before ++ c :: after) :
    behind rank (some c) docs = after := by
  have hstrict := ordered_strict distinct
  rw [hsplit] at hstrict
  obtain ⟨_, hrest, hcross⟩ := List.pairwise_append.mp hstrict
  rw [List.pairwise_cons] at hrest
  have hbefore : before.filter (fun d => rank c < rank d) = [] := by
    rw [List.filter_eq_nil_iff]
    intro d hd hlt
    have hfirst := hcross d hd c List.mem_cons_self
    exact lt_asymm hfirst (of_decide_eq_true hlt)
  have hafter : after.filter (fun d => rank c < rank d) = after := by
    rw [List.filter_eq_self]
    exact fun d hd => decide_eq_true (hrest.1 d hd)
  have hbehind : behind rank (some c) docs =
      (ordered rank docs).filter fun d => rank c < rank d := by
    simp [behind]
  rw [hbehind, hsplit, List.filter_append, List.filter_cons_of_neg (by simp), hbefore, hafter,
    List.nil_append]

theorem behind_getElem (distinct : (docs.map rank).Nodup) {i : Nat}
    (hi : i < (ordered rank docs).length) :
    behind rank (some (ordered rank docs)[i]) docs = (ordered rank docs).drop (i + 1) := by
  have hsplit : ordered rank docs = (ordered rank docs).take i ++
      (ordered rank docs)[i] :: (ordered rank docs).drop (i + 1) := by
    rw [← List.drop_eq_getElem_cons hi, List.take_append_drop]
  exact behind_some distinct hsplit

theorem slice_eq_nil_iff (hlimit : 0 < limit) :
    slice rank limit k docs = [] ↔ docs.length ≤ k * limit := by
  rw [slice, List.take_eq_nil_iff, List.drop_eq_nil_iff, length_ordered]
  exact or_iff_right (Nat.pos_iff_ne_zero.mp hlimit)

theorem StandsAt.next (distinct : (docs.map rank).Nodup) (hlimit : 0 < limit)
    (h : StandsAt rank limit docs k cursor) :
    StandsAt rank limit docs (if k * limit < docs.length then k + 1 else 0)
      (page rank limit cursor docs).getLast? := by
  rw [h.page_eq]
  split
  · rename_i hmore
    -- the last place of the slice, which may be a short one
    have hplace : min ((k + 1) * limit) docs.length - 1 < (ordered rank docs).length := by
      rw [length_ordered]
      omega
    have hmul : (k + 1) * limit = k * limit + limit := Nat.succ_mul k limit
    have hlast : (slice rank limit k docs).getLast? =
        some (ordered rank docs)[min ((k + 1) * limit) docs.length - 1] := by
      rw [List.getLast?_eq_getElem?, slice, List.length_take, List.length_drop, length_ordered,
        List.getElem?_take_of_lt (by omega), List.getElem?_drop]
      have hindex : k * limit + (min limit (docs.length - k * limit) - 1) =
          min ((k + 1) * limit) docs.length - 1 := by
        omega
      rw [hindex]
      exact List.getElem?_eq_getElem hplace
    rw [hlast, StandsAt, behind_getElem distinct hplace]
    rcases Nat.le_total ((k + 1) * limit) docs.length with hle | hle
    · congr 1
      omega
    · rw [List.drop_eq_nil_of_le, List.drop_eq_nil_of_le]
      · rw [length_ordered]
        exact hle
      · rw [length_ordered]
        omega
  · rename_i hend
    rw [(slice_eq_nil_iff hlimit).mpr (not_lt.mp hend)]
    exact standsAt_none

/-- How many loads lead through the collection and past its end, the empty page included. -/
def lap (limit n : Nat) : Nat := (n + limit - 1) / limit + 1

theorem lt_lap_iff (hlimit : 0 < limit) {n : Nat} : k * limit < n ↔ k + 1 < lap limit n := by
  have hdiv : k < (n + limit - 1) / limit ↔ (k + 1) * limit ≤ n + limit - 1 :=
    Nat.le_div_iff_mul_le hlimit
  have hmul : (k + 1) * limit = k * limit + limit := Nat.succ_mul k limit
  unfold lap
  omega

/-- Each load moves on by one slice, round and round. -/
theorem StandsAt.load (distinct : (docs.map rank).Nodup) (hlimit : 0 < limit) {j : Nat}
    (h : StandsAt rank limit docs (j % lap limit docs.length) cursor) :
    StandsAt rank limit docs ((j + 1) % lap limit docs.length)
      (page rank limit cursor docs).getLast? := by
  have hnext := h.next distinct hlimit
  have hpos : 0 < lap limit docs.length := Nat.succ_pos _
  have hlt := Nat.mod_lt j hpos
  have hmod : (j + 1) % lap limit docs.length =
      (j % lap limit docs.length + 1) % lap limit docs.length := by
    rw [Nat.mod_add_mod]
  split at hnext
  · rename_i hmore
    rw [hmod, Nat.mod_eq_of_lt ((lt_lap_iff hlimit).mp hmore)]
    exact hnext
  · rename_i hend
    have hlast : j % lap limit docs.length + 1 = lap limit docs.length := by
      rw [lt_lap_iff hlimit] at hend
      omega
    rw [hmod, hlast, Nat.mod_self]
    exact hnext

/-- Going round is going on exactly in the first round, and at the empty page of each. -/
theorem slice_mod_eq_iff (hlimit : 0 < limit) {j : Nat} :
    slice rank limit (j % lap limit docs.length) docs = slice rank limit j docs ↔
      j < lap limit docs.length ∨ j % lap limit docs.length + 1 = lap limit docs.length := by
  have hpos : 0 < lap limit docs.length := Nat.succ_pos _
  have hlt := Nat.mod_lt j hpos
  by_cases hfirst : j < lap limit docs.length
  · rw [Nat.mod_eq_of_lt hfirst]
    exact iff_of_true rfl (.inl hfirst)
  · have hpast : slice rank limit j docs = [] := by
      rw [slice_eq_nil_iff hlimit, ← not_lt, lt_lap_iff hlimit]
      omega
    rw [hpast, slice_eq_nil_iff hlimit, ← not_lt, lt_lap_iff hlimit]
    omega

theorem mem_take_load (hlimit : 0 < limit) {j : Nat} {d : D} :
    d ∈ (ordered rank docs).take ((j + 1) * limit) ↔
      d ∈ slice rank limit (j % lap limit docs.length) docs ∨
        d ∈ (ordered rank docs).take (j * limit) := by
  by_cases hfirst : j < lap limit docs.length
  · rw [Nat.mod_eq_of_lt hfirst, Nat.succ_mul, List.take_add, List.mem_append, slice]
    exact or_comm
  · have hend : docs.length ≤ j * limit := by
      rw [← not_lt, lt_lap_iff hlimit]
      omega
    have hmul : (j + 1) * limit = j * limit + limit := Nat.succ_mul j limit
    have hall : ∀ m, docs.length ≤ m → (ordered rank docs).take m = ordered rank docs :=
      fun m hm => List.take_of_length_le (by rwa [length_ordered])
    rw [hall _ (by omega), hall _ hend]
    refine ⟨.inr, fun h => h.elim (fun hslice => ?_) id⟩
    exact List.mem_of_mem_drop (List.mem_of_mem_take hslice)

end Laps

section Leading

variable {rank} {docs : List D} {p : D → Prop}

/-- The documents that pass a test are the first ones of the order. -/
def Leading (rank : D → ρ) (docs : List D) (p : D → Prop) : Prop :=
  ∃ m, ∀ d ∈ docs, p d ↔ d ∈ (ordered rank docs).take m

theorem leading_congr {p' : D → Prop} (h : ∀ d ∈ docs, (p d ↔ p' d)) :
    Leading rank docs p ↔ Leading rank docs p' :=
  exists_congr fun _ => forall₂_congr fun d hd => iff_congr (h d hd) Iff.rfl

private theorem leading_of_closed {l : List D} (strict : l.Pairwise fun a b => rank a < rank b)
    (closed : ∀ a ∈ l, ∀ b ∈ l, rank a < rank b → p b → p a) :
    ∃ m, ∀ d ∈ l, p d ↔ d ∈ l.take m := by
  induction l with
  | nil => exact ⟨0, fun _ h => nomatch h⟩
  | cons x l ih =>
    obtain ⟨hfirst, hrest⟩ := List.pairwise_cons.mp strict
    by_cases hx : p x
    · obtain ⟨m, hm⟩ := ih hrest fun a ha b hb => closed a (by simp [ha]) b (by simp [hb])
      refine ⟨m + 1, fun d hd => ?_⟩
      rw [List.take_succ_cons, List.mem_cons]
      rcases List.mem_cons.mp hd with rfl | hrest
      · exact iff_of_true hx (.inl rfl)
      · have hne : d ≠ x := by
          rintro rfl
          exact lt_irrefl _ (hfirst d hrest)
        rw [hm d hrest, or_iff_right hne]
    · refine ⟨0, fun d hd => iff_of_false (fun hp => hx ?_) (by simp)⟩
      rcases List.mem_cons.mp hd with rfl | hrest
      · exact hp
      · exact closed x (by simp) d (by simp [hrest]) (hfirst d hrest) hp

theorem leading_iff (distinct : (docs.map rank).Nodup) :
    Leading rank docs p ↔ ∀ a ∈ docs, ∀ b ∈ docs, rank a < rank b → p b → p a := by
  constructor
  · rintro ⟨m, hm⟩ a ha b hb hab hp
    have hpage : ∀ d, d ∈ page rank m none docs ↔ d ∈ (ordered rank docs).take m := by
      simp [page]
    rw [hm b hb, ← hpage] at hp
    rw [hm a ha, ← hpage]
    exact mem_page_of_lt hp (by simp [ha]) hab
  · intro hclosed
    obtain ⟨m, hm⟩ := leading_of_closed (ordered_strict distinct) (p := p) fun a ha b hb =>
      hclosed a (mem_ordered.mp ha) b (mem_ordered.mp hb)
    exact ⟨m, fun d hd => hm d (mem_ordered.mpr hd)⟩

/-- A page behind one of the first documents, or without a cursor, adds to them without a gap,
and no other page does that adds anything. -/
theorem leading_page_iff (distinct : (docs.map rank).Nodup) (limit : Nat) {cursor : Option D}
    (known : ∀ c ∈ cursor, c ∈ docs) (leading : Leading rank docs p) :
    Leading rank docs (fun d => p d ∨ d ∈ page rank limit cursor docs) ↔
      page rank limit cursor docs = [] ∨ ∀ c ∈ cursor, p c := by
  rw [leading_iff distinct] at leading ⊢
  constructor
  · intro h
    rcases hpage : page rank limit cursor docs with _ | ⟨b, rest⟩
    · exact .inl rfl
    · refine .inr fun c hc => ?_
      have hb : b ∈ page rank limit cursor docs := by
        rw [hpage]
        exact List.mem_cons_self
      have hcb := (mem_behind.mp (mem_behind_of_page hb)).2 c hc
      refine (h c (known c hc) b (mem_of_page hb) hcb (.inr hb)).resolve_right fun hself => ?_
      exact lt_irrefl _ ((mem_behind.mp (mem_behind_of_page hself)).2 c hc)
  · intro h a ha b hb hab hp
    rcases hp with hp | hpage
    · exact .inl (leading a ha b hb hab hp)
    · rcases h with hnil | hheld
      · rw [hnil] at hpage
        cases hpage
      · by_cases hbehind : ∀ c ∈ cursor, rank c < rank a
        · exact .inr (mem_page_of_lt hpage (mem_behind.mpr ⟨ha, hbehind⟩) hab)
        · push Not at hbehind
          obtain ⟨c, hc, hac⟩ := hbehind
          rcases hac.lt_or_eq with hlt | heq
          · exact .inl (leading a ha c (known c hc) hlt (hheld c hc))
          · have hsame : a = c :=
              List.inj_on_of_nodup_map distinct ha (known c hc) heq
            exact .inl (hsame ▸ hheld c hc)

end Leading

end PlateChat.Foundation.Paging
