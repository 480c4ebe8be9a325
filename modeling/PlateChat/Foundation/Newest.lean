/- PlateChat/Foundation/Newest
   digest: The entries of highest rank in a dictionary whose entries come in any order. -/

import Mathlib.Data.List.Sort
import Mathlib.Data.Multiset.Filter
import PlateChat.Foundation.Dictionary
import PlateChat.Foundation.Merge

set_option autoImplicit false
set_option relaxedAutoImplicit false

namespace PlateChat.Foundation.Newest

open PlateChat.Foundation.Dictionary
open PlateChat.Foundation.Merge (before_asymm)

universe u v

section Cut

variable {τ : Type u} {r : τ → τ → Prop} {l : List τ}

private theorem before_cut (sorted : l.Pairwise r) (n : Nat) {x y : τ} (hx : x ∈ l.take n)
    (hy : y ∈ l.drop n) : r x y := by
  have hsplit : (l.take n ++ l.drop n).Pairwise r := by rwa [List.take_append_drop]
  exact (List.pairwise_append.mp hsplit).2.2 x hx y hy

theorem cut_or_kept (sorted : l.Pairwise r) (n : Nat) {x : τ} (hx : x ∈ l) :
    x ∈ l.take n ∨ x ∈ l.drop n ∧ (l.take n).length = n ∧ ∀ y ∈ l.take n, r y x := by
  have hsplit : x ∈ l.take n ++ l.drop n := by rwa [List.take_append_drop]
  rcases List.mem_append.mp hsplit with hkept | hcut
  · exact .inl hkept
  · have hlong : n ≤ l.length := by
      have hpos := List.length_pos_of_mem hcut
      rw [List.length_drop] at hpos
      omega
    exact .inr ⟨hcut, List.length_take_of_le hlong, fun y hy => before_cut sorted n hy hcut⟩

theorem take_of_countP {p : τ → Bool} (sorted : l.Pairwise r)
    (up : ∀ x y, r x y → p y = true → p x = true) {n : Nat} (h : n ≤ l.countP p) :
    ∀ x ∈ l.take n, p x = true := by
  intro x hx
  by_contra hfail
  have hdrop : (l.drop n).countP p = 0 := by
    rw [List.countP_eq_zero]
    exact fun y hy hp => hfail (up x y (before_cut sorted n hx hy) hp)
  have hcount : l.countP p = (l.take n).countP p + (l.drop n).countP p := by
    rw [← List.countP_append, List.take_append_drop]
  have hlt : (l.take n).countP p < (l.take n).length :=
    lt_of_le_of_ne List.countP_le_length fun heq => hfail (List.countP_eq_length.mp heq x hx)
  have hlen : (l.take n).length ≤ n := List.length_take_le n l
  omega

end Cut

variable {K : Type u} {V : Type v}

/-- The order in which a dictionary lists its entries. -/
structure Listing (K : Type u) (V : Type v) where
  order : Dict K V → List (Sigma fun _ : K => V)
  perm : ∀ d, (order d).Perm d.entries

def Listing.plain : Listing K V where
  order d := d.entries
  perm _ := List.Perm.refl _

variable (listing : Listing K V) (rank : K → Int) (n : Nat) (d : Dict K V)

def ranked : List (Sigma fun _ : K => V) :=
  (listing.order d).insertionSort fun p q => rank q.1 ≤ rank p.1

private theorem ranked_perm : (ranked listing rank d).Perm d.entries :=
  (List.perm_insertionSort _ _).trans (listing.perm d)

private theorem ranked_sorted :
    (ranked listing rank d).Pairwise fun p q => rank q.1 ≤ rank p.1 := by
  have : Std.Total fun p q : Sigma fun _ : K => V => rank q.1 ≤ rank p.1 :=
    ⟨fun p q => le_total _ _⟩
  have : IsTrans _ fun p q : Sigma fun _ : K => V => rank q.1 ≤ rank p.1 :=
    ⟨fun _ _ _ hpq hqs => hqs.trans hpq⟩
  exact List.pairwise_insertionSort _ _

/-- The `n` entries of highest rank; equal ranks stand as they are listed. -/
def newest : Dict K V where
  entries := (ranked listing rank d).take n
  nodupKeys := ((List.perm_nodupKeys (ranked_perm listing rank d)).mpr d.nodupKeys).sublist
    (List.take_sublist n _)

/-- The keys of rank above `m`. -/
def newer (m : Int) : Nat := d.keys.countP fun k => m < rank k

theorem newest_length_le : (newest listing rank n d).entries.length ≤ n :=
  List.length_take_le n _

variable {listing rank n d} [DecidableEq K]

theorem lookup_of_newest {k : K} {v : V} (h : (newest listing rank n d).lookup k = some v) :
    d.lookup k = some v := by
  have hmem : ⟨k, v⟩ ∈ (newest listing rank n d).entries := AList.mem_lookup_iff.mp h
  have hranked : ⟨k, v⟩ ∈ ranked listing rank d := List.mem_of_mem_take hmem
  exact AList.mem_lookup_iff.mpr ((ranked_perm listing rank d).mem_iff.mp hranked)

theorem lookup_newest_of_length_le (h : d.entries.length ≤ n) (k : K) :
    (newest listing rank n d).lookup k = d.lookup k := by
  apply AList.perm_lookup
  have hlen := (ranked_perm listing rank d).length_eq
  show ((ranked listing rank d).take n).Perm d.entries
  rw [List.take_of_length_le (by omega)]
  exact ranked_perm listing rank d

omit [DecidableEq K] in
theorem newer_entries (m : Int) (e : Dict K V) :
    newer rank e m = e.entries.countP fun p => m < rank p.1 := by
  unfold newer AList.keys List.keys
  rw [List.countP_map]
  rfl

/-- An entry that shares its rank with no other is kept, or `n` newer ones are. -/
theorem kept_or_newer {k : K} {v : V} (h : d.lookup k = some v)
    (alone : ∀ j ∈ d, rank j = rank k → j = k) :
    (newest listing rank n d).lookup k = some v ∨
      n ≤ newer rank (newest listing rank n d) (rank k) := by
  have hmem : ⟨k, v⟩ ∈ ranked listing rank d :=
    (ranked_perm listing rank d).mem_iff.mpr (AList.mem_lookup_iff.mp h)
  rcases cut_or_kept (ranked_sorted listing rank d) n hmem with hkept | ⟨hcut, hlen, hbefore⟩
  · exact .inl (AList.mem_lookup_iff.mpr hkept)
  right
  have hnodup := (List.perm_nodupKeys (ranked_perm listing rank d)).mpr d.nodupKeys
  have hall : ∀ p ∈ (ranked listing rank d).take n, rank k < rank p.1 := by
    intro p hp
    refine lt_of_le_of_ne (hbefore p hp) fun heq => ?_
    have hheld : p ∈ d.entries :=
      (ranked_perm listing rank d).mem_iff.mp (List.mem_of_mem_take hp)
    have hsame : p.1 = k := alone p.1 (List.mem_map_of_mem hheld) heq.symm
    have hne := (List.nodupKeys_iff_pairwise.mp hnodup)
    exact before_cut hne n hp hcut hsame
  rw [newer_entries]
  refine hlen.symm.le.trans (List.countP_eq_length.mpr ?_).symm.le
  exact fun p hp => decide_eq_true (hall p hp)

omit [DecidableEq K] in
/-- What `n` newer entries displace stays displaced by the newest of them. -/
theorem newer_newest {m : Int} (h : n ≤ newer rank d m) :
    n ≤ newer rank (newest listing rank n d) m := by
  rw [newer_entries] at h ⊢
  have hcount : n ≤ (ranked listing rank d).countP fun p => m < rank p.1 := by
    rwa [(ranked_perm listing rank d).countP_eq]
  have hall := take_of_countP (p := fun p => m < rank p.1) (ranked_sorted listing rank d)
    (fun x y hxy hy => decide_eq_true ((of_decide_eq_true hy).trans_le hxy)) hcount
  have hlen : ((ranked listing rank d).take n).length = n :=
    List.length_take_of_le (hcount.trans List.countP_le_length)
  exact hlen.symm.le.trans (List.countP_eq_length.mpr hall).symm.le

omit [DecidableEq K] in
theorem newer_lt_of_newest {p : Sigma fun _ : K => V}
    (h : p ∈ (newest listing rank n d).entries) : newer rank d (rank p.1) < n := by
  by_contra hmany
  have hcount : n ≤ (ranked listing rank d).countP fun q => rank p.1 < rank q.1 := by
    rw [(ranked_perm listing rank d).countP_eq, ← newer_entries]
    exact Nat.le_of_not_lt hmany
  have hall := take_of_countP (p := fun q => rank p.1 < rank q.1) (ranked_sorted listing rank d)
    (fun x y hxy hy => decide_eq_true ((of_decide_eq_true hy).trans_le hxy)) hcount
  exact lt_irrefl _ (of_decide_eq_true (hall p h))

omit [DecidableEq K] in
theorem newest_sorted :
    (newest listing rank n d).entries.Pairwise fun p q => rank q.1 ≤ rank p.1 :=
  (ranked_sorted listing rank d).sublist (List.take_sublist n _)

omit [DecidableEq K] in
theorem newer_add_tied_le {p : Sigma fun _ : K => V}
    (h : p ∈ (newest listing rank n d).entries) :
    newer rank d (rank p.1) +
      (newest listing rank n d).entries.countP (fun q => rank q.1 = rank p.1) ≤ n := by
  have hdrop : ((ranked listing rank d).drop n).countP (fun q => rank p.1 < rank q.1) = 0 := by
    rw [List.countP_eq_zero]
    intro q hq hlt
    have hle := before_cut (ranked_sorted listing rank d) n h hq
    exact absurd (of_decide_eq_true hlt) (not_lt.mpr hle)
  have hnewer : newer rank d (rank p.1) =
      ((ranked listing rank d).take n).countP fun q => rank p.1 < rank q.1 := by
    rw [newer_entries, ← (ranked_perm listing rank d).countP_eq,
      ← List.take_append_drop n (ranked listing rank d), List.countP_append, hdrop,
      List.take_append_drop, Nat.add_zero]
  have hapart : ((ranked listing rank d).take n).countP (fun q => rank q.1 = rank p.1) ≤
      ((ranked listing rank d).take n).countP
        fun q => decide (¬ decide (rank p.1 < rank q.1) = true) := by
    refine List.countP_mono_left fun q _ hq => decide_eq_true fun hlt => ?_
    rw [of_decide_eq_true hq] at hlt
    exact lt_irrefl _ (of_decide_eq_true hlt)
  have htotal := List.length_eq_countP_add_countP (l := (ranked listing rank d).take n)
    fun q : Sigma fun _ : K => V => decide (rank p.1 < rank q.1)
  have hlen : ((ranked listing rank d).take n).length ≤ n := List.length_take_le n _
  show newer rank d (rank p.1) +
    ((ranked listing rank d).take n).countP (fun q => rank q.1 = rank p.1) ≤ n
  omega

section First

variable [DecidableEq V]

/-- The listing that names one entry first. -/
def Listing.first (p : Sigma fun _ : K => V) : Listing K V where
  order d := if p ∈ d.entries then p :: d.entries.erase p else d.entries
  perm d := by
    split
    · exact (List.perm_cons_erase ‹_›).symm
    · exact List.Perm.refl _

theorem newest_first_of_newer_lt {p : Sigma fun _ : K => V} (h : p ∈ d.entries)
    (few : newer rank d (rank p.1) < n) :
    p ∈ (newest (Listing.first p) rank n d).entries := by
  have hranked := ranked_perm (Listing.first p) rank d
  have hsorted := ranked_sorted (Listing.first p) rank d
  have hnodup : (ranked (Listing.first p) rank d).Nodup :=
    ((List.perm_nodupKeys hranked).mpr d.nodupKeys).nodup
  refine (cut_or_kept hsorted n (hranked.mem_iff.mpr h)).resolve_right ?_
  rintro ⟨hcut, hlen, hbefore⟩
  have hall : ∀ q ∈ (ranked (Listing.first p) rank d).take n, rank p.1 < rank q.1 := by
    intro q hq
    refine lt_of_le_of_ne (hbefore q hq) fun htied => ?_
    -- a tied entry is named after `p`, so it would be sorted after `p`
    have horder : (Listing.first p).order d = p :: d.entries.erase p := if_pos h
    have hne : q ≠ p := by
      rintro rfl
      have happend := List.take_append_drop n (ranked (Listing.first q) rank d)
      rw [← happend] at hnodup
      exact (List.nodup_append.mp hnodup).2.2 q hq q hcut rfl
    have hmem : q ∈ d.entries.erase p :=
      (List.mem_erase_of_ne hne).mpr (hranked.mem_iff.mp (List.mem_of_mem_take hq))
    have hfirst : [p, q].Sublist ((Listing.first p).order d) := by
      rw [horder]
      exact (List.singleton_sublist.mpr hmem).cons_cons p
    have hranks : rank q.1 ≤ rank p.1 := htied.symm.le
    have hpq : [p, q].Sublist (ranked (Listing.first p) rank d) :=
      List.pair_sublist_insertionSort (r := fun a b : Sigma fun _ : K => V => rank b.1 ≤ rank a.1)
        hranks hfirst
    have hqp : [q, p].Sublist (ranked (Listing.first p) rank d) := by
      rw [← List.take_append_drop n (ranked (Listing.first p) rank d)]
      exact (List.singleton_sublist.mpr hq).append (List.singleton_sublist.mpr hcut)
    exact before_asymm hnodup hpq hqp
  have hcount : n ≤ (ranked (Listing.first p) rank d).countP fun q => rank p.1 < rank q.1 := by
    rw [← List.take_append_drop n (ranked (Listing.first p) rank d), List.countP_append]
    have htake := List.countP_eq_length.mpr fun q hq => decide_eq_true (hall q hq)
    omega
  rw [hranked.countP_eq, ← newer_entries] at hcount
  omega

/-- A property of the newest entries, however the dictionary is listed. -/
theorem forall_newest_iff {P : (Sigma fun _ : K => V) → Prop} :
    (∀ listing : Listing K V, ∀ p ∈ (newest listing rank n d).entries, P p) ↔
      ∀ p ∈ d.entries, newer rank d (rank p.1) < n → P p := by
  refine ⟨fun h p hp few => h _ p (newest_first_of_newer_lt hp few), fun h listing p hp => ?_⟩
  have hmem := (ranked_perm listing rank d).mem_iff.mp (List.mem_of_mem_take hp)
  exact h p hmem (newer_lt_of_newest hp)

end First

section Multisets

variable {τ σ : Type u}

/-- `kept` are `n` of highest rank among `all`, or all of them. -/
structure IsNewest (rank : τ → Int) (n : Nat) (all kept : Multiset τ) : Prop where
  split : ∃ dropped : Multiset τ, all = kept + dropped ∧ ∀ k ∈ kept, ∀ d ∈ dropped, rank d ≤ rank k
  card : kept.card = min n all.card

theorem IsNewest.map {rank : τ → Int} {n : Nat} {all kept : Multiset τ}
    (h : IsNewest rank n all kept) {rank' : σ → Int} (f : τ → σ) (hf : ∀ x, rank' (f x) = rank x) :
    IsNewest rank' n (all.map f) (kept.map f) where
  split := by
    obtain ⟨dropped, rfl, hle⟩ := h.split
    refine ⟨dropped.map f, Multiset.map_add _ _ _, fun y hy z hz => ?_⟩
    obtain ⟨k, hk, rfl⟩ := Multiset.mem_map.mp hy
    obtain ⟨d, hd, rfl⟩ := Multiset.mem_map.mp hz
    rw [hf, hf]
    exact hle k hk d hd
  card := by
    rw [Multiset.card_map, Multiset.card_map]
    exact h.card

theorem IsNewest.le_of_countP_lt {rank : τ → Int} {n : Nat} {all kept : Multiset τ}
    (h : IsNewest rank n all kept) {m : Int}
    (lost : kept.countP (fun x => rank x = m) < all.countP fun x => rank x = m) :
    ∀ k ∈ kept, m ≤ rank k := by
  obtain ⟨dropped, rfl, hle⟩ := h.split
  rw [Multiset.countP_add] at lost
  obtain ⟨d, hd, rfl⟩ := Multiset.countP_pos.mp (by omega : 0 < dropped.countP fun x => rank x = m)
  exact fun k hk => hle k hk d hd

omit [DecidableEq K] in
theorem isNewest_newest (listing : Listing K V) (rank : K → Int) (n : Nat) (d : Dict K V) :
    IsNewest (fun p : Sigma fun _ : K => V => rank p.1) n (d.entries : Multiset _)
      (newest listing rank n d).entries where
  split := by
    refine ⟨((ranked listing rank d).drop n : List _), ?_, fun p hp q hq => ?_⟩
    · rw [newest, Multiset.coe_add, List.take_append_drop]
      exact Multiset.coe_eq_coe.mpr (ranked_perm listing rank d).symm
    · exact before_cut (ranked_sorted listing rank d) n hp hq
  card := by
    rw [Multiset.coe_card, Multiset.coe_card, newest, List.length_take,
      (ranked_perm listing rank d).length_eq]

end Multisets

end PlateChat.Foundation.Newest
