/- PlateChat/Foundation/Recency
   digest: A list whose touched entries come to the front, and who stands where afterwards. -/

import Mathlib.Data.List.Dedup
import Mathlib.Data.List.Perm.Subperm

set_option autoImplicit false
set_option relaxedAutoImplicit false

namespace PlateChat.Foundation.Recency

universe u

variable {κ : Type u} [DecidableEq κ] {l ks : List κ} {x : κ} {i : Nat}

/-- `k` comes to the front, whether or not it was there before. -/
def touch (l : List κ) (k : κ) : List κ := k :: l.filter fun x => x ≠ k

theorem nodup_touch (h : l.Nodup) (k : κ) : (touch l k).Nodup := by
  refine List.nodup_cons.mpr ⟨fun hk => ?_, h.filter _⟩
  simp at hk

theorem mem_foldl_touch (h : x ∈ l) (ks : List κ) : x ∈ ks.foldl touch l := by
  induction ks generalizing l with
  | nil => exact h
  | cons k ks ih =>
    refine ih ?_
    by_cases hx : x = k <;> simp [touch, hx, h]

theorem length_le_foldl_touch (nodup : l.Nodup) (ks : List κ) :
    l.length ≤ (ks.foldl touch l).length :=
  (nodup.subperm fun _ hx => mem_foldl_touch hx ks).length_le

theorem foldl_touch (ks l : List κ) :
    ks.foldl touch l = ks.dedup.reverse ++ l.filter fun x => x ∉ ks := by
  induction ks generalizing l with
  | nil => simp
  | cons k ks ih =>
    have hrest : (l.filter fun x => x ≠ k).filter (fun x => x ∉ ks) =
        l.filter fun x => x ∉ k :: ks := by
      rw [List.filter_filter]
      refine List.filter_congr fun x _ => ?_
      simp [Bool.and_comm]
    rw [List.foldl_cons, ih, touch]
    by_cases hk : k ∈ ks
    · rw [List.dedup_cons_of_mem hk, List.filter_cons_of_neg (by simpa using hk), hrest]
    · rw [List.dedup_cons_of_notMem hk, List.filter_cons_of_pos (by simpa using hk), hrest,
        List.reverse_cons, List.append_assoc, List.singleton_append]

omit [DecidableEq κ] in
theorem getElem?_middle {before after : List κ} (hbefore : x ∉ before) (hafter : x ∉ after) :
    (before ++ x :: after)[i]? = some x ↔ before.length = i := by
  constructor
  · intro h
    rcases Nat.lt_trichotomy i before.length with hlt | heq | hgt
    · rw [List.getElem?_append_left hlt] at h
      exact absurd (List.mem_of_getElem? h) hbefore
    · exact heq.symm
    · obtain ⟨j, rfl⟩ : ∃ j, i = before.length + (j + 1) := ⟨i - before.length - 1, by omega⟩
      rw [List.getElem?_append_right (Nat.le_add_right _ _), Nat.add_sub_cancel_left,
        List.getElem?_cons_succ] at h
      exact absurd (List.mem_of_getElem? h) hafter
  · rintro rfl
    simp

/-- As many different entries as there are places above fill these places only if they were
there. -/
theorem dedup_length_iff {above : List κ} (nodup : above.Nodup) :
    ks.dedup.length + (above.filter fun x => x ∉ ks).length = above.length ↔
      ∀ k ∈ ks, k ∈ above := by
  have hsplit : (above.filter fun x => x ∈ ks).length + (above.filter fun x => x ∉ ks).length =
      above.length := by
    simpa using (List.length_eq_length_filter_add (l := above) fun x => decide (x ∈ ks)).symm
  have hsub : (above.filter fun x => x ∈ ks) ⊆ ks.dedup := by
    intro x hx
    exact List.mem_dedup.mpr (of_decide_eq_true (List.mem_filter.mp hx).2)
  have hsubperm := (nodup.filter fun x => decide (x ∈ ks)).subperm hsub
  constructor
  · intro h k hk
    have hperm := hsubperm.perm_of_length_le (by omega)
    have hmem := hperm.mem_iff.mpr (List.mem_dedup.mpr hk)
    exact (List.mem_filter.mp hmem).1
  · intro h
    have hback : ks.dedup ⊆ above.filter fun x => x ∈ ks := by
      intro k hk
      have hk := List.mem_dedup.mp hk
      exact List.mem_filter.mpr ⟨h k hk, decide_eq_true hk⟩
    have hle := hsubperm.length_le
    have hge := ((List.nodup_dedup ks).subperm hback).length_le
    omega

/-- Who has not been touched keeps its place exactly if only entries above it were. -/
theorem getElem?_untouched (nodup : l.Nodup) (hi : l[i]? = some x) (hx : x ∉ ks) :
    (ks.foldl touch l)[i]? = some x ↔ ∀ k ∈ ks, k ∈ l.take i := by
  obtain ⟨hlt, hget⟩ := List.getElem?_eq_some_iff.mp hi
  have hsplit : l = l.take i ++ x :: l.drop (i + 1) := by
    rw [← hget, List.getElem_cons_drop, List.take_append_drop]
  have hlength : (l.take i).length = i := by
    rw [List.length_take]
    omega
  have hnodup := nodup
  rw [hsplit] at hnodup
  have hmiddle := List.nodup_middle.mp hnodup
  obtain ⟨hout, hrest⟩ := List.nodup_cons.mp hmiddle
  rw [List.mem_append, not_or] at hout
  have hfold : ks.foldl touch l =
      (ks.dedup.reverse ++ (l.take i).filter fun x => x ∉ ks) ++
        x :: (l.drop (i + 1)).filter fun x => x ∉ ks := by
    rw [foldl_touch]
    conv_lhs => rw [hsplit]
    rw [List.filter_append, List.filter_cons_of_pos (by simpa using hx), List.append_assoc]
  have habove : x ∉ ks.dedup.reverse ++ (l.take i).filter fun x => x ∉ ks := by
    rw [List.mem_append, List.mem_reverse, List.mem_dedup, not_or]
    exact ⟨hx, fun h => hout.1 (List.mem_filter.mp h).1⟩
  rw [hfold, getElem?_middle habove fun h => hout.2 (List.mem_filter.mp h).1,
    List.length_append, List.length_reverse]
  have hiff : ks.dedup.length + ((l.take i).filter fun x => x ∉ ks).length =
      (l.take i).length ↔ ∀ k ∈ ks, k ∈ l.take i :=
    dedup_length_iff (hrest.sublist (List.sublist_append_left _ _))
  rwa [hlength] at hiff

/-- Who has been touched is at the index that counts the entries touched after it. -/
theorem getElem?_touched (l : List κ) {before after : List κ} (hx : x ∉ after) :
    ((before ++ x :: after).foldl touch l)[i]? = some x ↔ after.dedup.length = i := by
  have hfold : (before ++ x :: after).foldl touch l = after.dedup.reverse ++
      x :: ((before.foldl touch l).filter fun y => y ≠ x).filter fun y => y ∉ after := by
    rw [List.foldl_append, List.foldl_cons, foldl_touch after, touch,
      List.filter_cons_of_pos (by simpa using hx)]
  have hfirst : x ∉ after.dedup.reverse := by
    rwa [List.mem_reverse, List.mem_dedup]
  rw [hfold, getElem?_middle hfirst, List.length_reverse]
  intro h
  simp at h

end PlateChat.Foundation.Recency
