/- PlateChat/Foundation/Dictionary
   digest: Dictionaries with unique keys and the field-wise merge of two of them. -/

import Mathlib.Data.List.AList

set_option autoImplicit false
set_option relaxedAutoImplicit false

namespace PlateChat.Foundation.Dictionary

universe u v

variable {K : Type u} {V : Type v} [DecidableEq K]

/-- A dictionary holds each key at most once. -/
abbrev Dict (K : Type u) (V : Type v) := AList (fun _ : K => V)

/-- Writing `new` over `old` replaces exactly the keys that `new` holds. -/
theorem lookup_merge (new old : Dict K V) (k : K) :
    (new ∪ old).lookup k = (new.lookup k).or (old.lookup k) := by
  by_cases h : k ∈ new
  · obtain ⟨v, hv⟩ := Option.isSome_iff_exists.mp (AList.lookup_isSome.mpr h)
    simp only [AList.lookup_union_left h, hv, Option.some_or]
  · simp only [AList.lookup_union_right h, AList.lookup_eq_none.mpr h, Option.none_or]

theorem lookup_singleton (k j : K) (v : V) :
    (AList.singleton k v : Dict K V).lookup j = if j = k then some v else none := by
  by_cases h : j = k
  · subst h
    rw [if_pos rfl]
    exact List.dlookup_cons_eq _ _ _
  · rw [if_neg h]
    exact List.dlookup_cons_ne _ _ h

theorem lookup_insert_erase (m : Dict K V) {k e : K} (v : V) (h : k ≠ e) :
    ((m.insert k v).erase e).lookup k = some v := by
  rw [AList.lookup_erase_ne h, AList.lookup_insert]

theorem lookup_insert_erase_ne (m : Dict K V) {k e j : K} (v : V) (h : j ≠ k) :
    ((m.insert k v).erase e).lookup j = if j = e then none else m.lookup j := by
  split
  · subst j; exact AList.lookup_erase e _
  · rw [AList.lookup_erase_ne ‹_›, AList.lookup_insert_ne h]

/-- The entries that pass a test on their key and value. -/
def keep (f : K → V → Bool) (d : Dict K V) : Dict K V where
  entries := d.entries.filter fun e => f e.1 e.2
  nodupKeys := d.nodupKeys.sublist List.filter_sublist

theorem lookup_keep (f : K → V → Bool) (d : Dict K V) (k : K) :
    (keep f d).lookup k = (d.lookup k).filter (f k) := by
  apply Option.ext
  intro v
  have hkept : v ∈ (keep f d).lookup k ↔ ⟨k, v⟩ ∈ d.entries ∧ f k v = true :=
    AList.mem_lookup_iff.trans List.mem_filter
  have hheld : v ∈ d.lookup k ↔ ⟨k, v⟩ ∈ d.entries := AList.mem_lookup_iff
  rw [← Option.mem_def, ← Option.mem_def, hkept, ← hheld, Option.mem_filter_iff]

def mapValues {W : Type v} (f : V → W) (d : Dict K V) : Dict K W where
  entries := d.entries.map fun e => ⟨e.1, f e.2⟩
  nodupKeys := by
    show ((d.entries.map fun e => (⟨e.1, f e.2⟩ : Sigma fun _ : K => W)).map Sigma.fst).Nodup
    rw [List.map_map]
    exact d.nodupKeys

theorem lookup_mapValues {W : Type v} (f : V → W) (d : Dict K V) (k : K) :
    (mapValues f d).lookup k = (d.lookup k).map f :=
  @List.dlookup_map₂ K _ (fun _ => V) (fun _ => W) d.entries (fun _ => f) k

omit [DecidableEq K] in
theorem keys_mapValues {W : Type v} (f : V → W) (d : Dict K V) :
    (mapValues f d).keys = d.keys := by
  show (d.entries.map fun e => (⟨e.1, f e.2⟩ : Sigma fun _ : K => W)).map Sigma.fst = _
  rw [List.map_map]
  rfl

end PlateChat.Foundation.Dictionary
