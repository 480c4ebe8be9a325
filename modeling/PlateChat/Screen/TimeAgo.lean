/- PlateChat/Screen/TimeAgo
   digest: How old a row says it is. -/

import Mathlib.Data.Prod.Lex
import Mathlib.Data.Rat.Floor
import Mathlib.Tactic.Linarith
import Mathlib.Tactic.NormNum
import PlateChat.Foundation.Rounding
import PlateChat.Model.Histories

set_option autoImplicit false
set_option relaxedAutoImplicit false

/-!
The age in seconds falls into one of six ranges or into none, and then the years are counted.
The ranges begin at 0, so that this is done of dates ahead of the clock, too.
-/

namespace PlateChat.Screen.TimeAgo

open PlateChat.Foundation.Rounding
open PlateChat.Model.Histories (repr_injective toList_repr_ofNat toList_repr_negSucc)

/-- `Int(x)` of a floating-point number traps if 64 bits do not hold it. -/
def int (x : Rat) : Option Int :=
  if -9223372036854775808 ≤ truncated x ∧ truncated x ≤ 9223372036854775807 then some (truncated x)
  else none

inductive AgeUnit
  | minutes
  | hours
  | days
  | weeks
  | months
  | years
  deriving DecidableEq

/-- A label is a number of units, or says that there is none yet. -/
inductive Label
  | justNow
  | ago (unit : AgeUnit) (number : Int)
  deriving DecidableEq

def AgeUnit.text : AgeUnit → String
  | .minutes => "分前"
  | .hours => "時間前"
  | .days => "日前"
  | .weeks => "週間前"
  | .months => "ヶ月前"
  | .years => "年前"

def Label.text : Label → String
  | .justNow => "たった今"
  | .ago unit number => number.repr ++ unit.text

/-- The label of an age in seconds. -/
def labelOf (interval : Rat) : Option Label :=
  if 0 ≤ interval ∧ interval < 60 then some .justNow
  else if 60 ≤ interval ∧ interval < 3600 then
    (int (interval / 60)).map fun minutes => .ago .minutes minutes
  else if 3600 ≤ interval ∧ interval < 86400 then
    (int (interval / 60)).map fun minutes => .ago .hours (minutes.tdiv 60)
  else if 86400 ≤ interval ∧ interval < 604800 then
    (int (interval / 60)).map fun minutes => .ago .days ((minutes.tdiv 60).tdiv 24)
  else if 604800 ≤ interval ∧ interval < 2678400 then
    (int (interval / 60)).map fun minutes => .ago .weeks (((minutes.tdiv 60).tdiv 24).tdiv 7)
  else if 2678400 ≤ interval ∧ interval < 31536000 then
    (int (interval / 60 / 60 / 24 / 30.4)).map fun months => .ago .months months
  else (int (interval / 60)).map fun minutes => .ago .years (((minutes.tdiv 60).tdiv 24).tdiv 365)

/-- `now` is the receiver of the method. -/
def timeAgoString (now fromDate : Rat) : Option String := (labelOf (now - fromDate)).map Label.text

def numeral (c : Char) : Bool := c.isDigit || c = '-'

private theorem repr_numeral (n : Int) :
    n.repr.toList ≠ [] ∧ ∀ c ∈ n.repr.toList, numeral c = true := by
  have hdigits : ∀ m, ∀ c ∈ Nat.toDigits 10 m, numeral c = true := by
    intro m c hc
    rw [numeral, Nat.isDigit_of_mem_toDigits (by decide) (by decide) hc, Bool.true_or]
  cases n with
  | ofNat m =>
    rw [toList_repr_ofNat]
    exact ⟨Nat.toDigits_ne_nil, hdigits m⟩
  | negSucc m =>
    rw [toList_repr_negSucc]
    exact ⟨List.cons_ne_nil _ _, List.forall_mem_cons.mpr ⟨rfl, hdigits _⟩⟩

private theorem takeWhile_text (unit : AgeUnit) (number : Int) :
    (Label.ago unit number).text.toList.takeWhile numeral = number.repr.toList := by
  have hunit : unit.text.toList.takeWhile numeral = [] := by
    cases unit <;> decide
  rw [Label.text, String.toList_append, List.takeWhile_append_of_pos (repr_numeral number).2,
    hunit, List.append_nil]

private theorem justNow_ne (unit : AgeUnit) (number : Int) :
    Label.justNow.text ≠ (Label.ago unit number).text := by
  intro h
  have hnumber := takeWhile_text unit number
  rw [← h] at hnumber
  exact (repr_numeral number).1 (hnumber.symm.trans (by decide))

private theorem unit_injective : Function.Injective AgeUnit.text := by
  intro u v h
  cases u <;> cases v <;> first | rfl | exact absurd h (by decide)

theorem text_injective : Function.Injective Label.text := by
  intro l l' h
  cases l with
  | justNow =>
    cases l' with
    | justNow => rfl
    | ago unit number => exact absurd h (justNow_ne unit number)
  | ago unit number =>
    cases l' with
    | justNow => exact absurd h.symm (justNow_ne unit number)
    | ago unit' number' =>
      have hnumber : number = number' := by
        have hlist := takeWhile_text unit number
        rw [h, takeWhile_text] at hlist
        exact (repr_injective (String.toList_injective hlist)).symm
      subst hnumber
      rw [unit_injective ((String.append_right_inj _).mp h)]

theorem timeAgoString_eq_some {now fromDate : Rat} {l : Label} :
    timeAgoString now fromDate = some l.text ↔ labelOf (now - fromDate) = some l := by
  rw [timeAgoString, Option.map_eq_some_iff]
  constructor
  · rintro ⟨l', hl', htext⟩
    rw [hl', text_injective htext]
  · intro h
    exact ⟨l, h, rfl⟩

namespace AgeUnit

/-- The seconds of a unit; a month has 30.4 days. -/
def size : AgeUnit → Rat
  | .minutes => 60
  | .hours => 3600
  | .days => 86400
  | .weeks => 604800
  | .months => 2626560
  | .years => 31536000

/-- The first age that is told in a unit. -/
def start : AgeUnit → Rat
  | .minutes => 60
  | .hours => 3600
  | .days => 86400
  | .weeks => 604800
  | .months => 2678400
  | .years => 31536000

/-- The later, the older. -/
def index : AgeUnit → Nat
  | .minutes => 1
  | .hours => 2
  | .days => 3
  | .weeks => 4
  | .months => 5
  | .years => 6

/-- The ages that are told in a unit: those ahead of the clock in years. -/
def Covers : AgeUnit → Rat → Prop
  | .minutes, i => 60 ≤ i ∧ i < 3600
  | .hours, i => 3600 ≤ i ∧ i < 86400
  | .days, i => 86400 ≤ i ∧ i < 604800
  | .weeks, i => 604800 ≤ i ∧ i < 2678400
  | .months, i => 2678400 ≤ i ∧ i < 31536000
  | .years, i => i < 0 ∨ 31536000 ≤ i

end AgeUnit

/-- Labels are ordered by their units, then by their numbers. -/
def Label.rank : Label → Nat ×ₗ Int
  | .justNow => toLex (0, 0)
  | .ago unit number => toLex (unit.index, number)

section Ages

variable {i j : Rat} {u v : AgeUnit} {l m : Label}

theorem AgeUnit.size_pos (u : AgeUnit) : 0 < u.size := by
  cases u <;> norm_num [AgeUnit.size]

theorem AgeUnit.index_pos (u : AgeUnit) : 0 < u.index := by
  cases u <;> decide

theorem AgeUnit.index_le (u : AgeUnit) : u.index ≤ AgeUnit.years.index := by
  cases u <;> decide

theorem AgeUnit.index_injective : Function.Injective AgeUnit.index := by
  intro u v h
  cases u <;> cases v <;> first | rfl | exact absurd h (by decide)

theorem AgeUnit.Covers.start_le (h : u.Covers i) (past : 0 ≤ i) : u.start ≤ i := by
  cases u with
  | years => exact h.resolve_left (not_lt.mpr past)
  | _ => exact h.1

theorem AgeUnit.Covers.lt_start (h : u.Covers i) (hlt : u.index < v.index) : i < v.start := by
  cases u <;> cases v <;> first
    | exact absurd hlt (by decide)
    | exact lt_of_lt_of_le h.2 (by norm_num [AgeUnit.start])

/-- Of two ages that have passed the longer one is not told in the smaller unit. -/
theorem AgeUnit.Covers.mono (hu : u.Covers i) (hv : v.Covers j) (past : 0 ≤ i) (h : i ≤ j) :
    u.index ≤ v.index := by
  by_contra hlt
  have hstart := hv.lt_start (not_le.mp hlt)
  exact absurd (hu.start_le past) (not_le.mpr (lt_of_le_of_lt h hstart))

private theorem months_eq (i : Rat) : i / 60 / 60 / 24 / 30.4 = i / AgeUnit.months.size := by
  rw [div_div, div_div, div_div]
  norm_num [AgeUnit.size]

private theorem ago_of_int {x : Rat} {number : Int → Int}
    (h : (int x).map (fun n => Label.ago u (number n)) = some l)
    (hnumber : number (truncated x) = truncated (i / u.size)) :
    l = .ago u (truncated (i / u.size)) := by
  obtain ⟨n, hn, rfl⟩ := Option.map_eq_some_iff.mp h
  obtain ⟨_, hn⟩ := Option.ite_none_right_eq_some.mp hn
  rw [← Option.some.inj hn, hnumber]

/-- Whatever the divisions, a label counts the whole units of the age. -/
theorem labelOf_cases (h : labelOf i = some l) : 0 ≤ i ∧ i < 60 ∧ l = .justNow ∨
    ∃ u : AgeUnit, u.Covers i ∧ l = .ago u (truncated (i / u.size)) := by
  unfold labelOf at h
  split at h
  · rename_i hrange
    exact .inl ⟨hrange.1, hrange.2, (Option.some.inj h).symm⟩
  right
  split at h
  · exact ⟨.minutes, ‹_›, ago_of_int h rfl⟩
  split at h
  · refine ⟨.hours, ‹_›, ago_of_int h ?_⟩
    rw [truncated_tdiv_ofNat, div_div]
    norm_num [AgeUnit.size]
  split at h
  · refine ⟨.days, ‹_›, ago_of_int h ?_⟩
    rw [truncated_tdiv_ofNat, truncated_tdiv_ofNat, div_div, div_div]
    norm_num [AgeUnit.size]
  split at h
  · refine ⟨.weeks, ‹_›, ago_of_int h ?_⟩
    rw [truncated_tdiv_ofNat, truncated_tdiv_ofNat, truncated_tdiv_ofNat, div_div, div_div, div_div]
    norm_num [AgeUnit.size]
  split at h
  · exact ⟨.months, ‹_›, ago_of_int h (congrArg truncated (months_eq i))⟩
  · refine ⟨.years, ?_, ago_of_int h ?_⟩
    · rcases lt_or_ge i 0 with hahead | hage
      · exact .inl hahead
      · right
        by_contra hlt
        grind
    · rw [truncated_tdiv_ofNat, truncated_tdiv_ofNat, truncated_tdiv_ofNat, div_div, div_div,
        div_div]
      norm_num [AgeUnit.size]

theorem AgeUnit.Covers.eq_years (h : u.Covers i) (hrange : i < 0 ∨ 31536000 ≤ i) :
    u = .years := by
  by_contra hne
  have hlt : u.index < AgeUnit.years.index :=
    lt_of_le_of_ne u.index_le fun heq => hne (AgeUnit.index_injective heq)
  have hyear : i < 31536000 := h.lt_start hlt
  rcases hrange with hahead | hold
  · cases u with
    | years => exact hne rfl
    | _ => exact absurd (h.1.trans_lt hahead) (by norm_num)
  · exact absurd hyear (not_lt.mpr hold)

theorem Label.justNow_rank_lt (u : AgeUnit) (n : Int) :
    Label.justNow.rank < (Label.ago u n).rank :=
  Prod.Lex.toLex_lt_toLex.mpr (.inl u.index_pos)

theorem Label.justNow_rank_le (l : Label) : Label.justNow.rank ≤ l.rank := by
  cases l with
  | justNow => exact le_rfl
  | ago u n => exact (Label.justNow_rank_lt u n).le

theorem Label.ago_rank_le {n n' : Int} : (Label.ago u n).rank ≤ (Label.ago v n').rank ↔
    u.index < v.index ∨ u.index = v.index ∧ n ≤ n' :=
  Prod.Lex.toLex_le_toLex

private theorem unit_le (hu : u.Covers i) (hv : v.Covers j) (h : i ≤ j)
    (apart : ¬ (i < 0 ∧ 0 ≤ j ∧ j < 31536000)) : u.index ≤ v.index := by
  rcases le_or_gt 0 i with hpast | hahead
  · exact hu.mono hv hpast h
  · have hyears : v = .years := by
      refine hv.eq_years ?_
      by_contra hrange
      rw [not_or, not_lt, not_le] at hrange
      exact apart ⟨hahead, hrange⟩
    rw [hyears]
    exact u.index_le

private theorem int_isSome {x : Rat} (lower : -9223372036854775808 ≤ x)
    (upper : x ≤ 9223372036854775807) : (int x).isSome = true := by
  have hlower : truncated ((-9223372036854775808 : Int) : Rat) ≤ truncated x :=
    truncated_mono (by push_cast; exact lower)
  have hupper : truncated x ≤ truncated ((9223372036854775807 : Int) : Rat) :=
    truncated_mono (by push_cast; exact upper)
  rw [truncated_intCast] at hlower hupper
  rw [int, if_pos ⟨hlower, hupper⟩]
  rfl

/-- What 64 bits hold in minutes has a label. -/
theorem labelOf_isSome (lower : -9223372036854775808 ≤ i / 60)
    (upper : i / 60 ≤ 9223372036854775807) : (labelOf i).isSome = true := by
  have hminutes := int_isSome lower upper
  unfold labelOf
  split
  · rfl
  iterate 4
    split
    · rw [Option.isSome_map]
      exact hminutes
  split
  · rename_i hrange
    rw [Option.isSome_map, months_eq, AgeUnit.size]
    exact int_isSome (by linarith) (by linarith)
  · rw [Option.isSome_map]
    exact hminutes

/-- Of two ages the longer one has the older label, unless it lies within the last year and the
other one ahead of the clock. -/
theorem rank_le_iff (h : i ≤ j) (hl : labelOf i = some l) (hm : labelOf j = some m) :
    l.rank ≤ m.rank ↔ ¬ (i < 0 ∧ 0 ≤ j ∧ j < 31536000) := by
  constructor
  · rintro hle ⟨hahead, hpast, hyear⟩
    rcases labelOf_cases hl with ⟨hpast', _⟩ | ⟨u, hu, rfl⟩
    · exact absurd hahead (not_lt.mpr hpast')
    obtain rfl := hu.eq_years (.inl hahead)
    rcases labelOf_cases hm with ⟨_, _, rfl⟩ | ⟨v, hv, rfl⟩
    · exact absurd hle (not_le.mpr (Label.justNow_rank_lt _ _))
    · have hindex : v.index = AgeUnit.years.index := by
        have hle' := Label.ago_rank_le.mp hle
        have hbound := v.index_le
        omega
      obtain rfl := AgeUnit.index_injective hindex
      exact hv.elim (not_lt.mpr hpast) (not_le.mpr hyear)
  · intro apart
    rcases labelOf_cases hl with ⟨_, _, rfl⟩ | ⟨u, hu, rfl⟩
    · exact Label.justNow_rank_le m
    rcases labelOf_cases hm with ⟨hpast, hlt, rfl⟩ | ⟨v, hv, rfl⟩
    · exfalso
      rcases le_or_gt 0 i with hpast' | hahead
      · have hminute : (60 : Rat) ≤ u.start := by
          cases u <;> norm_num [AgeUnit.start]
        linarith [hu.start_le hpast']
      · exact apart ⟨hahead, hpast, by linarith⟩
    · rw [Label.ago_rank_le]
      rcases lt_or_eq_of_le (unit_le hu hv h apart) with hlt | heq
      · exact .inl hlt
      · obtain rfl := AgeUnit.index_injective heq
        have hunits : i / u.size ≤ j / u.size := div_le_div_of_nonneg_right h u.size_pos.le
        exact .inr ⟨rfl, truncated_mono hunits⟩

end Ages

/-- For every time and any two dates: the later one has no older label than the earlier one
exactly if it is not ahead of the clock with the earlier one within the last 365 days. -/
theorem later_not_older_iff (now d₁ d₂ : Rat) (h : d₁ ≤ d₂) (l₁ l₂ : Label)
    (h₁ : timeAgoString now d₁ = some l₁.text) (h₂ : timeAgoString now d₂ = some l₂.text) :
    l₂.rank ≤ l₁.rank ↔ ¬ (now < d₂ ∧ d₁ ≤ now ∧ now < d₁ + 31536000) := by
  rw [timeAgoString_eq_some] at h₁ h₂
  rw [rank_le_iff (by linarith) h₂ h₁, sub_neg, sub_nonneg, sub_lt_iff_lt_add']

/-- What was written a second ago is new; what is a second ahead is a year old. -/
theorem ahead_is_older : ¬ ∀ now d₁ d₂ : Rat, d₁ ≤ d₂ → ∀ l₁ l₂ : Label,
    timeAgoString now d₁ = some l₁.text → timeAgoString now d₂ = some l₂.text →
      l₂.rank ≤ l₁.rank := by
  intro claim
  have hrank := claim 100 99 101 (by norm_num) .justNow (.ago .years 0) (by decide +kernel)
    (by decide +kernel)
  revert hrank
  decide

theorem later_not_older_iff_minutes : (Label.ago .minutes 2).rank ≤ (Label.ago .hours 3).rank ↔
    ¬ ((10800 : Rat) < 10650 ∧ (0 : Rat) ≤ 10800 ∧ (10800 : Rat) < 0 + 31536000) :=
  later_not_older_iff 10800 0 10650 (by norm_num) (.ago .hours 3) (.ago .minutes 2)
    (by decide +kernel) (by decide +kernel)

end PlateChat.Screen.TimeAgo
