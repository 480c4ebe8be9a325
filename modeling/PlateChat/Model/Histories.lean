/- PlateChat/Model/Histories
   digest: The visit histories of two collections, their keys in seconds, and their typed reads. -/

import Mathlib.Order.Lattice
import PlateChat.Foundation.Newest
import PlateChat.Model.Members

set_option autoImplicit false
set_option relaxedAutoImplicit false

namespace PlateChat.Model.Histories

open PlateChat.Foundation.Dictionary PlateChat.Foundation.Newest PlateChat.Model.Members

/-- The whole seconds of a `Timestamp`, within the range that its initializer admits. -/
structure Timestamp where
  seconds : Int
  lower : -62135596800 ≤ seconds
  upper : seconds < 253402300800
  deriving DecidableEq

instance : Preorder Timestamp where
  le s t := s.seconds ≤ t.seconds
  le_refl _ := Int.le_refl _
  le_trans _ _ _ := Int.le_trans

instance (s t : Timestamp) : Decidable (s ≤ t) :=
  inferInstanceAs (Decidable (s.seconds ≤ t.seconds))

theorem Timestamp.ext_seconds {s t : Timestamp} (h : s.seconds = t.seconds) : s = t := by
  cases s
  cases t
  cases h
  rfl

/-- `"\(Timestamp().seconds)"`. -/
def decimal (t : Timestamp) : String := t.seconds.repr

def digitsOf (cs : List Char) : Option Nat :=
  if cs ≠ [] ∧ cs.all Char.isDigit then some (Nat.ofDigitChars 10 cs 0) else none

/-- An optional sign and at least one digit. -/
def signedOf : List Char → Option Int
  | '-' :: cs => (digitsOf cs).map fun n => -(n : Int)
  | '+' :: cs => (digitsOf cs).map fun n => (n : Int)
  | cs => (digitsOf cs).map fun n => (n : Int)

/-- `Int(key)`, which is `nil` on what 64 bits do not hold. -/
def intOf (key : String) : Option Int :=
  (signedOf key.toList).filter fun n => -9223372036854775808 ≤ n ∧ n ≤ 9223372036854775807

theorem digitsOf_toDigits (n : Nat) : digitsOf (Nat.toDigits 10 n) = some n := by
  have hdigits : ∀ c ∈ Nat.toDigits 10 n, c.isDigit :=
    fun c hc => Nat.isDigit_of_mem_toDigits (by omega) (by omega) hc
  rw [digitsOf, if_pos ⟨Nat.toDigits_ne_nil, List.all_eq_true.mpr hdigits⟩,
    Nat.ofDigitChars_ten_toDigits]

private theorem signedOf_digits {cs : List Char} (h : ∀ c ∈ cs, c.isDigit) :
    signedOf cs = (digitsOf cs).map fun n => (n : Int) := by
  unfold signedOf
  split
  · exact absurd (h '-' List.mem_cons_self) (by decide)
  · exact absurd (h '+' List.mem_cons_self) (by decide)
  · rfl

theorem toList_repr_ofNat (n : Nat) : (Int.ofNat n).repr.toList = Nat.toDigits 10 n :=
  Nat.toList_repr

theorem toList_repr_negSucc (n : Nat) :
    (Int.negSucc n).repr.toList = '-' :: Nat.toDigits 10 (n + 1) := by
  show ("-" ++ Nat.repr (n + 1)).toList = _
  rw [String.toList_append, Nat.toList_repr]
  rfl

theorem signedOf_repr (n : Int) : signedOf n.repr.toList = some n := by
  cases n with
  | ofNat n =>
    have hdigits : ∀ c ∈ Nat.toDigits 10 n, c.isDigit :=
      fun c hc => Nat.isDigit_of_mem_toDigits (by omega) (by omega) hc
    rw [toList_repr_ofNat, signedOf_digits hdigits, digitsOf_toDigits]
    rfl
  | negSucc n =>
    rw [toList_repr_negSucc, signedOf, digitsOf_toDigits]
    rfl

theorem repr_injective : Function.Injective Int.repr := by
  intro m n h
  have hread := signedOf_repr m
  rw [h, signedOf_repr] at hread
  exact (Option.some.inj hread).symm

theorem intOf_repr {n : Int} (lower : -9223372036854775808 ≤ n)
    (upper : n ≤ 9223372036854775807) : intOf n.repr = some n := by
  unfold intOf
  rw [signedOf_repr, Option.filter_some, if_pos (decide_eq_true ⟨lower, upper⟩)]

theorem intOf_decimal (t : Timestamp) : intOf (decimal t) = some t.seconds := by
  have hlower := t.lower
  have hupper := t.upper
  exact intOf_repr (by omega) (by omega)

theorem decimal_injective {s t : Timestamp} (h : decimal s = decimal t) : s = t :=
  Timestamp.ext_seconds (repr_injective h)

/-- The order of the keys; sorting traps before it meets a key that is no number. -/
def secondOf (key : String) : Int := (intOf key).getD 0

theorem secondOf_decimal (t : Timestamp) : secondOf (decimal t) = t.seconds := by
  unfold secondOf
  rw [intOf_decimal]
  rfl

/-- `ymd` formats a point in time as a day. `read` reads a key as a number of seconds and
formats that: it is `nil` on what `TimeInterval(_:)` does not read, and agrees with `ymd`
on whole numbers. -/
structure Calendar (Day : Type) where
  ymd : Timestamp → Day
  read : String → Option Day
  read_int : ∀ key n, intOf key = some n → ∃ day, read key = some day ∧
    ∀ t : Timestamp, t.seconds = n → day = ymd t

theorem Calendar.read_decimal {Day : Type} (cal : Calendar Day) (t : Timestamp) :
    cal.read (decimal t) = some (cal.ymd t) := by
  obtain ⟨day, hread, hday⟩ := cal.read_int _ _ (intOf_decimal t)
  rw [hread, hday t rfl]

/-- The calendar of a device in UTC, days counted from 1970. -/
def Calendar.utc : Calendar Int where
  ymd t := t.seconds / 86400
  read key := (intOf key).map fun n => n / 86400
  read_int key n h := ⟨n / 86400, by rw [h]; rfl, fun t ht => by rw [ht]⟩

theorem Calendar.utc_monotone {s t : Timestamp} (h : s ≤ t) :
    Calendar.utc.ymd s ≤ Calendar.utc.ymd t := by
  have hseconds : s.seconds ≤ t.seconds := h
  show s.seconds / 86400 ≤ t.seconds / 86400
  omega

/-- A stored field value; what is not a string fails the typed read. -/
inductive Value
  | text (s : String)
  | other (n : Nat)
  deriving DecidableEq

def Value.asText : Value → Option String
  | .text s => some s
  | .other _ => none

/-- A document of `footprint` or `article_reply_log`; the field may be missing. -/
structure HistoryDoc where
  history : Option (Dict String Value)
  deriving DecidableEq

abbrev History := Dict String String

/-- `as? [String : String]`. -/
def strings (m : Dict String Value) : Option History :=
  if ∀ e ∈ m.entries, e.2.asText.isSome then some (mapValues (fun v => v.asText.getD "") m)
  else none

/-- What both document models hold once parsed. -/
structure HistoryLog where
  key : Uid
  history : History
  deriving DecidableEq

/-- Who has visited the profile of `key`. -/
abbrev Footprint := HistoryLog

/-- Who has replied to an article of `key`. -/
abbrev ArticleReplyLog := HistoryLog

def HistoryLog.ofDocument (key : Uid) (document : HistoryDoc) : Except ModelError HistoryLog :=
  match document.history.bind strings with
  | some history => .ok ⟨key, history⟩
  | none => .error .parseError

/-- The stored entry of one key. -/
def entryOf (document : Option HistoryDoc) (key : String) : Option Value :=
  (document.bind HistoryDoc.history).bind (AList.lookup key)

/-- `setData(["history" : data])`, which replaces the document. -/
def historyData (data : History) : HistoryDoc := ⟨some (mapValues Value.text data)⟩

theorem entryOf_historyData (data : History) (key : String) :
    entryOf (some (historyData data)) key = (data.lookup key).map Value.text :=
  lookup_mapValues _ _ _

/-- What was written parses, and parses as what was written. -/
theorem ofDocument_historyData (key : Uid) (data : History) :
    HistoryLog.ofDocument key (historyData data) = .ok ⟨key, data⟩ := by
  have hstrings : strings (mapValues Value.text data) = some data := by
    unfold strings
    rw [if_pos]
    · congr 1
      apply AList.ext
      show (data.entries.map _).map _ = data.entries
      rw [List.map_map]
      exact List.map_id _
    · intro e he
      obtain ⟨p, _, rfl⟩ := List.mem_map.mp he
      rfl
  show (match strings (mapValues Value.text data) with
    | some history => Except.ok (HistoryLog.mk key history)
    | none => .error ModelError.parseError) = _
  rw [hstrings]

end PlateChat.Model.Histories
