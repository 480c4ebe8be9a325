/- PlateChat/Model/Members
   digest: The two block documents, their typed reads and their merging writes. -/

import PlateChat.Foundation.Dictionary

set_option autoImplicit false
set_option relaxedAutoImplicit false

namespace PlateChat.Model.Members

open PlateChat.Foundation.Dictionary

abbrev Uid := String

inductive ModelError
  | parseError
  deriving DecidableEq

/-- What a service hands its caller in place of a value. -/
inductive ServiceError
  | fetchError
  | updateError
  | noExistsError
  deriving DecidableEq

/-- A document of `user_block` or `user_blocked`; the field may be missing. -/
structure MembersDoc where
  members : Option (Dict Uid Bool)
  deriving DecidableEq

/-- What both document models hold once parsed. -/
structure MemberList where
  key : Uid
  members : Dict Uid Bool
  deriving DecidableEq

/-- Those `key` has blocked. -/
abbrev UserBlock := MemberList

/-- Those who have blocked `key`. -/
abbrev UserBlocked := MemberList

def MemberList.ofDocument (key : Uid) (document : MembersDoc) : Except ModelError MemberList :=
  match document.members with
  | some members => .ok ⟨key, members⟩
  | none => .error .parseError

/-- `setData(["members": data], merge: true)` on a document that may not exist. -/
def mergeMembers (data : Dict Uid Bool) : Option MembersDoc → MembersDoc
  | some ⟨some members⟩ => ⟨some (data ∪ members)⟩
  | _ => ⟨some data⟩

/-- The stored value of one key. -/
def memberOf (document : Option MembersDoc) (key : Uid) : Option Bool :=
  (document.bind MembersDoc.members).bind (AList.lookup key)

theorem memberOf_merge (data : Dict Uid Bool) (document : Option MembersDoc) (key : Uid) :
    memberOf (some (mergeMembers data document)) key =
      (data.lookup key).or (memberOf document key) := by
  rcases document with _ | ⟨_ | members⟩
  · simp [memberOf, mergeMembers]
  · simp [memberOf, mergeMembers]
  · simp only [memberOf, mergeMembers, Option.bind_some, lookup_merge]

theorem memberOf_decoded {key : Uid} {document : MembersDoc} {list : MemberList}
    (h : MemberList.ofDocument key document = .ok list) (k : Uid) :
    list.members.lookup k = memberOf (some document) k := by
  rcases document with ⟨_ | members⟩
  · cases h
  · cases h
    rfl

section ParseAll

variable {D M : Type} {parse : D → Except ModelError M}

/-- `compactMap { try … }`: every document of a snapshot parsed, or the first error. -/
def parseAll (parse : D → Except ModelError M) : List D → Except ModelError (List M)
  | [] => .ok []
  | d :: ds =>
    match parse d, parseAll parse ds with
    | .ok m, .ok ms => .ok (m :: ms)
    | _, _ => .error .parseError

theorem parseAll_cons {d : D} {ds : List D} {ms : List M} :
    parseAll parse (d :: ds) = .ok ms ↔
      ∃ m rest, parse d = .ok m ∧ parseAll parse ds = .ok rest ∧ ms = m :: rest := by
  rw [parseAll]
  cases hd : parse d with
  | error e => simp
  | ok m =>
    cases hds : parseAll parse ds with
    | error e => simp
    | ok rest =>
      simp only [Except.ok.injEq, exists_and_left, existsAndEq, true_and]
      exact eq_comm

/-- A parsed value comes from a document of the snapshot. -/
theorem mem_parseAll {ds : List D} {ms : List M} (h : parseAll parse ds = .ok ms) {m : M}
    (hm : m ∈ ms) : ∃ d ∈ ds, parse d = .ok m := by
  induction ds generalizing ms with
  | nil =>
    cases h
    cases hm
  | cons d ds ih =>
    obtain ⟨first, rest, hfirst, hrest, rfl⟩ := parseAll_cons.mp h
    rcases List.mem_cons.mp hm with rfl | hm
    · exact ⟨d, List.mem_cons_self, hfirst⟩
    · obtain ⟨e, he, hparse⟩ := ih hrest hm
      exact ⟨e, List.mem_cons_of_mem _ he, hparse⟩

theorem parsed_of_parseAll {ds : List D} {ms : List M} (h : parseAll parse ds = .ok ms) {d : D}
    (hd : d ∈ ds) : ∃ m, parse d = .ok m := by
  induction ds generalizing ms with
  | nil => cases hd
  | cons e ds ih =>
    obtain ⟨first, rest, hfirst, hrest, rfl⟩ := parseAll_cons.mp h
    rcases List.mem_cons.mp hd with rfl | hd
    · exact ⟨first, hfirst⟩
    · exact ih hrest hd

theorem parseAll_of_parsed {ds : List D} (h : ∀ d ∈ ds, ∃ m, parse d = .ok m) :
    ∃ ms, parseAll parse ds = .ok ms := by
  induction ds with
  | nil => exact ⟨[], rfl⟩
  | cons d ds ih =>
    obtain ⟨m, hm⟩ := h d List.mem_cons_self
    obtain ⟨ms, hms⟩ := ih fun e he => h e (List.mem_cons_of_mem _ he)
    exact ⟨m :: ms, parseAll_cons.mpr ⟨m, ms, hm, hms, rfl⟩⟩

theorem parseAll_isOk {ds : List D} :
    (∃ ms, parseAll parse ds = .ok ms) ↔ ∀ d ∈ ds, ∃ m, parse d = .ok m :=
  ⟨fun ⟨_, h⟩ _ hd => parsed_of_parseAll h hd, parseAll_of_parsed⟩

theorem map_parseAll {β : Type} {f : M → β} {g : D → β} (keep : ∀ d m, parse d = .ok m → f m = g d)
    {ds : List D} {ms : List M} (h : parseAll parse ds = .ok ms) : ms.map f = ds.map g := by
  induction ds generalizing ms with
  | nil =>
    cases h
    rfl
  | cons d ds ih =>
    obtain ⟨first, rest, hfirst, hrest, rfl⟩ := parseAll_cons.mp h
    rw [List.map_cons, List.map_cons, keep d first hfirst, ih hrest]

theorem filter_parseAll {β : Type} {f : M → β} {g : D → β} {p : M → Bool} {q : D → Bool}
    (keep : ∀ d m, parse d = .ok m → f m = g d ∧ p m = q d) {ds : List D} {ms : List M}
    (h : parseAll parse ds = .ok ms) : (ms.filter p).map f = (ds.filter q).map g := by
  induction ds generalizing ms with
  | nil =>
    cases h
    rfl
  | cons d ds ih =>
    obtain ⟨first, rest, hfirst, hrest, rfl⟩ := parseAll_cons.mp h
    obtain ⟨hvalue, htest⟩ := keep d first hfirst
    rw [List.filter_cons, List.filter_cons, htest]
    cases q d with
    | true =>
      simp only [if_true, List.map_cons]
      rw [hvalue, ih hrest]
    | false => simpa using ih hrest

end ParseAll

end PlateChat.Model.Members
