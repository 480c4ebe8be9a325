/- PlateChat/Block/Fields
   digest: What one call of the block services changes in a stored map of any content. -/

import PlateChat.Block.Service

set_option autoImplicit false
set_option relaxedAutoImplicit false

/-!
The services see a document through a typed read, which takes a number 0 or 1 for a `Bool`
and fails as a whole when one value is neither; the stored map is still there and is what a
merging write amends. Here the documents are kept as they are stored, and the handlers are
those of the services.
-/

namespace PlateChat.Block.Fields

open PlateChat.Foundation.Dictionary PlateChat.Foundation.Run PlateChat.Foundation.EventLoop
open PlateChat.Model.Members PlateChat.Block.Service

/-- A value of the stored map: a `Bool`, a number, or anything else. -/
inductive Leaf
  | bool (b : Bool)
  | number (x : Rat)
  | other (n : Nat)
  deriving DecidableEq

/-- `as? Bool`, which bridges the numbers 0 and 1. -/
def Leaf.asBool : Leaf → Option Bool
  | .bool b => some b
  | .number x => if x = 0 then some false else if x = 1 then some true else none
  | .other _ => none

/-- A value as it is written back once it has been read. -/
def Leaf.bridged (v : Leaf) : Leaf := (v.asBool.map .bool).getD v

/-- The field `members`: absent, a value that is no map, or a map. -/
inductive Field
  | missing
  | scalar (n : Nat)
  | map (members : Dict Uid Leaf)
  deriving DecidableEq

/-- `as? [String : Bool]`. -/
def Field.asBools : Field → Option (Dict Uid Bool)
  | .missing | .scalar _ => none
  | .map m =>
    if ∀ e ∈ m.entries, e.2.asBool.isSome then some (mapValues (fun v => v.asBool.getD false) m)
    else none

/-- What the typed read of the services sees. -/
def Field.read (f : Field) : MembersDoc := ⟨f.asBools⟩

/-- `setData(["members": data], merge: true)` on a document that may not exist. -/
def Field.merge (data : Dict Uid Bool) : Option Field → Field
  | some (.map old) => .map (mapValues .bool data ∪ old)
  | some (.scalar _) | some .missing | none => .map (mapValues .bool data)

/-- The value stored under one key. -/
def leafOf (document : Option Field) (key : Uid) : Option Leaf :=
  match document with
  | some (.map m) => m.lookup key
  | some (.scalar _) | some .missing | none => none

theorem leafOf_merge (data : Dict Uid Bool) (document : Option Field) (key : Uid) :
    leafOf (some (Field.merge data document)) key =
      ((data.lookup key).map .bool).or (leafOf document key) := by
  have hnew : leafOf (some (.map (mapValues .bool data))) key = (data.lookup key).map .bool :=
    lookup_mapValues _ _ _
  rcases document with _ | _ | _ | old
  · rw [Field.merge, hnew, leafOf, Option.or_none]
  · rw [Field.merge, hnew, leafOf, Option.or_none]
  · rw [Field.merge, hnew, leafOf, Option.or_none]
  · show (mapValues Leaf.bool data ∪ old).lookup key = _
    rw [lookup_merge, lookup_mapValues]
    rfl

theorem leafOf_asBools {f : Field} {members : Dict Uid Bool} (h : f.asBools = some members)
    (key : Uid) : (leafOf (some f) key).map Leaf.asBool = (members.lookup key).map some := by
  rcases f with _ | n | m
  · cases h
  · cases h
  rw [Field.asBools] at h
  split at h
  · rename_i hbools
    cases h
    show (m.lookup key).map Leaf.asBool = _
    rw [lookup_mapValues, Option.map_map]
    rcases hv : m.lookup key with _ | v
    · rfl
    · have hmem : (⟨key, v⟩ : Sigma fun _ : Uid => Leaf) ∈ m.entries := AList.mem_lookup_iff.mp hv
      obtain ⟨b, hb⟩ := Option.isSome_iff_exists.mp (hbools _ hmem)
      have hread : v.asBool = some b := hb
      simp [hread]
  · cases h

theorem leafOf_bridged {f : Field} {members : Dict Uid Bool} (h : f.asBools = some members)
    (key : Uid) : (leafOf (some f) key).map Leaf.bridged = (members.lookup key).map .bool := by
  have hread := leafOf_asBools h key
  cases hv : leafOf (some f) key with
  | none =>
    rw [hv] at hread
    rw [Option.map_eq_none_iff.mp hread.symm]
    rfl
  | some v =>
    rw [hv, Option.map_some] at hread
    obtain ⟨b, hb, hasBool⟩ := Option.map_eq_some_iff.mp hread.symm
    rw [hb, Option.map_some, Option.map_some, Leaf.bridged, ← hasBool]
    rfl

/-- A field that was never written, or that holds nothing but `Bool`s. -/
def Field.Typed : Option Field → Prop
  | some (.map m) => ∀ key v, m.lookup key = some v → ∃ b, v = .bool b
  | some (.scalar _) | some .missing | none => True

theorem Field.asBools_of_typed {m : Dict Uid Leaf} (typed : Field.Typed (some (.map m))) :
    ∃ members, Field.asBools (.map m) = some members := by
  refine ⟨_, if_pos fun e he => ?_⟩
  obtain ⟨b, hb⟩ := typed e.1 e.2 (AList.mem_lookup_iff.mpr he)
  rw [hb]
  rfl

theorem Field.typed_merge {document : Option Field} (typed : Field.Typed document)
    (data : Dict Uid Bool) : Field.Typed (some (Field.merge data document)) := by
  have hnew : ∀ key v, (mapValues Leaf.bool data).lookup key = some v → ∃ b, v = .bool b := by
    intro key v hv
    rw [lookup_mapValues] at hv
    obtain ⟨b, _, rfl⟩ := Option.map_eq_some_iff.mp hv
    exact ⟨b, rfl⟩
  rcases document with _ | _ | _ | old
  · exact hnew
  · exact hnew
  · exact hnew
  · intro key v hv
    rw [lookup_merge] at hv
    rcases Option.or_eq_some_iff.mp hv with hdata | ⟨_, hold⟩
    · exact hnew key v hdata
    · exact typed key v hold

theorem memberOf_read {f : Field} (typed : Field.Typed (some f)) (key : Uid) :
    (memberOf (some f.read) key).map .bool = leafOf (some f) key := by
  rcases f with _ | n | m
  · rfl
  · rfl
  · obtain ⟨members, hm⟩ := Field.asBools_of_typed typed
    have hmember : memberOf (some (Field.read (.map m))) key = members.lookup key := by
      rw [Field.read, hm]
      rfl
    rw [hmember, ← leafOf_bridged hm]
    show (m.lookup key).map Leaf.bridged = m.lookup key
    cases hv : m.lookup key with
    | none => rfl
    | some v =>
      obtain ⟨b, rfl⟩ := typed key v hv
      rfl

/-- On fields of `Bool`s the merging write of the typed documents is the one that is stored. -/
theorem read_merge {document : Option Field} (typed : Field.Typed document)
    (data : Dict Uid Bool) (key : Uid) :
    memberOf (some (Field.merge data document).read) key =
      memberOf (some (mergeMembers data (document.map Field.read))) key := by
  have hold : (memberOf (document.map Field.read) key).map .bool = leafOf document key := by
    rcases document with _ | f
    · rfl
    · exact memberOf_read typed key
  apply Option.map_injective (f := Leaf.bool) fun _ _ h => Leaf.bool.inj h
  rw [memberOf_read (Field.typed_merge typed data), leafOf_merge, memberOf_merge, Option.map_or,
    hold]

/-- The two collections, documents by their id. -/
structure Storage where
  userBlock : Dict Uid Field := ∅
  userBlocked : Dict Uid Field := ∅
  deriving DecidableEq

namespace Storage

def documents (s : Storage) : Collection → Dict Uid Field
  | .userBlock => s.userBlock
  | .userBlocked => s.userBlocked

def setData (s : Storage) (c : Collection) (document : Uid) (data : Dict Uid Bool) : Storage :=
  let merged := Field.merge data ((s.documents c).lookup document)
  match c with
  | .userBlock => { s with userBlock := s.userBlock.insert document merged }
  | .userBlocked => { s with userBlocked := s.userBlocked.insert document merged }

/-- The value stored under a slot. -/
def leaf (s : Storage) (l : Slot) : Option Leaf :=
  leafOf ((s.documents l.collection).lookup l.document) l.key

/-- The document is there, and the services can read it. -/
def Readable (s : Storage) (c : Collection) (document : Uid) : Prop :=
  (((s.documents c).lookup document).bind Field.asBools).isSome

instance (s : Storage) (c : Collection) (document : Uid) : Decidable (s.Readable c document) :=
  inferInstanceAs (Decidable (_ = _))

theorem leaf_setData (s : Storage) (c : Collection) (document : Uid) (data : Dict Uid Bool)
    (l : Slot) :
    (s.setData c document data).leaf l =
      if l.collection = c ∧ l.document = document then
        ((data.lookup l.key).map .bool).or (s.leaf l)
      else s.leaf l := by
  obtain ⟨c', document', key⟩ := l
  have hdocuments : ((s.setData c document data).documents c').lookup document' =
      if c' = c ∧ document' = document then
        some (Field.merge data ((s.documents c).lookup document))
      else (s.documents c').lookup document' := by
    by_cases hid : document' = document
    · subst hid
      cases c <;> cases c' <;> simp [setData, documents]
    · cases c <;> cases c' <;> simp [setData, documents, hid]
  unfold leaf
  dsimp only
  rw [hdocuments]
  split
  · obtain ⟨rfl, rfl⟩ := ‹c' = c ∧ document' = document›
    exact leafOf_merge _ _ _
  · rfl

end Storage

def serve (s : Storage) : Request → Bool → Storage × Answer
  | .get e, true =>
    (s, .fetched (.ok (((s.documents e.collection).lookup e.document).map Field.read)))
  | .get _, false => (s, .fetched (.error .fetchError))
  | .set e data, true => (s.setData e.collection e.document data, .written none)
  | .set _ _, false => (s, .written (some .updateError))

/-- The services of all devices over the documents as they are stored. -/
def program : Program Storage Devices Action Empty Request Answer Empty Unit where
  act _ c v := some (Service.act c v)
  serve := Fields.serve
  handle _ c r a := Service.handle c r a
  snapshot _ _ := ()
  notify _ _ l _ := nomatch l
  env _ h := nomatch h

abbrev Network := World Storage Devices Request Answer Empty

def start (s : Storage) (c : Devices) : Network where
  server := s
  client := c

abbrev step : Network → Event Action Empty → Option Network := program.step

inductive Operation
  | addBlockUser
  | releaseBlockUser
  | addBlockedUser
  | releaseBlockedUser
  deriving DecidableEq

namespace Operation

def action (p : Pair) : Operation → Action
  | .addBlockUser => .addBlockUser p
  | .releaseBlockUser => .releaseBlockUser p
  | .addBlockedUser => .addBlockedUser p
  | .releaseBlockedUser => .releaseBlockedUser p

/-- The key that the operation is about. -/
def slot (p : Pair) : Operation → Slot
  | .addBlockUser | .releaseBlockUser => ⟨.userBlock, p.uid, p.otherUid⟩
  | .addBlockedUser | .releaseBlockedUser => ⟨.userBlocked, p.otherUid, p.uid⟩

def value : Operation → Bool
  | .addBlockUser | .addBlockedUser => true
  | .releaseBlockUser | .releaseBlockedUser => false

theorem act_action (o : Operation) (p : Pair) (c : Devices) :
    ∃ e : Edit, act c (o.action p) = updateMembers c e ∧ e.slot = o.slot p ∧
      e.value = o.value ∧ e.chained = false := by
  cases o with
  | addBlockUser => exact ⟨⟨.userBlock, p, true, false⟩, rfl, rfl, rfl, rfl⟩
  | releaseBlockUser => exact ⟨⟨.userBlock, p, false, false⟩, rfl, rfl, rfl, rfl⟩
  | addBlockedUser => exact ⟨⟨.userBlocked, p, true, false⟩, rfl, rfl, rfl, rfl⟩
  | releaseBlockedUser => exact ⟨⟨.userBlocked, p, false, false⟩, rfl, rfl, rfl, rfl⟩

end Operation

theorem parsed_serve {s : Storage} {e : Edit} {ok : Bool}
    {document : Except ServiceError (Option MembersDoc)}
    (h : (serve s (.get e) ok).2 = .fetched document) :
    (∃ members, parsed e.document document = .ok ⟨e.document, members⟩ ∧
      (ok = true ∧ s.Readable e.collection e.document) ∧
      ∀ k, (s.leaf ⟨e.collection, e.document, k⟩).map Leaf.bridged =
        (members.lookup k).map .bool) ∨
    (∃ r, parsed e.document document = .error r) ∧
      ¬ (ok = true ∧ s.Readable e.collection e.document) := by
  cases ok with
  | false =>
    cases h
    exact .inr ⟨⟨_, rfl⟩, fun hfetched => nomatch hfetched.1⟩
  | true =>
    cases h
    unfold Storage.Readable Storage.leaf
    dsimp only
    rcases (s.documents e.collection).lookup e.document with _ | f
    · exact .inr ⟨⟨_, rfl⟩, fun hfetched => nomatch hfetched.2⟩
    · simp only [Option.bind_some]
      cases hread : f.asBools with
      | none =>
        refine .inr ⟨⟨.fetchError, ?_⟩, fun hfetched => nomatch hfetched.2⟩
        simp only [parsed, Option.map_some, Field.read, MemberList.ofDocument, hread]
      | some members =>
        refine .inl ⟨members, ?_, ⟨trivial, rfl⟩, leafOf_bridged hread⟩
        simp only [parsed, Option.map_some, Field.read, MemberList.ofDocument, hread]

theorem dataOf_other_ok {e : Edit} {list : MemberList} {k : Uid} (other : k ≠ e.key) :
    (dataOf e (.ok list)).lookup k = if k = "" then none else list.members.lookup k :=
  lookup_insert_erase_ne _ e.value other

/-- Without a document only the placeholder was there, and it is dropped. -/
theorem dataOf_other_error {e : Edit} {r : ServiceError} {k : Uid} (other : k ≠ e.key) :
    (dataOf e (.error r)).lookup k = none := by
  have hkept : (dataOf e (.error r)).lookup k =
      if k = "" then none else (AList.singleton "" true : Dict Uid Bool).lookup k :=
    lookup_insert_erase_ne _ e.value other
  by_cases hempty : k = ""
  · rw [hkept, if_pos hempty]
  · rw [hkept, if_neg hempty, lookup_singleton, if_neg hempty]

/-- Another key than its own that a call writes again: the whole map has been read. -/
def Rewritten (s : Storage) (fetched : Bool) (own l : Slot) : Prop :=
  (fetched = true ∧ s.Readable own.collection own.document) ∧
    l.collection = own.collection ∧ l.document = own.document ∧ l.key ≠ ""

instance (s : Storage) (fetched : Bool) (own l : Slot) : Decidable (Rewritten s fetched own l) :=
  inferInstanceAs (Decidable (_ ∧ _))

/-- What a key holds after a call that is about `own`. -/
def written (s : Storage) (fetched : Bool) (own : Slot) (value : Bool) (l : Slot) : Option Leaf :=
  if l = own then some (.bool value)
  else if Rewritten s fetched own l then (s.leaf l).map Leaf.bridged
  else s.leaf l

theorem leaf_written (s : Storage) (e : Edit) (ok : Bool)
    {document : Except ServiceError (Option MembersDoc)}
    (h : (serve s (.get e) ok).2 = .fetched document) (l : Slot) :
    (s.setData e.collection e.document (dataOf e (parsed e.document document))).leaf l =
      written s ok e.slot e.value l := by
  obtain ⟨c, d, k⟩ := l
  rw [Storage.leaf_setData, written]
  by_cases hd : c = e.collection ∧ d = e.document
  · obtain ⟨rfl, rfl⟩ := hd
    rw [if_pos ⟨rfl, rfl⟩]
    by_cases hk : k = e.key
    · subst hk
      rw [if_pos (by rfl), dataOf_key]
      rfl
    rw [if_neg (by simpa [Edit.slot] using hk)]
    rcases parsed_serve h with ⟨members, hparsed, hread, hmembers⟩ | ⟨⟨r, hparsed⟩, hunread⟩
    · rw [hparsed, dataOf_other_ok hk]
      by_cases hempty : k = ""
      · rw [if_pos hempty, if_neg fun hrewritten => hrewritten.2.2.2 hempty]
        rfl
      · rw [if_neg hempty, if_pos ⟨hread, rfl, rfl, hempty⟩]
        show ((members.lookup k).map Leaf.bool).or _ = _
        rw [← hmembers k]
        cases s.leaf ⟨e.collection, e.document, k⟩ <;> rfl
    · rw [hparsed, dataOf_other_error hk, if_neg fun hrewritten => hunread hrewritten.1]
      rfl
  · have hne : (⟨c, d, k⟩ : Slot) ≠ e.slot := by
      intro h
      cases h
      exact hd ⟨rfl, rfl⟩
    rw [if_neg hd, if_neg hne, if_neg fun hrewritten => hd ⟨hrewritten.2.1, hrewritten.2.2.1⟩]

/-- A call whose fetch ends in any way, and whose write succeeds. -/
def oneCall (v : Action) (fetched : Bool) : List (Event Action Empty) :=
  [.act v, .serve 0 fetched, .handle 0, .serve 0 true, .handle 0]

private theorem run_oneCall (s : Storage) (c : Devices) (v : Action) {e : Edit}
    (hv : act c v = updateMembers c e) (hc : e.chained = false) (fetched : Bool) :
    ∃ w document, run step (start s c) (oneCall v fetched) = some w ∧ w.inflight = [] ∧
      (serve s (.get e) fetched).2 = .fetched document ∧
      w.server = s.setData e.collection e.document (dataOf e (parsed e.document document)) := by
  have hact : step (start s c) (.act v) = some ((start s c).perform (updateMembers c e)) :=
    congrArg (fun o => some ((start s c).perform o)) hv
  have hrest : run step (start s c) (oneCall v fetched) =
      run step ((start s c).perform (updateMembers c e))
        [.serve 0 fetched, .handle 0, .serve 0 true, .handle 0] := by
    rw [oneCall, run, hact]
    rfl
  rw [hrest]
  obtain ⟨collection, pair, value, chained⟩ := e
  cases hc
  cases fetched with
  | false => exact ⟨_, _, rfl, rfl, rfl, rfl⟩
  | true => exact ⟨_, _, rfl, rfl, rfl, rfl⟩

/-- A completed operation sets the key it is about; of the other keys of both collections it
changes those whose number has been read as a `Bool`, into that `Bool`. -/
theorem changes_one_key (o : Operation) (p : Pair) (s : Storage) (c : Devices) (fetched : Bool) :
    ∃ w, run step (start s c) (oneCall (o.action p) fetched) = some w ∧ w.inflight = [] ∧
      ∀ l, w.server.leaf l = if l = o.slot p then some (.bool o.value)
        else if Rewritten s fetched (o.slot p) l then (s.leaf l).map Leaf.bridged
        else s.leaf l := by
  obtain ⟨e, hact, hslot, hvalue, hchained⟩ := o.act_action p c
  obtain ⟨w, document, hw, hidle, hdocument, hserver⟩ :=
    run_oneCall s c (o.action p) hact hchained fetched
  refine ⟨w, hw, hidle, fun l => ?_⟩
  rw [hserver, leaf_written s e fetched hdocument, hslot, hvalue]
  rfl

section Example

private def pair : Pair := ⟨"erin", "frank", by decide, by decide⟩

private def stored (x : Leaf) : Storage where
  userBlock := AList.singleton "erin" (.map (AList.singleton "x" x))

private def after (x : Leaf) : Option (Option Leaf × Option Leaf) :=
  (run step (start (stored x) ⟨fun _ => {}, []⟩) (oneCall (.addBlockUser pair) true)).map
    fun w => (w.server.leaf ⟨.userBlock, "erin", "x"⟩, w.server.leaf ⟨.userBlock, "erin", "frank"⟩)

/-- A stored 1 is `true` after another user has been blocked. -/
theorem number_rewritten :
    ¬ ∀ (o : Operation) (p : Pair) (s : Storage) (c : Devices) (fetched : Bool) (w : Network),
      run step (start s c) (oneCall (o.action p) fetched) = some w →
        ∀ l, w.server.leaf l = if l = o.slot p then some (.bool o.value) else s.leaf l := by
  intro claim
  have hseen : after (.number 1) = some (some (.bool true), some (.bool true)) := by
    decide
  obtain ⟨w, hw, hval⟩ := Option.map_eq_some_iff.mp hseen
  have hkept := claim .addBlockUser pair _ _ _ w hw ⟨.userBlock, "erin", "x"⟩
  rw [(Prod.mk.inj hval).1] at hkept
  revert hkept
  decide

-- a map with a value that is neither keeps it, although the fetch yields nothing
example : after (.number 7) = some (some (.number 7), some (.bool true)) := by
  decide

end Example

end PlateChat.Block.Fields
