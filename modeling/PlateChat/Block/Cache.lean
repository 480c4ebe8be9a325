/- PlateChat/Block/Cache
   digest: Whether the cached list of blocked users is the stored one once a call completes. -/

import PlateChat.Block.Fields

set_option autoImplicit false
set_option relaxedAutoImplicit false

/-!
A call that succeeds caches the dictionary it has sent. The server has merged it into what
it held, which is more than was sent when the fetch before brought nothing.
-/

namespace PlateChat.Block.Cache

open PlateChat.Foundation.Dictionary PlateChat.Foundation.Run PlateChat.Foundation.EventLoop
open PlateChat.Model.Members PlateChat.Block.Fields
open PlateChat.Block.Service hiding Network serve start step program

inductive Operation
  | addBlockUser
  | releaseBlockUser
  deriving DecidableEq

namespace Operation

/-- The call by itself, or as the first half of a screen's action. -/
def action (p : Pair) (screen : Bool) : Operation → Action
  | .addBlockUser => if screen then .blockUser p else .addBlockUser p
  | .releaseBlockUser => if screen then .blockUserRelease p else .releaseBlockUser p

def value : Operation → Bool
  | .addBlockUser => true
  | .releaseBlockUser => false

def edit (p : Pair) (screen : Bool) (o : Operation) : Edit := ⟨.userBlock, p, o.value, screen⟩

theorem act_action (o : Operation) (p : Pair) (screen : Bool) (c : Devices) :
    act c (o.action p screen) = updateMembers c (o.edit p screen) := by
  cases o <;> cases screen <;> rfl

end Operation

/-- Another user is blocked as far as the device knows. -/
def Cached (c : Devices) (uid user : Uid) : Prop :=
  (c.usersData uid).userBlock.lookup user = some true

/-- Another user is blocked as far as the server knows. -/
def Stored (s : Storage) (uid user : Uid) : Prop :=
  s.leaf ⟨.userBlock, uid, user⟩ = some (.bool true)

instance (s : Storage) (uid user : Uid) : Decidable (Stored s uid user) :=
  inferInstanceAs (Decidable (_ = _))

/-- The same users are blocked on both sides. The empty key names no user. -/
def Agrees (w : Network) (uid : Uid) : Prop :=
  ∀ user, user ≠ "" → (Cached w.client uid user ↔ Stored w.server uid user)

/-- What is cached when a call completes is what it has sent. -/
theorem userBlock_completion (c : Devices) (o : Operation) (p : Pair) (screen : Bool)
    (data : Dict Uid Bool) :
    ((writeCompletion c (o.edit p screen) data none).client.usersData p.uid).userBlock = data := by
  have hcached : ((cached c (o.edit p screen) data).usersData p.uid).userBlock = data := by
    show (Function.update c.usersData p.uid _ p.uid).userBlock = data
    rw [Function.update_self]
  unfold writeCompletion
  cases screen with
  | false => exact hcached
  | true =>
    show ((screenCompletion _ _ none).client.usersData p.uid).userBlock = data
    rw [screenCompletion_none]
    exact hcached

theorem run_call (s : Storage) (c : Devices) (o : Operation) (p : Pair) (screen fetched : Bool) :
    ∃ w document, run step (start s c) (oneCall (o.action p screen) fetched) = some w ∧
      (serve s (.get (o.edit p screen)) fetched).2 = .fetched document ∧
      w.server = s.setData .userBlock p.uid
        (dataOf (o.edit p screen) (parsed p.uid document)) ∧
      (w.client.usersData p.uid).userBlock = dataOf (o.edit p screen) (parsed p.uid document) := by
  have hact : step (start s c) (.act (o.action p screen)) =
      some ((start s c).perform (updateMembers c (o.edit p screen))) :=
    congrArg (fun e => some ((start s c).perform e)) (o.act_action p screen c)
  have hrest : run step (start s c) (oneCall (o.action p screen) fetched) =
      run step ((start s c).perform (updateMembers c (o.edit p screen)))
        [.serve 0 fetched, .handle 0, .serve 0 true, .handle 0] := by
    rw [oneCall, run, hact]
    rfl
  rw [hrest]
  cases fetched with
  | false => exact ⟨_, _, rfl, rfl, rfl, userBlock_completion _ o p screen _⟩
  | true => exact ⟨_, _, rfl, rfl, rfl, userBlock_completion _ o p screen _⟩

/-- After a completed call the two sides agree if its fetch brought the stored document, or if
nobody but the other user is blocked there anyway. -/
theorem cache_agrees_iff (o : Operation) (p : Pair) (screen : Bool) (s : Storage) (c : Devices)
    (fetched : Bool) :
    ∃ w, run step (start s c) (oneCall (o.action p screen) fetched) = some w ∧
      (Agrees w p.uid ↔ (fetched = true ∧ s.Readable .userBlock p.uid) ∨
        ∀ user, user ≠ "" → user ≠ p.otherUid → ¬ Stored s p.uid user) := by
  obtain ⟨w, document, hw, hdocument, hserver, hclient⟩ := run_call s c o p screen fetched
  refine ⟨w, hw, ?_⟩
  have hleaf : ∀ user, w.server.leaf ⟨.userBlock, p.uid, user⟩ =
      written s fetched (o.edit p screen).slot o.value ⟨.userBlock, p.uid, user⟩ := by
    intro user
    rw [hserver]
    exact leaf_written s (o.edit p screen) fetched hdocument _
  have hown : Cached w.client p.uid p.otherUid ↔ Stored w.server p.uid p.otherUid := by
    have hcached : (w.client.usersData p.uid).userBlock.lookup p.otherUid = some o.value := by
      rw [hclient]
      exact dataOf_key (o.edit p screen) (parsed p.uid document)
    have hserved : w.server.leaf ⟨.userBlock, p.uid, p.otherUid⟩ = some (.bool o.value) := by
      rw [hleaf, written, if_pos (by rfl)]
    rw [Cached, Stored, hcached, hserved]
    simp
  have hothers : Agrees w p.uid ↔ ∀ user, user ≠ "" → user ≠ p.otherUid →
      (Cached w.client p.uid user ↔ Stored w.server p.uid user) := by
    refine ⟨fun h user hname _ => h user hname, fun h user hname => ?_⟩
    by_cases hne : user = p.otherUid
    · subst hne
      exact hown
    · exact h user hname hne
  have hslot : ∀ user, user ≠ p.otherUid →
      (⟨.userBlock, p.uid, user⟩ : Slot) ≠ (o.edit p screen).slot :=
    fun user hne h => hne (congrArg Slot.key h)
  rw [hothers]
  rcases parsed_serve hdocument with ⟨members, hparsed, hread, hmembers⟩ | ⟨⟨r, hparsed⟩, hunread⟩
  · -- what was read has been sent, and the server holds it as it was read
    refine iff_of_true (fun user hname hne => ?_) (.inl hread)
    have hsent : (w.client.usersData p.uid).userBlock.lookup user = members.lookup user := by
      rw [hclient]
      exact ((congrArg (fun r => (dataOf (o.edit p screen) r).lookup user) hparsed).trans
        (dataOf_other_ok hne)).trans (if_neg hname)
    have hstored : w.server.leaf ⟨.userBlock, p.uid, user⟩ = (members.lookup user).map .bool := by
      rw [hleaf, written, if_neg (hslot user hne), if_pos ⟨hread, rfl, rfl, hname⟩]
      exact hmembers user
    rw [Cached, Stored, hsent, hstored, Option.map_eq_some_iff]
    simp
  · -- the placeholder is all that was there to send besides the other user
    have hread : ¬ (fetched = true ∧ s.Readable .userBlock p.uid) := hunread
    rw [or_iff_right hread]
    refine forall₃_congr fun user hname hne => ?_
    have hmissing : ¬ Cached w.client p.uid user := by
      have hsent : (w.client.usersData p.uid).userBlock.lookup user = none := by
        rw [hclient]
        exact (congrArg (fun r => (dataOf (o.edit p screen) r).lookup user) hparsed).trans
          (dataOf_other_error hne)
      intro h
      cases hsent.symm.trans h
    have hstored : Stored w.server p.uid user ↔ Stored s p.uid user := by
      rw [Stored, hleaf, written, if_neg (hslot user hne), if_neg fun h => hunread h.1, Stored]
    rw [hstored]
    exact iff_false_left hmissing

section Example

private def dora : Pair := ⟨"dora", "bob", by decide, by decide⟩

/-- Dora has blocked Carol. -/
private def blocked : Storage where
  userBlock := AList.singleton "dora" (.map (AList.singleton "carol" (.bool true)))

/-- The fetch fails, and Carol is unblocked on the device although not on the server. -/
theorem failed_fetch_forgets :
    ¬ ∀ (s : Storage) (c : Devices) (fetched : Bool) (w : Network),
      run step (start s c) (oneCall (Operation.addBlockUser.action dora false) fetched) = some w →
        Agrees w "dora" := by
  intro claim
  have hseen : (run step (start blocked ⟨fun _ => {}, []⟩)
      (oneCall (Operation.addBlockUser.action dora false) false)).map (fun w =>
        ((w.client.usersData "dora").userBlock.lookup "carol",
          w.server.leaf ⟨.userBlock, "dora", "carol"⟩)) = some (none, some (.bool true)) := by
    decide
  obtain ⟨w, hw, hval⟩ := Option.map_eq_some_iff.mp hseen
  obtain ⟨hcached, hstored⟩ := Prod.mk.inj hval
  have hagrees := (claim _ _ _ w hw "carol" (by decide)).mpr hstored
  rw [Cached, hcached] at hagrees
  cases hagrees

end Example

end PlateChat.Block.Cache
