import Sunstrider.Groups.RoundRobin
import Sunstrider.Lib.Rotation

/-!
# The turn goes round

The two scans of `UpdateLooterGuid` together go once through all slots, from the
one behind the current looter up to and with his own. So outside free for all,
and unless the `ifneed` mode lets the looter keep his turn, the new looter is the
first in that order who is near.

Over many kills with the same members near, the first question of each kill then
always finds a looter who is near and leaves him the turn, and the second passes
it on by one. The members near come round in a fixed order, and of any two of
them neither is ahead by more than one corpse.
-/

namespace Sunstrider.Groups

open Looting Lib

variable {P : Type} [DecidableEq P]

namespace LootingGroup

variable {pLootedObject : LootedObject P} {group : LootingGroup P}

/-- The members, in the order of their slots. -/
def members (group : LootingGroup P) : List P := group.memberSlots.map (·.guid)

/-- The members in the order in which they have a claim to the next corpse. -/
def inTurn (group : LootingGroup P) : List P :=
  match group.looterGuid with
  | some looter => following group.members looter
  | none => group.members

/-- The looter has a slot and is near. -/
def looterIsNear (pLootedObject : LootedObject P) (group : LootingGroup P) : Prop :=
  ∃ looter ∈ group.members, group.looterGuid = some looter ∧ pLootedObject.isNear looter = true

omit [DecidableEq P] in
theorem findLooter_eq (slots : List (MemberSlot P)) :
    findLooter pLootedObject slots = (slots.map (·.guid)).find? pLootedObject.isNear := by
  rw [findLooter, List.find?_map]
  rfl

omit [DecidableEq P] in
/-- Two scans are one, over the slots in their new order. -/
theorem newLooter_eq {guidItr : Nat} (h : guidItr ≤ group.memberSlots.length) :
    group.newLooter pLootedObject guidItr =
      (group.members.rotate guidItr).find? pLootedObject.isNear := by
  have hrotate : group.members.rotate guidItr =
      (group.memberSlots.drop guidItr).map (·.guid) ++
        (group.memberSlots.take guidItr).map (·.guid) := by
    rw [members, ← List.map_rotate, List.rotate_eq_drop_append_take h, List.map_append]
  rw [hrotate, List.find?_append, ← findLooter_eq, ← findLooter_eq, newLooter]
  cases findLooter pLootedObject (group.memberSlots.drop guidItr) with
  | some player => rfl
  | none => rfl

theorem getMemberCSlot_some (looter : P) :
    group.getMemberCSlot (some looter) = group.members.idxOf looter := by
  rw [getMemberCSlot, members, List.idxOf, List.findIdx_map]
  congr
  funext slot
  simp only [Option.some.injEq]
  rfl

theorem getMemberCSlot_none : group.getMemberCSlot none = group.memberSlots.length := by
  rw [getMemberCSlot, List.findIdx_eq_length]
  simp

/-! ## One call -/

theorem updateLooterGuid_freeForAll (h : group.lootMethod = .freeForAll) (ifneed : Bool) :
    group.updateLooterGuid pLootedObject ifneed = group :=
  if_pos h

/-- The members and the loot method stay as they are. -/
theorem updateLooterGuid_eq (ifneed : Bool) :
    group.updateLooterGuid pLootedObject ifneed =
      { group with
        looterGuid := (group.updateLooterGuid pLootedObject ifneed).looterGuid } := by
  simp only [updateLooterGuid]
  split
  · rfl
  · split
    · split <;> rfl
    · rfl

@[simp] theorem updateLooterGuid_members (ifneed : Bool) :
    (group.updateLooterGuid pLootedObject ifneed).members = group.members := by
  rw [updateLooterGuid_eq]
  rfl

@[simp] theorem updateLooterGuid_lootMethod (ifneed : Bool) :
    (group.updateLooterGuid pLootedObject ifneed).lootMethod = group.lootMethod := by
  rw [updateLooterGuid_eq]

omit [DecidableEq P] in
theorem members_getElem {i : Nat} {slot : MemberSlot P} (h : group.memberSlots[i]? = some slot) :
    group.members[i]? = some slot.guid := by
  rw [members, List.getElem?_map, h, Option.map_some]

/-- In the `ifneed` mode a looter who is near keeps his turn. -/
theorem updateLooterGuid_near (h : group.looterIsNear pLootedObject) :
    group.updateLooterGuid pLootedObject true = group := by
  obtain ⟨looter, hmem, hlooter, hnear⟩ := h
  have hlt := List.idxOf_lt_length_of_mem hmem
  obtain ⟨slot, hslot⟩ : ∃ slot, group.memberSlots[group.members.idxOf looter]? = some slot :=
    ⟨_, List.getElem?_eq_getElem (by simpa [members] using hlt)⟩
  have hguid := members_getElem hslot
  rw [List.getElem?_idxOf hmem, Option.some_inj] at hguid
  simp only [updateLooterGuid]
  rw [hlooter, getMemberCSlot_some, hslot]
  simp [← hguid, hnear]

/-- Otherwise it goes to the first in turn who is near. -/
theorem updateLooterGuid_first (hmethod : group.lootMethod ≠ .freeForAll) {ifneed : Bool}
    (hneed : ifneed = true → ¬ group.looterIsNear pLootedObject) :
    (group.updateLooterGuid pLootedObject ifneed).looterGuid =
      group.inTurn.find? pLootedObject.isNear := by
  simp only [updateLooterGuid]
  rw [if_neg hmethod]
  cases hlooter : group.looterGuid with
  | none =>
      rw [getMemberCSlot_none, List.getElem?_eq_none (Nat.le_refl _)]
      simp only [inTurn, hlooter]
      rw [newLooter_eq (Nat.le_refl _), ← List.length_map (fun slot => slot.guid)]
      exact congrArg _ (List.rotate_length _)
  | some looter =>
      rw [getMemberCSlot_some]
      simp only [inTurn, hlooter, following]
      by_cases hmem : looter ∈ group.members
      · have hlt : group.members.idxOf looter < group.memberSlots.length := by
          simpa [members] using List.idxOf_lt_length_of_mem hmem
        have hguid := members_getElem (List.getElem?_eq_getElem hlt)
        rw [List.getElem?_idxOf hmem, Option.some_inj] at hguid
        rw [List.getElem?_eq_getElem hlt, if_pos hmem]
        simp only [← hguid]
        split
        · rename_i hkeep
          rw [Bool.and_eq_true] at hkeep
          exact absurd ⟨looter, hmem, hlooter, hkeep.2⟩ (hneed hkeep.1)
        · exact newLooter_eq hlt
      · have hend : group.members.idxOf looter = group.memberSlots.length := by
          rw [List.idxOf_of_notMem hmem, members, List.length_map]
        rw [hend, List.getElem?_eq_none (Nat.le_refl _), if_neg hmem]
        rw [newLooter_eq (Nat.le_refl _), ← hend, List.idxOf_of_notMem hmem, List.rotate_length]

/-- The turn passed on: whoever keeps it is the only one near. -/
theorem alone_of_looter_keeps (hslots : group.members.Nodup) {looter : P}
    (hlooter : group.looterGuid = some looter)
    (hkeeps : group.inTurn.find? pLootedObject.isNear = some looter) {player : P}
    (hmem : player ∈ group.members) (hnear : pLootedObject.isNear player = true) :
    player = looter := by
  simp only [inTurn, hlooter] at hkeeps
  have hin : looter ∈ group.members := mem_following.1 (List.mem_of_find?_eq_some hkeeps)
  obtain ⟨before, after, hsplit⟩ := List.append_of_mem hin
  rw [hsplit] at hslots hmem hkeeps
  have hbefore : looter ∉ before := fun h =>
    (List.nodup_append'.1 hslots).2.2 h List.mem_cons_self
  have hafter : looter ∉ after := (List.nodup_cons.1 (List.nodup_append'.1 hslots).2.1).1
  rw [following_append hbefore] at hkeeps
  by_contra hne
  have hother : player ∈ after ++ before := by
    rcases List.mem_append.1 hmem with h | h
    · exact List.mem_append_right _ h
    · rcases List.mem_cons.1 h with h | h
      · exact absurd h hne
      · exact List.mem_append_left _ h
  -- he would have been found first
  rw [List.find?_append] at hkeeps
  cases hfound : (after ++ before).find? pLootedObject.isNear with
  | none => exact absurd hnear (List.find?_eq_none.1 hfound player hother)
  | some first =>
      rw [hfound, Option.some_or, Option.some_inj] at hkeeps
      have hfirst := List.mem_of_find?_eq_some hfound
      rw [hkeeps, List.mem_append] at hfirst
      exact hfirst.elim hafter hbefore

/-! ## Many kills -/

/-- The turn of one who is near. -/
structure HasTurn (pLootedObject : LootedObject P) (members : List P) (looter : P)
    (group : LootingGroup P) : Prop where
  method : group.lootMethod ≠ .freeForAll
  members_eq : group.members = members
  looter_eq : group.looterGuid = some looter
  mem : looter ∈ members
  near : pLootedObject.isNear looter = true

namespace HasTurn

variable {members : List P} {looter : P}

theorem needed_eq (h : group.HasTurn pLootedObject members looter) :
    group.updateLooterGuid pLootedObject true = group :=
  updateLooterGuid_near ⟨looter, h.members_eq ▸ h.mem, h.looter_eq, h.near⟩

theorem passed (h : group.HasTurn pLootedObject members looter) :
    (group.updateLooterGuid pLootedObject false).HasTurn pLootedObject members
      (pass pLootedObject.isNear members looter) := by
  have hnext := nextTurn_eq_pass h.mem h.near looter
  exact
    { method := by simpa using h.method
      members_eq := by simpa using h.members_eq
      looter_eq := by
        rw [updateLooterGuid_first h.method (by simp), inTurn, h.looter_eq, h.members_eq]
        exact hnext
      mem := mem_following.1 (List.mem_of_find?_eq_some hnext)
      near := List.find?_some hnext }

/-- Each corpse with loot is of the next in turn. -/
theorem turns_count (h : group.HasTurn pLootedObject members looter) (player : P)
    (kills : List Bool) :
    (turns pLootedObject group kills).count (some player) =
      Nat.count (fun k => (pass pLootedObject.isNear members)^[k] looter = player)
        (kills.count false) := by
  induction kills generalizing group looter with
  | nil => rfl
  | cons lootEmpty kills ih =>
      cases lootEmpty with
      | true =>
          have hkill : (group.kill pLootedObject true).2 = group := h.needed_eq
          rw [turns, hkill, ih h, List.count_cons_of_ne (by decide)]
      | false =>
          have hkill : group.kill pLootedObject false =
              (some looter, group.updateLooterGuid pLootedObject false) := by
            rw [kill, h.needed_eq, h.looter_eq]
            rfl
          rw [turns, hkill, List.count_cons, ih h.passed, List.count_cons_self,
            Nat.count_succ']
          simp only [Function.iterate_succ_apply, beq_iff_eq, Option.some.injEq]
          rfl

end HasTurn

/-- The first kill has found somebody, if anybody is near. -/
theorem hasTurn_needed (hmethod : group.lootMethod ≠ .freeForAll) {player : P}
    (hmem : player ∈ group.members) (hnear : pLootedObject.isNear player = true) :
    ∃ looter, (group.updateLooterGuid pLootedObject true).HasTurn pLootedObject group.members
      looter := by
  by_cases hlooter : group.looterIsNear pLootedObject
  · obtain ⟨looter, hin, hguid, hok⟩ := hlooter
    rw [updateLooterGuid_near ⟨looter, hin, hguid, hok⟩]
    exact ⟨looter, hmethod, rfl, hguid, hin, hok⟩
  · have hfirst := updateLooterGuid_first hmethod fun _ : true = true => hlooter
    have hinTurn : ∀ x, x ∈ group.inTurn ↔ x ∈ group.members := by
      intro x
      unfold inTurn
      split
      · exact mem_following
      · rfl
    cases hfound : group.inTurn.find? pLootedObject.isNear with
    | none => exact absurd hnear (List.find?_eq_none.1 hfound player ((hinTurn _).2 hmem))
    | some looter =>
        rw [hfound] at hfirst
        exact ⟨looter, by simpa using hmethod, updateLooterGuid_members _, hfirst,
          (hinTurn _).1 (List.mem_of_find?_eq_some hfound), List.find?_some hfound⟩

theorem turns_needed (kills : List Bool)
    (hneeded : (group.updateLooterGuid pLootedObject true).updateLooterGuid pLootedObject true =
      group.updateLooterGuid pLootedObject true) :
    turns pLootedObject group kills =
      turns pLootedObject (group.updateLooterGuid pLootedObject true) kills := by
  cases kills with
  | nil => rfl
  | cons lootEmpty kills =>
      have hkill : group.kill pLootedObject lootEmpty =
          (group.updateLooterGuid pLootedObject true).kill pLootedObject lootEmpty := by
        simp only [kill]
        rw [hneeded]
      cases lootEmpty with
      | true => rw [turns, turns, hkill]
      | false => rw [turns, turns, hkill]

theorem turns_fair (hmethod : group.lootMethod ≠ .freeForAll) (hslots : group.members.Nodup)
    (kills : List Bool) {player other : P} (hplayer : player ∈ group.members)
    (hnear : pLootedObject.isNear player = true) (hother : other ∈ group.members)
    (honear : pLootedObject.isNear other = true) :
    (turns pLootedObject group kills).count (some player) ≤
      (turns pLootedObject group kills).count (some other) + 1 := by
  obtain ⟨looter, hturn⟩ := hasTurn_needed hmethod hplayer hnear
  rw [turns_needed kills hturn.needed_eq, hturn.turns_count, hturn.turns_count]
  exact (takeTurns_pass hplayer hnear looter).count_le hslots hturn.mem hturn.near hplayer hnear
    hother honear _

/-- Free for all leaves the looter alone. Otherwise the turn goes to the first in
order who is near, and stays where it is only if nobody else is, but for the
`ifneed` mode, in which a looter who is near keeps it; over any kills nobody near
gets two corpses more than another. -/
theorem updateLooterGuid_takes_turns (pLootedObject : LootedObject P) (group : LootingGroup P)
    (hslots : group.members.Nodup) :
    (group.lootMethod = .freeForAll →
      ∀ ifneed, group.updateLooterGuid pLootedObject ifneed = group) ∧
    (group.looterIsNear pLootedObject → group.updateLooterGuid pLootedObject true = group) ∧
    (group.lootMethod ≠ .freeForAll →
      (∀ ifneed : Bool, ¬ (ifneed = true ∧ group.looterIsNear pLootedObject) →
        (group.updateLooterGuid pLootedObject ifneed).looterGuid =
            group.inTurn.find? pLootedObject.isNear ∧
          ((group.updateLooterGuid pLootedObject ifneed).looterGuid = group.looterGuid →
            ∀ player ∈ group.members, pLootedObject.isNear player = true →
              group.looterGuid = some player)) ∧
      ∀ kills : List Bool, ∀ player ∈ group.members, ∀ other ∈ group.members,
        pLootedObject.isNear player = true → pLootedObject.isNear other = true →
          (turns pLootedObject group kills).count (some player) ≤
            (turns pLootedObject group kills).count (some other) + 1) := by
  refine ⟨updateLooterGuid_freeForAll, updateLooterGuid_near, ?_⟩
  intro hmethod
  refine ⟨?_, ?_⟩
  · intro ifneed hnot
    have hfirst : (group.updateLooterGuid pLootedObject ifneed).looterGuid =
        group.inTurn.find? pLootedObject.isNear :=
      updateLooterGuid_first hmethod fun hneed hlooter => hnot ⟨hneed, hlooter⟩
    refine ⟨hfirst, ?_⟩
    intro hkeeps player hmem hnear
    rw [hfirst] at hkeeps
    cases hlooter : group.looterGuid with
    | none =>
        rw [hlooter] at hkeeps
        have hin : player ∈ group.inTurn := by
          rw [inTurn, hlooter]
          exact hmem
        exact absurd hnear (List.find?_eq_none.1 hkeeps player hin)
    | some looter =>
        rw [hlooter] at hkeeps
        rw [alone_of_looter_keeps hslots hlooter hkeeps hmem hnear]
  · intro kills player hplayer other hother hnear honear
    exact turns_fair hmethod hslots kills hplayer hnear hother honear

/-- Three members in a group that loots in the given way; the first is the looter. -/
def threeMembers (lootMethod : LootMethod) : LootingGroup Nat where
  memberSlots := [1, 2, 3].map fun guid => ⟨guid, "", 0, 0⟩
  invitees := []
  leaderGuid := 1
  isRaidGroup := false
  bgGroup := none
  subGroupsCounts := none
  rolls := []
  lootMethod := lootMethod
  looterGuid := some 1

theorem updateLooterGuid_takes_turns_three :
    ((threeMembers .roundRobin).updateLooterGuid ⟨fun _ => true, fun guid => guid ≠ 2⟩
      false).looterGuid = (threeMembers .roundRobin).inTurn.find? fun guid => guid ≠ 2 :=
  (((updateLooterGuid_takes_turns ⟨fun _ => true, fun guid => guid ≠ 2⟩
    (threeMembers .roundRobin) (by decide)).2.2 (by decide)).1 false (by simp)).1

/-- In free for all, and where he is near in the `ifneed` mode, the looter stays. -/
theorem looter_keeps_turn :
    ((threeMembers .freeForAll).updateLooterGuid ⟨fun _ => true, fun _ => true⟩
        false).looterGuid = some 1 ∧
      (threeMembers .freeForAll).inTurn.find? (fun _ => true) = some 2 ∧
      ((threeMembers .roundRobin).updateLooterGuid ⟨fun _ => true, fun _ => true⟩
        true).looterGuid = some 1 ∧
      (threeMembers .roundRobin).inTurn.find? (fun _ => true) = some 2 := by
  decide

end LootingGroup

end Sunstrider.Groups
