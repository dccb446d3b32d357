import Sunstrider.Lib.Tally
import Sunstrider.Proofs.GroupSteps

/-!
# The counts of the subgroups

A raid keeps an array with the number of members in each subgroup, beside the
slots that say the same. `Group.Sized` ties the two together and adds the bounds:
five to a subgroup, five to a party. Each function that writes to the slots is
taken on its own here, and keeps the tie with no condition on how many there are;
the bounds need room for a new member, and that is for whoever calls it to see to.

`changeMembersGroup` counts the member in before it counts the member out, so two
members who change places go through a subgroup of six; `Sized` holds again after
both moves.
-/

set_option linter.unusedSectionVars false

namespace Sunstrider.Groups

open Looting Lib

variable {P : Type} [LinearOrder P]

namespace Group

variable {G G' : Group P} {s : MemberSlot P} {guid : P}

/-- The subgroup of each member. -/
def subgroups (G : Group P) : List Nat := G.memberSlots.map MemberSlot.group

/-- The array, where there is one, has the counts of the subgroups. -/
structure Tallied (G : Group P) : Prop where
  raid : G.isRaidGroup = true →
    ∃ cells, G.subGroupsCounts = some cells ∧
      Counts maxRaidSubgroups cells fun g => G.subgroups.count g
  party : G.isRaidGroup = false → G.subGroupsCounts = none
  bounded : ∀ g ∈ G.subgroups, g < maxRaidSubgroups

/-- The bounds on a group. -/
structure Fits (G : Group P) : Prop extends Tallied G where
  room : ∀ g, G.subgroups.count g ≤ maxGroupSize
  size : G.isRaidGroup = false → G.memberSlots.length ≤ maxGroupSize

/-- A raid has members from the start. -/
structure Sized (G : Group P) : Prop extends Fits G where
  created : G.isRaidGroup = true → G.memberSlots ≠ []

/-- What the counts are about is unchanged. -/
structure SameSlots (G G' : Group P) : Prop where
  isRaidGroup : G'.isRaidGroup = G.isRaidGroup
  subGroupsCounts : G'.subGroupsCounts = G.subGroupsCounts
  subgroups : G'.subgroups = G.subgroups

theorem length_subgroups (G : Group P) : G.subgroups.length = G.memberSlots.length :=
  List.length_map _

theorem subgroups_ne_nil (G : Group P) : G.subgroups ≠ [] ↔ G.memberSlots ≠ [] := by
  unfold subgroups
  rw [Ne, List.map_eq_nil_iff]

theorem SameSlots.sized (h : SameSlots G G') (hG : G.Sized) : G'.Sized where
  raid := by
    rw [h.isRaidGroup, h.subGroupsCounts, h.subgroups]
    exact hG.raid
  party := by
    rw [h.isRaidGroup, h.subGroupsCounts]
    exact hG.party
  bounded := by
    rw [h.subgroups]
    exact hG.bounded
  room := by
    rw [h.subgroups]
    exact hG.room
  size := by
    rw [h.isRaidGroup, ← length_subgroups, h.subgroups, length_subgroups]
    exact hG.size
  created := by
    rw [h.isRaidGroup, ← subgroups_ne_nil, h.subgroups, subgroups_ne_nil]
    exact hG.created

/-- Forty members fit into a raid. -/
theorem Sized.raid_size (h : G.Sized) : G.memberSlots.length ≤ maxRaidSize := by
  rw [← length_subgroups]
  exact length_le_of_count (n := maxRaidSubgroups) h.bounded h.room

theorem sized_new (leader : P) (bg : Option Nat) : (Group.new leader bg).Sized where
  raid := fun h => by cases h
  party := fun _ => rfl
  bounded := fun g hg => by cases hg
  room := fun g => Nat.zero_le _
  size := fun _ => Nat.zero_le _
  created := fun h => by cases h

/-! ## One more -/

theorem incr8_eq {n : Nat} (h : n ≤ maxGroupSize) : incr8 n = n + 1 := by
  have hmax : maxGroupSize = 5 := rfl
  unfold incr8
  omega

theorem decr8_eq {n : Nat} (h : n ≤ 254) : decr8 (n + 1) = n := by
  unfold decr8
  omega

theorem subgroups_pushSlot (s : MemberSlot P) (G : Group P) :
    (G.pushSlot s).subgroups = G.subgroups ++ [s.group] := List.map_append

theorem Fits.pushSlot (h : G.Fits) (hs : s.group < maxRaidSubgroups)
    (hroom : G.subgroups.count s.group < maxGroupSize)
    (hsize : G.isRaidGroup = false → G.memberSlots.length < maxGroupSize) :
    (G.pushSlot s).Sized where
  raid := by
    intro hraid
    obtain ⟨cells, hcells, hcount⟩ := h.raid hraid
    refine ⟨cells.modify s.group incr8, ?_, hcount.modify ?_ ?_⟩
    · show (G.subGroupsCounts.map fun counts => counts.modify s.group incr8) = _
      rw [hcells]
      rfl
    · intro _
      rw [incr8_eq (by omega), subgroups_pushSlot, count_concat, if_pos rfl]
    · intro g hg
      rw [subgroups_pushSlot, count_concat, if_neg (Ne.symm hg), Nat.add_zero]
  party := by
    intro hraid
    show (G.subGroupsCounts.map _) = _
    rw [h.party hraid]
    rfl
  bounded := by
    intro g hg
    rw [subgroups_pushSlot, List.mem_append, List.mem_singleton] at hg
    rcases hg with hg | hg
    · exact h.bounded g hg
    · rw [hg]
      exact hs
  room := by
    intro g
    have hg := h.room g
    rw [subgroups_pushSlot, count_concat]
    split <;> rename_i hgs
    · rw [← hgs]
      omega
    · omega
  size := by
    intro hraid
    have hlen := hsize hraid
    show (G.memberSlots ++ [s]).length ≤ _
    rw [List.length_append, List.length_singleton]
    omega
  created := fun _ => by
    show G.memberSlots ++ [s] ≠ []
    simp

/-- The subgroup `AddMember` finds has room, in a party with room as well. -/
theorem Fits.freeSubGroup (h : G.Fits) {sub : Nat} (hsub : G.freeSubGroup = some sub)
    (hsize : G.isRaidGroup = false → G.memberSlots.length < maxGroupSize) :
    sub < maxRaidSubgroups ∧ G.subgroups.count sub < maxGroupSize := by
  unfold Group.freeSubGroup at hsub
  cases hraid : G.isRaidGroup with
  | true =>
      obtain ⟨cells, hcells, hcount⟩ := h.raid hraid
      rw [hcells] at hsub
      have hlt := List.mem_range.1 (List.mem_of_find?_eq_some hsub)
      have hfree := List.find?_some hsub
      rw [hcount.getD hlt] at hfree
      exact ⟨hlt, of_decide_eq_true hfree⟩
  | false =>
      rw [h.party hraid] at hsub
      obtain rfl := Option.some.inj hsub
      have hle := List.count_le_length (a := 0) (l := G.subgroups)
      have hlen := hsize hraid
      rw [length_subgroups] at hle
      refine ⟨by decide, by omega⟩

/-! ## One less -/

theorem getMemberSlot_index (h : G.getMemberSlot guid = some s) :
    ∃ i, G.memberSlots.findIdx? (fun s => s.guid = guid) = some i ∧
      G.memberSlots[i]? = some s := by
  unfold getMemberSlot at h
  rw [List.find?_eq_bind_findIdx?_getElem?] at h
  exact Option.bind_eq_some_iff.1 h

theorem getMemberSlot_guid (h : G.getMemberSlot guid = some s) : s.guid = guid := by
  have hp := List.find?_some (show G.memberSlots.find? (fun s => s.guid = guid) = some s from h)
  exact of_decide_eq_true hp

theorem Sized.eraseSlot (h : G.Sized) (guid : P) (hlen : 1 < G.memberSlots.length) :
    (G.eraseSlot guid).Sized := by
  unfold Group.eraseSlot
  cases hs : G.getMemberSlot guid with
  | none => exact h
  | some s =>
      dsimp only
      have hperm := perm_cons_eraseP hs
      have hsub : G.subgroups.Perm
          (s.group :: (G.memberSlots.eraseP fun s => s.guid = guid).map MemberSlot.group) :=
        hperm.map MemberSlot.group
      have hcount := fun g => count_perm_cons hsub g
      have hle := h.room s.group
      have hmax : maxGroupSize = 5 := rfl
      refine ⟨⟨⟨?_, ?_, ?_⟩, ?_, ?_⟩, ?_⟩
      · intro hraid
        obtain ⟨cells, hcells, hc⟩ := h.raid hraid
        refine ⟨cells.modify s.group decr8, ?_, hc.modify ?_ ?_⟩
        · show (G.subGroupsCounts.map fun counts => counts.modify s.group decr8) = _
          rw [hcells]
          rfl
        · intro _
          have hself := hcount s.group
          rw [if_pos rfl] at hself
          rw [hself, decr8_eq (by omega)]
          rfl
        · intro g hg
          have hother := hcount g
          rw [if_neg (Ne.symm hg)] at hother
          exact hother.symm
      · intro hraid
        show (G.subGroupsCounts.map _) = _
        rw [h.party hraid]
        rfl
      · intro g hg
        exact h.bounded g (hsub.mem_iff.2 (List.mem_cons_of_mem _ hg))
      · intro g
        have hg := hcount g
        have hroom := h.room g
        show ((G.memberSlots.eraseP fun s => s.guid = guid).map MemberSlot.group).count g ≤ _
        omega
      · intro hraid
        have hsize := h.size hraid
        have hlen' := hperm.length_eq
        rw [List.length_cons] at hlen'
        show (G.memberSlots.eraseP fun s => s.guid = guid).length ≤ _
        omega
      · intro _ hnil
        have hlen' := hperm.length_eq
        have hnil' : (G.memberSlots.eraseP fun s => s.guid = guid) = [] := hnil
        rw [hnil'] at hlen'
        simp only [List.length_cons, List.length_nil] at hlen'
        omega

/-! ## A raid is made -/

theorem counts_foldl {cells : List Nat} {c : Nat → Nat} (gs : List Nat)
    (h : Counts maxRaidSubgroups cells c) (hle : ∀ g, c g + gs.count g ≤ maxGroupSize) :
    Counts maxRaidSubgroups (gs.foldl (fun counts g => counts.modify g incr8) cells)
      fun g => c g + gs.count g := by
  induction gs generalizing cells c with
  | nil => exact h
  | cons a gs ih =>
      have hcons : ∀ g, c g + (a :: gs).count g =
          (c g + if a = g then 1 else 0) + gs.count g := by
        intro g
        rw [List.count_cons]
        simp only [beq_iff_eq]
        omega
      have hstep : Counts maxRaidSubgroups (cells.modify a incr8)
          fun g => c g + if a = g then 1 else 0 := by
        refine h.modify ?_ ?_
        · intro _
          have ha := hle a
          rw [List.count_cons_self] at ha
          rw [incr8_eq (by omega), if_pos rfl]
        · intro g hg
          rw [if_neg (Ne.symm hg), Nat.add_zero]
      rw [List.foldl_cons]
      simp only [hcons]
      exact ih hstep fun g => by rw [← hcons]; exact hle g

/-- The array that is made anew. -/
theorem counts_init (h : ∀ g, G.subgroups.count g ≤ maxGroupSize) :
    ∃ cells, G.initRaidSubGroupsCounter.subGroupsCounts = some cells ∧
      Counts maxRaidSubgroups cells fun g => G.subgroups.count g := by
  refine ⟨_, rfl, ?_⟩
  have hfold := counts_foldl (c := fun _ => 0) G.subgroups (Counts.zero maxRaidSubgroups)
    (by simpa using h)
  simp only [Nat.zero_add] at hfold
  unfold subgroups at hfold
  rw [List.foldl_map] at hfold
  exact hfold

theorem Sized.convertToRaid (h : G.Sized) (hne : G.memberSlots ≠ []) :
    G.convertToRaid.Sized where
  raid := fun _ => counts_init (G := { G with isRaidGroup := true }) h.room
  party := fun hraid => by cases hraid
  bounded := h.bounded
  room := h.room
  size := fun hraid => by cases hraid
  created := fun _ => hne

/-- Where the leader is put into a group that has been created just now. -/
theorem Sized.create (h : G.Sized) (hnil : G.memberSlots = []) (leader : P) :
    (G.create leader).Fits ∧ (G.create leader).memberSlots = [] ∧
      (G.create leader).isRaidGroup = G.isBGGroup ∧
      (G.create leader).freeSubGroup = some 0 := by
  have hparty : G.isRaidGroup = false := by
    by_contra hraid
    exact h.created (by simpa using hraid) hnil
  unfold Group.create
  dsimp only
  cases hbg : G.isBGGroup with
  | false =>
      rw [if_neg (by simp)]
      refine ⟨⟨⟨fun hp => (by cases hp), fun _ => h.party hparty, h.bounded⟩, h.room,
        fun _ => h.size hparty⟩, hnil, rfl, ?_⟩
      unfold Group.freeSubGroup
      rw [show ({ G with leaderGuid := leader, isRaidGroup := false } : Group P).subGroupsCounts =
        none from h.party hparty]
  | true =>
      rw [if_pos rfl]
      refine ⟨⟨⟨fun _ => ?_, fun hp => (by cases hp), h.bounded⟩, h.room,
        fun hp => (by cases hp)⟩, hnil, rfl, ?_⟩
      · exact counts_init (G := { G with leaderGuid := leader, isRaidGroup := true }) h.room
      · unfold Group.freeSubGroup initRaidSubGroupsCounter
        dsimp only
        rw [hnil]
        rfl

/-! ## Members who move -/

theorem modifySlot_eq (h : G.getMemberSlot guid = some s) (f : MemberSlot P → MemberSlot P) :
    ∃ i, ∃ hi : i < G.memberSlots.length, G.memberSlots[i] = s ∧
      G.modifySlot guid f = { G with memberSlots := G.memberSlots.set i (f s) } := by
  obtain ⟨i, hfind, hget⟩ := getMemberSlot_index h
  obtain ⟨hi, hs⟩ := List.getElem?_eq_some_iff.1 hget
  refine ⟨i, hi, hs, ?_⟩
  unfold modifySlot
  rw [hfind]
  dsimp only
  rw [List.modify_eq_set_getElem? , hget]
  rfl

/-- A change to a slot that leaves its subgroup. -/
theorem sameSlots_modifySlot (guid : P) {f : MemberSlot P → MemberSlot P}
    (hf : ∀ s, (f s).group = s.group) (G : Group P) : SameSlots G (G.modifySlot guid f) := by
  unfold modifySlot
  split
  · exact ⟨rfl, rfl, rfl⟩
  · exact ⟨rfl, rfl, Lib.map_modify_of_same hf G.memberSlots _⟩

/-- One member has gone from one subgroup to another. -/
structure Moved (G G' : Group P) (old new : Nat) : Prop where
  isRaidGroup : G'.isRaidGroup = G.isRaidGroup
  length : G'.memberSlots.length = G.memberSlots.length
  count : ∀ g, G'.subgroups.count g + (if old = g then 1 else 0) =
    G.subgroups.count g + if new = g then 1 else 0
  cells : ∀ cells, G.subGroupsCounts = some cells →
    Counts maxRaidSubgroups cells (fun g => G.subgroups.count g) →
    ∃ cells', G'.subGroupsCounts = some cells' ∧
      Counts maxRaidSubgroups cells' fun g => G'.subgroups.count g

theorem changeMembersGroup_moved {group : Nat} (hraid : G.isRaidGroup = true)
    (hs : G.getMemberSlot guid = some s) (hne : s.group ≠ group)
    (hnew : G.subgroups.count group ≤ maxGroupSize)
    (hold : G.subgroups.count s.group ≤ maxGroupSize + 1) :
    Moved G (G.changeMembersGroup guid group) s.group group := by
  obtain ⟨i, hi, hget, hset⟩ := modifySlot_eq hs fun s => { s with group := group }
  have hsub : (G.changeMembersGroup guid group).subgroups = G.subgroups.set i group := by
    unfold changeMembersGroup
    rw [if_neg (by rw [hraid]; decide), hs]
    dsimp only
    rw [if_neg hne, hset]
    exact List.map_set
  have hcells : (G.changeMembersGroup guid group).subGroupsCounts =
      (G.subGroupsCounts.map fun counts => counts.modify group incr8).map
        fun counts => counts.modify s.group decr8 := by
    unfold changeMembersGroup
    rw [if_neg (by rw [hraid]; decide), hs]
    dsimp only
    rw [if_neg hne, hset]
    rfl
  have hi' : i < G.subgroups.length := by
    rw [length_subgroups]
    exact hi
  have hold' : G.subgroups[i] = s.group := by
    refine Option.some.inj ?_
    rw [← List.getElem?_eq_getElem hi']
    unfold subgroups
    rw [List.getElem?_map, List.getElem?_eq_getElem hi, hget]
    rfl
  have hcount : ∀ g, (G.changeMembersGroup guid group).subgroups.count g +
      (if s.group = g then 1 else 0) = G.subgroups.count g + if group = g then 1 else 0 := by
    intro g
    rw [hsub, ← hold']
    exact count_set_balance hi' group g
  have hmax : maxGroupSize = 5 := rfl
  refine ⟨?_, ?_, hcount, ?_⟩
  · unfold changeMembersGroup
    rw [if_neg (by rw [hraid]; decide), hs]
    dsimp only
    rw [if_neg hne, hset]
    rfl
  · rw [← length_subgroups, hsub, List.length_set, length_subgroups]
  · intro cells hc hcounts
    rw [hc] at hcells
    refine ⟨_, hcells, ?_⟩
    -- first the new subgroup gains a member
    have hgain : Counts maxRaidSubgroups (cells.modify group incr8)
        fun g => G.subgroups.count g + if group = g then 1 else 0 := by
      refine hcounts.modify ?_ ?_
      · intro _
        rw [incr8_eq hnew, if_pos rfl]
      · intro g hg
        rw [if_neg (Ne.symm hg), Nat.add_zero]
    refine hgain.modify ?_ ?_
    · intro _
      have hself := hcount s.group
      rw [if_pos rfl, if_neg (Ne.symm hne)] at hself
      rw [if_neg (Ne.symm hne), ← hself, decr8_eq (by omega)]
    · intro g hg
      have hother := hcount g
      rw [if_neg (Ne.symm hg), Nat.add_zero] at hother
      exact hother

theorem bounded_of_counts
    (h : ∀ g, maxRaidSubgroups ≤ g → G'.subgroups.count g ≤ G.subgroups.count g)
    (hG : ∀ g ∈ G.subgroups, g < maxRaidSubgroups) : ∀ g ∈ G'.subgroups, g < maxRaidSubgroups := by
  intro g hg
  by_contra hge
  have hpos := List.count_pos_iff.2 hg
  have hle := h g (by omega)
  exact hge (hG g (List.count_pos_iff.1 (by omega)))

/-- A group with as many members in each subgroup as before, or a free place taken. -/
theorem Sized.of_counts (h : G.Sized) (hraid : G.isRaidGroup = true)
    (hraid' : G'.isRaidGroup = true) (hlen : G'.memberSlots.length = G.memberSlots.length)
    (hcells : ∃ cells, G'.subGroupsCounts = some cells ∧ Counts maxRaidSubgroups cells fun g =>
      G'.subgroups.count g)
    (hbounded : ∀ g ∈ G'.subgroups, g < maxRaidSubgroups)
    (hroom : ∀ g, G'.subgroups.count g ≤ maxGroupSize) : G'.Sized where
  raid := fun _ => hcells
  party := fun hp => by rw [hraid'] at hp; cases hp
  bounded := hbounded
  room := hroom
  size := fun hp => by rw [hraid'] at hp; cases hp
  created := fun _ hnil => h.created hraid (by
    rw [hnil] at hlen
    exact List.length_eq_zero_iff.1 hlen.symm)

theorem changeMembersGroup_party (h : G.isRaidGroup = false) (guid : P) (group : Nat) :
    G.changeMembersGroup guid group = G := by
  unfold changeMembersGroup
  rw [h]
  rfl

theorem changeMembersGroup_absent (h : G.getMemberSlot guid = none) (group : Nat) :
    G.changeMembersGroup guid group = G := by
  unfold changeMembersGroup
  rw [h]
  split <;> rfl

theorem changeMembersGroup_same (h : G.getMemberSlot guid = some s) :
    G.changeMembersGroup guid s.group = G := by
  unfold changeMembersGroup
  rw [h]
  dsimp only
  rw [if_pos rfl]
  split <;> rfl

/-- To a subgroup with a free place. -/
theorem Sized.changeMembersGroup (h : G.Sized) (guid : P) {group : Nat}
    (hlt : group < maxRaidSubgroups) (hfree : G.hasFreeSlotSubGroup group = true) :
    (G.changeMembersGroup guid group).Sized := by
  cases hraid : G.isRaidGroup with
  | false =>
      rw [changeMembersGroup_party hraid]
      exact h
  | true =>
      obtain ⟨cells, hcells, hcounts⟩ := h.raid hraid
      have hroom : G.subgroups.count group < maxGroupSize := by
        unfold hasFreeSlotSubGroup at hfree
        rw [hcells] at hfree
        have hfree' := of_decide_eq_true hfree
        rw [hcounts.getD hlt] at hfree'
        exact hfree'
      cases hs : G.getMemberSlot guid with
      | none =>
          rw [changeMembersGroup_absent hs]
          exact h
      | some s =>
          by_cases hne : s.group = group
          · rw [← hne, changeMembersGroup_same hs]
            exact h
          · have hold := h.room s.group
            have hm := changeMembersGroup_moved hraid hs hne (by omega) (by omega)
            refine h.of_counts hraid (hm.isRaidGroup.trans hraid) hm.length
              (hm.cells cells hcells hcounts) ?_ ?_
            · refine bounded_of_counts (fun g hg => ?_) h.bounded
              have hcount := hm.count g
              rw [if_neg (show ¬ group = g by omega)] at hcount
              omega
            · intro g
              have hcount := hm.count g
              have hg := h.room g
              by_cases hgg : group = g
              · rw [if_pos hgg] at hcount
                rw [hgg] at hroom
                omega
              · rw [if_neg hgg] at hcount
                omega

theorem find?_set_of_not {α : Type} {p : α → Bool} {l : List α} {i : Nat} {a : α}
    (hi : ∀ b, l[i]? = some b → p b = false) (ha : p a = false) :
    (l.set i a).find? p = l.find? p := by
  induction l generalizing i with
  | nil => rfl
  | cons b l ih =>
      cases i with
      | zero =>
          rw [List.set_cons_zero, List.find?_cons, List.find?_cons, ha, hi b rfl]
      | succ i =>
          rw [List.set_cons_succ, List.find?_cons, List.find?_cons]
          split
          · rfl
          · exact ih hi

theorem getMemberSlot_changeMembersGroup {guid' : P} (hne : guid ≠ guid') (group : Nat) :
    (G.changeMembersGroup guid group).getMemberSlot guid' = G.getMemberSlot guid' := by
  cases hraid : G.isRaidGroup with
  | false => rw [changeMembersGroup_party hraid]
  | true =>
      cases hs : G.getMemberSlot guid with
      | none => rw [changeMembersGroup_absent hs]
      | some s =>
          by_cases hgroup : s.group = group
          · rw [← hgroup, changeMembersGroup_same hs]
          · obtain ⟨i, hi, hget, hset⟩ := modifySlot_eq hs fun s => { s with group := group }
            have hguid := getMemberSlot_guid hs
            unfold changeMembersGroup
            rw [hraid, hs]
            dsimp only
            rw [if_neg (by decide), if_neg hgroup, hset]
            refine find?_set_of_not (fun b hb => ?_) ?_
            · obtain rfl : s = b := by
                rw [List.getElem?_eq_getElem hi, hget] at hb
                exact Option.some.inj hb
              simpa [hguid] using hne
            · simpa [hguid] using hne

/-- Two members change places. -/
theorem Sized.swap (h : G.Sized) (hraid : G.isRaidGroup = true) {guid1 guid2 : P}
    {s1 s2 : MemberSlot P} (hs1 : G.getMemberSlot guid1 = some s1)
    (hs2 : G.getMemberSlot guid2 = some s2) (hne : s1.group ≠ s2.group) :
    ((G.changeMembersGroup guid1 s2.group).changeMembersGroup guid2 s1.group).Sized := by
  have hguid : guid1 ≠ guid2 := by
    intro he
    rw [he, hs2] at hs1
    exact hne (congrArg MemberSlot.group (Option.some.inj hs1)).symm
  obtain ⟨cells, hcells, hcounts⟩ := h.raid hraid
  have hm1 := changeMembersGroup_moved hraid hs1 hne (h.room s2.group)
    (Nat.le_succ_of_le (h.room s1.group))
  obtain ⟨cells1, hcells1, hcounts1⟩ := hm1.cells cells hcells hcounts
  have hs2' : (G.changeMembersGroup guid1 s2.group).getMemberSlot guid2 = some s2 := by
    rw [getMemberSlot_changeMembersGroup hguid, hs2]
  have hone := hm1.count s1.group
  have htwo := hm1.count s2.group
  rw [if_pos rfl, if_neg (Ne.symm hne)] at hone
  rw [if_pos rfl, if_neg hne] at htwo
  have hroom1 := h.room s1.group
  have hroom2 := h.room s2.group
  have hm2 := changeMembersGroup_moved (hm1.isRaidGroup.trans hraid) hs2' (Ne.symm hne)
    (by omega) (by omega)
  have hcount : ∀ g, ((G.changeMembersGroup guid1 s2.group).changeMembersGroup guid2
      s1.group).subgroups.count g = G.subgroups.count g := by
    intro g
    have h1 := hm1.count g
    have h2 := hm2.count g
    omega
  refine h.of_counts hraid (hm2.isRaidGroup.trans (hm1.isRaidGroup.trans hraid))
    (hm2.length.trans hm1.length) (hm2.cells cells1 hcells1 hcounts1) ?_ ?_
  · exact bounded_of_counts (fun g _ => Nat.le_of_eq (hcount g)) h.bounded
  · intro g
    rw [hcount]
    exact h.room g

end Group

end Sunstrider.Groups
