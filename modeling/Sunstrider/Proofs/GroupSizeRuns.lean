import Sunstrider.Proofs.GroupRollRuns
import Sunstrider.Proofs.GroupSizes

/-!
# Groups that fit, along runs

One lemma for each handler, from what it tests before it writes: an accepted
invitation has seen that the group is not full, a member moves to a subgroup that
has a free slot, a party is converted by a leader with somebody to lead. Then the
step and the run.

`SizesOk` spells out what `Sized` is for. The sixth member of a party comes at the
end, through the looking-for-group tool.
-/

set_option linter.unusedSectionVars false

namespace Sunstrider.Groups

open Looting Lib

variable {P : Type} [LinearOrder P]

namespace World

variable {w w' : World P}

variable {G : Group P}

/-! ## Handlers -/

theorem orderly_inviteTo (h : Orderly w) (inviter target : P) :
    Orderly (w.inviteTo inviter target) := by
  unfold inviteTo
  split
  · split
    · exact h
    · split
      · exact h
      · split
        · exact h
        · exact of_getD h fun w' hadd => orderly_addInvite hadd h
  · dsimp only
    split <;> rename_i hadd
    · exact h
    · exact of_getD h fun w' hadd' =>
        orderly_addInvite hadd' (orderly_addInvite hadd (h.newGroup inviter none))

theorem orderly_handleGroupInvite (h : Orderly w) (inviter target : P) (allowed : Bool) :
    Orderly (w.handleGroupInvite inviter target allowed) := by
  unfold handleGroupInvite
  split
  · exact h
  · split
    · exact h
    · split
      · exact h
      · exact orderly_inviteTo h inviter target

theorem orderly_commitRows (h : Orderly w) (g : Nat) (new : List P) :
    Orderly (w.commitRows g new) := by
  unfold commitRows
  split
  · exact h
  · exact h.of_eq rfl rfl

/-- A group without slots is a party, and has room for the leader and one more. -/
theorem orderly_acceptFirst (h : Orderly w) {g : Nat} (hG : w.groups g = some G)
    (hnil : G.memberSlots = []) (leader p : P) : Orderly (w.acceptFirst g leader p) := by
  unfold acceptFirst
  split
  · exact orderly_removeAllInvites h g
  · have hr := orderly_removeInvite h g leader
    have hG' : (w.removeInvite g leader).groups g =
        some { G with invitees := G.invitees.filter (· ≠ leader) } :=
      groups_modifyGroup_self _ hG
    dsimp only
    split <;> rename_i hcreate
    · exact hr
    · obtain ⟨hc, hroom⟩ := orderly_create hcreate hG' hnil hr
      split <;> rename_i hadd
      · exact hc
      · exact orderly_commitRows (orderly_addMember hadd hroom hc) g _

theorem length_of_not_full (h : ¬ G.isFull = true) (hparty : G.isRaidGroup = false) :
    G.memberSlots.length < maxGroupSize := by
  unfold Group.isFull at h
  rw [if_neg (by rw [hparty]; decide), decide_eq_true_eq] at h
  omega

theorem orderly_handleGroupAccept (h : Orderly w) (p : P) : Orderly (w.handleGroupAccept p) := by
  unfold handleGroupAccept
  split
  · exact h
  · rename_i g _
    split <;> rename_i hG
    · exact h
    · rename_i G
      split
      · exact h
      · have hr := orderly_removeInvite h g p
        have hG' : (w.removeInvite g p).groups g =
            some { G with invitees := G.invitees.filter (· ≠ p) } := groups_modifyGroup_self _ hG
        dsimp only
        split <;> rename_i hfull
        · exact hr
        · split <;> rename_i hcreated
          · have hroom : (w.removeInvite g p).HasRoom g := by
              intro G' hG₁ hparty
              obtain rfl := Option.some.inj (hG'.symm.trans hG₁)
              exact length_of_not_full hfull hparty
            split <;> rename_i hadd
            · exact hr
            · exact orderly_commitRows (orderly_addMember hadd hroom hr) g _
          · refine orderly_acceptFirst hr hG' ?_ G.leaderGuid p
            show G.memberSlots = []
            unfold Group.isCreated Group.getMembersCount at hcreated
            rw [decide_eq_true_eq] at hcreated
            exact List.length_eq_zero_iff.1 (by omega)

theorem orderly_handleGroupDecline (h : Orderly w) (p : P) : Orderly (w.handleGroupDecline p) := by
  unfold handleGroupDecline
  split
  · exact h
  · split <;> rename_i hG
    · exact h
    · split
      · exact h
      · have hinvite : ∀ w' : World P, Orderly w' → Orderly (w'.setGroupInvite none p) :=
          fun w' h' => h'.of_eq rfl rfl
        dsimp only
        split
        · exact hinvite w h
        · exact hinvite _ ((removeAllInvites_deleteGroup hG).orderly h)

theorem orderly_applyUninvite (h : Orderly w) (d : UninviteDecision P) :
    Orderly (w.applyUninvite d) := by
  cases d with
  | ignore => exact h
  | answer res => exact h
  | removeFromGroup g guid => exact orderly_removeMember h g guid
  | uninviteFromGroup q => exact orderly_uninviteFromGroup h q

theorem orderly_handleGroupRaidConvert (h : Orderly w) (p : P) :
    Orderly (w.handleGroupRaidConvert p) := by
  refine of_onGroupOf h fun g G _ hG => ?_
  split
  · exact h
  · split <;> rename_i hmay
    · exact h
    · refine h.write g rfl rfl fun G' hG' => ⟨?_, fun _ => rfl⟩
      obtain rfl : G = G' := Option.some.inj (hG.symm.trans hG')
      refine (h.sized g G hG).convertToRaid ?_
      intro hnil
      unfold Group.getMembersCount at hmay
      rw [hnil] at hmay
      simp at hmay

theorem isRaidGroup_changeMembersGroup (guid : P) (group : Nat) (G : Group P) :
    (G.changeMembersGroup guid group).isRaidGroup = G.isRaidGroup := by
  unfold Group.changeMembersGroup
  split
  · rfl
  · split
    · rfl
    · split
      · rfl
      · show (Group.modifySlot _ _ _).isRaidGroup = _
        unfold Group.modifySlot
        split <;> rfl

theorem orderly_handleGroupChangeSubGroup (h : Orderly w) (realm : Realm P) (p : P)
    (name : String) (groupNr : Nat) :
    Orderly (w.handleGroupChangeSubGroup realm p name groupNr) := by
  refine of_onGroupOf h fun g G _ hG => ?_
  split
  · exact h
  · split <;> rename_i hnr
    · exact h
    · split
      · exact h
      · split <;> rename_i hfree
        · exact h
        · split
          · exact h
          · refine h.write g rfl rfl fun G' hG' => ⟨?_, fun hraid => ?_⟩
            · obtain rfl : G = G' := Option.some.inj (hG.symm.trans hG')
              exact (h.sized g G hG).changeMembersGroup _ (by omega) (by simpa using hfree)
            · rw [isRaidGroup_changeMembersGroup]
              exact hraid

/-- The subgroup `GetMemberGroup` finds is that of a slot. -/
theorem getMemberGroup_slot {guid : P} (h : G.getMemberGroup guid ≠ maxRaidSubgroups + 1) :
    ∃ s, G.getMemberSlot guid = some s ∧ G.getMemberGroup guid = s.group := by
  unfold Group.getMemberGroup at h ⊢
  cases hs : G.getMemberSlot guid with
  | none =>
      rw [hs] at h
      exact absurd rfl h
  | some s => exact ⟨s, rfl, rfl⟩

theorem orderly_handleGroupSwapSubGroup (h : Orderly w) (realm : Realm P) (p : P)
    (name1 name2 : String) : Orderly (w.handleGroupSwapSubGroup realm p name1 name2) := by
  unfold handleGroupSwapSubGroup
  split
  · rename_i guid1 guid2 _ _
    refine of_onGroupOf h fun g G _ hG => ?_
    split <;> rename_i hraid
    · exact h
    · split
      · exact h
      · dsimp only
        split <;> rename_i hmembers
        · exact h
        · split <;> rename_i hne
          · exact h
          · push Not at hmembers
            obtain ⟨s1, hs1, hgroup1⟩ := getMemberGroup_slot hmembers.1
            obtain ⟨s2, hs2, hgroup2⟩ := getMemberGroup_slot hmembers.2
            refine h.write g rfl rfl fun G' hG' => ⟨?_, fun hraid' => ?_⟩
            · obtain rfl : G = G' := Option.some.inj (hG.symm.trans hG')
              rw [hgroup1, hgroup2] at hne ⊢
              exact (h.sized g G hG).swap (by simpa using hraid) hs1 hs2 hne
            · rw [isRaidGroup_changeMembersGroup, isRaidGroup_changeMembersGroup]
              exact hraid'
  · exact h

theorem sameSlots_setGroupMemberFlag (guid : P) (apply : Bool) (G : Group P) :
    G.SameSlots (G.setGroupMemberFlag guid apply) := by
  unfold Group.setGroupMemberFlag
  split
  · refine Group.sameSlots_modifySlot guid (f := fun s => { s with flags := _ }) ?_ G
    exact fun _ => rfl
  · exact ⟨rfl, rfl, rfl⟩

theorem groups_newGroup_self (w : World P) (leader : P) (bg : Option Nat) :
    (w.newGroup leader bg).groups w.nextGroup = some (Group.new leader bg) := by
  rw [groups_newGroup, if_pos rfl]

/-- The group of the player who takes somebody in has room, if it is there. -/
theorem orderly_lfgAdd {owner p : P} (hadd : w.lfgAdd owner p = some w') (h : Orderly w)
    (hroom : ∀ g, w.getGroup owner = some g → w.HasRoom g) : Orderly w' := by
  unfold lfgAdd at hadd
  split at hadd <;> rename_i hg
  · exact orderly_addMember hadd (hroom _ hg) h
  · dsimp only at hadd
    split at hadd <;> rename_i hcreate
    · cases hadd
    · obtain ⟨hc, hroom'⟩ := orderly_create hcreate (groups_newGroup_self w owner none) rfl
        (h.newGroup owner none)
      exact orderly_addMember hadd hroom' hc

theorem orderly_leadFromOutside (h : Orderly w) (g : Nat) (p : P) :
    Orderly (w.leadFromOutside g p) := by
  unfold leadFromOutside
  split
  · exact h
  · split
    · exact orderly_changeLeader h g p
    · exact h

/-- The raid of a battleground is one from the moment it is created. -/
theorem orderly_newBgRaid (h : Orderly w) (p : P) (b : Nat) (hb : w.bgRaids b = none) :
    Orderly (w.addOrSetPlayerToCorrectBgGroup p b) := by
  unfold addOrSetPlayerToCorrectBgGroup
  rw [hb]
  dsimp only
  generalize hw₁ : ({ w.newGroup p (some b) with
    bgRaids := Function.update (w.newGroup p (some b)).bgRaids b (some w.nextGroup) } :
      World P) = w₁
  have hG₁ : w₁.groups w.nextGroup = some (Group.new p (some b)) := by
    rw [← hw₁]
    exact groups_newGroup_self w p (some b)
  obtain ⟨w', hw', hraids, hobjects, hfits⟩ := create_eq p hG₁
    (Group.sized_new p (some b)) rfl
  rw [hw']
  show Orderly w'
  have hnew := h.newGroup p (some b)
  have hread : ∀ k, w'.groups k = if w.nextGroup = k then
      some (((Group.new p (some b)).create p).pushSlot (w₁.newSlot p 0)) else
        (w.newGroup p (some b)).groups k := by
    intro k
    have hk : w'.groups k = (w₁.modifyGroup w.nextGroup fun G =>
        (G.create p).pushSlot (w₁.newSlot p 0)).groups k := by
      unfold groups
      rw [hobjects]
    rw [hk, groups_modifyGroup]
    split <;> rename_i hkk
    · rw [← hkk, hG₁]
      rfl
    · rw [← hw₁]
      rfl
  refine ⟨fun k G hG => ?_, fun b' k hk => ?_⟩
  · rw [hread] at hG
    split at hG
    · obtain rfl := Option.some.inj hG
      exact hfits
    · exact hnew.sized k G hG
  · rw [hraids, ← hw₁] at hk
    rw [hread]
    split <;> rename_i hkk
    · exact ⟨_, rfl, rfl⟩
    · refine hnew.raids b' k ?_
      by_cases hbb : b' = b
      · subst hbb
        have hk' : Function.update (w.newGroup p (some b')).bgRaids b' (some w.nextGroup) b' =
            some k := hk
        rw [Function.update_self] at hk'
        exact absurd (Option.some.inj hk') hkk
      · have hk' : Function.update (w.newGroup p (some b)).bgRaids b (some w.nextGroup) b' =
            some k := hk
        rw [Function.update_of_ne hbb] at hk'
        exact hk'

theorem orderly_addOrSet (h : Orderly w) (p : P) (b : Nat) :
    Orderly (w.addOrSetPlayerToCorrectBgGroup p b) := by
  cases hb : w.bgRaids b with
  | none => exact orderly_newBgRaid h p b hb
  | some g =>
      unfold addOrSetPlayerToCorrectBgGroup
      rw [hb]
      dsimp only
      obtain ⟨G, hG, hraid⟩ := h.raids b g hb
      rw [hG]
      dsimp only
      split
      · exact (relinked_setBattlegroundRaid w g p).orderly h
      · refine orderly_leadFromOutside (of_getD h fun w' hadd => ?_) g p
        refine orderly_addMember hadd (fun G' hG' hparty => ?_) h
        obtain rfl : G = G' := Option.some.inj (hG.symm.trans hG')
        rw [hraid] at hparty
        cases hparty

theorem orderly_login (h : Orderly w) (p : P) : Orderly (w.login p) := by
  unfold login
  split
  · exact h
  · have hnew : Orderly (w.setPlayer p ⟨(w.players p).name, true, true, none, false⟩) :=
      h.of_eq rfl rfl
    dsimp only
    split
    · exact hnew
    · split
      · exact (relinked_setRef _ false _ p).orderly hnew
      · exact hnew

/-! ## Groups from the database -/

/-- The rows of a group that fits. -/
structure RowsFit (raid : Bool) (rows : List (MemberSlot P)) : Prop where
  bounded : ∀ s ∈ rows, s.group < maxRaidSubgroups
  room : ∀ g, (rows.map MemberSlot.group).count g ≤ maxGroupSize
  size : raid = false → rows.length ≤ maxGroupSize
  created : raid = true → rows ≠ []

/-- The slots `LoadMemberFromDB` pushes one by one. -/
theorem fits_pushRows (rows : List (MemberSlot P)) (h : G.Fits)
    (hbounded : ∀ s ∈ rows, s.group < maxRaidSubgroups)
    (hroom : ∀ g, G.subgroups.count g + (rows.map MemberSlot.group).count g ≤ maxGroupSize)
    (hsize : G.isRaidGroup = false → G.memberSlots.length + rows.length ≤ maxGroupSize) :
    (rows.foldl (fun G s => G.pushSlot s) G).Fits ∧
      (rows.foldl (fun G s => G.pushSlot s) G).memberSlots = G.memberSlots ++ rows ∧
      (rows.foldl (fun G s => G.pushSlot s) G).isRaidGroup = G.isRaidGroup := by
  induction rows generalizing G with
  | nil => exact ⟨h, (List.append_nil _).symm, rfl⟩
  | cons s rows ih =>
      rw [List.foldl_cons]
      have hpush : (G.pushSlot s).Sized := by
        refine h.pushSlot (hbounded s List.mem_cons_self) ?_ fun hparty => ?_
        · have hg := hroom s.group
          rw [List.map_cons, List.count_cons_self] at hg
          omega
        · have hlen := hsize hparty
          rw [List.length_cons] at hlen
          omega
      have hroom' : ∀ g, (G.pushSlot s).subgroups.count g +
          (rows.map MemberSlot.group).count g ≤ maxGroupSize := by
        intro g
        have hg := hroom g
        rw [List.map_cons, List.count_cons] at hg
        simp only [beq_iff_eq] at hg
        rw [Group.subgroups_pushSlot, count_concat]
        omega
      have hsize' : (G.pushSlot s).isRaidGroup = false →
          (G.pushSlot s).memberSlots.length + rows.length ≤ maxGroupSize := by
        intro hparty
        have hlen := hsize hparty
        rw [List.length_cons] at hlen
        show (G.memberSlots ++ [s]).length + rows.length ≤ _
        rw [List.length_append, List.length_singleton]
        omega
      obtain ⟨hfits, hslots, hraid⟩ := ih hpush.toFits
        (fun t ht => hbounded t (List.mem_cons_of_mem s ht)) hroom' hsize'
      exact ⟨hfits, hslots.trans (List.append_assoc G.memberSlots [s] rows), hraid⟩

theorem fits_loaded (leader : P) (raid : Bool) :
    (if raid then (Group.new leader none).convertToRaid else Group.new leader none).Fits := by
  have hnew := Group.sized_new leader none
  cases raid with
  | false => exact hnew.toFits
  | true =>
      refine ⟨⟨fun _ => ?_, fun hp => (by cases hp), hnew.bounded⟩, hnew.room,
        fun hp => (by cases hp)⟩
      exact Group.counts_init (G := { Group.new leader none with isRaidGroup := true }) hnew.room

theorem sized_loaded (leader : P) {raid : Bool} {rows : List (MemberSlot P)}
    (h : RowsFit raid rows) : (loaded leader raid rows).Sized := by
  have hnone : ∀ raid : Bool, (if raid then (Group.new leader none).convertToRaid
      else Group.new leader none).memberSlots = [] ∧
      (if raid then (Group.new leader none).convertToRaid
        else Group.new leader none).isRaidGroup = raid := by
    intro raid
    cases raid with
    | true => exact ⟨rfl, rfl⟩
    | false => exact ⟨rfl, rfl⟩
  obtain ⟨hnil, htype⟩ := hnone raid
  have hsub : ∀ g, (if raid then (Group.new leader none).convertToRaid
      else Group.new leader none).subgroups.count g = 0 := by
    intro g
    unfold Group.subgroups
    rw [hnil]
    rfl
  obtain ⟨hfits, hslots, hraid⟩ := fits_pushRows rows (fits_loaded leader raid) h.bounded
    (fun g => by rw [hsub, Nat.zero_add]; exact h.room g)
    (fun hp => by rw [hnil, List.length_nil, Nat.zero_add]; exact h.size (htype.symm.trans hp))
  refine ⟨hfits, fun hr => ?_⟩
  have hall : (loaded leader raid rows).memberSlots = rows := by
    refine hslots.trans ?_
    rw [hnil, List.nil_append]
  rw [hall]
  exact h.created (htype.symm.trans (hraid.symm.trans hr))

theorem orderly_loadGroup (h : Orderly w) (leader : P) {raid : Bool} {rows : List (MemberSlot P)}
    (hrows : RowsFit raid rows) : Orderly (w.loadGroup leader raid rows) :=
  h.add (groups_loadGroup w leader raid rows) rfl (sized_loaded leader hrows)

/-! ## Runs -/

/-- What nothing else sees to: a party that takes somebody in from the
looking-for-group tool has room, and the rows of a group are those of one that
fits. -/
def RoomToAdd (w : World P) (o : Op P) : Prop :=
  match o with
  | .attemptJoin p owner =>
      w.lfgPair owner p = true → ∀ g, w.getGroup owner = some g → w.HasRoom g
  | .attemptAddMore owner p =>
      w.lfgPair owner p = true → ∀ g, w.getGroup owner = some g → w.HasRoom g
  | .loadGroup _ raid rows => RowsFit raid rows
  | _ => True

theorem orderly_attemptAddMore (h : Orderly w) {owner p : P}
    (hroom : w.lfgPair owner p = true → ∀ g, w.getGroup owner = some g → w.HasRoom g) :
    Orderly (w.attemptAddMore owner p) := by
  unfold attemptAddMore
  split <;> rename_i hpair
  · split <;> rename_i hadd
    · exact h
    · split
      · exact orderly_lfgAdd hadd h (hroom hpair)
      · exact orderly_commitRows (orderly_lfgAdd hadd h (hroom hpair)) _ _
  · exact h

/-- One operation: every group still fits. -/
theorem orderly_step {realm : Realm P} {o : Op P} (h : Orderly w) (ho : RoomToAdd w o) :
    Orderly (w.step realm o) := by
  cases o with
  | login p => exact orderly_login h p
  | logout p => exact of_byPlayer h fun _ => (orderly_uninviteFromGroup h p).of_eq rfl rfl
  | setInWorld p b => exact of_byPlayer h fun _ => h.of_eq rfl rfl
  | invite p target allowed =>
      exact of_byPlayer h fun _ => orderly_handleGroupInvite h p target allowed
  | accept p => exact of_byPlayer h fun _ => orderly_handleGroupAccept h p
  | decline p => exact of_byPlayer h fun _ => orderly_handleGroupDecline h p
  | uninviteGuid p guid => exact of_byPlayer h fun _ => orderly_applyUninvite h _
  | uninviteName p name => exact of_byPlayer h fun _ => orderly_applyUninvite h _
  | leave p =>
      refine of_byPlayer h fun _ => of_onGroupOf h fun g G _ _ => ?_
      split
      · exact h
      · exact orderly_removeMember h g p
  | setLeader p guid =>
      refine of_byPlayer h fun _ => of_onGroupOf h fun g G _ _ => ?_
      split
      · exact h
      · exact orderly_changeLeader h g guid
  | raidConvert p => exact of_byPlayer h fun _ => orderly_handleGroupRaidConvert h p
  | changeSubGroup p name groupNr =>
      exact of_byPlayer h fun _ => orderly_handleGroupChangeSubGroup h realm p name groupNr
  | swapSubGroup p name1 name2 =>
      exact of_byPlayer h fun _ => orderly_handleGroupSwapSubGroup h realm p name1 name2
  | assistantLeader p guid apply =>
      refine of_byPlayer h fun _ => of_onGroupOf h fun g G _ _ => ?_
      split
      · exact h
      · exact h.write_same g rfl rfl (sameSlots_setGroupMemberFlag guid apply)
  | attemptJoin p owner =>
      show Orderly (w.attemptJoin p owner)
      unfold attemptJoin
      split <;> rename_i hpair
      · exact of_getD h fun w' hadd => orderly_lfgAdd hadd h (ho hpair)
      · exact h
  | attemptAddMore owner p => exact orderly_attemptAddMore h ho
  | joinBattleground p b =>
      have hin : Orderly (w.setInBattleground p true) := h.of_eq rfl rfl
      show Orderly (w.byPlayer p fun w =>
        (w.setInBattleground p true).addOrSetPlayerToCorrectBgGroup p b)
      exact of_byPlayer h fun _ => orderly_addOrSet hin p b
  | leaveBattleground p b =>
      show Orderly (w.leaveBattleground p b)
      unfold leaveBattleground
      cases w.bgRaids b with
      | none => exact h.of_eq rfl rfl
      | some g => exact (orderly_removeMember h g p).of_eq rfl rfl
  | removeMember g guid => exact orderly_removeMember h g guid
  | disband g => exact orderly_disband h g
  | changeLeader g guid => exact orderly_changeLeader h g guid
  | changeLeaderToFirstOnlineMember g => exact orderly_changeLeaderToFirst h g
  | loadGroup leader raid rows => exact orderly_loadGroup h leader ho
  | groupLoot env g lid => exact (quiet_startRolls env false g lid w).orderly h
  | needBeforeGreed env g lid => exact (quiet_startRolls env true g lid w).orderly h
  | lootRoll env p itemGUID rollType =>
      exact of_byPlayer h fun _ => (quiet_handleLootRoll env p itemGUID rollType w).orderly h
  | endRoll env allowedMap g lid => exact (quiet_endRoll env allowedMap g lid w).orderly h
  | loseLoot lid => exact (quiet_setLoot w lid none).orderly h

theorem orderly_start (names : P → String) (loots : Nat → Option (Loot P)) :
    Orderly (start names loots) := by
  refine ⟨fun g G hG => ?_, fun b g hb => ?_⟩
  · cases hG
  · cases hb

theorem orderly_run {realm : Realm P} {ops : List (Op P)} (h : Orderly w)
    (hops : Along (step realm) RoomToAdd w ops) : Orderly (w.run realm ops) :=
  Along.invariant (fun _ _ h ho => orderly_step h ho) h hops

end World

/-- The counters say how many members each subgroup has, none has more than five,
a raid has at most forty and a party at most five. -/
structure Group.SizesOk (G : Group P) : Prop where
  counters : ∀ counts, G.subGroupsCounts = some counts → ∀ g, g < maxRaidSubgroups →
    counts[g]? = some (G.memberSlots.countP fun s => s.group = g)
  raid : G.isRaidGroup = true →
    G.subGroupsCounts.isSome = true ∧ G.memberSlots.length ≤ maxRaidSize
  party : G.isRaidGroup = false → G.memberSlots.length ≤ maxGroupSize
  subgroups : ∀ s ∈ G.memberSlots, s.group < maxRaidSubgroups
  room : ∀ g, (G.memberSlots.countP fun s => s.group = g) ≤ maxGroupSize

theorem Group.count_subgroups (G : Group P) (g : Nat) :
    G.subgroups.count g = G.memberSlots.countP fun s => s.group = g := by
  unfold Group.subgroups List.count
  rw [List.countP_map]
  refine List.countP_congr fun s _ => ?_
  simp

theorem Group.Sized.sizesOk {G : Group P} (h : G.Sized) : G.SizesOk where
  counters := by
    intro counts hcounts g hg
    rw [← count_subgroups]
    cases hraid : G.isRaidGroup with
    | false =>
        rw [h.party hraid] at hcounts
        cases hcounts
    | true =>
        obtain ⟨cells, hcells, hcount⟩ := h.raid hraid
        obtain rfl : cells = counts := Option.some.inj (hcells.symm.trans hcounts)
        exact hcount.cell g hg
  raid := by
    intro hraid
    obtain ⟨cells, hcells, _⟩ := h.raid hraid
    rw [hcells]
    exact ⟨rfl, h.raid_size⟩
  party := h.size
  subgroups := fun s hs => h.bounded s.group (List.mem_map.2 ⟨s, hs, rfl⟩)
  room := by
    intro g
    rw [← count_subgroups]
    exact h.room g

namespace World

/-- In every run where the looking-for-group tool finds room and the rows of the
database fit, the counters are right and the bounds are kept. -/
theorem groups_fit {realm : Realm P} {names : P → String} {loots : Nat → Option (Loot P)}
    {ops : List (Op P)} (h : Along (step realm) RoomToAdd (start names loots) ops) (g : Nat)
    (G : Group P) (hG : ((start names loots).run realm ops).groups g = some G) : G.SizesOk :=
  ((orderly_run (orderly_start names loots) h).sized g G hG).sizesOk

/-! A party takes in a third from the looking-for-group tool and becomes a raid.
Another takes in a third, a fourth, a fifth and a sixth. -/

def lobby : World Nat := start (fun _ => "") fun _ => none

def party : List (Op Nat) := [.login 0, .login 1, .invite 0 1 true, .accept 1]

def third : List (Op Nat) := party ++ [.login 2, .attemptAddMore 0 2, .raidConvert 0]

theorem third_hasRoom : Along (step everybody) RoomToAdd lobby third := by
  refine ⟨trivial, trivial, trivial, trivial, trivial, ?_, trivial, trivial⟩
  intro _ g hg G hG _
  obtain rfl : g = 0 := (Option.some.inj hg).symm
  obtain rfl : G = _ := (Option.some.inj hG).symm
  decide

theorem groups_fit_third :
    ∃ G, (lobby.run everybody third).groups 0 = some G ∧ G.isRaidGroup = true ∧ G.SizesOk :=
  ⟨_, rfl, rfl, groups_fit third_hasRoom 0 _ rfl⟩

def sixth : List (Op Nat) := party ++
  [.login 2, .login 3, .login 4, .login 5,
    .attemptAddMore 0 2, .attemptAddMore 0 3, .attemptAddMore 0 4, .attemptAddMore 0 5]

theorem lfg_overfills :
    ¬ ∀ g G, (lobby.run everybody sixth).groups g = some G → G.SizesOk := by
  intro h
  have hsize := (h 0 _ rfl).party rfl
  revert hsize
  decide

end World

end Sunstrider.Groups
