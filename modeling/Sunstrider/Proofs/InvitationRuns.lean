import Sunstrider.Proofs.GroupSizeRuns
import Sunstrider.Proofs.Invitations

/-!
# Both ends of an invitation, along runs

Each handler writes both ends of the invitations it touches, given `BothEnds`.
What the condition rules out are the places where one end is written alone: a
player declines the invitation to a group that exists; a player with an
invitation pending is put into a group of the looking-for-group tool or of a
battleground; a group that was waiting for its first member is created when its
leader has been away and has an invitation to another group by now.
-/

set_option linter.unusedSectionVars false

namespace Sunstrider.Groups

open Looting Lib

variable {P : Type} [LinearOrder P]

namespace World

variable {w w' : World P}

variable {g : Nat} {p : P}

/-- The group at an address puts a new member with an invitation pending nowhere. -/
def TakesIn (w : World P) (g : Nat) (p : P) : Prop :=
  ∀ G, w.groups g = some G → G.freeSubGroup = none ∨ (w.players p).groupInvite = none

/-- The same of a pair of the looking-for-group tool. A player without a group is
put into a new one. -/
def PairTakesIn (w : World P) (owner p : P) : Prop :=
  match w.getGroup owner with
  | some g => w.TakesIn g p
  | none => (w.players owner).groupInvite = none ∧ (w.players p).groupInvite = none

/-- No operation writes one end of an invitation alone. -/
def BothEnds (w : World P) (o : Op P) : Prop :=
  match o with
  | .accept p => ∀ g G, (w.players p).groupInvite = some g → w.groups g = some G →
      G.isCreated = false → w.findPlayer G.leaderGuid = true →
      (w.players G.leaderGuid).groupInvite = none ∨
        (w.players G.leaderGuid).groupInvite = some g
  | .decline p => ∀ g G, (w.players p).groupInvite = some g → w.groups g = some G →
      w.findConnectedPlayer G.leaderGuid = true → G.isCreated = false
  | .attemptJoin p owner => w.lfgPair owner p = true → w.PairTakesIn owner p
  | .attemptAddMore owner p => w.lfgPair owner p = true → w.PairTakesIn owner p
  | .joinBattleground p b => w.findConnectedPlayer p = true →
      match w.bgRaids b with
      | none => (w.players p).groupInvite = none
      | some g => (∃ G, w.groups g = some G ∧ G.isMember p = true) ∨ w.TakesIn g p
  | _ => True

/-! ## Players -/

/-- A player object is written, and not its invitation. -/
theorem Paired.setPlayer (h : Paired w) (p : P) {i : PlayerInfo}
    (hinvite : i.groupInvite = (w.players p).groupInvite)
    (honline : i.groupInvite ≠ none → i.connected = true) : Paired (w.setPlayer p i) := by
  have hread : ∀ q, (w.setPlayer p i).players q = if q = p then i else w.players q := by
    intro q
    show Function.update w.players p i q = _
    split <;> rename_i hq
    · rw [hq, Function.update_self]
    · rw [Function.update_of_ne hq]
  refine ⟨fun q k => ?_, fun q => ?_⟩
  · rw [hread]
    show _ ↔ q ∈ w.inviteesOf k
    rw [← h.agree]
    split <;> rename_i hq
    · rw [hinvite, hq]
    · exact Iff.rfl
  · rw [hread]
    split
    · exact honline
    · exact h.online q

theorem paired_login (h : Paired w) (p : P) : Paired (w.login p) := by
  unfold login
  split <;> rename_i hp
  · exact h
  · have hnone : (w.players p).groupInvite = none := by
      by_contra hne
      exact hp (h.online p hne)
    have hnew : Paired (w.setPlayer p ⟨(w.players p).name, true, true, none, false⟩) :=
      h.setPlayer p hnone.symm fun _ => rfl
    dsimp only
    split
    · exact hnew
    · split
      · exact (relinked_setRef _ false _ p).keepsInvites.paired hnew
      · exact hnew

/-- Whatever becomes of the group, the player has no invitation afterwards. -/
theorem groupInvite_uninviteFromGroup (w : World P) (p : P) :
    ((w.uninviteFromGroup p).players p).groupInvite = none := by
  have hremove : ∀ g, ((w.removeInvite g p).players p).groupInvite = none := by
    intro g
    show ((World.setGroupInvite none p _).players p).groupInvite = none
    rw [groupInvite_setGroupInvite, if_pos rfl]
  have hclear : ∀ {w₁ w₂ : World P} {g : Nat} {G : Group P}, Deleted w₁ g G w₂ →
      (w₁.players p).groupInvite = none → (w₂.players p).groupInvite = none := by
    intro w₁ w₂ g G hd h
    rw [hd.players]
    unfold clearInvites
    split
    · rfl
    · exact h
  unfold uninviteFromGroup
  split <;> rename_i hg
  · exact hg
  · rename_i g
    dsimp only
    split <;> rename_i hG
    · exact hremove g
    · split
      · split
        · exact hclear (disband_deleted hG) (hremove g)
        · exact hremove g
      · split
        · exact hclear (removeAllInvites_deleteGroup hG) (hremove g)
        · exact hremove g

theorem paired_logout (h : Paired w) (p : P) : Paired (w.logout p) := by
  have hnone := groupInvite_uninviteFromGroup w p
  have hu := paired_uninviteFromGroup h p
  unfold logout
  dsimp only
  generalize w.uninviteFromGroup p = w₁ at hnone hu
  have hout : Paired (w₁.setPlayer p ⟨(w₁.players p).name, false, false,
      (w₁.players p).groupInvite, false⟩) :=
    hu.setPlayer p rfl fun hne => absurd hnone hne
  refine KeepsInvites.paired ?_ hout
  exact keepsInvites_of_eq rfl rfl

/-! ## Handlers -/

theorem addInvite_frame (hadd : w.addInvite g p = some w') :
    (∀ q, (w'.players q).connected = (w.players q).connected) ∧
      ∀ k, (w'.groups k).isSome = (w.groups k).isSome := by
  obtain ⟨_, _, rfl⟩ := addInvite_eq hadd
  refine ⟨fun q => ?_, fun k => ?_⟩
  · rw [connected_setGroupInvite]
    exact connected_setGroupInvite (w.modifyGroup g _) none p q
  · show ((w.removeInvite g p).modifyGroup g _ |>.groups k).isSome = _
    rw [groups_modifyGroup, groups_removeInvite]
    split
    · rw [Option.isSome_map, Option.isSome_map]
    · rfl

theorem paired_inviteTo (h : Paired w) {inviter target : P}
    (hinviter : (w.players inviter).connected = true)
    (htarget : (w.players target).connected = true) : Paired (w.inviteTo inviter target) := by
  unfold inviteTo
  split
  · split <;> rename_i hG
    · exact h
    · split
      · exact h
      · split
        · exact h
        · exact of_getD h fun w' hadd => h.addInvite hadd (by rw [hG]; rfl) htarget
  · dsimp only
    split <;> rename_i hadd
    · exact h
    · refine of_getD h fun w₂ hadd' => ?_
      have hnew := (keepsInvites_newGroup w inviter none).paired h
      have hthere : ((w.newGroup inviter none).groups w.nextGroup).isSome = true := by
        rw [groups_newGroup_self]
        rfl
      obtain ⟨hconn, hgroups⟩ := addInvite_frame hadd
      refine (hnew.addInvite hadd hthere hinviter).addInvite hadd' ?_ ?_
      · rw [hgroups]
        exact hthere
      · rw [hconn]
        exact htarget

theorem paired_handleGroupInvite (h : Paired w) {inviter : P} (target : P) (allowed : Bool)
    (hinviter : (w.players inviter).connected = true) :
    Paired (w.handleGroupInvite inviter target allowed) := by
  unfold handleGroupInvite
  split
  · exact h
  · split <;> rename_i hmay
    · exact h
    · split
      · exact h
      · refine paired_inviteTo h hinviter ?_
        simp only [findConnectedPlayer, Bool.or_eq_true, Bool.not_eq_true', not_or] at hmay
        simpa using hmay.1

theorem keepsInvites_commitRows (w : World P) (g : Nat) (new : List P) :
    KeepsInvites w (w.commitRows g new) := by
  unfold commitRows
  split
  · exact KeepsInvites.refl w
  · exact keepsInvites_of_eq rfl rfl

theorem groupInvite_removeInvite (w : World P) (g : Nat) (p q : P) :
    ((w.removeInvite g p).players q).groupInvite =
      if q = p then none else (w.players q).groupInvite :=
  groupInvite_setGroupInvite _ none p q

/-- The leader is added without an invitation, then the player. -/
theorem paired_acceptFirst (h : Paired w) {leader : P} (hp : (w.players p).groupInvite = none)
    (hleader : w.findPlayer leader = true → (w.players leader).groupInvite = none ∨
      (w.players leader).groupInvite = some g) :
    Paired (w.acceptFirst g leader p) := by
  unfold acceptFirst
  split <;> rename_i hin
  · exact paired_removeAllInvites h g
  · have hr := h.removeInvite (hleader (by simpa using hin))
    have hnone : ∀ q, q = leader ∨ q = p →
        ((w.removeInvite g leader).players q).groupInvite = none := by
      intro q hq
      rw [groupInvite_removeInvite]
      split <;> rename_i hql
      · rfl
      · rw [hq.resolve_left hql]
        exact hp
    dsimp only
    split <;> rename_i hcreate
    · exact hr
    · have hc := keepsInvites_create hcreate (hnone leader (Or.inl rfl))
      split <;> rename_i hadd
      · exact hc.paired hr
      · have ha := keepsInvites_addMember hadd (by
          rw [hc.pending]
          exact hnone p (Or.inr rfl))
        exact ((hc.trans ha).trans (keepsInvites_commitRows _ g _)).paired hr

theorem findPlayer_removeInvite (w : World P) (g : Nat) (p q : P) :
    (w.removeInvite g p).findPlayer q = w.findPlayer q := by
  have hread : ((w.removeInvite g p).players q).connected = (w.players q).connected ∧
      ((w.removeInvite g p).players q).inWorld = (w.players q).inWorld := by
    show (Function.update w.players p _ q).connected = _ ∧
      (Function.update w.players p _ q).inWorld = _
    by_cases hq : q = p
    · rw [hq, Function.update_self]
      exact ⟨rfl, rfl⟩
    · rw [Function.update_of_ne hq]
      exact ⟨rfl, rfl⟩
  unfold findPlayer
  rw [hread.1, hread.2]

theorem paired_handleGroupAccept (h : Paired w) (ho : BothEnds w (.accept p)) :
    Paired (w.handleGroupAccept p) := by
  unfold handleGroupAccept
  split <;> rename_i hg
  · exact h
  · rename_i g
    split <;> rename_i hG
    · exact h
    · rename_i G
      split
      · exact h
      · have hr := h.removeInvite (Or.inr hg)
        have hnone : ((w.removeInvite g p).players p).groupInvite = none := by
          rw [groupInvite_removeInvite, if_pos rfl]
        dsimp only
        split
        · exact hr
        · split <;> rename_i hc
          · split <;> rename_i hadd
            · exact hr
            · exact ((keepsInvites_addMember hadd hnone).trans
                (keepsInvites_commitRows _ g _)).paired hr
          · refine paired_acceptFirst hr hnone fun hin => ?_
            rw [findPlayer_removeInvite] at hin
            have hleader := ho g G hg hG (by simpa using hc) hin
            rw [groupInvite_removeInvite]
            split
            · exact Or.inl rfl
            · exact hleader

theorem paired_handleGroupDecline (h : Paired w) (ho : BothEnds w (.decline p)) :
    Paired (w.handleGroupDecline p) := by
  unfold handleGroupDecline
  split <;> rename_i hg
  · exact h
  · rename_i g
    split <;> rename_i hG
    · exact h
    · rename_i G
      split <;> rename_i hconn
      · exact h
      · have hcreated := ho g G hg hG (by simpa using hconn)
        dsimp only
        rw [if_neg (by rw [hcreated]; decide)]
        have hd := removeAllInvites_deleteGroup hG
        refine (keepsInvites_clear ?_).paired (hd.paired hG h)
        have hin : p ∈ G.invitees := by
          rw [← inviteesOf_some hG, ← h.agree]
          exact hg
        rw [hd.players, clearInvites, if_pos hin]

theorem paired_applyUninvite (h : Paired w) (d : UninviteDecision P) :
    Paired (w.applyUninvite d) := by
  cases d with
  | ignore => exact h
  | answer res => exact h
  | removeFromGroup g guid => exact paired_removeMember h g guid
  | uninviteFromGroup q => exact paired_uninviteFromGroup h q

theorem invitees_changeMembersGroup (guid : P) (group : Nat) (G : Group P) :
    (G.changeMembersGroup guid group).invitees = G.invitees := by
  unfold Group.changeMembersGroup
  split
  · rfl
  · split
    · rfl
    · split
      · rfl
      · exact invitees_modifySlot guid _ G

theorem invitees_setGroupMemberFlag (guid : P) (apply : Bool) (G : Group P) :
    (G.setGroupMemberFlag guid apply).invitees = G.invitees := by
  unfold Group.setGroupMemberFlag
  split
  · exact invitees_modifySlot guid _ G
  · rfl

theorem paired_handleGroupChangeSubGroup (h : Paired w) (realm : Realm P) (p : P)
    (name : String) (groupNr : Nat) :
    Paired (w.handleGroupChangeSubGroup realm p name groupNr) := by
  refine of_onGroupOf h fun g G _ _ => ?_
  split
  · exact h
  · split
    · exact h
    · split
      · exact h
      · split
        · exact h
        · split
          · exact h
          · exact (keepsInvites_modifyGroup w g fun G =>
              invitees_changeMembersGroup _ groupNr G).paired h

theorem paired_handleGroupSwapSubGroup (h : Paired w) (realm : Realm P) (p : P)
    (name1 name2 : String) : Paired (w.handleGroupSwapSubGroup realm p name1 name2) := by
  unfold handleGroupSwapSubGroup
  split
  · refine of_onGroupOf h fun g G _ _ => ?_
    split
    · exact h
    · split
      · exact h
      · dsimp only
        split
        · exact h
        · split
          · exact h
          · refine (keepsInvites_modifyGroup w g fun G => ?_).paired h
            rw [invitees_changeMembersGroup, invitees_changeMembersGroup]
  · exact h

/-! ## Members taken in -/

/-- A player who finds no place in the group stays outside with the invitation. -/
theorem paired_addMember (h : Paired w) (hadd : w.addMember g p = some w') (ht : w.TakesIn g p) :
    Paired w' := by
  obtain ⟨G, sub, hG, hsub, _⟩ := addMember_eq hadd
  rcases ht G hG with hfull | hnone
  · rw [hfull] at hsub
    cases hsub
  · exact (keepsInvites_addMember hadd hnone).paired h

theorem paired_lfgAdd (h : Paired w) {owner : P} (hadd : w.lfgAdd owner p = some w')
    (ht : w.PairTakesIn owner p) : Paired w' := by
  unfold lfgAdd at hadd
  unfold PairTakesIn at ht
  cases hg : w.getGroup owner with
  | some g =>
      rw [hg] at hadd ht
      exact paired_addMember h hadd ht
  | none =>
      rw [hg] at hadd ht
      dsimp only at hadd ht
      split at hadd <;> rename_i hcreate
      · cases hadd
      · have hc := (keepsInvites_newGroup w owner none).trans (keepsInvites_create hcreate ht.1)
        exact (keepsInvites_addMember hadd ((hc.pending p).trans ht.2)).paired (hc.paired h)

theorem paired_attemptAddMore (h : Paired w) {owner : P}
    (ho : BothEnds w (.attemptAddMore owner p)) : Paired (w.attemptAddMore owner p) := by
  unfold attemptAddMore
  split <;> rename_i hpair
  · split <;> rename_i hadd
    · exact h
    · split
      · exact paired_lfgAdd h hadd (ho hpair)
      · exact (keepsInvites_commitRows _ _ _).paired (paired_lfgAdd h hadd (ho hpair))
  · exact h

theorem keepsInvites_leadFromOutside (g : Nat) (p : P) (w : World P) :
    KeepsInvites w (w.leadFromOutside g p) := by
  unfold leadFromOutside
  split
  · exact KeepsInvites.refl w
  · split
    · exact keepsInvites_changeLeader w g p
    · exact KeepsInvites.refl w

theorem paired_addOrSet (h : Paired w) {b : Nat}
    (hnew : w.bgRaids b = none → (w.players p).groupInvite = none)
    (hold : ∀ g, w.bgRaids b = some g → (∃ G, w.groups g = some G ∧ G.isMember p = true) ∨
      w.TakesIn g p) :
    Paired (w.addOrSetPlayerToCorrectBgGroup p b) := by
  unfold addOrSetPlayerToCorrectBgGroup
  cases hb : w.bgRaids b with
  | none =>
      dsimp only
      have hgroup : KeepsInvites w { w.newGroup p (some b) with
          bgRaids := Function.update (w.newGroup p (some b)).bgRaids b (some w.nextGroup) } :=
        (keepsInvites_newGroup w p (some b)).trans (keepsInvites_of_eq rfl rfl)
      refine of_getD (hgroup.paired h) fun w' hcreate => ?_
      exact (keepsInvites_create hcreate (hnew hb)).paired (hgroup.paired h)
  | some g =>
      dsimp only
      split <;> rename_i hG
      · exact h
      · split <;> rename_i hmember
        · exact (relinked_setBattlegroundRaid w g p).keepsInvites.paired h
        · refine (keepsInvites_leadFromOutside g p _).paired (of_getD h fun w' hadd => ?_)
          refine paired_addMember h hadd ((hold g hb).resolve_left ?_)
          intro ⟨G', hG', hmember'⟩
          obtain rfl := Option.some.inj (hG.symm.trans hG')
          exact hmember hmember'

theorem keepsInvites_setInBattleground (w : World P) (p : P) (b : Bool) :
    KeepsInvites w (w.setInBattleground p b) := by
  have hread : ∀ q, ((w.setInBattleground p b).players q).groupInvite =
      (w.players q).groupInvite ∧
      ((w.setInBattleground p b).players q).connected = (w.players q).connected := by
    intro q
    show (Function.update w.players p _ q).groupInvite = _ ∧
      (Function.update w.players p _ q).connected = _
    by_cases hq : q = p
    · rw [hq, Function.update_self]
      exact ⟨rfl, rfl⟩
    · rw [Function.update_of_ne hq]
      exact ⟨rfl, rfl⟩
  exact ⟨fun q => (hread q).1, fun q => (hread q).2, fun _ => rfl⟩

theorem paired_joinBattleground (h : Paired w) {b : Nat} (hp : w.findConnectedPlayer p = true)
    (ho : BothEnds w (.joinBattleground p b)) :
    Paired ((w.setInBattleground p true).addOrSetPlayerToCorrectBgGroup p b) := by
  have hkeep := keepsInvites_setInBattleground w p true
  have ho' := ho hp
  refine paired_addOrSet (hkeep.paired h) (fun hb => ?_) fun g hb => ?_
  · rw [show w.bgRaids b = none from hb] at ho'
    rw [hkeep.pending]
    exact ho'
  · rw [show w.bgRaids b = some g from hb] at ho'
    refine ho'.imp id fun ht G hG => ?_
    rw [hkeep.pending]
    exact ht G hG

theorem invitees_loaded (leader : P) (raid : Bool) (rows : List (MemberSlot P)) :
    (loaded leader raid rows).invitees = [] := by
  have hrows : ∀ (rows : List (MemberSlot P)) (G : Group P),
      (rows.foldl (fun G s => G.pushSlot s) G).invitees = G.invitees := by
    intro rows
    induction rows with
    | nil => exact fun _ => rfl
    | cons s rows ih => exact fun G => ih (G.pushSlot s)
  unfold loaded
  rw [hrows]
  split <;> rfl

theorem keepsInvites_loadGroup (w : World P) (leader : P) (raid : Bool)
    (rows : List (MemberSlot P)) : KeepsInvites w (w.loadGroup leader raid rows) := by
  refine ⟨fun _ => rfl, fun _ => rfl, fun k => ?_⟩
  by_cases hk : k = w.nextGroup
  · have hG : (w.loadGroup leader raid rows).groups k = some (loaded leader raid rows) := by
      rw [groups_loadGroup, if_pos hk]
    rw [inviteesOf_some hG, invitees_loaded, hk, inviteesOf_none (groups_nextGroup w)]
  · exact inviteesOf_congr (by rw [groups_loadGroup, if_neg hk])

/-! ## Steps -/

/-- One operation: the two ends still agree. -/
theorem paired_step {realm : Realm P} {o : Op P} (h : Paired w) (ho : BothEnds w o) :
    Paired (w.step realm o) := by
  cases o with
  | login p => exact paired_login h p
  | logout p => exact of_byPlayer h fun _ => paired_logout h p
  | setInWorld p b => exact of_byPlayer h fun _ => h.setPlayer p rfl (h.online p)
  | invite p target allowed =>
      exact of_byPlayer h fun hp => paired_handleGroupInvite h target allowed hp
  | accept p => exact of_byPlayer h fun _ => paired_handleGroupAccept h ho
  | decline p => exact of_byPlayer h fun _ => paired_handleGroupDecline h ho
  | uninviteGuid p guid => exact of_byPlayer h fun _ => paired_applyUninvite h _
  | uninviteName p name => exact of_byPlayer h fun _ => paired_applyUninvite h _
  | leave p =>
      refine of_byPlayer h fun _ => of_onGroupOf h fun g G _ _ => ?_
      split
      · exact h
      · exact paired_removeMember h g p
  | setLeader p guid =>
      refine of_byPlayer h fun _ => of_onGroupOf h fun g G _ _ => ?_
      split
      · exact h
      · exact (keepsInvites_changeLeader w g guid).paired h
  | raidConvert p =>
      refine of_byPlayer h fun _ => of_onGroupOf h fun g G _ _ => ?_
      split
      · exact h
      · split
        · exact h
        · refine KeepsInvites.paired ?_ h
          exact keepsInvites_modifyGroup w g fun _ => rfl
  | changeSubGroup p name groupNr =>
      exact of_byPlayer h fun _ => paired_handleGroupChangeSubGroup h realm p name groupNr
  | swapSubGroup p name1 name2 =>
      exact of_byPlayer h fun _ => paired_handleGroupSwapSubGroup h realm p name1 name2
  | assistantLeader p guid apply =>
      refine of_byPlayer h fun _ => of_onGroupOf h fun g G _ _ => ?_
      split
      · exact h
      · exact (keepsInvites_modifyGroup w g
          (invitees_setGroupMemberFlag guid apply)).paired h
  | attemptJoin p owner =>
      show Paired (w.attemptJoin p owner)
      unfold attemptJoin
      split <;> rename_i hpair
      · exact of_getD h fun w' hadd => paired_lfgAdd h hadd (ho hpair)
      · exact h
  | attemptAddMore owner p => exact paired_attemptAddMore h ho
  | joinBattleground p b =>
      show Paired (w.byPlayer p fun w =>
        (w.setInBattleground p true).addOrSetPlayerToCorrectBgGroup p b)
      exact of_byPlayer h fun hp => paired_joinBattleground h hp ho
  | leaveBattleground p b =>
      refine (keepsInvites_setInBattleground (match w.bgRaids b with
        | none => w
        | some g => w.removeMember g p) p false).paired ?_
      split
      · exact h
      · exact paired_removeMember h _ p
  | removeMember g guid => exact paired_removeMember h g guid
  | disband g => exact paired_disband h g
  | changeLeader g guid => exact (keepsInvites_changeLeader w g guid).paired h
  | changeLeaderToFirstOnlineMember g => exact (keepsInvites_changeLeaderToFirst w g).paired h
  | loadGroup leader raid rows => exact (keepsInvites_loadGroup w leader raid rows).paired h
  | groupLoot env g lid => exact (quiet_startRolls env false g lid w).keepsInvites.paired h
  | needBeforeGreed env g lid => exact (quiet_startRolls env true g lid w).keepsInvites.paired h
  | lootRoll env p itemGUID rollType =>
      exact of_byPlayer h fun _ =>
        (quiet_handleLootRoll env p itemGUID rollType w).keepsInvites.paired h
  | endRoll env allowedMap g lid =>
      exact (quiet_endRoll env allowedMap g lid w).keepsInvites.paired h
  | loseLoot lid => exact (quiet_setLoot w lid none).keepsInvites.paired h

theorem paired_start (names : P → String) (loots : Nat → Option (Loot P)) :
    Paired (start names loots) := by
  refine ⟨fun p g => ⟨fun h => (by cases h), fun h => (by cases h)⟩, ?_⟩
  exact fun p hne => absurd rfl hne

theorem paired_run {realm : Realm P} {ops : List (Op P)} (h : Paired w)
    (hops : Along (step realm) BothEnds w ops) : Paired (w.run realm ops) :=
  Along.invariant (fun _ _ h ho => paired_step h ho) h hops

/-- In every run that writes both ends, a player has an invitation to a group
exactly if the group is there and has the player among its invitees. -/
theorem invited_iff {realm : Realm P} {names : P → String} {loots : Nat → Option (Loot P)}
    {ops : List (Op P)} (h : Along (step realm) BothEnds (start names loots) ops) (p : P)
    (g : Nat) : (((start names loots).run realm ops).players p).groupInvite = some g ↔
      ∃ G, ((start names loots).run realm ops).groups g = some G ∧ p ∈ G.invitees := by
  rw [(paired_run (paired_start names loots) h).agree]
  unfold inviteesOf
  cases ((start names loots).run realm ops).groups g with
  | none => simp
  | some G => simp

/-! A party invites a third, who declines and cannot be told from an invitee by
the group. -/

def asked : List (Op Nat) := party ++ [.login 2, .invite 0 2 true]

theorem asked_bothEnds : Along (step everybody) BothEnds lobby asked := by
  refine ⟨trivial, trivial, trivial, ?_, trivial, trivial, trivial⟩
  intro g G hg hG _ _
  obtain rfl : g = 0 := (Option.some.inj hg).symm
  obtain rfl : G = _ := (Option.some.inj hG).symm
  exact Or.inr rfl

theorem invited_iff_asked :
    ((lobby.run everybody asked).players 2).groupInvite = some 0 ↔
      ∃ G, (lobby.run everybody asked).groups 0 = some G ∧ 2 ∈ G.invitees :=
  invited_iff asked_bothEnds 2 0

def declined : List (Op Nat) := asked ++ [.decline 2]

theorem declined_still_invitee :
    ¬ ∀ p g, ((lobby.run everybody declined).players p).groupInvite = some g ↔
      ∃ G, (lobby.run everybody declined).groups g = some G ∧ p ∈ G.invitees := by
  intro h
  have hpending : ((lobby.run everybody declined).players 2).groupInvite = some 0 :=
    (h 2 0).2 ⟨_, rfl, List.mem_cons_self⟩
  exact Option.some_ne_none 0 (hpending.symm.trans rfl)

end World

end Sunstrider.Groups
