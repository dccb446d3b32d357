import Sunstrider.Proofs.Leaders

/-!
# Leaders who are members, along runs

A group is created with its leader and, unless it is a battleground's, a second
member in one go. After that members come and go one at a time. `StaysLed` asks
of a removal that the raid lets go of the player, and of a group from the
database that its leader is one of two or more rows.

The run at the end is the long way to a raid without a leader. A player of one
battleground's raid enters another and is then thrown out of the first; the first
leader disconnects, and the second leaves.
-/

set_option linter.unusedSectionVars false

namespace Sunstrider.Groups

open Looting Lib

variable {P : Type} [LinearOrder P]

namespace World

variable {w w' : World P}

variable {g : Nat} {p q : P} {G : Group P} {o o' : Bool}

/-! ## Members who come -/

theorem isMember_pushSlot (s : MemberSlot P) (G : Group P) (q : P) :
    (G.pushSlot s).isMember q = true ↔ G.isMember q = true ∨ s.guid = q := by
  rw [isMember_iff, isMember_iff]
  show (∃ t ∈ G.memberSlots ++ [s], t.guid = q) ↔ _
  simp only [List.mem_append, List.mem_singleton, or_and_right, exists_or, exists_eq_left]

/-- A connected player becomes a member and refers to the group. -/
theorem refs_addMember (h : Refs w) (hp : (w.players p).connected = true)
    (hadd : w.addMember g p = some w') : Refs w' := by
  unfold addMember at hadd
  cases hG : w.groups g with
  | none =>
      rw [hG] at hadd
      cases hadd
  | some G =>
      rw [hG] at hadd
      dsimp only at hadd
      cases hsub : G.freeSubGroup with
      | none =>
          rw [hsub] at hadd
          cases hadd
      | some sub =>
          rw [hsub] at hadd
          dsimp only at hadd
          have hw : Refs ((w.modifyGroup g (Group.pushSlot (w.newSlot p sub))).setGroupInvite
              none p) :=
            h.write g rfl rfl rfl rfl (connected_setGroupInvite _ none p) fun G _ =>
              ⟨fun q hq => (isMember_pushSlot _ G q).2 (Or.inl hq), rfl⟩
          have hlink : ((w.modifyGroup g (Group.pushSlot (w.newSlot p sub))).setGroupInvite
              none p).Linkable p g := by
            refine ⟨?_, G.pushSlot (w.newSlot p sub), groups_modifyGroup_self _ hG, ?_⟩
            · rw [connected_setGroupInvite]
              exact hp
            · exact (isMember_pushSlot _ G p).2 (Or.inr rfl)
          split at hadd
          · split at hadd
            · obtain rfl := Option.some.inj hadd
              exact refs_setBattlegroundRaid hw hlink
            · obtain rfl := Option.some.inj hadd
              exact refs_link hw true hlink
          · obtain rfl := Option.some.inj hadd
            exact refs_link hw false hlink

/-- The groups once a member is added. -/
theorem groups_addMember (hadd : w.addMember g p = some w') :
    ∃ G sub, w.groups g = some G ∧ G.freeSubGroup = some sub ∧
      ∀ k, w'.groups k =
        if g = k then some (G.pushSlot (w.newSlot p sub)) else w.groups k := by
  obtain ⟨G, sub, hG, hsub, hl⟩ := addMember_eq hadd
  refine ⟨G, sub, hG, hsub, fun k => ?_⟩
  rw [hl.groups]
  show (w.modifyGroup g _).groups k = _
  rw [groups_modifyGroup]
  split <;> rename_i hk
  · rw [← hk, hG]
    rfl
  · rfl

theorem connected_addMember (hadd : w.addMember g p = some w') (q : P) :
    (w'.players q).connected = (w.players q).connected := by
  obtain ⟨G, sub, _, _, hl⟩ := addMember_eq hadd
  rw [hl.players, connected_setGroupInvite]
  rfl

theorem ledBut_addMember (h : LedBut w g) (hp : (w.players p).connected = true)
    (hadd : w.addMember g p = some w') : LedBut w' g := by
  refine ⟨refs_addMember h.toRefs hp hadd, fun k K hk hK => h.others k K hk ?_⟩
  obtain ⟨G, sub, _, _, hgroups⟩ := groups_addMember hadd
  rw [hgroups, if_neg (Ne.symm hk)] at hK
  exact hK

/-- One more in a group that has a leader. -/
theorem led_pushSlot (s : MemberSlot P) (hleader : G.isMember G.leaderGuid = true)
    (hcount : G.least ≤ G.getMembersCount + 1) : (G.pushSlot s).Led := by
  refine ⟨fun _ => ⟨(isMember_pushSlot s G _).2 (Or.inl hleader), ?_⟩, fun he => ?_⟩
  · show G.least ≤ (G.memberSlots ++ [s]).length
    rw [List.length_append]
    exact hcount
  · have he' : G.memberSlots ++ [s] = [] := he
    simp at he'

theorem led_addMember (h : Led w) (hp : (w.players p).connected = true)
    (hcreated : ∀ G, w.groups g = some G → G.memberSlots ≠ []) (hadd : w.addMember g p = some w') :
    Led w' := by
  refine (ledBut_addMember (h.but g) hp hadd).led fun G' hG' => ?_
  obtain ⟨G, sub, hG, _, hgroups⟩ := groups_addMember hadd
  rw [hgroups, if_pos rfl] at hG'
  obtain rfl := Option.some.inj hG'
  obtain ⟨hleader, hcount⟩ := (h.groups g G hG).leader (hcreated G hG)
  exact led_pushSlot _ hleader (by omega)

/-! ## A group is created -/

/-- A group with its leader as the one member, and room. -/
structure Founded (bgGroup : Option Nat) (G : Group P) : Prop where
  leader : G.isMember G.leaderGuid = true
  one : G.getMembersCount = 1
  bg : G.bgGroup = bgGroup
  room : G.freeSubGroup ≠ none

theorem founded_create (hG : G.Led) (hnil : G.memberSlots = []) (leader : P) (name : String) :
    (G.create leader).freeSubGroup = some 0 ∧
      Founded G.bgGroup ((G.create leader).pushSlot ⟨leader, name, 0, 0⟩) := by
  have hfree : ∀ bg, G.isBGGroup = bg → (G.create leader).subGroupsCounts =
      if bg then some (List.replicate maxRaidSubgroups 0) else none := by
    intro bg hbg
    unfold Group.create
    dsimp only
    rw [hbg]
    cases bg with
    | true =>
        rw [if_pos rfl, if_pos rfl]
        unfold Group.initRaidSubGroupsCounter
        rw [hnil]
        rfl
    | false =>
        rw [if_neg (by simp), if_neg (by simp)]
        exact hG.fresh hnil
  have hrest : (G.create leader).memberSlots = [] ∧ (G.create leader).bgGroup = G.bgGroup ∧
      (G.create leader).leaderGuid = leader := by
    unfold Group.create
    dsimp only
    split
    · exact ⟨hnil, rfl, rfl⟩
    · exact ⟨hnil, rfl, rfl⟩
  obtain ⟨hslots, hbg, hleader⟩ := hrest
  have hpushed : ((G.create leader).pushSlot ⟨leader, name, 0, 0⟩).subGroupsCounts =
      (G.create leader).subGroupsCounts.map fun counts => counts.modify 0 incr8 := rfl
  refine ⟨?_, ⟨?_, ?_, hbg, ?_⟩⟩
  · unfold Group.freeSubGroup
    rw [hfree _ rfl]
    cases G.isBGGroup with
    | true => rfl
    | false => rfl
  · exact (isMember_pushSlot _ _ _).2 (Or.inr hleader.symm)
  · show ((G.create leader).memberSlots ++ [_]).length = 1
    rw [hslots]
    rfl
  · unfold Group.freeSubGroup
    rw [hpushed, hfree _ rfl]
    cases G.isBGGroup with
    | true => exact Option.some_ne_none 0
    | false => exact Option.some_ne_none 0

/-- `Create` succeeds. -/
theorem create_founded (h : Led w) (leader : P) (hG : w.groups g = some G)
    (hnil : G.memberSlots = []) (hp : (w.players leader).connected = true) :
    ∃ w', w.create g leader = some w' ∧ LedBut w' g ∧
      (∀ q, (w'.players q).connected = (w.players q).connected) ∧
      ∃ G', w'.groups g = some G' ∧ Founded G.bgGroup G' := by
  obtain ⟨hfree, hfounded⟩ := founded_create (h.groups g G hG) hnil leader
    (w.players leader).name
  have hG₁ : (w.modifyGroup g (Group.create leader)).groups g = some (G.create leader) :=
    groups_modifyGroup_self _ hG
  have hsame : (G.create leader).memberSlots = G.memberSlots ∧
      (G.create leader).bgGroup = G.bgGroup := by
    unfold Group.create
    dsimp only
    split
    · exact ⟨rfl, rfl⟩
    · exact ⟨rfl, rfl⟩
  have hbut : LedBut (w.modifyGroup g (Group.create leader)) g :=
    (h.but g).write rfl rfl rfl rfl (fun _ => rfl) fun K hK => by
      obtain rfl : G = K := Option.some.inj (hG.symm.trans hK)
      refine ⟨fun q hq => ?_, ?_⟩
      · rw [isMember_iff, hsame.1, ← isMember_iff]
        exact hq
      · unfold Group.isBGGroup
        rw [hsame.2]
  have hnone : w.create g leader ≠ none := by
    unfold create addMember
    rw [hG₁]
    dsimp only
    rw [hfree]
    dsimp only
    split
    · split <;> exact Option.some_ne_none _
    · exact Option.some_ne_none _
  obtain ⟨w', hw'⟩ := Option.ne_none_iff_exists'.1 hnone
  have hadd : (w.modifyGroup g (Group.create leader)).addMember g leader = some w' := hw'
  refine ⟨w', hw', ledBut_addMember hbut hp hadd, fun q => connected_addMember hadd q, ?_⟩
  obtain ⟨K, sub, hK, hsub, hgroups⟩ := groups_addMember hadd
  obtain rfl : G.create leader = K := Option.some.inj (hG₁.symm.trans hK)
  obtain rfl : 0 = sub := Option.some.inj (hfree.symm.trans hsub)
  exact ⟨_, (hgroups g).trans (if_pos rfl), hfounded⟩

/-- The second member of a group is added right after the first. -/
theorem led_founded (h : LedBut w g) {bg : Option Nat} (hG : w.groups g = some G)
    (hfounded : Founded bg G) (hp : (w.players p).connected = true) :
    ∃ w', w.addMember g p = some w' ∧ Led w' := by
  have hnone : w.addMember g p ≠ none := by
    unfold addMember
    rw [hG]
    dsimp only
    cases hsub : G.freeSubGroup with
    | none => exact absurd hsub hfounded.room
    | some sub =>
        dsimp only
        split
        · split <;> exact Option.some_ne_none _
        · exact Option.some_ne_none _
  obtain ⟨w', hw'⟩ := Option.ne_none_iff_exists'.1 hnone
  refine ⟨w', hw', (ledBut_addMember h hp hw').led fun G' hG' => ?_⟩
  obtain ⟨K, sub, hK, _, hgroups⟩ := groups_addMember hw'
  obtain rfl : G = K := Option.some.inj (hG.symm.trans hK)
  rw [hgroups, if_pos rfl] at hG'
  obtain rfl := Option.some.inj hG'
  refine led_pushSlot _ hfounded.leader ?_
  rw [hfounded.one]
  unfold Group.least
  split <;> omega

theorem led_new (leader : P) (bg : Option Nat) : (Group.new leader bg).Led :=
  ⟨fun hne => absurd rfl hne, fun _ => rfl⟩

theorem led_newGroup (h : Led w) (leader : P) (bg : Option Nat) : Led (w.newGroup leader bg) := by
  refine ⟨refs_newGroup h.toRefs leader bg, fun g G hG => ?_⟩
  rw [groups_newGroup] at hG
  split at hG
  · obtain rfl := Option.some.inj hG
    exact led_new leader bg
  · exact h.groups g G hG

/-! ## Handlers -/

theorem led_inviteTo (h : Led w) (inviter target : P) : Led (w.inviteTo inviter target) := by
  unfold inviteTo
  split
  · split
    · exact h
    · split
      · exact h
      · split
        · exact h
        · exact of_getD h fun w' hadd => led_addInvite hadd h
  · dsimp only
    split <;> rename_i hadd
    · exact h
    · exact of_getD h fun w' hadd' =>
        led_addInvite hadd' (led_addInvite hadd (led_newGroup h inviter none))

theorem led_handleGroupInvite (h : Led w) (inviter target : P) (allowed : Bool) :
    Led (w.handleGroupInvite inviter target allowed) := by
  unfold handleGroupInvite
  split
  · exact h
  · split
    · exact h
    · split
      · exact h
      · exact led_inviteTo h inviter target

/-- New rows are those of members of a group that is no battleground's. -/
theorem led_commitRows (h : Led w) {new : List P}
    (hnew : ∀ p ∈ new, ∃ G, w.groups g = some G ∧ G.isMember p = true) :
    Led (w.commitRows g new) := by
  unfold commitRows
  split <;> rename_i hbg
  · exact h
  · refine ⟨⟨h.linked, h.unique, fun p k hk => ?_, h.raids⟩, h.groups⟩
    have hk' : (if p ∈ new ∧ w.memberRows p = none then some g else w.memberRows p) =
        some k := hk
    split at hk' <;> rename_i hp
    · obtain rfl := Option.some.inj hk'
      obtain ⟨G, hG, hmember⟩ := hnew p hp.1
      refine ⟨?_, fun K hK => ?_⟩
      · by_contra hge
        have hnone : w.groups g = none := by
          unfold groups
          rw [List.getElem?_eq_none (by unfold nextGroup at hge; exact Nat.le_of_not_lt hge)]
          rfl
        rw [hnone] at hG
        cases hG
      · have hK' : w.groups g = some K := hK
        obtain rfl : G = K := Option.some.inj (hG.symm.trans hK')
        refine ⟨hmember, ?_⟩
        unfold World.isBGGroup at hbg
        rw [hG] at hbg
        simpa using hbg
    · exact h.rows p k hk'

theorem member_addMember (hadd : w.addMember g p = some w')
    (hq : q = p ∨ ∃ G, w.groups g = some G ∧ G.isMember q = true) :
    ∃ G, w'.groups g = some G ∧ G.isMember q = true := by
  obtain ⟨G, sub, hG, _, hgroups⟩ := groups_addMember hadd
  refine ⟨_, (hgroups g).trans (if_pos rfl), (isMember_pushSlot _ _ _).2 ?_⟩
  rcases hq with hqp | ⟨K, hK, hmember⟩
  · exact Or.inr hqp.symm
  · obtain rfl : G = K := Option.some.inj (hG.symm.trans hK)
    exact Or.inl hmember

theorem led_acceptFirst (h : Led w) (hG : w.groups g = some G) (hnil : G.memberSlots = [])
    (leader : P) (hp : (w.players p).connected = true) : Led (w.acceptFirst g leader p) := by
  unfold acceptFirst
  split <;> rename_i hin
  · exact led_removeAllInvites h g
  · have hr := led_removeInvite h g leader
    have hG' : (w.removeInvite g leader).groups g =
        some { G with invitees := G.invitees.filter (· ≠ leader) } :=
      groups_modifyGroup_self _ hG
    have hconn : ∀ q, ((w.removeInvite g leader).players q).connected =
        (w.players q).connected := connected_setGroupInvite _ none leader
    have hleader : (w.players leader).connected = true := by
      unfold findPlayer at hin
      simp only [Bool.not_eq_true', Bool.not_eq_false, Bool.and_eq_true] at hin
      exact hin.1
    dsimp only
    obtain ⟨w₁, hw₁, hbut, hconn₁, G₁, hG₁, hfounded⟩ := create_founded hr leader hG' hnil
      (by rw [hconn]; exact hleader)
    obtain ⟨w₂, hw₂, hled⟩ := led_founded hbut hG₁ hfounded (p := p)
      (by rw [hconn₁, hconn]; exact hp)
    rw [hw₁]
    dsimp only
    rw [hw₂]
    refine led_commitRows hled fun q hq => member_addMember hw₂ ?_
    have hone : G₁.leaderGuid = leader := by
      obtain ⟨K, sub, hK, _, hgroups⟩ := groups_addMember hw₁
      rw [hgroups, if_pos rfl] at hG₁
      rw [← Option.some.inj hG₁]
      rw [groups_modifyGroup_self (Group.create leader) hG'] at hK
      rw [← Option.some.inj hK]
      show (Group.create leader _).leaderGuid = leader
      unfold Group.create
      dsimp only
      split <;> rfl
    rcases List.mem_cons.1 hq with hql | hqp
    · refine Or.inr ⟨G₁, hG₁, ?_⟩
      rw [hql, ← hone]
      exact hfounded.leader
    · exact Or.inl (List.mem_singleton.1 hqp)

theorem led_handleGroupAccept (h : Led w) (hp : (w.players p).connected = true) :
    Led (w.handleGroupAccept p) := by
  unfold handleGroupAccept
  split
  · exact h
  · rename_i g _
    split <;> rename_i hG
    · exact h
    · rename_i G
      split
      · exact h
      · have hr := led_removeInvite h g p
        have hG' : (w.removeInvite g p).groups g =
            some { G with invitees := G.invitees.filter (· ≠ p) } := groups_modifyGroup_self _ hG
        have hp' : ((w.removeInvite g p).players p).connected = true :=
          (connected_setGroupInvite _ none p p).trans hp
        dsimp only
        split
        · exact hr
        · split <;> rename_i hcreated
          · have hne : ∀ K, (w.removeInvite g p).groups g = some K → K.memberSlots ≠ [] := by
              intro K hK
              rw [← Option.some.inj (hG'.symm.trans hK)]
              unfold Group.isCreated Group.getMembersCount at hcreated
              rw [decide_eq_true_eq] at hcreated
              exact List.ne_nil_of_length_pos hcreated
            split <;> rename_i hadd
            · exact hr
            · refine led_commitRows (led_addMember hr hp' hne hadd) fun q hq => ?_
              exact member_addMember hadd (Or.inl (List.mem_singleton.1 hq))
          · refine led_acceptFirst hr hG' ?_ G.leaderGuid hp'
            show G.memberSlots = []
            unfold Group.isCreated Group.getMembersCount at hcreated
            rw [decide_eq_true_eq] at hcreated
            exact List.length_eq_zero_iff.1 (by omega)

/-- Players change, and their connections do not. -/
theorem Led.players (h : Led w) (hgroups : w'.groupObjects = w.groupObjects)
    (hlinks : w'.links = w.links) (hrows : w'.memberRows = w.memberRows)
    (hraids : w'.bgRaids = w.bgRaids)
    (hconn : ∀ p, (w'.players p).connected = (w.players p).connected) : Led w' := by
  have hread : w'.groups = w.groups := by
    unfold World.groups
    rw [hgroups]
  refine ⟨⟨fun l hl => ?_, by rw [hlinks]; exact h.unique, ?_, ?_⟩, ?_⟩
  · rw [hlinks] at hl
    obtain ⟨hp, hG⟩ := h.linked l hl
    exact ⟨by rw [hconn]; exact hp, by rw [hread]; exact hG⟩
  · unfold nextGroup
    rw [hrows, hread, hgroups]
    exact h.rows
  · rw [hraids, hread]
    exact h.raids
  · rw [hread]
    exact h.groups

theorem led_handleGroupDecline (h : Led w) (p : P) : Led (w.handleGroupDecline p) := by
  unfold handleGroupDecline
  split
  · exact h
  · rename_i g _
    split
    · exact h
    · split
      · exact h
      · have hinvite : ∀ w₁ : World P, Led w₁ → Led (w₁.setGroupInvite none p) := fun w₁ h₁ =>
          h₁.players rfl rfl rfl rfl (connected_setGroupInvite w₁ none p)
        dsimp only
        split
        · exact hinvite w h
        · exact hinvite _ (led_deleteGroup (led_removeAllInvites h g) g)

/-- A request to uninvite removes cleanly. -/
def UninviteCleanly (d : UninviteDecision P) (w : World P) : Prop :=
  match d with
  | .removeFromGroup g guid => RemovesCleanly g guid w
  | _ => True

theorem led_applyUninvite (h : Led w) {d : UninviteDecision P} (hd : UninviteCleanly d w) :
    Led (w.applyUninvite d) := by
  cases d with
  | ignore => exact h
  | answer res => exact h
  | removeFromGroup g guid => exact led_removeMember h hd
  | uninviteFromGroup q => exact led_uninviteFromGroup h q

theorem sameMembers_modifySlot (guid : P) {f : MemberSlot P → MemberSlot P}
    (hf : ∀ s, (f s).guid = s.guid) (G : Group P) : SameMembers G (G.modifySlot guid f) := by
  unfold Group.modifySlot
  split
  · exact ⟨rfl, rfl, rfl, fun _ => rfl⟩
  · exact ⟨Lib.map_modify_of_same hf G.memberSlots _, rfl, rfl, fun _ => rfl⟩

/-- Moving needs a slot, so a group without one is left alone. -/
theorem sameMembers_changeMembersGroup (guid : P) (group : Nat) (G : Group P) :
    SameMembers G (G.changeMembersGroup guid group) := by
  have hself : SameMembers G G := ⟨rfl, rfl, rfl, fun _ => rfl⟩
  unfold Group.changeMembersGroup
  split
  · exact hself
  · split <;> rename_i hs
    · exact hself
    · split
      · exact hself
      · have hslot := sameMembers_modifySlot guid
          (f := fun s => { s with group := group }) (fun _ => rfl) G
        refine ⟨hslot.guids, hslot.leaderGuid, hslot.bgGroup, fun hnil => ?_⟩
        unfold Group.getMemberSlot at hs
        rw [hnil] at hs
        cases hs

theorem SameMembers.trans {G' G'' : Group P} (h : SameMembers G G') (h' : SameMembers G' G'') :
    SameMembers G G'' where
  guids := h'.guids.trans h.guids
  leaderGuid := h'.leaderGuid.trans h.leaderGuid
  bgGroup := h'.bgGroup.trans h.bgGroup
  counts := by
    intro hnil
    refine (h'.counts ?_).trans (h.counts hnil)
    have hguids := h.guids
    rw [hnil] at hguids
    exact List.map_eq_nil_iff.1 hguids

theorem sameMembers_setGroupMemberFlag (guid : P) (apply : Bool) (G : Group P) :
    SameMembers G (G.setGroupMemberFlag guid apply) := by
  unfold Group.setGroupMemberFlag
  split
  · unfold Group.toggleGroupMemberFlag
    refine sameMembers_modifySlot guid (f := fun s => { s with flags := _ }) ?_ G
    exact fun _ => rfl
  · exact ⟨rfl, rfl, rfl, fun _ => rfl⟩

theorem led_handleGroupRaidConvert (h : Led w) (p : P) : Led (w.handleGroupRaidConvert p) := by
  refine of_onGroupOf h fun g G _ hG => ?_
  split
  · exact h
  · split <;> rename_i hmay
    · exact h
    · refine h.write_same g rfl rfl rfl rfl (fun _ => rfl) fun K hK => ⟨rfl, rfl, rfl, fun hnil => ?_⟩
      obtain rfl : G = K := Option.some.inj (hG.symm.trans hK)
      unfold Group.getMembersCount at hmay
      rw [hnil] at hmay
      simp at hmay

theorem led_handleGroupChangeSubGroup (h : Led w) (realm : Realm P) (p : P) (name : String)
    (groupNr : Nat) : Led (w.handleGroupChangeSubGroup realm p name groupNr) := by
  refine of_onGroupOf h fun g G _ _ => ?_
  split
  · exact h
  · split
    · exact h
    · split
      · exact h
      · split
        · exact h
        · split
          · exact h
          · exact h.write_same g rfl rfl rfl rfl (fun _ => rfl) fun K _ =>
              sameMembers_changeMembersGroup _ groupNr K

theorem led_handleGroupSwapSubGroup (h : Led w) (realm : Realm P) (p : P)
    (name1 name2 : String) : Led (w.handleGroupSwapSubGroup realm p name1 name2) := by
  unfold handleGroupSwapSubGroup
  split
  · refine of_onGroupOf h fun g G _ _ => ?_
    split
    · exact h
    · split
      · exact h
      · dsimp only
        split
        · exact h
        · split
          · exact h
          · exact h.write_same g rfl rfl rfl rfl (fun _ => rfl) fun K _ =>
              (sameMembers_changeMembersGroup _ _ K).trans (sameMembers_changeMembersGroup _ _ _)
  · exact h

/-- Both of a pair are connected. -/
theorem connected_lfgPair {owner : P} (h : w.lfgPair owner p = true) :
    (w.players owner).connected = true ∧ (w.players p).connected = true := by
  unfold lfgPair at h
  simp only [Bool.and_eq_true] at h
  exact ⟨h.1.1.1.2, h.1.1.2⟩

/-- Whoever a reference belongs to is a member, so the group is created. -/
theorem created_of_getGroup (h : Led w) (hg : w.getGroup p = some g) (hG : w.groups g = some G) :
    G.isMember p = true ∧ G.memberSlots ≠ [] := by
  obtain ⟨_, K, hK, hmember⟩ := h.toRefs.linkable hg
  obtain rfl : G = K := Option.some.inj (hG.symm.trans hK)
  refine ⟨hmember, ?_⟩
  obtain ⟨s, hs, _⟩ := isMember_iff.1 hmember
  exact List.ne_nil_of_mem hs

/-! The references of the one who takes somebody in are not written. -/

theorem getRef_unlink_ne (hne : q ≠ p) : (w.unlink o p).getRef o' q = w.getRef o' q := by
  unfold getRef unlink
  rw [List.find?_filter]
  congr 2
  funext l
  by_cases hq : l.player = q
  · have hp : ¬ l.player = p := fun hp => hne (hq.symm.trans hp)
    simp [hp]
  · simp [hq]

theorem getRef_link_ne (hne : q ≠ p) : (w.link o p g).getRef o' q = w.getRef o' q := by
  refine Eq.trans ?_ (getRef_unlink_ne (o := o) hne)
  unfold getRef link
  dsimp only
  rw [List.find?_cons]
  simp [Ne.symm hne]

theorem getRef_setRef_ne {g : Option Nat} (hne : q ≠ p) :
    (w.setRef o g p).getRef o' q = w.getRef o' q := by
  cases g with
  | none => exact getRef_unlink_ne hne
  | some g => exact getRef_link_ne hne

theorem getRef_addMember_ne (hadd : w.addMember g p = some w') (hne : q ≠ p) (o : Bool) :
    w'.getRef o q = w.getRef o q := by
  unfold addMember at hadd
  split at hadd
  · cases hadd
  · split at hadd
    · cases hadd
    · dsimp only at hadd
      split at hadd
      · split at hadd
        · obtain rfl := Option.some.inj hadd
          exact (getRef_link_ne hne).trans (getRef_setRef_ne hne)
        · obtain rfl := Option.some.inj hadd
          exact getRef_link_ne hne
      · obtain rfl := Option.some.inj hadd
        exact getRef_link_ne hne

/-- A player without a group refers to the one it joins. -/
theorem getGroup_addMember (hadd : w.addMember g p = some w') (hnone : w.getGroup p = none) :
    w'.getGroup p = some g := by
  unfold addMember at hadd
  split at hadd
  · cases hadd
  · split at hadd
    · cases hadd
    · dsimp only at hadd
      rename_i G _ sub _
      have hsame : ((w.modifyGroup g (Group.pushSlot (w.newSlot p sub))).setGroupInvite
          none p).getGroup p = none := hnone
      rw [hsame] at hadd
      obtain rfl := Option.some.inj hadd
      show World.getRef (World.link false p g _) false p = some g
      unfold getRef link
      simp

/-- The members `AttemptAddMore` commits. -/
def added (w : World P) (owner p : P) : List P :=
  if (w.getGroup owner).isNone then [owner, p] else [p]

theorem led_lfgAdd (h : Led w) {owner : P} (hpair : w.lfgPair owner p = true)
    (hadd : w.lfgAdd owner p = some w') :
    Led w' ∧ ∃ g, w'.getGroup owner = some g ∧
      ∀ q ∈ w.added owner p, ∃ G, w'.groups g = some G ∧ G.isMember q = true := by
  obtain ⟨howner, hp⟩ := connected_lfgPair hpair
  have hne : owner ≠ p := by
    unfold lfgPair at hpair
    simp only [Bool.and_eq_true, decide_eq_true_eq] at hpair
    exact hpair.1.1.1.1
  unfold lfgAdd at hadd
  unfold added
  cases hg : w.getGroup owner with
  | some g =>
      rw [hg] at hadd
      refine ⟨led_addMember h hp (fun G hG => (created_of_getGroup h hg hG).2) hadd, g, ?_, ?_⟩
      · exact (getRef_addMember_ne hadd hne false).trans hg
      · intro q hq
        exact member_addMember hadd (Or.inl (List.mem_singleton.1 hq))
  | none =>
      rw [hg] at hadd
      dsimp only at hadd
      obtain ⟨w₁, hw₁, hbut, hconn, G₁, hG₁, hfounded⟩ := create_founded
        (led_newGroup h owner none) owner (groups_newGroup_self w owner none) rfl howner
      rw [hw₁] at hadd
      dsimp only at hadd
      obtain ⟨w₂, hw₂, hled⟩ := led_founded hbut hG₁ hfounded (p := p)
        (by rw [hconn]; exact hp)
      obtain rfl : w₂ = w' := Option.some.inj (hw₂.symm.trans hadd)
      have hcreate : ((w.newGroup owner none).modifyGroup w.nextGroup
          (Group.create owner)).addMember w.nextGroup owner = some w₁ := hw₁
      refine ⟨hled, w.nextGroup, ?_, fun q hq => member_addMember hw₂ ?_⟩
      · refine (getRef_addMember_ne hw₂ hne false).trans (getGroup_addMember hcreate ?_)
        exact hg
      · rcases List.mem_cons.1 hq with hqo | hqp
        · exact Or.inr (member_addMember hcreate (Or.inl hqo))
        · exact Or.inl (List.mem_singleton.1 hqp)

theorem led_attemptAddMore (h : Led w) (owner p : P) : Led (w.attemptAddMore owner p) := by
  unfold attemptAddMore
  split <;> rename_i hpair
  · split <;> rename_i hadd
    · exact h
    · obtain ⟨hled, g, hg, hmembers⟩ := led_lfgAdd h hpair hadd
      rw [hg]
      exact led_commitRows hled hmembers
  · exact h

/-! ## Battlegrounds -/

theorem led_leadFromOutside (h : Led w) (g : Nat) (p : P) : Led (w.leadFromOutside g p) := by
  unfold leadFromOutside
  split
  · exact h
  · split
    · exact led_changeLeader h g p
    · exact h

/-- A raid of one is enough for a battleground. -/
theorem led_bgRaid {b : Nat} (h : LedBut w g) (hG : w.groups g = some G)
    (hfounded : Founded (some b) G) : Led w := by
  refine h.led fun G' hG' => ?_
  obtain rfl : G = G' := Option.some.inj (hG.symm.trans hG')
  refine ⟨fun _ => ⟨hfounded.leader, ?_⟩, fun hnil => ?_⟩
  · unfold Group.least Group.isBGGroup
    rw [hfounded.one, hfounded.bg]
    exact Nat.le_refl 1
  · have hone := hfounded.one
    unfold Group.getMembersCount at hone
    rw [hnil] at hone
    cases hone

theorem bgRaids_create (hcreate : w.create g p = some w') : w'.bgRaids = w.bgRaids := by
  have hadd : (w.modifyGroup g (Group.create p)).addMember g p = some w' := hcreate
  obtain ⟨_, _, _, _, hl⟩ := addMember_eq hadd
  exact hl.bgRaids

/-- The raids of battlegrounds, written. -/
def setBgRaids (r : Nat → Option Nat) (w : World P) : World P := { w with bgRaids := r }

theorem setRef_setBgRaids (r : Nat → Option Nat) (o : Bool) (g : Option Nat) (p : P)
    (w : World P) : (w.setBgRaids r).setRef o g p = (w.setRef o g p).setBgRaids r := by
  cases g with
  | none => rfl
  | some g => rfl

theorem setBattlegroundRaid_setBgRaids (r : Nat → Option Nat) (g : Nat) (p : P) (w : World P) :
    (w.setBgRaids r).setBattlegroundRaid g p = (w.setBattlegroundRaid g p).setBgRaids r :=
  congrArg (World.link false p g) (setRef_setBgRaids r true (w.getGroup p) p w)

/-- Adding a member has nothing to do with them. -/
theorem addMember_setBgRaids (r : Nat → Option Nat) (g : Nat) (p : P) (w : World P) :
    (w.setBgRaids r).addMember g p = (w.addMember g p).map (setBgRaids r) := by
  have hgroups : (w.setBgRaids r).groups g = w.groups g := rfl
  unfold addMember
  rw [hgroups]
  cases w.groups g with
  | none => rfl
  | some G =>
      dsimp only
      cases G.freeSubGroup with
      | none => rfl
      | some sub =>
          dsimp only
          have hw : ((w.setBgRaids r).modifyGroup g (Group.pushSlot
              ((w.setBgRaids r).newSlot p sub))).setGroupInvite none p =
                ((w.modifyGroup g (Group.pushSlot (w.newSlot p sub))).setGroupInvite none
                  p).setBgRaids r := rfl
          rw [hw]
          generalize (w.modifyGroup g (Group.pushSlot (w.newSlot p sub))).setGroupInvite none p =
            w₁
          have hget : (w₁.setBgRaids r).getGroup p = w₁.getGroup p := rfl
          rw [hget]
          split
          · split
            · exact congrArg some (setBattlegroundRaid_setBgRaids r g p w₁)
            · rfl
          · rfl

theorem led_addOrSet (h : Led w) (hp : (w.players p).connected = true) (b : Nat) :
    Led (w.addOrSetPlayerToCorrectBgGroup p b) := by
  unfold addOrSetPlayerToCorrectBgGroup
  cases hb : w.bgRaids b with
  | none =>
      dsimp only
      obtain ⟨w₁, hw₁, hbut, _, G, hG, hfounded⟩ := create_founded
        (led_newGroup h p (some b)) p (groups_newGroup_self w p (some b)) rfl hp
      have hled := led_bgRaid hbut hG hfounded
      have hcreate : (setBgRaids (Function.update w.bgRaids b (some w.nextGroup))
          (w.newGroup p (some b))).create w.nextGroup p =
            some (w₁.setBgRaids (Function.update w.bgRaids b (some w.nextGroup))) := by
        refine (addMember_setBgRaids _ w.nextGroup p
          ((w.newGroup p (some b)).modifyGroup w.nextGroup (Group.create p))).trans ?_
        exact congrArg (Option.map _) hw₁
      show Led (((setBgRaids (Function.update w.bgRaids b (some w.nextGroup))
        (w.newGroup p (some b))).create w.nextGroup p).getD _)
      rw [hcreate]
      refine ⟨⟨hled.linked, hled.unique, hled.rows, fun b' k hk => ?_⟩, hled.groups⟩
      have hk' : Function.update w.bgRaids b (some w.nextGroup) b' = some k := hk
      by_cases hbb : b' = b
      · rw [hbb, Function.update_self] at hk'
        obtain rfl := Option.some.inj hk'
        obtain ⟨s, hs, _⟩ := isMember_iff.1 hfounded.leader
        exact ⟨G, hG, List.ne_nil_of_mem hs⟩
      · rw [Function.update_of_ne hbb] at hk'
        refine hled.raids b' k ?_
        rw [bgRaids_create hw₁]
        exact hk'
  | some g =>
      dsimp only
      obtain ⟨G, hG, hne⟩ := h.raids b g hb
      rw [hG]
      dsimp only
      split <;> rename_i hmember
      · exact (relinked_setBattlegroundRaid w g p).led
          (refs_setBattlegroundRaid h.toRefs ⟨hp, G, hG, hmember⟩) h
      · refine led_leadFromOutside (of_getD h fun w' hadd => ?_) g p
        refine led_addMember h hp (fun K hK => ?_) hadd
        rw [← Option.some.inj (hG.symm.trans hK)]
        exact hne

/-! ## Coming and going -/

/-- A new player object is linked by its row. -/
theorem led_login (h : Led w) (p : P) : Led (w.login p) := by
  unfold login
  split <;> rename_i hp
  · exact h
  · have hnew : Led (w.setPlayer p ⟨(w.players p).name, true, true, none, false⟩) := by
      refine ⟨⟨fun l hl => ?_, h.unique, h.rows, h.raids⟩, h.groups⟩
      obtain ⟨hconn, hG⟩ := h.linked l hl
      refine ⟨?_, hG⟩
      show (Function.update w.players p _ l.player).connected = true
      by_cases hl' : l.player = p
      · rw [hl', Function.update_self]
      · rw [Function.update_of_ne hl']
        exact hconn
    have hself : ((w.setPlayer p ⟨(w.players p).name, true, true, none, false⟩).players
        p).connected = true := by
      show (Function.update w.players p _ p).connected = true
      rw [Function.update_self]
    dsimp only
    generalize w.setPlayer p ⟨(w.players p).name, true, true, none, false⟩ = w₁ at hnew hself
    split <;> rename_i hrow
    · exact hnew
    · rename_i g
      split <;> rename_i hg
      · obtain ⟨G, hG⟩ := Option.isSome_iff_exists.1 hg
        refine (relinked_setRef w₁ false (some g) p).led ?_ hnew
        exact refs_link hnew.toRefs false ⟨hself, G, hG, ((hnew.rows p g hrow).2 G hG).1⟩
      · exact hnew

theorem led_logout (h : Led w) (p : P) : Led (w.logout p) := by
  have hu := led_uninviteFromGroup h p
  unfold logout
  dsimp only
  generalize w.uninviteFromGroup p = w₁ at hu
  refine ⟨hu.toRefs.of_sub List.filter_sublist (fun l hmem hl => ?_) (fun _ _ hp => hp)
    (Nat.le_refl _) (fun _ _ G' _ _ hG' => ⟨G', hG', id, rfl⟩)
    (fun _ _ hb => ⟨hb, fun G hG hne => ⟨G, hG, hne⟩⟩), hu.groups⟩
  have hne : l.player ≠ p := by simpa using (List.mem_filter.1 hmem).2
  refine ⟨?_, hl.2⟩
  show (Function.update w₁.players p _ l.player).connected = true
  rw [Function.update_of_ne hne]
  exact hl.1

theorem connected_setPlayer {i : PlayerInfo} (hi : i.connected = (w.players p).connected) (q : P) :
    ((w.setPlayer p i).players q).connected = (w.players q).connected := by
  show (Function.update w.players p i q).connected = _
  by_cases hq : q = p
  · rw [hq, Function.update_self]
    exact hi
  · rw [Function.update_of_ne hq]

theorem slots_loaded (leader : P) (raid : Bool) (rows : List (MemberSlot P)) :
    (loaded leader raid rows).memberSlots = rows ∧
      (loaded leader raid rows).leaderGuid = leader ∧
      (loaded leader raid rows).bgGroup = none := by
  have hrows : ∀ (rows : List (MemberSlot P)) (G : Group P),
      (rows.foldl (fun G s => G.pushSlot s) G).memberSlots = G.memberSlots ++ rows ∧
        (rows.foldl (fun G s => G.pushSlot s) G).leaderGuid = G.leaderGuid ∧
        (rows.foldl (fun G s => G.pushSlot s) G).bgGroup = G.bgGroup := by
    intro rows
    induction rows with
    | nil => exact fun G => ⟨(List.append_nil _).symm, rfl, rfl⟩
    | cons s rows ih =>
        intro G
        obtain ⟨hslots, hleader, hbg⟩ := ih (G.pushSlot s)
        exact ⟨hslots.trans (List.append_assoc G.memberSlots [s] rows), hleader, hbg⟩
  unfold loaded
  cases raid with
  | true => exact hrows rows _
  | false => exact hrows rows _

/-- A group from the database, with its leader as one of two or more. -/
theorem led_loadGroup (h : Led w) {leader : P} (raid : Bool) {rows : List (MemberSlot P)}
    (hleader : leader ∈ rows.map MemberSlot.guid) (hmany : 2 ≤ rows.length) :
    Led (w.loadGroup leader raid rows) := by
  obtain ⟨hslots, hlead, hbg⟩ := slots_loaded leader raid rows
  have hmember : ∀ p, p ∈ rows.map MemberSlot.guid →
      (loaded leader raid rows).isMember p = true := by
    intro p hp
    rw [isMember_iff, hslots]
    exact List.mem_map.1 hp
  have hled : (loaded leader raid rows).Led := by
    refine ⟨fun _ => ⟨?_, ?_⟩, fun hnil => ?_⟩
    · rw [hlead]
      exact hmember leader hleader
    · unfold Group.least Group.isBGGroup Group.getMembersCount
      rw [hbg, hslots]
      exact hmany
    · rw [hslots] at hnil
      rw [hnil, List.length_nil] at hmany
      omega
  have hgroups := groups_loadGroup w leader raid rows
  have hnext : (w.loadGroup leader raid rows).nextGroup = w.nextGroup + 1 := by
    show (((w.groupObjects ++ [_]).modify _ _).modify _ _).length = _
    rw [List.length_modify, List.length_modify, List.length_append]
    rfl
  -- the group first, with no new rows
  have hadd : Refs { w.loadGroup leader raid rows with memberRows := w.memberRows } :=
    h.toRefs.add (L := loaded leader raid rows) hgroups hnext rfl rfl rfl rfl
  refine ⟨⟨hadd.linked, hadd.unique, fun p g hp => ?_, hadd.raids⟩, fun g G hG => ?_⟩
  · have hp' : (if p ∈ rows.map MemberSlot.guid then some w.nextGroup else w.memberRows p) =
        some g := hp
    split at hp' <;> rename_i hrow
    · obtain rfl := Option.some.inj hp'
      refine ⟨by omega, fun G hG => ?_⟩
      rw [hgroups, if_pos rfl] at hG
      rw [← Option.some.inj hG]
      refine ⟨hmember p hrow, ?_⟩
      unfold Group.isBGGroup
      rw [hbg]
      rfl
    · exact hadd.rows p g hp'
  · rw [hgroups] at hG
    split at hG
    · rw [← Option.some.inj hG]
      exact hled
    · exact h.groups g G hG

/-! ## Steps -/

/-- Every member an operation removes from the raid of a battleground is let go,
and a group from the database has its leader among two or more members. -/
def StaysLed (realm : Realm P) (w : World P) (o : Op P) : Prop :=
  match o with
  | .uninviteGuid p guid => UninviteCleanly (w.uninviteGuid p guid) w
  | .uninviteName p name => UninviteCleanly (w.uninviteName realm p name) w
  | .leave p => ∀ g, w.getGroup p = some g → (w.players p).inBattleground = false →
      RemovesCleanly g p w
  | .leaveBattleground p b => ∀ g, w.bgRaids b = some g → RemovesCleanly g p w
  | .removeMember g guid => RemovesCleanly g guid w
  | .loadGroup leader _ rows => leader ∈ rows.map MemberSlot.guid ∧ 2 ≤ rows.length
  | _ => True

/-- One operation: every group is still led by one of its members. -/
theorem led_step {realm : Realm P} {o : Op P} (h : Led w) (ho : StaysLed realm w o) :
    Led (w.step realm o) := by
  cases o with
  | login p => exact led_login h p
  | logout p => exact of_byPlayer h fun _ => led_logout h p
  | setInWorld p b =>
      exact of_byPlayer h fun _ => h.players rfl rfl rfl rfl (connected_setPlayer rfl)
  | invite p target allowed =>
      exact of_byPlayer h fun _ => led_handleGroupInvite h p target allowed
  | accept p => exact of_byPlayer h fun hp => led_handleGroupAccept h hp
  | decline p => exact of_byPlayer h fun _ => led_handleGroupDecline h p
  | uninviteGuid p guid => exact of_byPlayer h fun _ => led_applyUninvite h ho
  | uninviteName p name => exact of_byPlayer h fun _ => led_applyUninvite h ho
  | leave p =>
      refine of_byPlayer h fun _ => of_onGroupOf h fun g G hg _ => ?_
      split <;> rename_i hin
      · exact h
      · exact led_removeMember h (ho g hg (by simpa using hin))
  | setLeader p guid =>
      refine of_byPlayer h fun _ => of_onGroupOf h fun g G _ _ => ?_
      split
      · exact h
      · exact led_changeLeader h g guid
  | raidConvert p => exact of_byPlayer h fun _ => led_handleGroupRaidConvert h p
  | changeSubGroup p name groupNr =>
      exact of_byPlayer h fun _ => led_handleGroupChangeSubGroup h realm p name groupNr
  | swapSubGroup p name1 name2 =>
      exact of_byPlayer h fun _ => led_handleGroupSwapSubGroup h realm p name1 name2
  | assistantLeader p guid apply =>
      refine of_byPlayer h fun _ => of_onGroupOf h fun g G _ _ => ?_
      split
      · exact h
      · exact h.write_same g rfl rfl rfl rfl (fun _ => rfl) fun K _ =>
          sameMembers_setGroupMemberFlag guid apply K
  | attemptJoin p owner =>
      show Led (w.attemptJoin p owner)
      unfold attemptJoin
      split <;> rename_i hpair
      · exact of_getD h fun w' hadd => (led_lfgAdd h hpair hadd).1
      · exact h
  | attemptAddMore owner p => exact led_attemptAddMore h owner p
  | joinBattleground p b =>
      show Led (w.byPlayer p fun w =>
        (w.setInBattleground p true).addOrSetPlayerToCorrectBgGroup p b)
      refine of_byPlayer h fun hp => ?_
      have hin : Led (w.setInBattleground p true) :=
        h.players rfl rfl rfl rfl (connected_setPlayer rfl)
      have hp' : ((w.setInBattleground p true).players p).connected = true :=
        (connected_setPlayer (i := { w.players p with inBattleground := true }) rfl p).trans hp
      exact led_addOrSet hin hp' b
  | leaveBattleground p b =>
      show Led (w.leaveBattleground p b)
      unfold leaveBattleground
      cases hb : w.bgRaids b with
      | none => exact h.players rfl rfl rfl rfl (connected_setPlayer rfl)
      | some g =>
          exact (led_removeMember h (ho g hb)).players rfl rfl rfl rfl (connected_setPlayer rfl)
  | removeMember g guid => exact led_removeMember h ho
  | disband g => exact led_disband (h.but g)
  | changeLeader g guid => exact led_changeLeader h g guid
  | changeLeaderToFirstOnlineMember g => exact led_changeLeaderToFirst h g
  | loadGroup leader raid rows => exact led_loadGroup h raid ho.1 ho.2
  | groupLoot env g lid => exact (quiet_startRolls env false g lid w).led h
  | needBeforeGreed env g lid => exact (quiet_startRolls env true g lid w).led h
  | lootRoll env p itemGUID rollType =>
      exact of_byPlayer h fun _ => (quiet_handleLootRoll env p itemGUID rollType w).led h
  | endRoll env allowedMap g lid => exact (quiet_endRoll env allowedMap g lid w).led h
  | loseLoot lid => exact (quiet_setLoot w lid none).led h

theorem led_start (names : P → String) (loots : Nat → Option (Loot P)) :
    Led (start names loots) := by
  refine ⟨⟨fun l hl => (by cases hl), List.nodup_nil, fun p g hp => (by cases hp),
    fun b g hb => (by cases hb)⟩, fun g G hG => (by cases hG)⟩

theorem led_run {realm : Realm P} {ops : List (Op P)} (h : Led w)
    (hops : Along (step realm) (StaysLed realm) w ops) : Led (w.run realm ops) :=
  Along.invariant (fun _ _ h ho => led_step h ho) h hops

/-- In every run where raids let go of the members they remove, a group that is
created is led by one of its members and has as many as it must. -/
theorem group_led {realm : Realm P} {names : P → String} {loots : Nat → Option (Loot P)}
    {ops : List (Op P)} (h : Along (step realm) (StaysLed realm) (start names loots) ops)
    (g : Nat) (G : Group P) (hG : ((start names loots).run realm ops).groups g = some G)
    (hcreated : G.isCreated = true) :
    G.isMember G.leaderGuid = true ∧ G.least ≤ G.getMembersCount := by
  refine ((led_run (led_start names loots) h).groups g G hG).leader ?_
  exact List.ne_nil_of_length_pos (of_decide_eq_true hcreated)

/-! The leader of a party of three leaves and is replaced. Then the raid of a
battleground whose second leader leaves it to a player who is not a member. -/

def replaced : List (Op Nat) := party ++ [.login 2, .invite 0 2 true, .accept 2, .leave 0]

theorem replaced_staysLed : Along (step everybody) (StaysLed everybody) lobby replaced := by
  refine ⟨trivial, trivial, trivial, trivial, trivial, trivial, trivial, ?_, trivial⟩
  intro g hg _ G hG _ hbg
  obtain rfl : g = 0 := (Option.some.inj hg).symm
  obtain rfl : G = _ := (Option.some.inj hG).symm
  cases hbg

theorem group_led_replaced : ∃ G, (lobby.run everybody replaced).groups 0 = some G ∧
    G.leaderGuid = 1 ∧ G.isMember G.leaderGuid = true ∧ G.least ≤ G.getMembersCount :=
  ⟨_, rfl, rfl, group_led replaced_staysLed 0 _ rfl rfl⟩

def strayed : List (Op Nat) :=
  [.login 0, .login 1, .login 2, .joinBattleground 0 0, .attemptAddMore 0 1,
    .attemptAddMore 0 2, .joinBattleground 2 1, .setLeader 0 1, .uninviteGuid 1 2, .logout 0,
    .leave 1]

theorem raid_without_leader :
    ¬ ∀ g G, (lobby.run everybody strayed).groups g = some G → G.isCreated = true →
      G.isMember G.leaderGuid = true ∧ G.least ≤ G.getMembersCount := by
  intro h
  have hleader := (h 0 _ rfl rfl).1
  revert hleader
  decide

end World

end Sunstrider.Groups
