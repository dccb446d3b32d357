import Sunstrider.Lib.Runs
import Sunstrider.Proofs.GroupFrames
import Sunstrider.Proofs.SubGroups

/-!
# Groups that fit

Every group of the world is `Sized`: the counts of its subgroups are right, and
it has no more members than it may. A group changes its slots in few places, and
each but one looks for room first. `AddMember` looks for a subgroup with room,
and a party has no counts to look at; whoever adds to a party has to ask whether
it is full. The handler of an accepted invitation does. A battleground has no
parties, which is the second half of `Orderly`. The looking-for-group tool does
not ask, and its sixth member goes into the party.

`RoomToAdd` is the condition that is missing there, and for groups read from the
database that the rows are those of a group that fits.
-/

set_option linter.unusedSectionVars false

namespace Sunstrider.Groups

open Lib

variable {P : Type} [LinearOrder P]

namespace World

variable {G : Group P} {g : Nat}

/-- Every group fits, and the group of a battleground is a raid. -/
structure Orderly (w : World P) : Prop where
  sized : ∀ g G, w.groups g = some G → G.Sized
  raids : ∀ b g, w.bgRaids b = some g → ∃ G, w.groups g = some G ∧ G.isRaidGroup = true

variable {w w' : World P}

/-! ## Changes that fit -/

theorem Orderly.of_same (h : Orderly w)
    (hgroups : ∀ g G', w'.groups g = some G' → ∃ G, w.groups g = some G ∧ G.SameSlots G')
    (hback : ∀ g G, w.groups g = some G → ∃ G', w'.groups g = some G')
    (hraids : w'.bgRaids = w.bgRaids) : Orderly w' where
  sized := by
    intro g G' hG'
    obtain ⟨G, hG, hsame⟩ := hgroups g G' hG'
    exact hsame.sized (h.sized g G hG)
  raids := by
    intro b g hb
    rw [hraids] at hb
    obtain ⟨G, hG, hraid⟩ := h.raids b g hb
    obtain ⟨G', hG'⟩ := hback g G hG
    obtain ⟨G₁, hG₁, hsame⟩ := hgroups g G' hG'
    obtain rfl : G = G₁ := Option.some.inj (hG.symm.trans hG₁)
    exact ⟨G', hG', hsame.isRaidGroup.trans hraid⟩

theorem Orderly.of_eq (h : Orderly w) (hgroups : w'.groupObjects = w.groupObjects)
    (hraids : w'.bgRaids = w.bgRaids) : Orderly w' := by
  have hread : w'.groups = w.groups := by
    unfold groups
    rw [hgroups]
  refine ⟨?_, ?_⟩
  · rw [hread]
    exact h.sized
  · rw [hread, hraids]
    exact h.raids

theorem Relinked.orderly (hl : Relinked w w') (h : Orderly w) : Orderly w' :=
  h.of_eq hl.groupObjects hl.bgRaids

theorem sameSlots_of_noRolls {G' : Group P} (h : G'.noRolls = G.noRolls) : G.SameSlots G' := by
  have hraid := congrArg Group.isRaidGroup h
  have hcounts := congrArg Group.subGroupsCounts h
  have hsub := congrArg Group.subgroups h
  exact ⟨hraid, hcounts, hsub⟩

theorem Quiet.orderly (hq : Quiet w w') (h : Orderly w) : Orderly w' := by
  refine h.of_same (fun g G' hG' => ?_) (fun g G hG => ?_) hq.bgRaids
  · obtain ⟨G, hG, heq⟩ := hq.group hG'
    exact ⟨G, hG, sameSlots_of_noRolls heq⟩
  · obtain ⟨G', hG', _⟩ := hq.symm.group hG
    exact ⟨G', hG'⟩

/-- One group is written. -/
theorem Orderly.write (h : Orderly w) (g : Nat) {f : Group P → Group P}
    (hobjects : w'.groupObjects = (w.modifyGroup g f).groupObjects)
    (hraids : w'.bgRaids = w.bgRaids)
    (hf : ∀ G, w.groups g = some G →
      (f G).Sized ∧ (G.isRaidGroup = true → (f G).isRaidGroup = true)) : Orderly w' := by
  have hread : ∀ k, w'.groups k = if g = k then (w.groups k).map f else w.groups k := by
    intro k
    rw [← groups_modifyGroup]
    unfold groups
    rw [hobjects]
  refine ⟨fun k G' hG' => ?_, fun b k hb => ?_⟩
  · rw [hread] at hG'
    split at hG' <;> rename_i hgk
    · subst hgk
      obtain ⟨G, hG, rfl⟩ := Option.map_eq_some_iff.1 hG'
      exact (hf G hG).1
    · exact h.sized k G' hG'
  · rw [hraids] at hb
    obtain ⟨G, hG, hraid⟩ := h.raids b k hb
    rw [hread]
    split <;> rename_i hgk
    · subst hgk
      rw [hG]
      exact ⟨f G, rfl, (hf G hG).2 hraid⟩
    · exact ⟨G, hG, hraid⟩

/-- One group is written, and not its slots. -/
theorem Orderly.write_same (h : Orderly w) (g : Nat) {f : Group P → Group P}
    (hobjects : w'.groupObjects = (w.modifyGroup g f).groupObjects)
    (hraids : w'.bgRaids = w.bgRaids) (hf : ∀ G : Group P, G.SameSlots (f G)) : Orderly w' := by
  refine h.write g hobjects hraids fun G hG => ⟨(hf G).sized (h.sized g G hG), ?_⟩
  intro hraid
  rw [(hf G).isRaidGroup]
  exact hraid

theorem sameSlots_invitees (G : Group P) (invitees : List P) :
    G.SameSlots { G with invitees := invitees } := ⟨rfl, rfl, rfl⟩

/-- A group more. -/
theorem Orderly.add (h : Orderly w) {L : Group P}
    (hgroups : ∀ k, w'.groups k = if k = w.nextGroup then some L else w.groups k)
    (hraids : w'.bgRaids = w.bgRaids) (hL : L.Sized) : Orderly w' := by
  refine ⟨fun g G hG => ?_, fun b g hb => ?_⟩
  · rw [hgroups] at hG
    split at hG
    · obtain rfl := Option.some.inj hG
      exact hL
    · exact h.sized g G hG
  · rw [hraids] at hb
    obtain ⟨G, hG, hraid⟩ := h.raids b g hb
    refine ⟨G, ?_, hraid⟩
    rw [hgroups, if_neg, hG]
    intro hg
    rw [hg, groups_nextGroup] at hG
    cases hG

theorem Orderly.newGroup (h : Orderly w) (leader : P) (bg : Option Nat) :
    Orderly (w.newGroup leader bg) :=
  h.add (groups_newGroup w leader bg) rfl (Group.sized_new leader bg)

theorem Deleted.orderly (hd : Deleted w g G w') (h : Orderly w) : Orderly w' := by
  refine ⟨fun k K hK => ?_, fun b k hb => ?_⟩
  · rw [hd.groups] at hK
    split at hK
    · cases hK
    · exact h.sized k K hK
  · obtain ⟨hne, hb'⟩ := hd.bgRaids b k hb
    rw [hd.groups, if_neg (Ne.symm hne)]
    exact h.raids b k hb'

theorem orderly_disband (h : Orderly w) (g : Nat) : Orderly (w.disband g) := by
  cases hG : w.groups g with
  | none =>
      rw [disband_none hG]
      exact h
  | some G => exact (disband_deleted hG).orderly h

theorem orderly_removeInvite (h : Orderly w) (g : Nat) (p : P) : Orderly (w.removeInvite g p) :=
  h.write_same g rfl rfl fun G => sameSlots_invitees G _

theorem orderly_removeAllInvites (h : Orderly w) (g : Nat) : Orderly (w.removeAllInvites g) := by
  cases hG : w.groups g with
  | none =>
      unfold removeAllInvites
      rw [hG]
      exact h
  | some G =>
      rw [removeAllInvites_eq hG]
      exact h.write_same g rfl rfl fun G => sameSlots_invitees G _

theorem orderly_addInvite {p : P} (hadd : w.addInvite g p = some w') (h : Orderly w) :
    Orderly w' := by
  obtain ⟨_, _, rfl⟩ := addInvite_eq hadd
  exact (orderly_removeInvite h g p).write_same g rfl rfl fun G => sameSlots_invitees G _

theorem sameSlots_lead (guid : P) (G : Group P) : G.SameSlots (lead guid G) := by
  have hset : G.SameSlots { G with leaderGuid := guid } := ⟨rfl, rfl, rfl⟩
  have htoggle := Group.sameSlots_modifySlot guid
    (f := fun s => { s with flags := s.flags &&& (255 ^^^ memberFlagAssistant) }) (fun _ => rfl)
    { G with leaderGuid := guid }
  exact ⟨htoggle.isRaidGroup.trans hset.isRaidGroup,
    htoggle.subGroupsCounts.trans hset.subGroupsCounts, htoggle.subgroups.trans hset.subgroups⟩

theorem orderly_changeLeader (h : Orderly w) (g : Nat) (guid : P) :
    Orderly (w.changeLeader g guid) := by
  rcases changeLeader_cases w g guid with heq | ⟨G, _, _, _, heq⟩
  · rw [heq]
    exact h
  · rw [heq]
    exact h.write_same g rfl rfl (sameSlots_lead guid)

theorem orderly_changeLeaderToFirst (h : Orderly w) (g : Nat) :
    Orderly (w.changeLeaderToFirstOnlineMember g) := by
  rcases changeLeaderToFirst_cases w g with heq | ⟨guid, heq⟩
  · rw [heq]
    exact h
  · rw [heq]
    exact orderly_changeLeader h g guid

/-! ## A member less -/

theorem isRaidGroup_dropMember (guid : P) (G : Group P) :
    (dropMember guid G).isRaidGroup = G.isRaidGroup := by
  unfold dropMember Group.eraseSlot
  split <;> rfl

/-- There is a member left for every one that is taken out. -/
theorem orderly_afterDrop {guid : P} (hG : w.groups g = some G)
    (hlarge : G.least < G.getMembersCount) (h : Orderly w) : Orderly (w.afterDrop g G guid) := by
  obtain ⟨hobjects, _, _, hraids⟩ := unlinkMember_frame w g G.isBGGroup guid
  have hunlinked : Orderly (w.unlinkMember g G.isBGGroup guid) := h.of_eq hobjects hraids
  have hdropped : Orderly
      ((w.unlinkMember g G.isBGGroup guid).modifyGroup g (dropMember guid)) := by
    refine hunlinked.write g rfl rfl fun G' hG' => ⟨?_, ?_⟩
    · obtain rfl : G = G' := by
        unfold groups at hG'
        rw [hobjects] at hG'
        exact Option.some.inj (hG.symm.trans hG')
      have hleast := least_pos G
      have hsame : G.SameSlots (G.removeFromRolls guid) := ⟨rfl, rfl, rfl⟩
      exact (hsame.sized (h.sized g G hG)).eraseSlot guid (show 1 < G.getMembersCount by omega)
    · intro hraid
      rw [isRaidGroup_dropMember]
      exact hraid
  unfold afterDrop
  dsimp only
  split
  · rcases pickLeader_cases ((w.unlinkMember g G.isBGGroup guid).modifyGroup g
      (dropMember guid)) g with heq | ⟨leader, heq⟩
    · rw [heq]
      exact hdropped
    · rw [heq]
      exact orderly_changeLeader hdropped g leader
  · exact hdropped

theorem orderly_removeMember (h : Orderly w) (g : Nat) (guid : P) :
    Orderly (w.removeMember g guid) := by
  cases hG : w.groups g with
  | none =>
      rw [removeMember_none hG]
      exact h
  | some G =>
      rcases removeMember_cases hG guid with ⟨_, heq⟩ | ⟨hlarge, _, heq⟩ | ⟨hlarge, _, heq⟩
      · rw [heq]
        exact orderly_disband h g
      · rw [heq]
        exact orderly_disband (orderly_afterDrop hG hlarge h) g
      · rw [heq]
        exact orderly_afterDrop hG hlarge h

theorem orderly_uninviteFromGroup (h : Orderly w) (p : P) : Orderly (w.uninviteFromGroup p) := by
  unfold uninviteFromGroup
  split
  · exact h
  · rename_i g _
    have hr := orderly_removeInvite h g p
    dsimp only
    split <;> rename_i hG
    · exact hr
    · split
      · split
        · exact orderly_disband hr g
        · exact hr
      · split
        · exact (removeAllInvites_deleteGroup hG).orderly hr
        · exact hr

/-! ## A member more -/

/-- The group at an address has room for one more, as far as `AddMember` does not
see to it. -/
def HasRoom (w : World P) (g : Nat) : Prop :=
  ∀ G, w.groups g = some G → G.isRaidGroup = false → G.memberSlots.length < maxGroupSize

theorem orderly_addMember {p : P} (hadd : w.addMember g p = some w') (hroom : w.HasRoom g)
    (h : Orderly w) : Orderly w' := by
  obtain ⟨G, sub, hG, hsub, hl⟩ := addMember_eq hadd
  refine hl.orderly (h.write g rfl rfl fun G' hG' => ⟨?_, id⟩)
  obtain rfl : G = G' := Option.some.inj (hG.symm.trans hG')
  have hfits := (h.sized g G hG).toFits
  have hfree := hfits.freeSubGroup hsub (hroom G hG)
  exact hfits.pushSlot hfree.1 hfree.2 (hroom G hG)

/-- What `Create` makes of a group without slots. -/
theorem create_eq (leader : P) (hG : w.groups g = some G) (hsized : G.Sized)
    (hnil : G.memberSlots = []) :
    ∃ w', w.create g leader = some w' ∧
      w'.bgRaids = w.bgRaids ∧
      w'.groupObjects = (w.modifyGroup g fun G =>
        (G.create leader).pushSlot (w.newSlot leader 0)).groupObjects ∧
      ((G.create leader).pushSlot (w.newSlot leader 0)).Sized := by
  obtain ⟨hfits, hslots, _, hfree⟩ := hsized.create hnil leader
  have hG₁ : (w.modifyGroup g (Group.create leader)).groups g = some (G.create leader) :=
    groups_modifyGroup_self _ hG
  have hnone : (w.create g leader) ≠ none := by
    unfold create addMember
    rw [hG₁]
    dsimp only
    rw [hfree]
    dsimp only
    split
    · split <;> exact Option.some_ne_none _
    · exact Option.some_ne_none _
  obtain ⟨w', hw'⟩ := Option.ne_none_iff_exists'.1 hnone
  obtain ⟨G₁, sub, hread, hsub, hl⟩ := addMember_eq hw'
  obtain rfl : G.create leader = G₁ := Option.some.inj (hG₁.symm.trans hread)
  obtain rfl : 0 = sub := Option.some.inj (hfree.symm.trans hsub)
  have hlen : (G.create leader).memberSlots.length < maxGroupSize := by
    rw [hslots]
    exact Nat.zero_lt_succ 4
  have hplace := hfits.freeSubGroup hfree fun _ => hlen
  refine ⟨w', hw', hl.bgRaids, ?_, hfits.pushSlot hplace.1 hplace.2 fun _ => hlen⟩
  rw [hl.groupObjects]
  show (w.groupObjects.modify g (Option.map (Group.create leader))).modify g _ = _
  rw [List.modify_modify_eq]
  show w.groupObjects.modify g _ = w.groupObjects.modify g _
  congr 1
  funext o
  cases o <;> rfl

theorem orderly_create {leader : P} (hcreate : w.create g leader = some w')
    (hG : w.groups g = some G) (hnil : G.memberSlots = []) (h : Orderly w) :
    Orderly w' ∧ w'.HasRoom g := by
  have hsized := h.sized g G hG
  obtain ⟨w₁, hw₁, hraids, hobjects, hfits⟩ := create_eq leader hG hsized hnil
  obtain rfl : w₁ = w' := Option.some.inj (hw₁.symm.trans hcreate)
  have hparty : G.isRaidGroup = false := by
    by_contra hraid
    exact hsized.created (by simpa using hraid) hnil
  refine ⟨h.write g hobjects hraids fun G' hG' => ?_, fun G' hG' _ => ?_⟩
  · obtain rfl : G = G' := Option.some.inj (hG.symm.trans hG')
    refine ⟨hfits, fun hraid => ?_⟩
    rw [hparty] at hraid
    cases hraid
  · unfold groups at hG'
    rw [hobjects] at hG'
    have hread := groups_modifyGroup_self
      (fun G => (G.create leader).pushSlot (w.newSlot leader 0)) hG
    obtain rfl := Option.some.inj (hread.symm.trans hG')
    show ((G.create leader).memberSlots ++ [_]).length < _
    rw [(hsized.create hnil leader).2.1]
    exact Nat.succ_lt_succ (Nat.zero_lt_succ 3)

end World

end Sunstrider.Groups
