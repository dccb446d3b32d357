import Sunstrider.Lib.Runs
import Sunstrider.Proofs.GroupSteps
import Sunstrider.Proofs.RollEnds

/-!
# Blocked items and active rolls

The flag that blocks an item is in the loot, the roll that will free it is in a
group. An item is *stray* when it is kept for a roll and no group has one. Most
operations touch neither loots nor rolls; `KeepsRolls` is all that has to be
shown of them. Starting a roll sets the flag and adds the roll. So an item goes
astray in two ways only: a group is deleted with rolls that still hold an item,
or a roll is counted and does not settle. `RollsEndWell` excludes both, and
along a run that meets it no item goes astray.

The code does not exclude the first: `Disband` drops the rolls of the group and
leaves the flags set.
-/

set_option linter.unusedSectionVars false

namespace Sunstrider.Groups

open Looting

variable {P : Type} [LinearOrder P]

/-- The item a roll is for. -/
def GroupRoll.item (r : GroupRoll P) : Nat × Nat := (r.loot, r.roll.itemSlot)

namespace World

variable {w w' : World P} {g : Nat} {p : P}

/-- The items a group has rolls for. -/
def rolling (w : World P) (g : Nat) : List (Nat × Nat) :=
  match w.groups g with
  | none => []
  | some G => G.rolls.map GroupRoll.item

/-- Some group has an active roll for the item. -/
def HasRoll (w : World P) (item : Nat × Nat) : Prop := ∃ g, item ∈ w.rolling g

/-- The item is blocked and not looted. -/
def Held (w : World P) (item : Nat × Nat) : Prop :=
  ∃ l, w.loots item.1 = some l ∧ l.HeldAt item.2

/-- The item is kept for a roll that nobody holds. -/
def Stray (w : World P) (item : Nat × Nat) : Prop := w.Held item ∧ ¬ w.HasRoll item

def NoNewStray (w w' : World P) : Prop := ∀ item, w'.Stray item → w.Stray item

theorem NoNewStray.refl (w : World P) : NoNewStray w w := fun _ h => h

theorem NoNewStray.trans {w'' : World P} (h : NoNewStray w w') (h' : NoNewStray w' w'') :
    NoNewStray w w'' := fun item hs => h item (h' item hs)

/-! ## What touches neither -/

/-- Loots are unchanged, and every group has rolls for the items it had. -/
structure KeepsRolls (w w' : World P) : Prop where
  loots : w'.loots = w.loots
  rolling : ∀ g, w'.rolling g = w.rolling g

namespace KeepsRolls

variable {w w' w'' : World P}

theorem refl (w : World P) : KeepsRolls w w := ⟨rfl, fun _ => rfl⟩

theorem trans (h : KeepsRolls w w') (h' : KeepsRolls w' w'') : KeepsRolls w w'' :=
  ⟨h'.loots.trans h.loots, fun g => (h'.rolling g).trans (h.rolling g)⟩

theorem held (h : KeepsRolls w w') (item : Nat × Nat) : w'.Held item ↔ w.Held item := by
  unfold Held
  rw [h.loots]

theorem hasRoll (h : KeepsRolls w w') (item : Nat × Nat) :
    w'.HasRoll item ↔ w.HasRoll item := by
  unfold HasRoll
  simp only [h.rolling]

theorem noNewStray (h : KeepsRolls w w') : NoNewStray w w' := by
  intro item hs
  exact ⟨(h.held item).1 hs.1, fun hr => hs.2 ((h.hasRoll item).2 hr)⟩

end KeepsRolls

/-- Groups and loots are the same. -/
theorem keepsRolls_of_eq (hgroups : w'.groupObjects = w.groupObjects)
    (hloots : w'.loots = w.loots) : KeepsRolls w w' := by
  refine ⟨hloots, fun g => ?_⟩
  unfold rolling groups
  rw [hgroups]

theorem Relinked.keepsRolls (h : Relinked w w') : KeepsRolls w w' :=
  keepsRolls_of_eq h.groupObjects h.loots

theorem keepsRolls_modifyGroup (w : World P) (g : Nat) {f : Group P → Group P}
    (hf : ∀ G, (f G).rolls.map GroupRoll.item = G.rolls.map GroupRoll.item) :
    KeepsRolls w (w.modifyGroup g f) := by
  refine ⟨rfl, fun h => ?_⟩
  unfold rolling
  rw [groups_modifyGroup]
  by_cases hgh : g = h
  · rw [if_pos hgh]
    cases w.groups h with
    | none => rfl
    | some G => exact hf G
  · rw [if_neg hgh]

/-- A write to a group, together with other fields. -/
theorem keepsRolls_write (g : Nat) {f : Group P → Group P}
    (hobjects : w'.groupObjects = (w.modifyGroup g f).groupObjects) (hloots : w'.loots = w.loots)
    (hf : ∀ G, (f G).rolls.map GroupRoll.item = G.rolls.map GroupRoll.item) : KeepsRolls w w' :=
  (keepsRolls_modifyGroup w g hf).trans (keepsRolls_of_eq hobjects hloots)

theorem keepsRolls_newGroup (w : World P) (leader : P) (bg : Option Nat) :
    KeepsRolls w (w.newGroup leader bg) := by
  refine ⟨rfl, fun h => ?_⟩
  unfold rolling
  rw [groups_newGroup]
  by_cases hh : h = w.nextGroup
  · rw [if_pos hh, hh, groups_nextGroup]
    rfl
  · rw [if_neg hh]

theorem keepsRolls_removeInvite (w : World P) (g : Nat) (p : P) :
    KeepsRolls w (w.removeInvite g p) :=
  keepsRolls_write g rfl rfl fun _ => rfl

theorem keepsRolls_removeAllInvites (w : World P) (g : Nat) :
    KeepsRolls w (w.removeAllInvites g) := by
  cases hG : w.groups g with
  | none =>
      unfold removeAllInvites
      rw [hG]
      exact KeepsRolls.refl w
  | some G =>
      rw [removeAllInvites_eq hG]
      exact keepsRolls_write g rfl rfl fun _ => rfl

theorem keepsRolls_addInvite (h : w.addInvite g p = some w') : KeepsRolls w w' := by
  obtain ⟨_, _, rfl⟩ := addInvite_eq h
  exact (keepsRolls_removeInvite w g p).trans (keepsRolls_write g rfl rfl fun _ => rfl)

theorem keepsRolls_addMember (h : w.addMember g p = some w') : KeepsRolls w w' := by
  obtain ⟨G, sub, _, _, hl⟩ := addMember_eq h
  refine KeepsRolls.trans ?_ hl.keepsRolls
  exact keepsRolls_write g rfl rfl fun _ => rfl

theorem rolls_create (leader : P) (G : Group P) : (G.create leader).rolls = G.rolls := by
  unfold Group.create
  dsimp only
  split <;> rfl

theorem keepsRolls_create (h : w.create g p = some w') : KeepsRolls w w' :=
  (keepsRolls_modifyGroup w g fun G => by rw [rolls_create]).trans (keepsRolls_addMember h)

theorem rolls_modifySlot (guid : P) (f : MemberSlot P → MemberSlot P) (G : Group P) :
    (G.modifySlot guid f).rolls = G.rolls := by
  unfold Group.modifySlot
  split <;> rfl

theorem keepsRolls_changeLeader (w : World P) (g : Nat) (guid : P) :
    KeepsRolls w (w.changeLeader g guid) := by
  rcases changeLeader_cases w g guid with h | ⟨G, _, _, _, h⟩
  · rw [h]
    exact KeepsRolls.refl w
  · rw [h]
    refine keepsRolls_modifyGroup w g fun G => ?_
    rw [lead, Group.toggleGroupMemberFlag, rolls_modifySlot]

theorem keepsRolls_pickLeader (w : World P) (g : Nat) : KeepsRolls w (w.pickLeader g) := by
  rcases pickLeader_cases w g with h | ⟨guid, h⟩
  · rw [h]
    exact KeepsRolls.refl w
  · rw [h]
    exact keepsRolls_changeLeader w g guid

theorem keepsRolls_changeLeaderToFirst (w : World P) (g : Nat) :
    KeepsRolls w (w.changeLeaderToFirstOnlineMember g) := by
  rcases changeLeaderToFirst_cases w g with h | ⟨guid, h⟩
  · rw [h]
    exact KeepsRolls.refl w
  · rw [h]
    exact keepsRolls_changeLeader w g guid

theorem itemSlot_removeMember (r : Roll P) (g : P) :
    (r.removeMember g).itemSlot = r.itemSlot := by
  unfold Roll.removeMember
  split
  · rfl
  · rename_i e _
    dsimp only
    cases e.2 with
    | pass => rfl
    | need => rfl
    | greed => rfl
    | notEmitedYet => rfl
    | notValid => rfl

theorem rolling_dropMember (guid : P) (G : Group P) :
    (dropMember guid G).rolls.map GroupRoll.item = G.rolls.map GroupRoll.item := by
  have herase : (dropMember guid G).rolls = (G.removeFromRolls guid).rolls := by
    unfold dropMember Group.eraseSlot
    split <;> rfl
  rw [herase, Group.removeFromRolls, List.map_map]
  refine List.map_congr_left fun r _ => ?_
  show (r.loot, (r.roll.removeMember guid).itemSlot) = (r.loot, r.roll.itemSlot)
  rw [itemSlot_removeMember]

theorem keepsRolls_afterDrop (w : World P) (g : Nat) (G : Group P) (guid : P) :
    KeepsRolls w (w.afterDrop g G guid) := by
  obtain ⟨hgroups, _, hloots, _⟩ := unlinkMember_frame w g G.isBGGroup guid
  have hdrop := (keepsRolls_of_eq hgroups hloots).trans
    (keepsRolls_modifyGroup _ g (rolling_dropMember guid))
  unfold afterDrop
  dsimp only
  split
  · exact hdrop.trans (keepsRolls_pickLeader _ g)
  · exact hdrop

theorem keepsRolls_commitRows (w : World P) (g : Nat) (new : List P) :
    KeepsRolls w (w.commitRows g new) := by
  unfold commitRows
  split
  · exact KeepsRolls.refl w
  · exact keepsRolls_of_eq rfl rfl

/-! ## Groups that are deleted -/

/-- Every item a group has a roll for is free, or rolled for in another group. -/
def Releases (w : World P) (g : Nat) : Prop :=
  ∀ item ∈ w.rolling g, w.Held item → ∃ g', g' ≠ g ∧ item ∈ w.rolling g'

theorem KeepsRolls.releases (h : KeepsRolls w w') (hr : w.Releases g) : w'.Releases g := by
  intro item hitem hheld
  rw [h.rolling] at hitem
  obtain ⟨g', hne, hg'⟩ := hr item hitem ((h.held item).1 hheld)
  exact ⟨g', hne, by rw [h.rolling]; exact hg'⟩

theorem Deleted.noNewStray {G : Group P} (h : Deleted w g G w') (hr : w.Releases g) :
    NoNewStray w w' := by
  have hrolling : ∀ g', g' ≠ g → w'.rolling g' = w.rolling g' := by
    intro g' hne
    unfold rolling
    rw [h.groups, if_neg (Ne.symm hne)]
  intro item hs
  have hheld : w.Held item := by
    obtain ⟨⟨l, hl, hat⟩, _⟩ := hs
    exact ⟨l, h.loots ▸ hl, hat⟩
  refine ⟨hheld, ?_⟩
  intro ⟨g', hg'⟩
  by_cases hne : g' = g
  · subst hne
    obtain ⟨g'', hne', hg''⟩ := hr item hg' hheld
    exact hs.2 ⟨g'', by rw [hrolling g'' hne']; exact hg''⟩
  · exact hs.2 ⟨g', by rw [hrolling g' hne]; exact hg'⟩

theorem noNewStray_disband (hr : w.Releases g) : NoNewStray w (w.disband g) := by
  cases hG : w.groups g with
  | none =>
      rw [disband_none hG]
      exact NoNewStray.refl w
  | some G => exact (disband_deleted hG).noNewStray hr

/-- `RemoveMember` disbands the group: it is small already, or has too few
members online without this one. -/
def RemoveDisbands (g : Nat) (guid : P) (w : World P) : Prop :=
  ∃ G, w.groups g = some G ∧
    (G.getMembersCount ≤ G.least ∨
      ((w.unlinkMember g G.isBGGroup guid).members g).length < G.least)

theorem links_changeLeader (w : World P) (g : Nat) (guid : P) :
    (w.changeLeader g guid).links = w.links := by
  rcases changeLeader_cases w g guid with h | ⟨G, _, _, _, h⟩
  · rw [h]
  · rw [h]
    rfl

theorem members_afterDrop (w : World P) (g : Nat) (G : Group P) (guid : P) :
    (w.afterDrop g G guid).members g = (w.unlinkMember g G.isBGGroup guid).members g := by
  have hlinks : (w.afterDrop g G guid).links = (w.unlinkMember g G.isBGGroup guid).links := by
    unfold afterDrop
    dsimp only
    split
    · rcases pickLeader_cases ((w.unlinkMember g G.isBGGroup guid).modifyGroup g
        (dropMember guid)) g with h | ⟨leader, h⟩
      · rw [h]
        rfl
      · rw [h, links_changeLeader]
        rfl
    · rfl
  unfold members
  rw [hlinks]

theorem noNewStray_removeMember {guid : P} (hr : RemoveDisbands g guid w → w.Releases g) :
    NoNewStray w (w.removeMember g guid) := by
  cases hG : w.groups g with
  | none =>
      rw [removeMember_none hG]
      exact NoNewStray.refl w
  | some G =>
      have hkeep := keepsRolls_afterDrop w g G guid
      rcases removeMember_cases hG guid with ⟨hsmall, h⟩ | ⟨_, hfew, h⟩ | ⟨_, _, h⟩
      · rw [h]
        exact noNewStray_disband (hr ⟨G, hG, Or.inl hsmall⟩)
      · rw [h]
        rw [members_afterDrop] at hfew
        exact hkeep.noNewStray.trans
          (noNewStray_disband (hkeep.releases (hr ⟨G, hG, Or.inr hfew⟩)))
      · rw [h]
        exact hkeep.noNewStray

/-- `UninviteFromGroup` deletes the group: one member at most, or no more than
one invitee left to a group that is not created. -/
def UninviteDeletes (p : P) (g : Nat) (w : World P) : Prop :=
  (w.players p).groupInvite = some g ∧
    ∃ G, w.groups g = some G ∧
      if G.isCreated then G.getMembersCount ≤ 1
      else (G.invitees.filter (· ≠ p)).length ≤ 1

theorem groups_removeInvite (w : World P) (g : Nat) (p : P) (h : Nat) :
    (w.removeInvite g p).groups h =
      if g = h then (w.groups h).map fun G => { G with invitees := G.invitees.filter (· ≠ p) }
      else w.groups h := groups_modifyGroup w g h _

theorem noNewStray_uninviteFromGroup (hr : ∀ g, UninviteDeletes p g w → w.Releases g) :
    NoNewStray w (w.uninviteFromGroup p) := by
  unfold uninviteFromGroup
  cases hg : (w.players p).groupInvite with
  | none => exact NoNewStray.refl w
  | some g =>
      dsimp only
      have hkeep := keepsRolls_removeInvite w g p
      rw [groups_removeInvite, if_pos rfl]
      cases hG : w.groups g with
      | none => exact hkeep.noNewStray
      | some G =>
          have hdel := fun h => hkeep.releases (hr g ⟨hg, G, hG, h⟩)
          have hG' : (w.removeInvite g p).groups g =
              some { G with invitees := G.invitees.filter (· ≠ p) } := by
            rw [groups_removeInvite, if_pos rfl, hG]
            rfl
          show NoNewStray w (if G.isCreated then
            if G.getMembersCount ≤ 1 then (w.removeInvite g p).disband g else w.removeInvite g p
            else if (G.invitees.filter (· ≠ p)).length ≤ 1 then
              ((w.removeInvite g p).removeAllInvites g).deleteGroup g
            else w.removeInvite g p)
          by_cases hc : G.isCreated = true
          · rw [if_pos hc] at hdel ⊢
            split <;> rename_i hone
            · exact hkeep.noNewStray.trans (noNewStray_disband (hdel hone))
            · exact hkeep.noNewStray
          · rw [if_neg hc] at hdel ⊢
            split <;> rename_i hone
            · exact hkeep.noNewStray.trans
                ((removeAllInvites_deleteGroup hG').noNewStray (hdel hone))
            · exact hkeep.noNewStray

end World

end Sunstrider.Groups
