import Sunstrider.Proofs.GroupRollRuns
import Sunstrider.Proofs.GroupFrames

/-!
# Both ends of an invitation

A player who is invited points to the group, and the group has the player in its
set. `Paired` says that the two agree, and that whoever is invited is connected,
since a new player object starts without an invitation. Both ends are written
together in `AddInvite`, `RemoveInvite` and `RemoveAllInvites`. The rest of the
code keeps them together as long as it goes through these.

`AddMember` does not. It clears the pointer of the player who is added, which is
right for one who has accepted and so is in no set any more, and wrong for one
who is taken in from elsewhere while another invitation is pending. Nor does
`HandleGroupDeclineOpcode`, for a group that exists: it clears the pointer and
leaves the set. `BothEnds` is what has to be asked of a step.
-/

set_option linter.unusedSectionVars false

namespace Sunstrider.Groups

open Lib

variable {P : Type} [LinearOrder P]

namespace World

variable {w w' w'' : World P}

variable {g : Nat} {G : Group P} {p : P}

/-- The set of a group; there is nobody in that of a group that is gone. -/
def inviteesOf (w : World P) (g : Nat) : List P :=
  match w.groups g with
  | none => []
  | some G => G.invitees

theorem inviteesOf_some (hG : w.groups g = some G) : w.inviteesOf g = G.invitees := by
  unfold inviteesOf
  rw [hG]

theorem inviteesOf_congr (h : w'.groups g = w.groups g) : w'.inviteesOf g = w.inviteesOf g := by
  unfold inviteesOf
  rw [h]

theorem inviteesOf_none (h : w.groups g = none) : w.inviteesOf g = [] := by
  unfold inviteesOf
  rw [h]

/-- The pointer of a player and the set of a group agree. -/
structure Paired (w : World P) : Prop where
  agree : ∀ p g, (w.players p).groupInvite = some g ↔ p ∈ w.inviteesOf g
  online : ∀ p, (w.players p).groupInvite ≠ none → (w.players p).connected = true

/-! ## What touches neither end -/

structure KeepsInvites (w w' : World P) : Prop where
  pending : ∀ p, (w'.players p).groupInvite = (w.players p).groupInvite
  connected : ∀ p, (w'.players p).connected = (w.players p).connected
  invitees : ∀ g, w'.inviteesOf g = w.inviteesOf g

namespace KeepsInvites

theorem refl (w : World P) : KeepsInvites w w := ⟨fun _ => rfl, fun _ => rfl, fun _ => rfl⟩

theorem trans (h : KeepsInvites w w') (h' : KeepsInvites w' w'') : KeepsInvites w w'' where
  pending := fun p => (h'.pending p).trans (h.pending p)
  connected := fun p => (h'.connected p).trans (h.connected p)
  invitees := fun g => (h'.invitees g).trans (h.invitees g)

theorem paired (h : KeepsInvites w w') (hw : Paired w) : Paired w' where
  agree := by
    intro p g
    rw [h.pending, h.invitees]
    exact hw.agree p g
  online := by
    intro p
    rw [h.pending, h.connected]
    exact hw.online p

end KeepsInvites

/-- Groups and players are the same. -/
theorem keepsInvites_of_eq (hgroups : w'.groupObjects = w.groupObjects)
    (hplayers : w'.players = w.players) : KeepsInvites w w' := by
  refine ⟨fun p => by rw [hplayers], fun p => by rw [hplayers], fun g => ?_⟩
  refine inviteesOf_congr ?_
  unfold groups
  rw [hgroups]

theorem Relinked.keepsInvites (h : Relinked w w') : KeepsInvites w w' :=
  keepsInvites_of_eq h.groupObjects h.players

theorem Quiet.keepsInvites (h : Quiet w w') : KeepsInvites w w' := by
  refine ⟨fun p => by rw [h.players], fun p => by rw [h.players], fun g => ?_⟩
  cases hG : w'.groups g with
  | none =>
      have hg := h.groups g
      rw [hG] at hg
      rw [inviteesOf_none hG, inviteesOf_none (Option.map_eq_none_iff.1 hg.symm)]
  | some G' =>
      obtain ⟨G, hG₀, heq⟩ := h.group hG
      have hinvitees := congrArg Group.invitees heq
      rw [inviteesOf_some hG, inviteesOf_some hG₀]
      exact hinvitees

/-- The set of a group that is written. -/
theorem inviteesOf_modifyGroup (w : World P) (g : Nat) (f : Group P → Group P) (k : Nat) :
    (w.modifyGroup g f).inviteesOf k =
      if g = k then ((w.groups k).map fun G => (f G).invitees).getD [] else w.inviteesOf k := by
  by_cases hk : g = k
  · rw [if_pos hk]
    unfold inviteesOf
    rw [groups_modifyGroup, if_pos hk]
    cases w.groups k with
    | none => rfl
    | some G => rfl
  · rw [if_neg hk]
    refine inviteesOf_congr ?_
    rw [groups_modifyGroup, if_neg hk]

theorem keepsInvites_modifyGroup (w : World P) (g : Nat) {f : Group P → Group P}
    (hf : ∀ G, (f G).invitees = G.invitees) : KeepsInvites w (w.modifyGroup g f) := by
  refine ⟨fun _ => rfl, fun _ => rfl, fun k => ?_⟩
  rw [inviteesOf_modifyGroup]
  split
  · unfold inviteesOf
    cases w.groups k with
    | none => rfl
    | some G => exact hf G
  · rfl

theorem keepsInvites_newGroup (w : World P) (leader : P) (bg : Option Nat) :
    KeepsInvites w (w.newGroup leader bg) := by
  refine ⟨fun _ => rfl, fun _ => rfl, fun k => ?_⟩
  unfold inviteesOf
  rw [groups_newGroup]
  by_cases hk : k = w.nextGroup
  · rw [if_pos hk, hk, groups_nextGroup]
    rfl
  · rw [if_neg hk]

/-- A player whose pointer is clear already. -/
theorem keepsInvites_clear (h : (w.players p).groupInvite = none) :
    KeepsInvites w (w.setGroupInvite none p) := by
  have hread : ∀ q, ((w.setGroupInvite none p).players q).groupInvite =
      (w.players q).groupInvite ∧
      ((w.setGroupInvite none p).players q).connected = (w.players q).connected := by
    intro q
    show (Function.update w.players p _ q).groupInvite = _ ∧ _
    by_cases hq : q = p
    · subst hq
      rw [Function.update_self]
      refine ⟨h.symm, ?_⟩
      show (Function.update w.players q _ q).connected = _
      rw [Function.update_self]
    · rw [Function.update_of_ne hq]
      refine ⟨rfl, ?_⟩
      show (Function.update w.players p _ q).connected = _
      rw [Function.update_of_ne hq]
  exact ⟨fun q => (hread q).1, fun q => (hread q).2, fun _ => rfl⟩

/-- A player who is added with no invitation pending. -/
theorem keepsInvites_addMember (hadd : w.addMember g p = some w')
    (h : (w.players p).groupInvite = none) : KeepsInvites w w' := by
  obtain ⟨G, sub, _, _, hl⟩ := addMember_eq hadd
  have hpush : KeepsInvites w (w.modifyGroup g (Group.pushSlot (w.newSlot p sub))) :=
    keepsInvites_modifyGroup w g fun _ => rfl
  exact (hpush.trans (keepsInvites_clear h)).trans hl.keepsInvites

theorem invitees_create (leader : P) (G : Group P) : (G.create leader).invitees = G.invitees := by
  unfold Group.create
  dsimp only
  split <;> rfl

theorem keepsInvites_create (hcreate : w.create g p = some w')
    (h : (w.players p).groupInvite = none) : KeepsInvites w w' :=
  (keepsInvites_modifyGroup w g (invitees_create p)).trans (keepsInvites_addMember hcreate h)

theorem invitees_modifySlot (guid : P) (f : MemberSlot P → MemberSlot P) (G : Group P) :
    (G.modifySlot guid f).invitees = G.invitees := by
  unfold Group.modifySlot
  split <;> rfl

theorem keepsInvites_changeLeader (w : World P) (g : Nat) (guid : P) :
    KeepsInvites w (w.changeLeader g guid) := by
  rcases changeLeader_cases w g guid with h | ⟨G, _, _, _, h⟩
  · rw [h]
    exact KeepsInvites.refl w
  · rw [h]
    refine keepsInvites_modifyGroup w g fun G => ?_
    rw [lead, Group.toggleGroupMemberFlag, invitees_modifySlot]

theorem keepsInvites_changeLeaderToFirst (w : World P) (g : Nat) :
    KeepsInvites w (w.changeLeaderToFirstOnlineMember g) := by
  rcases changeLeaderToFirst_cases w g with h | ⟨guid, h⟩
  · rw [h]
    exact KeepsInvites.refl w
  · rw [h]
    exact keepsInvites_changeLeader w g guid

theorem invitees_dropMember (guid : P) (G : Group P) :
    (dropMember guid G).invitees = G.invitees := by
  unfold dropMember Group.eraseSlot
  split <;> rfl

theorem keepsInvites_afterDrop (w : World P) (g : Nat) (G : Group P) (guid : P) :
    KeepsInvites w (w.afterDrop g G guid) := by
  obtain ⟨hobjects, hplayers, _, _⟩ := unlinkMember_frame w g G.isBGGroup guid
  have hdrop := (keepsInvites_of_eq hobjects hplayers).trans
    (keepsInvites_modifyGroup _ g (invitees_dropMember guid))
  unfold afterDrop
  dsimp only
  split
  · rcases pickLeader_cases ((w.unlinkMember g G.isBGGroup guid).modifyGroup g
      (dropMember guid)) g with h | ⟨leader, h⟩
    · rw [h]
      exact hdrop
    · rw [h]
      exact hdrop.trans (keepsInvites_changeLeader _ g leader)
  · exact hdrop

/-! ## What touches both -/

theorem groupInvite_setGroupInvite (w : World P) (g : Option Nat) (p q : P) :
    ((w.setGroupInvite g p).players q).groupInvite =
      if q = p then g else (w.players q).groupInvite := by
  show (Function.update w.players p _ q).groupInvite = _
  split <;> rename_i hq
  · rw [hq, Function.update_self]
  · rw [Function.update_of_ne hq]

theorem inviteesOf_removeInvite (w : World P) (g : Nat) (p : P) (k : Nat) :
    (w.removeInvite g p).inviteesOf k =
      if g = k then (w.inviteesOf k).filter (· ≠ p) else w.inviteesOf k := by
  refine (inviteesOf_modifyGroup w g _ k).trans ?_
  split
  · unfold inviteesOf
    cases w.groups k with
    | none => rfl
    | some G => rfl
  · rfl

/-- The invitation to `g` is taken back, from one who has none to another group. -/
theorem Paired.removeInvite (h : Paired w)
    (hp : (w.players p).groupInvite = none ∨ (w.players p).groupInvite = some g) :
    Paired (w.removeInvite g p) := by
  have hpending : ∀ q, ((w.removeInvite g p).players q).groupInvite =
      if q = p then none else (w.players q).groupInvite := by
    intro q
    exact groupInvite_setGroupInvite _ none p q
  have hconn : ∀ q, ((w.removeInvite g p).players q).connected = (w.players q).connected := by
    intro q
    exact connected_setGroupInvite _ none p q
  refine ⟨fun q k => ?_, fun q => ?_⟩
  · rw [hpending, inviteesOf_removeInvite]
    by_cases hq : q = p
    · rw [if_pos hq, hq]
      refine ⟨fun hnone => (by cases hnone), fun hmem => ?_⟩
      by_cases hk : g = k
      · rw [if_pos hk] at hmem
        exact absurd (List.mem_filter.1 hmem).2 (by simp)
      · rw [if_neg hk] at hmem
        have hpk := (h.agree p k).2 hmem
        rcases hp with hp | hp
        · rw [hp] at hpk
          cases hpk
        · exact absurd (Option.some.inj (hp.symm.trans hpk)) hk
    · rw [if_neg hq, h.agree]
      by_cases hk : g = k
      · rw [if_pos hk, List.mem_filter]
        simp [hq]
      · rw [if_neg hk]
  · rw [hpending, hconn]
    by_cases hq : q = p
    · rw [if_pos hq]
      exact fun hne => absurd rfl hne
    · rw [if_neg hq]
      exact h.online q

/-- An invitation to a group of the world, for one who is connected. -/
theorem Paired.addInvite (h : Paired w) (hadd : w.addInvite g p = some w')
    (hg : (w.groups g).isSome = true) (hp : (w.players p).connected = true) : Paired w' := by
  obtain ⟨hnone, _, rfl⟩ := addInvite_eq hadd
  have hr := h.removeInvite (g := g) (Or.inl hnone)
  have hg' : ((w.removeInvite g p).groups g).isSome = true := by
    rw [groups_removeInvite, if_pos rfl, Option.isSome_map]
    exact hg
  have hnone' : ((w.removeInvite g p).players p).groupInvite = none := by
    show ((World.setGroupInvite none p _).players p).groupInvite = _
    rw [groupInvite_setGroupInvite, if_pos rfl]
  have hp' : ((w.removeInvite g p).players p).connected = true := by
    show ((World.setGroupInvite none p _).players p).connected = _
    rw [connected_setGroupInvite]
    exact hp
  generalize w.removeInvite g p = w₁ at hr hg' hnone' hp'
  obtain ⟨G, hG⟩ := Option.isSome_iff_exists.1 hg'
  have hset : ∀ k, ((w₁.modifyGroup g fun G =>
      { G with invitees := p :: G.invitees }).setGroupInvite (some g) p).inviteesOf k =
        if g = k then p :: w₁.inviteesOf k else w₁.inviteesOf k := by
    intro k
    refine (inviteesOf_modifyGroup w₁ g _ k).trans ?_
    split <;> rename_i hk
    · rw [← hk, hG, inviteesOf_some hG]
      rfl
    · rfl
  refine ⟨fun q k => ?_, fun q => ?_⟩
  · rw [groupInvite_setGroupInvite, hset]
    by_cases hq : q = p
    · rw [if_pos hq, hq]
      by_cases hk : g = k
      · rw [if_pos hk, hk]
        simp
      · rw [if_neg hk, ← hr.agree, hnone']
        simp [hk]
    · rw [if_neg hq]
      show (w₁.players q).groupInvite = some k ↔ _
      rw [hr.agree]
      by_cases hk : g = k
      · rw [if_pos hk, List.mem_cons]
        simp [hq]
      · rw [if_neg hk]
  · rw [groupInvite_setGroupInvite, connected_setGroupInvite]
    by_cases hq : q = p
    · rw [hq]
      exact fun _ => hp'
    · rw [if_neg hq]
      exact hr.online q

/-- Whoever is invited to the group is so no longer. -/
theorem Paired.clear (h : Paired w) (hG : w.groups g = some G)
    (hplayers : w'.players = w.clearInvites G.invitees)
    (hset : ∀ k, w'.inviteesOf k = if g = k then [] else w.inviteesOf k) : Paired w' := by
  have hin : ∀ q, q ∈ G.invitees ↔ (w.players q).groupInvite = some g := by
    intro q
    rw [h.agree, inviteesOf_some hG]
  have hpending : ∀ q, (w'.players q).groupInvite =
      if (w.players q).groupInvite = some g then none else (w.players q).groupInvite := by
    intro q
    rw [hplayers]
    unfold clearInvites
    by_cases hq : q ∈ G.invitees
    · rw [if_pos hq, if_pos ((hin q).1 hq)]
    · rw [if_neg hq, if_neg fun hp => hq ((hin q).2 hp)]
  refine ⟨fun q k => ?_, fun q => ?_⟩
  · rw [hpending, hset]
    by_cases hk : g = k
    · subst hk
      split <;> rename_i hq
      · simp
      · simpa using hq
    · rw [if_neg hk, ← h.agree]
      split <;> rename_i hq
      · rw [hq]
        simp [hk]
      · exact Iff.rfl
  · rw [hpending, hplayers, clearInvites_connected]
    split
    · exact fun hne => absurd rfl hne
    · exact h.online q

/-- All of its invitations go with a group. -/
theorem Deleted.paired (hd : Deleted w g G w') (hG : w.groups g = some G) (h : Paired w) :
    Paired w' := by
  refine h.clear hG hd.players fun k => ?_
  split <;> rename_i hk
  · exact inviteesOf_none (by rw [hd.groups, if_pos hk])
  · exact inviteesOf_congr (by rw [hd.groups, if_neg hk])

theorem paired_disband (h : Paired w) (g : Nat) : Paired (w.disband g) := by
  cases hG : w.groups g with
  | none =>
      rw [disband_none hG]
      exact h
  | some G => exact (disband_deleted hG).paired hG h

theorem paired_removeAllInvites (h : Paired w) (g : Nat) : Paired (w.removeAllInvites g) := by
  cases hG : w.groups g with
  | none =>
      unfold removeAllInvites
      rw [hG]
      exact h
  | some G =>
      rw [removeAllInvites_eq hG]
      refine h.clear hG rfl fun k => ?_
      refine (inviteesOf_modifyGroup w g _ k).trans ?_
      split <;> rename_i hk
      · rw [← hk, hG]
        rfl
      · rfl

theorem paired_removeMember (h : Paired w) (g : Nat) (guid : P) :
    Paired (w.removeMember g guid) := by
  cases hG : w.groups g with
  | none =>
      rw [removeMember_none hG]
      exact h
  | some G =>
      have hdrop := (keepsInvites_afterDrop w g G guid).paired h
      rcases removeMember_cases hG guid with ⟨_, heq⟩ | ⟨_, _, heq⟩ | ⟨_, _, heq⟩
      · rw [heq]
        exact paired_disband h g
      · rw [heq]
        exact paired_disband hdrop g
      · rw [heq]
        exact hdrop

theorem paired_uninviteFromGroup (h : Paired w) (p : P) : Paired (w.uninviteFromGroup p) := by
  unfold uninviteFromGroup
  split <;> rename_i hg
  · exact h
  · rename_i g
    have hr := h.removeInvite (Or.inr hg)
    dsimp only
    split <;> rename_i hG
    · exact hr
    · split
      · split
        · exact paired_disband hr g
        · exact hr
      · split
        · exact (removeAllInvites_deleteGroup hG).paired hG hr
        · exact hr

end World

end Sunstrider.Groups
