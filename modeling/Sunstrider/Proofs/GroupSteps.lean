import Sunstrider.Groups.GroupHandler

/-!
# What each operation on groups does

The address of a group is read after every write to it: `groups_modifyGroup`,
`groups_newGroup` and `groups_deleteGroup` say what is found there, and all else
about groups follows from these three. Changes to references leave the groups
and the players alone, so that of `leaveGroup` or `unlinkMember` only the links
have to be named.

Then one lemma for each function that ends or fills a group. `removeMember` has
three outcomes: too small a group is disbanded at once; otherwise the member is
dropped, and the group that is left stays or is disbanded for want of members
online.
-/

set_option linter.unusedSectionVars false

namespace Sunstrider.Groups

variable {P : Type} [LinearOrder P]

namespace World

variable {w : World P} {g : Nat} {G : Group P} {guid : P}

/-! ## Addresses -/

theorem groups_modifyGroup (w : World P) (g h : Nat) (f : Group P → Group P) :
    (w.modifyGroup g f).groups h = if g = h then (w.groups h).map f else w.groups h := by
  unfold groups modifyGroup
  rw [List.getElem?_modify]
  split
  · cases w.groupObjects[h]? with
    | none => rfl
    | some o => cases o <;> rfl
  · simp

theorem groups_modifyGroup_self (f : Group P → Group P) (hG : w.groups g = some G) :
    (w.modifyGroup g f).groups g = some (f G) := by
  rw [groups_modifyGroup, if_pos rfl, hG]
  rfl

theorem groups_nextGroup (w : World P) : w.groups w.nextGroup = none := by
  simp [groups, nextGroup]

theorem groups_newGroup (w : World P) (leader : P) (bg : Option Nat) (h : Nat) :
    (w.newGroup leader bg).groups h =
      if h = w.nextGroup then some (Group.new leader bg) else w.groups h := by
  unfold groups newGroup nextGroup
  split <;> rename_i hh
  · subst hh
    simp
  · rcases Nat.lt_or_ge h w.groupObjects.length with hlt | hge
    · rw [List.getElem?_append_left hlt]
    · rw [List.getElem?_eq_none (by simp; omega), List.getElem?_eq_none hge]

theorem groups_deleteGroup (w : World P) (g h : Nat) :
    (w.deleteGroup g).groups h = if g = h then none else w.groups h := by
  unfold groups deleteGroup
  rw [List.getElem?_set]
  split <;> rename_i hh
  · split <;> rfl
  · rfl

/-- The group `LoadGroupFromDB` and `LoadMemberFromDB` build. -/
def loaded (leader : P) (raid : Bool) (rows : List (MemberSlot P)) : Group P :=
  rows.foldl (fun G s => G.pushSlot s)
    (if raid then (Group.new leader none).convertToRaid else Group.new leader none)

theorem groups_loadGroup (w : World P) (leader : P) (raid : Bool) (rows : List (MemberSlot P))
    (h : Nat) :
    (w.loadGroup leader raid rows).groups h =
      if h = w.nextGroup then some (loaded leader raid rows) else w.groups h := by
  show (((w.newGroup leader none).modifyGroup w.nextGroup _).modifyGroup w.nextGroup _).groups h =
    _
  rw [groups_modifyGroup, groups_modifyGroup, groups_newGroup]
  by_cases hh : h = w.nextGroup
  · rw [if_pos hh.symm, if_pos hh.symm, if_pos hh, if_pos hh]
    rfl
  · rw [if_neg (Ne.symm hh), if_neg (Ne.symm hh), if_neg hh, if_neg hh]

/-! ## References -/

/-- Only the links have changed. -/
structure Relinked (w w' : World P) : Prop where
  groupObjects : w'.groupObjects = w.groupObjects
  players : w'.players = w.players
  memberRows : w'.memberRows = w.memberRows
  bgRaids : w'.bgRaids = w.bgRaids
  loots : w'.loots = w.loots

namespace Relinked

variable {w w' w'' : World P}

theorem refl (w : World P) : Relinked w w := ⟨rfl, rfl, rfl, rfl, rfl⟩

theorem trans (h : Relinked w w') (h' : Relinked w' w'') : Relinked w w'' where
  groupObjects := h'.groupObjects.trans h.groupObjects
  players := h'.players.trans h.players
  memberRows := h'.memberRows.trans h.memberRows
  bgRaids := h'.bgRaids.trans h.bgRaids
  loots := h'.loots.trans h.loots

theorem groups (h : Relinked w w') : w'.groups = w.groups := by
  unfold World.groups
  rw [h.groupObjects]

end Relinked

theorem relinked_unlink (w : World P) (o : Bool) (p : P) : Relinked w (w.unlink o p) :=
  ⟨rfl, rfl, rfl, rfl, rfl⟩

theorem relinked_link (w : World P) (o : Bool) (p : P) (g : Nat) : Relinked w (w.link o p g) :=
  ⟨rfl, rfl, rfl, rfl, rfl⟩

theorem relinked_setRef (w : World P) (o : Bool) (g : Option Nat) (p : P) :
    Relinked w (w.setRef o g p) := by
  cases g with
  | none => exact relinked_unlink w o p
  | some g => exact relinked_link w o p g

theorem relinked_setBattlegroundRaid (w : World P) (g : Nat) (p : P) :
    Relinked w (w.setBattlegroundRaid g p) :=
  (relinked_setRef w true (w.getGroup p) p).trans (relinked_link _ false p g)

theorem relinked_removeFromBattlegroundRaid (w : World P) (p : P) :
    Relinked w (w.removeFromBattlegroundRaid p) :=
  ((relinked_unlink w false p).trans (relinked_setRef _ false _ p)).trans
    (relinked_setRef _ true none p)

theorem relinked_leaveGroup (w : World P) (g : Nat) (bg : Bool) (p : P) :
    Relinked w (w.leaveGroup g bg p) := by
  unfold leaveGroup
  split
  · exact relinked_removeFromBattlegroundRaid w p
  · split
    · exact relinked_setRef w true none p
    · exact relinked_setRef w false none p

/-- The loop of `Disband` over the members. -/
theorem relinked_leaveAll (g : Nat) (bg : Bool) (slots : List (MemberSlot P)) (w : World P) :
    Relinked w (slots.foldl (fun w s =>
      if w.findConnectedPlayer s.guid then w.leaveGroup g bg s.guid else w) w) := by
  induction slots generalizing w with
  | nil => exact Relinked.refl w
  | cons s slots ih =>
      rw [List.foldl_cons]
      split
      · exact (relinked_leaveGroup w g bg s.guid).trans (ih _)
      · exact ih w

/-- Groups, players and loots after `unlinkMember`. -/
theorem unlinkMember_frame (w : World P) (g : Nat) (bg : Bool) (guid : P) :
    (w.unlinkMember g bg guid).groupObjects = w.groupObjects ∧
      (w.unlinkMember g bg guid).players = w.players ∧
      (w.unlinkMember g bg guid).loots = w.loots ∧
      (w.unlinkMember g bg guid).bgRaids = w.bgRaids := by
  have hleave : Relinked w (if w.findConnectedPlayer guid then w.leaveGroup g bg guid else w) := by
    split
    · exact relinked_leaveGroup w g bg guid
    · exact Relinked.refl w
  unfold unlinkMember
  cases bg with
  | true => exact ⟨hleave.groupObjects, hleave.players, hleave.loots, hleave.bgRaids⟩
  | false => exact ⟨hleave.groupObjects, hleave.players, hleave.loots, hleave.bgRaids⟩

/-! ## Invitations -/

/-- The players, once the invitees of a group have lost their invitation. -/
def clearInvites (w : World P) (invitees : List P) (p : P) : PlayerInfo :=
  if p ∈ invitees then { w.players p with groupInvite := none } else w.players p

theorem removeAllInvites_eq (hG : w.groups g = some G) :
    w.removeAllInvites g =
      { w.modifyGroup g fun G => { G with invitees := [] } with
        players := w.clearInvites G.invitees } := by
  unfold removeAllInvites
  rw [hG]
  rfl

theorem clearInvites_connected (w : World P) (invitees : List P) (p : P) :
    (w.clearInvites invitees p).connected = (w.players p).connected := by
  unfold clearInvites
  split <;> rfl

/-! ## The end of a group -/

/-- The group is gone, with its rolls, its references and the invitations to it. -/
structure Deleted (w : World P) (g : Nat) (G : Group P) (w' : World P) : Prop where
  groups : ∀ h, w'.groups h = if g = h then none else w.groups h
  players : w'.players = w.clearInvites G.invitees
  loots : w'.loots = w.loots
  bgRaids : ∀ b h, w'.bgRaids b = some h → h ≠ g ∧ w.bgRaids b = some h

theorem bgRaids_deleteGroup {b h : Nat} (hb : (w.deleteGroup g).bgRaids b = some h) :
    h ≠ g ∧ w.bgRaids b = some h := by
  have hb' : (if w.bgRaids b = some g then none else w.bgRaids b) = some h := hb
  split at hb' <;> rename_i hg
  · cases hb'
  · refine ⟨?_, hb'⟩
    intro he
    rw [he] at hb'
    exact hg hb'

theorem removeAllInvites_deleteGroup (hG : w.groups g = some G) :
    Deleted w g G ((w.removeAllInvites g).deleteGroup g) := by
  rw [removeAllInvites_eq hG]
  refine ⟨fun h => ?_, rfl, rfl, fun b h hb => bgRaids_deleteGroup hb⟩
  rw [groups_deleteGroup]
  split <;> rename_i hgh
  · rfl
  · show (w.modifyGroup g _).groups h = _
    rw [groups_modifyGroup, if_neg hgh]

theorem disband_none (hG : w.groups g = none) : w.disband g = w := by
  unfold disband
  rw [hG]

theorem disband_deleted (hG : w.groups g = some G) : Deleted w g G (w.disband g) := by
  have hl := relinked_leaveAll g G.isBGGroup G.memberSlots w
  unfold disband
  rw [hG]
  dsimp only
  generalize (List.foldl _ w G.memberSlots) = w₁ at hl ⊢
  have hG₁ : w₁.groups g = some G := by rw [hl.groups, hG]
  rw [removeAllInvites_eq (groups_modifyGroup_self _ hG₁)]
  have hplayers : (w₁.modifyGroup g fun G => { G with memberSlots := [] }).clearInvites
      G.invitees = w.clearInvites G.invitees := by
    funext p
    unfold clearInvites modifyGroup
    rw [hl.players]
  refine ⟨fun h => ?_, ?_, ?_, ?_⟩
  · rw [groups_deleteGroup]
    split <;> rename_i hgh
    · rfl
    · have hframe : ((w₁.modifyGroup g fun G => { G with memberSlots := [] }).modifyGroup g
          fun G => { G with invitees := [] }).groups h = w.groups h := by
        rw [groups_modifyGroup, if_neg hgh, groups_modifyGroup, if_neg hgh, hl.groups]
      split
      · exact hframe
      · exact hframe
  · split
    · exact hplayers
    · exact hplayers
  · split
    · exact hl.loots
    · exact hl.loots
  · intro b h hb
    have hb' := bgRaids_deleteGroup hb
    rw [← hl.bgRaids]
    split at hb'
    · exact hb'
    · exact hb'

/-! ## Leaders -/

/-- What `ChangeLeader` writes. -/
def lead (guid : P) (G : Group P) : Group P :=
  { G with leaderGuid := guid }.toggleGroupMemberFlag guid memberFlagAssistant false

theorem changeLeader_cases (w : World P) (g : Nat) (guid : P) :
    w.changeLeader g guid = w ∨
      ∃ G, w.groups g = some G ∧ G.isMember guid = true ∧ w.findConnectedPlayer guid = true ∧
        w.changeLeader g guid = w.modifyGroup g (lead guid) := by
  unfold changeLeader
  cases hG : w.groups g with
  | none => exact Or.inl rfl
  | some G =>
      dsimp only
      split <;> rename_i h
      · rw [Bool.and_eq_true] at h
        exact Or.inr ⟨G, rfl, h.1, h.2, rfl⟩
      · exact Or.inl rfl

theorem changeLeaderToFirst_cases (w : World P) (g : Nat) :
    w.changeLeaderToFirstOnlineMember g = w ∨
      ∃ guid, w.changeLeaderToFirstOnlineMember g = w.changeLeader g guid := by
  unfold changeLeaderToFirstOnlineMember
  split
  · exact Or.inl rfl
  · split
    · exact Or.inl rfl
    · exact Or.inr ⟨_, rfl⟩

theorem pickLeader_cases (w : World P) (g : Nat) :
    w.pickLeader g = w ∨ ∃ guid, w.pickLeader g = w.changeLeader g guid := by
  unfold pickLeader
  split
  · exact Or.inl rfl
  · split
    · exact Or.inl rfl
    · exact Or.inr ⟨_, rfl⟩

/-! ## Members -/

/-- What `RemoveMember` writes to the group. -/
def dropMember (guid : P) (G : Group P) : Group P := (G.removeFromRolls guid).eraseSlot guid

theorem isMember_iff : G.isMember guid = true ↔ ∃ s ∈ G.memberSlots, s.guid = guid := by
  unfold Group.isMember Group.getMemberSlot
  rw [List.find?_isSome]
  simp only [decide_eq_true_eq]

/-- One slot is taken out, if the member has any. -/
theorem memberSlots_dropMember (guid : P) (G : Group P) :
    (dropMember guid G).memberSlots = G.memberSlots.eraseP fun s => s.guid = guid := by
  unfold dropMember Group.eraseSlot
  split <;> rename_i hs
  · refine (List.eraseP_of_forall_not fun s hmem => ?_).symm
    exact List.find?_eq_none.1 hs s hmem
  · rfl

theorem isMember_dropMember {q : P} (hne : q ≠ guid) :
    (dropMember guid G).isMember q = G.isMember q := by
  rw [Bool.eq_iff_iff, isMember_iff, isMember_iff, memberSlots_dropMember]
  have hmem : ∀ s : MemberSlot P, s.guid = q →
      (s ∈ (G.memberSlots.eraseP fun s => s.guid = guid) ↔ s ∈ G.memberSlots) := by
    intro s hs
    refine List.mem_eraseP_of_neg ?_
    rw [hs]
    simpa using hne
  constructor
  · intro ⟨s, hs, hq⟩
    exact ⟨s, (hmem s hq).1 hs, hq⟩
  · intro ⟨s, hs, hq⟩
    exact ⟨s, (hmem s hq).2 hs, hq⟩

theorem length_dropMember (guid : P) :
    G.getMembersCount ≤ (dropMember guid G).getMembersCount + 1 := by
  unfold Group.getMembersCount
  rw [memberSlots_dropMember, List.length_eraseP]
  split <;> omega

theorem least_pos (G : Group P) : 0 < G.least := by
  unfold Group.least
  split <;> omega

/-- The group with the member dropped, before it is looked at once more. -/
def afterDrop (w : World P) (g : Nat) (G : Group P) (guid : P) : World P :=
  let w := (w.unlinkMember g G.isBGGroup guid).modifyGroup g (dropMember guid)
  if G.isLeader guid then w.pickLeader g else w

theorem groups_afterDrop (hG : w.groups g = some G) (hleader : G.isLeader guid = false) :
    (w.afterDrop g G guid).groups g = some (dropMember guid G) := by
  obtain ⟨hobjects, _, _, _⟩ := unlinkMember_frame w g G.isBGGroup guid
  unfold afterDrop
  rw [hleader]
  refine groups_modifyGroup_self (dropMember guid) ?_
  unfold groups
  rw [hobjects]
  exact hG

/-- The three ways `RemoveMember` goes. -/
theorem removeMember_cases (hG : w.groups g = some G) (guid : P) :
    (G.getMembersCount ≤ G.least ∧ w.removeMember g guid = w.disband g) ∨
    (G.least < G.getMembersCount ∧
      ((w.afterDrop g G guid).members g).length < G.least ∧
      w.removeMember g guid = (w.afterDrop g G guid).disband g) ∨
    (G.least < G.getMembersCount ∧
      G.least ≤ ((w.afterDrop g G guid).members g).length ∧
      w.removeMember g guid = w.afterDrop g G guid) := by
  unfold removeMember
  rw [hG]
  dsimp only
  by_cases hsmall : G.getMembersCount ≤ G.least
  · rw [if_pos hsmall]
    exact Or.inl ⟨hsmall, rfl⟩
  · rw [if_neg hsmall]
    by_cases hfew : ((w.afterDrop g G guid).members g).length < G.least
    · exact Or.inr (Or.inl ⟨by omega, hfew, if_pos hfew⟩)
    · exact Or.inr (Or.inr ⟨by omega, by omega, if_neg hfew⟩)

theorem removeMember_none (hG : w.groups g = none) (guid : P) : w.removeMember g guid = w := by
  unfold removeMember
  rw [hG]

/-- A member who is added has a slot in the first subgroup with room, no
invitation, and a reference. -/
theorem addMember_eq {w' : World P} {p : P} (h : w.addMember g p = some w') :
    ∃ G sub, w.groups g = some G ∧ G.freeSubGroup = some sub ∧
      Relinked ((w.modifyGroup g (Group.pushSlot (w.newSlot p sub))).setGroupInvite none p)
        w' := by
  unfold addMember at h
  cases hG : w.groups g with
  | none =>
      rw [hG] at h
      cases h
  | some G =>
      rw [hG] at h
      dsimp only at h
      cases hsub : G.freeSubGroup with
      | none =>
          rw [hsub] at h
          cases h
      | some sub =>
          rw [hsub] at h
          dsimp only at h
          refine ⟨G, sub, rfl, hsub, ?_⟩
          split at h
          · split at h
            · obtain rfl := Option.some.inj h
              exact relinked_setBattlegroundRaid _ g p
            · obtain rfl := Option.some.inj h
              exact relinked_setRef _ true (some g) p
          · obtain rfl := Option.some.inj h
            exact relinked_setRef _ false (some g) p

theorem addInvite_eq {w' : World P} {p : P} (h : w.addInvite g p = some w') :
    (w.players p).groupInvite = none ∧ w.partyOf p = none ∧
      w' = ((w.removeInvite g p).modifyGroup g fun G =>
        { G with invitees := p :: G.invitees }).setGroupInvite (some g) p := by
  unfold addInvite at h
  split at h
  · cases h
  · rename_i hinvite
    split at h
    · cases h
    · rename_i hparty
      exact ⟨by simpa using hinvite, by simpa using hparty, (Option.some.inj h).symm⟩

end World

end Sunstrider.Groups
