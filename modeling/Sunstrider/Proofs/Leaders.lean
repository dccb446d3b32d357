import Sunstrider.Proofs.GroupSizeRuns
import Sunstrider.Proofs.References

/-!
# Leaders who are members

A group that is created has its leader among its members, and no fewer members
than it may. When the leader is removed the group goes to the first member who is
connected, and if there is none it stays with the one who has gone. That is no
harm as long as nobody offline has a reference: the references are counted next,
there are none, and the group is disbanded. So `Led` rests on `Refs`.

`LetsGo` is where `Refs` can be lost. A player who is taken out of a battleground
raid gets back the group outside as its own. If that is the raid itself, because
the player has been in a second battleground meanwhile, the player refers to a
group of which it is no member.
-/

set_option linter.unusedSectionVars false

namespace Sunstrider.Groups

open Lib

variable {P : Type} [LinearOrder P]

/-- A group with members has its leader among them and enough of them. -/
structure Group.Led (G : Group P) : Prop where
  leader : G.memberSlots ≠ [] → G.isMember G.leaderGuid = true ∧ G.least ≤ G.getMembersCount
  fresh : G.memberSlots = [] → G.subGroupsCounts = none

namespace World

variable {w w' : World P}

variable {g : Nat} {G G' : Group P} {f : Group P → Group P} {guid : P}

structure Led (w : World P) : Prop extends Refs w where
  groups : ∀ g G, w.groups g = some G → G.Led

/-- The same but for one group. -/
structure LedBut (w : World P) (g : Nat) : Prop extends Refs w where
  others : ∀ k G, k ≠ g → w.groups k = some G → G.Led

theorem Led.but (h : Led w) (g : Nat) : LedBut w g := ⟨h.toRefs, fun k G _ hG => h.groups k G hG⟩

theorem LedBut.led (h : LedBut w g) (hg : ∀ G, w.groups g = some G → G.Led) : Led w := by
  refine ⟨h.toRefs, fun k G hG => ?_⟩
  by_cases hk : k = g
  · exact hg G (hk ▸ hG)
  · exact h.others k G hk hG

/-! ## Writes to a group -/

/-- The same members in the same order, the same leader. -/
structure SameMembers (G G' : Group P) : Prop where
  guids : G'.memberSlots.map MemberSlot.guid = G.memberSlots.map MemberSlot.guid
  leaderGuid : G'.leaderGuid = G.leaderGuid
  bgGroup : G'.bgGroup = G.bgGroup
  counts : G.memberSlots = [] → G'.subGroupsCounts = G.subGroupsCounts

theorem isMember_guids
    (h : G'.memberSlots.map MemberSlot.guid = G.memberSlots.map MemberSlot.guid) (q : P) :
    G'.isMember q = G.isMember q := by
  have hmem : ∀ slots : List (MemberSlot P), (∃ s ∈ slots, s.guid = q) ↔
      q ∈ slots.map MemberSlot.guid := fun slots => List.mem_map.symm
  rw [Bool.eq_iff_iff, isMember_iff, isMember_iff, hmem, hmem, h]

theorem least_eq (h : G'.bgGroup = G.bgGroup) : G'.least = G.least := by
  unfold Group.least Group.isBGGroup
  rw [h]

theorem SameMembers.led (h : SameMembers G G') (hG : G.Led) : G'.Led := by
  have hlen : G'.memberSlots.length = G.memberSlots.length := by
    rw [← List.length_map (f := MemberSlot.guid), h.guids, List.length_map]
  have hnil : G'.memberSlots = [] ↔ G.memberSlots = [] := by
    rw [← List.length_eq_zero_iff, hlen, List.length_eq_zero_iff]
  refine ⟨fun hne => ?_, fun hempty => ?_⟩
  · obtain ⟨hleader, hcount⟩ := hG.leader fun he => hne (hnil.2 he)
    refine ⟨?_, ?_⟩
    · rw [isMember_guids h.guids, h.leaderGuid]
      exact hleader
    · unfold Group.getMembersCount at hcount ⊢
      rw [least_eq h.bgGroup, hlen]
      exact hcount
  · rw [h.counts (hnil.1 hempty)]
    exact hG.fresh (hnil.1 hempty)

theorem groups_write (hobjects : w'.groupObjects = (w.modifyGroup g f).groupObjects) (k : Nat) :
    w'.groups k = if g = k then (w.groups k).map f else w.groups k := by
  rw [← groups_modifyGroup]
  unfold groups
  rw [hobjects]

theorem LedBut.write (h : LedBut w g)
    (hobjects : w'.groupObjects = (w.modifyGroup g f).groupObjects) (hlinks : w'.links = w.links)
    (hrows : w'.memberRows = w.memberRows) (hraids : w'.bgRaids = w.bgRaids)
    (hconn : ∀ p, (w'.players p).connected = (w.players p).connected)
    (hf : ∀ G, w.groups g = some G → (∀ q, G.isMember q = true → (f G).isMember q = true) ∧
      (f G).isBGGroup = G.isBGGroup) :
    LedBut w' g := by
  refine ⟨h.toRefs.write g hobjects hlinks hrows hraids hconn hf, fun k G hk hG => ?_⟩
  rw [groups_write hobjects, if_neg (Ne.symm hk)] at hG
  exact h.others k G hk hG

/-- One group is written, and not who is in it. -/
theorem Led.write_same (h : Led w) (g : Nat)
    (hobjects : w'.groupObjects = (w.modifyGroup g f).groupObjects) (hlinks : w'.links = w.links)
    (hrows : w'.memberRows = w.memberRows) (hraids : w'.bgRaids = w.bgRaids)
    (hconn : ∀ p, (w'.players p).connected = (w.players p).connected)
    (hf : ∀ G, w.groups g = some G → SameMembers G (f G)) : Led w' := by
  have hbut : LedBut w' g := (h.but g).write hobjects hlinks hrows hraids hconn fun G hG => by
    refine ⟨fun q hq => (isMember_guids (hf G hG).guids q).trans hq, ?_⟩
    unfold Group.isBGGroup
    rw [(hf G hG).bgGroup]
  refine hbut.led fun G' hG' => ?_
  rw [groups_write hobjects, if_pos rfl] at hG'
  obtain ⟨G, hG, rfl⟩ := Option.map_eq_some_iff.1 hG'
  exact (hf G hG).led (h.groups g G hG)

theorem Quiet.led (hq : Quiet w w') (h : Led w) : Led w' := by
  have hsame : ∀ {G G' : Group P}, G'.noRolls = G.noRolls → SameMembers G G' := by
    intro G G' heq
    have hslots := congrArg (fun G : Group P => G.memberSlots) heq
    have hleader := congrArg (fun G : Group P => G.leaderGuid) heq
    have hbg := congrArg (fun G : Group P => G.bgGroup) heq
    have hcounts := congrArg (fun G : Group P => G.subGroupsCounts) heq
    exact ⟨congrArg (List.map MemberSlot.guid) hslots, hleader, hbg, fun _ => hcounts⟩
  refine ⟨h.toRefs.of_sub (by rw [hq.links]) (fun l _ hl => ?_)
    (fun p k hp => by rw [← hq.memberRows]; exact hp) (Nat.le_of_eq hq.nextGroup.symm)
    (fun p k G' _ _ hG' => ?_) (fun b g hb => ?_), fun g G' hG' => ?_⟩
  · obtain ⟨hp, G, hG, hmember⟩ := hl
    obtain ⟨G', hG', heq⟩ := hq.symm.group hG
    refine ⟨by rw [hq.players]; exact hp, G', hG', ?_⟩
    rw [isMember_guids (hsame heq.symm).guids]
    exact hmember
  · obtain ⟨G, hG, heq⟩ := hq.group hG'
    refine ⟨G, hG, fun hmember => ?_, ?_⟩
    · rw [isMember_guids (hsame heq).guids]
      exact hmember
    · unfold Group.isBGGroup
      rw [(hsame heq).bgGroup]
  · rw [hq.bgRaids] at hb
    refine ⟨hb, fun G hG hne => ?_⟩
    obtain ⟨G', hG', heq⟩ := hq.symm.group hG
    refine ⟨G', hG', nonempty_of_members (fun q hq => ?_) hne⟩
    rw [isMember_guids (hsame heq.symm).guids]
    exact hq
  · obtain ⟨G, hG, heq⟩ := hq.group hG'
    exact (hsame heq).led (h.groups g G hG)

theorem Relinked.led (hl : Relinked w w') (hr : Refs w') (h : Led w) : Led w' := by
  refine ⟨hr, fun g G hG => ?_⟩
  rw [hl.groups] at hG
  exact h.groups g G hG

/-! ## Leaders -/

theorem led_lead (hG : G.Led) (hguid : G.isMember guid = true) : (lead guid G).Led := by
  have hset : ({ G with leaderGuid := guid } : Group P).Led :=
    ⟨fun hne => ⟨hguid, (hG.leader hne).2⟩, hG.fresh⟩
  have hslots : (lead guid G).memberSlots.map MemberSlot.guid =
      G.memberSlots.map MemberSlot.guid := by
    unfold lead Group.toggleGroupMemberFlag Group.modifySlot
    split
    · rfl
    · refine List.ext_getElem? fun j => ?_
      rw [List.getElem?_map, List.getElem?_modify, List.getElem?_map]
      cases G.memberSlots[j]? with
      | none => rfl
      | some s =>
          show some (MemberSlot.guid (if _ then _ else s)) = some s.guid
          split <;> rfl
  have hrest : (lead guid G).leaderGuid = guid ∧ (lead guid G).bgGroup = G.bgGroup ∧
      (lead guid G).subGroupsCounts = G.subGroupsCounts := by
    unfold lead Group.toggleGroupMemberFlag Group.modifySlot
    split
    · exact ⟨rfl, rfl, rfl⟩
    · exact ⟨rfl, rfl, rfl⟩
  exact SameMembers.led (G := { G with leaderGuid := guid })
    ⟨hslots, hrest.1, hrest.2.1, fun _ => hrest.2.2⟩ hset

theorem led_changeLeader (h : Led w) (g : Nat) (guid : P) : Led (w.changeLeader g guid) := by
  have hr := refs_changeLeader h.toRefs g guid
  rcases changeLeader_cases w g guid with heq | ⟨G, hG, hmember, _, heq⟩
  · rw [heq]
    exact h
  · refine ⟨hr, fun k K hK => ?_⟩
    rw [heq, groups_modifyGroup] at hK
    split at hK <;> rename_i hk
    · subst hk
      rw [hG] at hK
      obtain rfl := Option.some.inj hK
      exact led_lead (h.groups g G hG) hmember
    · exact h.groups k K hK

theorem led_changeLeaderToFirst (h : Led w) (g : Nat) :
    Led (w.changeLeaderToFirstOnlineMember g) := by
  rcases changeLeaderToFirst_cases w g with heq | ⟨guid, heq⟩
  · rw [heq]
    exact h
  · rw [heq]
    exact led_changeLeader h g guid

/-! ## Members who go -/

theorem LedBut.deleted (h : LedBut w g) (hr : Refs w')
    (hgroups : ∀ k, w'.groups k = if g = k then none else w.groups k) : Led w' := by
  refine ⟨hr, fun k G hG => ?_⟩
  rw [hgroups] at hG
  split at hG <;> rename_i hk
  · cases hG
  · exact h.others k G (Ne.symm hk) hG

theorem led_disband (h : LedBut w g) : Led (w.disband g) := by
  have hr := refs_disband h.toRefs g
  cases hG : w.groups g with
  | none =>
      rw [disband_none hG]
      refine h.led fun G hG' => ?_
      rw [hG] at hG'
      cases hG'
  | some G => exact h.deleted hr (disband_deleted hG).groups

theorem ledBut_afterDrop (h : Led w) (hG : w.groups g = some G) (hclean : w.LetsGo g G guid)
    (hlarge : G.least < G.getMembersCount) : LedBut (w.afterDrop g G guid) g := by
  refine ⟨refs_afterDrop h.toRefs hG hclean hlarge, fun k K hk hK => h.groups k K ?_⟩
  obtain ⟨hobjects, _, _, _⟩ := unlinkMember_frame w g G.isBGGroup guid
  have hread : ((w.unlinkMember g G.isBGGroup guid).modifyGroup g (dropMember guid)).groups k =
      w.groups k := by
    rw [groups_modifyGroup, if_neg (Ne.symm hk)]
    unfold groups
    rw [hobjects]
  rw [← hread]
  unfold afterDrop at hK
  dsimp only at hK
  split at hK
  · rcases pickLeader_cases ((w.unlinkMember g G.isBGGroup guid).modifyGroup g
      (dropMember guid)) g with heq | ⟨leader, heq⟩
    · rw [heq] at hK
      exact hK
    · rw [heq] at hK
      rcases changeLeader_cases ((w.unlinkMember g G.isBGGroup guid).modifyGroup g
        (dropMember guid)) g leader with heq' | ⟨_, _, _, _, heq'⟩
      · rw [heq'] at hK
        exact hK
      · rw [heq', groups_modifyGroup, if_neg (Ne.symm hk)] at hK
        exact hK
  · exact hK

/-- The one who is picked is connected and has a slot; there is one as long as
somebody refers to the group. -/
theorem led_afterDrop (h : Led w) (hG : w.groups g = some G) (hclean : w.LetsGo g G guid)
    (hlarge : G.least < G.getMembersCount)
    (hmany : G.least ≤ ((w.afterDrop g G guid).members g).length) : Led (w.afterDrop g G guid) := by
  have hbut := ledBut_afterDrop h hG hclean hlarge
  have hne : G.memberSlots ≠ [] := by
    intro he
    unfold Group.getMembersCount at hlarge
    rw [he] at hlarge
    exact absurd hlarge (Nat.not_lt_zero _)
  have hcount := length_dropMember (G := G) guid
  have hleast : (dropMember guid G).least = G.least := by
    have hbg := isBGGroup_dropMember guid G
    unfold Group.least
    rw [hbg]
  have hpos := least_pos G
  have hfew : G.least ≤ (dropMember guid G).getMembersCount := by omega
  have hsome : (dropMember guid G).memberSlots ≠ [] := by
    intro he
    unfold Group.getMembersCount at hfew
    rw [he] at hfew
    simp only [List.length_nil] at hfew
    omega
  refine hbut.led fun G' hG' => ?_
  cases hleader : G.isLeader guid with
  | false =>
      rw [groups_afterDrop hG hleader] at hG'
      obtain rfl := Option.some.inj hG'
      have hstays : (dropMember guid G).leaderGuid = G.leaderGuid := by
        unfold dropMember Group.eraseSlot
        split <;> rfl
      refine ⟨fun _ => ⟨?_, ?_⟩, fun he => absurd he hsome⟩
      · rw [hstays, isMember_dropMember (of_decide_eq_false hleader)]
        exact ((h.groups g G hG).leader hne).1
      · rw [hleast]
        exact hfew
  | true =>
      obtain ⟨hobjects, _, _, _⟩ := unlinkMember_frame w g G.isBGGroup guid
      have hafter : w.afterDrop g G guid =
          ((w.unlinkMember g G.isBGGroup guid).modifyGroup g (dropMember guid)).pickLeader g := by
        unfold afterDrop
        rw [hleader]
        rfl
      have hread : ((w.unlinkMember g G.isBGGroup guid).modifyGroup g
          (dropMember guid)).groups g = some (dropMember guid G) := by
        refine groups_modifyGroup_self (dropMember guid) ?_
        unfold groups
        rw [hobjects]
        exact hG
      have hrefs := refs_drop h.toRefs hG hclean hlarge
      have hlinks : (w.afterDrop g G guid).links =
          ((w.unlinkMember g G.isBGGroup guid).modifyGroup g (dropMember guid)).links := by
        rw [hafter]
        rcases pickLeader_cases ((w.unlinkMember g G.isBGGroup guid).modifyGroup g
          (dropMember guid)) g with heq | ⟨leader, heq⟩
        · rw [heq]
        · rw [heq, links_changeLeader]
      rw [hafter] at hG'
      unfold members at hmany
      rw [hlinks] at hmany
      generalize (w.unlinkMember g G.isBGGroup guid).modifyGroup g (dropMember guid) = w₂
        at hread hrefs hmany hG'
      -- somebody refers to the group, who is connected and has a slot
      have hmem : ∃ l ∈ w₂.links, l.group = g := by
        rw [List.length_map] at hmany
        obtain ⟨l, hl⟩ := List.exists_mem_of_length_pos (by omega :
          0 < (w₂.links.filter fun l => l.group = g).length)
        exact ⟨l, (List.mem_filter.1 hl).1, by simpa using (List.mem_filter.1 hl).2⟩
      obtain ⟨l, hl, hgroup⟩ := hmem
      obtain ⟨hconn, K, hK, hmember⟩ := hrefs.linked l hl
      rw [hgroup, hread] at hK
      obtain rfl := Option.some.inj hK
      obtain ⟨s, hs, hsguid⟩ := isMember_iff.1 hmember
      have hfind : ((dropMember guid G).memberSlots.find? fun s =>
          w₂.findConnectedPlayer s.guid).isSome = true := by
        rw [List.find?_isSome]
        exact ⟨s, hs, by rw [hsguid]; exact hconn⟩
      obtain ⟨t, ht⟩ := Option.isSome_iff_exists.1 hfind
      have htmember : (dropMember guid G).isMember t.guid = true :=
        isMember_iff.2 ⟨t, List.mem_of_find?_eq_some ht, rfl⟩
      have htconn : w₂.findConnectedPlayer t.guid = true :=
        List.find?_some (p := fun s : MemberSlot P => w₂.findConnectedPlayer s.guid) ht
      have hpick : w₂.pickLeader g = w₂.modifyGroup g (lead t.guid) := by
        unfold pickLeader
        rw [hread]
        dsimp only
        rw [ht]
        show w₂.changeLeader g t.guid = _
        unfold changeLeader
        rw [hread]
        dsimp only
        rw [htmember, htconn]
        rfl
      rw [hpick, groups_modifyGroup, if_pos rfl, hread] at hG'
      obtain rfl := Option.some.inj hG'
      -- the group with a leader among its members, as far as it is led now
      have hled : ({ dropMember guid G with leaderGuid := t.guid } : Group P).Led :=
        ⟨fun _ => ⟨htmember, by rw [← hleast] at hfew; exact hfew⟩, fun he => absurd he hsome⟩
      exact led_lead (G := { dropMember guid G with leaderGuid := t.guid }) hled htmember

/-- Where a group does not end at once, its raid lets go of the member. -/
def RemovesCleanly (g : Nat) (guid : P) (w : World P) : Prop :=
  ∀ G, w.groups g = some G → G.least < G.getMembersCount → w.LetsGo g G guid

theorem led_removeMember (h : Led w) (hclean : RemovesCleanly g guid w) :
    Led (w.removeMember g guid) := by
  cases hG : w.groups g with
  | none =>
      rw [removeMember_none hG]
      exact h
  | some G =>
      rcases removeMember_cases hG guid with ⟨_, heq⟩ | ⟨hlarge, _, heq⟩ | ⟨hlarge, hmany, heq⟩
      · rw [heq]
        exact led_disband (h.but g)
      · rw [heq]
        exact led_disband (ledBut_afterDrop h hG (hclean G hG hlarge) hlarge)
      · rw [heq]
        exact led_afterDrop h hG (hclean G hG hlarge) hlarge hmany

theorem sameMembers_invitees (G : Group P) (invitees : List P) :
    SameMembers G { G with invitees := invitees } := ⟨rfl, rfl, rfl, fun _ => rfl⟩

theorem led_removeInvite (h : Led w) (g : Nat) (p : P) : Led (w.removeInvite g p) :=
  h.write_same g rfl rfl rfl rfl (connected_setGroupInvite _ none p) fun G _ =>
    sameMembers_invitees G _

theorem led_removeAllInvites (h : Led w) (g : Nat) : Led (w.removeAllInvites g) := by
  cases hG : w.groups g with
  | none =>
      unfold removeAllInvites
      rw [hG]
      exact h
  | some G =>
      rw [removeAllInvites_eq hG]
      exact h.write_same g rfl rfl rfl rfl (clearInvites_connected w G.invitees) fun G _ =>
        sameMembers_invitees G _

theorem led_deleteGroup (h : Led w) (g : Nat) : Led (w.deleteGroup g) :=
  (h.but g).deleted (refs_deleteGroup h.toRefs g) (groups_deleteGroup w g)

theorem led_addInvite {p : P} (hadd : w.addInvite g p = some w') (h : Led w) : Led w' := by
  obtain ⟨_, _, rfl⟩ := addInvite_eq hadd
  exact (led_removeInvite h g p).write_same g rfl rfl rfl rfl (connected_setGroupInvite _ (some g) p)
    fun G _ => sameMembers_invitees G _

theorem led_uninviteFromGroup (h : Led w) (p : P) : Led (w.uninviteFromGroup p) := by
  unfold uninviteFromGroup
  split
  · exact h
  · rename_i g _
    have hr := led_removeInvite h g p
    dsimp only
    split
    · exact hr
    · split
      · split
        · exact led_disband (hr.but g)
        · exact hr
      · split
        · exact led_deleteGroup (led_removeAllInvites hr g) g
        · exact hr

end World

end Sunstrider.Groups
