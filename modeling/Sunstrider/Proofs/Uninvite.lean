import Sunstrider.Proofs.GroupSizeRuns

/-!
# Two ways to uninvite

A member is thrown out by name or by GUID, and each has a handler of its own. The
two run through the same questions: is it the player's own name, may the player
uninvite, is the target a member, is the target invited. The handler for names
asks one more, whether the target leads the group, and does nothing then.

`Called` says that a name and a GUID mean the same player to the group and to the
one who asks. The handlers then agree but for the leader, and an assistant who
knows the GUID of the leader is rid of the leader.
-/

namespace Sunstrider.Groups

open Lib

variable {P : Type} [LinearOrder P]

namespace World

variable {w w' : World P}

variable {G : Group P} {guid p : P} {g : Nat}

/-- The name is that of the player, in the group, among its invitees and for the
one who asks. -/
structure Called (realm : Realm P) (w : World P) (G : Group P) (p : P) (name : String)
    (guid : P) : Prop where
  normal : ∃ membername, realm.normalizePlayerName name = some membername ∧
    (∀ s ∈ G.memberSlots, s.name = membername ↔ s.guid = guid) ∧
    (∀ q ∈ G.invitees, (w.players q).name = membername ↔ q = guid) ∧
    ((w.players p).name = membername ↔ p = guid)

/-! ## The decisions -/

theorem find?_congr_mem {α : Type} {l : List α} {p q : α → Bool} (h : ∀ a ∈ l, p a = q a) :
    l.find? p = l.find? q := by
  induction l with
  | nil => rfl
  | cons a l ih =>
      rw [List.find?_cons, List.find?_cons, h a List.mem_cons_self,
        ih fun b hb => h b (List.mem_cons_of_mem a hb)]

/-- The member with the name has the GUID. -/
theorem getMemberGUID_called {membername : String}
    (h : ∀ s ∈ G.memberSlots, s.name = membername ↔ s.guid = guid) :
    G.getMemberGUID membername = if G.isMember guid then some guid else none := by
  have hfind : G.memberSlots.find? (fun s => s.name = membername) = G.getMemberSlot guid :=
    find?_congr_mem fun s hs => decide_eq_decide.2 (h s hs)
  unfold Group.getMemberGUID Group.isMember
  rw [hfind]
  cases hs : G.getMemberSlot guid with
  | none => rfl
  | some s =>
      have hguid := List.find?_some
        (show G.memberSlots.find? (fun s => s.guid = guid) = some s from hs)
      show some s.guid = some guid
      rw [of_decide_eq_true hguid]

theorem getInvited_called {membername : String}
    (h : ∀ q ∈ G.invitees, (w.players q).name = membername ↔ q = guid) :
    (getInvited G fun q => (w.players q).name = membername) = getInvited G fun q => q = guid :=
  find?_congr_mem fun q hq => decide_eq_decide.2 (h q hq)

/-- The handler for names, once it is known who is meant. -/
theorem uninviteName_eq {realm : Realm P} {name : String} (hname : Called realm w G p name guid)
    (hg : w.getGroup p = some g) (hG : w.groups g = some G) :
    w.uninviteName realm p name =
      if guid ≠ p ∧ w.canUninviteFromGroup p = .ok ∧ G.isMember guid = true ∧
          G.isLeader guid = true then .ignore
      else w.uninviteGuid p guid := by
  obtain ⟨membername, hnormal, hslots, hinvitees, hown⟩ := hname.normal
  unfold uninviteName uninviteGuid
  rw [hnormal, hg]
  dsimp only
  rw [hG]
  dsimp only
  rw [getMemberGUID_called hslots, getInvited_called hinvitees]
  by_cases hself : guid = p
  · rw [if_pos (hown.2 hself.symm), if_pos hself, if_neg fun h => h.1 hself]
  · rw [if_neg fun h => hself (hown.1 h).symm, if_neg hself]
    by_cases hmay : w.canUninviteFromGroup p = .ok
    · rw [if_neg (not_not_intro hmay), if_neg (not_not_intro hmay)]
      by_cases hmember : G.isMember guid = true
      · rw [if_pos hmember, if_pos hmember]
        dsimp only
        by_cases hleader : G.isLeader guid = true
        · rw [if_pos hleader, if_pos ⟨hself, hmay, hmember, hleader⟩]
        · rw [if_neg hleader, if_neg fun h => hleader h.2.2.2]
      · rw [if_neg hmember, if_neg hmember, if_neg fun h => hmember h.2.2.1]
    · rw [if_pos hmay, if_pos hmay, if_neg fun h => hmay h.2.1]

/-- Whoever a name may mean, the leader is not removed by it. -/
theorem uninviteName_leader {realm : Realm P} (hG : w.groups g = some G) (name : String) :
    w.uninviteName realm p name ≠ .removeFromGroup g G.leaderGuid := by
  intro h
  unfold uninviteName at h
  split at h
  · cases h
  · split at h
    · cases h
    · dsimp only at h
      split at h
      · cases h
      · split at h
        · cases h
        · split at h <;> rename_i hG'
          · cases h
          · split at h
            · split at h <;> rename_i hleader
              · cases h
              · injection h with hgg hguid
                rw [hgg, hG] at hG'
                obtain rfl := Option.some.inj hG'
                exact hleader (decide_eq_true hguid.symm)
            · split at h
              · cases h
              · cases h

/-- By GUID the leader is removed by everybody who may remove anybody. -/
theorem uninviteGuid_leader (hg : w.getGroup p = some g) (hG : w.groups g = some G)
    (hp : G.isLeader p = false) (guid : P) :
    w.uninviteGuid p guid = .removeFromGroup g G.leaderGuid ↔
      guid = G.leaderGuid ∧ G.isMember guid = true ∧ w.canUninviteFromGroup p = .ok := by
  have hself : guid = G.leaderGuid → guid ≠ p := by
    intro hguid he
    exact of_decide_eq_false hp (hguid.symm.trans he)
  unfold uninviteGuid
  rw [hg]
  dsimp only
  rw [hG]
  dsimp only
  constructor
  · intro h
    split at h
    · cases h
    · split at h <;> rename_i hmay
      · cases h
      · split at h <;> rename_i hmember
        · injection h with _ hguid
          exact ⟨hguid, hmember, by simpa using hmay⟩
        · split at h
          · cases h
          · cases h
  · intro ⟨hguid, hmember, hmay⟩
    rw [if_neg (hself hguid), if_neg (by rw [hmay]; decide), if_pos hmember, hguid]

/-! ## What becomes of the leader -/

/-- Who is not removed stays, in a group that stays. -/
theorem isMember_removeMember {G' : Group P} {q : P} (hG : w.groups g = some G)
    (hleader : G.isLeader guid = false) (hG' : (w.removeMember g guid).groups g = some G')
    (hne : q ≠ guid) : G'.isMember q = G.isMember q := by
  have hgone : ∀ w₁ : World P, ∀ G₁, w₁.groups g = some G₁ →
      (w₁.disband g).groups g ≠ some G' := by
    intro w₁ G₁ hG₁ h
    rw [(disband_deleted hG₁).groups, if_pos rfl] at h
    cases h
  have hdrop := groups_afterDrop hG hleader
  rcases removeMember_cases hG guid with ⟨_, heq⟩ | ⟨_, _, heq⟩ | ⟨_, _, heq⟩
  · rw [heq] at hG'
    exact absurd hG' (hgone w G hG)
  · rw [heq] at hG'
    exact absurd hG' (hgone _ _ hdrop)
  · rw [heq, hdrop] at hG'
    rw [← Option.some.inj hG']
    exact isMember_dropMember hne

/-- To take an invitation back removes nobody from a group that stays. -/
theorem memberSlots_uninviteFromGroup {G' : Group P} {q : P} (hG : w.groups g = some G)
    (hG' : (w.uninviteFromGroup q).groups g = some G') : G'.memberSlots = G.memberSlots := by
  have hdel : ∀ {w₁ w₂ : World P} {h : Nat} {H : Group P}, Deleted w₁ h H w₂ →
      w₂.groups g = some G' → w₁.groups g = some G' := by
    intro w₁ w₂ h H hd hread
    rw [hd.groups] at hread
    split at hread
    · cases hread
    · exact hread
  have hremove : ∀ h, (w.removeInvite h q).groups g = some G' →
      G'.memberSlots = G.memberSlots := by
    intro h hread
    rw [groups_removeInvite, hG] at hread
    split at hread
    · rw [← Option.some.inj hread]
    · rw [← Option.some.inj hread]
  unfold uninviteFromGroup at hG'
  split at hG'
  · rw [← Option.some.inj (hG.symm.trans hG')]
  · rename_i h _
    dsimp only at hG'
    split at hG' <;> rename_i hH
    · exact hremove h hG'
    · split at hG'
      · split at hG'
        · exact hremove h (hdel (disband_deleted hH) hG')
        · exact hremove h hG'
      · split at hG'
        · exact hremove h (hdel (removeAllInvites_deleteGroup hH) hG')
        · exact hremove h hG'

/-- The request does not remove the leader, and where the group is left the leader
is still a member. -/
structure LeaderStays (w : World P) (g : Nat) (G : Group P) (d : UninviteDecision P) : Prop where
  decision : d ≠ .removeFromGroup g G.leaderGuid
  member : ∀ G', (w.applyUninvite d).groups g = some G' → G.isMember G.leaderGuid = true →
    G'.isMember G.leaderGuid = true

/-- The decision is all there is to it. -/
theorem leaderStays_of_decision {d : UninviteDecision P} (hG : w.groups g = some G)
    (hd : d ≠ .removeFromGroup g G.leaderGuid)
    (hown : ∀ h guid, d = .removeFromGroup h guid → h = g) : LeaderStays w g G d := by
  refine ⟨hd, fun G' hG' hmember => ?_⟩
  cases d with
  | ignore => rw [← Option.some.inj (hG.symm.trans hG')]; exact hmember
  | answer res => rw [← Option.some.inj (hG.symm.trans hG')]; exact hmember
  | removeFromGroup h guid =>
      obtain rfl := hown h guid rfl
      have hne : G.leaderGuid ≠ guid := by
        intro he
        exact hd (by rw [he])
      rw [isMember_removeMember hG (decide_eq_false hne) hG' hne]
      exact hmember
  | uninviteFromGroup q =>
      have hslots := memberSlots_uninviteFromGroup hG hG'
      rw [isMember_iff, hslots, ← isMember_iff]
      exact hmember

theorem uninviteGuid_own (hg : w.getGroup p = some g) :
    ∀ h q, w.uninviteGuid p guid = .removeFromGroup h q → h = g := by
  intro h q hd
  unfold uninviteGuid at hd
  rw [hg] at hd
  split at hd
  · cases hd
  · dsimp only at hd
    split at hd
    · cases hd
    · split at hd
      · cases hd
      · split at hd
        · injection hd with hgg _
          exact hgg.symm
        · split at hd
          · cases hd
          · cases hd

/-- What an uninvite request of a member who does not lead the group should come
to, for a name and a GUID of one player. -/
structure UninviteSafe (realm : Realm P) (w : World P) (p guid : P) (name : String) (g : Nat)
    (G : Group P) : Prop where
  byGuid : LeaderStays w g G (w.uninviteGuid p guid)
  byName : LeaderStays w g G (w.uninviteName realm p name)
  same : w.uninviteGuid p guid = w.uninviteName realm p name

/-- The two handlers agree and spare the leader, except that by GUID everybody who
may uninvite can remove a leader who has a slot. -/
theorem uninviteSafe_iff {realm : Realm P} {p guid : P} {name : String} {g : Nat} {G : Group P}
    (hg : w.getGroup p = some g) (hG : w.groups g = some G) (hp : G.isLeader p = false)
    (hname : Called realm w G p name guid) :
    UninviteSafe realm w p guid name g G ↔
      ¬ (guid = G.leaderGuid ∧ G.isMember guid = true ∧ w.canUninviteFromGroup p = .ok) := by
  rw [← uninviteGuid_leader hg hG hp]
  constructor
  · intro h
    exact h.byGuid.decision
  · intro hne
    have hsame : w.uninviteGuid p guid = w.uninviteName realm p name := by
      rw [uninviteName_eq hname hg hG, if_neg]
      intro ⟨_, hmay, hmember, hleader⟩
      have hguid : guid = G.leaderGuid := (of_decide_eq_true hleader).symm
      exact hne ((uninviteGuid_leader hg hG hp guid).2 ⟨hguid, hmember, hmay⟩)
    have hguid := leaderStays_of_decision hG hne (uninviteGuid_own hg)
    exact ⟨hguid, hsame ▸ hguid, hsame⟩

/-! An assistant of a raid of three, the leader, and a third member. -/

def raiders : World Nat :=
  start (fun p => if p = 0 then "Lea" else if p = 1 then "Ann" else "Bob") fun _ => none

def promoted : World Nat :=
  raiders.run everybody
    [.login 0, .login 1, .login 2, .invite 0 1 true, .accept 1, .invite 0 2 true, .accept 2,
      .raidConvert 0, .assistantLeader 0 1 true]

theorem called_bob {G : Group Nat} (hG : promoted.groups 0 = some G) :
    Called everybody promoted G 1 "Bob" 2 := by
  obtain rfl : G = _ := (Option.some.inj hG).symm
  exact ⟨"Bob", rfl, by decide, by decide, by decide⟩

theorem uninviteSafe_iff_bob : ∃ G, promoted.groups 0 = some G ∧
    (UninviteSafe everybody promoted 1 2 "Bob" 0 G ↔
      ¬ (2 = G.leaderGuid ∧ G.isMember 2 = true ∧ promoted.canUninviteFromGroup 1 = .ok)) :=
  ⟨_, rfl, uninviteSafe_iff rfl rfl rfl (called_bob rfl)⟩

theorem assistant_removes_leader :
    ¬ ∀ p guid name g G, promoted.getGroup p = some g → promoted.groups g = some G →
      G.isLeader p = false → Called everybody promoted G p name guid →
      UninviteSafe everybody promoted p guid name g G := by
  intro h
  have hcalled : ∀ G, promoted.groups 0 = some G → Called everybody promoted G 1 "Lea" 0 := by
    intro G hG
    obtain rfl : G = _ := (Option.some.inj hG).symm
    exact ⟨"Lea", rfl, by decide, by decide, by decide⟩
  have hsafe := h 1 0 "Lea" 0 _ rfl rfl rfl (hcalled _ rfl)
  exact hsafe.byGuid.decision rfl

end World

end Sunstrider.Groups
