import Sunstrider.Lib.Tally
import Sunstrider.Proofs.GroupFrames

/-!
# Who refers to a group

The references to a group are those of members online. `Refs` says it: whoever
has a link to a group is connected and has a slot there, a row of the
database names a group the player has a slot in, which is what a new player
object is linked by, and a battleground refers to a raid that has members. The
number of links is what `RemoveMember` goes by when it decides whether a group
goes on.

A link is written with the group it points to in hand, so everything here is
about links that are dropped or moved. Removing a member has to drop all links of
the member to the group. The reference of a player and the one outside a
battleground are dropped each on its own, and it takes both.
-/

set_option linter.unusedSectionVars false

namespace Sunstrider.Groups

open Lib

variable {P : Type} [LinearOrder P]

namespace World

variable {w w' : World P}

variable {o : Bool} {p guid : P} {l : Link P} {g : Nat} {G : Group P}

/-- A player who may refer to a group: connected, and one of its members. -/
def Linkable (w : World P) (p : P) (g : Nat) : Prop :=
  (w.players p).connected = true ∧ ∃ G, w.groups g = some G ∧ G.isMember p = true

structure Refs (w : World P) : Prop where
  linked : ∀ l ∈ w.links, w.Linkable l.player l.group
  unique : (w.links.map fun l => (l.player, l.original)).Nodup
  rows : ∀ p g, w.memberRows p = some g → g < w.nextGroup ∧
    ∀ G, w.groups g = some G → G.isMember p = true ∧ G.isBGGroup = false
  raids : ∀ b g, w.bgRaids b = some g → ∃ G, w.groups g = some G ∧ G.memberSlots ≠ []

/-! ## Links -/

theorem mem_unlink :
    l ∈ (w.unlink o p).links ↔ l ∈ w.links ∧ ¬ (l.player = p ∧ l.original = o) := by
  refine List.mem_filter.trans (and_congr_right fun _ => ?_)
  simp [-not_and, Decidable.not_and_iff_not_or_not]

theorem mem_link :
    l ∈ (w.link o p g).links ↔ l = ⟨p, o, g⟩ ∨ l ∈ (w.unlink o p).links := List.mem_cons

theorem getRef_mem (h : w.getRef o p = some g) : (⟨p, o, g⟩ : Link P) ∈ w.links := by
  obtain ⟨l, hfind, hgroup⟩ := Option.map_eq_some_iff.1 h
  have hkey := List.find?_some hfind
  simp only [Bool.and_eq_true, decide_eq_true_eq] at hkey
  have hl : l = ⟨p, o, g⟩ := by
    cases l with
    | mk player original group =>
        obtain ⟨hp, ho⟩ := hkey
        rw [show player = p from hp, show original = o from ho, show group = g from hgroup]
  rw [← hl]
  exact List.mem_of_find?_eq_some hfind

namespace Refs

/-- One link each for the reference of a player and the one outside. -/
theorem getRef (h : Refs w) {l : Link P} (hl : l ∈ w.links) :
    w.getRef l.original l.player = some l.group := by
  have hsome : (w.links.find? fun k => k.player = l.player && k.original = l.original).isSome := by
    rw [List.find?_isSome]
    exact ⟨l, hl, by simp⟩
  obtain ⟨k, hk⟩ := Option.isSome_iff_exists.1 hsome
  have hkey := List.find?_some hk
  simp only [Bool.and_eq_true, decide_eq_true_eq] at hkey
  have hsame : k = l :=
    List.inj_on_of_nodup_map h.unique (List.mem_of_find?_eq_some hk) hl
      (Prod.ext hkey.1 hkey.2)
  unfold World.getRef
  rw [hk, hsame]
  rfl

theorem linkable (h : Refs w) {o : Bool} {p : P} {g : Nat} (hg : w.getRef o p = some g) :
    w.Linkable p g := h.linked _ (getRef_mem hg)

/-- Links are dropped, groups keep the members they have links and rows for. -/
theorem of_sub (h : Refs w) (hlinks : w'.links.Sublist w.links)
    (hlinked : ∀ l ∈ w'.links, w.Linkable l.player l.group → w'.Linkable l.player l.group)
    (hrows : ∀ p g, w'.memberRows p = some g → w.memberRows p = some g)
    (hnext : w.nextGroup ≤ w'.nextGroup)
    (hgroups : ∀ p g G', w'.memberRows p = some g → g < w.nextGroup →
      w'.groups g = some G' → ∃ G, w.groups g = some G ∧
        (G.isMember p = true → G'.isMember p = true) ∧ G'.isBGGroup = G.isBGGroup)
    (hraids : ∀ b g, w'.bgRaids b = some g → w.bgRaids b = some g ∧
      ∀ G, w.groups g = some G → G.memberSlots ≠ [] →
        ∃ G', w'.groups g = some G' ∧ G'.memberSlots ≠ []) :
    Refs w' where
  linked := fun l hl => hlinked l hl (h.linked l (hlinks.subset hl))
  unique := h.unique.sublist (hlinks.map _)
  rows := by
    intro p g hp
    obtain ⟨hlt, hrow⟩ := h.rows p g (hrows p g hp)
    refine ⟨Nat.lt_of_lt_of_le hlt hnext, fun G' hG' => ?_⟩
    obtain ⟨G, hG, hmember, hbg⟩ := hgroups p g G' hp hlt hG'
    exact ⟨hmember (hrow G hG).1, hbg.trans (hrow G hG).2⟩
  raids := by
    intro b g hb
    obtain ⟨hb', hg⟩ := hraids b g hb
    obtain ⟨G, hG, hne⟩ := h.raids b g hb'
    exact hg G hG hne

end Refs

theorem Relinked.linkable (hl : Relinked w w') : w'.Linkable p g ↔ w.Linkable p g := by
  unfold Linkable
  rw [hl.players, hl.groups]

theorem Relinked.nextGroup (hl : Relinked w w') : w'.nextGroup = w.nextGroup := by
  unfold World.nextGroup
  rw [hl.groupObjects]

theorem Relinked.refs (hl : Relinked w w') (h : Refs w)
    (hlinked : ∀ l ∈ w'.links, w.Linkable l.player l.group)
    (hunique : (w'.links.map fun l => (l.player, l.original)).Nodup) : Refs w' where
  linked := fun l hmem => hl.linkable.2 (hlinked l hmem)
  unique := hunique
  rows := by
    rw [hl.memberRows, hl.nextGroup, hl.groups]
    exact h.rows
  raids := by
    rw [hl.bgRaids, hl.groups]
    exact h.raids

theorem refs_unlink (h : Refs w) (o : Bool) (p : P) : Refs (w.unlink o p) := by
  refine (relinked_unlink w o p).refs h (fun l hl => h.linked l (mem_unlink.1 hl).1) ?_
  exact h.unique.sublist (List.filter_sublist.map _)

theorem refs_link (h : Refs w) (o : Bool) (hp : w.Linkable p g) : Refs (w.link o p g) := by
  refine (relinked_link w o p g).refs h (fun l hl => ?_) ?_
  · rcases mem_link.1 hl with heq | hold
    · rw [heq]
      exact hp
    · exact h.linked l (mem_unlink.1 hold).1
  · refine List.nodup_cons.2 ⟨fun hmem => ?_, (refs_unlink h o p).unique⟩
    obtain ⟨l, hl, hkey⟩ := List.mem_map.1 hmem
    exact (mem_unlink.1 hl).2 ⟨congrArg Prod.fst hkey, congrArg Prod.snd hkey⟩

theorem refs_setRef (h : Refs w) (o : Bool) {g : Option Nat}
    (hp : ∀ k, g = some k → w.Linkable p k) : Refs (w.setRef o g p) := by
  cases g with
  | none => exact refs_unlink h o p
  | some g => exact refs_link h o (hp g rfl)

theorem refs_setBattlegroundRaid (h : Refs w) (hp : w.Linkable p g) :
    Refs (w.setBattlegroundRaid g p) := by
  have hout := refs_setRef h true (p := p) fun k hk => h.linkable (o := false) hk
  exact refs_link hout false ((relinked_setRef w true _ p).linkable.2 hp)

theorem refs_removeFromBattlegroundRaid (h : Refs w) (p : P) :
    Refs (w.removeFromBattlegroundRaid p) := by
  have hback := refs_setRef (refs_unlink h false p) false (g := w.getOriginalGroup p) (p := p)
    fun k hk => (relinked_unlink w false p).linkable.2 (h.linkable hk)
  exact refs_unlink hback true p

theorem refs_leaveGroup (h : Refs w) (g : Nat) (bg : Bool) (p : P) :
    Refs (w.leaveGroup g bg p) := by
  unfold leaveGroup
  split
  · exact refs_removeFromBattlegroundRaid h p
  · split
    · exact refs_unlink h true p
    · exact refs_unlink h false p

theorem refs_leaveAll (g : Nat) (bg : Bool) (slots : List (MemberSlot P)) (h : Refs w) :
    Refs (slots.foldl (fun w s =>
      if w.findConnectedPlayer s.guid then w.leaveGroup g bg s.guid else w) w) := by
  induction slots generalizing w with
  | nil => exact h
  | cons s slots ih =>
      rw [List.foldl_cons]
      split
      · exact ih (refs_leaveGroup h g bg s.guid)
      · exact ih h

/-! ## A member who is removed -/

/-- The links a player is left with after a battleground raid: the one outside. -/
theorem links_removeFromBattlegroundRaid (hl : l ∈ (w.removeFromBattlegroundRaid p).links)
    (hp : l.player = p) : w.getOriginalGroup p = some l.group := by
  obtain ⟨hback, htrue⟩ := mem_unlink.1 hl
  have hout : l ∉ (w.unlink false p).links := by
    intro hmem
    have hfalse := (mem_unlink.1 hmem).2
    cases ho : l.original with
    | true => exact htrue ⟨hp, ho⟩
    | false => exact hfalse ⟨hp, ho⟩
  unfold setGroup at hback
  cases ho : w.getOriginalGroup p with
  | none =>
      rw [ho] at hback
      exact absurd (mem_unlink.1 hback).1 hout
  | some k =>
      rw [ho] at hback
      rcases mem_link.1 hback with heq | hmem
      · rw [heq]
      · exact absurd (mem_unlink.1 hmem).1 hout

/-- The raid of a battleground lets go of a player who has no other reference to
it. -/
def LetsGo (w : World P) (g : Nat) (G : Group P) (guid : P) : Prop :=
  G.isBGGroup = true → w.findConnectedPlayer guid = true → w.getOriginalGroup guid ≠ some g

/-- The links after `unlinkMember`. -/
theorem refs_unlinkMember (h : Refs w) (hclean : w.LetsGo g G guid) :
    Refs (w.unlinkMember g G.isBGGroup guid) ∧
      (∀ l ∈ (w.unlinkMember g G.isBGGroup guid).links, l.group = g → l.player ≠ guid) := by
  have hoff : ¬ w.findConnectedPlayer guid = true → ∀ l ∈ w.links, l.player ≠ guid := by
    intro hoff l hl hguid
    have hconn := (h.linked l hl).1
    rw [hguid] at hconn
    exact hoff hconn
  unfold unlinkMember
  cases hbg : G.isBGGroup with
  | true =>
      dsimp only
      rw [if_pos rfl]
      by_cases hconn : w.findConnectedPlayer guid = true
      · rw [if_pos hconn]
        refine ⟨refs_leaveGroup h g true guid, fun l hl hgroup hguid => ?_⟩
        have hleft := links_removeFromBattlegroundRaid (w := w) (p := guid) hl hguid
        rw [hgroup] at hleft
        exact hclean hbg hconn hleft
      · rw [if_neg hconn]
        exact ⟨h, fun l hl _ => hoff hconn l hl⟩
  | false =>
      dsimp only
      rw [if_neg (by decide)]
      have hleft : Refs (if w.findConnectedPlayer guid = true then w.leaveGroup g false guid
          else w) := by
        split
        · exact refs_leaveGroup h g false guid
        · exact h
      have hone : ∀ l ∈ (if w.findConnectedPlayer guid = true then w.leaveGroup g false guid
          else w).links, l.player = guid → l.group = g → l.original = false := by
        intro l hl hguid hgroup
        by_cases hconn : w.findConnectedPlayer guid = true
        · rw [if_pos hconn] at hl
          unfold leaveGroup at hl
          rw [if_neg (by decide)] at hl
          by_cases ho : w.getOriginalGroup guid = some g
          · rw [if_pos ho] at hl
            by_contra hne
            exact (mem_unlink.1 hl).2 ⟨hguid, by simpa using hne⟩
          · rw [if_neg ho] at hl
            by_contra hne
            have horiginal : l.original = true := by simpa using hne
            have href := h.getRef (mem_unlink.1 hl).1
            rw [horiginal, hguid, hgroup] at href
            exact ho href
        · rw [if_neg hconn] at hl
          exact absurd hguid (hoff hconn l hl)
      generalize (if w.findConnectedPlayer guid = true then w.leaveGroup g false guid else w) = w₁
        at hleft hone
      refine ⟨?_, fun l hl hgroup hguid => ?_⟩
      · refine hleft.of_sub List.eraseP_sublist (fun l _ hl => hl) ?_ (Nat.le_refl _) ?_
          (fun b k hb => ⟨hb, fun G hG hne => ⟨G, hG, hne⟩⟩)
        · intro p k hp
          have hp' : Function.update w₁.memberRows guid none p = some k := hp
          by_cases hpg : p = guid
          · rw [hpg, Function.update_self] at hp'
            cases hp'
          · rw [Function.update_of_ne hpg] at hp'
            exact hp'
        · exact fun p k G' _ _ hG' => ⟨G', hG', id, rfl⟩
      · -- `DelinkMember` takes the one link that can be left
        have hmem : l ∈ w₁.links.eraseP fun l => l.group = g && l.player = guid := hl
        cases hfind : w₁.links.find? fun l => l.group = g && l.player = guid with
        | none =>
            have hl' := List.find?_eq_none.1 hfind l (List.mem_of_mem_eraseP hmem)
            simp [hgroup, hguid] at hl'
        | some k =>
            have hkey := List.find?_some hfind
            simp only [Bool.and_eq_true, decide_eq_true_eq] at hkey
            have hk := hone k (List.mem_of_find?_eq_some hfind) hkey.2 hkey.1
            have hl₁ := hone l (List.mem_of_mem_eraseP hmem) hguid hgroup
            have hnodup := ((perm_cons_eraseP hfind).map
              fun l => (l.player, l.original)).nodup_iff.1 hleft.unique
            refine (List.nodup_cons.1 hnodup).1 (List.mem_map.2 ⟨l, hmem, ?_⟩)
            exact Prod.ext (hguid.trans hkey.2.symm) (hl₁.trans hk.symm)

/-! ## Groups -/

theorem nonempty_of_members {G' : Group P} (h : ∀ q, G.isMember q = true → G'.isMember q = true)
    (hne : G.memberSlots ≠ []) : G'.memberSlots ≠ [] := by
  obtain ⟨s, hs⟩ := List.exists_mem_of_ne_nil G.memberSlots hne
  obtain ⟨t, ht, _⟩ := isMember_iff.1 (h s.guid (isMember_iff.2 ⟨s, hs, rfl⟩))
  exact List.ne_nil_of_mem ht

/-- One group is written, and keeps its members. -/
theorem Refs.write (h : Refs w) (g : Nat) {f : Group P → Group P}
    (hobjects : w'.groupObjects = (w.modifyGroup g f).groupObjects)
    (hlinks : w'.links = w.links) (hrows : w'.memberRows = w.memberRows)
    (hraids : w'.bgRaids = w.bgRaids)
    (hconn : ∀ p, (w'.players p).connected = (w.players p).connected)
    (hf : ∀ G, w.groups g = some G → (∀ q, G.isMember q = true → (f G).isMember q = true) ∧
      (f G).isBGGroup = G.isBGGroup) : Refs w' := by
  have hread : ∀ k, w'.groups k = if g = k then (w.groups k).map f else w.groups k := by
    intro k
    rw [← groups_modifyGroup]
    unfold groups
    rw [hobjects]
  have hnext : w'.nextGroup = w.nextGroup := by
    unfold nextGroup
    rw [hobjects]
    exact List.length_modify _ _ _
  refine h.of_sub (by rw [hlinks]) (fun l _ hl => ?_) (fun p k hp => by rw [← hrows]; exact hp)
    (Nat.le_of_eq hnext.symm) (fun p k G' _ _ hG' => ?_) fun b k hb => ?_
  · obtain ⟨hp, G, hG, hmember⟩ := hl
    refine ⟨by rw [hconn]; exact hp, ?_⟩
    rw [hread]
    split <;> rename_i hk
    · rw [hG]
      exact ⟨f G, rfl, (hf G (hk ▸ hG)).1 _ hmember⟩
    · exact ⟨G, hG, hmember⟩
  · rw [hread] at hG'
    split at hG' <;> rename_i hk
    · obtain ⟨G, hG, rfl⟩ := Option.map_eq_some_iff.1 hG'
      have hfG := hf G (hk ▸ hG)
      exact ⟨G, hG, hfG.1 p, hfG.2⟩
    · exact ⟨G', hG', id, rfl⟩
  · rw [hraids] at hb
    refine ⟨hb, fun G hG hne => ?_⟩
    rw [hread]
    split <;> rename_i hk
    · rw [hG]
      exact ⟨f G, rfl, nonempty_of_members (hf G (hk ▸ hG)).1 hne⟩
    · exact ⟨G, hG, hne⟩

/-- A group more. -/
theorem Refs.add (h : Refs w) {L : Group P}
    (hgroups : ∀ k, w'.groups k = if k = w.nextGroup then some L else w.groups k)
    (hnext : w'.nextGroup = w.nextGroup + 1) (hlinks : w'.links = w.links)
    (hrows : w'.memberRows = w.memberRows) (hraids : w'.bgRaids = w.bgRaids)
    (hplayers : w'.players = w.players) : Refs w' := by
  have hold : ∀ k G, w.groups k = some G → w'.groups k = some G := by
    intro k G hG
    rw [hgroups, if_neg, hG]
    intro hk
    rw [hk, groups_nextGroup] at hG
    cases hG
  refine h.of_sub (by rw [hlinks]) (fun l _ hl => ?_) (fun p k hp => by rw [← hrows]; exact hp)
    (by omega) (fun p k G' _ hlt hG' => ?_)
    fun b k hb => ⟨by rw [← hraids]; exact hb, fun G hG hne => ⟨G, hold k G hG, hne⟩⟩
  · obtain ⟨hp, G, hG, hmember⟩ := hl
    exact ⟨by rw [hplayers]; exact hp, G, hold _ G hG, hmember⟩
  · rw [hgroups, if_neg (by omega)] at hG'
    exact ⟨G', hG', id, rfl⟩

theorem refs_newGroup (h : Refs w) (leader : P) (bg : Option Nat) :
    Refs (w.newGroup leader bg) := by
  refine h.add (groups_newGroup w leader bg) ?_ rfl rfl rfl rfl
  show (w.groupObjects ++ [_]).length = _
  rw [List.length_append]
  rfl

/-- A group is gone, and nothing refers to it. -/
theorem Refs.cut (h : Refs w) (hlinks : w'.links.Sublist w.links)
    (hne : ∀ l ∈ w'.links, l.group ≠ g)
    (hgroups : ∀ k, w'.groups k = if g = k then none else w.groups k)
    (hconn : ∀ p, (w'.players p).connected = (w.players p).connected)
    (hrows : ∀ p k, w'.memberRows p = some k → w.memberRows p = some k)
    (hraids : ∀ b k, w'.bgRaids b = some k → k ≠ g ∧ w.bgRaids b = some k)
    (hnext : w'.nextGroup = w.nextGroup) : Refs w' := by
  refine h.of_sub hlinks (fun l hmem hl => ?_) hrows (Nat.le_of_eq hnext.symm)
    (fun p k G' _ _ hG' => ?_) fun b k hb => ?_
  · obtain ⟨hp, G, hG, hmember⟩ := hl
    refine ⟨by rw [hconn]; exact hp, G, ?_, hmember⟩
    rw [hgroups, if_neg (Ne.symm (hne l hmem)), hG]
  · rw [hgroups] at hG'
    split at hG'
    · cases hG'
    · exact ⟨G', hG', id, rfl⟩
  · obtain ⟨hk, hb'⟩ := hraids b k hb
    refine ⟨hb', fun G hG hne => ⟨G, ?_, hne⟩⟩
    rw [hgroups, if_neg (Ne.symm hk), hG]

theorem nextGroup_deleteGroup (w : World P) (g : Nat) :
    (w.deleteGroup g).nextGroup = w.nextGroup := List.length_set

theorem refs_deleteGroup (h : Refs w) (g : Nat) : Refs (w.deleteGroup g) := by
  refine h.cut (g := g) List.filter_sublist (fun l hl => ?_) (groups_deleteGroup w g)
    (fun _ => rfl) (fun _ _ hp => hp) (fun _ _ hb => bgRaids_deleteGroup hb)
    (nextGroup_deleteGroup w g)
  simpa using (List.mem_filter.1 hl).2

theorem refs_disband (h : Refs w) (g : Nat) : Refs (w.disband g) := by
  cases hG : w.groups g with
  | none =>
      rw [disband_none hG]
      exact h
  | some G =>
      have hd := disband_deleted hG
      have hl := relinked_leaveAll g G.isBGGroup G.memberSlots w
      have hr := refs_leaveAll g G.isBGGroup G.memberSlots h
      have hgroups := hd.groups
      have hplayers := hd.players
      have hraids := hd.bgRaids
      unfold disband at hgroups hplayers hraids ⊢
      rw [hG] at hgroups hplayers hraids ⊢
      dsimp only at hgroups hplayers hraids ⊢
      generalize (List.foldl _ w G.memberSlots) = w₁ at hl hr hgroups hplayers hraids ⊢
      have hG₁ : w₁.groups g = some G := by rw [hl.groups, hG]
      rw [removeAllInvites_eq (groups_modifyGroup_self _ hG₁)] at hgroups hplayers hraids ⊢
      refine hr.cut (g := g) ?_ ?_ ?_ ?_ ?_ (fun b k hb => ?_) ?_
      · split <;> exact List.filter_sublist
      · intro l hmem
        split at hmem
        · simpa using (List.mem_filter.1 hmem).2
        · simpa using (List.mem_filter.1 hmem).2
      · intro k
        rw [hgroups, hl.groups]
      · intro p
        rw [hplayers, clearInvites_connected, hl.players]
      · intro p k hp
        split at hp
        · exact hp
        · have hp' : (if w₁.memberRows p = some g then none else w₁.memberRows p) = some k := hp
          split at hp'
          · cases hp'
          · exact hp'
      · rw [hl.bgRaids]
        exact hraids b k hb
      · rw [nextGroup_deleteGroup]
        have hlen : ((w₁.groupObjects.modify g (Option.map fun G =>
            { G with memberSlots := [] })).modify g (Option.map fun G =>
            { G with invitees := [] })).length = w₁.groupObjects.length := by
          rw [List.length_modify, List.length_modify]
        split
        · exact hlen
        · exact hlen

theorem isMember_modifySlot (guid : P) {f : MemberSlot P → MemberSlot P}
    (hf : ∀ s, (f s).guid = s.guid) (G : Group P) (q : P) :
    (G.modifySlot guid f).isMember q = G.isMember q := by
  unfold Group.modifySlot
  split
  · rfl
  · rename_i i _
    rw [Bool.eq_iff_iff, isMember_iff, isMember_iff]
    have hguids := Lib.map_modify_of_same hf G.memberSlots i
    have hmem : ∀ slots : List (MemberSlot P), (∃ s ∈ slots, s.guid = q) ↔
        q ∈ slots.map MemberSlot.guid := fun slots => List.mem_map.symm
    rw [hmem, hmem, hguids]

theorem isMember_lead (guid : P) (G : Group P) (q : P) :
    (lead guid G).isMember q = G.isMember q := by
  refine (isMember_modifySlot guid (f := fun s => { s with flags := _ }) ?_ _ q).trans ?_
  · exact fun _ => rfl
  · rfl

theorem isBGGroup_modifySlot (guid : P) (f : MemberSlot P → MemberSlot P) (G : Group P) :
    (G.modifySlot guid f).isBGGroup = G.isBGGroup := by
  unfold Group.modifySlot
  split <;> rfl

theorem isBGGroup_lead (guid : P) (G : Group P) : (lead guid G).isBGGroup = G.isBGGroup :=
  isBGGroup_modifySlot guid _ _

theorem refs_changeLeader (h : Refs w) (g : Nat) (guid : P) : Refs (w.changeLeader g guid) := by
  rcases changeLeader_cases w g guid with heq | ⟨G, _, _, _, heq⟩
  · rw [heq]
    exact h
  · rw [heq]
    exact h.write g rfl rfl rfl rfl (fun _ => rfl) fun G _ =>
      ⟨fun q hq => (isMember_lead guid G q).trans hq, isBGGroup_lead guid G⟩

theorem isBGGroup_dropMember (guid : P) (G : Group P) :
    (dropMember guid G).isBGGroup = G.isBGGroup := by
  unfold dropMember Group.eraseSlot
  split <;> rfl

theorem refs_pickLeader (h : Refs w) (g : Nat) : Refs (w.pickLeader g) := by
  rcases pickLeader_cases w g with heq | ⟨leader, heq⟩
  · rw [heq]
    exact h
  · rw [heq]
    exact refs_changeLeader h g leader

/-- The slot goes, and nothing refers to it. -/
theorem refs_drop (h : Refs w) (hG : w.groups g = some G) (hclean : w.LetsGo g G guid)
    (hlarge : G.least < G.getMembersCount) :
    Refs ((w.unlinkMember g G.isBGGroup guid).modifyGroup g (dropMember guid)) := by
  obtain ⟨hobjects, _, _, _⟩ := unlinkMember_frame w g G.isBGGroup guid
  obtain ⟨hr, hnone⟩ := refs_unlinkMember h hclean
  have hG₁ : (w.unlinkMember g G.isBGGroup guid).groups g = some G := by
    unfold groups
    rw [hobjects]
    exact hG
  -- a row for the group is not that of the member
  have hrow : ∀ p, (w.unlinkMember g G.isBGGroup guid).memberRows p = some g → p ≠ guid := by
    intro p hp hpg
    have hbg := ((hr.rows p g hp).2 G hG₁).2
    unfold unlinkMember at hp
    rw [hbg] at hp
    have hp' : Function.update (if w.findConnectedPlayer guid = true then
      w.leaveGroup g false guid else w).memberRows guid none p = some g := hp
    rw [hpg, Function.update_self] at hp'
    cases hp'
  have hleft : (dropMember guid G).memberSlots ≠ [] := by
    have hcount := length_dropMember (G := G) guid
    have hpos := least_pos G
    exact List.ne_nil_of_length_pos (show 0 < (dropMember guid G).getMembersCount by omega)
  generalize w.unlinkMember g G.isBGGroup guid = w₁ at hr hnone hG₁ hrow
  refine hr.of_sub (List.Sublist.refl _) (fun l hmem hl => ?_) (fun _ _ hp => hp)
    (Nat.le_of_eq (List.length_modify _ _ _).symm) (fun p k G' hp _ hG' => ?_)
    fun b k hb => ⟨hb, fun K hK hne => ?_⟩
  · obtain ⟨hp, K, hK, hmember⟩ := hl
    refine ⟨hp, ?_⟩
    rw [groups_modifyGroup]
    split <;> rename_i hk
    · rw [hK]
      refine ⟨dropMember guid K, rfl, ?_⟩
      rw [isMember_dropMember (hnone l hmem hk.symm)]
      exact hmember
    · exact ⟨K, hK, hmember⟩
  · rw [groups_modifyGroup] at hG'
    split at hG' <;> rename_i hk
    · obtain ⟨K, hK, rfl⟩ := Option.map_eq_some_iff.1 hG'
      refine ⟨K, hK, fun hmember => ?_, isBGGroup_dropMember guid K⟩
      rw [isMember_dropMember (hrow p (hk ▸ hp))]
      exact hmember
    · exact ⟨G', hG', id, rfl⟩
  · rw [groups_modifyGroup]
    split <;> rename_i hk
    · rw [← hk, hG₁]
      exact ⟨_, rfl, hleft⟩
    · exact ⟨K, hK, hne⟩

theorem refs_afterDrop (h : Refs w) (hG : w.groups g = some G) (hclean : w.LetsGo g G guid)
    (hlarge : G.least < G.getMembersCount) : Refs (w.afterDrop g G guid) := by
  have hd := refs_drop h hG hclean hlarge
  unfold afterDrop
  dsimp only
  split
  · exact refs_pickLeader hd g
  · exact hd

end World

end Sunstrider.Groups
