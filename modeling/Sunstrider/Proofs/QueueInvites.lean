import Sunstrider.Proofs.QueueCounts

/-!
# Joining a queue and being invited

A group joins with players who hold no slot of the queue, so that none of them is
counted by one of its battlegrounds, and is not invited yet. When it is invited, every
player of the group gets the invitation into his slot and adds one to the counter: the
players of the group and the queue's entries for it are the same, which is what makes
the two sides of the balance grow by the same number.
-/

namespace Sunstrider.Battlegrounds.Population

open Lib

/-! ## Joining -/

/-- What the loop of `AddGroup` does to the queue and the players. -/
structure JoinLoop (q : BattlegroundQueueTypeId) (gid : GroupId) (members : List ObjectGuid)
    (w w' : World) : Prop where
  bgs : w'.bgs = w.bgs
  teleports : w'.teleports = w.teleports
  other : ∀ q', q' ≠ q → w'.queues q' = w.queues q'
  groups : (w'.queues q).groups = (w.queues q).groups
  lookup : ∀ guid, (w'.queues q).queuedPlayers.lookup guid =
    if guid ∈ members then some gid else (w.queues q).queuedPlayers.lookup guid
  count : ∀ p : GroupId → Bool, p gid = false →
    (w'.queues q).queuedPlayers.count (fun _ => p) = (w.queues q).queuedPlayers.count fun _ => p
  player : ∀ guid, w'.players guid =
    if guid ∈ members then (w.players guid).addBattlegroundQueueId q else w.players guid

theorem joinLoop (q : BattlegroundQueueTypeId) (gid : GroupId) (members : List ObjectGuid) :
    ∀ w : World, members.Nodup → (∀ guid ∈ members, ¬ w.IsQueued q guid) →
      JoinLoop q gid members w (members.foldl (World.joinPlayer q gid) w) := by
  induction members with
  | nil =>
      intro w _ _
      exact ⟨rfl, rfl, fun _ _ => rfl, rfl, fun _ => by simp, fun _ _ => rfl, fun _ => by simp⟩
  | cons head rest ih =>
      intro w hnodup hnew
      obtain ⟨hhead, hrest⟩ := List.nodup_cons.1 hnodup
      have hqueue : (World.joinPlayer q gid w head).queues q =
          ⟨(w.queues q).queuedPlayers.insert head gid, (w.queues q).groups⟩ :=
        Function.update_self ..
      have hplayer : ∀ guid, (World.joinPlayer q gid w head).players guid =
          if guid = head then (w.players guid).addBattlegroundQueueId q else w.players guid := by
        intro guid
        show Function.update w.players head _ guid = _
        by_cases heq : guid = head
        · subst heq
          rw [Function.update_self, if_pos rfl]
        · rw [Function.update_of_ne heq, if_neg heq]
      have hnotIn : head ∉ (w.queues q).queuedPlayers := hnew head List.mem_cons_self
      have hloop := ih (World.joinPlayer q gid w head) hrest ?_
      · rw [List.foldl_cons]
        refine ⟨hloop.bgs, hloop.teleports, ?_, ?_, ?_, ?_, ?_⟩
        · intro q' hq'
          rw [hloop.other q' hq']
          exact Function.update_of_ne hq' ..
        · rw [hloop.groups, hqueue]
        · intro guid
          rw [hloop.lookup guid, hqueue]
          by_cases heq : guid = head
          · subst heq
            simp [hhead]
          · rw [AList.lookup_insert_ne heq]
            simp [heq]
        · intro p hp
          rw [hloop.count p hp, hqueue, Ledger.count_insert_of_notMem hnotIn, hp]
          simp
        · intro guid
          rw [hloop.player guid, hplayer guid]
          by_cases heq : guid = head
          · subst heq
            simp [hhead]
          · simp [heq]
      · intro guid hguid
        unfold World.IsQueued
        rw [hqueue, AList.mem_insert, not_or]
        refine ⟨?_, hnew guid (List.mem_cons_of_mem _ hguid)⟩
        rintro rfl
        exact hhead hguid

section Join

variable {w : World} {owed : Nat → Team → Nat} {q : BattlegroundQueueTypeId} {gid : GroupId}
  {members : List ObjectGuid}

variable {guid : ObjectGuid}

theorem mayJoin_iff : mayJoin w q guid = true ↔
    (w.players guid).connected = true ∧ (w.players guid).inQueueForType q = false ∧
      (w.players guid).hasFreeBattlegroundQueueId = true := by
  unfold mayJoin
  simp [and_assoc]

theorem ne_none_of_mayJoin (h : mayJoin w q guid = true) : q ≠ .none := by
  obtain ⟨-, hnot, hfree⟩ := mayJoin_iff.1 h
  rintro rfl
  exact Bool.false_ne_true (hnot.symm.trans hfree)

/-- Without a slot there is no queue and no battleground that counts the player. -/
theorem Placed.free_of_mayJoin (h : Placed w noSlots) (hjoin : mayJoin w q guid = true) :
    ¬ w.IsQueued q guid ∧ ¬ w.IsEngaged q guid := by
  obtain ⟨hconn, hslot, -⟩ := mayJoin_iff.1 hjoin
  rw [← Player.invitation_isSome] at hslot
  refine ⟨fun hq => ?_, ?_⟩
  · obtain ⟨gid, hgid⟩ := World.isQueued_iff.1 hq
    obtain ⟨g, hg, hmem⟩ := (h.member q guid gid).1 hgid
    rw [(h.queued q guid gid g hg hmem).2 id] at hslot
    cases hslot
  · rintro ⟨id', hid, htravel | hinside⟩
    · obtain ⟨q', hq', -, -, hinv⟩ := (h.travel guid id' htravel).found
      rw [hid] at hq'
      rw [← Option.some.inj hq'] at hinv
      rw [hinv fun hf => hf] at hslot
      cases hslot
    · have hsome := ((h.inside id' guid q hid hinside).slot hconn).2 fun hf => hf
      rw [hslot] at hsome
      cases hsome

theorem World.setGroup_groups_self (g : Option GroupQueueInfo) :
    ((w.setGroup q gid g).queues q).groups gid = g := by
  show (Function.update w.queues q _ q).groups gid = g
  rw [Function.update_self]
  exact Function.update_self ..

theorem World.setGroup_groups_ne {gid' : GroupId} (hne : gid' ≠ gid) (g : Option GroupQueueInfo) :
    ((w.setGroup q gid g).queues q).groups gid' = (w.queues q).groups gid' := by
  show (Function.update w.queues q _ q).groups gid' = _
  rw [Function.update_self]
  exact Function.update_of_ne hne ..

theorem World.setGroup_queuedPlayers (g : Option GroupQueueInfo) :
    ((w.setGroup q gid g).queues q).queuedPlayers = (w.queues q).queuedPlayers := by
  show (Function.update w.queues q _ q).queuedPlayers = _
  rw [Function.update_self]

theorem World.setGroup_queues_ne {q' : BattlegroundQueueTypeId} (hne : q' ≠ q)
    (g : Option GroupQueueInfo) : (w.setGroup q gid g).queues q' = w.queues q' :=
  Function.update_of_ne hne ..

/-- A group as `AddGroup` makes it. -/
theorem groupPlaced_new {w' : World} {g : GroupQueueInfo} (hq : q ≠ .none)
    (htype : g.bgTypeId = bgTemplateId q) (harena : g.arenaType = bgArenaType q)
    (hinvited : g.isInvitedToBGInstanceGUID = 0) (hbracket : g.bracketId < maxBattlegroundBrackets)
    (hlist : g.listIndex = GroupQueueInfo.teamIndex g.team ∨
      g.listIndex = GroupQueueInfo.teamIndex g.team + 2) : GroupPlaced w' q g := by
  refine ⟨?_, htype, ?_, hq, fun hne => absurd hinvited hne⟩
  · unfold GroupQueueInfo.isListed
    simpa [hbracket] using hlist
  · unfold GroupQueueInfo.queueType
    rw [htype, harena, bgQueueTypeId_template]

variable {hnodup : members.Nodup} {team : Team} {isRated isPremade : Bool} {bracketId : Nat}

theorem addGroup_spec (h : Placed w noSlots) (hc : Counted w owed) (hne : members ≠ [])
    (hfresh : (w.queues q).groups gid = none) (hbracket : bracketId < maxBattlegroundBrackets)
    (hjoin : ∀ guid ∈ members, mayJoin w q guid = true) :
    Placed (w.addGroup q gid members hnodup team isRated isPremade bracketId) noSlots ∧
      Counted (w.addGroup q gid members hnodup team isRated isPremade bracketId) owed := by
  obtain ⟨first, hfirst⟩ := List.exists_mem_of_ne_nil members hne
  have hq : q ≠ .none := ne_none_of_mayJoin (hjoin first hfirst)
  have hfree := fun guid hguid => h.free_of_mayJoin (hjoin guid hguid)
  unfold World.addGroup
  simp only []
  generalize hgroup : GroupQueueInfo.mk (members.insertionSort (· ≤ ·)) _ team (bgTemplateId q)
    isRated (bgArenaType q) 0 0 bracketId _ = g
  have hplayers : ∀ guid, guid ∈ g.players ↔ guid ∈ members := by
    intro guid
    rw [← hgroup]
    exact (List.perm_insertionSort _ members).mem_iff
  have hzero : g.isInvitedToBGInstanceGUID = 0 := by rw [← hgroup]
  have hloop := joinLoop q gid members (w.setGroup q gid (some g)) hnodup fun guid hguid => by
    unfold World.IsQueued
    rw [World.setGroup_queuedPlayers]
    exact (hfree guid hguid).1
  generalize members.foldl (World.joinPlayer q gid) (w.setGroup q gid (some g)) = w' at hloop
  have hplayer : ∀ guid, w'.players guid =
      if guid ∈ members then (w.players guid).addBattlegroundQueueId q else w.players guid :=
    hloop.player
  have hinv : ∀ guid q', q' ≠ .none → (guid ∈ members → q' ≠ q) →
      (w'.players guid).invitation q' = (w.players guid).invitation q' := by
    intro guid q' hq' hother
    rw [hplayer guid]
    split <;> rename_i hguid
    · exact Player.invitation_add_ne (hother hguid) hq'
    · rfl
  have k : Kept w w' := by
    refine ⟨fun id => by rw [hloop.bgs]; rfl, hloop.teleports, fun guid => ?_⟩
    rw [hplayer guid]
    split
    · exact ⟨_, rfl⟩
    · exact ⟨_, rfl⟩
  have hgroups : ∀ q' gid', (w'.queues q').groups gid' =
      if q' = q ∧ gid' = gid then some g else (w.queues q').groups gid' := by
    intro q' gid'
    by_cases hq' : q' = q
    · subst hq'
      rw [hloop.groups]
      by_cases hgid : gid' = gid
      · rw [if_pos ⟨rfl, hgid⟩, hgid, World.setGroup_groups_self]
      · rw [if_neg fun hboth => hgid hboth.2, World.setGroup_groups_ne hgid]
    · rw [if_neg fun hboth => hq' hboth.1, hloop.other q' hq', World.setGroup_queues_ne hq']
  have hlookup : ∀ q' guid, (w'.queues q').queuedPlayers.lookup guid =
      if q' = q ∧ guid ∈ members then some gid else (w.queues q').queuedPlayers.lookup guid := by
    intro q' guid
    by_cases hq' : q' = q
    · subst hq'
      rw [hloop.lookup guid, World.setGroup_queuedPlayers]
      simp
    · rw [if_neg fun hboth => hq' hboth.1, hloop.other q' hq', World.setGroup_queues_ne hq']
  have hqueued : ∀ q' guid, w'.IsQueued q' guid → w.IsQueued q' guid ∨ q' = q ∧ guid ∈ members := by
    intro q' guid hin
    obtain ⟨gid', hgid'⟩ := World.isQueued_iff.1 hin
    rw [hlookup] at hgid'
    split at hgid' <;> rename_i hnew
    · exact .inr hnew
    · exact .inl (World.isQueued_iff.2 ⟨gid', hgid'⟩)
  refine ⟨h.keep k ?_ ?_ ?_ ?_ ?_, ?_⟩
  · intro q' guid gid'
    rw [hlookup]
    simp only [hgroups]
    by_cases hq' : q' = q
    · subst hq'
      by_cases hguid : guid ∈ members
      · rw [if_pos ⟨rfl, hguid⟩, Option.some.injEq]
        refine ⟨?_, ?_⟩
        · rintro rfl
          exact ⟨g, if_pos ⟨rfl, rfl⟩, (hplayers guid).2 hguid⟩
        · rintro ⟨g', hg', hmem⟩
          split at hg' <;> rename_i hgid
          · exact hgid.2.symm
          · exact absurd (World.isQueued_iff.2 ⟨gid', (h.member q' guid gid').2 ⟨g', hg', hmem⟩⟩)
              (hfree guid hguid).1
      · rw [if_neg fun hboth => hguid hboth.2, h.member q' guid gid']
        by_cases hgid : gid' = gid
        · subst hgid
          simp [hfresh, hplayers, hguid]
        · simp [hgid]
    · rw [if_neg fun hboth => hq' hboth.1, h.member q' guid gid']
      simp [hq']
  · intro q' gid' g' hg'
    rw [hgroups] at hg'
    split at hg' <;> rename_i hnew
    · obtain ⟨rfl, -⟩ := hnew
      obtain rfl := Option.some.inj hg'
      refine groupPlaced_new hq ?_ ?_ hzero ?_ ?_ <;> rw [← hgroup]
      · exact hbracket
      · show (if _ then 2 else 0) + GroupQueueInfo.teamIndex team = _ ∨ _
        split
        · exact .inr (Nat.add_comm ..)
        · exact .inl (Nat.zero_add _)
    · exact (h.group q' gid' g' hg').of_kept k
  · intro q' guid gid' g' hg' hmem
    rw [k.connected]
    rw [hgroups] at hg'
    split at hg' <;> rename_i hnew
    · obtain ⟨rfl, -⟩ := hnew
      obtain rfl := Option.some.inj hg'
      have hguid := (hplayers guid).1 hmem
      obtain ⟨hconn, -, hslot⟩ := mayJoin_iff.1 (hjoin guid hguid)
      refine ⟨hconn, fun _ => ?_⟩
      rw [hplayer guid, if_pos hguid, hzero]
      exact Player.invitation_add_self hslot
    · obtain ⟨hconn, hslot⟩ := h.queued q' guid gid' g' hg' hmem
      refine ⟨hconn, fun hopen => ?_⟩
      rw [hinv guid q' (h.group q' gid' g' hg').queue_ne]
      · exact hslot hopen
      · rintro hguid rfl
        exact (hfree guid hguid).1
          (World.isQueued_iff.2 ⟨gid', (h.member q' guid gid').2 ⟨g', hg', hmem⟩⟩)
  · intro guid q' hq' he _
    refine ⟨fun hin => ?_, fun _ => ⟨fun hf => hf, hinv guid q' hq' ?_⟩⟩
    · obtain hold | ⟨rfl, hguid⟩ := hqueued q' guid hin
      · exact h.not_queued_of_engaged he hold
      · exact (hfree guid hguid).2 he
    · rintro hguid rfl
      exact (hfree guid hguid).2 he
  · intro q' guid hin
    obtain hold | ⟨rfl, hguid⟩ := hqueued q' guid hin
    · exact h.queued_connected hold
    · exact (mayJoin_iff.1 (hjoin guid hguid)).1
  · have hqueue : ∀ id bg team', w.bgs id = some bg →
        w'.invitedInQueue bg.queueType id team' = w.invitedInQueue bg.queueType id team' := by
      intro id bg team' hbg
      have hid := (h.bg id bg hbg).1
      unfold World.invitedInQueue
      by_cases hq' : bg.queueType = q
      · rw [hq', hloop.count, World.setGroup_queuedPlayers]
        · refine Ledger.count_congr fun guid gid' hin => ?_
          unfold BattlegroundQueue.isInvited
          rw [hgroups, if_neg]
          rintro ⟨-, rfl⟩
          obtain ⟨g', hg', -⟩ := (h.member q guid gid').1 hin
          rw [hfresh] at hg'
          cases hg'
        · unfold BattlegroundQueue.isInvited
          rw [hgroups, if_pos ⟨rfl, rfl⟩, Option.any_some, hzero]
          simp [hid.symm]
      · rw [hloop.other _ hq', World.setGroup_queues_ne hq']
    refine ⟨?_, ?_, ?_⟩
    · intro id bg hbg team'
      have hbg' : w.bgs id = some bg := by rw [← hbg, hloop.bgs]; rfl
      rw [hqueue id bg team' hbg', k.travelling]
      exact hc.invited id bg hbg' team'
    · intro id bg hbg
      exact hc.playersCount id bg (by rw [← hbg, hloop.bgs]; rfl)
    · intro id bg hbg
      exact hc.wrapped id bg (by rw [← hbg, hloop.bgs]; rfl)

end Join

/-! ## Invitations -/

/-- What the loop of `InviteGroupToBG` does to the battleground and the players. -/
structure InviteLoop (id : Nat) (team : Team) (bg : Battleground) (players : List ObjectGuid)
    (w w' : World) : Prop where
  queues : w'.queues = w.queues
  teleports : w'.teleports = w.teleports
  bgs_ne : ∀ id', id' ≠ id → w'.bgs id' = w.bgs id'
  bgs_self : ∃ bg', w'.bgs id = some bg' ∧ bg'.typeID = bg.typeID ∧
    bg'.arenaType = bg.arenaType ∧ bg'.players = bg.players ∧
    bg'.playersCount = bg.playersCount ∧ bg'.wrapped = bg.wrapped ∧
    ∀ t, bg'.getInvitedCount t = bg.getInvitedCount t + if t = team then players.length else 0
  player : ∀ guid, w'.players guid =
    if guid ∈ players then
      (w.players guid).setInviteForBattlegroundQueueType bg.queueType id
    else w.players guid

theorem inviteLoop (id : Nat) (team : Team) (players : List ObjectGuid) :
    ∀ (w : World) (bg : Battleground), players.Nodup → w.bgs id = some bg →
      (∀ guid ∈ players, (w.players guid).connected = true) →
      InviteLoop id team bg players w (players.foldl (World.invitePlayer id team) w) := by
  induction players with
  | nil =>
      intro w bg _ hbg _
      exact ⟨rfl, rfl, fun _ _ => rfl, ⟨bg, hbg, rfl, rfl, rfl, rfl, rfl, fun _ => by simp⟩,
        fun _ => by simp⟩
  | cons head rest ih =>
      intro w bg hnodup hbg hconn
      obtain ⟨hhead, hrest⟩ := List.nodup_cons.1 hnodup
      have hstep : World.invitePlayer id team w head =
          (w.setBg id (bg.increaseInvitedCount team)).setPlayer head
            ((w.players head).setInviteForBattlegroundQueueType bg.queueType id) := by
        unfold World.invitePlayer
        simp only [hbg, hconn head List.mem_cons_self, if_true]
      have hqueue : (bg.increaseInvitedCount team).queueType = bg.queueType := by
        unfold Battleground.queueType
        rw [Battleground.increaseInvitedCount_typeID, Battleground.increaseInvitedCount_arenaType]
      have hplayer : ∀ guid, (World.invitePlayer id team w head).players guid =
          if guid = head then
            (w.players guid).setInviteForBattlegroundQueueType bg.queueType id
          else w.players guid := by
        intro guid
        rw [hstep]
        show Function.update w.players head _ guid = _
        by_cases heq : guid = head
        · subst heq
          rw [Function.update_self, if_pos rfl]
        · rw [Function.update_of_ne heq, if_neg heq]
      have hbg' : (World.invitePlayer id team w head).bgs id =
          some (bg.increaseInvitedCount team) := by
        rw [hstep]
        exact Function.update_self ..
      have hloop := ih (World.invitePlayer id team w head) (bg.increaseInvitedCount team) hrest hbg' ?_
      · rw [List.foldl_cons]
        obtain ⟨bg', hself, htype, harena, hplayers, hcount, hwrapped, hinvited⟩ := hloop.bgs_self
        refine ⟨?_, ?_, ?_, ⟨bg', hself, ?_, ?_, ?_, ?_, ?_, ?_⟩, ?_⟩
        · rw [hloop.queues, hstep]
          rfl
        · rw [hloop.teleports, hstep]
          rfl
        · intro id' hid'
          rw [hloop.bgs_ne id' hid', hstep]
          exact Function.update_of_ne hid' ..
        · rw [htype, Battleground.increaseInvitedCount_typeID]
        · rw [harena, Battleground.increaseInvitedCount_arenaType]
        · rw [hplayers, Battleground.increaseInvitedCount_players]
        · rw [hcount, Battleground.increaseInvitedCount_playersCount]
        · rw [hwrapped, Battleground.increaseInvitedCount_wrapped]
        · intro t
          rw [hinvited t, bg.getInvitedCount_increase team t, List.length_cons]
          split <;> omega
        · intro guid
          rw [hloop.player guid, hplayer guid, hqueue]
          by_cases heq : guid = head
          · subst heq
            simp [hhead]
          · simp [heq]
      · intro guid hguid
        rw [hplayer guid]
        split
        · exact hconn guid (List.mem_cons_of_mem _ hguid)
        · exact hconn guid (List.mem_cons_of_mem _ hguid)

section Invite

variable {w : World} {owed : Nat → Team → Nat} {q : BattlegroundQueueTypeId} {gid : GroupId}
  {g : GroupQueueInfo}

variable {g' : GroupQueueInfo} {opened : Slots} {id : Nat}

/-- The group record is replaced by one with the same players. -/
theorem setGroup_groups_iff (hg : (w.queues q).groups gid = some g)
    (hplayers : g'.players = g.players) (q' : BattlegroundQueueTypeId) (gid' : GroupId)
    (guid : ObjectGuid) :
    (∃ x, ((w.setGroup q gid (some g')).queues q').groups gid' = some x ∧ guid ∈ x.players) ↔
      ∃ x, (w.queues q').groups gid' = some x ∧ guid ∈ x.players := by
  by_cases hq : q' = q
  · subst hq
    by_cases hgid : gid' = gid
    · subst hgid
      rw [World.setGroup_groups_self, hg]
      simp [hplayers]
    · rw [World.setGroup_groups_ne hgid]
  · rw [World.setGroup_queues_ne hq]

theorem setGroup_lookup (g' : Option GroupQueueInfo) (q' : BattlegroundQueueTypeId) :
    ((w.setGroup q gid g').queues q').queuedPlayers = (w.queues q').queuedPlayers := by
  by_cases hq : q' = q
  · subst hq
    exact World.setGroup_queuedPlayers g'
  · rw [World.setGroup_queues_ne hq]

theorem Kept.setGroup (g' : Option GroupQueueInfo) : Kept w (w.setGroup q gid g') :=
  Kept.of_players (fun _ => rfl) rfl rfl

/-- A group record is replaced by one that is invited, or not, in the same way. -/
theorem setGroup_spec (h : Placed w opened) (hc : Counted w owed)
    (hg : (w.queues q).groups gid = some g) (hplayers : g'.players = g.players)
    (hinvited : g'.isInvitedToBGInstanceGUID = g.isInvitedToBGInstanceGUID)
    (hteam : g.isInvitedToBGInstanceGUID = 0 ∨ g'.team = g.team) (hg' : GroupPlaced w q g') :
    Placed (w.setGroup q gid (some g')) opened ∧ Counted (w.setGroup q gid (some g')) owed := by
  have k : Kept w (w.setGroup q gid (some g')) := Kept.setGroup _
  have hqueued : ∀ q' guid, (w.setGroup q gid (some g')).IsQueued q' guid ↔ w.IsQueued q' guid := by
    intro q' guid
    unfold World.IsQueued
    rw [setGroup_lookup]
  refine ⟨h.keep k ?_ ?_ ?_ ?_ ?_, ?_⟩
  · intro q' guid gid'
    rw [setGroup_lookup, setGroup_groups_iff hg hplayers]
    exact h.member q' guid gid'
  · intro q' gid' x hx
    by_cases hq : q' = q
    · subst hq
      by_cases hgid : gid' = gid
      · subst hgid
        rw [World.setGroup_groups_self] at hx
        exact Option.some.inj hx ▸ hg'.of_kept k
      · rw [World.setGroup_groups_ne hgid] at hx
        exact (h.group q' gid' x hx).of_kept k
    · rw [World.setGroup_queues_ne hq] at hx
      exact (h.group q' gid' x hx).of_kept k
  · intro q' guid gid' x hx hmem
    by_cases hsame : q' = q ∧ gid' = gid
    · obtain ⟨rfl, rfl⟩ := hsame
      rw [World.setGroup_groups_self] at hx
      obtain rfl := Option.some.inj hx
      rw [hinvited]
      exact h.queued q' guid gid' g hg (hplayers ▸ hmem)
    · refine h.queued q' guid gid' x ?_ hmem
      by_cases hq : q' = q
      · subst hq
        rwa [World.setGroup_groups_ne fun heq => hsame ⟨rfl, heq⟩] at hx
      · rwa [World.setGroup_queues_ne hq] at hx
  · intro guid q' _ he _
    exact ⟨fun hin => h.not_queued_of_engaged he ((hqueued q' guid).1 hin),
      fun hopen => ⟨hopen, rfl⟩⟩
  · exact fun q' guid hin => h.queued_connected ((hqueued q' guid).1 hin)
  · refine ⟨?_, hc.playersCount, hc.wrapped⟩
    intro id bg hbg team
    have hid := (h.bg id bg hbg).1
    have hqueue : (w.setGroup q gid (some g')).invitedInQueue bg.queueType id team =
        w.invitedInQueue bg.queueType id team := by
      unfold World.invitedInQueue
      rw [setGroup_lookup]
      refine Ledger.count_congr fun guid gid' _ => ?_
      unfold BattlegroundQueue.isInvited
      by_cases hq : bg.queueType = q
      · rw [hq]
        by_cases hgid : gid' = gid
        · subst hgid
          rw [World.setGroup_groups_self, hg, Option.any_some, Option.any_some, hinvited]
          rcases hteam with hzero | hteam
          · rw [hzero, beq_eq_false_iff_ne.2 hid.symm, Bool.false_and, Bool.false_and]
          · rw [hteam]
        · rw [World.setGroup_groups_ne hgid]
      · rw [World.setGroup_queues_ne hq]
    rw [hqueue, k.travelling]
    exact hc.invited id bg hbg team

theorem isListed_iff (g : GroupQueueInfo) : g.isListed = true ↔
    g.bracketId < maxBattlegroundBrackets ∧
      (g.listIndex = GroupQueueInfo.teamIndex g.team ∨
        g.listIndex = GroupQueueInfo.teamIndex g.team + 2) := by
  simp [GroupQueueInfo.isListed]

/-- In the other team's list a group is listed for the other team. -/
theorem GroupPlaced.move (hg : GroupPlaced w q g) (side : Team) :
    GroupPlaced w q
      { g with
        team := side
        listIndex :=
          g.listIndex - GroupQueueInfo.teamIndex g.team + GroupQueueInfo.teamIndex side } := by
  refine ⟨?_, hg.typeId, hg.queueType, hg.queue_ne, hg.invited⟩
  obtain ⟨hbracket, hlist⟩ := (isListed_iff g).1 hg.listed
  refine (isListed_iff _).2 ⟨hbracket, ?_⟩
  show g.listIndex - _ + GroupQueueInfo.teamIndex side = GroupQueueInfo.teamIndex side ∨
    g.listIndex - _ + GroupQueueInfo.teamIndex side = GroupQueueInfo.teamIndex side + 2
  omega

theorem moveToList_spec (h : Placed w opened) (hc : Counted w owed) (side : Team) :
    Placed (w.moveToList q gid side true) opened ∧ Counted (w.moveToList q gid side true) owed := by
  unfold World.moveToList
  cases hg : (w.queues q).groups gid with
  | none => exact ⟨h, hc⟩
  | some g =>
      simp only [if_true]
      split <;> rename_i hmove
      · refine setGroup_spec h hc hg rfl rfl (.inl hmove.1) ?_
        exact (h.group q gid g hg).move side
      · exact ⟨h, hc⟩

/-- The queue has an entry for each player of the group and no other for the group. -/
theorem count_group (h : Placed w opened) (hg : (w.queues q).groups gid = some g) :
    (Ledger.count (w.queues q).queuedPlayers fun _ gid' => gid' == gid) = g.players.length := by
  refine Ledger.count_eq_length g.nodup fun guid => ?_
  refine ⟨fun hmem => ⟨gid, (h.member q guid gid).2 ⟨g, hg, hmem⟩, beq_self_eq_true gid⟩, ?_⟩
  rintro ⟨gid', hlookup, heq⟩
  obtain rfl := eq_of_beq heq
  obtain ⟨g', hg', hmem⟩ := (h.member q guid gid').1 hlookup
  rw [hg] at hg'
  exact Option.some.inj hg' ▸ hmem

/-- A group that was not invited is: the queue's invited players grow by its players. -/
theorem invitedInQueue_setGroup (h : Placed w opened) (hg : (w.queues q).groups gid = some g)
    (hzero : g.isInvitedToBGInstanceGUID = 0) (hteam : g'.team = g.team) (hid : id ≠ 0)
    (team : Team) :
    (w.setGroup q gid (some g')).invitedInQueue q id team =
      w.invitedInQueue q id team +
        if id = g'.isInvitedToBGInstanceGUID ∧ team = g.team then g.players.length else 0 := by
  let target : Bool := decide (id = g'.isInvitedToBGInstanceGUID ∧ team = g.team)
  have hpoint : ∀ gid', ((w.setGroup q gid (some g')).queues q).isInvited id team gid' =
      ((w.queues q).isInvited id team gid' || (gid' == gid && target)) ∧
      ((w.queues q).isInvited id team gid' && (gid' == gid && target)) = false := by
    intro gid'
    unfold BattlegroundQueue.isInvited
    by_cases hgid : gid' = gid
    · subst hgid
      rw [World.setGroup_groups_self, hg, Option.any_some, Option.any_some, hzero, hteam,
        beq_eq_false_iff_ne.2 hid.symm, beq_self_eq_true, Bool.false_and, Bool.false_or,
        Bool.true_and, Bool.false_and]
      refine ⟨?_, rfl⟩
      rw [Bool.eq_iff_iff, Bool.and_eq_true, beq_iff_eq, beq_iff_eq, decide_eq_true_iff]
      exact ⟨fun hb => ⟨hb.1.symm, hb.2.symm⟩, fun hb => ⟨hb.1.symm, hb.2.symm⟩⟩
    · rw [World.setGroup_groups_ne hgid, beq_eq_false_iff_ne.2 hgid, Bool.false_and,
        Bool.or_false, Bool.and_false]
      exact ⟨rfl, rfl⟩
  have hsum : (w.setGroup q gid (some g')).invitedInQueue q id team =
      Ledger.weigh (w.queues q).queuedPlayers fun _ gid' =>
        ((w.queues q).isInvited id team gid').toNat + (gid' == gid && target).toNat := by
    unfold World.invitedInQueue Ledger.count
    rw [setGroup_lookup]
    refine Ledger.weigh_congr fun _ gid' _ => ?_
    obtain ⟨hor, hand⟩ := hpoint gid'
    show (((w.setGroup q gid (some g')).queues q).isInvited id team gid').toNat = _
    rw [hor]
    revert hand
    cases (w.queues q).isInvited id team gid' <;> cases gid' == gid && target <;> simp
  rw [hsum, Ledger.weigh_add]
  congr 1
  by_cases htarget : id = g'.isInvitedToBGInstanceGUID ∧ team = g.team
  · rw [if_pos htarget, ← count_group h hg]
    refine Ledger.weigh_congr fun _ gid' _ => ?_
    rw [show target = true from decide_eq_true htarget, Bool.and_true]
  · rw [if_neg htarget]
    refine Ledger.weigh_eq_zero fun _ gid' _ => ?_
    rw [show target = false from decide_eq_false htarget, Bool.and_false]
    rfl

/-- `InviteGroupToBG` for the group's own team. -/
theorem inviteGroupToBG_spec (h : Placed w noSlots) (hc : Counted w owed)
    (hg : (w.queues q).groups gid = some g) {bg : Battleground} (hbg : w.bgs id = some bg)
    (hq : bg.queueType = q) (now : Nat) :
    Placed (w.inviteGroupToBG q gid id (some g.team) now) noSlots ∧
      Counted (w.inviteGroupToBG q gid id (some g.team) now) owed := by
  have hgroup := h.group q gid g hg
  have hid := (h.bg id bg hbg).1
  unfold World.inviteGroupToBG
  simp only [hg, Option.getD_some]
  split <;> rename_i hzero
  · generalize hnew : GroupQueueInfo.mk g.players g.nodup g.team g.bgTypeId g.isRated g.arenaType
      (now + inviteAcceptWaitTime) id g.bracketId g.listIndex = g'
    have hplayers : g'.players = g.players := by rw [← hnew]
    have hteam : g'.team = g.team := by rw [← hnew]
    have htarget : g'.isInvitedToBGInstanceGUID = id := by rw [← hnew]
    have hconn : ∀ guid ∈ g.players, (w.players guid).connected = true :=
      fun guid hmem => (h.queued q guid gid g hg hmem).1
    have hloop := inviteLoop id g.team g.players (w.setGroup q gid (some g')) bg g.nodup hbg hconn
    generalize g.players.foldl (World.invitePlayer id g.team) (w.setGroup q gid (some g')) = w'
      at hloop
    obtain ⟨bg', hself, htype, harena, hinside, hcount, hwrapped, hinvited⟩ := hloop.bgs_self
    have hplayer : ∀ guid, w'.players guid =
        if guid ∈ g.players then (w.players guid).setInviteForBattlegroundQueueType q id
        else w.players guid := by
      intro guid
      rw [← hq]
      exact hloop.player guid
    have hinv : ∀ guid q', (guid ∈ g.players → q' ≠ q) →
        (w'.players guid).invitation q' = (w.players guid).invitation q' := by
      intro guid q' hother
      rw [hplayer guid]
      split <;> rename_i hmem
      · exact Player.invitation_setInvite_ne (hother hmem) id
      · rfl
    have hsame : World.SameBgs w w' := by
      intro id'
      by_cases hid' : id' = id
      · subst hid'
        rw [hself, hbg, Option.map_some, Option.map_some, htype, harena, hinside]
      · rw [hloop.bgs_ne id' hid']
        rfl
    have k : Kept w w' := by
      refine ⟨hsame, hloop.teleports, fun guid => ?_⟩
      rw [hplayer guid]
      split
      · exact ⟨_, rfl⟩
      · exact ⟨_, rfl⟩
    have hqueued : ∀ q' guid, w'.IsQueued q' guid ↔ w.IsQueued q' guid := by
      intro q' guid
      unfold World.IsQueued
      rw [hloop.queues, setGroup_lookup]
    have hmemq : ∀ guid ∈ g.players, w.IsQueued q guid := fun guid hmem =>
      World.isQueued_iff.2 ⟨gid, (h.member q guid gid).2 ⟨g, hg, hmem⟩⟩
    refine ⟨h.keep k ?_ ?_ ?_ ?_ ?_, ?_, ?_, ?_⟩
    · intro q' guid gid'
      rw [hloop.queues, setGroup_lookup, setGroup_groups_iff hg hplayers]
      exact h.member q' guid gid'
    · intro q' gid' x hx
      rw [hloop.queues] at hx
      by_cases hsameGroup : q' = q ∧ gid' = gid
      · obtain ⟨rfl, rfl⟩ := hsameGroup
        rw [World.setGroup_groups_self] at hx
        obtain rfl := Option.some.inj hx
        refine ⟨?_, ?_, ?_, hgroup.queue_ne, fun _ => ?_⟩
        · rw [← hnew]
          exact hgroup.listed
        · rw [← hnew]
          exact hgroup.typeId
        · rw [← hnew]
          exact hgroup.queueType
        · rw [htarget, k.bgs.queueOf, World.queueOf_eq hbg, hq]
      · by_cases hq' : q' = q
        · subst hq'
          rw [World.setGroup_groups_ne fun heq => hsameGroup ⟨rfl, heq⟩] at hx
          exact (h.group q' gid' x hx).of_kept k
        · rw [World.setGroup_queues_ne hq'] at hx
          exact (h.group q' gid' x hx).of_kept k
    · intro q' guid gid' x hx hmem
      rw [k.connected]
      rw [hloop.queues] at hx
      by_cases hsameGroup : q' = q ∧ gid' = gid
      · obtain ⟨rfl, rfl⟩ := hsameGroup
        rw [World.setGroup_groups_self] at hx
        obtain rfl := Option.some.inj hx
        have hmem' : guid ∈ g.players := hplayers ▸ hmem
        obtain ⟨hc', hslot⟩ := h.queued q' guid gid' g hg hmem'
        refine ⟨hc', fun hopen => ?_⟩
        rw [hplayer guid, if_pos hmem', htarget]
        exact Player.invitation_setInvite_self id (by rw [hslot hopen]; rfl)
      · have hx' : (w.queues q').groups gid' = some x := by
          by_cases hq' : q' = q
          · subst hq'
            rwa [World.setGroup_groups_ne fun heq => hsameGroup ⟨rfl, heq⟩] at hx
          · rwa [World.setGroup_queues_ne hq'] at hx
        obtain ⟨hc', hslot⟩ := h.queued q' guid gid' x hx' hmem
        refine ⟨hc', fun hopen => ?_⟩
        rw [hinv guid q', hslot hopen]
        rintro hmem' rfl
        have h1 := (h.member q' guid gid').2 ⟨x, hx', hmem⟩
        have h2 := (h.member q' guid gid).2 ⟨g, hg, hmem'⟩
        exact hsameGroup ⟨rfl, Option.some.inj (h1.symm.trans h2)⟩
    · intro guid q' _ he _
      refine ⟨fun hin => h.not_queued_of_engaged he ((hqueued q' guid).1 hin), fun _ =>
        ⟨fun hf => hf, hinv guid q' ?_⟩⟩
      rintro hmem rfl
      exact h.not_queued_of_engaged he (hmemq guid hmem)
    · exact fun q' guid hin => h.queued_connected ((hqueued q' guid).1 hin)
    · intro id' bg'' hbg'' team
      rw [k.travelling]
      by_cases hid' : id' = id
      · subst hid'
        obtain rfl := Option.some.inj (hself.symm.trans hbg'')
        have hqueue : bg'.queueType = q := by
          rw [← hq]
          unfold Battleground.queueType
          rw [htype, harena]
        have hcounts := invitedInQueue_setGroup h hg hzero hteam hid team
        have hold := hc.invited id' bg hbg team
        have hqueues : w'.invitedInQueue q id' team =
            (w.setGroup q gid (some g')).invitedInQueue q id' team := by
          unfold World.invitedInQueue
          rw [hloop.queues]
        have hin : bg'.inside team = bg.inside team := by
          unfold Battleground.inside
          rw [hinside]
        rw [hinvited team, hqueue, hqueues, hin, hcounts, htarget]
        rw [hq] at hold
        simp only [true_and]
        omega
      · have hbgold : w.bgs id' = some bg'' := by
          rw [← hbg'', hloop.bgs_ne id' hid']
          rfl
        have hold := hc.invited id' bg'' hbgold team
        have hqueues : w'.invitedInQueue bg''.queueType id' team =
            w.invitedInQueue bg''.queueType id' team := by
          have hcongr : w'.invitedInQueue bg''.queueType id' team =
              (w.setGroup q gid (some g')).invitedInQueue bg''.queueType id' team := by
            unfold World.invitedInQueue
            rw [hloop.queues]
          rw [hcongr]
          by_cases hq' : bg''.queueType = q
          · rw [hq', invitedInQueue_setGroup h hg hzero hteam (h.bg id' bg'' hbgold).1 team,
              if_neg fun hb => hid' (hb.1.trans htarget), Nat.add_zero]
          · unfold World.invitedInQueue
            rw [World.setGroup_queues_ne hq']
        rw [hqueues]
        exact hold
    · intro id' bg'' hbg'' team
      by_cases hid' : id' = id
      · subst hid'
        obtain rfl := Option.some.inj (hself.symm.trans hbg'')
        rw [hcount]
        unfold Battleground.inside
        rw [hinside]
        exact hc.playersCount id' bg hbg team
      · rw [hloop.bgs_ne id' hid'] at hbg''
        exact hc.playersCount id' bg'' hbg'' team
    · intro id' bg'' hbg''
      by_cases hid' : id' = id
      · subst hid'
        obtain rfl := Option.some.inj (hself.symm.trans hbg'')
        rw [hwrapped]
        exact hc.wrapped id' bg hbg
      · rw [hloop.bgs_ne id' hid'] at hbg''
        exact hc.wrapped id' bg'' hbg''
  · exact setGroup_spec h hc hg rfl rfl (.inr rfl) hgroup

theorem World.setGroup_setGroup (x y : Option GroupQueueInfo) :
    (w.setGroup q gid x).setGroup q gid y = w.setGroup q gid y := by
  unfold World.setGroup World.setQueue
  simp only [Function.update_self, Function.update_idem]

/-- Moved first and set for the side with the invitation, or set for the side at once. -/
theorem inviteGroupToBG_moveToList (hg : (w.queues q).groups gid = some g)
    (hzero : g.isInvitedToBGInstanceGUID = 0) (side : Team) (id now : Nat) :
    (w.moveToList q gid side false).inviteGroupToBG q gid id (some side) now =
      (w.moveToList q gid side true).inviteGroupToBG q gid id (some side) now := by
  by_cases hside : g.team = side
  · have hsame : ∀ b, w.moveToList q gid side b = w := by
      intro b
      unfold World.moveToList
      simp [hg, hside]
    rw [hsame, hsame]
  · unfold World.moveToList
    simp only [hg, hzero, true_and, ne_eq, hside, not_false_eq_true, if_true, if_false,
      Bool.false_eq_true]
    unfold World.inviteGroupToBG
    simp only [World.setGroup_groups_self, World.setGroup_setGroup, if_true,
      Option.getD_some]

theorem inviteRated_spec (h : Placed w noSlots) (hc : Counted w owed) {bg : Battleground}
    (hbg : w.bgs id = some bg) (hq : bg.queueType = q) (side : Team) (now : Nat) :
    Placed (w.inviteRated q gid id side now) noSlots ∧
      Counted (w.inviteRated q gid id side now) owed := by
  unfold World.inviteRated
  cases hg : (w.queues q).groups gid with
  | none => exact ⟨h, hc⟩
  | some g =>
      simp only []
      split <;> rename_i hzero
      · rw [inviteGroupToBG_moveToList hg hzero]
        obtain ⟨hmoved, hcmoved⟩ := moveToList_spec (q := q) h hc side
        have hteam : ∃ g', ((w.moveToList q gid side true).queues q).groups gid = some g' ∧
            g'.team = side := by
          unfold World.moveToList
          by_cases hside : g.team = side
          · simp [hg, hside]
          · simp [hg, hzero, hside, World.setGroup_groups_self]
        have hbg' : (w.moveToList q gid side true).bgs id = some bg := by
          rw [← hbg]
          unfold World.moveToList
          split
          · rfl
          · split <;> rfl
        obtain ⟨g', hg', rfl⟩ := hteam
        exact inviteGroupToBG_spec hmoved hcmoved hg' hbg' hq now
      · exact ⟨h, hc⟩

end Invite

end Sunstrider.Battlegrounds.Population
