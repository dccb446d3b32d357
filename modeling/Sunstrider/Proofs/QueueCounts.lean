import Sunstrider.Proofs.QueuePlaces

/-!
# The counters while a queue is worked on

`Counted` is the balance of a battleground: an invitation is held by a player in the
queue, by one who is travelling or by one inside, and `owed` are the invitations nobody
holds for the moment, between the end of the queue and the beginning of the journey.
With `Placed` it is kept by everything a queue does: a player who leaves, a rated group
that leaves with him, a group that joins, moves or is invited.
-/

namespace Sunstrider.Battlegrounds.Population

open Lib

variable {w : World} {owed : Nat → Team → Nat}

/-- The group is invited to the battleground, for the team. -/
def BattlegroundQueue.isInvited (queue : BattlegroundQueue) (id : Nat) (team : Team)
    (gid : GroupId) : Bool :=
  (queue.groups gid).any fun g => g.isInvitedToBGInstanceGUID == id && g.team == team

namespace World

/-- Invited players of the team who are still in the queue. -/
def invitedInQueue (w : World) (q : BattlegroundQueueTypeId) (id : Nat) (team : Team) : Nat :=
  (w.queues q).queuedPlayers.count fun _ gid => (w.queues q).isInvited id team gid

/-- Those of the team who are travelling to the battleground. -/
def travelling (w : World) (id : Nat) (team : Team) : Nat :=
  w.teleports.count fun guid dest => dest == id && (w.players guid).getBGTeam == team

end World

/-- The entries of the team in `m_Players`. -/
def Battleground.inside (bg : Battleground) (team : Team) : Nat :=
  bg.players.count fun _ t => t == team

/-- What each battleground counts. -/
structure Counted (w : World) (owed : Nat → Team → Nat) : Prop where
  invited : ∀ id bg, w.bgs id = some bg → ∀ team,
    bg.getInvitedCount team =
      w.invitedInQueue bg.queueType id team + w.travelling id team + bg.inside team + owed id team
  playersCount : ∀ id bg, w.bgs id = some bg → ∀ team, bg.playersCount team = bg.inside team
  wrapped : ∀ id bg, w.bgs id = some bg → bg.wrapped = false

def nothingOwed : Nat → Team → Nat := fun _ _ => 0

/-- One invitation that nobody holds. -/
def owedOne (id : Nat) (team : Team) : Nat → Team → Nat :=
  fun id' team' => if id' = id ∧ team' = team then 1 else 0

theorem Kept.travelling {w' : World} (k : Kept w w') (id : Nat) (team : Team) :
    w'.travelling id team = w.travelling id team := by
  unfold World.travelling
  rw [k.teleports]
  exact Ledger.count_congr fun guid dest _ => by rw [k.getBGTeam]

/-! ## A player leaves the queue -/

section Unqueue

variable {w : World} {opened : Slots} {owed : Nat → Team → Nat} {q : BattlegroundQueueTypeId}
  {guid : ObjectGuid} {gid : GroupId} {group : GroupQueueInfo}

variable {dec : Bool}

theorem isInvited_unqueue {guid' : ObjectGuid} {gid' : GroupId} (h : Placed w opened)
    (hg : (w.queues q).groups gid = some group) (hmem : guid ∈ group.players) (id : Nat)
    (team : Team)
    (hlookup : ((w.unqueue q guid gid group dec).queues q).queuedPlayers.lookup guid' = some gid') :
    ((w.unqueue q guid gid group dec).queues q).isInvited id team gid' =
      (w.queues q).isInvited id team gid' := by
  obtain ⟨g', hg', hmem'⟩ := (unqueue_member h hg hmem q guid' gid').1 hlookup
  obtain ⟨⟨g, hgold, -, htarget, hteam⟩, -⟩ := (unqueue_groups h hg hmem
    (P := fun g => g.isInvitedToBGInstanceGUID = g'.isInvitedToBGInstanceGUID ∧ g.team = g'.team)
    Iff.rfl).1 ⟨g', hg', hmem', rfl, rfl⟩
  unfold BattlegroundQueue.isInvited
  rw [hg', hgold, Option.any_some, Option.any_some, htarget, hteam]

/-- The queue loses one invited player of the group's team and target. -/
theorem invitedInQueue_unqueue (h : Placed w opened) (hg : (w.queues q).groups gid = some group)
    (hmem : guid ∈ group.players) (id : Nat) (team : Team) :
    (if group.isInvitedToBGInstanceGUID = id ∧ group.team = team then 1 else 0) +
        (w.unqueue q guid gid group dec).invitedInQueue q id team =
      w.invitedInQueue q id team := by
  have hlookup := (h.member q guid gid).2 ⟨group, hg, hmem⟩
  have hpred : (w.queues q).isInvited id team gid =
      decide (group.isInvitedToBGInstanceGUID = id ∧ group.team = team) := by
    unfold BattlegroundQueue.isInvited
    rw [hg, Option.any_some, Bool.decide_and]
    rfl
  have herase := Ledger.count_erase hlookup fun _ gid' => (w.queues q).isInvited id team gid'
  rw [hpred] at herase
  have hcongr : (w.unqueue q guid gid group dec).invitedInQueue q id team =
      Ledger.count ((w.queues q).queuedPlayers.erase guid)
        fun _ gid' => (w.queues q).isInvited id team gid' := by
    unfold World.invitedInQueue
    rw [← World.unqueue_queuedPlayers]
    exact Ledger.count_congr fun guid' gid' hin => isInvited_unqueue h hg hmem id team hin
  rw [hcongr]
  unfold World.invitedInQueue
  rw [← herase]
  congr 1
  by_cases hcase : group.isInvitedToBGInstanceGUID = id ∧ group.team = team
  · rw [if_pos hcase, decide_eq_true hcase]
    rfl
  · rw [if_neg hcase, decide_eq_false hcase]
    rfl

theorem invitedInQueue_unqueue_ne {q' : BattlegroundQueueTypeId} (hne : q' ≠ q) (id : Nat)
    (team : Team) :
    (w.unqueue q guid gid group dec).invitedInQueue q' id team = w.invitedInQueue q' id team := by
  unfold World.invitedInQueue
  rw [World.unqueue_queues_ne hne]

/-- The battleground the group is invited to, when there is one. -/
theorem Placed.target (h : Placed w opened) (hg : (w.queues q).groups gid = some group)
    (hinvited : group.isInvitedToBGInstanceGUID ≠ 0) :
    ∃ bg, w.bgs group.isInvitedToBGInstanceGUID = some bg ∧ bg.queueType = q ∧
      w.getBattleground group.isInvitedToBGInstanceGUID group.bgTypeId = some bg := by
  have hgroup := h.group q gid group hg
  obtain ⟨bg, hbg, hq⟩ := World.exists_of_queueOf (hgroup.invited hinvited)
  refine ⟨bg, hbg, hq, World.getBattleground_eq hinvited hbg (.inr ?_)⟩
  rw [hgroup.typeId, (h.bg _ bg hbg).2.2, hq]

/-- Without a decrement one invitation is owed afterwards. -/
theorem Counted.unqueue_owed (h : Placed w opened) (hc : Counted w owed)
    (hg : (w.queues q).groups gid = some group) (hmem : guid ∈ group.players) :
    Counted (w.unqueue q guid gid group false) fun id team =>
      owed id team + owedOne group.isInvitedToBGInstanceGUID group.team id team := by
  have hbgs : (w.unqueue q guid gid group false).bgs = w.bgs := by
    rw [World.unqueue_eq]
    show (w.unqueueBgs group false).bgs = w.bgs
    unfold World.unqueueBgs
    split <;> rfl
  have hqueue : ∀ id bg team, w.bgs id = some bg →
      (w.unqueue q guid gid group false).invitedInQueue bg.queueType id team +
          owedOne group.isInvitedToBGInstanceGUID group.team id team =
        w.invitedInQueue bg.queueType id team := by
    intro id bg team hbg
    have howed : owedOne group.isInvitedToBGInstanceGUID group.team id team =
        if group.isInvitedToBGInstanceGUID = id ∧ group.team = team then 1 else 0 := by
      unfold owedOne
      simp only [eq_comm]
    rw [howed]
    by_cases hq : bg.queueType = q
    · rw [hq, Nat.add_comm]
      exact invitedInQueue_unqueue h hg hmem id team
    · have hid : group.isInvitedToBGInstanceGUID ≠ id := by
        rintro rfl
        obtain ⟨bg', hbg', hq', -⟩ := h.target hg (h.bg _ bg hbg).1
        rw [hbg] at hbg'
        exact hq (Option.some.inj hbg' ▸ hq')
      rw [if_neg fun hboth => hid hboth.1, invitedInQueue_unqueue_ne hq, Nat.add_zero]
  refine ⟨?_, ?_, ?_⟩
  · intro id bg hbg team
    rw [hbgs] at hbg
    have hinvited := hc.invited id bg hbg team
    have hq := hqueue id bg team hbg
    rw [World.unqueue_kept.travelling]
    omega
  · intro id bg hbg
    exact hc.playersCount id bg (hbgs ▸ hbg)
  · intro id bg hbg
    exact hc.wrapped id bg (hbgs ▸ hbg)

/-- A decrement settles what is owed, and does not wrap. -/
theorem Counted.decrease {id : Nat} {team : Team} {bg : Battleground}
    (hc : Counted w fun id' team' => owed id' team' + owedOne id team id' team')
    (hbg : w.bgs id = some bg) :
    Counted (w.setBg id (bg.decreaseInvitedCount team)) owed := by
  have hpos : 0 < bg.getInvitedCount team := by
    rw [hc.invited id bg hbg team]
    unfold owedOne
    rw [if_pos ⟨rfl, rfl⟩]
    omega
  refine ⟨?_, ?_, ?_⟩
  · intro id' bg' hbg' team'
    show _ = w.invitedInQueue bg'.queueType id' team' + w.travelling id' team' + _ + _
    obtain ⟨rfl, rfl⟩ | ⟨hid, hold⟩ := World.setBg_cases hbg'
    · have hinvited := hc.invited id' bg hbg team'
      have hdec := bg.getInvitedCount_decrease team hpos team'
      unfold owedOne at hinvited
      have hqueue : (bg.decreaseInvitedCount team).queueType = bg.queueType := by
        unfold Battleground.queueType
        rw [Battleground.decreaseInvitedCount_typeID, Battleground.decreaseInvitedCount_arenaType]
      have hinside : (bg.decreaseInvitedCount team).inside team' = bg.inside team' := by
        unfold Battleground.inside
        rw [Battleground.decreaseInvitedCount_players]
      rw [hqueue, hinside]
      by_cases hteam : team' = team
      · rw [if_pos hteam] at hdec
        rw [if_pos ⟨rfl, hteam⟩] at hinvited
        omega
      · rw [if_neg hteam] at hdec
        rw [if_neg fun hboth => hteam hboth.2] at hinvited
        omega
    · have hinvited := hc.invited id' bg' hold team'
      unfold owedOne at hinvited
      rw [if_neg fun hboth => hid hboth.1] at hinvited
      exact hinvited
  · intro id' bg' hbg' team'
    obtain ⟨rfl, rfl⟩ | ⟨-, hold⟩ := World.setBg_cases hbg'
    · unfold Battleground.inside
      rw [Battleground.decreaseInvitedCount_players, Battleground.decreaseInvitedCount_playersCount]
      exact hc.playersCount id' bg hbg team'
    · exact hc.playersCount id' bg' hold team'
  · intro id' bg' hbg'
    obtain ⟨rfl, rfl⟩ | ⟨-, hold⟩ := World.setBg_cases hbg'
    · rw [bg.decreaseInvitedCount_wrapped team hpos]
      exact hc.wrapped id' bg hbg
    · exact hc.wrapped id' bg' hold

/-- What is owed at no battleground is not owed. -/
theorem Counted.owed_congr {owed' : Nat → Team → Nat} (hc : Counted w owed)
    (h : ∀ id bg team, w.bgs id = some bg → owed' id team = owed id team) : Counted w owed' := by
  refine ⟨?_, hc.playersCount, hc.wrapped⟩
  intro id bg hbg team
  rw [h id bg team hbg]
  exact hc.invited id bg hbg team

theorem World.unqueue_true {bg : Battleground}
    (hbg : w.getBattleground group.isInvitedToBGInstanceGUID group.bgTypeId = some bg) :
    w.unqueue q guid gid group true =
      (w.unqueue q guid gid group false).setBg group.isInvitedToBGInstanceGUID
        (bg.decreaseInvitedCount group.team) := by
  have hne : (group.isInvitedToBGInstanceGUID != 0) = true := by
    simpa using (World.bgs_of_getBattleground hbg).1
  unfold World.unqueue
  simp only [hbg, hne]
  rfl

/-- With a decrement the balance stays as it was. -/
theorem Counted.unqueue (h : Placed w opened) (hc : Counted w owed)
    (hg : (w.queues q).groups gid = some group) (hmem : guid ∈ group.players) :
    Counted (w.unqueue q guid gid group true) owed := by
  have howed := Counted.unqueue_owed h hc hg hmem
  by_cases hinvited : group.isInvitedToBGInstanceGUID = 0
  · have heq : w.unqueue q guid gid group true = w.unqueue q guid gid group false := by
      have hnone : w.getBattleground group.isInvitedToBGInstanceGUID group.bgTypeId = none := by
        unfold World.getBattleground
        rw [if_pos hinvited]
      unfold World.unqueue
      simp only [hnone]
    rw [heq]
    refine howed.owed_congr fun id bg team hbg => ?_
    have hid : id ≠ 0 := ((h.unqueue hg hmem).bg id bg hbg).1
    unfold owedOne
    rw [if_neg fun hboth => hid (hboth.1.trans hinvited), Nat.add_zero]
  · obtain ⟨bg, hbg, -, hget⟩ := h.target hg hinvited
    rw [World.unqueue_true hget]
    refine howed.decrease ?_
    have hbgs : (w.unqueue q guid gid group false).bgs = w.bgs := by
      unfold World.unqueue
      simp only [hget]
      rfl
    rw [hbgs, hbg]

end Unqueue

theorem Counted.setSlots (hc : Counted w owed) (guid : ObjectGuid) (slots : List QueueSlot) :
    Counted (w.setPlayer guid { w.players guid with queueSlots := slots }) owed := by
  refine ⟨?_, hc.playersCount, hc.wrapped⟩
  intro id bg hbg team
  rw [(Kept.setPlayer w guid slots).travelling]
  exact hc.invited id bg hbg team

/-! ## `RemovePlayer` -/

/-- The slots of `opened` and one more. -/
def Slots.with (opened : Slots) (guid : ObjectGuid) (q : BattlegroundQueueTypeId) : Slots :=
  fun guid' q' => opened guid' q' ∨ guid' = guid ∧ q' = q

theorem Placed.removeSlot {opened : Slots} (h : Placed w opened) (guid : ObjectGuid)
    (q : BattlegroundQueueTypeId) :
    Placed (w.setPlayer guid ((w.players guid).removeBattlegroundQueueId q))
      (opened.with guid q) := by
  refine h.setSlots guid _ (fun _ _ => .inl) fun q' hq' hopen => ?_
  refine Player.invitation_remove_ne (fun heq => hopen ?_) hq'
  exact .inr ⟨rfl, heq⟩

/-- What `RemovePlayer` with a decrement leaves: everything balanced, and the player and
perhaps his group gone from the queue. -/
structure Removed (w w' : World) (opened : Slots) (owed : Nat → Team → Nat)
    (q : BattlegroundQueueTypeId) (guid : ObjectGuid) : Prop where
  placed : Placed w' opened
  counted : Counted w' owed
  kept : Kept w w'
  fewer : ∀ q' guid', w'.IsQueued q' guid' → w.IsQueued q' guid'
  gone : ¬ w'.IsQueued q guid

theorem removePlayer_spec {q : BattlegroundQueueTypeId} (fuel : Nat) :
    ∀ (guid : ObjectGuid) (w : World) (opened : Slots), Placed w opened → Counted w owed →
      (w.queues q).queuedPlayers.entries.length ≤ fuel →
        Removed w (World.removePlayer q true fuel guid w) opened owed q guid := by
  induction fuel with
  | zero =>
      intro guid w opened h hc hfuel
      show Removed w w opened owed q guid
      refine ⟨h, hc, Kept.refl w, fun _ _ hq => hq, fun hq => ?_⟩
      obtain ⟨gid, hlookup⟩ := World.isQueued_iff.1 hq
      have hlength := Ledger.length_erase hlookup
      omega
  | succ fuel ih =>
      intro guid w opened h hc hfuel
      unfold World.removePlayer
      cases hgroup : w.groupOf q guid with
      | none =>
          exact ⟨h, hc, Kept.refl w, fun _ _ hq => hq, h.groupOf_eq_none.1 hgroup⟩
      | some found =>
          obtain ⟨gid, group⟩ := found
          obtain ⟨hg, hmem⟩ := h.groupOf_eq.1 hgroup
          have hplaced : Placed (w.unqueue q guid gid group true) opened := h.unqueue hg hmem
          have hcounted := Counted.unqueue h hc hg hmem
          have hqueued : ∀ q' guid', (w.unqueue q guid gid group true).IsQueued q' guid' ↔
              w.IsQueued q' guid' ∧ ¬ (q' = q ∧ guid' = guid) := unqueue_isQueued h hg hmem
          have hremoved : Removed w (w.unqueue q guid gid group true) opened owed q guid :=
            ⟨hplaced, hcounted, World.unqueue_kept, fun q' guid' hq => ((hqueued q' guid').1 hq).1,
              fun hq => ((hqueued q guid).1 hq).2 ⟨rfl, rfl⟩⟩
          simp only [(h.group q gid group hg).listed, if_true]
          cases hleft : group.players.erase guid with
          | nil => exact hremoved
          | cons next rest =>
              have hnext : next ∈ (group.erasePlayer guid).players :=
                (congrArg (next ∈ ·) hleft).mpr List.mem_cons_self
              have hnextq : (w.unqueue q guid gid group true).IsQueued q next := by
                refine World.isQueued_iff.2 ⟨gid, (hplaced.member q next gid).2 ⟨_, ?_, hnext⟩⟩
                rw [World.unqueue_groups_self, if_neg (List.ne_nil_of_mem hnext)]
              simp only []
              split <;> rename_i hrated
              · rw [if_pos (hplaced.queued_connected hnextq), (h.group q gid group hg).queueType]
                -- the next one loses his slot first, and is then taken off like this one
                have hlength : 1 + ((w.queues q).queuedPlayers.erase guid).entries.length =
                    (w.queues q).queuedPlayers.entries.length :=
                  Ledger.length_erase ((h.member q guid gid).2 ⟨group, hg, hmem⟩)
                have hlt : ((w.unqueue q guid gid group true).queues q).queuedPlayers.entries.length
                    ≤ fuel := by
                  rw [World.unqueue_queuedPlayers]
                  omega
                have hrec := ih next _ _ (hplaced.removeSlot next q) (hcounted.setSlots next _) hlt
                have hkept := (Kept.setPlayer (w.unqueue q guid gid group true) next _).trans
                  hrec.kept
                refine ⟨hrec.placed.close ?_, hrec.counted, hremoved.kept.trans hkept, ?_, ?_⟩
                · rintro guid' q' (hopen | ⟨rfl, rfl⟩) hnot
                  · exact absurd hopen hnot
                  · refine ⟨hrec.gone, fun he => ?_⟩
                    exact hplaced.not_queued_of_engaged ((hkept.isEngaged q' guid').1 he) hnextq
                · exact fun q' guid' hq => hremoved.fewer q' guid' (hrec.fewer q' guid' hq)
                · exact fun hq => hremoved.gone (hrec.fewer q guid hq)
              · exact hremoved

/-- The slot and then the queue: a queued player leaves, and everything is as before. -/
theorem leaveQueue_spec {opened : Slots} {q : BattlegroundQueueTypeId} {guid : ObjectGuid}
    (h : Placed w opened) (hc : Counted w owed) (hwatch : opened guid q ∨ w.IsQueued q guid) :
    Removed w (w.leaveQueue guid q) opened owed q guid := by
  have hrec := removePlayer_spec (q := q) _ guid
    (w.setPlayer guid ((w.players guid).removeBattlegroundQueueId q)) (opened.with guid q)
    (h.removeSlot guid q) (hc.setSlots guid _) (le_refl _)
  have hkept := (Kept.setPlayer w guid _).trans hrec.kept
  refine ⟨hrec.placed.close ?_, hrec.counted, hkept, hrec.fewer, hrec.gone⟩
  rintro guid' q' (hopen | ⟨rfl, rfl⟩) hnot
  · exact absurd hopen hnot
  · refine ⟨hrec.gone, fun he => ?_⟩
    exact h.not_queued_of_engaged ((hkept.isEngaged q' guid').1 he) (hwatch.resolve_left hnot)

end Sunstrider.Battlegrounds.Population
