import Sunstrider.Battlegrounds.BattleGroundQueue
import Sunstrider.Lib.Filing
import Sunstrider.Proofs.FillPlayers

/-!
# Where a queued group is found

`RemovePlayer` looks for a group in the lists of its team, so a group that
stands elsewhere is never found again. `Consistent` says that this does not
happen: there is a place for every group that exists, the lists are filed by it,
and its team is the team of the group. The players' map and the groups' own
players are tied beside it, in `Manned`.

Most of what an update does leaves all of that alone: it picks, or it invites a
group for the team it has (`Alike`). What is left are four moves. A premade group
goes to the normal list of its team; a new group comes in and an empty one goes;
a skirmish takes groups behind the marked one to the other team, whose place and
team are rewritten together; and a rated match moves first and rewrites the team
when it invites, so in between only the lists are right.
-/

namespace Sunstrider.Battlegrounds.Matching

open Population (Team ObjectGuid GroupId maxBattlegroundBrackets)

variable {q q' q'' : BattlegroundQueue} {place : GroupId → Option ListId} {p p' : ListId}
  {g : GroupId} {guid : ObjectGuid} {ginfo : GroupQueueInfo} {team side : Team} {bracket : Nat}

namespace BattlegroundQueue

def playersOf (q : BattlegroundQueue) (g : GroupId) : Option (List ObjectGuid) :=
  (q.groups g).map GroupQueueInfo.players

def teamOf (q : BattlegroundQueue) (g : GroupId) : Option Team :=
  (q.groups g).map GroupQueueInfo.team

/-- Every group that exists has its place, and the lists are filed by it. -/
structure Placed (q : BattlegroundQueue) (place : GroupId → Option ListId) : Prop where
  filed : Filed q.queuedGroups place
  queued : ∀ g, (q.groups g).isSome = (place g).isSome
  bracket : ∀ g p, place g = some p → p.bracket < maxBattlegroundBrackets

/-- A player maps to a group exactly if it holds him, and none is without players. -/
structure Manned (q : BattlegroundQueue) : Prop where
  player : ∀ guid g, q.queuedPlayers.lookup guid = some g ↔
    ∃ players, q.playersOf g = some players ∧ guid ∈ players
  nonempty : ∀ g players, q.playersOf g = some players → players ≠ []
  nodup : ∀ g players, q.playersOf g = some players → players.Nodup
  fresh : ∀ g, q.nextGroup ≤ g → q.playersOf g = none

/-- The players are those they were. -/
structure SamePlayers (q q' : BattlegroundQueue) : Prop where
  queuedPlayers : q'.queuedPlayers = q.queuedPlayers
  nextGroup : q'.nextGroup = q.nextGroup
  playersOf : q'.playersOf = q.playersOf

/-- And so are the lists and the teams. -/
structure Alike (q q' : BattlegroundQueue) : Prop extends SamePlayers q q' where
  queuedGroups : q'.queuedGroups = q.queuedGroups
  teamOf : q'.teamOf = q.teamOf

/-- Lists, groups and players of a queue agree. -/
def Consistent (q : BattlegroundQueue) : Prop :=
  q.Manned ∧ ∃ place, q.Placed place ∧ ∀ g, q.teamOf g = (place g).map ListId.team

theorem playersOf_isSome (q : BattlegroundQueue) (g : GroupId) :
    (q.playersOf g).isSome = (q.groups g).isSome := by
  simp [playersOf]

theorem playersOf_eq_some {players : List ObjectGuid} :
    q.playersOf g = some players ↔ ∃ ginfo, q.groups g = some ginfo ∧ ginfo.players = players := by
  simp [playersOf]

theorem teamOf_eq_some :
    q.teamOf g = some team ↔ ∃ ginfo, q.groups g = some ginfo ∧ ginfo.team = team := by
  simp [teamOf]

theorem SamePlayers.refl (q : BattlegroundQueue) : SamePlayers q q := ⟨rfl, rfl, rfl⟩

theorem SamePlayers.trans (h : SamePlayers q q') (h' : SamePlayers q' q'') : SamePlayers q q'' :=
  ⟨h'.queuedPlayers.trans h.queuedPlayers, h'.nextGroup.trans h.nextGroup,
    h'.playersOf.trans h.playersOf⟩

theorem SamePlayers.manned (h : SamePlayers q q') (hq : q.Manned) : q'.Manned where
  player := by
    rw [h.queuedPlayers, h.playersOf]
    exact hq.player
  nonempty := by
    rw [h.playersOf]
    exact hq.nonempty
  nodup := by
    rw [h.playersOf]
    exact hq.nodup
  fresh := by
    rw [h.nextGroup, h.playersOf]
    exact hq.fresh

theorem SamePlayers.isSome (h : SamePlayers q q') (g : GroupId) :
    (q'.groups g).isSome = (q.groups g).isSome := by
  rw [← playersOf_isSome, ← playersOf_isSome, h.playersOf]

theorem Alike.refl (q : BattlegroundQueue) : Alike q q := ⟨.refl q, rfl, rfl⟩

theorem Alike.trans (h : Alike q q') (h' : Alike q' q'') : Alike q q'' :=
  ⟨h.toSamePlayers.trans h'.toSamePlayers, h'.queuedGroups.trans h.queuedGroups,
    h'.teamOf.trans h.teamOf⟩

theorem Placed.ofSame (h : q.Placed place) (hsame : SamePlayers q q')
    (hlists : q'.queuedGroups = q.queuedGroups) : q'.Placed place :=
  ⟨hlists ▸ h.filed, fun g => (hsame.isSome g).trans (h.queued g), h.bracket⟩

theorem Alike.consistent (h : Alike q q') (hq : q.Consistent) : q'.Consistent := by
  obtain ⟨hmanned, place, hplaced, hteam⟩ := hq
  refine ⟨h.manned hmanned, place, hplaced.ofSame h.toSamePlayers h.queuedGroups, ?_⟩
  rw [h.teamOf]
  exact hteam

/-! ## What leaves the lists alone -/

theorem withPools_alike (q : BattlegroundQueue) (pools : Team → SelectionPool) :
    Alike q { q with selectionPools := pools } := ⟨⟨rfl, rfl, rfl⟩, rfl, rfl⟩

theorem setPool_alike (q : BattlegroundQueue) (team : Team) (pool : SelectionPool) :
    Alike q (q.setPool team pool) := withPools_alike q _

theorem initPools_alike (q : BattlegroundQueue) : Alike q q.initPools := withPools_alike q _

/-- A group is rewritten, and its players stay. -/
theorem setGroup_same {ginfo' : GroupQueueInfo} (hg : q.groups g = some ginfo)
    (hplayers : ginfo'.players = ginfo.players) : SamePlayers q (q.setGroup g (some ginfo')) where
  queuedPlayers := rfl
  nextGroup := rfl
  playersOf := by
    funext g'
    by_cases h : g' = g
    · subst h
      simp [playersOf, setGroup, hg, hplayers]
    · simp [playersOf, setGroup, h]

theorem teamOf_setGroup (q : BattlegroundQueue) (g : GroupId) (ginfo : GroupQueueInfo) :
    (q.setGroup g (some ginfo)).teamOf = Function.update q.teamOf g (some ginfo.team) := by
  funext g'
  by_cases h : g' = g
  · subst h
    simp [teamOf, setGroup]
  · simp [teamOf, setGroup, h]

theorem setGroup_alike {ginfo' : GroupQueueInfo} (hg : q.groups g = some ginfo)
    (hplayers : ginfo'.players = ginfo.players) (hteam : ginfo'.team = ginfo.team) :
    Alike q (q.setGroup g (some ginfo')) where
  toSamePlayers := setGroup_same hg hplayers
  queuedGroups := rfl
  teamOf := by
    rw [teamOf_setGroup, hteam, Function.update_eq_self_iff]
    simp [teamOf, hg]

/-- Inviting rewrites the team, and nothing else that matters here. -/
theorem inviteGroupToBG_spec (hteam : q.teamOf g = some team) (side : Team)
    (instanceId now : Nat) :
    SamePlayers q (q.inviteGroupToBG g instanceId side now) ∧
      (q.inviteGroupToBG g instanceId side now).queuedGroups = q.queuedGroups ∧
      (q.inviteGroupToBG g instanceId side now).teamOf =
        Function.update q.teamOf g (some side) := by
  obtain ⟨ginfo, hg, -⟩ := teamOf_eq_some.1 hteam
  simp only [inviteGroupToBG, hg]
  split <;> exact ⟨setGroup_same hg rfl, rfl, teamOf_setGroup q g _⟩

theorem inviteForOwnTeam_alike (q : BattlegroundQueue) (instanceId now : Nat) (g : GroupId) :
    Alike q (inviteForOwnTeam instanceId now q g) := by
  cases hg : q.groups g with
  | none =>
      simp only [inviteForOwnTeam, hg]
      exact .refl q
  | some ginfo =>
      simp only [inviteForOwnTeam, hg]
      have hteam : q.teamOf g = some ginfo.team := teamOf_eq_some.2 ⟨ginfo, hg, rfl⟩
      obtain ⟨hsame, hlists, hteams⟩ := inviteGroupToBG_spec hteam ginfo.team instanceId now
      refine ⟨hsame, hlists, ?_⟩
      rw [hteams, Function.update_eq_self_iff]
      exact hteam.symm

theorem foldl_alike {f : BattlegroundQueue → GroupId → BattlegroundQueue}
    (hf : ∀ q g, Alike q (f q g)) (gs : List GroupId) (q : BattlegroundQueue) :
    Alike q (gs.foldl f q) := by
  induction gs generalizing q with
  | nil => exact .refl q
  | cons g gs ih => exact (hf q g).trans (ih (f q g))

theorem invitePools_alike (q : BattlegroundQueue) (instanceId now : Nat) :
    Alike q (q.invitePools instanceId now) :=
  (foldl_alike (fun q g => inviteForOwnTeam_alike q instanceId now g) _ q).trans
    (foldl_alike (fun q g => inviteForOwnTeam_alike q instanceId now g) _ _)

theorem setOpponents_alike (q : BattlegroundQueue) (g : GroupId) (opponents : GroupQueueInfo) :
    Alike q (q.setOpponents g opponents) := by
  cases hg : q.groups g with
  | none =>
      simp only [setOpponents, hg]
      exact .refl q
  | some ginfo =>
      simp only [setOpponents, hg]
      exact setGroup_alike hg rfl rfl

theorem checkNormalMatch_alike (q : BattlegroundQueue) (bracket minPlayers maxPlayers : Nat)
    (balance debug : Bool) :
    Alike q (q.checkNormalMatch bracket minPlayers maxPlayers balance debug).2 := by
  -- every way out leaves the same queue
  simp only [checkNormalMatch, apply_ite Prod.snd, ite_self, setPools_eq]
  exact withPools_alike q _

/-- A selection comes to an end, and only picks. -/
theorem fillPlayersToBG_alike (q : BattlegroundQueue) (type : InvitationType) (bracket : Nat)
    (freeSlots : Team → Nat) :
    ∃ q' loopEnd, q.initPools.fillPlayersToBG type bracket freeSlots (q.fillFuel bracket) =
      some (q', loopEnd) ∧ Alike q q' := by
  obtain ⟨ali, horde, -, -, loopEnd, hrun, -⟩ := fillPlayersToBG_ends q type bracket freeSlots
  exact ⟨_, loopEnd, hrun _ (le_refl _), withPools_alike q _⟩

end BattlegroundQueue

end Sunstrider.Battlegrounds.Matching
