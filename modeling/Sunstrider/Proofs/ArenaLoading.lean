import Sunstrider.Battlegrounds.ArenaTeam
import Sunstrider.Lib.SharedCursor

/-!
# Which members a team is loaded with

The teams share the result of the query as readers share a cursor, so what is known of
these is known of them. A row with an id of no team would go to the next team. The query
gives no such row, and without one every team has its own members and no other.
-/

namespace Sunstrider.Battlegrounds.Arenas

open Lib

variable {team : ArenaTeam} {rows : List MemberRow}

/-- The rows that `team` reads. -/
def taken (team : ArenaTeam) (rows : List MemberRow) : List MemberRow :=
  rows.takeWhile fun row => row.arenaTeamId ≤ team.teamId

/-- The members of a team are those it had and those of the rows up to a greater id. -/
theorem loadMembersLoop_eq (captainPresentInTeam : Bool) :
    team.loadMembersLoop captainPresentInTeam rows =
      ({ team with members := team.members ++ (taken team rows).map MemberRow.newMember },
        captainPresentInTeam || (taken team rows).any fun row => row.guid = team.captainGuid,
        rows.dropWhile fun row => row.arenaTeamId ≤ team.teamId) := by
  induction rows generalizing team captainPresentInTeam with
  | nil => simp [ArenaTeam.loadMembersLoop, taken]
  | cons row rows ih =>
      rw [ArenaTeam.loadMembersLoop]
      by_cases hlater : team.teamId < row.arenaTeamId
      · have hnot : ¬ row.arenaTeamId ≤ team.teamId := not_le.2 hlater
        rw [if_pos hlater, taken, List.takeWhile_cons_of_neg (by simpa using hnot),
          List.dropWhile_cons_of_neg (by simpa using hnot)]
        simp
      · have hle : row.arenaTeamId ≤ team.teamId := not_lt.1 hlater
        rw [if_neg hlater, ih, taken, taken, List.takeWhile_cons_of_pos (by simpa using hle),
          List.dropWhile_cons_of_pos (by simpa using hle)]
        simp only [List.append_assoc, List.map_cons, List.singleton_append, List.any_cons,
          Bool.or_assoc]
        rfl

/-- Teams that are read one after the other share the rows. -/
theorem loadAll_eq (teams : List ArenaTeam) (rows : List MemberRow) :
    (ArenaTeam.loadAll teams rows).1.map (fun e => e.1.members) =
        List.zipWith (fun team share => team.members ++ share.map MemberRow.newMember) teams
          (share MemberRow.arenaTeamId (teams.map ArenaTeam.teamId) rows).1 ∧
      (ArenaTeam.loadAll teams rows).2 =
        (share MemberRow.arenaTeamId (teams.map ArenaTeam.teamId) rows).2 := by
  induction teams generalizing rows with
  | nil => exact ⟨rfl, rfl⟩
  | cons team teams ih =>
      obtain ⟨hmembers, hrest⟩ := ih (rows.dropWhile fun row => row.arenaTeamId ≤ team.teamId)
      rw [ArenaTeam.loadAll, ArenaTeam.loadMembersFromDB, loadMembersLoop_eq]
      dsimp only
      rw [List.map_cons, List.map_cons, share]
      dsimp only
      rw [hmembers, hrest]
      exact ⟨rfl, rfl⟩

/-- The rows that are to be members of a team. -/
def ownRows (rows : List MemberRow) (team : ArenaTeam) : List MemberRow :=
  rows.filter fun row => row.arenaTeamId = team.teamId

/-- The teams are loaded with the rows of their own ids if and only if no row of no team
comes before a team. Where every row has a team, as the query makes sure of, none is left
and none is given twice. -/
theorem loadAll_exact_iff {teams : List ArenaTeam} {rows : List MemberRow}
    (hteams : teams.Pairwise fun a b => a.teamId < b.teamId)
    (hempty : ∀ team ∈ teams, team.members = [])
    (hrows : rows.Pairwise fun a b => a.arenaTeamId ≤ b.arenaTeamId) :
    ((ArenaTeam.loadAll teams rows).1.map (fun e => e.1.members) =
        teams.map (fun team => (ownRows rows team).map MemberRow.newMember) ↔
      ∀ row ∈ rows, (∀ team ∈ teams, row.arenaTeamId ≠ team.teamId) →
        ∀ team ∈ teams, team.teamId < row.arenaTeamId) ∧
    ((∀ row ∈ rows, ∃ team ∈ teams, row.arenaTeamId = team.teamId) →
      (ArenaTeam.loadAll teams rows).1.map (fun e => e.1.members) =
          teams.map (fun team => (ownRows rows team).map MemberRow.newMember) ∧
        (ArenaTeam.loadAll teams rows).1.flatMap (fun e => e.1.members) =
          rows.map MemberRow.newMember ∧
        (ArenaTeam.loadAll teams rows).2 = []) := by
  have hkeys : (teams.map ArenaTeam.teamId).Pairwise (· < ·) := List.pairwise_map.2 hteams
  obtain ⟨hmembers, hrest⟩ := loadAll_eq teams rows
  have hshares := share_eq hkeys hrows
  -- a team starts without members, and its share is what it is loaded with
  have hloaded : (ArenaTeam.loadAll teams rows).1.map (fun e => e.1.members) =
      (share MemberRow.arenaTeamId (teams.map ArenaTeam.teamId) rows).1.map
        (List.map MemberRow.newMember) := by
    rw [hmembers, hshares, List.map_map, List.map_map, List.zipWith_map_right, List.zipWith_self]
    refine List.map_congr_left fun team hmem => ?_
    rw [hempty team hmem, List.nil_append]
    rfl
  have hown : teams.map (fun team => (ownRows rows team).map MemberRow.newMember) =
      ((teams.map ArenaTeam.teamId).map fun id => rows.filter fun row => row.arenaTeamId = id).map
        (List.map MemberRow.newMember) := by
    rw [List.map_map, List.map_map]
    rfl
  have hexact := share_exact_iff hkeys hrows
  have hbeyond : (∀ row ∈ rows, row.arenaTeamId ∉ teams.map ArenaTeam.teamId →
        ∀ id ∈ teams.map ArenaTeam.teamId, id < row.arenaTeamId) ↔
      ∀ row ∈ rows, (∀ team ∈ teams, row.arenaTeamId ≠ team.teamId) →
        ∀ team ∈ teams, team.teamId < row.arenaTeamId := by
    simp only [List.mem_map, not_exists, not_and, forall_exists_index, and_imp,
      forall_apply_eq_imp_iff₂, ne_comm]
  rw [hbeyond] at hexact
  refine ⟨?_, fun hall => ?_⟩
  · rw [← hexact, hloaded, hown]
    refine ⟨fun h => ?_, fun h => congrArg _ h⟩
    -- as many members are as many rows, and a team reads its own rows at least
    rw [hshares] at h ⊢
    refine List.map_congr_left fun id hid => (List.Sublist.eq_of_length ?_ ?_).symm
    · refine List.monotone_filter_right rows fun row hrow => ?_
      have hkey : row.arenaTeamId = id := by simpa using hrow
      exact decide_eq_true ((readBy_iff_of_mem (hkey ▸ hid)).2 hkey)
    · obtain ⟨team, hteam, rfl⟩ := List.mem_map.1 hid
      rw [List.map_map, List.map_map, List.map_map, List.map_map, List.map_inj_left] at h
      have hlength := congrArg List.length (h team hteam)
      simpa using hlength.symm
  · have hnone : (ArenaTeam.loadAll teams rows).2 = [] := by
      rw [hrest, share_rest hrows]
      refine List.filter_eq_nil_iff.2 fun row hrow => ?_
      obtain ⟨team, hteam, heq⟩ := hall row hrow
      have hnot : ¬ ∀ id ∈ teams.map ArenaTeam.teamId, id < row.arenaTeamId := fun h =>
        absurd (h team.teamId (List.mem_map_of_mem hteam)) (by omega)
      simpa using hnot
    have hall' : (share MemberRow.arenaTeamId (teams.map ArenaTeam.teamId) rows).1.flatten =
        rows := by
      have happend := share_append MemberRow.arenaTeamId (teams.map ArenaTeam.teamId) rows
      rwa [← hrest, hnone, List.append_nil] at happend
    refine ⟨?_, ?_, hnone⟩
    · rw [hloaded, hown, hexact.2 fun row hrow hno => ?_]
      obtain ⟨team, hteam, heq⟩ := hall row hrow
      exact absurd heq (hno team hteam)
    · rw [List.flatMap_def, hloaded, ← List.map_flatten, hall']

/-! Two teams, and a row of a team that is gone. -/

def pairedTeams : List ArenaTeam := [⟨1, 7, .new, 0, []⟩, ⟨3, 9, .new, 0, []⟩]

def pairedRows : List MemberRow :=
  [⟨1, 7, 0, 0, 0, 0, "", 1, 1500⟩, ⟨3, 9, 0, 0, 0, 0, "", 1, 1500⟩]

def orphanedRows : List MemberRow :=
  [⟨1, 7, 0, 0, 0, 0, "", 1, 1500⟩, ⟨2, 8, 0, 0, 0, 0, "", 1, 1500⟩,
    ⟨3, 9, 0, 0, 0, 0, "", 1, 1500⟩]

theorem loadAll_paired :
    (ArenaTeam.loadAll pairedTeams pairedRows).1.map (fun e => e.1.members) =
        pairedTeams.map (fun team => (ownRows pairedRows team).map MemberRow.newMember) ∧
      (ArenaTeam.loadAll pairedTeams pairedRows).1.flatMap (fun e => e.1.members) =
        pairedRows.map MemberRow.newMember ∧
      (ArenaTeam.loadAll pairedTeams pairedRows).2 = [] :=
  (loadAll_exact_iff (by decide) (by decide) (by decide)).2 (by decide)

theorem orphan_joins_next_team :
    orphanedRows.Pairwise (fun a b => a.arenaTeamId ≤ b.arenaTeamId) ∧
      (ArenaTeam.loadAll pairedTeams orphanedRows).1.map
        (fun e => e.1.members.map ArenaTeamMember.guid) = [[7], [8, 9]] := by
  decide

end Sunstrider.Battlegrounds.Arenas
