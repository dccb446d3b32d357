import Sunstrider.Proofs.QueueMoves

/-!
# The queue over whole runs

Joining and leaving, and with the updates of `QueueMoves.lean` any run. A new
group is one that never existed, so it has no place yet, and nobody who joins is
in another group. Who leaves is found: his group stands where its team says, so
the search of `RemovePlayer` ends at its place. If he was the last, the group
goes off its list and is deleted; otherwise it only becomes smaller.

The recursion through a rated group takes a player off the map each time, so as
many calls as there are queued players are enough.
-/

namespace Sunstrider.Battlegrounds.Matching

open Population (Team ObjectGuid GroupId maxBattlegroundBrackets)

variable {q q' : BattlegroundQueue} {place : GroupId → Option ListId} {p : ListId}
  {g : GroupId} {guid : ObjectGuid} {ginfo : GroupQueueInfo} {team : Team} {bracket : Nat}
  {players members : List ObjectGuid}

/-! ## Who joins -/

theorem mem_insertPlayer {other : ObjectGuid} :
    other ∈ insertPlayer players guid ↔ other = guid ∨ other ∈ players := by
  unfold insertPlayer
  split <;> rename_i h
  · exact ⟨.inr, fun hor => hor.elim (fun heq => heq ▸ h) id⟩
  · rw [List.mem_orderedInsert]

theorem nodup_insertPlayer (h : players.Nodup) : (insertPlayer players guid).Nodup := by
  unfold insertPlayer
  split <;> rename_i hmem
  · exact h
  · exact (List.perm_orderedInsert (· ≤ ·) guid players).nodup_iff.2
      (List.nodup_cons.2 ⟨hmem, h⟩)

theorem mem_foldl_insertPlayer (members : List ObjectGuid) :
    guid ∈ members.foldl insertPlayer players ↔ guid ∈ members ∨ guid ∈ players := by
  induction members generalizing players with
  | nil => simp
  | cons member members ih =>
      rw [List.foldl_cons, ih, mem_insertPlayer, List.mem_cons]
      tauto

theorem nodup_foldl_insertPlayer (members : List ObjectGuid) (h : players.Nodup) :
    (members.foldl insertPlayer players).Nodup := by
  induction members generalizing players with
  | nil => exact h
  | cons member members ih => exact ih (nodup_insertPlayer h)

theorem lookup_foldl_insert (members : List ObjectGuid)
    (queued : AList fun _ : ObjectGuid => GroupId) :
    (members.foldl (fun players guid => players.insert guid g) queued).lookup guid =
      if guid ∈ members then some g else queued.lookup guid := by
  induction members generalizing queued with
  | nil => simp
  | cons member members ih =>
      rw [List.foldl_cons, ih]
      by_cases hmem : guid ∈ members
      · simp [hmem]
      · by_cases heq : guid = member
        · subst heq
          simp [hmem]
        · simp [hmem, heq, AList.lookup_insert_ne heq]

namespace BattlegroundQueue

theorem playersOf_addGroup (q : BattlegroundQueue) (r : JoinRequest) :
    (q.addGroup r).playersOf =
      Function.update q.playersOf q.nextGroup (some r.ginfo.players) := by
  funext g
  by_cases hg : g = q.nextGroup
  · subst hg
    simp [playersOf, addGroup, setList, setGroup]
  · simp [playersOf, addGroup, setList, setGroup, hg]

theorem addGroup_manned (h : q.Manned) {r : JoinRequest} (hmembers : r.members ≠ [])
    (hfree : ∀ guid ∈ r.members, q.queuedPlayers.lookup guid = none) :
    (q.addGroup r).Manned := by
  have hnew : ∀ guid, guid ∈ r.ginfo.players ↔ guid ∈ r.members := by
    intro guid
    exact (mem_foldl_insertPlayer r.members).trans (by simp)
  have hold : q.playersOf q.nextGroup = none := h.fresh _ (le_refl _)
  refine ⟨fun guid g => ?_, fun g players hg => ?_, fun g players hg => ?_, fun g hg => ?_⟩
  · have hlookup : (q.addGroup r).queuedPlayers.lookup guid = _ :=
      lookup_foldl_insert r.members q.queuedPlayers
    rw [hlookup, playersOf_addGroup]
    by_cases hg : g = q.nextGroup
    · subst hg
      rw [Function.update_self]
      split <;> rename_i hmem
      · simpa [hnew] using hmem
      · simp only [h.player, hold, reduceCtorEq, false_and, exists_false, Option.some.injEq,
          exists_eq_left', hnew, hmem]
    · rw [Function.update_of_ne hg]
      split <;> rename_i hmem
      · -- who joins is in no other group
        have hnone := hfree guid hmem
        refine iff_of_false (fun heq => hg (Option.some.inj heq).symm) fun hin => ?_
        rw [(h.player guid g).2 hin] at hnone
        cases hnone
      · exact h.player guid g
  · rw [playersOf_addGroup] at hg
    by_cases hg' : g = q.nextGroup
    · subst hg'
      rw [Function.update_self, Option.some.injEq] at hg
      obtain ⟨guid, hguid⟩ := List.exists_mem_of_ne_nil _ hmembers
      exact hg ▸ List.ne_nil_of_mem ((hnew guid).2 hguid)
    · rw [Function.update_of_ne hg'] at hg
      exact h.nonempty g players hg
  · rw [playersOf_addGroup] at hg
    by_cases hg' : g = q.nextGroup
    · subst hg'
      rw [Function.update_self, Option.some.injEq] at hg
      exact hg ▸ nodup_foldl_insertPlayer r.members List.nodup_nil
    · rw [Function.update_of_ne hg'] at hg
      exact h.nodup g players hg
  · have hlt : q.nextGroup < g := hg
    rw [playersOf_addGroup, Function.update_of_ne (Nat.ne_of_gt hlt)]
    exact h.fresh g (Nat.le_of_lt hlt)

theorem addGroup_consistent (h : q.Consistent) {r : JoinRequest} (hmay : q.mayJoin r = true) :
    (q.addGroup r).Consistent := by
  obtain ⟨hmanned, place, hplaced, hteams⟩ := h
  simp only [mayJoin, Bool.and_eq_true, Bool.not_eq_true', List.isEmpty_eq_false_iff,
    decide_eq_true_eq, List.all_eq_true, Option.isNone_iff_eq_none] at hmay
  obtain ⟨⟨hmembers, hbracket⟩, hfree⟩ := hmay
  have hnone : q.groups q.nextGroup = none := by
    have := hmanned.fresh _ (le_refl _)
    simpa [playersOf] using this
  have hplace : place q.nextGroup = none := by
    have := hplaced.queued q.nextGroup
    simpa [hnone] using this.symm
  refine ⟨addGroup_manned hmanned hmembers hfree,
    Function.update place q.nextGroup (some r.place), ⟨?_, fun g => ?_, fun g p hp => ?_⟩,
    fun g => ?_⟩
  · exact hplaced.filed.insert hplace (List.perm_append_singleton _ _)
  · by_cases hg : g = q.nextGroup
    · subst hg
      simp [addGroup, setList, setGroup]
    · simpa [addGroup, setList, setGroup, hg] using hplaced.queued g
  · by_cases hg : g = q.nextGroup
    · subst hg
      rw [Function.update_self, Option.some.injEq] at hp
      exact hp ▸ hbracket
    · rw [Function.update_of_ne hg] at hp
      exact hplaced.bracket g p hp
  · by_cases hg : g = q.nextGroup
    · subst hg
      simp [teamOf, addGroup, setList, setGroup, JoinRequest.ginfo, JoinRequest.place]
    · simpa [teamOf, addGroup, setList, setGroup, hg] using hteams g

/-! ## Who leaves -/

theorem findSome?_of_unique {α β : Type*} {f : α → Option β} {l : List α} {a : α} {b : β}
    (ha : a ∈ l) (hfa : f a = some b) (hother : ∀ a' ∈ l, a' ≠ a → f a' = none) :
    l.findSome? f = some b := by
  induction l with
  | nil => cases ha
  | cons x xs ih =>
      rw [List.findSome?_cons]
      by_cases hx : x = a
      · rw [hx, hfa]
      · rw [hother x List.mem_cons_self hx]
        refine ih ((List.mem_cons.1 ha).resolve_left (Ne.symm hx)) fun a' ha' => ?_
        exact hother a' (List.mem_cons_of_mem _ ha')

/-- The search of `RemovePlayer` ends at the group's place. -/
theorem findGroup_eq (h : q.Placed place) (hplace : place g = some p) :
    q.findGroup g p.team = some p := by
  have hmem : ∀ p', g ∈ q.queuedGroups p' ↔ p' = p := by
    intro p'
    rw [h.filed.mem_iff, hplace, Option.some.injEq, eq_comm]
  refine findSome?_of_unique (a := p.bracket) ?_ ?_ fun bracket' _ hne => ?_
  · rw [List.mem_reverse, List.mem_range]
    exact h.bracket g p hplace
  · obtain ⟨bracket, type, team⟩ := p
    cases type <;> simp [placeIn, hmem]
  · simp only [placeIn, hmem]
    rw [if_neg fun heq => hne (by rw [← heq]), if_neg fun heq => hne (by rw [← heq])]

theorem Manned.leave (h : q.Manned) (hg : q.playersOf g = some players) (hguid : guid ∈ players)
    (hqueued : q'.queuedPlayers = q.queuedPlayers.erase guid) (hnext : q'.nextGroup = q.nextGroup)
    (hplayers : q'.playersOf = Function.update q.playersOf g
      (if players.erase guid = [] then none else some (players.erase guid))) : q'.Manned := by
  have hlookup := (h.player guid g).2 ⟨players, hg, hguid⟩
  -- a group of the new queue is one of the old, without the player
  have hkept : ∀ g' players', q'.playersOf g' = some players' →
      players' ≠ [] ∧ ∃ players, q.playersOf g' = some players ∧ players' = players.erase guid := by
    intro g' players' hg'
    rw [hplayers] at hg'
    by_cases heq : g' = g
    · subst heq
      rw [Function.update_self] at hg'
      split at hg' <;> rename_i hempty
      · cases hg'
      · obtain rfl := Option.some.inj hg'
        exact ⟨hempty, players, hg, rfl⟩
    · rw [Function.update_of_ne heq] at hg'
      refine ⟨h.nonempty g' players' hg', players', hg', (List.erase_of_not_mem fun hin => ?_).symm⟩
      have := (h.player guid g').2 ⟨players', hg', hin⟩
      rw [hlookup, Option.some.injEq] at this
      exact heq this.symm
  refine ⟨fun other g' => ?_, fun g' players' hg' => (hkept g' players' hg').1,
    fun g' players' hg' => ?_, fun g' hg' => ?_⟩
  · rw [hqueued]
    by_cases hother : other = guid
    · subst hother
      rw [AList.lookup_erase]
      refine iff_of_false (by simp) ?_
      rintro ⟨players', hg', hin⟩
      obtain ⟨-, old, hold, rfl⟩ := hkept g' players' hg'
      exact ((h.nodup g' old hold).mem_erase_iff.1 hin).1 rfl
    · rw [AList.lookup_erase_ne hother, h.player]
      refine ⟨?_, ?_⟩
      · rintro ⟨players', hg', hin⟩
        rw [hplayers]
        by_cases heq : g' = g
        · subst heq
          rw [hg, Option.some.injEq] at hg'
          subst hg'
          have hstay : other ∈ players.erase guid := (List.mem_erase_of_ne hother).2 hin
          rw [Function.update_self, if_neg (List.ne_nil_of_mem hstay)]
          exact ⟨_, rfl, hstay⟩
        · rw [Function.update_of_ne heq]
          exact ⟨players', hg', hin⟩
      · rintro ⟨players', hg', hin⟩
        obtain ⟨-, old, hold, rfl⟩ := hkept g' players' hg'
        exact ⟨old, hold, List.mem_of_mem_erase hin⟩
  · obtain ⟨-, old, hold, rfl⟩ := hkept g' players' hg'
    exact (h.nodup g' old hold).erase guid
  · cases hq' : q'.playersOf g' with
    | none => rfl
    | some players' =>
        obtain ⟨-, old, hold, -⟩ := hkept g' players' hq'
        rw [h.fresh g' (hnext ▸ hg')] at hold
        cases hold

theorem removeOne_consistent (h : q.Consistent) (guid : ObjectGuid) :
    (q.removeOne guid).1.Consistent := by
  cases hlookup : q.queuedPlayers.lookup guid with
  | none =>
      simp only [removeOne, hlookup]
      exact h
  | some g =>
      obtain ⟨hmanned, place, hplaced, hteams⟩ := h
      obtain ⟨players, hplayers, hguid⟩ := (hmanned.player guid g).1 hlookup
      obtain ⟨ginfo, hg, rfl⟩ := playersOf_eq_some.1 hplayers
      obtain ⟨p, hplace⟩ : ∃ p, place g = some p := by
        have := hplaced.queued g
        rw [hg, Option.isSome_some] at this
        exact Option.isSome_iff_exists.1 this.symm
      have hteam : ginfo.team = p.team := by
        have := hteams g
        rw [hplace] at this
        simpa [teamOf, hg] using this
      have hfind := findGroup_eq hplaced hplace
      rw [← hteam] at hfind
      simp only [removeOne, hlookup, hg, hfind, apply_ite Prod.fst, ite_self]
      split <;> rename_i hempty
      · -- the group goes with its last player
        refine ⟨hmanned.leave hplayers hguid rfl rfl ?_, Function.update place g none,
          ⟨hplaced.filed.erase (List.Perm.refl _) hplace, fun g' => ?_, fun g' p' hp' => ?_⟩,
          fun g' => ?_⟩
        · rw [if_pos hempty]
          funext g'
          by_cases hg' : g' = g
          · subst hg'
            simp [playersOf, setGroup]
          · simp [playersOf, setGroup, setList, hg']
        · by_cases hg' : g' = g
          · subst hg'
            simp [setGroup]
          · simpa [setGroup, setList, hg'] using hplaced.queued g'
        · by_cases hg' : g' = g
          · subst hg'
            rw [Function.update_self] at hp'
            cases hp'
          · rw [Function.update_of_ne hg'] at hp'
            exact hplaced.bracket g' p' hp'
        · by_cases hg' : g' = g
          · subst hg'
            simp [teamOf, setGroup]
          · simpa [teamOf, setGroup, setList, hg'] using hteams g'
      · -- the group becomes smaller
        refine ⟨hmanned.leave hplayers hguid rfl rfl ?_, place,
          ⟨hplaced.filed, fun g' => ?_, hplaced.bracket⟩, fun g' => ?_⟩
        · rw [if_neg hempty]
          funext g'
          by_cases hg' : g' = g
          · subst hg'
            simp [playersOf, setGroup]
          · simp [playersOf, setGroup, hg']
        · by_cases hg' : g' = g
          · subst hg'
            simpa [setGroup, hg] using hplaced.queued g'
          · simpa [setGroup, hg'] using hplaced.queued g'
        · by_cases hg' : g' = g
          · subst hg'
            simpa [teamOf, setGroup, hg] using hteams g'
          · simpa [teamOf, setGroup, hg'] using hteams g'

theorem removePlayers_consistent (n : Nat) (h : q.Consistent) (guid : ObjectGuid) :
    (removePlayers n q guid).Consistent := by
  induction n generalizing q guid with
  | zero => exact h
  | succ n ih =>
      have hone := removeOne_consistent h guid
      unfold removePlayers
      split <;> rename_i hnext <;> rw [hnext] at hone
      · exact hone
      · exact ih hone _

theorem empty_consistent : empty.Consistent := by
  refine ⟨⟨fun guid g => ?_, fun g players h => ?_, fun g players h => ?_, fun g _ => rfl⟩,
    fun _ => none, ⟨Filed.none, fun g => rfl, fun g p h => ?_⟩, fun g => rfl⟩
  · simp [empty, playersOf]
  · cases h
  · cases h
  · cases h

theorem step_consistent (h : q.Consistent) (call : QueueCall) :
    ∃ q', q.step call = some q' ∧ q'.Consistent := by
  cases call with
  | addGroup r =>
      by_cases hmay : q.mayJoin r = true
      · exact ⟨q.addGroup r, if_pos hmay, addGroup_consistent h hmay⟩
      · exact ⟨q, if_neg hmay, h⟩
  | removePlayer guid => exact ⟨_, rfl, removePlayers_consistent _ h guid⟩
  | update r => exact battlegroundQueueUpdate_consistent h r

theorem run_consistent (calls : List QueueCall) (h : q.Consistent) :
    ∃ q', q.run calls = some q' ∧ q'.Consistent := by
  induction calls generalizing q with
  | nil => exact ⟨q, rfl, h⟩
  | cons call rest ih =>
      obtain ⟨q₁, hstep, hq₁⟩ := step_consistent h call
      obtain ⟨q', hrun, hq'⟩ := ih hq₁
      refine ⟨q', ?_, hq'⟩
      rw [run, hstep, Option.bind_some]
      exact hrun

/-- A group exists exactly as long as a queued player is in it. -/
theorem Consistent.exists_iff (h : q.Consistent) (g : GroupId) :
    (q.groups g).isSome ↔ ∃ guid, q.queuedPlayers.lookup guid = some g := by
  obtain ⟨hmanned, -⟩ := h
  rw [← playersOf_isSome, Option.isSome_iff_exists]
  refine ⟨?_, ?_⟩
  · rintro ⟨players, hplayers⟩
    obtain ⟨guid, hguid⟩ := List.exists_mem_of_ne_nil _ (hmanned.nonempty g players hplayers)
    exact ⟨guid, (hmanned.player guid g).2 ⟨players, hplayers, hguid⟩⟩
  · rintro ⟨guid, hguid⟩
    obtain ⟨players, hplayers, -⟩ := (hmanned.player guid g).1 hguid
    exact ⟨players, hplayers⟩

/-- Every run of joining, leaving and updating comes to its end. In the queue it
leaves, a group that exists stands once in one list and nowhere else, a list of
its team; the lists hold nothing else; a player maps to a group exactly if it
holds him; and at the next call a group is deleted exactly if no player is left
who maps to it. -/
theorem run_finds_groups (calls : List QueueCall) :
    ∃ q, empty.run calls = some q ∧
      (∀ g ginfo, q.groups g = some ginfo → ∃ place : ListId,
        place.bracket < maxBattlegroundBrackets ∧ place.team = ginfo.team ∧
          ∀ p, (q.queuedGroups p).count g = if p = place then 1 else 0) ∧
      (∀ p, ∀ g ∈ q.queuedGroups p, (q.groups g).isSome) ∧
      (∀ guid g, q.queuedPlayers.lookup guid = some g ↔
        ∃ ginfo, q.groups g = some ginfo ∧ guid ∈ ginfo.players) ∧
      ∀ call, ∃ q', q.step call = some q' ∧ ∀ g, (q.groups g).isSome →
        (q'.groups g = none ↔ ∀ guid, q'.queuedPlayers.lookup guid ≠ some g) := by
  obtain ⟨q, hrun, hq⟩ := run_consistent calls empty_consistent
  refine ⟨q, hrun, fun g ginfo hg => ?_, fun p g hg => ?_, fun guid g => ?_, fun call => ?_⟩
  · obtain ⟨-, place, hplaced, hteams⟩ := hq
    have hsome := hplaced.queued g
    rw [hg, Option.isSome_some] at hsome
    obtain ⟨p, hp⟩ := Option.isSome_iff_exists.1 hsome.symm
    refine ⟨p, hplaced.bracket g p hp, ?_, fun p' => ?_⟩
    · have := hteams g
      rw [hp, teamOf, hg, Option.map_some, Option.map_some, Option.some.injEq] at this
      exact this.symm
    · split <;> rename_i heq
      · rw [heq]
        exact hplaced.filed.count_eq_one hp
      · refine List.count_eq_zero.2 fun hin => heq ?_
        exact hplaced.filed.key_eq hin ((hplaced.filed.mem_iff p g).2 hp)
  · obtain ⟨ginfo, hg, -⟩ := hq.info hg
    rw [hg, Option.isSome_some]
  · rw [hq.1.player]
    simp [playersOf]
  · obtain ⟨q', hstep, hq'⟩ := step_consistent hq call
    refine ⟨q', hstep, fun g _ => ?_⟩
    rw [← Option.not_isSome_iff_eq_none, hq'.exists_iff, not_exists]

end BattlegroundQueue

end Sunstrider.Battlegrounds.Matching
