import Sunstrider.Proofs.QueueLists

/-!
# Groups that change their list

The three moves of an update. A waiting premade group changes to the normal list
of its team, so only its place is rewritten. `CheckSkirmishForSameFaction` walks
over the groups it has picked behind the marked one: each is written to the other
team, put in front of that team's list and erased behind the mark. As no group
stands in a list twice, erasing behind the mark is erasing, and the marked group
and what was picked and not yet moved are where they were. The two rated teams
are moved first, and inviting them then makes their team the one of their place.
-/

namespace Sunstrider.Battlegrounds.Matching

open Population (Team GroupId)

variable {q q' : BattlegroundQueue} {place : GroupId → Option ListId} {p p' : ListId}
  {g mark : GroupId} {ginfo : GroupQueueInfo} {team side : Team} {bracket : Nat}
  {list list' : List GroupId}

@[simp] theorem otherTeam_ne (team : Team) : otherTeam team ≠ team := by
  cases team <;> decide

@[simp] theorem ne_otherTeam (team : Team) : team ≠ otherTeam team := by
  cases team <;> decide

theorem eq_otherTeam (h : team ≠ side) : team = otherTeam side := by
  cases team <;> cases side <;> simp_all [otherTeam]

namespace BattlegroundQueue

variable {before later : List GroupId}

/-! ## One move -/

theorem Placed.move (h : q.Placed place) (hplace : place g = some p) (hne : p ≠ p')
    (hbracket : p'.bracket = p.bracket) (hlist' : list'.Perm (g :: q.queuedGroups p'))
    (hlist : list.Perm ((q.queuedGroups p).erase g)) :
    ((q.setList p' list').setList p list).Placed (Function.update place g (some p')) where
  filed := h.filed.move hplace hne hlist' hlist
  queued := by
    intro g'
    by_cases hg : g' = g
    · subst hg
      rw [Function.update_self]
      exact (h.queued g').trans (by rw [hplace, Option.isSome_some, Option.isSome_some])
    · rw [Function.update_of_ne hg]
      exact h.queued g'
  bracket := by
    intro g' p'' hp
    by_cases hg : g' = g
    · subst hg
      rw [Function.update_self, Option.some.injEq] at hp
      rw [← hp, hbracket]
      exact h.bracket g' p hplace
    · rw [Function.update_of_ne hg] at hp
      exact h.bracket g' p'' hp

theorem setList_same (q : BattlegroundQueue) (p : ListId) (list : List GroupId) :
    SamePlayers q (q.setList p list) := ⟨rfl, rfl, rfl⟩

/-- A move to a list of the same team. -/
theorem Consistent.move (h : q.Consistent) (hg : g ∈ q.queuedGroups p) (hne : p ≠ p')
    (hbracket : p'.bracket = p.bracket) (hteam : p'.team = p.team)
    (hlist' : list'.Perm (g :: q.queuedGroups p'))
    (hlist : list.Perm ((q.queuedGroups p).erase g)) :
    ((q.setList p' list').setList p list).Consistent := by
  obtain ⟨hmanned, place, hplaced, hteams⟩ := h
  have hplace := (hplaced.filed.mem_iff p g).1 hg
  refine ⟨((setList_same q p' list').trans (setList_same _ p list)).manned hmanned, _,
    hplaced.move hplace hne hbracket hlist' hlist, fun g' => ?_⟩
  refine (hteams g').trans ?_
  by_cases hg' : g' = g
  · subst hg'
    rw [Function.update_self, hplace, Option.map_some, Option.map_some, hteam]
  · rw [Function.update_of_ne hg']

theorem Consistent.info (h : q.Consistent) (hg : g ∈ q.queuedGroups p) :
    ∃ ginfo, q.groups g = some ginfo ∧ ginfo.team = p.team := by
  obtain ⟨-, place, hplaced, hteams⟩ := h
  have hteam := hteams g
  rw [(hplaced.filed.mem_iff p g).1 hg, Option.map_some] at hteam
  exact teamOf_eq_some.1 hteam

theorem Consistent.nodup (h : q.Consistent) (p : ListId) : (q.queuedGroups p).Nodup := by
  obtain ⟨-, place, hplaced, -⟩ := h
  exact hplaced.filed.nodup p

/-! ## `CheckPremadeMatch` -/

theorem movePremade_consistent (h : q.Consistent) (bracket timeBefore minPlayers : Nat)
    (team : Team) : (q.movePremade bracket timeBefore minPlayers team).Consistent := by
  cases hlist : q.premadeList bracket team with
  | nil =>
      simp only [movePremade, hlist]
      exact h
  | cons g rest =>
      have hmem : g ∈ q.queuedGroups ⟨bracket, .premade, team⟩ := by
        rw [show q.queuedGroups ⟨bracket, .premade, team⟩ = g :: rest from hlist]
        exact List.mem_cons_self
      obtain ⟨ginfo, hg, -⟩ := h.info hmem
      simp only [movePremade, hlist, hg]
      split
      · refine h.move hmem (by simp) rfl rfl (List.Perm.refl _) ?_
        rw [show q.queuedGroups ⟨bracket, .premade, team⟩ = g :: rest from hlist]
        simp
      · exact h

theorem checkPremadeMatch_consistent (h : q.Consistent) (bracket minPlayers maxPlayers
    timeBefore : Nat) :
    (q.checkPremadeMatch bracket minPlayers maxPlayers timeBefore).2.Consistent := by
  cases hpair : q.premadePair bracket with
  | some pair =>
      simp only [checkPremadeMatch, hpair, setPools_eq]
      exact (withPools_alike q _).consistent h
  | none =>
      simp only [checkPremadeMatch, hpair]
      exact movePremade_consistent (movePremade_consistent h ..) ..

/-! ## `CheckSkirmishForSameFaction` -/

theorem eraseBehind_append (hmark : mark ∉ before) :
    eraseBehind mark g (before ++ mark :: later) = before ++ mark :: later.erase g := by
  induction before with
  | nil => simp [eraseBehind]
  | cons x before ih =>
      rw [List.mem_cons, not_or] at hmark
      simp only [List.cons_append, eraseBehind]
      rw [if_neg (Ne.symm hmark.1), ih hmark.2]

/-- One group behind the mark goes to the other team. -/
theorem changeTeam_consistent (h : q.Consistent)
    (hlist : q.normalList bracket team = before ++ mark :: later) (hg : g ∈ later) :
    (changeTeam bracket team mark q g).Consistent ∧
      (changeTeam bracket team mark q g).normalList bracket team =
        before ++ mark :: later.erase g := by
  obtain ⟨hmanned, place, hplaced, hteams⟩ := h
  have hnodup : (before ++ mark :: later).Nodup := hlist ▸ hplaced.filed.nodup _
  obtain ⟨-, hbehind, hapart⟩ := List.nodup_append'.1 hnodup
  have hmark : mark ∉ before := fun hm => hapart hm List.mem_cons_self
  have hgbefore : g ∉ before := fun hm => hapart hm (List.mem_cons_of_mem _ hg)
  have hgmark : g ≠ mark := by
    rintro rfl
    exact (List.nodup_cons.1 hbehind).1 hg
  have hmem : g ∈ q.queuedGroups ⟨bracket, .normal, team⟩ := by
    rw [show q.queuedGroups ⟨bracket, .normal, team⟩ = _ from hlist]
    simp [hg]
  have hplace := (hplaced.filed.mem_iff _ g).1 hmem
  obtain ⟨ginfo, hginfo, -⟩ := Consistent.info ⟨hmanned, place, hplaced, hteams⟩ hmem
  have hother : (⟨bracket, .normal, team⟩ : ListId) ≠ ⟨bracket, .normal, otherTeam team⟩ := by
    simp
  have herase : eraseBehind mark g (before ++ mark :: later) =
      (before ++ mark :: later).erase g := by
    rw [eraseBehind_append hmark, List.erase_append_right _ hgbefore,
      List.erase_cons_tail (by simpa using hgmark.symm)]
  -- the list the source walks over is still the one from before
  have hsame : (Function.update q.queuedGroups ⟨bracket, .normal, otherTeam team⟩
      (g :: q.normalList bracket (otherTeam team))) ⟨bracket, .normal, team⟩ =
        before ++ mark :: later := by
    rw [Function.update_of_ne hother]
    exact hlist
  have hstep : changeTeam bracket team mark q g =
      ((((q.setGroup g (some { ginfo with team := otherTeam team })).setList
        ⟨bracket, .normal, otherTeam team⟩ (g :: q.normalList bracket (otherTeam team))).setList
          ⟨bracket, .normal, team⟩ (before ++ mark :: later.erase g))) := by
    simp only [changeTeam, hginfo]
    refine congrArg (setList _ _) ?_
    refine Eq.trans (congrArg (eraseBehind mark g) hsame) ?_
    exact eraseBehind_append hmark
  have hgroup : SamePlayers q (q.setGroup g (some { ginfo with team := otherTeam team })) :=
    setGroup_same hginfo rfl
  rw [hstep]
  refine ⟨⟨(hgroup.trans ((setList_same _ _ _).trans (setList_same _ _ _))).manned hmanned,
    Function.update place g (some ⟨bracket, .normal, otherTeam team⟩), ?_, fun g' => ?_⟩, ?_⟩
  · refine (hplaced.ofSame hgroup rfl).move hplace hother rfl (List.Perm.refl _) ?_
    rw [show (q.setGroup g _).queuedGroups ⟨bracket, .normal, team⟩ = _ from hlist, ← herase,
      eraseBehind_append hmark]
  · refine (congrFun (teamOf_setGroup q g _) g').trans ?_
    by_cases hg' : g' = g
    · subst hg'
      rw [Function.update_self, Function.update_self, Option.map_some]
    · rw [Function.update_of_ne hg', Function.update_of_ne hg']
      exact hteams g'
  · simp [normalList, setList]

theorem changeTeams_consistent (gs : List GroupId) (h : q.Consistent)
    (hlist : q.normalList bracket team = before ++ mark :: later) (hgs : gs.Nodup)
    (hsub : ∀ g ∈ gs, g ∈ later) : (gs.foldl (changeTeam bracket team mark) q).Consistent := by
  induction gs generalizing q later with
  | nil => exact h
  | cons g gs ih =>
      obtain ⟨hg, hrest⟩ := List.nodup_cons.1 hgs
      obtain ⟨hstep, hlist'⟩ := changeTeam_consistent h hlist (hsub g List.mem_cons_self)
      refine ih hstep hlist' hrest fun g' hg' => ?_
      refine (List.mem_erase_of_ne ?_).2 (hsub g' (List.mem_cons_of_mem _ hg'))
      rintro rfl
      exact hg hg'

/-- What the loop adds are groups that are not invited, in the order of the list. -/
theorem addNormalGroups_spec {limit limit' : Nat} (list : List GroupId) {pool : SelectionPool}
    (h : pool.Sound q limit') (hlimit : limit ≤ limit') :
    (q.addNormalGroups limit list pool).Sound q limit' ∧
      (q.addNormalGroups limit list pool).selectedGroups.Sublist
        (pool.selectedGroups ++ list) := by
  induction list generalizing pool with
  | nil => exact ⟨h, by simp [addNormalGroups]⟩
  | cons g rest ih =>
      have hskip : (pool.selectedGroups ++ rest).Sublist (pool.selectedGroups ++ g :: rest) :=
        (List.sublist_cons_self g rest).append_left _
      rw [addNormalGroups]
      split
      · exact ⟨(ih h).1, (ih h).2.trans hskip⟩
      · rcases SelectionPool.addGroup_cases q pool g limit with ⟨hg, hcount, hadd⟩ | ⟨hpool, -⟩
        · simp only [hadd]
          obtain ⟨hsound, hsub⟩ := ih (h.append hg (le_trans hcount hlimit))
          exact ⟨hsound, hsub.trans (by simp)⟩
        · -- the group did not fit: the pool is as it was
          have hadd : pool.addGroup q g limit = ((pool.addGroup q g limit).1, pool) :=
            Prod.ext rfl hpool
          generalize (pool.addGroup q g limit).1 = more at hadd
          rw [hadd]
          cases more with
          | true => exact ⟨(ih h).1, (ih h).2.trans hskip⟩
          | false => exact ⟨h, List.sublist_append_left _ _⟩

/-- The search for the marked group, where it ends. -/
theorem dropWhile_mark (h : list.dropWhile (fun g' => g' != mark) = g :: later) :
    g = mark ∧ ∃ before, list = before ++ mark :: later := by
  induction list with
  | nil => cases h
  | cons x xs ih =>
      by_cases hx : x = mark
      · rw [List.dropWhile_cons_of_neg (by simp [hx]), List.cons.injEq] at h
        exact ⟨h.1 ▸ hx, [], by rw [hx, h.2, List.nil_append]⟩
      · rw [List.dropWhile_cons_of_pos (by simp [hx])] at h
        obtain ⟨hg, before, hxs⟩ := ih h
        exact ⟨hg, x :: before, by rw [hxs, List.cons_append]⟩

theorem checkSkirmishForSameFaction_consistent (h : q.Consistent) (bracket minPlayers : Nat)
    (stray : GroupId) :
    (q.checkSkirmishForSameFaction bracket minPlayers stray).2.Consistent := by
  cases hteam : q.skirmishTeam minPlayers with
  | none =>
      simp only [checkSkirmishForSameFaction, hteam]
      exact h
  | some team =>
      simp only [checkSkirmishForSameFaction, hteam, divideTeam]
      split
      · exact (setPool_alike q _ _).consistent h
      · rename_i mark later hdrop
        split
        · exact ((setPool_alike q _ _).trans (setPool_alike _ _ _)).consistent h
        · have hq := ((setPool_alike q (otherTeam team) .init).trans
            (setPool_alike _ (otherTeam team)
              ((q.setPool (otherTeam team) .init).addNormalGroups minPlayers later
                .init))).consistent h
          obtain ⟨-, hpicked⟩ := addNormalGroups_spec (q := q.setPool (otherTeam team) .init)
            later SelectionPool.init_sound (le_refl minPlayers)
          obtain ⟨-, before, hlist⟩ := dropWhile_mark hdrop
          have hnodup : (q.normalList bracket team).Nodup := h.nodup ⟨bracket, .normal, team⟩
          rw [show q.normalList bracket team = _ from hlist] at hnodup
          have hlater := (List.nodup_cons.1 (List.nodup_append'.1 hnodup).2.1).2
          exact changeTeams_consistent _ hq hlist (hpicked.nodup hlater) fun g hg =>
            hpicked.subset hg

/-! ## The rated match -/

/-- A team that is found stands in its list, and suits. -/
theorem findRated_spec {suits : GroupQueueInfo → Bool} (h : q.findRated suits list = some g) :
    g ∈ list ∧ ∃ ginfo, q.groups g = some ginfo ∧ suits ginfo = true := by
  refine ⟨List.mem_of_find?_eq_some h, ?_⟩
  have := List.find?_some h
  simpa [Option.any_eq_true] using this

/-- Two different teams of the premade lists. -/
theorem findTeams_spec {suits : GroupQueueInfo → Bool} {aTeam hTeam : GroupId}
    (hq : q.Consistent) (h : q.findTeams bracket suits = some (aTeam, hTeam)) :
    aTeam ≠ hTeam ∧ (∃ team, aTeam ∈ q.premadeList bracket team) ∧
      ∃ team, hTeam ∈ q.premadeList bracket team := by
  -- two of the same list differ in their arena team
  have hsecond : ∀ {team first}, q.findRated suits (q.premadeList bracket team) = some first →
      q.findSecond suits first (q.premadeList bracket team) = some (aTeam, hTeam) →
      aTeam ≠ hTeam ∧ (∃ team, aTeam ∈ q.premadeList bracket team) ∧
        ∃ team, hTeam ∈ q.premadeList bracket team := by
    intro team first hfirst hpair
    obtain ⟨hmem, ginfo, hg, -⟩ := findRated_spec hfirst
    simp only [findSecond, hg, Option.map_eq_some_iff, Prod.mk.injEq] at hpair
    obtain ⟨second, hfind, rfl, rfl⟩ := hpair
    obtain ⟨hmem', ginfo', hg', hother⟩ := findRated_spec hfind
    simp only [Bool.and_eq_true, bne_iff_ne, ne_eq] at hother
    refine ⟨?_, ⟨team, hmem⟩, team, List.dropWhile_sublist _ |>.subset hmem'⟩
    rintro rfl
    rw [hg, Option.some.injEq] at hg'
    exact hother.2 (hg' ▸ rfl)
  unfold findTeams at h
  dsimp only at h
  cases hali : q.findRated suits (q.premadeList bracket .alliance) with
  | none =>
      cases hhorde : q.findRated suits (q.premadeList bracket .horde) with
      | none => simp [hali, hhorde] at h
      | some first =>
          simp only [hali, hhorde] at h
          exact hsecond hhorde h
  | some first =>
      cases hhorde : q.findRated suits (q.premadeList bracket .horde) with
      | none =>
          simp only [hali, hhorde] at h
          exact hsecond hali h
      | some second =>
          simp only [hali, hhorde, Option.some.injEq, Prod.mk.injEq] at h
          obtain ⟨rfl, rfl⟩ := h
          obtain ⟨hmem, -⟩ := findRated_spec hali
          obtain ⟨hmem', -⟩ := findRated_spec hhorde
          refine ⟨?_, ⟨_, hmem⟩, _, hmem'⟩
          rintro rfl
          obtain ⟨-, place, hplaced, -⟩ := hq
          have := hplaced.filed.key_eq hmem hmem'
          simp at this

/-- A rated team that is to play for a side stands in that side's list. -/
theorem moveRated_spec (h : q.Placed place) (hplace : place g = some ⟨bracket, .premade, team⟩)
    (hteam : q.teamOf g = some team) (side : Team) :
    SamePlayers q (q.moveRated bracket g side) ∧
      (q.moveRated bracket g side).teamOf = q.teamOf ∧
      (q.moveRated bracket g side).Placed
        (Function.update place g (some ⟨bracket, .premade, side⟩)) := by
  obtain ⟨ginfo, hg, rfl⟩ := teamOf_eq_some.1 hteam
  simp only [moveRated, hg]
  split <;> rename_i hside
  · obtain hother := eq_otherTeam hside
    rw [hother] at hplace
    exact ⟨(setList_same _ _ _).trans (setList_same _ _ _), rfl,
      h.move hplace (by simp) rfl (List.Perm.refl _) (by
        simp [setList, premadeList, otherTeam_ne])⟩
  · rw [not_not] at hside
    rw [← hside, Function.update_eq_self_iff.2 hplace.symm]
    exact ⟨.refl q, rfl, h⟩

theorem Consistent.premade (h : q.Consistent) (hg : g ∈ q.premadeList bracket team) :
    q.teamOf g = some team := teamOf_eq_some.2 (h.info hg)

/-- Both teams are moved, and then invited for the side they are to play for. -/
theorem playRated_consistent {aTeam hTeam : GroupId} {aSide hSide : Team} (h : q.Consistent)
    (hne : aTeam ≠ hTeam) (ha : aTeam ∈ q.premadeList bracket aSide)
    (hh : hTeam ∈ q.premadeList bracket hSide) (instanceId now : Nat) :
    ((((q.moveRated bracket aTeam .alliance).moveRated bracket hTeam .horde).inviteGroupToBG
      aTeam instanceId .alliance now).inviteGroupToBG hTeam instanceId .horde now).Consistent := by
  have haTeam := h.premade ha
  have hhTeam := h.premade hh
  obtain ⟨hmanned, place, hplaced, hteams⟩ := h
  have haPlace := (hplaced.filed.mem_iff _ aTeam).1 ha
  have hhPlace := (hplaced.filed.mem_iff _ hTeam).1 hh
  -- moved, with the teams they had
  obtain ⟨hsame₁, hteam₁, hplaced₁⟩ := moveRated_spec hplaced haPlace haTeam .alliance
  rw [← Function.update_of_ne hne.symm (some ⟨bracket, .premade, .alliance⟩) place] at hhPlace
  obtain ⟨hsame₂, hteam₂, hplaced₂⟩ :=
    moveRated_spec hplaced₁ hhPlace (by rw [hteam₁]; exact hhTeam) .horde
  -- invited, with new teams
  obtain ⟨hsame₃, hlists₃, hteam₃⟩ := inviteGroupToBG_spec
    (by rw [hteam₂, hteam₁]; exact haTeam) .alliance instanceId now
  obtain ⟨hsame₄, hlists₄, hteam₄⟩ := inviteGroupToBG_spec
    (by rw [hteam₃, hteam₂, hteam₁, Function.update_of_ne hne.symm]; exact hhTeam) .horde
    instanceId now
  have hsame := hsame₃.trans hsame₄
  refine ⟨((hsame₁.trans hsame₂).trans hsame).manned hmanned, _,
    hplaced₂.ofSame hsame (hlists₄.trans hlists₃), fun g => ?_⟩
  rw [hteam₄, hteam₃, hteam₂, hteam₁]
  by_cases hgh : g = hTeam
  · subst hgh
    rw [Function.update_self, Function.update_self, Option.map_some]
  · rw [Function.update_of_ne hgh, Function.update_of_ne hgh]
    by_cases hga : g = aTeam
    · subst hga
      rw [Function.update_self, Function.update_self, Option.map_some]
    · rw [Function.update_of_ne hga, Function.update_of_ne hga]
      exact hteams g

theorem startRated_consistent (h : q.Consistent) (r : UpdateRequest) :
    (q.startRated r).Consistent := by
  unfold startRated
  split
  · exact h
  · split
    · exact h
    · rename_i aTeam hTeam hfind
      split
      · rename_i instanceId aInfo hInfo hnew haInfo hhInfo
        obtain ⟨hne, ⟨aSide, ha⟩, hSide, hh⟩ := findTeams_spec h hfind
        -- the opponents are written down
        have halike := (setOpponents_alike q aTeam hInfo).trans
          (setOpponents_alike _ hTeam aInfo)
        have hlists : ∀ {g team}, g ∈ q.premadeList r.bracket team → g ∈
            ((q.setOpponents aTeam hInfo).setOpponents hTeam aInfo).premadeList r.bracket team := by
          intro g team hg
          rw [premadeList, halike.queuedGroups]
          exact hg
        exact playRated_consistent (halike.consistent h) hne (hlists ha) (hlists hh) instanceId
          r.now
      · exact h

/-! ## The update -/

theorem startPremade_consistent (h : q.Consistent) (r : UpdateRequest)
    (t : BattlegroundTemplate) : (q.startPremade r t).2.Consistent := by
  unfold startPremade
  split
  · exact h
  · have hchecked := checkPremadeMatch_consistent h r.bracket (r.minPlayersPerTeam t)
      (r.maxPlayersPerTeam t) r.timeBefore
    split <;> rename_i q' hcheck <;> rw [hcheck] at hchecked
    · exact hchecked
    · split
      · exact hchecked
      · exact ((invitePools_alike q' _ r.now).trans (initPools_alike _)).consistent hchecked

theorem checkMatch_consistent (h : q.Consistent) (r : UpdateRequest) (t : BattlegroundTemplate) :
    (q.checkMatch r t).2.Consistent := by
  have hchecked := (checkNormalMatch_alike q r.bracket (r.minPlayersPerTeam t)
    (r.maxPlayersPerTeam t) (r.invitationType != .noBalance)
    (r.battlegroundTesting && !t.isArena)).consistent h
  unfold checkMatch
  split <;> rename_i q' hcheck <;> rw [hcheck] at hchecked
  · exact hchecked
  · split
    · exact checkSkirmishForSameFaction_consistent hchecked _ _ _
    · exact hchecked

theorem startNormal_consistent (h : q.Consistent) (r : UpdateRequest)
    (t : BattlegroundTemplate) : (q.startNormal r t).Consistent := by
  have hchecked := checkMatch_consistent h r t
  unfold startNormal
  split <;> rename_i q' hcheck <;> rw [hcheck] at hchecked
  · exact hchecked
  · split
    · exact hchecked
    · exact (invitePools_alike q' _ r.now).consistent hchecked

theorem fillBattlegrounds_consistent (h : q.Consistent) (r : UpdateRequest)
    (bgs : List FreeBattleground) :
    ∃ q', fillBattlegrounds r bgs q = some q' ∧ q'.Consistent := by
  induction bgs generalizing q with
  | nil => exact ⟨q, rfl, h⟩
  | cons bg rest ih =>
      obtain ⟨q₁, loopEnd, hfill, halike⟩ :=
        fillPlayersToBG_alike q r.invitationType r.bracket bg.freeSlots
      obtain ⟨q', hrest, hq'⟩ :=
        ih ((halike.trans (invitePools_alike q₁ bg.instanceId r.now)).consistent h)
      refine ⟨q', ?_, hq'⟩
      rw [fillBattlegrounds, hfill]
      exact hrest

/-- An update comes to an end, and keeps the queue in order. -/
theorem battlegroundQueueUpdate_consistent (h : q.Consistent) (r : UpdateRequest) :
    ∃ q', q.battlegroundQueueUpdate r = some q' ∧ q'.Consistent := by
  unfold battlegroundQueueUpdate
  split
  · exact ⟨q, rfl, h⟩
  · obtain ⟨q₁, hfill, hq₁⟩ := fillBattlegrounds_consistent h r r.freeBattlegrounds
    rw [hfill]
    dsimp only
    split
    · exact ⟨q₁, rfl, hq₁⟩
    · rename_i t ht
      have hpremade := startPremade_consistent ((initPools_alike q₁).consistent hq₁) r t
      split <;> rename_i q₂ hstart <;> rw [hstart] at hpremade
      · exact ⟨q₂, rfl, hpremade⟩
      · split
        · exact ⟨_, rfl, startNormal_consistent hpremade r t⟩
        · split
          · exact ⟨_, rfl, startRated_consistent hpremade r⟩
          · exact ⟨q₂, rfl, hpremade⟩

end BattlegroundQueue

end Sunstrider.Battlegrounds.Matching
