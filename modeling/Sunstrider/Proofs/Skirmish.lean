import Sunstrider.Proofs.QueueRuns

/-!
# A skirmish within one faction

`CheckNormalMatch` leaves two sound pools, each of groups of its team's normal
list in their order. `CheckSkirmishForSameFaction` takes the pool of one team as
it is, and fills the other with the groups that stand behind the last one picked.

It is the Horde's pool that is divided if it holds the minimum exactly, and the
Alliance's otherwise. So the Alliance's is taken also where the Horde's holds
more than the minimum and the Alliance's less: it may be empty, and then there is
no last group, or the match is made with too few players. Elsewhere the pool that
is taken has the minimum, and what is found behind its last group is disjoint
from it because no group stands in a list twice.
-/

namespace Sunstrider.Battlegrounds.Matching

open Population (Team GroupId)

variable {q q' : BattlegroundQueue} {g mark : GroupId} {team : Team}
  {bracket minPlayers maxPlayers limit : Nat} {list later : List GroupId} {pool : SelectionPool}

@[simp] theorem init_selectedGroups : SelectionPool.init.selectedGroups = [] := rfl

/-! ## What `CheckNormalMatch` leaves -/

/-- A sound pool of groups of the list, in their order. -/
structure Selected (q : BattlegroundQueue) (limit : Nat) (list : List GroupId)
    (pool : SelectionPool) : Prop where
  sound : pool.Sound q limit
  order : pool.selectedGroups.Sublist list

/-- A pool is as sound in another state of the queue, if sizes and invitations are
the same there. -/
theorem Selected.congr (h : Selected q limit list pool) (hsize : q'.size = q.size)
    (hinvited : q'.isInvited = q.isInvited) : Selected q' limit list pool where
  sound := by
    refine ⟨?_, ?_, h.sound.within⟩
    · unfold BattlegroundQueue.sizeOf
      rw [hsize]
      exact h.sound.counted
    · rw [hinvited]
      exact h.sound.uninvited
  order := h.order

theorem addGroup_spec (h : pool.Sound q limit) (g : GroupId) :
    (pool.addGroup q g limit).2.Sound q limit ∧
      (pool.addGroup q g limit).2.selectedGroups.Sublist (pool.selectedGroups ++ [g]) := by
  rcases SelectionPool.addGroup_cases q pool g limit with ⟨hg, hcount, hadd⟩ | ⟨hpool, -⟩
  · rw [hadd]
    exact ⟨h.append hg hcount, List.Sublist.refl _⟩
  · rw [hpool]
    exact ⟨h, List.sublist_append_left _ _⟩

/-- Where the iterator stands at the end of the list, there are too few players,
or nobody to pick. -/
theorem selectUntil_spec (minPlayers : Nat) (list : List GroupId) {pool : SelectionPool}
    (h : pool.Sound q maxPlayers) :
    (q.selectUntil minPlayers maxPlayers list pool).pool.Sound q maxPlayers ∧
      ((∃ g later, (q.selectUntil minPlayers maxPlayers list pool).rest = g :: later ∧
          ((q.selectUntil minPlayers maxPlayers list pool).pool.selectedGroups ++ later).Sublist
            (pool.selectedGroups ++ list)) ∨
        ((q.selectUntil minPlayers maxPlayers list pool).rest = [] ∧
          (q.selectUntil minPlayers maxPlayers list pool).pool.selectedGroups.Sublist
            (pool.selectedGroups ++ list) ∧
          ((q.selectUntil minPlayers maxPlayers list pool).pool.playerCount < minPlayers ∨
            (q.selectUntil minPlayers maxPlayers list pool).pool = pool ∧
              ∀ g ∈ list, q.isInvited g = true))) := by
  induction list generalizing pool with
  | nil => exact ⟨h, .inr ⟨rfl, by simp [BattlegroundQueue.selectUntil], .inr ⟨rfl, by simp⟩⟩⟩
  | cons g rest ih =>
      have hskip : (pool.selectedGroups ++ rest).Sublist (pool.selectedGroups ++ g :: rest) :=
        (List.sublist_cons_self g rest).append_left _
      rw [BattlegroundQueue.selectUntil]
      split <;> rename_i hg
      · obtain ⟨hsound, hend⟩ := ih h
        refine ⟨hsound, ?_⟩
        rcases hend with ⟨g', later, hrest, hsub⟩ | ⟨hrest, hsub, hfew⟩
        · exact .inl ⟨g', later, hrest, hsub.trans hskip⟩
        · refine .inr ⟨hrest, hsub.trans hskip, hfew.imp_right fun ⟨hpool, hall⟩ => ⟨hpool, ?_⟩⟩
          exact List.forall_mem_cons.2 ⟨hg, hall⟩
      · obtain ⟨hadded, hsub⟩ := addGroup_spec h g
        have hsub' : ((pool.addGroup q g maxPlayers).2.selectedGroups ++ rest).Sublist
            (pool.selectedGroups ++ g :: rest) := by
          simpa using hsub.append_right rest
        dsimp only
        split <;> rename_i hmin
        · exact ⟨hadded, .inl ⟨g, rest, rfl, hsub'⟩⟩
        · obtain ⟨hsound, hend⟩ := ih hadded
          refine ⟨hsound, ?_⟩
          rcases hend with ⟨g', later, hrest, hlater⟩ | ⟨hrest, hlater, hfew⟩
          · exact .inl ⟨g', later, hrest, hlater.trans hsub'⟩
          · refine .inr ⟨hrest, hlater.trans hsub', .inl ?_⟩
            rcases hfew with hfew | ⟨hpool, -⟩
            · exact hfew
            · rw [hpool]
              omega

theorem addNormalGroups_invited (h : ∀ g ∈ list, q.isInvited g = true) :
    q.addNormalGroups limit list pool = pool := by
  induction list with
  | nil => rfl
  | cons g rest ih =>
      rw [List.forall_mem_cons] at h
      rw [BattlegroundQueue.addNormalGroups, if_pos h.1]
      exact ih h.2

/-- The groups picked first, and those added behind them. -/
theorem addAfterIterator_spec (hlimit : limit ≤ maxPlayers)
    (henough : minPlayers ≤
      (q.selectUntil minPlayers maxPlayers list .init).pool.playerCount) :
    Selected q maxPlayers list (q.addNormalGroups limit
      (BattlegroundQueue.afterIterator list (q.selectUntil minPlayers maxPlayers list .init).rest)
      (q.selectUntil minPlayers maxPlayers list .init).pool) := by
  have hinit : SelectionPool.init.Sound q maxPlayers := SelectionPool.init_sound
  obtain ⟨hsound, hend⟩ := selectUntil_spec minPlayers list hinit
  rcases hend with ⟨g, later, hrest, hsub⟩ | ⟨hrest, hsub, hfew | ⟨hpool, hall⟩⟩
  · rw [hrest]
    obtain ⟨hadded, hsub'⟩ := BattlegroundQueue.addNormalGroups_spec later hsound hlimit
    exact ⟨hadded, hsub'.trans (by simpa using hsub)⟩
  · omega
  · rw [hrest, BattlegroundQueue.afterIterator, addNormalGroups_invited hall]
    exact ⟨hsound, by simpa using hsub⟩

theorem selectUntil_selected (q : BattlegroundQueue) (minPlayers maxPlayers : Nat)
    (list : List GroupId) :
    Selected q maxPlayers list (q.selectUntil minPlayers maxPlayers list .init).pool := by
  have hinit : SelectionPool.init.Sound q maxPlayers := SelectionPool.init_sound
  obtain ⟨hsound, hend⟩ := selectUntil_spec minPlayers list hinit
  refine ⟨hsound, ?_⟩
  rcases hend with ⟨g, later, -, hsub⟩ | ⟨-, hsub, -⟩
  · simpa using (List.sublist_append_left _ _).trans hsub
  · simpa using hsub

namespace BattlegroundQueue

/-- `CheckNormalMatch` writes the pools only, and both are sound. -/
theorem checkNormalMatch_pools (q : BattlegroundQueue) (bracket minPlayers maxPlayers : Nat)
    (balance debug : Bool) :
    ∃ pools, (q.initPools.checkNormalMatch bracket minPlayers maxPlayers balance debug).2 =
        { q with selectionPools := pools } ∧
      ∀ team, Selected q maxPlayers (q.normalList bracket team) (pools team) := by
  simp only [checkNormalMatch, apply_ite Prod.snd, ite_self, setPools_eq]
  refine ⟨_, rfl, fun team => Selected.congr (q := q.initPools) ?_ rfl rfl⟩
  split <;> rename_i hbalance
  · simp only [Bool.and_eq_true, decide_eq_true_eq] at hbalance
    obtain ⟨-, hali, hhorde⟩ := hbalance
    split
    · cases team with
      | alliance => exact selectUntil_selected q.initPools _ _ _
      | horde =>
          exact addAfterIterator_spec (selectUntil_selected q.initPools ..).sound.within hhorde
    · cases team with
      | alliance =>
          exact addAfterIterator_spec (selectUntil_selected q.initPools ..).sound.within hali
      | horde => exact selectUntil_selected q.initPools _ _ _
  · cases team with
    | alliance => exact selectUntil_selected q.initPools _ _ _
    | horde => exact selectUntil_selected q.initPools _ _ _

/-! ## What is behind the last group -/

/-- The groups behind the last one picked of a team. -/
def behind (q : BattlegroundQueue) (bracket : Nat) (team : Team) : List GroupId :=
  match (q.selectionPools team).selectedGroups.getLast? with
  | none => []
  | some last => ((q.normalList bracket team).dropWhile fun g => g != last).tail

/-- The sizes of the groups of a list that can be invited. -/
def sizes (q : BattlegroundQueue) (list : List GroupId) : List Nat :=
  (list.filter fun g => !q.isInvited g).map q.size

/-- How much of some room is filled, if everything that still fits is taken. -/
def packed (room : Nat) : List Nat → Nat
  | [] => 0
  | n :: rest => if n ≤ room then n + packed (room - n) rest else packed room rest

theorem packed_zero {list : List Nat} (h : ∀ n ∈ list, 0 < n) : packed 0 list = 0 := by
  induction list with
  | nil => rfl
  | cons n rest ih =>
      rw [List.forall_mem_cons] at h
      rw [packed, if_neg (by omega)]
      exact ih h.2

/-- The loop stops early only where there is no room left. -/
theorem addNormalGroups_packed (list : List GroupId) {pool : SelectionPool}
    (hsize : ∀ g ∈ list, 0 < q.size g) (hpool : pool.playerCount ≤ limit) :
    (q.addNormalGroups limit list pool).playerCount =
      pool.playerCount + packed (limit - pool.playerCount) (q.sizes list) := by
  induction list generalizing pool with
  | nil => rfl
  | cons g rest ih =>
      rw [List.forall_mem_cons] at hsize
      rw [addNormalGroups]
      split <;> rename_i hg
      · rw [ih hsize.2 hpool]
        simp [sizes, hg]
      · have hsizes : q.sizes (g :: rest) = q.size g :: q.sizes rest := by
          simp [sizes, hg]
        rw [hsizes, packed]
        by_cases hfits : pool.playerCount + q.size g ≤ limit
        · rw [if_pos (by omega)]
          have hadd : pool.addGroup q g limit =
              (true, ⟨pool.selectedGroups ++ [g], pool.playerCount + q.size g⟩) := by
            simp [SelectionPool.addGroup, hg, hfits]
          rw [hadd]
          dsimp only
          rw [ih hsize.2 hfits, Nat.sub_add_eq]
          dsimp only
          omega
        · rw [if_neg (by omega)]
          have hadd : pool.addGroup q g limit = (decide (pool.playerCount < limit), pool) := by
            simp [SelectionPool.addGroup, hfits]
          rw [hadd]
          by_cases hroom : pool.playerCount < limit
          · rw [decide_eq_true hroom]
            exact ih hsize.2 hpool
          · rw [decide_eq_false hroom, show limit - pool.playerCount = 0 by omega, packed_zero]
            · rfl
            · intro n hn
              obtain ⟨g', hg', rfl⟩ := List.mem_map.1 hn
              exact hsize.2 g' (List.mem_of_mem_filter hg')

theorem Consistent.size_pos (h : q.Consistent) {p : ListId} (hg : g ∈ q.queuedGroups p) :
    0 < q.size g := by
  obtain ⟨ginfo, hinfo, -⟩ := h.info hg
  have := h.1.nonempty g ginfo.players (playersOf_eq_some.2 ⟨ginfo, hinfo, rfl⟩)
  rw [size, hinfo]
  exact List.length_pos_iff.2 this

/-- A pool without players is empty. -/
theorem Consistent.selected_nil (h : q.Consistent)
    (hpool : Selected q limit (q.normalList bracket team) pool) :
    pool.selectedGroups = [] ↔ pool.playerCount = 0 := by
  rw [hpool.sound.counted]
  refine ⟨fun hnil => by rw [hnil, sizeOf_nil], fun hzero => ?_⟩
  cases hgroups : pool.selectedGroups with
  | nil => rfl
  | cons g rest =>
      have := h.size_pos (hpool.order.subset (hgroups ▸ List.mem_cons_self))
      rw [hgroups, sizeOf_cons] at hzero
      omega

/-! ## What is moved -/

/-- Who changes team keeps his size and his invitation, and stands in front of the
other team's list. -/
theorem changeTeam_spec (bracket : Nat) (team : Team) (mark : GroupId)
    (hg : (q.groups g).isSome) :
    (changeTeam bracket team mark q g).selectionPools = q.selectionPools ∧
      (changeTeam bracket team mark q g).size = q.size ∧
      (changeTeam bracket team mark q g).isInvited = q.isInvited ∧
      (∀ g', ((changeTeam bracket team mark q g).groups g').isSome = (q.groups g').isSome) ∧
      (changeTeam bracket team mark q g).normalList bracket (otherTeam team) =
        g :: q.normalList bracket (otherTeam team) := by
  obtain ⟨ginfo, hginfo⟩ := Option.isSome_iff_exists.1 hg
  simp only [changeTeam, hginfo]
  refine ⟨rfl, funext fun g' => ?_, funext fun g' => ?_, fun g' => ?_, ?_⟩
  · by_cases h : g' = g
    · subst h
      simp [size, setList, setGroup, hginfo]
    · simp [size, setList, setGroup, h]
  · by_cases h : g' = g
    · subst h
      simp [isInvited, setList, setGroup, hginfo]
    · simp [isInvited, setList, setGroup, h]
  · by_cases h : g' = g
    · subst h
      simp [setList, setGroup, hginfo]
    · simp [setList, setGroup, h]
  · simp [normalList, setList, setGroup]

theorem changeTeams_spec (bracket : Nat) (team : Team) (mark : GroupId) (gs : List GroupId)
    (hgs : ∀ g ∈ gs, (q.groups g).isSome) :
    (gs.foldl (changeTeam bracket team mark) q).selectionPools = q.selectionPools ∧
      (gs.foldl (changeTeam bracket team mark) q).size = q.size ∧
      (gs.foldl (changeTeam bracket team mark) q).isInvited = q.isInvited ∧
      (gs.foldl (changeTeam bracket team mark) q).normalList bracket (otherTeam team) =
        gs.reverse ++ q.normalList bracket (otherTeam team) := by
  induction gs generalizing q with
  | nil => exact ⟨rfl, rfl, rfl, rfl⟩
  | cons g gs ih =>
      rw [List.forall_mem_cons] at hgs
      obtain ⟨hpools, hsize, hinvited, hlive, hlist⟩ :=
        changeTeam_spec bracket team mark hgs.1
      obtain ⟨hpools', hsize', hinvited', hlist'⟩ :=
        ih fun g' hg' => (hlive g').trans (hgs.2 g' hg')
      refine ⟨hpools'.trans hpools, hsize'.trans hsize, hinvited'.trans hinvited, ?_⟩
      rw [List.foldl_cons, hlist', hlist]
      simp

/-- What is picked up to the last group does not stand behind it. -/
theorem not_behind {selected before later : List GroupId}
    (horder : selected.Sublist (before ++ mark :: later)) (hlast : selected.getLast? = some mark)
    (hnodup : (before ++ mark :: later).Nodup) (hg : g ∈ selected) : g ∉ later := by
  intro hbehind
  obtain ⟨-, hnodup', hapart⟩ := List.nodup_append'.1 hnodup
  have hmark : mark ∉ later := (List.nodup_cons.1 hnodup').1
  obtain ⟨first, rfl⟩ := List.getLast?_eq_some_iff.1 hlast
  have hne : g ≠ mark := by
    rintro rfl
    exact hmark hbehind
  have hfirst : g ∈ first := by simpa [hne] using hg
  -- so the group comes before the mark, and both come behind the mark
  have hpair : [g, mark].Sublist (before ++ mark :: later) :=
    ((List.singleton_sublist.2 hfirst).append (List.Sublist.refl [mark])).trans horder
  have hskip : ∀ before : List GroupId, g ∉ before → [g, mark].Sublist (before ++ mark :: later) →
      [g, mark].Sublist (mark :: later) := by
    intro before
    induction before with
    | nil => exact fun _ h => h
    | cons x xs ih =>
        intro hx h
        rw [List.mem_cons, not_or] at hx
        exact ih hx.2 (List.Sublist.of_cons_of_ne hx.1 h)
  have := hskip before (fun hin => hapart hin (List.mem_cons_of_mem _ hbehind)) hpair
  exact hmark ((List.Sublist.of_cons_of_ne hne this).subset (by simp))

/-! ## The division -/

/-- What the division is to do: there is a last group where one is read, and a
match is made of two disjoint pools of uninvited groups that hold players enough,
with each group that was moved once in the list of its new team. -/
structure DividesWell (q : BattlegroundQueue) (bracket minPlayers : Nat) (stray : GroupId) :
    Prop where
  back : ∀ team, q.skirmishTeam minPlayers = some team →
    (q.selectionPools team).selectedGroups ≠ []
  made : ∀ q', q.checkSkirmishForSameFaction bracket minPlayers stray = (true, q') →
    (∀ team, minPlayers ≤ (q'.selectionPools team).playerCount ∧
      (q'.selectionPools team).playerCount = q'.sizeOf (q'.selectionPools team).selectedGroups ∧
      (q'.selectionPools team).selectedGroups.Nodup ∧
      ∀ g ∈ (q'.selectionPools team).selectedGroups, q'.isInvited g = false) ∧
    List.Disjoint (q'.selectionPools .alliance).selectedGroups
      (q'.selectionPools .horde).selectedGroups ∧
    ∀ team, q.skirmishTeam minPlayers = some team →
      ∀ g ∈ (q'.selectionPools (otherTeam team)).selectedGroups,
        (q'.normalList bracket (otherTeam team)).count g = 1

/-- The Horde's pool is not divided while it is empty; and where it holds more
than the minimum, there is somebody in the Alliance's, and too few only if what
is behind does not fill the minimum. -/
def Divisible (q : BattlegroundQueue) (bracket minPlayers : Nat) : Prop :=
  (minPlayers = 0 → (q.selectionPools .horde).playerCount ≠ 0) ∧
  (minPlayers < (q.selectionPools .horde).playerCount →
    (q.selectionPools .alliance).playerCount ≠ 0 ∧
    ((q.selectionPools .alliance).playerCount < minPlayers →
      packed minPlayers (q.sizes (q.behind bracket .alliance)) ≠ minPlayers))

instance (q : BattlegroundQueue) (bracket minPlayers : Nat) :
    Decidable (q.Divisible bracket minPlayers) := by
  unfold Divisible
  infer_instance

/-- Where there is a last group, what is behind it is filled in greedily, and the
match is made if it is the minimum. -/
theorem divideTeam_spec (hq : q.Consistent)
    (hpool : Selected q limit (q.normalList bracket team) (q.selectionPools team))
    (hne : (q.selectionPools team).selectedGroups ≠ []) (minPlayers : Nat) (stray : GroupId) :
    (packed minPlayers (q.sizes (q.behind bracket team)) ≠ minPlayers ∧
      (q.divideTeam bracket minPlayers stray team).1 = false) ∨
    (packed minPlayers (q.sizes (q.behind bracket team)) = minPlayers ∧
      ∃ q', q.divideTeam bracket minPlayers stray team = (true, q') ∧
        q'.selectionPools team = q.selectionPools team ∧
        (q'.selectionPools (otherTeam team)).playerCount = minPlayers ∧
        Selected q' limit (q.normalList bracket team) (q'.selectionPools team) ∧
        Selected q' minPlayers (q.normalList bracket team) (q'.selectionPools (otherTeam team)) ∧
        List.Disjoint (q'.selectionPools team).selectedGroups
          (q'.selectionPools (otherTeam team)).selectedGroups ∧
        ∀ g ∈ (q'.selectionPools (otherTeam team)).selectedGroups,
          (q'.normalList bracket (otherTeam team)).count g = 1) := by
  -- the last group is found in the list
  obtain ⟨mark, hlast⟩ : ∃ mark, (q.selectionPools team).selectedGroups.getLast? = some mark :=
    ⟨_, List.getLast?_eq_some_getLast hne⟩
  have hmark : mark ∈ q.normalList bracket team :=
    hpool.order.subset (List.mem_of_getLast? hlast)
  obtain ⟨g, later, hdrop⟩ : ∃ g later,
      (q.normalList bracket team).dropWhile (fun g => g != mark) = g :: later := by
    refine List.exists_cons_of_ne_nil fun hnil => ?_
    rw [List.dropWhile_eq_nil_iff] at hnil
    exact absurd (hnil mark hmark) (by simp)
  obtain ⟨-, before, hlist⟩ := dropWhile_mark hdrop
  have hnodup : (before ++ mark :: later).Nodup := hlist ▸ hq.nodup ⟨bracket, .normal, team⟩
  have hbehind : q.behind bracket team = later := by
    simp [behind, hlast, hdrop]
  have hlater : ∀ g ∈ later, g ∈ q.normalList bracket team := by
    intro g hg
    rw [hlist]
    simp [hg]
  -- and what is behind it is filled in
  have hinit : SelectionPool.init.Sound (q.setPool (otherTeam team) .init) minPlayers :=
    SelectionPool.init_sound
  obtain ⟨hsound, horder⟩ := addNormalGroups_spec later hinit (le_refl minPlayers)
  have hcount : ((q.setPool (otherTeam team) .init).addNormalGroups minPlayers later
      .init).playerCount = packed minPlayers (q.sizes (q.behind bracket team)) := by
    rw [hbehind]
    have hsize : ∀ g ∈ later, 0 < (q.setPool (otherTeam team) .init).size g :=
      fun g hg => hq.size_pos (hlater g hg)
    refine (addNormalGroups_packed later hsize hinit.within).trans ?_
    exact Nat.zero_add _
  simp only [divideTeam, hlast, Option.getD_some]
  rw [show (q.setPool (otherTeam team) .init).normalList bracket team = q.normalList bracket team
    from rfl, hdrop]
  dsimp only
  generalize (q.setPool (otherTeam team) .init).addNormalGroups minPlayers later .init = picked
    at hsound horder hcount ⊢
  by_cases hmin : picked.playerCount = minPlayers
  · refine .inr ⟨hcount ▸ hmin, ?_⟩
    rw [if_neg (not_not.2 hmin)]
    rw [init_selectedGroups, List.nil_append] at horder
    have hwith : ((q.setPool (otherTeam team) .init).setPool (otherTeam team) picked).Consistent :=
      ((setPool_alike q (otherTeam team) .init).trans (setPool_alike _ _ picked)).consistent hq
    have hpicked : picked.selectedGroups.Nodup :=
      horder.nodup (List.nodup_cons.1 (List.nodup_append'.1 hnodup).2.1).2
    have hlive : ∀ g ∈ picked.selectedGroups, (q.groups g).isSome := by
      intro g hg
      have hin : g ∈ q.queuedGroups ⟨bracket, .normal, team⟩ := hlater g (horder.subset hg)
      obtain ⟨ginfo, hginfo, -⟩ := hq.info hin
      rw [hginfo, Option.isSome_some]
    -- they all change their team
    obtain ⟨hpools, hsize, hinvited, hmoved⟩ :=
      changeTeams_spec (q := (q.setPool (otherTeam team) .init).setPool (otherTeam team) picked)
        bracket team mark picked.selectedGroups hlive
    have hdivided := changeTeams_consistent picked.selectedGroups hwith hlist hpicked
      fun g hg => horder.subset hg
    have hown : (((q.setPool (otherTeam team) .init).setPool (otherTeam team)
        picked).selectionPools) team = q.selectionPools team := by
      simp [setPool]
    have hother : (((q.setPool (otherTeam team) .init).setPool (otherTeam team)
        picked).selectionPools) (otherTeam team) = picked := by
      simp [setPool]
    refine ⟨_, rfl, ?_⟩
    rw [hpools, hown, hother]
    refine ⟨rfl, hmin, hpool.congr hsize hinvited, ?_, fun g hg hg' => ?_, fun g hg => ?_⟩
    · have hselected : Selected (q.setPool (otherTeam team) .init) minPlayers
          (q.normalList bracket team) picked :=
        ⟨hsound, horder.trans (hlist ▸ by simp)⟩
      exact hselected.congr hsize hinvited
    · exact not_behind (hlist ▸ hpool.order) hlast hnodup hg (horder.subset hg')
    · refine List.count_eq_one_of_mem (hdivided.nodup ⟨bracket, .normal, otherTeam team⟩) ?_
      rw [hmoved]
      simp [hg]
  · rw [if_pos hmin]
    exact .inl ⟨fun h => hmin (hcount.trans h), rfl⟩

/-- Which pool is divided. -/
theorem skirmishTeam_eq_some :
    q.skirmishTeam minPlayers = some team ↔
      (team = .horde ∧ (q.selectionPools .horde).playerCount = minPlayers) ∨
      (team = .alliance ∧ (q.selectionPools .horde).playerCount ≠ minPlayers ∧
        (minPlayers ≤ (q.selectionPools .alliance).playerCount ∨
          minPlayers < (q.selectionPools .horde).playerCount)) := by
  unfold skirmishTeam
  split <;> rename_i hfew
  · simp only [reduceCtorEq, false_iff]
    omega
  · split <;> rename_i hmin
    · cases team <;> simp [hmin]
    · cases team with
      | horde => simp [hmin]
      | alliance =>
          simp only [true_iff, reduceCtorEq, false_and, false_or, true_and]
          omega

/-- From sound pools. -/
theorem dividesWell_iff (hq : q.Consistent)
    (hpools : ∀ team, Selected q limit (q.normalList bracket team) (q.selectionPools team))
    (stray : GroupId) : q.DividesWell bracket minPlayers stray ↔ q.Divisible bracket minPlayers := by
  have hnil := fun team => hq.selected_nil (hpools team)
  have hrun : ∀ {team}, q.skirmishTeam minPlayers = some team →
      q.checkSkirmishForSameFaction bracket minPlayers stray =
        q.divideTeam bracket minPlayers stray team := by
    intro team hteam
    simp only [checkSkirmishForSameFaction, hteam]
  have hback : q.Divisible bracket minPlayers → ∀ team, q.skirmishTeam minPlayers = some team →
      (q.selectionPools team).selectedGroups ≠ [] := by
    intro h team hteam hempty
    have hcount := (hnil team).1 hempty
    rcases skirmishTeam_eq_some.1 hteam with ⟨rfl, hmin⟩ | ⟨rfl, hmin, henough⟩
    · exact h.1 (by omega) hcount
    · rcases Nat.lt_or_ge minPlayers (q.selectionPools .horde).playerCount with hmore | hless
      · exact (h.2 hmore).1 hcount
      · omega
  refine ⟨fun h => ⟨fun hzero hhorde => ?_, fun hmore => ⟨fun hali => ?_, fun hfew hpacked => ?_⟩⟩,
    fun h => ⟨hback h, fun q' hq' => ?_⟩⟩
  · exact h.back .horde (skirmishTeam_eq_some.2 (.inl ⟨rfl, hhorde.trans hzero.symm⟩))
      ((hnil .horde).2 hhorde)
  · exact h.back .alliance (skirmishTeam_eq_some.2 (.inr ⟨rfl, by omega, .inr hmore⟩))
      ((hnil .alliance).2 hali)
  · -- the match is made with the few of the Alliance
    have hteam : q.skirmishTeam minPlayers = some .alliance :=
      skirmishTeam_eq_some.2 (.inr ⟨rfl, by omega, .inr hmore⟩)
    rcases divideTeam_spec hq (hpools .alliance) (h.back .alliance hteam) minPlayers stray with
      ⟨hnot, -⟩ | ⟨-, q', hdivide, hown, -⟩
    · exact hnot hpacked
    · have henough := ((h.made q' ((hrun hteam).trans hdivide)).1 .alliance).1
      rw [hown] at henough
      omega
  · cases hteam : q.skirmishTeam minPlayers with
    | none => simp [checkSkirmishForSameFaction, hteam] at hq'
    | some team =>
        rw [hrun hteam] at hq'
        rcases divideTeam_spec hq (hpools team) (hback h team hteam) minPlayers stray with
          ⟨-, hfalse⟩ | ⟨hpacked, q'', hdivide, hown, hother, hsel, hsel', hdisjoint, hcount⟩
        · simp [hq'] at hfalse
        · obtain rfl : q' = q'' := by
            rw [hq'] at hdivide
            exact (Prod.mk.inj hdivide).2
          -- the pool that was taken as it was holds enough
          have henough : minPlayers ≤ (q'.selectionPools team).playerCount := by
            rw [hown]
            rcases skirmishTeam_eq_some.1 hteam with ⟨rfl, hmin⟩ | ⟨rfl, hmin, henough⟩
            · omega
            · by_contra hfew
              exact (h.2 (by omega)).2 (by omega) hpacked
          have hnodup : (q.normalList bracket team).Nodup := hq.nodup ⟨bracket, .normal, team⟩
          have hown' := And.intro henough (And.intro hsel.sound.counted
            (And.intro (hsel.order.nodup hnodup) hsel.sound.uninvited))
          have hother' := And.intro (le_of_eq hother.symm) (And.intro hsel'.sound.counted
            (And.intro (hsel'.order.nodup hnodup) hsel'.sound.uninvited))
          refine ⟨?_, ?_, ?_⟩
          · cases team with
            | alliance => exact Team.rec hown' hother'
            | horde => exact Team.rec hother' hown'
          · cases team with
            | alliance => exact hdisjoint
            | horde => exact fun g hg hg' => hdisjoint hg' hg
          · rintro _ ⟨⟩
            exact hcount

/-- Behind `CheckNormalMatch`, for every queue that is in order and all sizes, the
division does what it is to do exactly if the state is `Divisible`. -/
theorem checkSkirmishForSameFaction_divides_iff (q : BattlegroundQueue) (hq : q.Consistent)
    (bracket minPlayers maxPlayers : Nat) (balance debug : Bool) (stray : GroupId) :
    (q.initPools.checkNormalMatch bracket minPlayers maxPlayers balance debug).2.DividesWell
        bracket minPlayers stray ↔
      (q.initPools.checkNormalMatch bracket minPlayers maxPlayers balance debug).2.Divisible
        bracket minPlayers := by
  obtain ⟨pools, hstate, hpools⟩ :=
    checkNormalMatch_pools q bracket minPlayers maxPlayers balance debug
  rw [hstate]
  exact dividesWell_iff ((withPools_alike q pools).consistent hq)
    (fun team => (hpools team).congr rfl rfl) stray

/-- Two of the Horde ask for a skirmish. -/
def hordePair : JoinRequest where
  members := [1, 2]
  team := .horde
  bracket := 0
  arenaType := 2
  isRated := false
  isPremade := false
  arenaRating := 0
  matchmakerRating := 0
  arenaTeamId := 0
  now := 0

/-- And two more of them. -/
def otherHordePair : JoinRequest := { hordePair with members := [3, 4] }

theorem checkSkirmishForSameFaction_divides_pairs :
    (((empty.addGroup hordePair).addGroup otherHordePair).initPools.checkNormalMatch 0 2 2 true
      false).2.DividesWell 0 2 0 :=
  (checkSkirmishForSameFaction_divides_iff _
    (addGroup_consistent (addGroup_consistent empty_consistent (by decide)) (by decide))
    0 2 2 true false 0).2 (by decide)

/-- While arenas are tested one player is enough: the pair is more than that, and
the last group of the Alliance's empty pool is read. -/
theorem hordePair_divides_nobody :
    (empty.addGroup hordePair).Consistent ∧
      ¬ ((empty.addGroup hordePair).initPools.checkNormalMatch 0 1 2 true false).2.DividesWell
        0 1 0 :=
  ⟨addGroup_consistent empty_consistent (by decide),
    fun h => h.back .alliance (by decide) (by decide)⟩

/-- Where the teams must be full, as in an arena that is not tested, all is well. -/
theorem fullTeams_divide (hq : q.Consistent) (bracket : Nat) (hfull : 0 < maxPlayers)
    (balance debug : Bool) (stray : GroupId) :
    (q.initPools.checkNormalMatch bracket maxPlayers maxPlayers balance debug).2.DividesWell
      bracket maxPlayers stray := by
  obtain ⟨pools, hstate, hpools⟩ :=
    checkNormalMatch_pools q bracket maxPlayers maxPlayers balance debug
  have hwithin : (pools .horde).playerCount ≤ maxPlayers := (hpools .horde).sound.within
  rw [hstate]
  refine (dividesWell_iff ((withPools_alike q pools).consistent hq)
    (fun team => (hpools team).congr rfl rfl) stray).2 ⟨by omega, fun hmore => ?_⟩
  exact absurd hmore (Nat.not_lt.2 hwithin)

end BattlegroundQueue

end Sunstrider.Battlegrounds.Matching
