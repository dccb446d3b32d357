import Sunstrider.Battlegrounds.SelectionPool

/-!
# Filling a running battleground

What is picked for a team is some of the groups its iterator has passed, none
of them invited, with the players counted right and no more of them than there
are free slots: `TeamSelection.Sound`. Picking and kicking keep that.

The balancing loop halts because an iterator only moves on. A pass kicks a
group, or it leaves at the `break`: if the pool with fewer slots left is empty,
nothing can be added to it either, for the slots it may be filled to are none.
A group that is added costs the iterator a step, and two steps are worth more
than the group. So the number of passes the loop is given does not matter, if
it is enough.
-/

namespace Sunstrider.Battlegrounds.Matching

open Population (Team GroupId)

variable {q : BattlegroundQueue} {list rest : List GroupId} {limit desiredCount : Nat}
  {pool : SelectionPool} {g : GroupId}

variable {free aliFree hordeFree : Nat} {diffOther : Int} {own ali horde : TeamSelection}

/-! ## One pool -/

/-- The players of some groups. -/
def BattlegroundQueue.sizeOf (q : BattlegroundQueue) (list : List GroupId) : Nat :=
  (list.map q.size).sum

@[simp] theorem sizeOf_nil : q.sizeOf [] = 0 := rfl

@[simp] theorem sizeOf_cons : q.sizeOf (g :: list) = q.size g + q.sizeOf list := by
  simp [BattlegroundQueue.sizeOf]

@[simp] theorem sizeOf_append : q.sizeOf (list ++ rest) = q.sizeOf list + q.sizeOf rest := by
  simp [BattlegroundQueue.sizeOf]

theorem sizeOf_erase (h : g ∈ list) : q.sizeOf (list.erase g) + q.size g = q.sizeOf list := by
  have hperm := (List.perm_cons_erase h).map q.size
  have := hperm.sum_eq
  simp only [List.map_cons, List.sum_cons] at this
  unfold BattlegroundQueue.sizeOf
  omega

/-- A pool of groups that are not invited, counted right. -/
structure SelectionPool.Sound (q : BattlegroundQueue) (limit : Nat) (pool : SelectionPool) :
    Prop where
  counted : pool.playerCount = q.sizeOf pool.selectedGroups
  uninvited : ∀ g ∈ pool.selectedGroups, q.isInvited g = false
  within : pool.playerCount ≤ limit

namespace SelectionPool

theorem init_sound : init.Sound q limit :=
  ⟨rfl, fun _ h => absurd h List.not_mem_nil, Nat.zero_le _⟩

/-- A group is added behind the others, or nothing happens. -/
theorem addGroup_cases (q : BattlegroundQueue) (pool : SelectionPool) (g : GroupId)
    (desiredCount : Nat) :
    (q.isInvited g = false ∧ pool.playerCount + q.size g ≤ desiredCount ∧
      pool.addGroup q g desiredCount =
        (true, ⟨pool.selectedGroups ++ [g], pool.playerCount + q.size g⟩)) ∨
    ((pool.addGroup q g desiredCount).2 = pool ∧
      ((pool.addGroup q g desiredCount).1 = true → pool.playerCount < desiredCount)) := by
  unfold addGroup
  split
  · rename_i h
    simp only [Bool.and_eq_true, Bool.not_eq_true', decide_eq_true_eq] at h
    exact .inl ⟨h.1, h.2, rfl⟩
  · exact .inr ⟨rfl, by simp⟩

theorem Sound.append (h : pool.Sound q limit) (hinvited : q.isInvited g = false)
    (hsize : pool.playerCount + q.size g ≤ limit) :
    (SelectionPool.mk (pool.selectedGroups ++ [g]) (pool.playerCount + q.size g)).Sound q
      limit where
  counted := by simp [h.counted]
  uninvited := by
    intro other hother
    rcases List.mem_append.1 hother with hold | hnew
    · exact h.uninvited other hold
    · rw [List.mem_singleton.1 hnew]
      exact hinvited
  within := hsize

theorem kickLoop_mem (q : BattlegroundQueue) (size : Nat) (rest : List GroupId)
    (best : GroupId × Bool) : kickLoop q size rest best ∈ best.1 :: rest := by
  induction rest generalizing best with
  | nil => simp [kickLoop]
  | cons g rest ih =>
      unfold kickLoop
      split
      · exact List.mem_cons_of_mem _ (ih (g, true))
      · split
        · exact List.mem_cons_of_mem _ (ih (g, best.2))
        · rcases List.mem_cons.1 (ih (best.1, best.2)) with heq | hmem
          · exact List.mem_cons.2 (.inl heq)
          · exact List.mem_cons_of_mem _ (List.mem_cons_of_mem _ hmem)

/-- An empty pool stays as it is and wants to be filled; of another one a group
is kicked. -/
theorem kickGroup_cases (q : BattlegroundQueue) (pool : SelectionPool) (size : Nat) :
    ((pool.selectedGroups = [] ∨ pool.playerCount = 0) ∧ pool.kickGroup q size = (true, pool)) ∨
    (pool.playerCount ≠ 0 ∧ ∃ g ∈ pool.selectedGroups, ∃ retry,
      pool.kickGroup q size =
        (retry, ⟨pool.selectedGroups.erase g, pool.playerCount - q.size g⟩)) := by
  unfold kickGroup
  cases hgroups : pool.selectedGroups with
  | nil => exact .inl ⟨.inl rfl, rfl⟩
  | cons first others =>
      by_cases hzero : pool.playerCount = 0
      · exact .inl ⟨.inr hzero, by simp [hzero]⟩
      · refine .inr ⟨hzero, kickLoop q size (first :: others) (first, false), ?_, ?_⟩
        · simpa using kickLoop_mem q size (first :: others) (first, false)
        · exact ⟨_, by simp only [hzero, if_false]; rfl⟩

theorem Sound.kick (h : pool.Sound q limit) (hg : g ∈ pool.selectedGroups) :
    (SelectionPool.mk (pool.selectedGroups.erase g) (pool.playerCount - q.size g)).Sound q
      limit where
  counted := by
    have := sizeOf_erase (q := q) hg
    have := h.counted
    change pool.playerCount - q.size g = q.sizeOf (pool.selectedGroups.erase g)
    omega
  uninvited := fun other hother => h.uninvited other (List.mem_of_mem_erase hother)
  within := le_trans (Nat.sub_le _ _) h.within

theorem kickGroup_sound (h : pool.Sound q limit) (size : Nat) :
    (pool.kickGroup q size).2.Sound q limit ∧
      (pool.kickGroup q size).2.selectedGroups.Sublist pool.selectedGroups := by
  rcases kickGroup_cases q pool size with ⟨-, heq⟩ | ⟨-, g, hg, retry, heq⟩
  · rw [heq]
    exact ⟨h, List.Sublist.refl _⟩
  · rw [heq]
    exact ⟨h.kick hg, List.erase_sublist⟩

end SelectionPool

/-! ## One team -/

namespace TeamSelection

/-- Some of the groups the iterator has passed are picked. -/
structure Sound (q : BattlegroundQueue) (list : List GroupId) (limit : Nat)
    (t : TeamSelection) : Prop where
  pool : t.pool.Sound q limit
  order : (t.pool.selectedGroups ++ t.rest).Sublist list

/-- What can still be done: the steps of the iterator count double. -/
def work (t : TeamSelection) : Nat := 2 * t.rest.length + t.pool.selectedGroups.length

end TeamSelection

theorem addGroups_spec (rest : List GroupId) (h : (TeamSelection.mk pool rest).Sound q list limit)
    (hlimit : desiredCount ≤ limit) :
    (addGroups q desiredCount rest pool).Sound q list limit ∧
      (addGroups q desiredCount rest pool).work ≤ (TeamSelection.mk pool rest).work ∧
      (addGroups q desiredCount rest pool).pool.playerCount ≤
        max pool.playerCount desiredCount := by
  induction rest generalizing pool with
  | nil => exact ⟨h, le_refl _, le_max_left _ _⟩
  | cons g rest ih =>
      unfold addGroups
      rcases pool.addGroup_cases q g desiredCount with ⟨hinvited, hsize, heq⟩ | ⟨hpool, -⟩
      · rw [heq]
        have hnext : (TeamSelection.mk
            ⟨pool.selectedGroups ++ [g], pool.playerCount + q.size g⟩ rest).Sound q list limit :=
          ⟨h.pool.append hinvited (le_trans hsize hlimit), by simpa using h.order⟩
        obtain ⟨hsound, hwork, hcount⟩ := ih hnext
        refine ⟨hsound, le_trans hwork ?_, ?_⟩
        · simp only [TeamSelection.work, List.length_append, List.length_cons, List.length_nil]
          omega
        · simp only at hcount ⊢
          omega
      · cases hadd : pool.addGroup q g desiredCount with
        | mk more pool' =>
            rw [hadd] at hpool
            simp only at hpool
            subst hpool
            cases more with
            | false => exact ⟨h, le_refl _, le_max_left _ _⟩
            | true =>
                have hnext : (TeamSelection.mk pool' rest).Sound q list limit :=
                  ⟨h.pool, ((List.sublist_cons_self g rest).append_left _).trans h.order⟩
                obtain ⟨hsound, hwork, hcount⟩ := ih hnext
                refine ⟨hsound, le_trans hwork ?_, hcount⟩
                simp only [TeamSelection.work, List.length_cons]
                omega

/-- A group of the team with fewer slots left is kicked, which is work done. An
empty pool stays without players. -/
theorem exchangeGroup_spec (h : own.Sound q list free) (hpos : 0 ≤ diffOther)
    (hless : (free : Int) - own.pool.playerCount < diffOther) :
    let own' := exchangeGroup q free ((free : Int) - own.pool.playerCount) diffOther own
    own'.Sound q list free ∧
      (own'.work < own.work ∨ own'.pool.playerCount = 0 ∧ (free : Int) < diffOther) := by
  have hdesired : (if diffOther ≤ (free : Int) then (free : Int) - diffOther else 0).toNat ≤
      free := by
    split <;> omega
  unfold exchangeGroup
  rcases SelectionPool.kickGroup_cases q own.pool
      (diffOther - ((free : Int) - own.pool.playerCount)).toNat with
    ⟨hempty, heq⟩ | ⟨-, g, hg, retry, heq⟩
  · -- nothing to kick: what may be added has no players
    have hzero : own.pool.playerCount = 0 := by
      rcases hempty with hnil | hzero
      · have := h.pool.counted
        rw [hnil] at this
        exact this
      · exact hzero
    rw [heq]
    obtain ⟨hsound, -, hcount⟩ := addGroups_spec own.rest h hdesired
    refine ⟨hsound, .inr ⟨?_, by omega⟩⟩
    rw [if_neg (by omega)] at hcount
    simpa [hzero, if_neg (show ¬ diffOther ≤ (free : Int) by omega)] using hcount
  · have horder : (own.pool.selectedGroups.erase g ++ own.rest).Sublist list :=
      (List.erase_sublist.append_right _).trans h.order
    have hkicked : (TeamSelection.mk ⟨own.pool.selectedGroups.erase g,
        own.pool.playerCount - q.size g⟩ own.rest).Sound q list free := ⟨h.pool.kick hg, horder⟩
    have hwork : (TeamSelection.mk ⟨own.pool.selectedGroups.erase g,
        own.pool.playerCount - q.size g⟩ own.rest).work < own.work := by
      have := List.length_erase_of_mem hg
      have := List.length_pos_of_mem hg
      simp only [TeamSelection.work]
      omega
    rw [heq]
    cases retry with
    | true =>
        obtain ⟨hsound, hadded, -⟩ := addGroups_spec own.rest hkicked hdesired
        exact ⟨hsound, .inl (lt_of_le_of_lt hadded hwork)⟩
    | false => exact ⟨hkicked, .inl hwork⟩

/-- The body of the loop: work is done, or the loop is left because the team
has nobody any more. -/
theorem reduceTeam_spec {other : SelectionPool} {otherLimit : Nat} (h : own.Sound q list free)
    (hother : other.Sound q otherLimit) (hpos : 0 ≤ diffOther)
    (hless : (free : Int) - own.pool.playerCount < diffOther) :
    let r := reduceTeam q free ((free : Int) - own.pool.playerCount) diffOther own other
    r.1.Sound q list free ∧ r.2.1.Sound q otherLimit ∧
      r.2.1.selectedGroups.Sublist other.selectedGroups ∧
      (r.2.2 = .broke → r.1.pool.playerCount = 0) ∧
      (r.2.2 = .done →
        r.1.work + r.2.1.selectedGroups.length < own.work + other.selectedGroups.length) := by
  obtain ⟨hsound, hwork⟩ := exchangeGroup_spec h hpos hless
  obtain ⟨hkick, hsub⟩ := SelectionPool.kickGroup_sound hother (diffOther -
    ((free : Int) - own.pool.playerCount)).toNat
  unfold reduceTeam
  simp only
  split
  · rename_i hzero
    split
    · exact ⟨hsound, hother, List.Sublist.refl _, fun _ => hzero, (fun h => by cases h)⟩
    · rename_i hbreak
      refine ⟨hsound, hkick, hsub, (fun h => by cases h), fun _ => ?_⟩
      rcases hwork with hwork | ⟨-, hnone⟩
      · exact Nat.add_lt_add_of_lt_of_le hwork hsub.length_le
      · omega
  · rename_i hne
    refine ⟨hsound, hother, List.Sublist.refl _, (fun h => by cases h), fun _ => ?_⟩
    rcases hwork with hwork | ⟨hzero, -⟩
    · exact Nat.add_lt_add_right hwork _
    · exact absurd hzero hne

/-! ## The loop -/

/-- The loop may end so: even enough, nobody picked, or at the `break`, where
one team has nobody. -/
def EndsWell (aliFree hordeFree : Int) (ali horde : SelectionPool) : LoopEnd → Prop
  | .done =>
      ((aliFree - ali.playerCount) - (hordeFree - horde.playerCount)).natAbs ≤ 1 ∨
        ali.playerCount = 0 ∧ horde.playerCount = 0
  | .broke => ali.playerCount = 0 ∨ horde.playerCount = 0

theorem balanceLoop_spec {aliList hordeList : List GroupId} (n : Nat)
    (hali : ali.Sound q aliList aliFree) (hhorde : horde.Sound q hordeList hordeFree)
    (hn : ali.work + horde.work < n) :
    ∃ r, balanceLoop q aliFree hordeFree n ali horde = some r ∧
      r.1.Sound q aliList aliFree ∧ r.2.1.Sound q hordeList hordeFree ∧
      EndsWell aliFree hordeFree r.1.pool r.2.1.pool r.2.2 := by
  induction n generalizing ali horde with
  | zero => omega
  | succ n ih =>
      have haliIn := hali.pool.within
      have hhordeIn := hhorde.pool.within
      unfold balanceLoop
      simp only
      split
      · rename_i hcond
        split
        · rename_i hless
          have hspec := reduceTeam_spec hali hhorde.pool (by omega) hless
          generalize reduceTeam q aliFree ((aliFree : Int) - ali.pool.playerCount)
            ((hordeFree : Int) - horde.pool.playerCount) ali horde.pool = r at hspec
          obtain ⟨own, other, loopEnd⟩ := r
          obtain ⟨hown, hother, hsub, hbroke, hdone⟩ := hspec
          have hnext : (TeamSelection.mk other horde.rest).Sound q hordeList hordeFree :=
            ⟨hother, (hsub.append_right _).trans hhorde.order⟩
          cases loopEnd with
          | broke => exact ⟨_, rfl, hown, hnext, .inl (hbroke rfl)⟩
          | done =>
              refine ih hown hnext ?_
              have := hdone rfl
              simp only [TeamSelection.work] at *
              omega
        · rename_i hless
          have hspec := reduceTeam_spec hhorde hali.pool (by omega :
            (0 : Int) ≤ (aliFree : Int) - ali.pool.playerCount) (by omega)
          generalize reduceTeam q hordeFree ((hordeFree : Int) - horde.pool.playerCount)
            ((aliFree : Int) - ali.pool.playerCount) horde ali.pool = r at hspec
          obtain ⟨own, other, loopEnd⟩ := r
          obtain ⟨hown, hother, hsub, hbroke, hdone⟩ := hspec
          have hnext : (TeamSelection.mk other ali.rest).Sound q aliList aliFree :=
            ⟨hother, (hsub.append_right _).trans hali.order⟩
          cases loopEnd with
          | broke => exact ⟨_, rfl, hnext, hown, .inr (hbroke rfl)⟩
          | done =>
              refine ih hnext hown ?_
              have := hdone rfl
              simp only [TeamSelection.work] at *
              omega
      · rename_i hcond
        refine ⟨_, rfl, hali, hhorde, ?_⟩
        simp only [EndsWell]
        omega

/-- More passes than the loop needs make no difference. -/
theorem balanceLoop_mono {aliFree hordeFree : Int} {n : Nat}
    {r : TeamSelection × TeamSelection × LoopEnd}
    (h : balanceLoop q aliFree hordeFree n ali horde = some r) {m : Nat} (hm : n ≤ m) :
    balanceLoop q aliFree hordeFree m ali horde = some r := by
  induction n generalizing m ali horde with
  | zero => cases h
  | succ n ih =>
      cases m with
      | zero => omega
      | succ m =>
          unfold balanceLoop at h ⊢
          simp only at h ⊢
          split at h
          · rename_i hcond
            rw [if_pos hcond]
            split at h
            · rename_i hless
              rw [if_pos hless]
              split at h
              · exact h
              · exact ih h (by omega)
            · rename_i hless
              rw [if_neg hless]
              split at h
              · exact h
              · exact ih h (by omega)
          · rename_i hcond
            rw [if_neg hcond]
            exact h

/-- The slots given away are no more than there are; they are fewer only where
each team has one. -/
theorem evenFreeSlots_spec (type : InvitationType) (aliFree hordeFree aliCount hordeCount : Nat) :
    ∃ ali horde : Nat,
      evenFreeSlots type aliFree hordeFree aliCount hordeCount = ((ali : Int), (horde : Int)) ∧
      ali ≤ aliFree ∧ horde ≤ hordeFree ∧
      (ali = aliFree ∧ horde = hordeFree ∨ aliFree = 1 ∧ hordeFree = 1) := by
  unfold evenFreeSlots
  split
  · rename_i heven
    split
    · refine ⟨(max ((aliFree : Int) - max ((aliCount : Int) - hordeCount) 0) 0).toNat,
        (max ((hordeFree : Int) - max ((hordeCount : Int) - aliCount) 0) 0).toNat, ?_, ?_, ?_, ?_⟩
      · simp only [Prod.mk.injEq]
        omega
      · omega
      · omega
      · omega
    · exact ⟨aliFree, hordeFree, rfl, le_refl _, le_refl _, .inl ⟨rfl, rfl⟩⟩
  · exact ⟨aliFree, hordeFree, rfl, le_refl _, le_refl _, .inl ⟨rfl, rfl⟩⟩

/-- The pools do not matter for what a group is. -/
theorem TeamSelection.Sound.ofInit {t : TeamSelection} (h : t.Sound q.initPools list limit) :
    t.Sound q list limit := ⟨⟨h.pool.counted, h.pool.uninvited, h.pool.within⟩, h.order⟩

/-- The first loop, over the whole list. -/
theorem addGroups_init (q : BattlegroundQueue) (limit : Nat) (list : List GroupId) :
    (addGroups q limit list .init).Sound q list limit ∧
      (addGroups q limit list .init).work ≤ 2 * list.length := by
  have hstart : (TeamSelection.mk .init list).Sound q list limit :=
    ⟨SelectionPool.init_sound, List.Sublist.refl list⟩
  obtain ⟨hsound, hwork, -⟩ := addGroups_spec list hstart (le_refl limit)
  exact ⟨hsound, hwork⟩

/-- Both pools. -/
def poolsOf (ali horde : SelectionPool) : Team → SelectionPool
  | .alliance => ali
  | .horde => horde

theorem setPools_eq (q : BattlegroundQueue) (ali horde : SelectionPool) :
    (q.setPool .alliance ali).setPool .horde horde =
      { q with selectionPools := poolsOf ali horde } := by
  have hpools : Function.update (Function.update q.selectionPools .alliance ali) .horde horde =
      poolsOf ali horde := by
    funext team
    cases team <;> rfl
  simp only [BattlegroundQueue.setPool, hpools]

/-- An end that is right for the slots given away is right for all slots. -/
theorem EndsWell.ofFree {ali' horde' : Nat} {ali horde : SelectionPool} {loopEnd : LoopEnd}
    (h : EndsWell ali' horde' ali horde loopEnd) (hali : ali.playerCount ≤ ali')
    (hhorde : horde.playerCount ≤ horde') (hfree : ali' ≤ aliFree ∧ horde' ≤ hordeFree)
    (hsame : ali' = aliFree ∧ horde' = hordeFree ∨ aliFree = 1 ∧ hordeFree = 1) :
    EndsWell aliFree hordeFree ali horde loopEnd := by
  cases loopEnd with
  | broke => exact h
  | done =>
      simp only [EndsWell] at h ⊢
      omega

namespace BattlegroundQueue

/-- The selection comes to an end, whatever the number of passes from `fillFuel`
on, and only the pools are written. -/
theorem fillPlayersToBG_ends (q : BattlegroundQueue) (type : InvitationType) (bracket : Nat)
    (freeSlots : Team → Nat) :
    ∃ (ali horde : TeamSelection) (aliFree hordeFree : Nat) (loopEnd : LoopEnd),
      (∀ n, q.fillFuel bracket ≤ n →
        q.initPools.fillPlayersToBG type bracket freeSlots n =
          some ({ q with selectionPools := poolsOf ali.pool horde.pool }, loopEnd)) ∧
      ali.Sound q (q.normalList bracket .alliance) aliFree ∧
      horde.Sound q (q.normalList bracket .horde) hordeFree ∧
      aliFree ≤ freeSlots .alliance ∧ hordeFree ≤ freeSlots .horde ∧
      (type ≠ .noBalance →
        EndsWell (freeSlots .alliance) (freeSlots .horde) ali.pool horde.pool loopEnd) := by
  obtain ⟨aliFree, hordeFree, hfree, hali, hhorde, hsame⟩ := evenFreeSlots_spec type
    (freeSlots .alliance) (freeSlots .horde) (q.normalList bracket .alliance).length
    (q.normalList bracket .horde).length
  obtain ⟨haliStart, haliWork⟩ := addGroups_init q.initPools aliFree (q.normalList bracket .alliance)
  obtain ⟨hhordeStart, hhordeWork⟩ :=
    addGroups_init q.initPools hordeFree (q.normalList bracket .horde)
  have hlist : ∀ team, q.initPools.normalList bracket team = q.normalList bracket team :=
    fun _ => rfl
  have hinit : ∀ team, q.initPools.selectionPools team = .init := fun _ => rfl
  by_cases htype : type = .noBalance
  · refine ⟨_, _, aliFree, hordeFree, .done, fun n _ => ?_, haliStart.ofInit, hhordeStart.ofInit,
      hali, hhorde, fun h => absurd htype h⟩
    simp only [fillPlayersToBG, hlist, hinit, hfree, Int.toNat_natCast, setPools_eq]
    rw [if_pos htype]
    rfl
  · obtain ⟨⟨ali, horde, loopEnd⟩, hrun, haliEnd, hhordeEnd, hwell⟩ :=
      balanceLoop_spec (q.fillFuel bracket) haliStart hhordeStart
        (by unfold fillFuel; omega)
    refine ⟨ali, horde, aliFree, hordeFree, loopEnd, fun n hn => ?_, haliEnd.ofInit,
      hhordeEnd.ofInit, hali, hhorde,
      fun _ => hwell.ofFree haliEnd.pool.within hhordeEnd.pool.within ⟨hali, hhorde⟩ hsame⟩
    simp only [fillPlayersToBG, hlist, hinit, hfree, Int.toNat_natCast, setPools_eq]
    rw [if_neg htype, balanceLoop_mono hrun hn]
    rfl

/-- For every queue, battleground and invitation type the selection comes to an
end. It takes some of the uninvited groups of either normal list in their
order, counts their players right, and no more of them than the team has free
slots; when the teams are balanced the loop ends well. -/
theorem fillPlayersToBG_fills (q : BattlegroundQueue) (type : InvitationType) (bracket : Nat)
    (freeSlots : Team → Nat) :
    ∃ pools loopEnd,
      (∀ n, q.fillFuel bracket ≤ n →
        q.initPools.fillPlayersToBG type bracket freeSlots n =
          some ({ q with selectionPools := pools }, loopEnd)) ∧
      (∀ team,
        (pools team).playerCount ≤ freeSlots team ∧
        (pools team).playerCount = q.sizeOf (pools team).selectedGroups ∧
        (pools team).selectedGroups.Sublist (q.normalList bracket team) ∧
        ∀ g ∈ (pools team).selectedGroups, q.isInvited g = false) ∧
      (type ≠ .noBalance →
        EndsWell (freeSlots .alliance) (freeSlots .horde) (pools .alliance) (pools .horde)
          loopEnd) := by
  obtain ⟨ali, horde, aliFree, hordeFree, loopEnd, hrun, hali, hhorde, haliFree, hhordeFree,
    hwell⟩ := fillPlayersToBG_ends q type bracket freeSlots
  refine ⟨poolsOf ali.pool horde.pool, loopEnd, hrun, fun team => ?_, hwell⟩
  -- what a sound selection says of one team
  have hteam : ∀ {limit : Nat} {t : TeamSelection},
      t.Sound q (q.normalList bracket team) limit → limit ≤ freeSlots team →
      t.pool.playerCount ≤ freeSlots team ∧
        t.pool.playerCount = q.sizeOf t.pool.selectedGroups ∧
        t.pool.selectedGroups.Sublist (q.normalList bracket team) ∧
        ∀ g ∈ t.pool.selectedGroups, q.isInvited g = false := by
    intro limit t h hlimit
    exact ⟨le_trans h.pool.within hlimit, h.pool.counted,
      (List.sublist_append_left _ _).trans h.order, h.pool.uninvited⟩
  cases team with
  | alliance => exact hteam hali haliFree
  | horde => exact hteam hhorde hhordeFree

end BattlegroundQueue

end Sunstrider.Battlegrounds.Matching
