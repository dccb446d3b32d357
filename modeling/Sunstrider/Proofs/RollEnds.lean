import Sunstrider.Proofs.RollResult

/-!
# Whether the rolled item is free afterwards

An item is blocked while it is rolled for. When the roll is counted it should be
looted, or not blocked any more. Counting never blocks anything: `Freer` says so
of each phase. What is left to know is whether the item of the roll itself comes
free, and `Roll.Settles` says when: somebody can be awarded in the branch that is
taken, or the branch runs out of votes and ends in the block for items nobody
wants. Between the two lies a tally without its votes.
-/

set_option linter.unusedSectionVars false

namespace Sunstrider.Looting

variable {P : Type} [DecidableEq P] {M : Type} [DecidableEq M]

/-- The item is kept for a roll: blocked, and not looted. -/
def LootItem.Held (item : LootItem P) : Prop := item.isBlocked = true ∧ item.isLooted = false

/-- Every connected player has a session. -/
def RollEnv.Sessions (env : RollEnv P M) : Prop :=
  ∀ p x, env.findConnectedPlayer p = some x → x.hasSession = true

namespace Loot

/-- A slot holds an item kept for a roll. -/
def HeldAt (l : Loot P) (slot : Nat) : Prop := ∃ item, l.itemAt slot = some item ∧ item.Held

/-- No item is kept for a roll in `l'` that is not in `l`. -/
def Freer (l l' : Loot P) : Prop := ∀ slot, l'.HeldAt slot → l.HeldAt slot

theorem Freer.trans {l l' l'' : Loot P} (h : Freer l l') (h' : Freer l' l'') : Freer l l'' :=
  fun slot hs => h slot (h' slot hs)

theorem itemAt_modifyAt_ne (l : Loot P) {slot slot' : Nat} (f : LootItem P → LootItem P)
    (h : slot ≠ slot') : (l.modifyAt slot f).itemAt slot' = l.itemAt slot' := by
  unfold modifyAt itemAt
  split <;> rename_i hs
  · have hne (h' : l.items.length ≤ slot') :
        slot - l.items.length ≠ slot' - l.items.length := by omega
    show (if l.items.length ≤ slot' then _ else _) = _
    split <;> rename_i hs'
    · exact List.getElem?_modify_ne f l.questItems (hne hs')
    · rfl
  · rw [List.length_modify]
    split <;> rename_i hs'
    · rfl
    · exact List.getElem?_modify_ne f l.items h

/-- A write that holds nothing new. -/
theorem freer_modifyAt (l : Loot P) (slot : Nat) {f : LootItem P → LootItem P}
    (hf : ∀ item, (f item).Held → item.Held) : Freer l (l.modifyAt slot f) := by
  intro slot' hslot
  obtain ⟨item', hi, hheld⟩ := hslot
  by_cases hs : slot = slot'
  · subst hs
    rw [itemAt_modifyAt] at hi
    cases h : l.itemAt slot with
    | none =>
        rw [h] at hi
        cases hi
    | some item =>
        rw [h] at hi
        obtain rfl := Option.some.inj hi
        exact ⟨item, h, hf item hheld⟩
  · rw [itemAt_modifyAt_ne l f hs] at hi
    exact ⟨item', hi, hheld⟩

end Loot

namespace Roll

variable {env : RollEnv P M}

/-! ## Counting frees -/

theorem award_freer (env : RollEnv P M) (r : Roll P) (s : Progress P) (g : P) :
    s.loot.Freer (award env r s g).loot := by
  unfold award
  split
  · exact fun _ h => h
  · split
    · exact Loot.freer_modifyAt s.loot r.itemSlot fun item h => absurd h.2 (by simp)
    · exact Loot.freer_modifyAt s.loot r.itemSlot fun item h => absurd h.1 (by simp)

/-- Whoever is awarded, the item is free. -/
theorem award_free (env : RollEnv P M) (r : Roll P) (s : Progress P) (g : P) :
    ¬ (award env r s g).loot.HeldAt r.itemSlot := by
  intro ⟨item', hi, hheld⟩
  unfold award at hi
  split at hi <;> rename_i h
  · rw [h] at hi
    cases hi
  · split at hi
    · rw [Loot.itemAt_countDown, Loot.itemAt_modifyAt, h] at hi
      obtain rfl := Option.some.inj hi
      exact absurd hheld.2 (by simp)
    · rw [Loot.itemAt_modifyAt, h] at hi
      obtain rfl := Option.some.inj hi
      exact absurd hheld.1 (by simp)

theorem needPhase_freer (env : RollEnv P M) (r : Roll P) (s : Progress P) :
    s.loot.Freer (needPhase env r s).loot := by
  unfold needPhase
  split
  · split
    · exact fun _ h => h
    · dsimp only
      split
      · exact fun _ h => h
      · split
        · exact award_freer env r _ _
        · exact fun _ h => h
  · exact fun _ h => h

theorem greedPhase_freer (env : RollEnv P M) (r : Roll P) (s : Progress P) :
    s.loot.Freer (greedPhase env r s).loot := by
  unfold greedPhase
  split
  · split
    · exact fun _ h => h
    · dsimp only
      split
      · exact fun _ h => h
      · split
        · exact award_freer env r _ _
        · exact fun _ h => h
  · exact fun _ h => h

theorem allPassedPhase_freer (r : Roll P) (s : Progress P) :
    s.loot.Freer (allPassedPhase r s).loot := by
  unfold allPassedPhase
  split
  · exact Loot.freer_modifyAt s.loot r.itemSlot fun item h => absurd h.1 (by simp)
  · exact fun _ h => h

/-- Counting a roll never blocks an item. -/
theorem countTheRoll_freer (env : RollEnv P M) (r : Roll P) (l : Loot P) :
    l.Freer (countTheRoll env r l).loot := by
  rw [countTheRoll_eq]
  exact ((needPhase_freer env r _).trans (greedPhase_freer env r _)).trans
    (allPassedPhase_freer r _)

/-! ## Settling -/

/-- The first voter, who wins when nobody rolls need, is in the world. -/
def FirstHere (env : RollEnv P M) (r : Roll P) : Prop :=
  ∃ e rest, r.playerVote = e :: rest ∧ (env.findPlayer e.1).isSome = true

/-- The tallies lead to somebody who can be awarded, or to nobody at all. With
need in the tally there has to be a voter to go through: one who rolled need and
can be reached, or the first one, in the world; or else the tally comes to zero
without the NEED votes. With greed in it any voter will do. -/
def Settles (env : RollEnv P M) (r : Roll P) : Prop :=
  if r.totalNeed = 0 then r.totalGreed = 0 ∨ r.playerVote ≠ []
  else r.playerVote ≠ [] ∧
    (Reached env .need r ∨ FirstHere env r ∨ decr8^[r.count .need] r.totalNeed = 0)

theorem hasSession_findPlayer (henv : env.Sessions) (p : P) :
    hasSession (env.findPlayer p) = (env.findPlayer p).isSome := by
  unfold RollEnv.findPlayer
  cases h : env.findConnectedPlayer p with
  | none => rfl
  | some x =>
      rw [Option.filter_some]
      split
      · exact henv p x h
      · rfl

theorem findPlayer_of_reachable {p : P} (h : env.reachable p = true) :
    (env.findPlayer p).isSome = true := by
  unfold RollEnv.reachable at h
  cases hp : env.findPlayer p with
  | none =>
      rw [hp] at h
      cases h
  | some x => rfl

/-- When nobody who voted so can be reached, every such vote is taken off. -/
theorem rollLoop_tally_nobody {v : RollVote} {urand : P → Nat} {votes : List (P × RollVote)}
    (h : candidates env v votes = []) :
    ∀ (tally maxresul : Nat) (maxguid : Option P),
      (rollLoop env v urand votes tally maxresul maxguid).1 =
        decr8^[votes.countP fun e => e.2 = v] tally := by
  induction votes with
  | nil =>
      intro tally maxresul maxguid
      rfl
  | cons e rest ih =>
      obtain ⟨g, u⟩ := e
      intro tally maxresul maxguid
      rw [rollLoop]
      split <;> rename_i hv
      · rw [candidates_cons_neg (fun h => hv h.1)] at h
        rw [List.countP_cons_of_neg (by simpa using hv)]
        exact ih h tally maxresul maxguid
      · obtain rfl : u = v := not_not.1 hv
        split <;> rename_i hr
        · have hr' : ¬ env.reachable g = true := by simpa using hr
          rw [candidates_cons_neg (fun h => hr' h.2)] at h
          rw [List.countP_cons_of_pos (by simp), Function.iterate_succ_apply]
          exact ih h (decr8 tally) maxresul maxguid
        · rw [candidates_cons_pos (by simpa using hr)] at h
          cases h

/-- From the greed branch on the item comes free. -/
theorem greed_frees (henv : env.Sessions) (r : Roll P) {s : Progress P} (hn : s.totalNeed = 0)
    (hs : s.totalGreed = 0 ∨ r.playerVote ≠ []) :
    ¬ (allPassedPhase r (greedPhase env r s)).loot.HeldAt r.itemSlot := by
  have hpassed : ∀ s' : Progress P, s'.totalNeed = 0 → s'.totalGreed = 0 →
      ¬ (allPassedPhase r s').loot.HeldAt r.itemSlot := by
    intro s' hn' hg' ⟨item', hi, hheld⟩
    unfold allPassedPhase at hi
    rw [if_pos ⟨hn', hg'⟩] at hi
    rw [Loot.itemAt_modifyAt] at hi
    obtain ⟨item, _, rfl⟩ := Option.map_eq_some_iff.1 hi
    exact absurd hheld.1 (by simp)
  rcases Nat.eq_zero_or_pos s.totalGreed with hz | hpos
  · rw [greedPhase_skip env r (Or.inr (Or.inl hz))]
    exact hpassed s hn hz
  · have hv : r.playerVote ≠ [] := by
      rcases hs with hs | hs
      · omega
      · exact hs
    cases hw : (candidates env .greed r.playerVote).argmax env.greedRoll with
    | none =>
        rw [List.argmax_eq_none] at hw
        rw [greedPhase_nobody env r hn hv hw]
        exact hpassed _ hn rfl
    | some w =>
        have hwin : env.reachable w = true := (mem_candidates.1 (List.argmax_mem hw)).2
        have hsome := findPlayer_of_reachable hwin
        have hsess : hasSession (env.findConnectedPlayer w) = true := by
          unfold RollEnv.findPlayer at hsome
          cases hp : env.findConnectedPlayer w with
          | none =>
              rw [hp] at hsome
              cases hsome
          | some x => exact henv w x hp
        rw [greedPhase_winner env r hn hpos hw]
        dsimp only
        rw [if_pos hsess]
        intro hheld
        exact award_free env r _ w (allPassedPhase_freer r _ _ hheld)

/-- A roll that settles leaves its item looted or free. -/
theorem countTheRoll_frees (henv : env.Sessions) {r : Roll P} (hr : Settles env r) (l : Loot P) :
    ¬ (countTheRoll env r l).loot.HeldAt r.itemSlot := by
  rw [countTheRoll_eq]
  unfold Settles at hr
  by_cases hn : r.totalNeed = 0
  · rw [if_pos hn] at hr
    rw [needPhase_skip env r (Or.inl hn)]
    exact greed_frees henv r hn hr
  · rw [if_neg hn] at hr
    obtain ⟨hv, hr⟩ := hr
    obtain ⟨d, rest, hd⟩ := List.exists_cons_of_ne_nil hv
    obtain ⟨g, hg⟩ : ∃ g, ((candidates env .need r.playerVote).argmax env.needRoll).or
        (some d.1) = some g := by
      cases (candidates env .need r.playerVote).argmax env.needRoll with
      | none => exact ⟨d.1, rfl⟩
      | some w => exact ⟨w, rfl⟩
    rw [needPhase_eq env r (by show 0 < r.totalNeed; omega) hd hg]
    dsimp only
    rw [hasSession_findPlayer henv]
    by_cases hhere : (env.findPlayer g).isSome = true
    · rw [if_pos hhere]
      intro hheld
      exact award_free env r _ g
        (greedPhase_freer env r _ _ (allPassedPhase_freer r _ _ hheld))
    · -- nobody rolls need, and the first voter is not in the world
      have hnone : candidates env .need r.playerVote = [] := by
        by_contra hc
        obtain ⟨w, hw⟩ : ∃ w, (candidates env .need r.playerVote).argmax env.needRoll =
            some w := by
          cases hw : (candidates env .need r.playerVote).argmax env.needRoll with
          | none => exact absurd (List.argmax_eq_none.1 hw) hc
          | some w => exact ⟨w, rfl⟩
        rw [hw] at hg
        obtain rfl := Option.some.inj hg
        exact hhere (findPlayer_of_reachable (mem_candidates.1 (List.argmax_mem hw)).2)
      rw [hnone] at hg
      obtain rfl : d.1 = g := Option.some.inj hg
      have hover : decr8^[r.count .need] r.totalNeed = 0 := by
        rcases hr with hr | ⟨e, rest', he, hehere⟩ | hr
        · exact absurd hnone (reached_iff.1 hr)
        · rw [hd] at he
          obtain rfl := (List.cons.inj he).1
          exact absurd hehere hhere
        · exact hr
      rw [if_neg hhere]
      refine greed_frees henv r ?_ (Or.inr hv)
      show (rollLoop env .need env.needRoll r.playerVote r.totalNeed 0 (some d.1)).1 = 0
      rw [rollLoop_tally_nobody hnone]
      exact hover

end Roll

end Sunstrider.Looting
