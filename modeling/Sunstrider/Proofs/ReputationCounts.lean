import Sunstrider.Reputation.ReputationMgr
import Sunstrider.Lib.Runs
import Sunstrider.Lib.Tally

/-!
# The counters of the reputation manager

Nothing here counts but the statement. `Counts` says that the three rank counters
tally some assignment of ranks to factions; which assignment is left open, because
in the middle of `SetOneFactionReputation` the standing has moved on and the
counters have not. `UpdateRankCounters` takes them from an assignment to one that
differs in a single faction, and every other operation leaves them be.

One operation breaks this. `DropFactionReputation` sets the standing to zero and
reports nothing, so the counters are right afterwards only if the rank that is lost
and the base rank that is left count alike. And the counters have eight bits: they
are right while fewer than 256 factions have a place in the list.
-/

namespace Sunstrider.Reputation

open Lib

/-! ## Flags -/

theorem bit_lt (flag : FactionFlag) : flag.bit < 8 := by
  cases flag <;> decide

theorem bit_injective {a b : FactionFlag} (h : a.bit = b.bit) : a = b := by
  cases a <;> cases b <;> first | rfl | (exact absurd h (by decide))

theorem hasFlag_setWidth (flags : BitVec 32) (flag : FactionFlag) :
    hasFlag (flags.setWidth 8) flag = hasFlag flags flag := by
  unfold hasFlag
  rw [BitVec.getLsbD_setWidth, decide_eq_true (bit_lt flag), Bool.true_and]

namespace FactionState

variable (f : FactionState)

@[simp] theorem has_needSave (b : Bool) (flag : FactionFlag) :
    ({ f with needSave := b } : FactionState).has flag = f.has flag := rfl

theorem has_set (a b : FactionFlag) : (f.set a).has b = (f.has b || decide (a = b)) := by
  unfold has hasFlag set
  simp only [BitVec.getLsbD_or, BitVec.getLsbD_twoPow, bit_lt, decide_true, Bool.true_and]
  congr 1
  exact decide_eq_decide.2 ⟨bit_injective, fun h => by rw [h]⟩

theorem has_clear (a b : FactionFlag) : (f.clear a).has b = (f.has b && !decide (a = b)) := by
  unfold has hasFlag clear
  simp only [BitVec.getLsbD_and, BitVec.getLsbD_not, BitVec.getLsbD_twoPow, bit_lt, decide_true,
    Bool.true_and]
  congr 2
  exact decide_eq_decide.2 ⟨bit_injective, fun h => by rw [h]⟩

/-- War touches one flag. -/
theorem has_setAtWar (on : Bool) {flag : FactionFlag} (hflag : flag ≠ .atWar) :
    (f.setAtWar on).has flag = f.has flag := by
  have hne : decide (FactionFlag.atWar = flag) = false := decide_eq_false (Ne.symm hflag)
  unfold setAtWar
  split
  · rfl
  · split
    · rfl
    · cases on with
      | true => simp [has_set, hne]
      | false => simp [has_clear, hne]

theorem standing_setAtWar (on : Bool) : (f.setAtWar on).standing = f.standing := by
  unfold setAtWar
  split
  · rfl
  · split
    · rfl
    · cases on <;> rfl

theorem has_setInactive (on : Bool) {flag : FactionFlag} (hflag : flag ≠ .inactive) :
    (f.setInactive on).has flag = f.has flag := by
  have hne : decide (FactionFlag.inactive = flag) = false := decide_eq_false (Ne.symm hflag)
  unfold setInactive
  split
  · rfl
  · split
    · rfl
    · cases on with
      | true => simp [has_set, hne]
      | false => simp [has_clear, hne]

theorem standing_setInactive (on : Bool) : (f.setInactive on).standing = f.standing := by
  unfold setInactive
  split
  · rfl
  · split
    · rfl
    · cases on <;> rfl

/-- A faction that is not visible does not become inactive. -/
theorem setInactive_inactive {on : Bool} (hvisible : f.has .visible = false)
    (h : f.has .inactive = false) : (f.setInactive on).has .inactive = false := by
  unfold setInactive
  split
  · exact h
  · rename_i hnot
    split
    · exact h
    · cases on with
      | true => exact absurd ⟨rfl, .inr (by simp [hvisible])⟩ hnot
      | false => simp [has_clear]

end FactionState

/-! ## Ranks -/

/-- A reputation between the bottom and the cap. -/
def InRange (reputation : Int) : Prop := reputationBottom ≤ reputation ∧ reputation ≤ reputationCap

theorem inRange_zero : InRange 0 := ⟨by decide, by decide⟩

theorem inRange_clamp (standing : Int) :
    InRange (if reputationCap < standing then reputationCap
      else if standing < reputationBottom then reputationBottom else standing) := by
  unfold InRange reputationCap reputationBottom
  split
  · omega
  · split <;> omega

/-- Two ranks that count alike, for a counter of the ranks from `limit` on. -/
def Alike (a b : ReputationRank) : Prop :=
  ∀ limit, ReputationRank.honored ≤ limit → (limit ≤ a ↔ limit ≤ b)

theorem alike_iff (a b : ReputationRank) :
    Alike a b ↔ a = b ∨ (¬ ReputationRank.honored ≤ a ∧ ¬ ReputationRank.honored ≤ b) := by
  refine ⟨fun h => ?_, ?_⟩
  · by_cases ha : ReputationRank.honored ≤ a
    · have hb : ReputationRank.honored ≤ b := (h .honored (by decide)).1 ha
      have hab := (h a ha).1 (Nat.le_refl a.toNat)
      have hba := (h b hb).2 (Nat.le_refl b.toNat)
      have hnat : a.toNat = b.toNat := Nat.le_antisymm hab hba
      left
      cases a <;> cases b <;> first | rfl | (exact absurd hnat (by decide))
    · exact .inr ⟨ha, fun hb => ha ((h .honored (by decide)).2 hb)⟩
  · intro h limit hlimit
    rcases h with rfl | ⟨ha, hb⟩
    · rfl
    · exact ⟨fun hl => absurd (Nat.le_trans hlimit hl) ha,
        fun hl => absurd (Nat.le_trans hlimit hl) hb⟩

/-- What one report does to a counter that was right. -/
theorem recount_ofNat {limit oldRank newRank : ReputationRank} {n n' : Nat}
    (h : n' + (decide (limit ≤ oldRank)).toNat = n + (decide (limit ≤ newRank)).toNat) :
    recount (UInt8.ofNat n) limit oldRank newRank = UInt8.ofNat n' := by
  have hsucc : ∀ k, UInt8.ofNat (k + 1) = UInt8.ofNat k + 1 := fun k => UInt8.ofNat_add k 1
  unfold recount
  by_cases ho : limit ≤ oldRank
  · rw [decide_eq_true ho, Bool.toNat_true] at h
    by_cases hn : limit ≤ newRank
    · rw [decide_eq_true hn, Bool.toNat_true] at h
      have hnn : n' = n := by omega
      rw [if_pos ho, if_pos hn, hnn, UInt8.sub_add_cancel]
    · rw [decide_eq_false hn, Bool.toNat_false] at h
      have hnn : n = n' + 1 := by omega
      rw [if_pos ho, if_neg hn, hnn, hsucc, UInt8.add_sub_cancel]
  · rw [decide_eq_false ho, Bool.toNat_false] at h
    by_cases hn : limit ≤ newRank
    · rw [decide_eq_true hn, Bool.toNat_true] at h
      have hnn : n' = n + 1 := by omega
      rw [if_neg ho, if_pos hn, hnn, hsucc]
    · rw [decide_eq_false hn, Bool.toNat_false] at h
      have hnn : n' = n := by omega
      rw [if_neg ho, if_neg hn, hnn]

/-! ## Factions and their states -/

theorem repListID_inj {s : FactionStore} {e e' : FactionEntry} (he : e ∈ s.entries)
    (he' : e' ∈ s.entries) (hcan : e.canHaveReputation)
    (h : e.repListID = e'.repListID) : e = e' := by
  refine s.distinct e he e' he' hcan ?_
  unfold FactionEntry.canHaveReputation at hcan
  have hge : 0 ≤ e.reputationListID := of_decide_eq_true hcan
  have h₁ := e.listID_lt
  have h₂ := e'.listID_ge
  have h₃ := e'.listID_lt
  unfold FactionEntry.repListID at h
  omega

theorem FactionStore.nodup (s : FactionStore) : s.entries.Nodup :=
  s.sorted.imp fun hlt he => by
    rw [he] at hlt
    exact Nat.lt_irrefl _ hlt

theorem mem_of_lookupEntry {s : FactionStore} {id : Nat} {e : FactionEntry}
    (h : s.lookupEntry id = some e) : e ∈ s.entries ∧ e.id = id :=
  ⟨List.mem_of_find?_eq_some h, by simpa using List.find?_some h⟩

section Counting

variable (c : Config)

variable {k : Nat} {g : FactionState → FactionState} {f : FactionState}

/-- The faction is hidden from the list, and is so from the start. -/
def Veiled (e : FactionEntry) : Prop :=
  (hasFlag (c.getDefaultStateFlags e) .hidden ∨
    hasFlag (c.getDefaultStateFlags e) .invisibleForced) ∧
  ¬ hasFlag (c.getDefaultStateFlags e) .visible

/-- What is true of the state of a faction at all times. -/
structure Fits (e : FactionEntry) (f : FactionState) : Prop where
  ranged : InRange (c.getBaseReputation e) → InRange (c.getBaseReputation e + f.standing)
  hidden : f.has .hidden = hasFlag (c.getDefaultStateFlags e) .hidden
  forced : f.has .invisibleForced = hasFlag (c.getDefaultStateFlags e) .invisibleForced
  veiled : Veiled c e → f.has .visible = false
  active : Veiled c e → ¬ hasFlag (c.getDefaultStateFlags e) .inactive → f.has .inactive = false

/-- The factions with a rank from `limit` on. -/
def tally (rank : FactionEntry → ReputationRank) (limit : ReputationRank) : Nat :=
  c.store.entries.countP fun e => limit ≤ rank e

def isVisible (m : ReputationMgr) (e : FactionEntry) : Bool := (m.getState e).any (·.has .visible)

def visibleTally (m : ReputationMgr) : Nat := c.store.entries.countP (isVisible m)

/-- The rank counters tally the ranks of an assignment. -/
structure Counts (rank : FactionEntry → ReputationRank) (m : ReputationMgr) : Prop where
  honored : m.honoredFactionCount = UInt8.ofNat (tally c rank .honored)
  revered : m.reveredFactionCount = UInt8.ofNat (tally c rank .revered)
  exalted : m.exaltedFactionCount = UInt8.ofNat (tally c rank .exalted)

/-- The invariant, with the rank counters a tally of `rank`. -/
structure Kept (rank : FactionEntry → ReputationRank) (m : ReputationMgr) : Prop where
  fits : ∀ k f, m.factions.lookup k = some f →
    ∃ e ∈ c.store.entries, e.canHaveReputation ∧ e.repListID = k ∧ Fits c e f
  visible : m.visibleFactionCount = UInt8.ofNat (visibleTally c m)
  counts : Counts c rank m

variable {c}
variable {m : ReputationMgr} {e : FactionEntry} {rank rank' : FactionEntry → ReputationRank}

theorem tally_congr (h : ∀ e ∈ c.store.entries, Alike (rank e) (rank' e))
    {limit : ReputationRank} (hlimit : ReputationRank.honored ≤ limit) :
    tally c rank limit = tally c rank' limit :=
  List.countP_congr fun e he => by simpa using h e he limit hlimit

theorem Counts.congr (h : Counts c rank m)
    (halike : ∀ e ∈ c.store.entries, Alike (rank e) (rank' e)) : Counts c rank' m where
  honored := h.honored.trans (congrArg _ (tally_congr halike (by decide)))
  revered := h.revered.trans (congrArg _ (tally_congr halike (by decide)))
  exalted := h.exalted.trans (congrArg _ (tally_congr halike (by decide)))

/-- The report of a faction that goes from one rank to another. The old rank may be
any that counts like the one tallied. -/
theorem Counts.change (h : Counts c rank m) (he : e ∈ c.store.entries) {oldRank : ReputationRank}
    (hold : Alike oldRank (rank e)) (hother : ∀ e' ∈ c.store.entries, e' ≠ e → rank' e' = rank e') :
    Counts c rank' (m.updateRankCounters oldRank (rank' e)) := by
  have hbalance : ∀ limit, ReputationRank.honored ≤ limit →
      tally c rank' limit + (decide (limit ≤ oldRank)).toNat =
        tally c rank limit + (decide (limit ≤ rank' e)).toNat := by
    intro limit hlimit
    rw [decide_eq_decide.2 (hold limit hlimit)]
    exact countP_change (p := fun e => decide (limit ≤ rank e))
      (q := fun e => decide (limit ≤ rank' e)) c.store.nodup he
      fun e' he' hne => by rw [hother e' he' hne]
  refine ⟨?_, ?_, ?_⟩
  · exact (congrArg (recount · _ _ _) h.honored).trans (recount_ofNat (hbalance .honored (by decide)))
  · exact (congrArg (recount · _ _ _) h.revered).trans (recount_ofNat (hbalance .revered (by decide)))
  · exact (congrArg (recount · _ _ _) h.exalted).trans (recount_ofNat (hbalance .exalted (by decide)))

/-! ## One state changes -/

theorem lookup_updateState (m : ReputationMgr) (k k' : Nat) (g : FactionState → FactionState) :
    (m.updateState k g).factions.lookup k' =
      if k' = k then (m.factions.lookup k).map g else m.factions.lookup k' := by
  unfold ReputationMgr.updateState
  by_cases heq : k' = k
  · rw [if_pos heq, heq]
    cases hk : m.factions.lookup k with
    | none => exact hk
    | some f => exact AList.lookup_insert _
  · rw [if_neg heq]
    split
    · rfl
    · exact AList.lookup_insert_ne heq

theorem updateState_counters (m : ReputationMgr) (k : Nat) (g : FactionState → FactionState) :
    (m.updateState k g).visibleFactionCount = m.visibleFactionCount ∧
      ((m.updateState k g).honoredFactionCount = m.honoredFactionCount ∧
        (m.updateState k g).reveredFactionCount = m.reveredFactionCount ∧
        (m.updateState k g).exaltedFactionCount = m.exaltedFactionCount) := by
  unfold ReputationMgr.updateState
  split <;> exact ⟨rfl, rfl, rfl, rfl⟩

theorem getState_updateState (m : ReputationMgr) (k : Nat) (g : FactionState → FactionState)
    (e : FactionEntry) :
    (m.updateState k g).getState e =
      if e.repListID = k then (m.getState e).map g else m.getState e := by
  unfold ReputationMgr.getState
  rw [lookup_updateState]
  split
  · split <;> rename_i hk
    · rw [hk]
    · rfl
  · split <;> rfl

/-- No rank and no counter is touched, and the invariant is kept. -/
structure Neutral (c : Config) (m m' : ReputationMgr) : Prop where
  reputation : ∀ e, m'.getReputation c e = m.getReputation c e
  kept : ∀ rank, Kept c rank m → Kept c rank m'

namespace Neutral

variable {m' m'' : ReputationMgr}

theorem refl (m : ReputationMgr) : Neutral c m m := ⟨fun _ => rfl, fun _ h => h⟩

theorem trans (h : Neutral c m m') (h' : Neutral c m' m'') : Neutral c m m'' :=
  ⟨fun e => (h'.reputation e).trans (h.reputation e), fun rank hm => h'.kept rank (h.kept rank hm)⟩

theorem ranks (h : Neutral c m m') : m'.getRank c = m.getRank c := by
  funext e
  unfold ReputationMgr.getRank
  rw [h.reputation e]

theorem ite {p : Prop} [Decidable p] (h : p → Neutral c m m') :
    Neutral c m (if p then m' else m) := by
  split <;> rename_i hp
  · exact h hp
  · exact refl m

end Neutral

theorem getReputation_updateState (hg : ∀ f, (g f).standing = f.standing) (e : FactionEntry) :
    (m.updateState k g).getReputation c e = m.getReputation c e := by
  unfold ReputationMgr.getReputation
  rw [getState_updateState]
  by_cases hk : e.repListID = k
  · rw [if_pos hk]
    cases m.getState e with
    | none => rfl
    | some f => simp [hg]
  · rw [if_neg hk]

theorem isVisible_updateState (hg : ∀ f, (g f).has .visible = f.has .visible) :
    isVisible (m.updateState k g) = isVisible m := by
  funext e
  unfold isVisible
  rw [getState_updateState]
  by_cases hk : e.repListID = k
  · rw [if_pos hk]
    cases m.getState e with
    | none => rfl
    | some f => simp [hg]
  · rw [if_neg hk]

/-- An update that leaves the visible flag alone keeps the invariant. -/
theorem Kept.updateState (h : Kept c rank m)
    (hfits : ∀ e ∈ c.store.entries, e.repListID = k → ∀ f, Fits c e f → Fits c e (g f))
    (hvisible : ∀ f, (g f).has .visible = f.has .visible) : Kept c rank (m.updateState k g) := by
  obtain ⟨hcount, hhonored, hrevered, hexalted⟩ := updateState_counters m k g
  refine ⟨fun k' f hf => ?_, ?_, ⟨?_, ?_, ?_⟩⟩
  · rw [lookup_updateState] at hf
    split at hf <;> rename_i hk
    · obtain ⟨f₀, hf₀, rfl⟩ := Option.map_eq_some_iff.1 hf
      obtain ⟨e, he, hcan, hkey, hfit⟩ := h.fits k f₀ hf₀
      exact ⟨e, he, hcan, hkey.trans hk.symm, hfits e he hkey f₀ hfit⟩
    · exact h.fits k' f hf
  · unfold visibleTally
    rw [isVisible_updateState hvisible]
    exact hcount.trans h.visible
  · exact hhonored.trans h.counts.honored
  · exact hrevered.trans h.counts.revered
  · exact hexalted.trans h.counts.exalted

theorem Neutral.updateState (hfits : ∀ e f, Fits c e f → Fits c e (g f))
    (hstanding : ∀ f, (g f).standing = f.standing)
    (hvisible : ∀ f, (g f).has .visible = f.has .visible) : Neutral c m (m.updateState k g) :=
  ⟨getReputation_updateState hstanding,
    fun _ h => h.updateState (fun e _ _ f => hfits e f) hvisible⟩

/-! ## Flags change -/

theorem Fits.setAtWar (h : Fits c e f) (on : Bool) :
    Fits c e (f.setAtWar on) where
  ranged := f.standing_setAtWar on ▸ h.ranged
  hidden := (f.has_setAtWar on (by decide)).trans h.hidden
  forced := (f.has_setAtWar on (by decide)).trans h.forced
  veiled := fun hv => (f.has_setAtWar on (by decide)).trans (h.veiled hv)
  active := fun hv ha => (f.has_setAtWar on (by decide)).trans (h.active hv ha)

theorem Fits.setInactive (h : Fits c e f) (on : Bool) :
    Fits c e (f.setInactive on) where
  ranged := f.standing_setInactive on ▸ h.ranged
  hidden := (f.has_setInactive on (by decide)).trans h.hidden
  forced := (f.has_setInactive on (by decide)).trans h.forced
  veiled := fun hv => (f.has_setInactive on (by decide)).trans (h.veiled hv)
  active := fun hv ha => f.setInactive_inactive (h.veiled hv) (h.active hv ha)

theorem Neutral.setAtWar (k : Nat) (on : Bool) : Neutral c m (m.updateState k (·.setAtWar on)) :=
  .updateState (fun _ _ h => h.setAtWar on) (fun f => f.standing_setAtWar on)
    fun f => f.has_setAtWar on (by decide)

theorem Neutral.setInactive (k : Nat) (on : Bool) :
    Neutral c m (m.updateState k (·.setInactive on)) :=
  .updateState (fun _ _ h => h.setInactive on) (fun f => f.standing_setInactive on)
    fun f => f.has_setInactive on (by decide)

/-- A state may be made visible: its faction is not veiled. -/
theorem Fits.setVisible (h : Fits c e f) (hshow : ¬ (f.has .invisibleForced ∨ f.has .hidden)) :
    Fits c e { f.set .visible with needSave := true } where
  ranged := h.ranged
  hidden := by
    rw [FactionState.has_needSave, FactionState.has_set, h.hidden]
    simp
  forced := by
    rw [FactionState.has_needSave, FactionState.has_set, h.forced]
    simp
  veiled := fun hv => absurd hv.1 (by rwa [← h.hidden, ← h.forced, or_comm])
  active := fun hv => absurd hv.1 (by rwa [← h.hidden, ← h.forced, or_comm])

/-- A faction that is made visible is one more in the list. -/
theorem Neutral.setVisibleState (k : Nat) : Neutral c m (m.setVisibleState k) := by
  unfold ReputationMgr.setVisibleState
  cases hk : m.factions.lookup k with
  | none => exact .refl m
  | some f =>
      simp only
      split
      · exact .refl m
      · rename_i hshow
        split
        · exact .refl m
        · rename_i hhid
          let g : FactionState → FactionState := fun f => { f.set .visible with needSave := true }
          -- but for the counter, this is an update of the state
          have hupdate : (m.updateState k g).factions = m.factions.insert k (g f) := by
            unfold ReputationMgr.updateState
            rw [hk]
          have hstate : ∀ e, ReputationMgr.getState
              { m with
                factions := m.factions.insert k (g f)
                visibleFactionCount := m.visibleFactionCount + 1 } e =
              (m.updateState k g).getState e := by
            intro e
            unfold ReputationMgr.getState
            rw [hupdate]
          refine ⟨fun e => ?_, fun rank h => ?_⟩
          · have hreputation := getReputation_updateState (c := c) (m := m) (k := k) (g := g)
              (fun _ => rfl) e
            unfold ReputationMgr.getReputation at hreputation ⊢
            rw [hstate e]
            exact hreputation
          · obtain ⟨e, he, hcan, hkey, hfit⟩ := h.fits k f hk
            have hself : m.getState e = some f := by
              unfold ReputationMgr.getState
              rw [if_pos hcan, hkey, hk]
            refine ⟨fun k' f' hf' => ?_, ?_, ⟨h.counts.honored, h.counts.revered,
              h.counts.exalted⟩⟩
            · by_cases hk' : k' = k
              · rw [hk'] at hf'
                have hff : g f = f' := Option.some.inj ((AList.lookup_insert _).symm.trans hf')
                exact ⟨e, he, hcan, hkey.trans hk'.symm, hff ▸ hfit.setVisible hshow⟩
              · exact h.fits k' f' ((AList.lookup_insert_ne hk').symm.trans hf')
            · have hbalance := countP_change (p := isVisible m)
                (q := isVisible { m with
                  factions := m.factions.insert k (g f)
                  visibleFactionCount := m.visibleFactionCount + 1 })
                c.store.nodup he fun e' he' hne => by
                  unfold isVisible
                  rw [hstate e', getState_updateState, if_neg]
                  exact fun hk' => hne (repListID_inj he he' hcan (hkey.trans hk'.symm)).symm
              have hbefore : isVisible m e = false := by
                unfold isVisible
                rw [hself]
                simpa using hhid
              have hafter : isVisible { m with
                  factions := m.factions.insert k (g f)
                  visibleFactionCount := m.visibleFactionCount + 1 } e = true := by
                unfold isVisible
                rw [hstate e, getState_updateState, if_pos hkey, hself]
                simp [g, FactionState.has_set]
              rw [hbefore, hafter, Bool.toNat_false, Bool.toNat_true] at hbalance
              have hcount : m.visibleFactionCount + 1 = UInt8.ofNat (visibleTally c m + 1) := by
                rw [h.visible]
                exact (UInt8.ofNat_add _ 1).symm
              exact hcount.trans (congrArg UInt8.ofNat hbalance.symm)

end Counting

end Sunstrider.Reputation
