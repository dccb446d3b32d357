import Sunstrider.Proofs.ReputationCounts

/-!
# The reputation manager, run after run

Each operation ends with the counters in step with the ranks, which is `Kept` for
the ranks of the state itself. `Initialize` and `LoadFromDB` are loops over
distinct factions, and what carries them is that a faction not yet reached has no
state, or its base standing; `SetOneFactionReputation` moves one faction and
reports the move. The run rule then gives every reachable state, as long as nothing
is dropped that the counters would miss.
-/

namespace Sunstrider.Reputation

open Lib

variable {c : Config}

section Operations

variable {c : Config} {m : ReputationMgr} {e : FactionEntry}
variable {rank rank' : FactionEntry → ReputationRank}

variable {m' : ReputationMgr} {f : FactionState}

/-- The invariant between operations. -/
abbrev KeptNow (c : Config) (m : ReputationMgr) : Prop := Kept c (m.getRank c) m

theorem Neutral.now (h : Neutral c m m') (hm : KeptNow c m) : KeptNow c m' := by
  unfold KeptNow
  rw [h.ranks]
  exact h.kept _ hm

theorem Kept.report (h : Kept c rank m) (he : e ∈ c.store.entries) {oldRank : ReputationRank}
    (hold : Alike oldRank (rank e)) (hother : ∀ e' ∈ c.store.entries, e' ≠ e → rank' e' = rank e') :
    Kept c rank' (m.updateRankCounters oldRank (rank' e)) :=
  ⟨h.fits, h.visible, h.counts.change he hold hother⟩

theorem alike_refl (r : ReputationRank) : Alike r r := fun _ _ => Iff.rfl

/-- The faction of a key that has a state. -/
theorem Kept.canHave (h : Kept c rank m) (he : e ∈ c.store.entries)
    (hf : m.factions.lookup e.repListID = some f) : e.canHaveReputation ∧ Fits c e f := by
  obtain ⟨e', he', hcan, hkey, hfit⟩ := h.fits _ f hf
  have heq := repListID_inj he' he hcan hkey
  subst heq
  exact ⟨hcan, hfit⟩

theorem Kept.getState (h : Kept c rank m) (he : e ∈ c.store.entries)
    (hf : m.factions.lookup e.repListID = some f) : m.getState e = some f := by
  unfold ReputationMgr.getState
  rw [if_pos (h.canHave he hf).1, hf]

theorem getRank_of_getState (h : m.getState e = some f) :
    m.getRank c e = reputationToRank (c.getBaseReputation e + f.standing) := by
  unfold ReputationMgr.getRank ReputationMgr.getReputation
  rw [h]

/-- Another faction's rank does not change with a state. -/
theorem getRank_updateState_ne {k : Nat} {g : FactionState → FactionState}
    (hne : e.repListID ≠ k) : (m.updateState k g).getRank c e = m.getRank c e := by
  unfold ReputationMgr.getRank ReputationMgr.getReputation
  rw [getState_updateState, if_neg hne]

/-! ## Setting -/

/-- A standing is set and the move reported, with whatever neutral operations in
between. -/
theorem Kept.move (h : KeptNow c m) (he : e ∈ c.store.entries)
    (hf : m.factions.lookup e.repListID = some f) {g : FactionState → FactionState}
    (hfits : Fits c e f → Fits c e (g f)) (hvisible : (g f).has .visible = f.has .visible)
    (hm' : Neutral c { m with factions := m.factions.insert e.repListID (g f) } m')
    {oldRank : ReputationRank} (hold : Alike oldRank (m.getRank c e)) :
    KeptNow c (m'.updateRankCounters oldRank
      (reputationToRank (c.getBaseReputation e + (g f).standing))) := by
  -- an update that does to this state what `g` does, and to no other
  have hm₁ : m.updateState e.repListID (fun _ => g f) =
      { m with factions := m.factions.insert e.repListID (g f) } := by
    unfold ReputationMgr.updateState
    rw [hf]
  obtain ⟨hcan, hfit⟩ := h.canHave he hf
  have hself := h.getState he hf
  have hstate : (m.updateState e.repListID fun _ => g f).getState e = some (g f) := by
    rw [getState_updateState, if_pos rfl, hself, Option.map_some]
  have hkept : Kept c (m.getRank c) (m.updateState e.repListID fun _ => g f) := by
    refine ⟨fun k f' hf' => ?_, ?_, ?_⟩
    · rw [lookup_updateState] at hf'
      split at hf' <;> rename_i hk
      · rw [hf, Option.map_some] at hf'
        exact ⟨e, he, hcan, hk.symm, Option.some.inj hf' ▸ hfits hfit⟩
      · exact h.fits k f' hf'
    · obtain ⟨hcount, -⟩ := updateState_counters m e.repListID fun _ => g f
      rw [hcount, h.visible]
      congr 1
      refine List.countP_congr fun e' _ => ?_
      unfold isVisible
      rw [getState_updateState]
      by_cases hk : e'.repListID = e.repListID
      · rw [if_pos hk]
        unfold ReputationMgr.getState
        rw [hk, hf]
        cases e'.canHaveReputation <;> simp [hvisible]
      · rw [if_neg hk]
    · obtain ⟨-, hhonored, hrevered, hexalted⟩ := updateState_counters m e.repListID fun _ => g f
      exact ⟨hhonored.trans h.counts.honored, hrevered.trans h.counts.revered,
        hexalted.trans h.counts.exalted⟩
  rw [← hm₁] at hm'
  have hrank : m'.getRank c e = reputationToRank (c.getBaseReputation e + (g f).standing) := by
    rw [hm'.ranks]
    exact getRank_of_getState hstate
  have hother : ∀ e' ∈ c.store.entries, e' ≠ e → m'.getRank c e' = m.getRank c e' := by
    intro e' he' hne
    rw [hm'.ranks]
    exact getRank_updateState_ne fun hk => hne (repListID_inj he he' hcan hk.symm).symm
  have hreport := (hm'.kept _ hkept).report he hold hother
  rw [hrank] at hreport
  exact hreport

theorem kept_setOneFactionReputation (h : KeptNow c m) (he : e ∈ c.store.entries) (standing : Int)
    (incremental : Bool) :
    KeptNow c (m.setOneFactionReputation c e standing incremental).1 := by
  unfold ReputationMgr.setOneFactionReputation
  dsimp only
  cases hf : m.factions.lookup e.repListID with
  | none => exact h
  | some f =>
      dsimp only
      generalize hs : (if incremental = true then _ else standing) = total
      generalize hcl : (if reputationCap < total then _ else _) = clamped
      have hrange : InRange clamped := hcl ▸ inRange_clamp total
      have hsum : c.getBaseReputation e + (clamped - c.getBaseReputation e) = clamped := by omega
      let g : FactionState → FactionState := fun f =>
        { f with standing := clamped - c.getBaseReputation e, needSave := true }
      have hold : Alike (reputationToRank (f.standing + c.getBaseReputation e)) (m.getRank c e) := by
        rw [getRank_of_getState (h.getState he hf), Int.add_comm]
        exact alike_refl _
      have hupdate : m.updateState e.repListID g =
          { m with factions := m.factions.insert e.repListID (g f) } := by
        unfold ReputationMgr.updateState
        rw [hf]
      have hflags : ∀ m₁ : ReputationMgr, Neutral c m₁
          (if reputationToRank clamped ≤ ReputationRank.hostile then
            (m₁.setVisibleState e.repListID).updateState e.repListID (·.setAtWar true)
          else m₁.setVisibleState e.repListID) := fun m₁ =>
        (Neutral.setVisibleState _).trans (.ite fun _ => Neutral.setAtWar _ true)
      have hmove := h.move he hf (g := g)
        (fun hfit => ⟨fun _ => hsum.symm ▸ hrange, hfit.hidden, hfit.forced, hfit.veiled, hfit.active⟩)
        rfl (hflags _) hold
      rw [← hupdate, show c.getBaseReputation e + (g f).standing = clamped from hsum] at hmove
      exact hmove

theorem kept_setReputation (h : KeptNow c m) (he : e ∈ c.store.entries) (standing : Int)
    (incremental spillOverOnly : Bool) :
    KeptNow c (m.setReputation c e standing incremental spillOverOnly).1 := by
  unfold ReputationMgr.setReputation
  dsimp only
  cases m.factions.lookup e.repListID with
  | none => exact h
  | some f =>
      dsimp only
      split
      · exact h
      · exact kept_setOneFactionReputation h he _ _

theorem kept_swap (h : KeptNow c m) (fromFactionId toFactionId : Nat) :
    KeptNow c (m.swapFactionReputation c fromFactionId toFactionId) := by
  unfold ReputationMgr.swapFactionReputation
  split
  · rename_i fromFaction toFaction hfrom hto
    exact kept_setReputation (kept_setReputation h (mem_of_lookupEntry hfrom).1 _ _ _)
      (mem_of_lookupEntry hto).1 _ _ _
  · exact h

/-- What a drop may leave: a rank that counts like the one there was. -/
def DropsAlike (c : Config) (m : ReputationMgr) (factionId : Nat) : Prop :=
  ∀ e ∈ c.store.entries, e.repListID = factionId → (m.getState e).isSome →
    m.getRank c e = c.getBaseRank e ∨
      (¬ ReputationRank.honored ≤ m.getRank c e ∧ ¬ ReputationRank.honored ≤ c.getBaseRank e)

theorem kept_drop (h : KeptNow c m) {factionId : Nat} (hdrop : DropsAlike c m factionId) :
    KeptNow c (m.dropFactionReputation factionId) := by
  have hkept : Kept c (m.getRank c) (m.dropFactionReputation factionId) := by
    refine h.updateState (fun e _ _ f hfit => ?_) fun _ => rfl
    refine ⟨fun hbase => ?_, hfit.hidden, hfit.forced, hfit.veiled, hfit.active⟩
    exact (Int.add_zero _).symm ▸ hbase
  refine ⟨hkept.fits, hkept.visible, hkept.counts.congr fun e he => ?_⟩
  by_cases hk : e.repListID = factionId
  · cases hs : m.getState e with
    | none =>
        unfold ReputationMgr.getRank ReputationMgr.getReputation ReputationMgr.dropFactionReputation
        rw [getState_updateState, if_pos hk, hs, Option.map_none]
        exact alike_refl _
    | some f =>
        have hstate : (m.dropFactionReputation factionId).getState e =
            some { f with needDelete := true, standing := 0 } := by
          unfold ReputationMgr.dropFactionReputation
          rw [getState_updateState, if_pos hk, hs, Option.map_some]
        have hrank : (m.dropFactionReputation factionId).getRank c e = c.getBaseRank e := by
          rw [getRank_of_getState hstate]
          exact congrArg reputationToRank (Int.add_zero _)
        rw [hrank]
        exact (alike_iff _ _).2 (hdrop e he hk (by rw [hs]; rfl))
  · unfold ReputationMgr.dropFactionReputation
    rw [getRank_updateState_ne hk]
    exact alike_refl _

/-! ## Loading -/

/-- Only the state under a key may differ. -/
def Elsewhere (k : Nat) (m m' : ReputationMgr) : Prop :=
  ∀ e, e.repListID ≠ k → m'.getState e = m.getState e

namespace Elsewhere

variable {k : Nat} {m' m'' : ReputationMgr}

theorem refl (k : Nat) (m : ReputationMgr) : Elsewhere k m m := fun _ _ => rfl

theorem trans (h : Elsewhere k m m') (h' : Elsewhere k m' m'') : Elsewhere k m m'' :=
  fun e hk => (h' e hk).trans (h e hk)

theorem ite {p : Prop} [Decidable p] (h : Elsewhere k m m') :
    Elsewhere k m (if p then m' else m) := by
  split
  · exact h
  · exact refl k m

theorem updateState (g : FactionState → FactionState) : Elsewhere k m (m.updateState k g) :=
  fun e hk => by rw [getState_updateState, if_neg hk]

theorem insert {factions : Ledger Nat FactionState} {f : FactionState}
    (h : factions = m.factions.insert k f) (hm' : m'.factions = factions) : Elsewhere k m m' := by
  intro e hk
  unfold ReputationMgr.getState
  rw [hm', h, AList.lookup_insert_ne hk]

theorem setVisibleState : Elsewhere k m (m.setVisibleState k) := by
  unfold ReputationMgr.setVisibleState
  split
  · exact refl k m
  · split
    · exact refl k m
    · split
      · exact refl k m
      · exact insert rfl rfl

end Elsewhere

/-- The flags of a row change the state of its faction, and no rank or counter. -/
theorem neutral_loadFlags (m : ReputationMgr) (e : FactionEntry) (flags : BitVec 16) :
    Neutral c m (m.loadFlags c e flags) ∧ Elsewhere e.repListID m (m.loadFlags c e flags) := by
  unfold ReputationMgr.loadFlags
  dsimp only
  generalize h₁ : (if hasFlag flags .visible = true then _ else m) = m₁
  generalize h₂ : (if hasFlag flags .inactive = true then _ else m₁) = m₂
  generalize h₃ : (if hasFlag flags .atWar = true then _ else _) = m₃
  have hvisible : Neutral c m m₁ ∧ Elsewhere e.repListID m m₁ :=
    h₁ ▸ ⟨.ite fun _ => .setVisibleState _, .ite .setVisibleState⟩
  have hinactive : Neutral c m₁ m₂ ∧ Elsewhere e.repListID m₁ m₂ :=
    h₂ ▸ ⟨.ite fun _ => .setInactive _ _, .ite (.updateState _)⟩
  have hwar : Neutral c m₂ m₃ ∧ Elsewhere e.repListID m₂ m₃ := by
    rw [← h₃]
    split
    · exact ⟨.setAtWar _ _, .updateState _⟩
    · exact ⟨.ite fun _ => .setAtWar _ _, .ite (.updateState _)⟩
  exact ⟨((hvisible.1.trans hinactive.1).trans hwar.1).trans (.ite fun _ => .setAtWar _ _),
    ((hvisible.2.trans hinactive.2).trans hwar.2).trans (.ite (.updateState _))⟩

/-- The saved rows as the database should have them: one for a faction, and its
reputation in range. -/
structure WellFormed (c : Config) (rows : List SavedRow) : Prop where
  once : (rows.map (·.faction)).Nodup
  ranged : ∀ row ∈ rows, ∀ e, c.store.lookupEntry row.faction = some e →
    InRange (c.getBaseReputation e + row.standing)

/-- The faction stands where it started. -/
def AtBase (m : ReputationMgr) (e : FactionEntry) : Prop :=
  e.canHaveReputation → ∃ f, m.factions.lookup e.repListID = some f ∧ f.standing = 0

theorem kept_loadRow (h : KeptNow c m) {row : SavedRow}
    (hrow : ∀ e, c.store.lookupEntry row.faction = some e →
      InRange (c.getBaseReputation e + row.standing) ∧ AtBase m e) :
    KeptNow c (ReputationMgr.loadRow c m row) ∧
      ∀ e', c.store.lookupEntry row.faction = some e' →
        Elsewhere e'.repListID m (ReputationMgr.loadRow c m row) := by
  unfold ReputationMgr.loadRow
  cases hlook : c.store.lookupEntry row.faction with
  | none => exact ⟨h, fun e he => by cases he⟩
  | some e =>
      dsimp only
      split <;> rename_i hcan
      · obtain ⟨hrange, hbase⟩ := hrow e hlook
        obtain ⟨f, hf, hzero⟩ := hbase hcan
        have he := (mem_of_lookupEntry hlook).1
        rw [hf, Option.getD_some]
        let g : FactionState → FactionState := fun f => { f with standing := row.standing }
        have hold : Alike (reputationToRank (c.getBaseReputation e)) (m.getRank c e) := by
          rw [getRank_of_getState (h.getState he hf), hzero, Int.add_zero]
          exact alike_refl _
        have hmove := h.move he hf (g := g)
          (fun hfit => ⟨fun _ => hrange, hfit.hidden, hfit.forced, hfit.veiled, hfit.active⟩)
          rfl (.refl _) hold
        have hflags := neutral_loadFlags (c := c)
          (({ m with factions := m.factions.insert e.repListID (g f) } :
            ReputationMgr).updateRankCounters (reputationToRank (c.getBaseReputation e))
            (reputationToRank (c.getBaseReputation e + row.standing))) e row.flags
        have hsame : ∀ m₁ : ReputationMgr, Neutral c m₁ (m₁.updateState e.repListID fun faction =>
            if faction.flags.toNat = row.flags.toNat then { faction with needSave := false }
            else faction) := fun m₁ =>
          .updateState
            (fun e f hfit => by
              split
              · exact ⟨hfit.ranged, hfit.hidden, hfit.forced, hfit.veiled, hfit.active⟩
              · exact hfit)
            (fun f => by split <;> rfl) (fun f => by split <;> rfl)
        refine ⟨(hflags.1.trans (hsame _)).now hmove, fun e' he' => ?_⟩
        cases he'
        have hmoved : Elsewhere e.repListID m
            (({ m with factions := m.factions.insert e.repListID (g f) } :
              ReputationMgr).updateRankCounters (reputationToRank (c.getBaseReputation e))
              (reputationToRank (c.getBaseReputation e + row.standing))) := .insert rfl rfl
        exact (hmoved.trans hflags.2).trans (.updateState _)
      · exact ⟨h, fun _ _ => .refl _ _⟩

/-- The loop of `LoadFromDB`: the factions of the rows to come are at their base. -/
theorem kept_loadRows (rows : List SavedRow) : ∀ m, KeptNow c m → WellFormed c rows →
    (∀ row ∈ rows, ∀ e, c.store.lookupEntry row.faction = some e → AtBase m e) →
    KeptNow c (rows.foldl (ReputationMgr.loadRow c) m) := by
  induction rows with
  | nil => exact fun m h _ _ => h
  | cons row rows ih =>
      intro m h hrows hbase
      have hnew := List.nodup_cons.1 hrows.once
      obtain ⟨hkept, helse⟩ := kept_loadRow h fun e he =>
        ⟨hrows.ranged row List.mem_cons_self e he, hbase row List.mem_cons_self e he⟩
      refine ih _ hkept
        ⟨hnew.2, fun row' hrow' => hrows.ranged row' (List.mem_cons_of_mem _ hrow')⟩
        fun row' hrow' e' he' hcan => ?_
      obtain ⟨f, hf, hzero⟩ := hbase row' (List.mem_cons_of_mem _ hrow') e' he' hcan
      refine ⟨f, ?_, hzero⟩
      have hne : row'.faction ≠ row.faction := fun heq =>
        hnew.1 (List.mem_map.2 ⟨row', hrow', heq⟩)
      cases hlook : c.store.lookupEntry row.faction with
      | none =>
          unfold ReputationMgr.loadRow
          rw [hlook]
          exact hf
      | some e =>
          have hkey : e'.repListID ≠ e.repListID := by
            intro hk
            have heq := repListID_inj (mem_of_lookupEntry he').1 (mem_of_lookupEntry hlook).1 hcan hk
            exact hne ((mem_of_lookupEntry he').2.symm.trans
              ((congrArg _ heq).trans (mem_of_lookupEntry hlook).2))
          have hstate := helse e hlook e' hkey
          unfold ReputationMgr.getState at hstate
          rw [if_pos hcan, if_pos hcan] at hstate
          rw [hstate, hf]

/-- The state `Initialize` gives a faction. -/
def newFaction (c : Config) (e : FactionEntry) : FactionState :=
  { id := e.id
    reputationListID := e.repListID
    standing := 0
    flags := (c.getDefaultStateFlags e).setWidth 8
    needSave := true
    needDelete := false }

theorem fits_newFaction (c : Config) (e : FactionEntry) : Fits c e (newFaction c e) where
  ranged := fun h => (Int.add_zero _).symm ▸ h
  hidden := hasFlag_setWidth _ _
  forced := hasFlag_setWidth _ _
  veiled := fun hv => (hasFlag_setWidth _ _).trans (by simpa using hv.2)
  active := fun _ ha => (hasFlag_setWidth _ _).trans (by simpa using ha)

/-- A faction without a state is neutral, and no counter counts it. -/
theorem alike_hostile (h : m.getState e = none) : Alike .hostile (m.getRank c e) := by
  have hrank : m.getRank c e = .neutral := by
    unfold ReputationMgr.getRank ReputationMgr.getReputation
    rw [h]
    rfl
  rw [hrank]
  exact (alike_iff _ _).2 (.inr ⟨by decide, by decide⟩)

/-- The states after one was stored for a faction. -/
theorem getState_insert (he : e ∈ c.store.entries) (hcan : e.canHaveReputation)
    (hfactions : m'.factions = m.factions.insert e.repListID f) :
    m'.getState e = some f ∧
      ∀ e' ∈ c.store.entries, e' ≠ e → m'.getState e' = m.getState e' := by
  unfold ReputationMgr.getState
  rw [hfactions]
  refine ⟨by rw [if_pos hcan, AList.lookup_insert], fun e' he' hne => ?_⟩
  rw [AList.lookup_insert_ne]
  exact fun hk => hne (repListID_inj he he' hcan hk.symm).symm

/-- The state of a faction that had none, and the reports that go with it. -/
theorem kept_add (h : KeptNow c m) (he : e ∈ c.store.entries) (hcan : e.canHaveReputation)
    (hnone : m.getState e = none)
    (hfactions : m'.factions = m.factions.insert e.repListID (newFaction c e))
    (hvisible : m'.visibleFactionCount = if (newFaction c e).has .visible then
      m.visibleFactionCount + 1 else m.visibleFactionCount)
    (hcounts : Counts c (m.getRank c) m → Counts c (m'.getRank c) m') : KeptNow c m' := by
  obtain ⟨hself, hother⟩ := getState_insert he hcan hfactions
  refine ⟨fun k f hf => ?_, ?_, hcounts h.counts⟩
  · rw [hfactions] at hf
    by_cases hk : k = e.repListID
    · rw [hk] at hf
      have hff := Option.some.inj ((AList.lookup_insert _).symm.trans hf)
      exact ⟨e, he, hcan, hk.symm, hff ▸ fits_newFaction c e⟩
    · exact h.fits k f ((AList.lookup_insert_ne hk).symm.trans hf)
  · have hbalance := countP_change (p := isVisible m) (q := isVisible m') c.store.nodup he
      fun e' he' hne => by
        unfold isVisible
        rw [hother e' he' hne]
    have hbefore : isVisible m e = false := by
      unfold isVisible
      rw [hnone]
      rfl
    have hafter : isVisible m' e = (newFaction c e).has .visible := by
      unfold isVisible
      rw [hself]
      rfl
    rw [hbefore, hafter, Bool.toNat_false] at hbalance
    rw [hvisible, h.visible]
    split <;> rename_i hflag
    · rw [hflag, Bool.toNat_true] at hbalance
      exact (UInt8.ofNat_add _ 1).symm.trans (congrArg UInt8.ofNat hbalance.symm)
    · rw [Bool.eq_false_iff.2 hflag, Bool.toNat_false] at hbalance
      exact congrArg UInt8.ofNat hbalance.symm

theorem kept_initializeFaction (h : KeptNow c m) (he : e ∈ c.store.entries)
    (hnone : m.getState e = none) :
    KeptNow c (ReputationMgr.initializeFaction c m e) ∧
      Elsewhere e.repListID m (ReputationMgr.initializeFaction c m e) ∧
      AtBase (ReputationMgr.initializeFaction c m e) e := by
  by_cases hcan : e.canHaveReputation
  · have hfactions : (ReputationMgr.initializeFaction c m e).factions =
        m.factions.insert e.repListID (newFaction c e) := by
      unfold ReputationMgr.initializeFaction
      rw [if_pos hcan]
      dsimp only
      split <;> rfl
    have hvisible : (ReputationMgr.initializeFaction c m e).visibleFactionCount =
        if (newFaction c e).has .visible then m.visibleFactionCount + 1
        else m.visibleFactionCount := by
      unfold ReputationMgr.initializeFaction
      rw [if_pos hcan]
      show (if (newFaction c e).has .visible = true then _ else m).visibleFactionCount = _
      split <;> rfl
    obtain ⟨hself, hother⟩ := getState_insert he hcan hfactions
    refine ⟨kept_add h he hcan hnone hfactions hvisible fun hcounts => ?_, .insert rfl hfactions,
      fun _ => ⟨newFaction c e, by rw [hfactions, AList.lookup_insert], rfl⟩⟩
    have hrank : (ReputationMgr.initializeFaction c m e).getRank c e = c.getBaseRank e := by
      rw [getRank_of_getState hself]
      exact congrArg reputationToRank (Int.add_zero _)
    have hranks : ∀ e' ∈ c.store.entries, e' ≠ e →
        (ReputationMgr.initializeFaction c m e).getRank c e' = m.getRank c e' := by
      intro e' he' hne
      unfold ReputationMgr.getRank ReputationMgr.getReputation
      rw [hother e' he' hne]
    have hreport := hcounts.change he (alike_hostile hnone) hranks
    rw [hrank] at hreport
    have hsame : (ReputationMgr.initializeFaction c m e).honoredFactionCount =
          (m.updateRankCounters .hostile (c.getBaseRank e)).honoredFactionCount ∧
        (ReputationMgr.initializeFaction c m e).reveredFactionCount =
          (m.updateRankCounters .hostile (c.getBaseRank e)).reveredFactionCount ∧
        (ReputationMgr.initializeFaction c m e).exaltedFactionCount =
          (m.updateRankCounters .hostile (c.getBaseRank e)).exaltedFactionCount := by
      unfold ReputationMgr.initializeFaction
      rw [if_pos hcan]
      dsimp only
      split <;> exact ⟨rfl, rfl, rfl⟩
    exact ⟨hsame.1.trans hreport.honored, hsame.2.1.trans hreport.revered,
      hsame.2.2.trans hreport.exalted⟩
  · have hsame : ReputationMgr.initializeFaction c m e = m := by
      unfold ReputationMgr.initializeFaction
      rw [if_neg hcan]
    rw [hsame]
    exact ⟨h, .refl _ _, fun hc => absurd hc hcan⟩

/-- The loop of `Initialize`: the factions to come have no state, and those behind are
at their base. -/
theorem kept_initializeLoop (l : List FactionEntry) : ∀ m, KeptNow c m → l.Nodup →
    (∀ e ∈ l, e ∈ c.store.entries ∧ m.getState e = none) →
    KeptNow c (l.foldl (ReputationMgr.initializeFaction c) m) ∧
      ∀ e ∈ c.store.entries, e ∈ l ∨ AtBase m e →
        AtBase (l.foldl (ReputationMgr.initializeFaction c) m) e := by
  induction l with
  | nil =>
      exact fun m h _ _ => ⟨h, fun e _ hbase => hbase.resolve_left List.not_mem_nil⟩
  | cons e l ih =>
      intro m h hnodup hl
      obtain ⟨hnot, hnodup⟩ := List.nodup_cons.1 hnodup
      obtain ⟨he, hnone⟩ := hl e List.mem_cons_self
      obtain ⟨hkept, helse, hbase⟩ := kept_initializeFaction h he hnone
      have hkey : ∀ e' ∈ c.store.entries, e' ≠ e → e'.canHaveReputation →
          e'.repListID ≠ e.repListID := fun e' he' hne hcan hk =>
        hne (repListID_inj he' he hcan hk)
      obtain ⟨hend, hall⟩ := ih _ hkept hnodup fun e' he' => by
        obtain ⟨hmem, hnone'⟩ := hl e' (List.mem_cons_of_mem _ he')
        refine ⟨hmem, ?_⟩
        by_cases hcan : e'.canHaveReputation
        · rw [helse e' (hkey e' hmem (fun heq => hnot (heq ▸ he')) hcan), hnone']
        · unfold ReputationMgr.getState
          rw [if_neg hcan]
      refine ⟨hend, fun e' he' h' => hall e' he' ?_⟩
      by_cases heq : e' = e
      · exact .inr (heq ▸ hbase)
      · rcases h' with hmem | hbase'
        · exact .inl ((List.mem_cons.1 hmem).resolve_left heq)
        · right
          intro hcan
          obtain ⟨f, hf, hzero⟩ := hbase' hcan
          have hstate := helse e' (hkey e' he' heq hcan)
          unfold ReputationMgr.getState at hstate
          rw [if_pos hcan, if_pos hcan] at hstate
          exact ⟨f, hstate.trans hf, hzero⟩

/-- Before anything is loaded all counters are zero, and nothing is counted. -/
theorem kept_new (c : Config) : KeptNow c .new := by
  have hstate : ∀ e, ReputationMgr.new.getState e = none := by
    intro e
    unfold ReputationMgr.getState
    split <;> rfl
  have htally : ∀ limit, ReputationRank.honored ≤ limit →
      tally c (ReputationMgr.new.getRank c) limit = 0 := by
    intro limit hlimit
    refine List.countP_eq_zero.2 fun e _ hle => ?_
    have hhostile := (alike_hostile (c := c) (hstate e) limit hlimit).2 (of_decide_eq_true hle)
    exact absurd (Nat.le_trans hlimit hhostile) (by decide)
  refine ⟨fun k f hf => (by cases hf), ?_, ⟨?_, ?_, ?_⟩⟩
  · have hzero : visibleTally c .new = 0 := by
      refine List.countP_eq_zero.2 fun e _ hv => ?_
      unfold isVisible at hv
      rw [hstate e] at hv
      cases hv
    rw [hzero]
    rfl
  · rw [htally .honored (by decide)]
    rfl
  · rw [htally .revered (by decide)]
    rfl
  · rw [htally .exalted (by decide)]
    rfl

theorem kept_loadFromDB {rows : List SavedRow} (hrows : WellFormed c rows) :
    KeptNow c (ReputationMgr.loadFromDB c rows) := by
  obtain ⟨hkept, hbase⟩ := kept_initializeLoop c.store.entries .new (kept_new c) c.store.nodup
    fun e he => ⟨he, by unfold ReputationMgr.getState; split <;> rfl⟩
  exact kept_loadRows rows _ hkept hrows fun row _ e he =>
    hbase e (mem_of_lookupEntry he).1 (.inl (mem_of_lookupEntry he).1)

theorem kept_setVisible (h : KeptNow c m) (e : FactionEntry) : KeptNow c (m.setVisible e) := by
  unfold ReputationMgr.setVisible
  split
  · exact h
  · exact (Neutral.setVisibleState _).now h

theorem kept_setVisibleTemplate (h : KeptNow c m) (faction : Nat) :
    KeptNow c (m.setVisibleTemplate c faction) := by
  unfold ReputationMgr.setVisibleTemplate
  split
  · exact h
  · split
    · exact h
    · split
      · exact h
      · exact kept_setVisible h _

theorem kept_setAtWar (h : KeptNow c m) (repListID : Nat) (on : Bool) :
    KeptNow c (m.setAtWar repListID on) := by
  refine (Neutral.updateState (fun e f hfit => ?_) (fun f => ?_) fun f => ?_).now h
  · split
    · exact hfit
    · exact hfit.setAtWar on
  · split
    · rfl
    · exact f.standing_setAtWar on
  · split
    · rfl
    · exact f.has_setAtWar on (by decide)

theorem neutral_saved (k : Nat) : Neutral c m (m.updateState k ReputationMgr.saved) := by
  have hsaved : ∀ f : FactionState,
      (ReputationMgr.saved f).standing = f.standing ∧ (ReputationMgr.saved f).flags = f.flags := by
    intro f
    unfold ReputationMgr.saved
    split <;> exact ⟨rfl, rfl⟩
  have hhas : ∀ (f : FactionState) flag, (ReputationMgr.saved f).has flag = f.has flag :=
    fun f flag => congrArg (hasFlag · flag) (hsaved f).2
  refine .updateState (fun e f hfit => ⟨?_, ?_, ?_, ?_, ?_⟩) (fun f => (hsaved f).1)
    fun f => hhas f _
  · rw [(hsaved f).1]
    exact hfit.ranged
  · rw [hhas, hfit.hidden]
  · rw [hhas, hfit.forced]
  · rw [hhas]
    exact hfit.veiled
  · rw [hhas]
    exact hfit.active

theorem kept_save (h : KeptNow c m) : KeptNow c m.saveToDB.1 := by
  have hloop : ∀ (keys : List Nat) m, KeptNow c m →
      KeptNow c (keys.foldl (fun m k => m.updateState k ReputationMgr.saved) m) := by
    intro keys
    induction keys with
    | nil => exact fun _ h => h
    | cons k keys ih => exact fun m h => ih _ ((neutral_saved k).now h)
  exact hloop _ _ h

end Operations

/-! ## Runs -/

/-- A load reads well-formed rows; a drop leaves a rank that counts alike. -/
def Meets (c : Config) (m : ReputationMgr) : Op → Prop
  | .load rows => WellFormed c rows
  | .drop factionId => DropsAlike c m factionId
  | _ => True

theorem kept_step (m : ReputationMgr) (op : Op) (h : KeptNow c m) (hop : Meets c m op) :
    KeptNow c (step c m op) := by
  cases op with
  | load rows => exact kept_loadFromDB hop
  | setReputation faction standing incremental spillOverOnly =>
      unfold step
      dsimp only
      split
      · exact h
      · rename_i e he
        exact kept_setReputation h (mem_of_lookupEntry he).1 _ _ _
  | swap fromFactionId toFactionId => exact kept_swap h _ _
  | drop factionId => exact kept_drop h hop
  | setVisible faction =>
      unfold step
      dsimp only
      split
      · exact h
      · exact kept_setVisible h _
  | setVisibleTemplate faction => exact kept_setVisibleTemplate h _
  | setAtWar repListID on => exact kept_setAtWar h _ _
  | setInactive repListID on => exact (Neutral.setInactive _ _).now h
  | save => exact kept_save h

/-- The manager is as it should be: reputations are in range, every counter equals
what it counts, and what is hidden from the start stays hidden. -/
structure Right (c : Config) (m : ReputationMgr) : Prop where
  ranged : ∀ e ∈ c.store.entries, InRange (c.getBaseReputation e) → InRange (m.getReputation c e)
  honored : m.honoredFactionCount.toNat = tally c (m.getRank c) .honored
  revered : m.reveredFactionCount.toNat = tally c (m.getRank c) .revered
  exalted : m.exaltedFactionCount.toNat = tally c (m.getRank c) .exalted
  visible : m.visibleFactionCount.toNat = visibleTally c m
  veiled : ∀ e ∈ c.store.entries, Veiled c e → ∀ f, m.getState e = some f →
    f.has .visible = false ∧ f.has .inactive = false

/-- What is counted has a place in the list. -/
theorem countP_lt (hsize : c.store.entries.countP (·.canHaveReputation) < 256)
    {p : FactionEntry → Bool} (hp : ∀ e, p e = true → e.canHaveReputation) :
    (UInt8.ofNat (c.store.entries.countP p)).toNat = c.store.entries.countP p := by
  have hle : c.store.entries.countP p ≤ c.store.entries.countP (·.canHaveReputation) :=
    List.countP_mono_left fun e _ he => hp e he
  rw [UInt8.toNat_ofNat']
  omega

theorem Kept.right {m : ReputationMgr} (h : KeptNow c m)
    (hsize : c.store.entries.countP (·.canHaveReputation) < 256)
    (hactive : ∀ e ∈ c.store.entries, Veiled c e → ¬ hasFlag (c.getDefaultStateFlags e) .inactive) :
    Right c m := by
  have hstate : ∀ e f, m.getState e = some f →
      e.canHaveReputation ∧ m.factions.lookup e.repListID = some f := by
    intro e f hf
    unfold ReputationMgr.getState at hf
    split at hf <;> rename_i hcan
    · exact ⟨hcan, hf⟩
    · cases hf
  have hranked : ∀ limit, ReputationRank.honored ≤ limit → ∀ e,
      decide (limit ≤ m.getRank c e) = true → e.canHaveReputation := by
    intro limit hlimit e hle
    cases hs : m.getState e with
    | some f => exact (hstate e f hs).1
    | none =>
        have hhostile := (alike_hostile (c := c) hs limit hlimit).2 (of_decide_eq_true hle)
        exact absurd (Nat.le_trans hlimit hhostile) (by decide)
  refine ⟨fun e he hbase => ?_, ?_, ?_, ?_, ?_, fun e he hv f hf => ?_⟩
  · unfold ReputationMgr.getReputation
    cases hs : m.getState e with
    | some f => exact (h.canHave he (hstate e f hs).2).2.ranged hbase
    | none => exact inRange_zero
  · rw [h.counts.honored]
    exact countP_lt hsize (hranked .honored (by decide))
  · rw [h.counts.revered]
    exact countP_lt hsize (hranked .revered (by decide))
  · rw [h.counts.exalted]
    exact countP_lt hsize (hranked .exalted (by decide))
  · rw [h.visible]
    refine countP_lt hsize fun e he => ?_
    unfold isVisible at he
    cases hs : m.getState e with
    | some f => exact (hstate e f hs).1
    | none =>
        rw [hs] at he
        cases he
  · obtain ⟨-, hfit⟩ := h.canHave he (hstate e f hf).2
    exact ⟨hfit.veiled hv, hfit.active hv (hactive e he hv)⟩

/-- In every run that drops nothing the counters would miss. -/
theorem right_runs (c : Config) (hsize : c.store.entries.countP (·.canHaveReputation) < 256)
    (hactive : ∀ e ∈ c.store.entries, Veiled c e →
      ¬ hasFlag (c.getDefaultStateFlags e) .inactive)
    {ops : List Op} (hops : Along (step c) (Meets c) .new ops) :
    Right c (run c .new ops) :=
  (hops.invariant (I := KeptNow c) kept_step (kept_new c)).right hsize hactive

/-- A faction everybody starts neutral with, in the list from the start. -/
def steamwheedle : FactionEntry where
  id := 1
  reputationListID := 5
  baseRep := fun _ => ⟨1, 0, 0, 1⟩
  listID_ge := by decide
  listID_lt := by decide

def oneFaction : Config where
  store := ⟨[steamwheedle], by simp, by simp [steamwheedle], by simp⟩
  player := ⟨1, 1⟩
  gain := id
  onPlayerReputationChange := fun _ standing _ => standing

/-- Loaded, then raised to honored in one go. -/
def raised : List Op := [.load [], .setReputation 1 9000 false false]

theorem right_runs_raised :
    Right oneFaction (run oneFaction .new (raised ++ [.setReputation 1 100 true false, .drop 4])) :=
  right_runs oneFaction (by decide)
    (fun e _ hv => by
      rw [List.mem_singleton.1 ‹e ∈ [steamwheedle]›] at hv
      exact absurd hv.2 (by decide))
    ⟨⟨List.nodup_nil, fun _ hrow => by cases hrow⟩, trivial, trivial,
      fun e he hk => absurd hk (by rw [List.mem_singleton.1 he]; decide), trivial⟩

/-- An honored faction is dropped: it is neutral again, and still counted. -/
theorem raised_drop_wrong : ¬ Right oneFaction (run oneFaction .new (raised ++ [.drop 5])) := by
  intro h
  have hcount : (run oneFaction .new (raised ++ [.drop 5])).honoredFactionCount.toNat = 1 := by decide
  have htally : tally oneFaction ((run oneFaction .new (raised ++ [.drop 5])).getRank oneFaction)
      .honored = 0 := by decide
  have hhonored := h.honored
  omega

end Sunstrider.Reputation
