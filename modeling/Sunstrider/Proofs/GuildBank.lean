import Sunstrider.Guilds.GuildBank
import Sunstrider.Proofs.GuildChanges

/-!
# What a member takes from the bank in a day

A `Period` begins with the daily reset and follows one member of one guild: what its
purse gained by its requests, how many stacks it moved out of each tab, and the largest
allowances its rank has had. The counters of the member know as much, since every withdrawal
is counted: while they do not pass what the rank allows, what was taken does not pass the
largest allowance.

The difference of an allowance and a counter is one of signed numbers, so it has to be free of
overflow. And whether gold may be withdrawn at all is decided by a test that the right to
repair passes as well.
-/

set_option linter.unusedSectionVars false

namespace Sunstrider.Guilds

open Lib Inventory

variable {P : Type} [DecidableEq P]

/-! ## The counters of a member -/

namespace Guild

variable {G G' : Guild P} {p q : P} {m : Member P}

variable {a t : Nat} {own other : MoveItemData}

/-- What a member has counted. -/
def counter (p : P) (G : Guild P) : Option (Nat → BitVec 32) :=
  (G.getMember p).map Member.bankWithdraw

theorem getMember_modifyMember (f : Member P → Member P) (hf : ∀ m, (f m).guid = m.guid)
    (q p : P) (G : Guild P) : (G.modifyMember q f hf).getMember p =
      (G.getMember p).map fun m => if m.guid = q then f m else m := by
  unfold getMember modifyMember
  rw [List.find?_map]
  refine congrArg (Option.map _) (congrArg (fun b => List.find? b G.members) ?_)
  funext m
  show decide ((if m.guid = q then f m else m).guid = p) = decide (m.guid = p)
  split
  · rw [hf]
  · rfl

theorem counter_modifyMember {f : Member P → Member P} {hf : ∀ m, (f m).guid = m.guid}
    (hsame : q = p → ∀ m, (f m).bankWithdraw = m.bankWithdraw) :
    (G.modifyMember q f hf).counter p = G.counter p := by
  unfold counter
  rw [getMember_modifyMember]
  cases hm : G.getMember p with
  | none => rfl
  | some m =>
      refine congrArg some ?_
      show (if m.guid = q then f m else m).bankWithdraw = m.bankWithdraw
      split <;> rename_i hq
      · exact hsame (hq.symm.trans (getMember_mem hm).2) m
      · rfl

theorem counter_setMemberRank (r : Nat) : (G.setMemberRank q r).counter p = G.counter p :=
  counter_modifyMember fun _ _ => rfl

theorem members_modifyRank (rankId : Nat) (f : RankInfo → RankInfo) (G : Guild P) :
    (G.modifyRank rankId f).members = G.members := by
  unfold modifyRank
  split <;> rfl

theorem counter_congr (h : G'.members = G.members) : G'.counter p = G.counter p := by
  unfold counter getMember
  rw [h]

theorem members_setRankInfo (rankId : Nat) (rights money : BitVec 32) (tabs : List TabRights)
    (G : Guild P) : (G.setRankInfo rankId rights money tabs).members = G.members := by
  have hfold : ∀ (tabs : List TabRights) (G : Guild P), (tabs.foldl (fun G t =>
      G.setRankBankTabRightsAndSlots rankId t) G).members = G.members := by
    intro tabs
    induction tabs with
    | nil => exact fun _ => rfl
    | cons t tabs ih =>
        intro G
        rw [List.foldl_cons, ih]
        unfold setRankBankTabRightsAndSlots
        split
        · rfl
        · exact members_modifyRank ..
  unfold setRankInfo
  rw [hfold, members_modifyRank, members_modifyRank]

theorem members_modifyBankMoney (amount : Nat) (add : Bool) (G : Guild P) :
    (G.modifyBankMoney amount add).members = G.members := by
  unfold modifyBankMoney
  split
  · rfl
  · split <;> rfl

theorem counter_updateMemberWithdrawSlots (hne : q ≠ p) (tabId : Nat) :
    (G.updateMemberWithdrawSlots q tabId).counter p = G.counter p := by
  unfold updateMemberWithdrawSlots
  split
  · rfl
  · split
    · exact counter_modifyMember fun h => absurd h hne
    · rfl

/-! ## Allowances -/

/-- The difference of an allowance and a counter, as signed numbers, is what it should be. -/
def NoOverflow (limit counter : BitVec 32) : Prop :=
  (limit - counter).toInt = limit.toInt - counter.toInt

instance (limit counter : BitVec 32) : Decidable (NoOverflow limit counter) := by
  unfold NoOverflow
  infer_instance

/-- What is left of an allowance and is taken passes neither the allowance nor the counter. -/
theorem take_of_remaining {limit counter : BitVec 32} (hover : NoOverflow limit counter)
    (hpos : 0 ≤ counter.toInt) (ha : 0 < a)
    (hle : a ≤ (if 0 < (limit - counter).toInt then limit - counter else 0).toNat) :
    counter.toInt < limit.toInt ∧ counter.toNat + a ≤ limit.toNat ∧
      (counter + BitVec.ofNat 32 a).toNat = counter.toNat + a ∧
      0 ≤ (counter + BitVec.ofNat 32 a).toInt := by
  have hrem : 0 < (limit - counter).toInt := by
    by_contra hnot
    rw [if_neg hnot] at hle
    have hzero : (0 : BitVec 32).toNat = 0 := rfl
    omega
  rw [if_pos hrem] at hle
  have hsub := BitVec.toInt_eq_toNat_cond (limit - counter)
  have hlimit := BitVec.toInt_eq_toNat_cond limit
  have hcounter := BitVec.toInt_eq_toNat_cond counter
  have hlt' := limit.isLt
  have hlt'' := counter.isLt
  unfold NoOverflow at hover
  have hdiff : a ≤ limit.toInt - counter.toInt := by omega
  have hsum : (counter + BitVec.ofNat 32 a).toNat = counter.toNat + a := by
    rw [BitVec.toNat_add, BitVec.toNat_ofNat]
    omega
  have hsum' := BitVec.toInt_eq_toNat_cond (counter + BitVec.ofNat 32 a)
  refine ⟨by omega, by omega, hsum, ?_⟩
  rw [hsum] at hsum'
  omega

/-- The allowance of money can be told from the counter, if the rank may take any. -/
def MoneyClear (G : Guild P) (m : Member P) : Prop :=
  G.rankRights m.rankId &&& (grRightWithdrawRepair ||| grRightWithdrawGold) ≠ 0 →
    NoOverflow (G.rankBankMoneyPerDay m.rankId) (m.bankWithdraw guildBankMaxTabs)

/-- The same of the stacks in a tab. -/
def SlotsClear (G : Guild P) (m : Member P) (tabId : Nat) : Prop :=
  G.rankBankTabRights m.rankId tabId &&& guildBankRightViewTab ≠ 0 →
    NoOverflow (G.rankBankTabSlotsPerDay m.rankId tabId) (m.bankWithdraw tabId)

theorem take_money (hrank : m.rankId ≠ grGuildMaster) (hclear : G.MoneyClear m)
    (hpos : 0 ≤ (m.bankWithdraw guildBankMaxTabs).toInt) (ha : 0 < a)
    (hle : a ≤ (G.memberRemainingMoney m).toNat) :
    G.rankRights m.rankId &&& (grRightWithdrawRepair ||| grRightWithdrawGold) ≠ 0 ∧
    (m.bankWithdraw guildBankMaxTabs).toNat + a ≤ (G.rankBankMoneyPerDay m.rankId).toNat ∧
      (m.bankWithdraw guildBankMaxTabs + BitVec.ofNat 32 a).toNat =
        (m.bankWithdraw guildBankMaxTabs).toNat + a ∧
      0 ≤ (m.bankWithdraw guildBankMaxTabs + BitVec.ofNat 32 a).toInt := by
  unfold memberRemainingMoney at hle
  rw [if_neg hrank] at hle
  by_cases hright : G.rankRights m.rankId &&& (grRightWithdrawRepair ||| grRightWithdrawGold) ≠ 0
  · rw [if_pos hright] at hle
    have hvalue : bankWithdrawValue guildBankMaxTabs m = m.bankWithdraw guildBankMaxTabs :=
      if_neg hrank
    dsimp only at hle
    rw [hvalue] at hle
    obtain ⟨-, hlimit, hsum, hnonneg⟩ := take_of_remaining (hclear hright) hpos ha hle
    exact ⟨hright, hlimit, hsum, hnonneg⟩
  · rw [if_neg hright] at hle
    have hzero : (0 : BitVec 32).toNat = 0 := rfl
    omega

theorem take_slot (hrank : m.rankId ≠ grGuildMaster) {tabId : Nat}
    (hclear : G.SlotsClear m tabId) (hpos : 0 ≤ (m.bankWithdraw tabId).toInt)
    (hleft : G.memberRemainingSlots m tabId ≠ 0) :
    tabId < guildBankMaxTabs ∧
      (m.bankWithdraw tabId).toInt < (G.rankBankTabSlotsPerDay m.rankId tabId).toInt ∧
      (m.bankWithdraw tabId).toNat + 1 ≤ (G.rankBankTabSlotsPerDay m.rankId tabId).toNat ∧
      (m.bankWithdraw tabId + 1).toNat = (m.bankWithdraw tabId).toNat + 1 ∧
      0 ≤ (m.bankWithdraw tabId + 1).toInt := by
  unfold memberRemainingSlots at hleft
  rw [if_neg hrank] at hleft
  by_cases hright : G.rankBankTabRights m.rankId tabId &&& guildBankRightViewTab ≠ 0
  · rw [if_pos hright] at hleft
    have hvalue : bankWithdrawValue tabId m = m.bankWithdraw tabId := if_neg hrank
    dsimp only at hleft
    rw [hvalue] at hleft
    have hone : 1 ≤ (if 0 < (G.rankBankTabSlotsPerDay m.rankId tabId -
        m.bankWithdraw tabId).toInt then G.rankBankTabSlotsPerDay m.rankId tabId -
          m.bankWithdraw tabId else 0).toNat := by
      by_contra hnot
      refine hleft (BitVec.eq_of_toNat_eq ?_)
      have hzero : (0 : BitVec 32).toNat = 0 := rfl
      omega
    have htab : tabId < guildBankMaxTabs := by
      by_contra hnot
      refine hright ?_
      unfold rankBankTabRights
      cases G.rankInfo m.rankId with
      | none =>
          show (0 : BitVec 8) &&& guildBankRightViewTab = 0
          decide
      | some r =>
          show (if tabId < guildBankMaxTabs then _ else 0) &&& guildBankRightViewTab = 0
          rw [if_neg hnot]
          rfl
    exact ⟨htab, take_of_remaining (hclear hright) hpos Nat.one_pos hone⟩
  · rw [if_neg hright] at hleft
    exact absurd rfl hleft

/-! ## Moves of items -/

/-- The tab that a removal takes a stack out of. -/
def leaves (own other : MoveItemData) : Option Nat :=
  match own with
  | .player => none
  | .bank tabId => if other = .bank tabId then none else some tabId

theorem removeItem_eq (own other : MoveItemData) (G : Guild P) : G.removeItem p own other =
    ((leaves own other).toList.foldl (fun G t => G.updateMemberWithdrawSlots p t) G,
      (leaves own other).toList) := by
  unfold removeItem leaves
  cases own with
  | player => rfl
  | bank t =>
      dsimp only
      split <;> rfl

theorem hasWithdrawRights_leaves (h : G.hasWithdrawRights p own other = true)
    (hm : G.getMember p = some m) (ht : leaves own other = some t) :
    G.memberRemainingSlots m t ≠ 0 := by
  unfold leaves at ht
  cases own with
  | player => cases ht
  | bank t' =>
      dsimp only at ht
      split at ht <;> rename_i hother
      · cases ht
      · cases ht
        unfold hasWithdrawRights at h
        dsimp only at h
        rw [if_neg hother, hm] at h
        exact of_decide_eq_true h

theorem counted_none (c : BitVec 32) : c + 0 = c := BitVec.add_zero c

/-- Stacks that leave different tabs are counted in each. -/
theorem updateSlots_spec (ts : List Nat) (hnodup : ts.Nodup) (hm : G.getMember p = some m)
    (hrank : m.rankId ≠ grGuildMaster) (hts : ∀ t ∈ ts,
      (m.bankWithdraw t).toInt < (G.rankBankTabSlotsPerDay m.rankId t).toInt) :
    ∃ m', (ts.foldl (fun G t => G.updateMemberWithdrawSlots p t) G).getMember p = some m' ∧
      ∀ i, m'.bankWithdraw i = m.bankWithdraw i + if i ∈ ts then 1 else 0 := by
  induction ts generalizing G m with
  | nil => exact ⟨m, hm, fun i => (BitVec.add_zero _).symm⟩
  | cons t ts ih =>
      obtain ⟨ht, hnodup⟩ := List.nodup_cons.1 hnodup
      have hvalue : bankWithdrawValue t m = m.bankWithdraw t := if_neg hrank
      have hstep : G.updateMemberWithdrawSlots p t =
          G.modifyMember p (updateBankWithdrawValue t 1) fun _ => rfl := by
        unfold updateMemberWithdrawSlots
        rw [hm]
        dsimp only
        rw [if_pos ⟨hrank, by rw [hvalue]; exact hts t List.mem_cons_self⟩]
      have hm' : (G.updateMemberWithdrawSlots p t).getMember p =
          some (updateBankWithdrawValue t 1 m) := by
        rw [hstep]
        refine (getMember_modifyMember (updateBankWithdrawValue t 1) (fun _ => rfl) p p G).trans ?_
        rw [hm]
        show some (if m.guid = p then _ else m) = _
        rw [if_pos (getMember_mem hm).2]
      have hother : ∀ i, i ∈ ts → (updateBankWithdrawValue t 1 m).bankWithdraw i =
          m.bankWithdraw i := by
        intro i hi
        show (if i = t then _ else m.bankWithdraw i) = _
        rw [if_neg]
        rintro rfl
        exact ht hi
      obtain ⟨m', hmember, hcount⟩ := ih (G := G.updateMemberWithdrawSlots p t) hnodup hm' hrank
        fun i hi => by
          rw [hother i hi, hstep]
          exact hts i (List.mem_cons_of_mem t hi)
      refine ⟨m', hmember, fun i => ?_⟩
      rw [hcount i]
      by_cases hi : i = t
      · subst hi
        rw [if_neg ht, if_pos List.mem_cons_self, counted_none]
        show (if i = i then _ else _) = _
        rw [if_pos rfl]
      · show (if i = t then _ else m.bankWithdraw i) + _ = _
        rw [if_neg hi]
        refine congrArg (m.bankWithdraw i + ·) (if_congr ?_ rfl rfl)
        rw [List.mem_cons]
        exact ⟨.inr, fun h => h.resolve_left hi⟩

/-- A move either does nothing to the counters, or takes out of tabs that it had the right
to take out of. -/
theorem moveItems_cases (src dest : MoveItemData) (a : MoveAnswers) (G : Guild P) :
    G.moveItems p src dest a = (G, []) ∨
      ∃ ts : List Nat, ts.Nodup ∧
        (∀ t ∈ ts, ∃ own other, G.hasWithdrawRights p own other = true ∧
          leaves own other = some t ∧ (own = src ∨ own = dest)) ∧
        G.moveItems p src dest a =
          (ts.foldl (fun G t => G.updateMemberWithdrawSlots p t) G, ts) := by
  have hone : G.hasWithdrawRights p src dest = true →
      ∃ ts : List Nat, ts.Nodup ∧
        (∀ t ∈ ts, ∃ own other, G.hasWithdrawRights p own other = true ∧
          leaves own other = some t ∧ (own = src ∨ own = dest)) ∧
        G.doItemsMove p src dest false =
          (ts.foldl (fun G t => G.updateMemberWithdrawSlots p t) G, ts) := by
    intro hright
    refine ⟨(leaves src dest).toList, ?_, ?_, ?_⟩
    · cases leaves src dest <;> simp
    · intro t ht
      exact ⟨src, dest, hright, Option.mem_toList.1 ht, .inl rfl⟩
    · unfold doItemsMove
      rw [removeItem_eq]
      rfl
  have htwo : G.hasWithdrawRights p src dest = true → G.hasWithdrawRights p dest src = true →
      ∃ ts : List Nat, ts.Nodup ∧
        (∀ t ∈ ts, ∃ own other, G.hasWithdrawRights p own other = true ∧
          leaves own other = some t ∧ (own = src ∨ own = dest)) ∧
        G.doItemsMove p src dest true =
          (ts.foldl (fun G t => G.updateMemberWithdrawSlots p t) G, ts) := by
    intro hright hright'
    refine ⟨(leaves src dest).toList ++ (leaves dest src).toList, ?_, ?_, ?_⟩
    · cases src with
      | player => cases dest <;> simp [leaves]
      | bank s =>
          cases dest with
          | player => simp [leaves]
          | bank d =>
              by_cases hsd : s = d
              · simp [leaves, hsd]
              · have hds : ¬ d = s := fun h => hsd h.symm
                simp [leaves, hsd, hds]
    · intro t ht
      rcases List.mem_append.1 ht with ht | ht
      · exact ⟨src, dest, hright, Option.mem_toList.1 ht, .inl rfl⟩
      · exact ⟨dest, src, hright', Option.mem_toList.1 ht, .inr rfl⟩
    · unfold doItemsMove
      rw [removeItem_eq]
      dsimp only
      rw [if_pos rfl, removeItem_eq]
      dsimp only
      rw [← List.foldl_append]
  unfold moveItems
  split
  · exact .inl rfl
  · split
    · exact .inl rfl
    · split <;> rename_i hright
      · exact .inl rfl
      · have hright : G.hasWithdrawRights p src dest = true := by simpa using hright
        split
        · split
          · exact .inl rfl
          · exact .inr (hone hright)
        · split
          · exact .inr (hone hright)
          · split
            · exact .inl rfl
            · split
              · exact .inl rfl
              · split <;> rename_i hright'
                · exact .inl rfl
                · split
                  · exact .inl rfl
                  · exact .inr (htwo hright (by simpa using hright'))

/-- Who is no member moves nothing out of a tab. -/
theorem moveItems_none (hm : G.getMember p = none) (src dest : MoveItemData) (a : MoveAnswers) :
    G.moveItems p src dest a = (G, []) := by
  rcases moveItems_cases (p := p) src dest a G with h | ⟨ts, -, hts, h⟩
  · exact h
  · cases ts with
    | nil => exact h
    | cons t ts =>
        obtain ⟨own, other, hright, hleaves, -⟩ := hts t List.mem_cons_self
        unfold leaves at hleaves
        unfold hasWithdrawRights at hright
        cases own with
        | player => cases hleaves
        | bank t' =>
            dsimp only at hleaves hright
            split at hleaves <;> rename_i hother
            · cases hleaves
            · rw [if_neg hother, hm] at hright
              cases hright

theorem counter_moveItems (hne : q ≠ p) (src dest : MoveItemData) (a : MoveAnswers) :
    (G.moveItems q src dest a).1.counter p = G.counter p := by
  have hall : ∀ (ts : List Nat) (G : Guild P),
      (ts.foldl (fun G t => G.updateMemberWithdrawSlots q t) G).counter p = G.counter p := by
    intro ts
    induction ts with
    | nil => exact fun _ => rfl
    | cons t ts ih => exact fun G => (ih _).trans (counter_updateMemberWithdrawSlots hne t)
  rcases moveItems_cases (p := q) src dest a G with h | ⟨ts, -, -, h⟩
  · rw [h]
  · rw [h]
    exact hall ts G

/-- The tabs of the ends of a move. -/
def MoveItemData.Has (d : MoveItemData) (t : Nat) : Prop := d = .bank t

theorem leaves_has (h : leaves own other = some t) : own.Has t := by
  unfold leaves at h
  cases own with
  | player => cases h
  | bank t' =>
      dsimp only at h
      split at h
      · cases h
      · cases h
        rfl

/-- What a member moves out of tabs is counted, and stays within the allowance. -/
theorem moveItems_spec {src dest : MoveItemData} (a : MoveAnswers)
    (hm : G.getMember p = some m) (hrank : m.rankId ≠ grGuildMaster)
    (hclear : ∀ t, src.Has t ∨ dest.Has t → G.SlotsClear m t)
    (hpos : ∀ i, 0 ≤ (m.bankWithdraw i).toInt) :
    ∃ c, (G.moveItems p src dest a).1.counter p = some c ∧ ∀ i,
      (c i).toNat = (m.bankWithdraw i).toNat + (G.moveItems p src dest a).2.count i ∧
      0 ≤ (c i).toInt ∧ (i ∈ (G.moveItems p src dest a).2 →
        i < guildBankMaxTabs ∧ (c i).toNat ≤ (G.rankBankTabSlotsPerDay m.rankId i).toNat) := by
  rcases moveItems_cases (p := p) src dest a G with hnothing | ⟨ts, hnodup, hts, hmove⟩
  · rw [hnothing]
    refine ⟨m.bankWithdraw, by unfold counter; rw [hm]; rfl, fun i => ⟨rfl, hpos i, nofun⟩⟩
  · have htake : ∀ t ∈ ts, t < guildBankMaxTabs ∧
        (m.bankWithdraw t).toInt < (G.rankBankTabSlotsPerDay m.rankId t).toInt ∧
        (m.bankWithdraw t).toNat + 1 ≤ (G.rankBankTabSlotsPerDay m.rankId t).toNat ∧
        (m.bankWithdraw t + 1).toNat = (m.bankWithdraw t).toNat + 1 ∧
        0 ≤ (m.bankWithdraw t + 1).toInt := by
      intro t ht
      obtain ⟨own, other, hright, hleaves, hown⟩ := hts t ht
      refine take_slot hrank (hclear t ?_) (hpos t) (hasWithdrawRights_leaves hright hm hleaves)
      rcases hown with rfl | rfl
      · exact .inl (leaves_has hleaves)
      · exact .inr (leaves_has hleaves)
    obtain ⟨m', hm', hcount⟩ := updateSlots_spec ts hnodup hm hrank fun t ht => (htake t ht).2.1
    rw [hmove]
    refine ⟨m'.bankWithdraw, by unfold counter; rw [hm']; rfl, fun i => ?_⟩
    rw [hcount i]
    by_cases hi : i ∈ ts
    · obtain ⟨htab, -, hlimit, hsum, hnonneg⟩ := htake i hi
      rw [if_pos hi, List.count_eq_one_of_mem hnodup hi]
      exact ⟨hsum, hnonneg, fun _ => ⟨htab, by rw [hsum]; exact hlimit⟩⟩
    · rw [if_neg hi, List.count_eq_zero_of_not_mem hi, counted_none]
      exact ⟨rfl, hpos i, fun h => absurd h hi⟩

end Guild

namespace World

variable {w w' : World P} {p q : P} {g h : Nat} {G G' : Guild P} {walk : Walk (Member P)}

variable {o : BankOp P} {allowed : Guild P → Bool} {src dest : Guild.MoveItemData}
  {a : Guild.MoveAnswers} {m : Member P}

variable {f : Guild P → Guild P} {amount money tabId : Nat} {repair : Bool}

/-- What a member of a guild has counted. -/
def counterOf (p : P) (g : Nat) (w : World P) : Option (Nat → BitVec 32) :=
  (w.guilds g).bind (Guild.counter p)

theorem counterOf_congr (hw : w'.guilds = w.guilds) : w'.counterOf p g = w.counterOf p g := by
  unfold counterOf
  rw [hw]

theorem counterOf_modifyGuild (hf : ∀ G, (f G).counter p = G.counter p) :
    (w.modifyGuild h f).counterOf p g = w.counterOf p g := by
  unfold counterOf modifyGuild
  rw [guilds_setGuild]
  split <;> rename_i hg
  · subst hg
    cases hG : w.guilds g with
    | none => rfl
    | some G => exact hf G
  · rfl

theorem counterOf_changeRank (r : Nat) :
    (w.changeRank h q r).counterOf p g = w.counterOf p g := by
  rw [counterOf_congr (guilds_changeRank ..)]
  exact counterOf_modifyGuild fun _ => Guild.counter_setMemberRank r

theorem counterOf_setLeaderGUID : (w.setLeaderGUID h q).counterOf p g = w.counterOf p g := by
  rw [setLeaderGUID, counterOf_changeRank]
  exact counterOf_modifyGuild fun G => Guild.counter_congr rfl

/-- Changes of ranks leave the counters alone. -/
theorem counterOf_ranks {o : Op P} (ho : o.changesRanks = true) :
    (w.step o).counterOf p g = w.counterOf p g := by
  cases o with
  | updateMemberRank walk q name demote =>
      show (w.updateMemberRank walk q name demote).counterOf p g = _
      unfold updateMemberRank
      cases demote with
      | true =>
          simp only [if_true]
          split
          · rfl
          · split
            · rfl
            · split
              · split
                · rfl
                · split
                  · rfl
                  · split
                    · rfl
                    · exact counterOf_changeRank _
              · rfl
      | false =>
          simp only [Bool.false_eq_true, if_false]
          split
          · rfl
          · split
            · rfl
            · split
              · split
                · rfl
                · split
                  · rfl
                  · exact counterOf_changeRank _
              · rfl
  | setLeader walk q name =>
      show (w.setLeader walk q name).counterOf p g = _
      unfold setLeader
      split
      · rfl
      · rename_i G hG
        split
        · rfl
        · cases G.getMember q with
          | none => rfl
          | some old =>
              cases G.getMemberByName walk name with
              | none => rfl
              | some new => exact (counterOf_changeRank _).trans counterOf_setLeaderGUID
  | addNewRank q =>
      show (w.addNewRank q).counterOf p g = _
      unfold addNewRank
      have hcreate : ∀ G : Guild P, ((G.createRank grRightChat).getD G).counter p =
          G.counter p := by
        intro G
        unfold Guild.createRank
        split <;> rfl
      split
      · rfl
      · split
        · rfl
        · split
          · rfl
          · exact counterOf_modifyGuild hcreate
  | removeLowestRank q =>
      show (w.removeLowestRank q).counterOf p g = _
      unfold removeLowestRank
      split
      · rfl
      · split
        · rfl
        · exact counterOf_modifyGuild fun G => Guild.counter_congr rfl
  | gmRank q r =>
      show (w.gmRank q r).counterOf p g = _
      unfold gmRank
      split
      · rfl
      · split
        · exact counterOf_changeRank _
        · rfl
  | _ => cases ho

/-! ## Requests to the bank -/

/-- The player whose request it is. -/
def BankOp.requester : BankOp P → Option P
  | .depositMoney p _ => some p
  | .withdrawMoney p _ => some p
  | .repair p _ => some p
  | .buyBankTab p _ => some p
  | .swapItems p .. => some p
  | .swapItemsWithInventory p .. => some p
  | _ => none

/-- A request of the member, to the guild. -/
def Mine (p : P) (g : Nat) (w : World P) (o : BankOp P) : Prop :=
  o.requester = some p ∧ (w.players p).guildId = g

instance (p : P) (g : Nat) (w : World P) (o : BankOp P) : Decidable (Mine p g w o) := by
  unfold Mine
  infer_instance

theorem counterOf_modifyGuild_of_ne (hne : h ≠ g) :
    (w.modifyGuild h f).counterOf p g = w.counterOf p g := by
  unfold counterOf modifyGuild
  rw [guilds_setGuild, if_neg fun heq => hne heq.symm]

theorem counterOf_memberWithdrawMoney (hother : q ≠ p ∨ (w.players q).guildId ≠ g) :
    (w.memberWithdrawMoney q amount repair).1.counterOf p g = w.counterOf p g := by
  have hpaid : ∀ w' : World P, w'.guilds = w.guilds →
      ∀ a, (w'.modifyGuild (w.players q).guildId fun G =>
        (G.modifyMember q (Guild.updateBankWithdrawValue guildBankMaxTabs a)
          fun _ => rfl).modifyBankMoney (min amount maxMoneyAmount) false).counterOf p g =
        w.counterOf p g := by
    intro w' hw a
    rcases hother with hne | hne
    · refine (counterOf_modifyGuild fun G => ?_).trans (counterOf_congr hw)
      rw [Guild.counter_congr (Guild.members_modifyBankMoney ..)]
      exact Guild.counter_modifyMember fun h => absurd h hne
    · exact (counterOf_modifyGuild_of_ne hne).trans (counterOf_congr hw)
  unfold memberWithdrawMoney
  cases w.guildOf q with
  | none => rfl
  | some G =>
      dsimp only
      split
      · rfl
      · cases G.getMember q with
        | none => rfl
        | some m =>
            dsimp only
            split
            · rfl
            · split
              · rfl
              · refine hpaid _ ?_ _
                split <;> rfl

theorem guildOf_guilds (hp : w.guildOf q = some G) : w.guilds (w.players q).guildId = some G := by
  unfold guildOf at hp
  split at hp
  · exact hp
  · cases hp

theorem counterOf_moveItems (hother : q ≠ p ∨ (w.players q).guildId ≠ g) :
    (w.moveItems q allowed src dest a).1.counterOf p g = w.counterOf p g := by
  unfold moveItems
  cases hp : w.guildOf q with
  | none => rfl
  | some G =>
      dsimp only
      split
      · rfl
      · unfold counterOf
        rw [guilds_setGuild]
        split <;> rename_i hg
        · rcases hother with hne | hne
          · rw [hg, guildOf_guilds hp]
            exact Guild.counter_moveItems hne src dest a
          · exact absurd hg.symm hne
        · rfl

/-- A move that takes no stack out of a tab changes neither counters nor ranks. -/
theorem moveItems_refused (hleft : (w.moveItems q allowed src dest a).2 = []) :
    (w.moveItems q allowed src dest a).1 = w := by
  unfold moveItems at hleft ⊢
  cases hp : w.guildOf q with
  | none => rfl
  | some G =>
      rw [hp] at hleft
      dsimp only at hleft ⊢
      split at hleft <;> rename_i hallowed
      · rw [if_pos hallowed]
      · rw [if_neg hallowed]
        have hsame : (G.moveItems q src dest a).1 = G := by
          rcases Guild.moveItems_cases (p := q) src dest a G with h | ⟨ts, -, -, h⟩
          · rw [h]
          · rw [h] at hleft ⊢
            have hts : ts = [] := hleft
            rw [hts]
            rfl
        have hkept : (fun h => if h = (w.players q).guildId then some G else w.guilds h) =
            w.guilds := by
          funext h
          split <;> rename_i hh
          · rw [hh, guildOf_guilds hp]
          · rfl
        show ({ w with guilds := _ } : World P) = w
        rw [hsame, hkept]

theorem counterOf_depositMoney : (w.depositMoney q money).counterOf p g = w.counterOf p g := by
  unfold depositMoney
  split
  · rfl
  · split
    · rfl
    · exact counterOf_modifyGuild fun G => Guild.counter_congr (Guild.members_modifyBankMoney ..)

theorem counterOf_buyBankTab : (w.buyBankTab q tabId).counterOf p g = w.counterOf p g := by
  have hbuy : ∀ w' : World P, w'.guilds = w.guilds →
      (w'.modifyGuild (w.players q).guildId Guild.createNewBankTab).counterOf p g =
        w.counterOf p g := fun w' hw =>
    (counterOf_modifyGuild (f := Guild.createNewBankTab) fun _ => Guild.counter_congr rfl).trans
      (counterOf_congr hw)
  unfold buyBankTab
  dsimp only
  split
  · rfl
  · split
    · rfl
    · split
      · rfl
      · split
        · rfl
        · split
          · rfl
          · split
            · rfl
            · exact hbuy _ rfl

/-- What is not a request of the member leaves its counters alone. -/
theorem counterOf_bankStep (hmine : ¬ Mine p g w o) :
    (w.bankStep o).1.counterOf p g = w.counterOf p g := by
  have hother : ∀ q, o.requester = some q → q ≠ p ∨ (w.players q).guildId ≠ g := by
    intro q hq
    by_cases hqp : q = p
    · subst hqp
      exact .inr fun hg => hmine ⟨hq, hg⟩
    · exact .inl hqp
  cases o with
  | ranks o ho => exact counterOf_ranks ho
  | setRankInfo q rankId rights money tabs =>
      show (w.setRankInfo q rankId rights money tabs).counterOf p g = _
      unfold setRankInfo
      split
      · rfl
      · split
        · rfl
        · split
          · rfl
          · exact counterOf_modifyGuild fun G =>
              Guild.counter_congr (Guild.members_setRankInfo ..)
  | depositMoney q money => exact counterOf_depositMoney
  | withdrawMoney q money =>
      show (w.withdrawMoney q money).counterOf p g = _
      unfold withdrawMoney
      split
      · rfl
      · exact counterOf_memberWithdrawMoney (hother q rfl)
  | repair q costs => exact counterOf_memberWithdrawMoney (hother q rfl)
  | buyBankTab q tabId => exact counterOf_buyBankTab
  | swapItems q tabId destTabId a => exact counterOf_moveItems (hother q rfl)
  | swapItemsWithInventory q toChar tabId a =>
      cases toChar with
      | false => exact counterOf_moveItems (hother q rfl)
      | true => exact counterOf_moveItems (hother q rfl)
  | setPurse q purse => rfl

/-- The purse of a player. -/
def moneyOf (p : P) (w : World P) : Nat := (w.players p).purse.money

theorem moneyOf_modifyMoney (amount : Int) :
    (w.modifyMoney p amount).moneyOf p = ((w.players p).purse.modifyMoney amount).1.money := by
  unfold moneyOf modifyMoney
  rw [players_setPlayer, if_pos rfl]

/-- What a withdrawal asks of the guild and the player. -/
def Pays (p : P) (amount : Nat) (repair : Bool) (G : Guild P) (m : Member P) (w : World P) :
    Prop :=
  min amount maxMoneyAmount ≤ G.bankMoney ∧
    min amount maxMoneyAmount ≤ (G.memberRemainingMoney m).toNat ∧
      (repair = false →
        ((w.players p).purse.modifyMoney (int32 (min amount maxMoneyAmount))).2 = true)

/-- A withdrawal is refused and changes nothing, or it is counted and, if it is not for
repairs, the purse has it. -/
theorem memberWithdrawMoney_cases (p : P) (amount : Nat) (repair : Bool) (w : World P) :
    w.memberWithdrawMoney p amount repair = (w, false) ∨
      ∃ G m, w.guildOf p = some G ∧ G.getMember p = some m ∧ Pays p amount repair G m w ∧
        (w.memberWithdrawMoney p amount repair).2 = true ∧
        (w.memberWithdrawMoney p amount repair).1.moneyOf p =
          w.moneyOf p + (if repair then 0 else min amount maxMoneyAmount) ∧
        (w.memberWithdrawMoney p amount repair).1.counterOf p (w.players p).guildId =
          some (Guild.updateBankWithdrawValue guildBankMaxTabs
            (BitVec.ofNat 32 (min amount maxMoneyAmount)) m).bankWithdraw := by
  have hmax : min amount maxMoneyAmount < 2 ^ 31 := by
    unfold maxMoneyAmount
    omega
  unfold memberWithdrawMoney
  cases hp : w.guildOf p with
  | none => exact .inl rfl
  | some G =>
      dsimp only
      by_cases hbank : G.bankMoney < min amount maxMoneyAmount
      · exact .inl (if_pos hbank)
      · rw [if_neg hbank]
        cases hm : G.getMember p with
        | none => exact .inl rfl
        | some m =>
            dsimp only
            by_cases hleft : (G.memberRemainingMoney m).toNat < min amount maxMoneyAmount
            · exact .inl (if_pos hleft)
            · rw [if_neg hleft]
              by_cases hpurse : (!repair && !((w.players p).purse.modifyMoney
                  (int32 (min amount maxMoneyAmount))).2) = true
              · exact .inl (if_pos hpurse)
              · rw [if_neg hpurse]
                have hpays : repair = false → ((w.players p).purse.modifyMoney
                    (int32 (min amount maxMoneyAmount))).2 = true := by
                  rintro rfl
                  simpa using hpurse
                refine .inr ⟨G, m, rfl, hm, ⟨by omega, by omega, hpays⟩, rfl, ?_, ?_⟩
                · cases repair with
                  | true => rfl
                  | false =>
                      show (w.modifyMoney p _).moneyOf p = _
                      rw [moneyOf_modifyMoney]
                      have hok := hpays rfl
                      rw [int32_of_lt hmax] at hok ⊢
                      unfold Purse.modifyMoney at hok ⊢
                      by_cases hzero : ((min amount maxMoneyAmount : Nat) : Int) = 0
                      · rw [if_pos hzero, if_neg (by decide)]
                        show (w.players p).purse.money = (w.players p).purse.money + _
                        omega
                      · rw [if_neg hzero, if_neg (by omega)] at hok ⊢
                        split at hok <;> rename_i hroom
                        · rw [dif_pos hroom, if_neg (by decide)]
                          rfl
                        · cases hok
                · have hguild : ∀ w' : World P, w'.guilds = w.guilds →
                      ∀ f : Guild P → Guild P,
                      (w'.modifyGuild (w.players p).guildId f).counterOf p
                        (w.players p).guildId = (f G).counter p := by
                    intro w' hw f
                    unfold counterOf modifyGuild
                    rw [guilds_setGuild, if_pos rfl, hw, guildOf_guilds hp]
                    rfl
                  refine (hguild _ (by split <;> rfl) _).trans ?_
                  rw [Guild.counter_congr (Guild.members_modifyBankMoney ..)]
                  unfold Guild.counter
                  refine (congrArg (Option.map Member.bankWithdraw)
                    (Guild.getMember_modifyMember _ _ p p G)).trans ?_
                  rw [hm]
                  show some (if m.guid = p then _ else m).bankWithdraw = _
                  rw [if_pos (Guild.getMember_mem hm).2]

theorem moneyOf_modifyMoney_le {amount : Int} (hle : amount ≤ 0) :
    (w.modifyMoney q amount).moneyOf p ≤ w.moneyOf p := by
  unfold moneyOf modifyMoney
  rw [players_setPlayer]
  split <;> rename_i hp
  · subst hp
    show ((w.players p).purse.modifyMoney amount).1.money ≤ _
    unfold Purse.modifyMoney
    split
    · exact Nat.le_refl _
    · rw [if_pos (by omega)]
      split
      · exact Nat.sub_le _ _
      · exact Nat.zero_le _
  · exact Nat.le_refl _

theorem moneyOf_congr (hw : w'.players = w.players) : w'.moneyOf p = w.moneyOf p := by
  unfold moneyOf
  rw [hw]

theorem moneyOf_depositMoney (hmoney : money < 2 ^ 31) :
    (w.depositMoney q money).moneyOf p ≤ w.moneyOf p := by
  unfold depositMoney
  split
  · exact Nat.le_refl _
  · split
    · exact Nat.le_refl _
    · refine (moneyOf_modifyMoney_le ?_).trans (Nat.le_of_eq (moneyOf_congr rfl))
      rw [int32_of_lt hmoney]
      omega

theorem moneyOf_buyBankTab : (w.buyBankTab q tabId).moneyOf p ≤ w.moneyOf p := by
  have hbuy : (w.modifyMoney q (-(((guildBankTabPrice tabId * gold : Nat)) : Int))).moneyOf p ≤
      w.moneyOf p := moneyOf_modifyMoney_le (by omega)
  unfold buyBankTab
  dsimp only
  split
  · exact Nat.le_refl _
  · split
    · exact Nat.le_refl _
    · split
      · exact Nat.le_refl _
      · split
        · exact Nat.le_refl _
        · split
          · exact Nat.le_refl _
          · split
            · exact Nat.le_refl _
            · exact hbuy

theorem moneyOf_moveItems : (w.moveItems q allowed src dest a).1.moneyOf p = w.moneyOf p := by
  unfold moveItems
  split
  · rfl
  · split <;> rfl

/-! ## What a request takes -/

/-- The member and its guild. -/
def memberOf (p : P) (g : Nat) (w : World P) : Option (Guild P × Member P) :=
  (w.guilds g).bind fun G => (G.getMember p).map fun m => (G, m)

theorem memberOf_some (h : w.memberOf p g = some (G, m)) :
    w.guilds g = some G ∧ G.getMember p = some m := by
  unfold memberOf at h
  cases hG : w.guilds g with
  | none =>
      rw [hG] at h
      cases h
  | some G' =>
      rw [hG] at h
      obtain ⟨m', hm, heq⟩ := Option.map_eq_some_iff.1 h
      cases heq
      exact ⟨rfl, hm⟩

theorem counterOf_memberOf : w.counterOf p g = (w.memberOf p g).map fun x => x.2.bankWithdraw := by
  unfold counterOf memberOf
  cases w.guilds g with
  | none => rfl
  | some G =>
      show (G.getMember p).map _ = ((G.getMember p).map _).map _
      rw [Option.map_map]
      rfl

/-- Stacks and money are counted as they are taken, and stay within the allowances. -/
structure Takes (G : Guild P) (m : Member P) (left : List Nat) (gain : Nat)
    (c : Nat → BitVec 32) : Prop where
  nonneg : ∀ i, 0 ≤ (c i).toInt
  moved : ∀ i < guildBankMaxTabs, (m.bankWithdraw i).toNat + left.count i ≤ (c i).toNat
  tabs : ∀ i ∈ left, i < guildBankMaxTabs ∧
    (c i).toNat ≤ (G.rankBankTabSlotsPerDay m.rankId i).toNat
  money : (m.bankWithdraw guildBankMaxTabs).toNat + gain ≤ (c guildBankMaxTabs).toNat
  allowed : gain ≠ 0 → G.rankRights m.rankId &&& grRightWithdrawGold ≠ 0 ∧
    (c guildBankMaxTabs).toNat ≤ (G.rankBankMoneyPerDay m.rankId).toNat

theorem Takes.nothing (hpos : ∀ i, 0 ≤ (m.bankWithdraw i).toInt) :
    Takes G m [] 0 m.bankWithdraw where
  nonneg := hpos
  moved i _ := Nat.le_refl _
  tabs i hi := by cases hi
  money := Nat.le_refl _
  allowed h := absurd rfl h

/-- When a request of a member takes no more than it may. -/
def Fair (p : P) (w : World P) (G : Guild P) (m : Member P) : BankOp P → Prop
  | .withdrawMoney _ money => G.MoneyClear m ∧ (money ≠ 0 → Pays p money false G m w →
      G.rankRights m.rankId &&& grRightWithdrawRepair ≠ 0 →
        G.rankRights m.rankId &&& grRightWithdrawGold ≠ 0)
  | .repair _ _ => G.MoneyClear m
  | .swapItems _ tabId destTabId _ => G.SlotsClear m tabId ∧ G.SlotsClear m destTabId
  | .swapItemsWithInventory _ _ tabId _ => G.SlotsClear m tabId
  | _ => True

theorem right_of_either {rights : BitVec 32}
    (h : rights &&& (grRightWithdrawRepair ||| grRightWithdrawGold) ≠ 0) :
    rights &&& grRightWithdrawRepair ≠ 0 ∨ rights &&& grRightWithdrawGold ≠ 0 := by
  by_contra hnot
  obtain ⟨hrepair, hgold⟩ := not_or.1 hnot
  refine h ?_
  have hsplit : rights &&& (grRightWithdrawRepair ||| grRightWithdrawGold) =
      rights &&& grRightWithdrawRepair ||| rights &&& grRightWithdrawGold :=
    BitVec.and_or_distrib_left
  rw [hsplit, not_not.1 hrepair, not_not.1 hgold]
  rfl

/-- A withdrawal of money is counted, and stays within the allowance. -/
theorem takes_memberWithdrawMoney (hg : (w.players p).guildId = g)
    (hm : w.memberOf p g = some (G, m)) (hrank : m.rankId ≠ grGuildMaster)
    (hclear : G.MoneyClear m)
    (hgold : repair = false → Pays p amount repair G m w →
      G.rankRights m.rankId &&& grRightWithdrawRepair ≠ 0 →
      G.rankRights m.rankId &&& grRightWithdrawGold ≠ 0)
    (hpos : ∀ i, 0 ≤ (m.bankWithdraw i).toInt) :
    ∃ c, (w.memberWithdrawMoney p amount repair).1.counterOf p g = some c ∧
      Takes G m [] ((w.memberWithdrawMoney p amount repair).1.moneyOf p - w.moneyOf p) c := by
  obtain ⟨hG, hmember⟩ := memberOf_some hm
  rcases memberWithdrawMoney_cases p amount repair w with
    hrefused | ⟨G', m', hp, hm', hpays, -, hpurse, hcount⟩
  · rw [hrefused, Nat.sub_self]
    refine ⟨m.bankWithdraw, ?_, Takes.nothing hpos⟩
    rw [counterOf_memberOf, hm]
    rfl
  · have hsame := guildOf_guilds hp
    rw [hg, hG] at hsame
    cases hsame
    rw [hmember] at hm'
    cases hm'
    rw [hg] at hcount
    refine ⟨_, hcount, ?_⟩
    rw [hpurse, Nat.add_sub_cancel_left]
    by_cases hzero : min amount maxMoneyAmount = 0
    · have hsame : (Guild.updateBankWithdrawValue guildBankMaxTabs (BitVec.ofNat 32
          (min amount maxMoneyAmount)) m).bankWithdraw = m.bankWithdraw := by
        funext i
        show (if i = guildBankMaxTabs then _ else _) = _
        rw [hzero]
        split
        · exact BitVec.add_zero _
        · rfl
      rw [hsame, hzero, ite_self]
      exact Takes.nothing hpos
    · obtain ⟨hright, hlimit, hsum, hnonneg⟩ := Guild.take_money hrank hclear
        (hpos guildBankMaxTabs) (Nat.pos_of_ne_zero hzero) hpays.2.1
      refine ⟨fun i => ?_, fun i hi => ?_, nofun, ?_, fun hgain => ?_⟩
      · show 0 ≤ (if i = guildBankMaxTabs then _ else m.bankWithdraw i).toInt
        split <;> rename_i hi
        · rw [hi]
          exact hnonneg
        · exact hpos i
      · show (m.bankWithdraw i).toNat ≤ (if i = guildBankMaxTabs then _ else _ : BitVec 32).toNat
        rw [if_neg (Nat.ne_of_lt hi)]
      · show _ ≤ (m.bankWithdraw guildBankMaxTabs + _).toNat
        rw [hsum]
        split <;> omega
      · refine ⟨?_, ?_⟩
        · cases repair with
          | true => exact absurd rfl hgain
          | false =>
              rcases right_of_either hright with hrepair | hgold'
              · exact hgold rfl hpays hrepair
              · exact hgold'
        · show (m.bankWithdraw guildBankMaxTabs + _).toNat ≤ _
          rw [hsum]
          exact hlimit

/-- So is a move of items. -/
theorem takes_moveItems (hg : (w.players p).guildId = g) (hm : w.memberOf p g = some (G, m))
    (hrank : m.rankId ≠ grGuildMaster) (hclear : ∀ t, src.Has t ∨ dest.Has t → G.SlotsClear m t)
    (hpos : ∀ i, 0 ≤ (m.bankWithdraw i).toInt) :
    ∃ c, (w.moveItems p allowed src dest a).1.counterOf p g = some c ∧
      Takes G m (w.moveItems p allowed src dest a).2
        ((w.moveItems p allowed src dest a).1.moneyOf p - w.moneyOf p) c := by
  obtain ⟨hG, hmember⟩ := memberOf_some hm
  have hstays : w.counterOf p g = some m.bankWithdraw := by
    rw [counterOf_memberOf, hm]
    rfl
  rw [moneyOf_moveItems, Nat.sub_self]
  unfold moveItems
  cases hp : w.guildOf p with
  | none => exact ⟨_, hstays, Takes.nothing hpos⟩
  | some G' =>
      have hsame := guildOf_guilds hp
      rw [hg, hG] at hsame
      cases hsame
      dsimp only
      split
      · exact ⟨_, hstays, Takes.nothing hpos⟩
      · obtain ⟨c, hc, hspec⟩ := Guild.moveItems_spec (p := p) a hmember hrank hclear hpos
        refine ⟨c, ?_, fun i => (hspec i).2.1, fun i _ => Nat.le_of_eq (hspec i).1.symm,
          fun i hi => (hspec i).2.2 hi, ?_, fun h => absurd rfl h⟩
        · unfold counterOf
          rw [guilds_setGuild, if_pos hg.symm]
          exact hc
        · rw [(hspec guildBankMaxTabs).1]
          exact Nat.le_add_right _ _

theorem takes_unchanged (hm : w.memberOf p g = some (G, m))
    (hpos : ∀ i, 0 ≤ (m.bankWithdraw i).toInt) (hleft : (w.bankStep o).2 = [])
    (hpurse : (w.bankStep o).1.moneyOf p ≤ w.moneyOf p)
    (hcount : (w.bankStep o).1.counterOf p g = w.counterOf p g) :
    ∃ c, (w.bankStep o).1.counterOf p g = some c ∧
      Takes G m (w.bankStep o).2 ((w.bankStep o).1.moneyOf p - w.moneyOf p) c := by
  refine ⟨m.bankWithdraw, ?_, ?_⟩
  · rw [hcount, counterOf_memberOf, hm]
    rfl
  · rw [hleft, Nat.sub_eq_zero_of_le hpurse]
    exact Takes.nothing hpos

/-- What a member that is no guild master takes by a request. -/
theorem takes_bankStep (hmine : Mine p g w o) (hm : w.memberOf p g = some (G, m))
    (hrank : m.rankId ≠ grGuildMaster) (hfair : Fair p w G m o)
    (hdeposit : ∀ q money, o = .depositMoney q money → money < 2 ^ 31)
    (hpos : ∀ i, 0 ≤ (m.bankWithdraw i).toInt) :
    ∃ c, (w.bankStep o).1.counterOf p g = some c ∧
      Takes G m (w.bankStep o).2 ((w.bankStep o).1.moneyOf p - w.moneyOf p) c := by
  obtain ⟨hq, hg⟩ := hmine
  cases o with
  | ranks o ho => cases hq
  | setRankInfo q rankId rights money tabs => cases hq
  | setPurse q purse => cases hq
  | depositMoney q money =>
      exact takes_unchanged hm hpos rfl (moneyOf_depositMoney (hdeposit q money rfl))
        counterOf_depositMoney
  | buyBankTab q tabId => exact takes_unchanged hm hpos rfl moneyOf_buyBankTab counterOf_buyBankTab
  | withdrawMoney q money =>
      cases hq
      show ∃ c, (w.withdrawMoney p money).counterOf p g = some c ∧
        Takes G m [] ((w.withdrawMoney p money).moneyOf p - w.moneyOf p) c
      unfold withdrawMoney
      by_cases hzero : money = 0
      · rw [if_pos hzero, Nat.sub_self, counterOf_memberOf, hm]
        exact ⟨_, rfl, Takes.nothing hpos⟩
      · rw [if_neg hzero]
        exact takes_memberWithdrawMoney hg hm hrank hfair.1 (fun _ => hfair.2 hzero) hpos
  | repair q costs =>
      cases hq
      exact takes_memberWithdrawMoney hg hm hrank hfair (by simp) hpos
  | swapItems q tabId destTabId a =>
      cases hq
      refine takes_moveItems hg hm hrank ?_ hpos
      rintro t (ht | ht)
      · cases ht
        exact hfair.1
      · cases ht
        exact hfair.2
  | swapItemsWithInventory q toChar tabId a =>
      cases hq
      have hclear : G.SlotsClear m tabId := hfair
      cases toChar with
      | false =>
          refine takes_moveItems hg hm hrank ?_ hpos
          rintro t (ht | ht)
          · cases ht
          · cases ht
            exact hclear
      | true =>
          refine takes_moveItems hg hm hrank ?_ hpos
          rintro t (ht | ht)
          · cases ht
            exact hclear
          · cases ht

/-- Who is no member takes nothing. -/
theorem nothing_bankStep (hmine : Mine p g w o) (hm : w.memberOf p g = none)
    (hdeposit : ∀ q money, o = .depositMoney q money → money < 2 ^ 31) :
    (w.bankStep o).1.counterOf p g = none ∧ (w.bankStep o).2 = [] ∧
      (w.bankStep o).1.moneyOf p ≤ w.moneyOf p := by
  obtain ⟨hq, hg⟩ := hmine
  have hnone : w.counterOf p g = none := by
    rw [counterOf_memberOf, hm]
    rfl
  have hmember : ∀ G, w.guildOf p = some G → G.getMember p = none := by
    intro G hp
    have hG := guildOf_guilds hp
    rw [hg] at hG
    unfold memberOf at hm
    rw [hG] at hm
    exact Option.map_eq_none_iff.1 hm
  have hwithdraw : ∀ amount repair, w.memberWithdrawMoney p amount repair = (w, false) := by
    intro amount repair
    rcases memberWithdrawMoney_cases p amount repair w with h | ⟨G, m, hp, hm', -⟩
    · exact h
    · rw [hmember G hp] at hm'
      cases hm'
  have hmoves : ∀ allowed src dest a,
      (w.moveItems p allowed src dest a).1.counterOf p g = none ∧
        (w.moveItems p allowed src dest a).2 = [] ∧
        (w.moveItems p allowed src dest a).1.moneyOf p ≤ w.moneyOf p := by
    intro allowed src dest a
    refine ⟨?_, ?_, Nat.le_of_eq moneyOf_moveItems⟩
    · unfold moveItems
      cases hp : w.guildOf p with
      | none => exact hnone
      | some G =>
          dsimp only
          split
          · exact hnone
          · unfold counterOf
            rw [guilds_setGuild, if_pos hg.symm, Guild.moveItems_none (hmember G hp)]
            exact Option.map_eq_none_iff.2 (hmember G hp)
    · unfold moveItems
      cases hp : w.guildOf p with
      | none => rfl
      | some G =>
          dsimp only
          split
          · rfl
          · rw [Guild.moveItems_none (hmember G hp)]
  cases o with
  | ranks o ho => cases hq
  | setRankInfo q rankId rights money tabs => cases hq
  | setPurse q purse => cases hq
  | depositMoney q money =>
      exact ⟨counterOf_depositMoney.trans hnone, rfl,
        moneyOf_depositMoney (hdeposit q money rfl)⟩
  | buyBankTab q tabId => exact ⟨counterOf_buyBankTab.trans hnone, rfl, moneyOf_buyBankTab⟩
  | withdrawMoney q money =>
      cases hq
      show (w.withdrawMoney p money).counterOf p g = none ∧ _ ∧
        (w.withdrawMoney p money).moneyOf p ≤ w.moneyOf p
      unfold withdrawMoney
      rw [hwithdraw, ite_self]
      exact ⟨hnone, rfl, Nat.le_refl _⟩
  | repair q costs =>
      cases hq
      show (w.memberWithdrawMoney p costs true).1.counterOf p g = none ∧ _ ∧
        (w.memberWithdrawMoney p costs true).1.moneyOf p ≤ w.moneyOf p
      rw [hwithdraw]
      exact ⟨hnone, rfl, Nat.le_refl _⟩
  | swapItems q tabId destTabId a =>
      cases hq
      exact hmoves ..
  | swapItemsWithInventory q toChar tabId a =>
      cases hq
      cases toChar with
      | false => exact hmoves ..
      | true => exact hmoves ..

/-! ## A day of a member -/

/-- What is known of a member since the counters were reset. -/
structure Period (P : Type) where
  world : World P
  /-- What its requests brought into its purse. -/
  received : Nat
  /-- As much of it as came while its rank had no right to withdraw gold. -/
  ungranted : Nat
  /-- The stacks that its requests moved out of each tab. -/
  moved : Nat → Nat
  mostMoney : Nat
  mostSlots : Nat → Nat
  /-- It was guild master at some time. -/
  master : Bool

namespace Period

variable {h : Period P} {m : Member P} {o : BankOp P}

/-- The rank that the member holds now is one of those it held. -/
def observe (p : P) (g : Nat) (h : Period P) : Period P :=
  match h.world.memberOf p g with
  | none => h
  | some (G, m) =>
      { h with
        mostMoney := max h.mostMoney (G.rankBankMoneyPerDay m.rankId).toNat
        mostSlots := fun i => max (h.mostSlots i) (G.rankBankTabSlotsPerDay m.rankId i).toNat
        master := h.master || m.rankId = grGuildMaster }

/-- The daily reset of the guild. -/
def start (p : P) (g : Nat) (w : World P) : Period P :=
  observe p g ⟨w.modifyGuild g Guild.resetTimes, 0, 0, fun _ => 0, 0, fun _ => 0, false⟩

/-- The rank of the member may withdraw gold. -/
def granted (p : P) (g : Nat) (w : World P) : Bool :=
  match w.memberOf p g with
  | none => false
  | some (G, m) => G.rankRights m.rankId &&& grRightWithdrawGold ≠ 0

/-- What the member has taken after a request of its own. -/
def taken (p : P) (g : Nat) (h : Period P) (o : BankOp P) : Period P :=
  let (w, left) := h.world.bankStep o
  let gain := w.moneyOf p - h.world.moneyOf p
  { h with
    world := w
    received := h.received + gain
    ungranted := if granted p g h.world then h.ungranted else h.ungranted + gain
    moved := fun i => h.moved i + left.count i }

def step (p : P) (g : Nat) (h : Period P) (o : BankOp P) : Period P :=
  observe p g (if Mine p g h.world o then h.taken p g o
    else { h with world := (h.world.bankStep o).1 })

/-- What the member has taken is within the largest allowances of its ranks. -/
def Bounded (h : Period P) : Prop :=
  h.master = false → h.ungranted = 0 ∧ h.received ≤ h.mostMoney ∧ ∀ i, h.moved i ≤ h.mostSlots i

/-- The member's own request takes no more than it may, and a deposit is a sum that the
purse can be asked for. -/
def Cond (p : P) (g : Nat) (h : Period P) (o : BankOp P) : Prop :=
  h.master = false → Mine p g h.world o →
    (∀ q money, o = .depositMoney q money → money < 2 ^ 31) ∧
      ∀ G m, h.world.memberOf p g = some (G, m) → Fair p h.world G m o

/-- What was taken is counted. -/
structure Within (p : P) (g : Nat) (h : Period P) : Prop where
  ungranted : h.ungranted = 0
  money : h.received ≤ h.mostMoney
  slots : ∀ i, h.moved i ≤ h.mostSlots i
  counted : ∀ c, h.world.counterOf p g = some c → h.received ≤ (c guildBankMaxTabs).toNat ∧
    ∀ i, 0 ≤ (c i).toInt ∧ (i < guildBankMaxTabs → h.moved i ≤ (c i).toNat)

/-- The rank that the member holds has been seen. -/
def Seen (p : P) (g : Nat) (h : Period P) : Prop :=
  ∀ G m, h.world.memberOf p g = some (G, m) →
    (G.rankBankMoneyPerDay m.rankId).toNat ≤ h.mostMoney ∧
      (∀ i, (G.rankBankTabSlotsPerDay m.rankId i).toNat ≤ h.mostSlots i) ∧
      (h.master = false → m.rankId ≠ grGuildMaster)

theorem seen_observe (p : P) (g : Nat) (h : Period P) : Seen p g (observe p g h) := by
  unfold observe
  cases hm : h.world.memberOf p g with
  | none =>
      intro G m hm'
      rw [hm] at hm'
      cases hm'
  | some x =>
      intro G m hm'
      have hx : some x = some (G, m) := hm.symm.trans hm'
      cases hx
      refine ⟨Nat.le_max_right _ _, fun i => Nat.le_max_right _ _, ?_⟩
      show (h.master || decide (m.rankId = grGuildMaster)) = false → _
      simp

theorem master_observe (hmaster : (observe p g h).master = false) : h.master = false := by
  unfold observe at hmaster
  split at hmaster
  · exact hmaster
  · exact (Bool.or_eq_false_iff.1 hmaster).1

theorem Within.observe (hw : Within p g h) : Within p g (observe p g h) := by
  unfold Period.observe
  split
  · exact hw
  · exact ⟨hw.ungranted, hw.money.trans (Nat.le_max_left _ _),
      fun i => (hw.slots i).trans (Nat.le_max_left _ _), hw.counted⟩

theorem within_start (p : P) (g : Nat) (w : World P) : Within p g (start p g w) := by
  refine Within.observe ⟨rfl, Nat.le_refl _, fun _ => Nat.le_refl _, fun c hc => ?_⟩
  have hzero : ∀ i, c i = 0 := by
    unfold counterOf modifyGuild at hc
    rw [guilds_setGuild, if_pos rfl] at hc
    cases hG : w.guilds g with
    | none =>
        rw [hG] at hc
        cases hc
    | some G =>
        rw [hG] at hc
        obtain ⟨m, hm, rfl⟩ := Option.map_eq_some_iff.1 hc
        obtain ⟨m', -, rfl⟩ := List.mem_map.1 (Guild.getMember_mem hm).1
        exact fun _ => rfl
  exact ⟨Nat.zero_le _, fun i => ⟨by rw [hzero i]; decide, fun _ => Nat.zero_le _⟩⟩

/-- A request of the member keeps what it took within the allowances. -/
theorem Within.taken (hw : Within p g h) (hseen : Seen p g h) (hmaster : h.master = false)
    (hmine : Mine p g h.world o) (hcond : Cond p g h o) : Within p g (h.taken p g o) := by
  obtain ⟨hdeposit, hfair⟩ := hcond hmaster hmine
  cases hm : h.world.memberOf p g with
  | none =>
      obtain ⟨hcount, hleft, hpurse⟩ := nothing_bankStep hmine hm hdeposit
      refine ⟨?_, ?_, fun i => ?_, fun c hc => ?_⟩
      · show (if granted p g h.world then h.ungranted else h.ungranted +
          ((h.world.bankStep o).1.moneyOf p - h.world.moneyOf p)) = 0
        rw [Nat.sub_eq_zero_of_le hpurse, Nat.add_zero, ite_self]
        exact hw.ungranted
      · show h.received + ((h.world.bankStep o).1.moneyOf p - h.world.moneyOf p) ≤ h.mostMoney
        rw [Nat.sub_eq_zero_of_le hpurse]
        exact hw.money
      · show h.moved i + (h.world.bankStep o).2.count i ≤ h.mostSlots i
        rw [hleft]
        exact hw.slots i
      · cases hcount.symm.trans hc
  | some x =>
      obtain ⟨G, m⟩ := x
      obtain ⟨hmost, hmostSlots, hrank⟩ := hseen G m hm
      have hcounter : h.world.counterOf p g = some m.bankWithdraw := by
        rw [counterOf_memberOf, hm]
        rfl
      obtain ⟨hreceived, hmoved⟩ := hw.counted _ hcounter
      obtain ⟨c, hc, htakes⟩ := takes_bankStep hmine hm (hrank hmaster) (hfair G m hm) hdeposit
        fun i => (hmoved i).1
      refine ⟨?_, ?_, fun i => ?_, fun c' hc' => ?_⟩
      · show (if granted p g h.world then h.ungranted else h.ungranted +
          ((h.world.bankStep o).1.moneyOf p - h.world.moneyOf p)) = 0
        split <;> rename_i hgranted
        · exact hw.ungranted
        · rw [hw.ungranted, Nat.zero_add]
          by_contra hgain
          refine hgranted ?_
          unfold granted
          rw [hm]
          exact decide_eq_true (htakes.allowed hgain).1
      · show h.received + ((h.world.bankStep o).1.moneyOf p - h.world.moneyOf p) ≤ h.mostMoney
        by_cases hgain : (h.world.bankStep o).1.moneyOf p - h.world.moneyOf p = 0
        · rw [hgain]
          exact hw.money
        · have hlimit := (htakes.allowed hgain).2
          have hsum := htakes.money
          omega
      · show h.moved i + (h.world.bankStep o).2.count i ≤ h.mostSlots i
        by_cases hi : i ∈ (h.world.bankStep o).2
        · obtain ⟨htab, hlimit⟩ := htakes.tabs i hi
          have hsum := htakes.moved i htab
          have hcounted := (hmoved i).2 htab
          have hmost := hmostSlots i
          omega
        · rw [List.count_eq_zero_of_not_mem hi]
          exact hw.slots i
      · cases hc.symm.trans hc'
        have hsum := htakes.money
        refine ⟨?_, fun i => ⟨htakes.nonneg i, fun htab => ?_⟩⟩
        · show h.received + ((h.world.bankStep o).1.moneyOf p - h.world.moneyOf p) ≤ _
          omega
        · show h.moved i + (h.world.bankStep o).2.count i ≤ _
          have hsum := htakes.moved i htab
          have hcounted := (hmoved i).2 htab
          omega

theorem Within.step (hw : Within p g h) (hseen : Seen p g h) (hmaster : h.master = false)
    (hcond : Cond p g h o) : Within p g (h.step p g o) := by
  refine Within.observe ?_
  split <;> rename_i hmine
  · exact hw.taken hseen hmaster hmine hcond
  · refine ⟨hw.ungranted, hw.money, hw.slots, fun c hc => hw.counted c ?_⟩
    rw [← counterOf_bankStep hmine]
    exact hc

theorem master_step (hmaster : (h.step p g o).master = false) : h.master = false := by
  have hbefore := master_observe hmaster
  split at hbefore
  · exact hbefore
  · exact hbefore

/-- A withdrawal that is refused changes nothing; and in a day in which the member's
requests meet the condition, it takes no more than the ranks it held allow. -/
theorem bounded_along (p : P) (g : Nat) (w : World P) (os : List (BankOp P)) :
    (∀ (w : World P) (q : P) (amount : Nat) (repair : Bool),
      (w.memberWithdrawMoney q amount repair).2 = false →
        (w.memberWithdrawMoney q amount repair).1 = w) ∧
    (∀ (w : World P) (q : P) (allowed : Guild P → Bool) (src dest : Guild.MoveItemData)
      (a : Guild.MoveAnswers), (w.moveItems q allowed src dest a).2 = [] →
        (w.moveItems q allowed src dest a).1 = w) ∧
    (Along (step p g) (Cond p g) (start p g w) os →
      ∀ os', os' <+: os → Bounded (os'.foldl (step p g) (start p g w))) := by
  refine ⟨fun w q amount repair hrefused => ?_,
    fun w q allowed src dest a => moveItems_refused, fun hos os' hos' hmaster => ?_⟩
  · rcases memberWithdrawMoney_cases q amount repair w with h | ⟨-, -, -, -, -, hpaid, -⟩
    · rw [h]
    · rw [hpaid] at hrefused
      cases hrefused
  · obtain ⟨rest, rfl⟩ := hos'
    have hinv := (Along.append.1 hos).1.invariant
      (I := fun h : Period P => Seen p g h ∧ (h.master = false → Within p g h))
      (fun h o ⟨hseen, hw⟩ hcond => ⟨seen_observe p g _, fun hmaster' =>
        (hw (master_step hmaster')).step hseen (master_step hmaster') hcond⟩)
      ⟨seen_observe p g _, fun _ => within_start p g w⟩
    have hw := hinv.2 hmaster
    exact ⟨hw.ungranted, hw.money, hw.slots⟩

end Period

end World

/-! ## A rank with the right to repair -/

/-- A guild of one tab; the rank of player 1 may take 100 copper and two stacks a day. -/
def banked (rights : BitVec 32) : World Nat where
  players := fun _ => ⟨"Member", true, true, 1, 1, 0, ⟨0, Nat.zero_le _⟩⟩
  cache := fun _ => none
  guilds := fun g =>
    if g = 1 then
      some {
        leaderGuid := 0
        ranks := [RankInfo.new 0 grRightAll 0,
          ⟨1, rights, 100, fun i => ⟨i, guildBankRightFull, 2⟩⟩]
        members := [Member.new 0 "Leader" 0, Member.new 1 "Member" 1]
        distinct := by decide
        purchasedTabs := 1
        bankMoney := 1000 }
    else none
  nextGuildId := 2

open World

/-- With the right to withdraw gold, the allowance is all that can be taken. -/
theorem allowance_is_taken_once :
    let day := [.withdrawMoney 1 80, .withdrawMoney 1 50,
      .swapItemsWithInventory 1 true 0 ⟨true, true, false, true, true, false, false⟩].foldl
        (Period.step 1 1)
        (Period.start 1 1 (banked (grRightEmpty ||| grRightWithdrawGold)))
    day.received = 80 ∧ day.moved 0 = 1 ∧ day.Bounded := by
  refine ⟨by decide, by decide, ?_⟩
  refine (Period.bounded_along 1 1 (banked (grRightEmpty ||| grRightWithdrawGold))
    [.withdrawMoney 1 80, .withdrawMoney 1 50,
      .swapItemsWithInventory 1 true 0 ⟨true, true, false, true, true, false, false⟩]).2.2
    ⟨?_, ?_, ?_, trivial⟩ _ (List.prefix_refl _)
  · refine fun _ _ => ⟨nofun, fun G m hm => ?_⟩
    cases hm
    exact ⟨fun _ => by decide, fun _ _ _ => by decide⟩
  · refine fun _ _ => ⟨nofun, fun G m hm => ?_⟩
    cases hm
    exact ⟨fun _ => by decide, fun _ _ _ => by decide⟩
  · refine fun _ _ => ⟨nofun, fun G m hm => ?_⟩
    cases hm
    exact fun _ => by decide

/-- A member that may repair from the bank, and may not withdraw gold, withdraws gold. -/
theorem repair_right_withdraws_gold :
    let day := (Period.start 1 1 (banked (grRightEmpty ||| grRightWithdrawRepair))).step 1 1
      (.withdrawMoney 1 50)
    day.master = false ∧ day.received = 50 ∧ day.ungranted = 50 ∧ ¬ day.Bounded := by
  refine ⟨by decide, by decide, by decide, fun h => ?_⟩
  have hnone : (50 : Nat) = 0 := (h rfl).1
  cases hnone

end Sunstrider.Guilds
