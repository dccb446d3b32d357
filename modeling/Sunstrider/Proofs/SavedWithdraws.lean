import Sunstrider.Lib.Runs
import Sunstrider.Guilds.SavedWithdraws

/-!
# What a restart makes of the counters

The statement of an update writes every counter of a new row, and every counter but that of
money of a row that is there. So money that is taken once a member has a row is not in the
table, and after a restart it can be taken again. A counter of a tab is always written.

Only the reset of all members empties the table. To clear the counters of one member by
itself would leave its row as it is.
-/

namespace Sunstrider.Guilds

open Lib

variable {P : Type}

/-- A counter as it is read from the row of a member, if it has one. -/
def storedCounter (row : Option WithdrawRow) (tabId : Nat) : BitVec 32 :=
  (withdrawFields row (5 + tabId)).getD 0

namespace Withdraws

/-- The row of a member, if it has one, has the counters in memory, and each of them is
restored. -/
def Restores (w : Withdraws P) : Prop :=
  ∀ guid m, w.members guid = some m →
    (∀ row, w.table guid = some row → row = .values m.withdrawParams) ∧
      ∀ tabId ≤ guildBankMaxTabs, (w.reload m).bankWithdraw tabId = m.bankWithdraw tabId

/-- Money is counted before the member has a row, and what is cleared by itself is clear. -/
def Meets (w : Withdraws P) : WithdrawOp P → Prop
  | .updateBankWithdrawValue guid tabId amount =>
      tabId.val = guildBankMaxTabs → amount = 0 ∨ w.members guid = none ∨ w.table guid = none
  | .resetValues guid =>
      ∀ m, w.members guid = some m → ∀ tabId ≤ guildBankMaxTabs, m.bankWithdraw tabId = 0
  | .resetTimes => True

end Withdraws

variable {w : Withdraws P} {m : Member P} {guid : P} {row new : WithdrawRow} {tabId : Nat}
  {amount : BitVec 32}

/-! ## Rows -/

theorem storedCounter_none (tabId : Nat) : storedCounter none tabId = 0 := by
  unfold storedCounter withdrawFields
  split <;> rfl

/-- What holds of the six tabs and of money holds of every counter. -/
theorem forall_counters {p : Nat → Prop} (h0 : p 0) (h1 : p 1) (h2 : p 2) (h3 : p 3) (h4 : p 4)
    (h5 : p 5) (h6 : p 6) : ∀ tabId ≤ guildBankMaxTabs, p tabId
  | 0, _ => h0
  | 1, _ => h1
  | 2, _ => h2
  | 3, _ => h3
  | 4, _ => h4
  | 5, _ => h5
  | 6, _ => h6
  | n + 7, h => absurd h (by rw [guildBankMaxTabs]; omega)

theorem storedCounter_values (m : Member P) : ∀ tabId ≤ guildBankMaxTabs,
    storedCounter (some (.values m.withdrawParams)) tabId = m.bankWithdraw tabId :=
  forall_counters rfl rfl rfl rfl rfl rfl rfl

/-- A row that is there keeps its money. -/
theorem storedCounter_onDuplicateKey (row new : WithdrawRow) : ∀ tabId ≤ guildBankMaxTabs,
    storedCounter (some (row.onDuplicateKey new)) tabId =
      if tabId = guildBankMaxTabs then storedCounter (some row) tabId
      else storedCounter (some new) tabId :=
  forall_counters rfl rfl rfl rfl rfl rfl rfl

theorem eq_values_of_stored
    (h : ∀ tabId ≤ guildBankMaxTabs, storedCounter (some row) tabId = m.bankWithdraw tabId) :
    row = .values m.withdrawParams := by
  have hsame : ∀ tabId ≤ guildBankMaxTabs,
      storedCounter (some row) tabId = storedCounter (some (.values m.withdrawParams)) tabId :=
    fun tabId hle => (h tabId hle).trans (storedCounter_values m tabId hle).symm
  obtain ⟨tab0, tab1, tab2, tab3, tab4, tab5, money⟩ := row
  rw [WithdrawRow.mk.injEq]
  exact ⟨hsame 0 (by decide), hsame 1 (by decide), hsame 2 (by decide), hsame 3 (by decide),
    hsame 4 (by decide), hsame 5 (by decide), hsame 6 (by decide)⟩

namespace Withdraws

theorem bankWithdraw_reload (hle : tabId ≤ guildBankMaxTabs) :
    (w.reload m).bankWithdraw tabId = storedCounter (w.table m.guid) tabId :=
  if_pos hle

/-- The rows say what is restored, and the rest follows. -/
theorem restores_iff : w.Restores ↔ ∀ guid m, w.members guid = some m →
    ∀ tabId ≤ guildBankMaxTabs, storedCounter (w.table guid) tabId = m.bankWithdraw tabId := by
  constructor
  · intro h guid m hm tabId hle
    rw [← (h guid m hm).2 tabId hle, bankWithdraw_reload hle, w.filed guid m hm]
  · intro h guid m hm
    refine ⟨fun row hrow => eq_values_of_stored fun tabId hle => ?_, fun tabId hle => ?_⟩
    · rw [← hrow]
      exact h guid m hm tabId hle
    · rw [bankWithdraw_reload hle, w.filed guid m hm]
      exact h guid m hm tabId hle

theorem bankWithdraw_resetValues (hle : tabId ≤ guildBankMaxTabs) :
    m.resetValues.bankWithdraw tabId = 0 := if_pos hle

/-! ## Steps -/

theorem restores_resetTimes (w : Withdraws P) : w.resetTimes.Restores := by
  refine restores_iff.2 fun guid m hm tabId hle => ?_
  obtain ⟨m', -, rfl⟩ := Option.map_eq_some_iff.1 hm
  rw [bankWithdraw_resetValues hle]
  exact storedCounter_none tabId

variable [DecidableEq P]

theorem members_update (hm : w.members guid = some m) :
    (w.updateBankWithdrawValue guid tabId amount).members =
      Function.update w.members guid (some (Guild.updateBankWithdrawValue tabId amount m)) := by
  rw [updateBankWithdrawValue, hm]
  show Function.update w.members guid ((w.members guid).map _) = _
  rw [hm]
  rfl

theorem table_update (hm : w.members guid = some m) :
    (w.updateBankWithdrawValue guid tabId amount).table =
      insMemberWithdraw guid (Guild.updateBankWithdrawValue tabId amount m).withdrawParams
        w.table := by
  rw [updateBankWithdrawValue, hm, ← w.filed guid m hm]

/-- One member and its row are written; the others are as they were. -/
theorem restores_write_iff (guid : P) {w' : Withdraws P} (h : w.Restores)
    (hmembers : ∀ other, other ≠ guid → w'.members other = w.members other)
    (htable : ∀ other, other ≠ guid → w'.table other = w.table other) :
    w'.Restores ↔ ∀ m, w'.members guid = some m →
      ∀ tabId ≤ guildBankMaxTabs, storedCounter (w'.table guid) tabId = m.bankWithdraw tabId := by
  rw [restores_iff]
  constructor
  · intro hall m hm
    exact hall guid m hm
  · intro hone other m hm
    by_cases heq : other = guid
    · rw [heq] at hm ⊢
      exact hone m hm
    · rw [htable other heq]
      rw [hmembers other heq] at hm
      exact restores_iff.1 h other m hm

theorem restores_update_iff (h : w.Restores) (hm : w.members guid = some m) :
    (w.updateBankWithdrawValue guid tabId amount).Restores ↔
      (tabId = guildBankMaxTabs → amount = 0 ∨ w.table guid = none) := by
  have hold := restores_iff.1 h guid m hm
  rw [restores_write_iff guid h
    (fun other hne => by rw [members_update hm, Function.update_of_ne hne])
    fun other hne => by rw [table_update hm, insMemberWithdraw, Function.update_of_ne hne],
    members_update hm, table_update hm, insMemberWithdraw, Function.update_self,
    Function.update_self]
  cases htable : w.table guid with
  | none =>
      refine iff_of_true (fun m' hm' tabId hle => ?_) fun _ => .inr rfl
      rw [← Option.some.inj hm']
      exact storedCounter_values _ tabId hle
  | some row =>
      rw [htable] at hold
      constructor
      · intro hall hmoney
        have hlast := hall _ rfl guildBankMaxTabs (Nat.le_refl _)
        rw [storedCounter_onDuplicateKey row _ _ (Nat.le_refl _), if_pos rfl,
          hold _ (Nat.le_refl _)] at hlast
        have hcount : m.bankWithdraw guildBankMaxTabs =
            m.bankWithdraw guildBankMaxTabs + amount := hlast.trans (if_pos hmoney.symm)
        exact .inl (BitVec.self_eq_add_right.1 hcount)
      · intro hmeets m' hm' i hle
        rw [← Option.some.inj hm', storedCounter_onDuplicateKey row _ i hle]
        split
        · rename_i hi
          rw [hold i hle]
          show m.bankWithdraw i = if i = tabId then m.bankWithdraw i + amount else m.bankWithdraw i
          split
          · rename_i htab
            rcases hmeets (htab ▸ hi) with hzero | hnone
            · rw [hzero]
              exact (BitVec.add_zero _).symm
            · cases hnone
          · rfl
        · exact storedCounter_values _ i hle

theorem restores_resetValues_iff (h : w.Restores) :
    (w.resetValues guid).Restores ↔ w.Meets (.resetValues guid) := by
  have hothers : ∀ other, other ≠ guid → (w.resetValues guid).members other = w.members other :=
    fun other hne => Function.update_of_ne hne _ _
  refine (restores_write_iff guid h hothers fun _ _ => rfl).trans ?_
  have hmember : (w.resetValues guid).members guid = (w.members guid).map Member.resetValues :=
    Function.update_self ..
  rw [hmember]
  constructor
  · intro hall m hm tabId hle
    rw [← restores_iff.1 h guid m hm tabId hle, ← bankWithdraw_resetValues (m := m) hle]
    exact hall _ (by rw [hm]; rfl) tabId hle
  · intro hmeets m' hm' tabId hle
    obtain ⟨m, hm, rfl⟩ := Option.map_eq_some_iff.1 hm'
    rw [bankWithdraw_resetValues hle, ← hmeets m hm tabId hle]
    exact restores_iff.1 h guid m hm tabId hle

theorem restores_step_iff (h : w.Restores) (o : WithdrawOp P) :
    (w.step o).Restores ↔ w.Meets o := by
  cases o with
  | updateBankWithdrawValue guid tabId amount =>
      cases hm : w.members guid with
      | none =>
          have hsame : w.step (.updateBankWithdrawValue guid tabId amount) = w := by
            rw [step, updateBankWithdrawValue, hm]
          rw [hsame]
          exact iff_of_true h fun _ => .inr (.inl hm)
      | some m =>
          refine (restores_update_iff h hm).trans ?_
          rw [Meets, hm]
          simp only [reduceCtorEq, false_or]
  | resetValues guid => exact restores_resetValues_iff h
  | resetTimes => exact iff_of_true (restores_resetTimes w) trivial

/-- The counters can be restored at every moment of a run, if and only if no money is counted
of a member with a row, and no member that has taken something is cleared by itself. -/
theorem run_restores_iff (w : Withdraws P) (h : w.Restores) (os : List (WithdrawOp P)) :
    (∀ os', os' <+: os → (w.run os').Restores) ↔ Along step Meets w os :=
  Along.holds_iff (fun _ h => h) (fun _ o h hmeets => (restores_step_iff h o).2 hmeets)
    (fun _ o h hnext => (restores_step_iff h o).1 hnext) h

end Withdraws

/-! ## One member -/

/-- A member that has taken nothing, and no row. -/
def freshMember : Withdraws Nat where
  members guid := if guid = 1 then some (.new 1 "Thrall" 1) else none
  filed guid m hm := by
    split at hm
    · rename_i heq
      rw [← Option.some.inj hm, heq]
      rfl
    · cases hm
  table _ := none

theorem restores_freshMember : freshMember.Restores := by
  refine Withdraws.restores_iff.2 fun guid m hm tabId _ => ?_
  have hm' : m = .new 1 "Thrall" 1 := by
    change (if guid = 1 then _ else none) = some m at hm
    split at hm
    · exact (Option.some.inj hm).symm
    · cases hm
  rw [hm']
  exact storedCounter_none tabId

theorem money_before_items_is_restored :
    freshMember.Restores ∧ Along Withdraws.step Withdraws.Meets freshMember
      [.updateBankWithdrawValue 1 6 300, .updateBankWithdrawValue 1 0 1] ∧
      (freshMember.run [.updateBankWithdrawValue 1 6 300]).Restores := by
  have hmeets : Along Withdraws.step Withdraws.Meets freshMember
      [.updateBankWithdrawValue 1 6 300, .updateBankWithdrawValue 1 0 1] :=
    ⟨fun _ => .inr (.inr rfl), fun h => absurd h (by decide), trivial⟩
  exact ⟨restores_freshMember, hmeets,
    (Withdraws.run_restores_iff freshMember restores_freshMember _).2 hmeets _ ⟨[_], rfl⟩⟩

/-- Five gold and then seven: seven are forgotten. -/
theorem second_withdrawal_is_forgotten :
    ¬ (freshMember.run [.updateBankWithdrawValue 1 6 50000,
      .updateBankWithdrawValue 1 6 70000]).Restores := by
  intro h
  have hmoney := Withdraws.restores_iff.1 h 1 _ rfl 6 (Nat.le_refl _)
  exact absurd hmoney (by decide)

end Sunstrider.Guilds
