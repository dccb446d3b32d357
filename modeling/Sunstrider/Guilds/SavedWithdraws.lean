import Sunstrider.Guilds.Guild

/-!
# Rows of `guild_member_withdraw`

The counters of what a member took from the bank today, in memory and in their table. Each
update writes all counters with one statement, which inserts a row or, if the member has
one, sets columns of it. The reset of the day clears the counters of every member of every
guild and empties the table; what clears the counters of one member writes nothing.

When the members are loaded, a member without a row gets a NULL in each column, and a NULL
is read as zero.
-/

namespace Sunstrider.Guilds

variable {P : Type} [DecidableEq P]

/-- A row, less the guid that is its key. -/
structure WithdrawRow where
  tab0 : BitVec 32
  tab1 : BitVec 32
  tab2 : BitVec 32
  tab3 : BitVec 32
  tab4 : BitVec 32
  tab5 : BitVec 32
  money : BitVec 32
deriving DecidableEq, Repr

abbrev WithdrawTable (P : Type) := P → Option WithdrawRow

/-! ## Statements -/

/-- `VALUES (?, …)` behind the guid. The first parameter has the number zero. -/
def WithdrawRow.values (param : Nat → BitVec 32) : WithdrawRow :=
  ⟨param 1, param 2, param 3, param 4, param 5, param 6, param 7⟩

/-- What `ON DUPLICATE KEY UPDATE` sets. -/
def WithdrawRow.onDuplicateKey (row new : WithdrawRow) : WithdrawRow :=
  { row with
    tab0 := new.tab0, tab1 := new.tab1, tab2 := new.tab2, tab3 := new.tab3, tab4 := new.tab4,
    tab5 := new.tab5 }

/-- `CHAR_INS_GUILD_MEMBER_WITHDRAW` is executed. -/
def insMemberWithdraw (guid : P) (param : Nat → BitVec 32) (table : WithdrawTable P) :
    WithdrawTable P :=
  let new := WithdrawRow.values param
  Function.update table guid
    (some (match table guid with
      | none => new
      | some row => row.onDuplicateKey new))

/-- `TRUNCATE guild_member_withdraw`. -/
def truncateMemberWithdraw : WithdrawTable P := fun _ => none

/-! ## Members -/

namespace Member

/-- The loop that sets the parameters: the counters, from the parameter behind the guid. -/
def withdrawParams (m : Member P) : Nat → BitVec 32 := fun param =>
  if 1 ≤ param ∧ param ≤ guildBankMaxTabs + 1 then m.bankWithdraw (param - 1) else 0

/-- `ResetValues`. -/
def resetValues (m : Member P) : Member P :=
  { m with bankWithdraw := fun tabId =>
      if tabId ≤ guildBankMaxTabs then 0 else m.bankWithdraw tabId }

/-- The counters in `LoadFromDB`; a field is NULL or a number. -/
def loadFromDB (fields : Nat → Option (BitVec 32)) (m : Member P) : Member P :=
  { m with bankWithdraw := fun i =>
      if i ≤ guildBankMaxTabs then (fields (5 + i)).getD 0 else m.bankWithdraw i }

end Member

/-- The columns of the query in `LoadGuilds` that are joined from the table. -/
def withdrawFields (row : Option WithdrawRow) : Nat → Option (BitVec 32)
  | 5 => row.map WithdrawRow.tab0
  | 6 => row.map WithdrawRow.tab1
  | 7 => row.map WithdrawRow.tab2
  | 8 => row.map WithdrawRow.tab3
  | 9 => row.map WithdrawRow.tab4
  | 10 => row.map WithdrawRow.tab5
  | 11 => row.map WithdrawRow.money
  | _ => none

/-! ## Runs -/

/-- The members of all guilds, by their guids, and the table. -/
structure Withdraws (P : Type) where
  members : P → Option (Member P)
  filed : ∀ guid m, members guid = some m → m.guid = guid
  table : WithdrawTable P

/-- A counter is one of a tab or, behind them, the one for money. -/
inductive WithdrawOp (P : Type)
  | updateBankWithdrawValue (guid : P) (tabId : Fin (guildBankMaxTabs + 1)) (amount : BitVec 32)
  | resetValues (guid : P)
  | resetTimes

namespace Withdraws

/-- A member is written to, which does not change who it is. -/
def modifyMember (w : Withdraws P) (guid : P) (f : Member P → Member P)
    (hf : ∀ m, (f m).guid = m.guid) : Withdraws P where
  members := Function.update w.members guid ((w.members guid).map f)
  filed guid' m hm := by
    by_cases heq : guid' = guid
    · rw [heq, Function.update_self] at hm
      obtain ⟨m', hm', rfl⟩ := Option.map_eq_some_iff.1 hm
      rw [hf, heq]
      exact w.filed guid m' hm'
    · rw [Function.update_of_ne heq] at hm
      exact w.filed guid' m hm
  table := w.table

def updateBankWithdrawValue (w : Withdraws P) (guid : P) (tabId : Nat) (amount : BitVec 32) :
    Withdraws P :=
  match w.members guid with
  | none => w
  | some m =>
      { w.modifyMember guid (Guild.updateBankWithdrawValue tabId amount) fun _ => rfl with
        table :=
          insMemberWithdraw m.guid (Guild.updateBankWithdrawValue tabId amount m).withdrawParams
            w.table }

def resetValues (w : Withdraws P) (guid : P) : Withdraws P :=
  w.modifyMember guid Member.resetValues fun _ => rfl

/-- `GuildMgr::ResetTimes`. -/
def resetTimes (w : Withdraws P) : Withdraws P where
  members guid := (w.members guid).map Member.resetValues
  filed guid m hm := by
    obtain ⟨m', hm', rfl⟩ := Option.map_eq_some_iff.1 hm
    exact w.filed guid m' hm'
  table := truncateMemberWithdraw

def step (w : Withdraws P) : WithdrawOp P → Withdraws P
  | .updateBankWithdrawValue guid tabId amount => w.updateBankWithdrawValue guid tabId amount
  | .resetValues guid => w.resetValues guid
  | .resetTimes => w.resetTimes

def run (w : Withdraws P) (os : List (WithdrawOp P)) : Withdraws P := os.foldl step w

/-- A member as it is loaded after a restart; all but the counters is in other tables. -/
def reload (w : Withdraws P) (m : Member P) : Member P :=
  ({ m with bankWithdraw := fun _ => 0 } : Member P).loadFromDB (withdrawFields (w.table m.guid))

end Withdraws

end Sunstrider.Guilds
