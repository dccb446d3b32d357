import Mathlib

/-!
# Loot

A `Loot` holds what a corpse or chest gives: items for whoever is allowed to
take them, quest items, and gold. Three maps say, for each player, which quest,
free-for-all and conditional items were on offer when the loot was filled, and
which of these the player has taken. `unlootedCount` is an 8-bit number that
four fill functions count up and four takers count down; the corpse stays as
long as it, or the gold, is not zero.

Who is allowed what, and who has room, comes in through a `LootEnv`, which may
be a different one at every call. The loot tables are not modelled: filling
takes the list of entries a table has rolled, with their counts. Packets,
database records and the validator links are left out.
-/

namespace Sunstrider.Looting

variable {P : Type} [DecidableEq P]

/-- `MAX_NR_LOOT_ITEMS`. -/
def maxNrLootItems : Nat := 16

/-- `MAX_NR_QUEST_ITEMS`. -/
def maxNrQuestItems : Nat := 32

inductive LootMethod
  | freeForAll
  | roundRobin
  | masterLoot
  | groupLoot
  | needBeforeGreed
deriving DecidableEq, Repr

/-- What `AddItem` and the currency loop read from an `ItemTemplate`. -/
structure LootProto where
  maxStackSize : Nat
  /-- `ITEM_FLAG_MULTI_DROP`. -/
  multiDrop : Bool
  quality : Nat
  isCurrencyToken : Bool
deriving DecidableEq, Repr

/-- `LootStoreItem`, as far as a filled loot depends on it. -/
structure LootStoreItem where
  itemid : Nat
  needsQuest : Bool
  conditions : List Nat
deriving DecidableEq, Repr

structure LootItem (P : Type) where
  itemid : Nat
  conditions : List Nat
  rollWinnerGUID : Option P
  count : Nat
  isLooted : Bool
  isBlocked : Bool
  freeforall : Bool
  isUnderthreshold : Bool
  isCounted : Bool
  needsQuest : Bool
  followLootRules : Bool
deriving DecidableEq, Repr

/-- A player's own entry for an item: its position, and whether taken. -/
structure NotNormalLootItem where
  index : Nat
  isLooted : Bool
deriving DecidableEq, Repr

/-- `NotNormalLootItemMap`. -/
abbrev NotNormalLootItemMap (P : Type) := AList fun _ : P => List NotNormalLootItem

structure Loot (P : Type) where
  items : List (LootItem P)
  questItems : List (LootItem P)
  gold : Nat
  unlootedCount : Nat
  roundRobinPlayer : Option P
  playerQuestItems : NotNormalLootItemMap P
  playerFFAItems : NotNormalLootItemMap P
  playerNonQuestNonFFAConditionalItems : NotNormalLootItemMap P

/-- A group as the loot code sees it. `members` says of each member whether
it is in the map of the loot owner and at reward distance. -/
structure LootGroup (P : Type) where
  lootMethod : LootMethod
  masterLooterGuid : P
  lootThreshold : Nat
  members : List (P × Bool × Bool)

/-- The players and templates around a loot. -/
structure LootEnv (P : Type) where
  /-- `sObjectMgr->GetItemTemplate`. -/
  template : Nat → Option LootProto
  /-- `LootItem::AllowedForPlayer`. -/
  allowedForPlayer : LootItem P → P → Bool
  /-- `CanStoreNewItem` answers `EQUIP_ERR_OK`. -/
  canStoreNewItem : P → Nat → Nat → Bool
  group : P → Option (LootGroup P)

/-- `++` and `--` on a `uint8`. -/
def incr8 (n : Nat) : Nat := (n + 1) % 256

def decr8 (n : Nat) : Nat := (n + 255) % 256

namespace Loot

/-- `Loot::Loot`, and `Loot::clear` for no gold. -/
def empty (gold : Nat) : Loot P where
  items := []
  questItems := []
  gold := gold
  unlootedCount := 0
  roundRobinPlayer := none
  playerQuestItems := ∅
  playerFFAItems := ∅
  playerNonQuestNonFFAConditionalItems := ∅

def isLooted (l : Loot P) : Bool := decide (l.gold = 0) && decide (l.unlootedCount = 0)

/-- The item a slot of `items` followed by `questItems` is about. -/
def itemAt (l : Loot P) (slot : Nat) : Option (LootItem P) :=
  if l.items.length ≤ slot then l.questItems[slot - l.items.length]? else l.items[slot]?

def modifyAt (l : Loot P) (slot : Nat) (f : LootItem P → LootItem P) : Loot P :=
  if l.items.length ≤ slot then
    { l with questItems := l.questItems.modify (slot - l.items.length) f }
  else { l with items := l.items.modify slot f }

def countUp (l : Loot P) : Loot P := { l with unlootedCount := incr8 l.unlootedCount }

def countDown (l : Loot P) : Loot P := { l with unlootedCount := decr8 l.unlootedCount }

/-! ## Filling -/

/-- `LootItem::LootItem(LootStoreItem const&)` with its count. -/
def newItem (store : LootStoreItem) (proto : LootProto) (count : Nat) : LootItem P where
  itemid := store.itemid
  conditions := store.conditions
  rollWinnerGUID := none
  count := count
  isLooted := false
  isBlocked := false
  freeforall := proto.multiDrop
  isUnderthreshold := false
  isCounted := false
  needsQuest := store.needsQuest
  followLootRules := false

/-- The loop of `AddItem`, for the stacks still to be made. -/
def addStacks (store : LootStoreItem) (proto : LootProto) : Nat → Nat → Loot P → Loot P
  | 0, _, l => l
  | more + 1, count, l =>
      let item := newItem store proto (min count proto.maxStackSize)
      if store.needsQuest then
        if l.questItems.length < maxNrQuestItems then
          addStacks store proto more (count - proto.maxStackSize)
            { l with questItems := l.questItems ++ [item] }
        else l
      else
        if l.items.length < maxNrLootItems then
          let l := { l with items := l.items ++ [item] }
          addStacks store proto more (count - proto.maxStackSize)
            (if store.conditions.isEmpty && !proto.multiDrop then l.countUp else l)
        else l

/-- `Loot::AddItem`, for the count that was rolled. -/
def addItem (env : LootEnv P) (l : Loot P) (store : LootStoreItem) (count : Nat) : Loot P :=
  match env.template store.itemid with
  | none => l
  | some proto =>
      addStacks store proto
        (count / proto.maxStackSize + if count % proto.maxStackSize = 0 then 0 else 1) count l

/-- The loop of `FillFFALoot` over positions, with the list made so far. -/
def ffaLoop (env : LootEnv P) (p : P) :
    List Nat → Loot P → List NotNormalLootItem → Loot P × List NotNormalLootItem
  | [], l, ql => (l, ql)
  | i :: rest, l, ql =>
      match l.items[i]? with
      | none => ffaLoop env p rest l ql
      | some item =>
          if !item.isLooted && item.freeforall && env.allowedForPlayer item p then
            ffaLoop env p rest l.countUp (ql ++ [⟨i, false⟩])
          else ffaLoop env p rest l ql

/-- `Loot::FillFFALoot`. -/
def fillFFALoot (env : LootEnv P) (l : Loot P) (p : P) : Loot P :=
  match ffaLoop env p (List.range l.items.length) l [] with
  | (l, []) => l
  | (l, ql) => { l with playerFFAItems := l.playerFFAItems.insert p ql }

/-- The loot rules by which `FillQuestLoot` shows an item to somebody who has
no use for it. -/
def followsRules (env : LootEnv P) (p : P) : Bool :=
  match env.group p with
  | none => false
  | some g =>
      (decide (g.lootMethod = .masterLoot) && decide (g.masterLooterGuid = p)) ||
        decide (g.lootMethod ≠ .masterLoot)

/-- `FillQuestLoot` puts the item on `p`'s list. -/
def offersQuestItem (env : LootEnv P) (p : P) (item : LootItem P) : Bool :=
  !item.isLooted &&
    (env.allowedForPlayer item p || (item.followLootRules && followsRules env p))

/-- `FillQuestLoot` blocks the items it offers `p`. -/
def blocksQuestItems (env : LootEnv P) (p : P) : Bool :=
  match env.group p with
  | none => true
  | some g => decide (g.lootMethod ≠ .groupLoot) && decide (g.lootMethod ≠ .roundRobin)

/-- The loop of `FillQuestLoot`. -/
def questLoop (env : LootEnv P) (p : P) :
    List Nat → Loot P → List NotNormalLootItem → Loot P × List NotNormalLootItem
  | [], l, ql => (l, ql)
  | i :: rest, l, ql =>
      match l.questItems[i]? with
      | none => questLoop env p rest l ql
      | some item =>
          if offersQuestItem env p item then
            let ql := ql ++ [⟨i, false⟩]
            -- increase once if one looter only, looter-times if free for all
            let l := if item.freeforall || !item.isBlocked then l.countUp else l
            let l :=
              if blocksQuestItems env p then
                { l with questItems :=
                    l.questItems.modify i (fun it => { it with isBlocked := true }) }
              else l
            if l.items.length + ql.length = maxNrLootItems then (l, ql)
            else questLoop env p rest l ql
          else questLoop env p rest l ql

/-- `Loot::FillQuestLoot`. -/
def fillQuestLoot (env : LootEnv P) (l : Loot P) (p : P) : Loot P :=
  if l.items.length = maxNrLootItems then l
  else
    match questLoop env p (List.range l.questItems.length) l [] with
    | (l, []) => l
    | (l, ql) => { l with playerQuestItems := l.playerQuestItems.insert p ql }

/-- The loop of `FillNonQuestNonFFAConditionalLoot`. -/
def condLoop (env : LootEnv P) (p : P) :
    List Nat → Loot P → List NotNormalLootItem → Loot P × List NotNormalLootItem
  | [], l, ql => (l, ql)
  | i :: rest, l, ql =>
      match l.items[i]? with
      | none => condLoop env p rest l ql
      | some item =>
          if !item.isLooted && !item.freeforall && env.allowedForPlayer item p &&
              !item.conditions.isEmpty then
            let l :=
              if item.isCounted then l
              else { l.countUp with
                items := l.items.modify i (fun it => { it with isCounted := true }) }
            condLoop env p rest l (ql ++ [⟨i, false⟩])
          else condLoop env p rest l ql

/-- `Loot::FillNonQuestNonFFAConditionalLoot`. -/
def fillNonQuestNonFFAConditionalLoot (env : LootEnv P) (l : Loot P) (p : P) : Loot P :=
  match condLoop env p (List.range l.items.length) l [] with
  | (l, []) => l
  | (l, ql) =>
      { l with playerNonQuestNonFFAConditionalItems :=
          l.playerNonQuestNonFFAConditionalItems.insert p ql }

/-! ## Taking -/

/-- What `LootItemInSlot` finds: the item's position, whether it is a quest
item, and the position of the player's own entry where one was used. -/
structure SlotRef where
  quest : Bool
  index : Nat
  entry : Option Nat
deriving DecidableEq, Repr

/-- The first entry for an item in a player's list. -/
def entryFor (map : NotNormalLootItemMap P) (p : P) (index : Nat) :
    Option (Nat × NotNormalLootItem) :=
  match map.lookup p with
  | none => none
  | some ql =>
      match ql.findIdx? fun e => e.index = index with
      | none => none
      | some j => ql[j]?.map fun e => (j, e)

/-- `Loot::LootItemInSlot`. A quest item, a free-for-all item and a
conditional item are looted when the player's own entry is; without an entry,
and for ordinary items, the item's own flag decides. -/
def lootItemInSlot (l : Loot P) (slot : Nat) (p : P) : Option (SlotRef × LootItem P) :=
  if l.items.length ≤ slot then
    match l.playerQuestItems.lookup p with
    | none => none
    | some ql =>
        match ql[slot - l.items.length]? with
        | none => none
        | some e =>
            match l.questItems[e.index]? with
            | none => none
            | some item =>
                if e.isLooted then none
                else some (⟨true, e.index, some (slot - l.items.length)⟩, item)
  else
    match l.items[slot]? with
    | none => none
    | some item =>
        let own :=
          if item.freeforall then entryFor l.playerFFAItems p slot
          else if !item.conditions.isEmpty then
            entryFor l.playerNonQuestNonFFAConditionalItems p slot
          else none
        let looted := match own with
          | none => item.isLooted
          | some (_, e) => e.isLooted
        if looted then none else some (⟨false, slot, own.map Prod.fst⟩, item)

/-- Mark entry `j` of a player's list as taken. -/
def takeEntry (map : NotNormalLootItemMap P) (p : P) (j : Nat) : NotNormalLootItemMap P :=
  match map.lookup p with
  | none => map
  | some ql => map.insert p (ql.modify j fun e => { e with isLooted := true })

/-- The flags `StoreLootItem` sets once the item is in the bags. -/
def markStored (l : Loot P) (p : P) (ref : SlotRef) (item : LootItem P) : Loot P :=
  let l := match ref.entry with
    | none => l
    | some j =>
        if ref.quest then { l with playerQuestItems := takeEntry l.playerQuestItems p j }
        else if item.freeforall then
          { l with playerFFAItems := takeEntry l.playerFFAItems p j }
        else
          { l with playerNonQuestNonFFAConditionalItems :=
              takeEntry l.playerNonQuestNonFFAConditionalItems p j }
  let l :=
    if item.freeforall then l
    else if ref.quest then
      { l with questItems :=
          l.questItems.modify ref.index (fun it => { it with isLooted := true }) }
    else
      { l with items := l.items.modify ref.index (fun it => { it with isLooted := true }) }
  l.countDown

/-- The checks of `StoreLootItem` on an item that is there. -/
def mayStore (env : LootEnv P) (p : P) (ref : SlotRef) (item : LootItem P) : Bool :=
  env.allowedForPlayer item p && (ref.quest || !item.isBlocked) &&
    (match item.rollWinnerGUID with
      | none => true
      | some w => decide (w = p)) &&
    env.canStoreNewItem p item.itemid item.count

/-- `Player::StoreLootItem`. -/
def storeLootItem (env : LootEnv P) (l : Loot P) (p : P) (slot : Nat) : Loot P :=
  match l.lootItemInSlot slot p with
  | none => l
  | some (ref, item) => if mayStore env p ref item then l.markStored p ref item else l

/-- `WorldSession::HandleLootMasterGiveOpcode`, from where the loot is found. -/
def lootMasterGive (env : LootEnv P) (l : Loot P) (target : P) (slot : Nat) : Loot P :=
  match l.itemAt slot with
  | none => l
  | some item =>
      if item.followLootRules && !env.allowedForPlayer item target then l
      else if !env.canStoreNewItem target item.itemid item.count then l
      else (l.modifyAt slot fun it => { it with count := 0, isLooted := true }).countDown

/-- `WorldSession::HandleLootMoneyOpcode`: whoever shares it, it is gone. -/
def lootMoney (l : Loot P) : Loot P := { l with gold := 0 }

/-! ## Filling for everybody -/

/-- `Loot::GetMaxSlotInLootFor`. -/
def getMaxSlotInLootFor (l : Loot P) (p : P) : Nat :=
  l.items.length + ((l.playerQuestItems.lookup p).getD []).length

/-- The loop of `FillNotNormalLootFor` that hands out currency tokens. -/
def currencyLoop (env : LootEnv P) (p : P) : List Nat → Loot P → Loot P
  | [], l => l
  | i :: rest, l =>
      match l.itemAt i with
      | none => currencyLoop env p rest l
      | some item =>
          if !item.isLooted && item.freeforall && env.allowedForPlayer item p &&
              ((env.template item.itemid).map LootProto.isCurrencyToken).getD false then
            currencyLoop env p rest (l.storeLootItem env p i)
          else currencyLoop env p rest l

/-- The three lists of `FillNotNormalLootFor`. -/
def fillLists (env : LootEnv P) (l : Loot P) (p : P) : Loot P :=
  let l := if (l.playerQuestItems.lookup p).isSome then l else l.fillQuestLoot env p
  let l := if (l.playerFFAItems.lookup p).isSome then l else l.fillFFALoot env p
  if (l.playerNonQuestNonFFAConditionalItems.lookup p).isSome then l
  else l.fillNonQuestNonFFAConditionalLoot env p

/-- `Loot::FillNotNormalLootFor`. -/
def fillNotNormalLootFor (env : LootEnv P) (l : Loot P) (p : P) (presentAtLooting : Bool) :
    Loot P :=
  let l := l.fillLists env p
  if !presentAtLooting then l
  else currencyLoop env p (List.range (l.getMaxSlotInLootFor p)) l

/-- The entries a loot table rolled, put in one after the other. -/
def process (env : LootEnv P) (l : Loot P) (rolled : List (LootStoreItem × Nat)) : Loot P :=
  rolled.foldl (fun l e => l.addItem env e.1 e.2) l

/-- The members of the owner's group who are in the owner's map. -/
def fillGroup (env : LootEnv P) (members : List (P × Bool × Bool)) (l : Loot P) : Loot P :=
  members.foldl (fun l m => if m.2.1 then l.fillNotNormalLootFor env m.1 m.2.2 else l) l

/-- Items below the group's threshold are not rolled for. -/
def markUnderthreshold (env : LootEnv P) (l : Loot P) (threshold : Nat) : Loot P :=
  { l with items := l.items.map fun it =>
      match env.template it.itemid with
      | none => it
      | some proto =>
          if proto.quality < threshold then { it with isUnderthreshold := true } else it }

/-- `Loot::FillLoot`, once the loot table has rolled. -/
def fillLoot (env : LootEnv P) (l : Loot P) (rolled : List (LootStoreItem × Nat))
    (lootOwner : P) (personal : Bool) : Loot P :=
  let l := l.process env rolled
  match env.group lootOwner with
  | some g =>
      if personal then l.fillNotNormalLootFor env lootOwner true
      else
        let l := { l with roundRobinPlayer := some lootOwner }
        (fillGroup env g.members l).markUnderthreshold env g.lootThreshold
  | none => l.fillNotNormalLootFor env lootOwner true

/-- `Group::MasterLoot`, the flags it sets. -/
def masterLoot (l : Loot P) : Loot P :=
  { l with
    items := l.items.map fun it =>
      if it.freeforall then it else { it with isBlocked := !it.isUnderthreshold }
    questItems := l.questItems.map fun it =>
      if it.followLootRules then { it with isBlocked := !it.isUnderthreshold } else it }

/-- `Group::GroupLoot` on the item it starts a roll for. -/
def blockForRoll (l : Loot P) (slot : Nat) : Loot P :=
  l.modifyAt slot fun it => { it with isBlocked := true }

end Loot

end Sunstrider.Looting
