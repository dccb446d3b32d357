import Mathlib

/-!
# Stored loot of containers

What was rolled for an item that can be opened, a container, is kept until the container is
gone: in memory, by the id of the container, and in the tables `item_loot_items` and
`item_loot_money`. Each operation changes the storage and issues statements of its own for
the tables, and only a restart fills the storage from them.

`item_loot_items` has no key, so it may have a row more than once. A row of
`item_loot_money` is inserted right behind the statement that deletes the one with its key.
-/

namespace Sunstrider.Looting

/-- `StoredLootItem`, and the columns of a row behind the container. The column of the suffix
is a signed one; the factors of suffixes in the data of the game are far smaller. -/
structure StoredLootItem where
  itemId : UInt32
  count : UInt8
  followRules : Bool
  ffa : Bool
  blocked : Bool
  counted : Bool
  underThreshold : Bool
  needsQuest : Bool
  randomPropertyId : Int32
  randomSuffix : Fin (2 ^ 31)
deriving DecidableEq, Repr

/-- The multimap is a list; nothing is said of the order of its entries. -/
structure StoredLootContainer where
  lootItems : List StoredLootItem
  money : UInt32
deriving DecidableEq, Repr

def StoredLootContainer.new : StoredLootContainer := ⟨[], 0⟩

/-- The storage by the ids of the containers. -/
abbrev LootItemStore := UInt32 → Option StoredLootContainer

/-- The rows, with the column `container_id` apart. -/
structure LootTables where
  items : List (UInt32 × StoredLootItem)
  money : List (UInt32 × UInt32)
deriving DecidableEq, Repr

/-! ## Statements -/

/-- The prepared statements `CHAR_…_ITEMCONTAINER_…` with their parameters. -/
inductive LootStatement
  | delItems (containerId : UInt32)
  | delItem (containerId itemId count : UInt32)
  | insItems (containerId : UInt32) (row : StoredLootItem)
  | delMoney (containerId : UInt32)
  | insMoney (containerId money : UInt32)
deriving DecidableEq, Repr

/-- `WHERE container_id = ?` and what else there is. -/
def deleteWhere {α : Type} (containerId : UInt32) (p : α → Bool) (table : List (UInt32 × α)) :
    List (UInt32 × α) :=
  table.filter fun row => !(row.1 == containerId && p row.2)

/-- `item_id = ? AND item_count = ?`, and the search in `RemoveItem`. -/
def StoredLootItem.matches (itemId count : UInt32) (item : StoredLootItem) : Bool :=
  item.itemId == itemId && item.count.toUInt32 == count

def LootStatement.execute (t : LootTables) : LootStatement → LootTables
  | .delItems c => { t with items := deleteWhere c (fun _ => true) t.items }
  | .delItem c itemId count =>
      { t with items := deleteWhere c (StoredLootItem.matches itemId count) t.items }
  | .insItems c row => { t with items := t.items ++ [(c, row)] }
  | .delMoney c => { t with money := deleteWhere c (fun _ => true) t.money }
  | .insMoney c money => { t with money := t.money ++ [(c, money)] }

/-! ## The storage -/

/-- What is read of a `LootItem`, given whether the player may have it and whether it is a
currency token, if it has a template. -/
structure LootEntry where
  stored : StoredLootItem
  allowedForPlayer : Bool
  isCurrencyToken : Option Bool
deriving DecidableEq, Repr

/-- What is read of the `Loot` of a container. -/
structure ContainerLoot where
  containerId : UInt32
  gold : UInt32
  unlootedCount : UInt8
  items : List LootEntry
deriving DecidableEq, Repr

namespace ContainerLoot

def isLooted (loot : ContainerLoot) : Bool := loot.gold == 0 && loot.unlootedCount == 0

/-- The entries that the loop does not pass over. -/
def saved (loot : ContainerLoot) : List StoredLootItem :=
  (loot.items.filter fun li => li.allowedForPlayer && li.isCurrencyToken == some false).map
    LootEntry.stored

end ContainerLoot

structure StorageWorld where
  store : LootItemStore
  tables : LootTables

namespace StorageWorld

def execute (w : StorageWorld) (statements : List LootStatement) : StorageWorld :=
  { w with tables := statements.foldl LootStatement.execute w.tables }

def setContainer (w : StorageWorld) (containerId : UInt32) (container : Option StoredLootContainer) :
    StorageWorld :=
  { w with store := Function.update w.store containerId container }

def addNewStoredLoot (w : StorageWorld) (loot : ContainerLoot) : StorageWorld :=
  let c := loot.containerId
  if loot.isLooted then w
  else
    match w.store c with
    | some _ => w
    | none =>
        let addMoney := if loot.gold ≠ 0 then [.delMoney c, .insMoney c loot.gold] else []
        (w.execute (addMoney ++ .delItems c :: loot.saved.map (.insItems c))).setContainer c
          (some ⟨loot.saved, loot.gold⟩)

/-- The first entry found that matches goes, and every row that does. -/
def removeStoredLootItemForContainer (w : StorageWorld) (containerId itemId count : UInt32) :
    StorageWorld :=
  match w.store containerId with
  | none => w
  | some container =>
      (w.execute [.delItem containerId itemId count]).setContainer containerId
        (some { container with lootItems :=
          container.lootItems.eraseP (StoredLootItem.matches itemId count) })

def removeStoredMoneyForContainer (w : StorageWorld) (containerId : UInt32) : StorageWorld :=
  match w.store containerId with
  | none => w
  | some container =>
      (w.execute [.delMoney containerId]).setContainer containerId
        (some { container with money := 0 })

def removeStoredLootForContainer (w : StorageWorld) (containerId : UInt32) : StorageWorld :=
  (w.execute [.delItems containerId, .delMoney containerId]).setContainer containerId none

/-! ## Loading -/

/-- A row is added to its container, which is new for the first row. -/
def loadRow {α : Type} (add : StoredLootContainer → α → StoredLootContainer)
    (store : LootItemStore) (row : UInt32 × α) : LootItemStore :=
  Function.update store row.1 (some (add ((store row.1).getD .new) row.2))

/-- `LoadStorageFromDB` -/
def loadStorageFromDB (t : LootTables) : LootItemStore :=
  t.money.foldl (loadRow fun container money => { container with money })
    (t.items.foldl
      (loadRow fun container row => { container with lootItems := container.lootItems ++ [row] })
      fun _ => none)

/-- The gold and the items that the loot gets, if the container is in the storage. -/
def loadStoredLoot (store : LootItemStore) (containerId : UInt32) (hasTemplate : Bool) :
    Option (UInt32 × List StoredLootItem) :=
  (store containerId).map fun container =>
    (container.money, if hasTemplate then container.lootItems else [])

/-! ## Runs -/

inductive Op
  | addNewStoredLoot (loot : ContainerLoot)
  | removeStoredLootItemForContainer (containerId itemId count : UInt32)
  | removeStoredMoneyForContainer (containerId : UInt32)
  | removeStoredLootForContainer (containerId : UInt32)
  | restart
deriving DecidableEq, Repr

def step (w : StorageWorld) : Op → StorageWorld
  | .addNewStoredLoot loot => w.addNewStoredLoot loot
  | .removeStoredLootItemForContainer c itemId count =>
      w.removeStoredLootItemForContainer c itemId count
  | .removeStoredMoneyForContainer c => w.removeStoredMoneyForContainer c
  | .removeStoredLootForContainer c => w.removeStoredLootForContainer c
  | .restart => { w with store := loadStorageFromDB w.tables }

def start : StorageWorld := ⟨fun _ => none, ⟨[], []⟩⟩

def run (w : StorageWorld) (ops : List Op) : StorageWorld := ops.foldl step w

end StorageWorld

end Sunstrider.Looting
