import Mathlib

/-!
# Items and where a player keeps them

Items are objects with identity: a slot holds a reference, and moving an item
moves the reference. `Objects` is the store behind the references. A player has
118 slots of its own; the items worn as bags have slots again, one level deep.
A position is a `uint16` in the source, the bag in the high byte and the slot in
the low; here it is the pair. Bag 255 is the player itself.

Templates are shared and never change. The source caches a pointer to the
template in the item, which is the template of the item's entry. Stack sizes and
carry limits are loaded from 16-bit columns, bag sizes are cut at 36 by the
loader.
-/

namespace Sunstrider.Inventory

inductive InventoryResult
  | ok
  | itemDoesntGoToSlot
  | nonemptyBagOverOtherBag
  | noEquipmentSlotAvailable
  | cantEquipWithTwohanded
  | cantDualWield
  | itemDoesntGoIntoBag
  | cantCarryMoreOfThis
  | itemCantStack
  | itemCantBeEquipped
  | itemsCantBeSwapped
  | itemNotFound
  | triedToSplitMoreThanCount
  | couldntSplitItems
  | canOnlyDoWithEmptyBags
  | dontOwnThatItem
  | canEquipOnly1Quiver
  | mustPurchaseThatBagSlot
  | youAreStunned
  | youAreDead
  | cantDoRightNow
  | canEquipOnly1Ammopouch
  | alreadyLooted
  | inventoryFull
  | bankFull
  | notInCombat
  | itemUniqueEquipable
  | notDuringArenaMatch
  /-- What `CanUseItem` refuses with. -/
  | cantUse
deriving DecidableEq, Repr

inductive InventoryType
  | nonEquip | head | neck | shoulders | body | chest | waist | legs | feet | wrists
  | hands | finger | trinket | weapon | shield | ranged | cloak | twoHandWeapon | bag
  | tabard | robe | weaponMainhand | weaponOffhand | holdable | ammo | thrown
  | rangedRight | quiver | relic
deriving DecidableEq, Repr

/-- The classes the inventory code asks for. -/
inductive ItemClass
  | container | weapon | projectile | quiver | other
deriving DecidableEq, Repr

inductive Bonding
  | noBind | whenPickedUp | whenEquiped | whenUse | questItem | questItem1
deriving DecidableEq, Repr

def itemSubclassContainer : Nat := 0
def itemSubclassSoulContainer : Nat := 1
def itemSubclassHerbContainer : Nat := 2
def itemSubclassEnchantingContainer : Nat := 3
def itemSubclassEngineeringContainer : Nat := 4
def itemSubclassGemContainer : Nat := 5
def itemSubclassMiningContainer : Nat := 6
def itemSubclassLeatherworkingContainer : Nat := 7

def itemSubclassQuiver : Nat := 2
def itemSubclassAmmoPouch : Nat := 3

def bagFamilyMaskArrows : Nat := 0x001
def bagFamilyMaskBullets : Nat := 0x002
def bagFamilyMaskSoulShards : Nat := 0x004
def bagFamilyMaskLeatherworkingSupp : Nat := 0x008
def bagFamilyMaskHerbs : Nat := 0x020
def bagFamilyMaskEnchantingSupp : Nat := 0x040
def bagFamilyMaskEngineeringSupp : Nat := 0x080
def bagFamilyMaskKeys : Nat := 0x100
def bagFamilyMaskGems : Nat := 0x200
def bagFamilyMaskMiningSupp : Nat := 0x400

def maxBagSize : Nat := 36

structure ItemTemplate where
  itemId : Nat
  itemClass : ItemClass
  subClass : Nat
  inventoryType : InventoryType
  bagFamily : Nat
  maxCount : Nat
  stackable : Nat
  containerSlots : Nat
  bonding : Bonding
  uniqueEquipped : Bool
  gemProperties : Nat
  /-- `Socket[0].Color`. -/
  socketColor : Nat
  maxCount_lt : maxCount < 2 ^ 16
  stackable_lt : stackable < 2 ^ 16
  containerSlots_le : containerSlots ≤ maxBagSize

/-- `ItemTemplate::GetMaxStackSize`. -/
def ItemTemplate.getMaxStackSize (t : ItemTemplate) : Nat :=
  if t.stackable = 2147483647 ∨ t.stackable = 0 then 0x7FFFFFFF - 1 else t.stackable

/-- `ItemTemplate::CanChangeEquipStateInCombat`. -/
def ItemTemplate.canChangeEquipStateInCombat (t : ItemTemplate) : Bool :=
  match t.inventoryType with
  | .relic => true
  | .shield => true
  | .holdable => true
  | _ =>
      match t.itemClass with
      | .weapon => true
      | .projectile => true
      | _ => false

/-- The template store: a template for every entry, and which entries exist. -/
structure ObjectMgr where
  proto : Nat → ItemTemplate
  known : Nat → Bool
  itemId_proto : ∀ e, (proto e).itemId = e

/-- `ObjectMgr::GetItemTemplate`. -/
def ObjectMgr.getItemTemplate (mgr : ObjectMgr) (entry : Nat) : Option ItemTemplate :=
  if mgr.known entry then some (mgr.proto entry) else none

abbrev ItemRef := Nat

structure Pos where
  bag : Nat
  slot : Nat
deriving DecidableEq, Repr

structure Item where
  entry : Nat
  count : Nat
  /-- The slots of a bag; empty for every other item. -/
  bagslot : Nat → Option ItemRef
  slot : Nat
  container : Option ItemRef
  owner : Nat
  soulBound : Bool
  lootGenerated : Bool
  inTrade : Bool
  /-- The gems behind the socket enchantments. -/
  gemIds : List Nat

/-- The item objects. References below `next` have been given out. -/
structure Objects where
  item : ItemRef → Item
  next : ItemRef

structure Player where
  guid : Nat
  items : Nat → Option ItemRef

def nullBag : Nat := 0
def nullSlot : Nat := 255
def inventorySlotBag0 : Nat := 255
def equipmentSlotEnd : Nat := 19
def equipmentSlotMainhand : Nat := 15
def equipmentSlotOffhand : Nat := 16
def equipmentSlotRanged : Nat := 17
def inventorySlotBagStart : Nat := 19
def inventorySlotBagEnd : Nat := 23
def inventorySlotItemStart : Nat := 23
def inventorySlotItemEnd : Nat := 39
def bankSlotItemStart : Nat := 39
def bankSlotItemEnd : Nat := 67
def bankSlotBagStart : Nat := 67
def bankSlotBagEnd : Nat := 74
def buybackSlotStart : Nat := 74
def buybackSlotEnd : Nat := 86
def keyringSlotStart : Nat := 86
def keyringSlotEnd : Nat := 118
def playerSlotEnd : Nat := 118

/-- `Player::GetMaxKeyringSize`. -/
def getMaxKeyringSize : Nat := keyringSlotEnd - keyringSlotStart

def pow32 : Nat := 2 ^ 32

/-! ## Items -/

namespace Item

variable (mgr : ObjectMgr)

/-- `Item::GetTemplate`. -/
def template (i : Item) : ItemTemplate := mgr.proto i.entry

/-- `Item::IsBag`. -/
def isBag (i : Item) : Bool := decide ((i.template mgr).inventoryType = .bag)

/-- `Bag::GetBagSize`; an item that is no bag has no slots. -/
def getBagSize (i : Item) : Nat :=
  if i.isBag mgr then (i.template mgr).containerSlots else 0

/-- `Bag::GetItemByPos`. -/
def getItemByPos (i : Item) (slot : Nat) : Option ItemRef :=
  if slot < i.getBagSize mgr then i.bagslot slot else none

/-- `Bag::IsEmpty`. -/
def isEmpty (i : Item) : Bool :=
  (List.range (i.getBagSize mgr)).all fun j => (i.bagslot j).isNone

/-- `Item::GetGemCountWithID`. -/
def getGemCountWithID (i : Item) (gemId : Nat) : Nat := i.gemIds.count gemId

/-- `Item::IsBindedNotWith`. -/
def isBindedNotWith (i : Item) (guid : Nat) : Bool := i.soulBound && decide (i.owner ≠ guid)

end Item

/-! ## Positions -/

/-- The slots `first`, …, `last - 1`, as the `for` loops run through them. -/
def slotsFrom (first last : Nat) : List Nat := List.range' first (last - first)

@[simp] theorem mem_slotsFrom {first last j : Nat} :
    j ∈ slotsFrom first last ↔ first ≤ j ∧ j < last := by
  rw [slotsFrom, List.mem_range'_1]
  omega

theorem nodup_slotsFrom (first last : Nat) : (slotsFrom first last).Nodup :=
  List.nodup_range'

namespace Pos

/-- `Player::IsInventoryPos`. -/
def isInventoryPos (pos : Pos) : Bool :=
  (pos.bag = inventorySlotBag0 && pos.slot = nullSlot) ||
  (pos.bag = inventorySlotBag0 &&
    (inventorySlotItemStart ≤ pos.slot && pos.slot < inventorySlotItemEnd)) ||
  (inventorySlotBagStart ≤ pos.bag && pos.bag < inventorySlotBagEnd) ||
  (pos.bag = inventorySlotBag0 &&
    (keyringSlotStart ≤ pos.slot && pos.slot < keyringSlotEnd))

/-- `Player::IsEquipmentPos`. -/
def isEquipmentPos (pos : Pos) : Bool :=
  (pos.bag = inventorySlotBag0 && pos.slot < equipmentSlotEnd) ||
  (pos.bag = inventorySlotBag0 &&
    (inventorySlotBagStart ≤ pos.slot && pos.slot < inventorySlotBagEnd))

/-- `Player::IsBankPos`. -/
def isBankPos (pos : Pos) : Bool :=
  (pos.bag = inventorySlotBag0 &&
    (bankSlotItemStart ≤ pos.slot && pos.slot < bankSlotItemEnd)) ||
  (pos.bag = inventorySlotBag0 &&
    (bankSlotBagStart ≤ pos.slot && pos.slot < bankSlotBagEnd)) ||
  (bankSlotBagStart ≤ pos.bag && pos.bag < bankSlotBagEnd)

/-- `Player::IsBagPos`. -/
def isBagPos (pos : Pos) : Bool :=
  (pos.bag = inventorySlotBag0 &&
    (inventorySlotBagStart ≤ pos.slot && pos.slot < inventorySlotBagEnd)) ||
  (pos.bag = inventorySlotBag0 &&
    (bankSlotBagStart ≤ pos.slot && pos.slot < bankSlotBagEnd))

end Pos

/-- The slots of the player in which a bag is worn. -/
def isBagSlot (bag : Nat) : Bool :=
  (inventorySlotBagStart ≤ bag && bag < inventorySlotBagEnd) ||
  (bankSlotBagStart ≤ bag && bag < bankSlotBagEnd)

/-- The slots of the player `GetItemByPos` looks into. -/
def isOwnSlot (slot : Nat) : Bool :=
  slot < bankSlotBagEnd || (keyringSlotStart ≤ slot && slot < keyringSlotEnd)

namespace Player

variable (mgr : ObjectMgr) (o : Objects) (p : Player)

/-- `GetItemByPos(INVENTORY_SLOT_BAG_0, slot)`. -/
def getOwnItem (slot : Nat) : Option ItemRef :=
  if isOwnSlot slot then p.items slot else none

/-- `Player::GetItemByPos`. -/
def getItemByPos (pos : Pos) : Option ItemRef :=
  if pos.bag = inventorySlotBag0 then p.getOwnItem pos.slot
  else if isBagSlot pos.bag then
    match p.getOwnItem pos.bag with
    | none => none
    | some bag => (o.item bag).getItemByPos mgr pos.slot
  else none

/-- `Player::IsValidPos`. -/
def isValidPos (pos : Pos) : Bool :=
  if pos.bag = nullBag then true
  else if pos.bag = inventorySlotBag0 then
    decide (pos.slot = nullSlot) || decide (pos.slot < equipmentSlotEnd) ||
    (decide (inventorySlotBagStart ≤ pos.slot) && decide (pos.slot < inventorySlotBagEnd)) ||
    (decide (inventorySlotItemStart ≤ pos.slot) && decide (pos.slot < inventorySlotItemEnd)) ||
    (decide (keyringSlotStart ≤ pos.slot) && decide (pos.slot < keyringSlotEnd)) ||
    (decide (bankSlotItemStart ≤ pos.slot) && decide (pos.slot < bankSlotItemEnd)) ||
    decide (pos.slot < bankSlotBagEnd)
  else if isBagSlot pos.bag then
    match p.getOwnItem pos.bag with
    | none => false
    | some bag =>
        decide (pos.slot = nullSlot) || decide (pos.slot < (o.item bag).getBagSize mgr)
  else false

end Player

/-! ## Counting -/

namespace Objects

variable (o : Objects) (entry : Nat) (skipItem : Option ItemRef)

/-- What a slot adds to the count of an entry. -/
def stackCount (slot : Option ItemRef) : Nat :=
  match slot with
  | none => 0
  | some r => if slot ≠ skipItem ∧ (o.item r).entry = entry then (o.item r).count else 0

/-- What a slot adds to it when the entry is a gem. -/
def gemCount (mgr : ObjectMgr) (slot : Option ItemRef) : Nat :=
  match slot with
  | none => 0
  | some r =>
      if slot ≠ skipItem ∧ ((o.item r).template mgr).socketColor ≠ 0 then
        (o.item r).getGemCountWithID entry
      else 0

/-- Whether the item left out of the count is a gem. -/
def skipsGem (mgr : ObjectMgr) : Bool :=
  match skipItem with
  | none => false
  | some r => decide (((o.item r).template mgr).gemProperties ≠ 0)

/-- `Bag::GetItemCount`. -/
def getBagItemCount (mgr : ObjectMgr) (bag : Option ItemRef) : Nat :=
  match bag with
  | none => 0
  | some b =>
      let slots := (List.range ((o.item b).getBagSize mgr)).map (o.item b).bagslot
      (slots.map (o.stackCount entry skipItem)).sum +
        if o.skipsGem skipItem mgr then (slots.map (o.gemCount entry skipItem mgr)).sum else 0

end Objects

namespace Player

variable (mgr : ObjectMgr) (o : Objects) (p : Player)

/-- `Player::GetItemCount` before it is cut to 32 bits. -/
def itemTotal (item : Nat) (inBankAlso : Bool) (skipItem : Option ItemRef) : Nat :=
  let held := fun first last =>
    ((slotsFrom first last).map fun i => o.stackCount item skipItem (p.getOwnItem i)).sum
  let gems := fun first last =>
    if o.skipsGem skipItem mgr then
      ((slotsFrom first last).map fun i => o.gemCount item skipItem mgr (p.getOwnItem i)).sum
    else 0
  let bags := fun first last =>
    ((slotsFrom first last).map fun i => o.getBagItemCount item skipItem mgr (p.getOwnItem i)).sum
  held 0 inventorySlotItemEnd + held keyringSlotStart keyringSlotEnd +
    bags inventorySlotBagStart inventorySlotBagEnd + gems 0 inventorySlotItemEnd +
    if inBankAlso then
      held bankSlotItemStart bankSlotItemEnd + bags bankSlotBagStart bankSlotBagEnd +
        gems bankSlotItemStart bankSlotItemEnd
    else 0

/-- `Player::GetItemCount`. -/
def getItemCount (item : Nat) (inBankAlso : Bool) (skipItem : Option ItemRef) : Nat :=
  p.itemTotal mgr o item inBankAlso skipItem % pow32

end Player

/-- `ItemCanGoIntoBag`. -/
def itemCanGoIntoBag (pProto pBagProto : ItemTemplate) : Bool :=
  let family := fun mask => decide (pProto.bagFamily &&& mask ≠ 0)
  match pBagProto.itemClass with
  | .container =>
      if pBagProto.subClass = itemSubclassContainer then true
      else if pBagProto.subClass = itemSubclassSoulContainer then family bagFamilyMaskSoulShards
      else if pBagProto.subClass = itemSubclassHerbContainer then family bagFamilyMaskHerbs
      else if pBagProto.subClass = itemSubclassEnchantingContainer then
        family bagFamilyMaskEnchantingSupp
      else if pBagProto.subClass = itemSubclassMiningContainer then
        family bagFamilyMaskMiningSupp
      else if pBagProto.subClass = itemSubclassEngineeringContainer then
        family bagFamilyMaskEngineeringSupp
      else if pBagProto.subClass = itemSubclassGemContainer then family bagFamilyMaskGems
      else if pBagProto.subClass = itemSubclassLeatherworkingContainer then
        family bagFamilyMaskLeatherworkingSupp
      else false
  | .quiver =>
      if pBagProto.subClass = itemSubclassQuiver then family bagFamilyMaskArrows
      else if pBagProto.subClass = itemSubclassAmmoPouch then family bagFamilyMaskBullets
      else false
  | _ => false

/-- A bag for anything, as `_CanStoreItem_InBag` tells them from specialised ones. -/
def ItemTemplate.isPlainBag (t : ItemTemplate) : Bool :=
  decide (t.itemClass = .container ∧ t.subClass = itemSubclassContainer)

/-- An item of no family fits plain bags only. -/
theorem isPlainBag_of_itemCanGoIntoBag {pProto pBagProto : ItemTemplate}
    (h : itemCanGoIntoBag pProto pBagProto) (hf : pProto.bagFamily = 0) :
    pBagProto.isPlainBag := by
  unfold itemCanGoIntoBag at h
  simp only [hf, Nat.zero_and] at h
  cases hc : pBagProto.itemClass with
  | container =>
      rw [hc] at h
      by_cases hs : pBagProto.subClass = itemSubclassContainer
      · simp [ItemTemplate.isPlainBag, hc, hs]
      · simp [hs] at h
  | weapon => simp [hc] at h
  | projectile => simp [hc] at h
  | quiver => simp [hc] at h
  | other => simp [hc] at h

end Sunstrider.Inventory
