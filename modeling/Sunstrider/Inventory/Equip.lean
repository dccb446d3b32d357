import Sunstrider.Inventory.Store
import Sunstrider.Lib.EarlyReturn

/-!
# The bank and what is worn

`CanBankItem` is `_CanStoreItem` again over the slots of the bank, with fewer
questions before it; it tells nobody how many items there is no space for, and that
part of an answer means nothing here. `CanEquipItem` finds the slot an item is worn in and checks
everything that may speak against it; what it asks of the player besides the items
is `Wearer`, with `CanUseItem` among it. A two-handed weapon leaves no hand for
what is in the off hand, and `AutoUnequipOffhandIfNeed` stores that away.
-/

namespace Sunstrider.Inventory

open Lib

/-- The classes `FindEquipSlot` tells apart. -/
inductive PlayerClass
  | paladin | druid | shaman | warlock | other
deriving DecidableEq, Repr

structure Wearer where
  hasUnitStateStunned : Bool
  isCharmed : Bool
  isInCombat : Bool
  /-- In an arena whose match is in progress. -/
  isArenaInProgress : Bool
  weaponChangeTimer : Nat
  canDualWield : Bool
  pClass : PlayerClass
  /-- `GetByteValue(PLAYER_BYTES_2, 2)`. -/
  bankBagSlotCount : Nat
  canUseItem : Item → InventoryResult

def equipmentSlotHead : Nat := 0
def equipmentSlotNeck : Nat := 1
def equipmentSlotShoulders : Nat := 2
def equipmentSlotBody : Nat := 3
def equipmentSlotChest : Nat := 4
def equipmentSlotWaist : Nat := 5
def equipmentSlotLegs : Nat := 6
def equipmentSlotFeet : Nat := 7
def equipmentSlotWrists : Nat := 8
def equipmentSlotHands : Nat := 9
def equipmentSlotFinger1 : Nat := 10
def equipmentSlotFinger2 : Nat := 11
def equipmentSlotTrinket1 : Nat := 12
def equipmentSlotTrinket2 : Nat := 13
def equipmentSlotBack : Nat := 14
def equipmentSlotTabard : Nat := 18

def itemSubclassArmorMisc : Nat := 0
def itemSubclassArmorLibram : Nat := 7
def itemSubclassArmorIdol : Nat := 8
def itemSubclassArmorTotem : Nat := 9

section Checks

variable (mgr : ObjectMgr) (w : Wearer) (o : Objects) (p : Player)

/-- `Player::HasBankBagSlot`. -/
def Wearer.hasBankBagSlot (slot : Nat) : Bool :=
  decide (slot < w.bankBagSlotCount + bankSlotBagStart)

/-! ## The bank -/

/-- The searches of `CanBankItem` in a slot named by the caller. -/
def bankInSlot (pos : Pos) (pProto : ItemTemplate) (pItem : ItemRef) (swap : Bool) :
    SearchStep := fun s =>
  let isBagSlot := decide (bankSlotBagStart ≤ pos.slot ∧ pos.slot < bankSlotBagEnd)
  let refuse := fun res => Except.error (StoreAnswer.mk res s.dest none)
  let search := afterSearch 0
    (canStoreItemInSpecificSlot mgr o p pos pProto swap (some pItem))
  if pProto.inventoryType = .bag then
    if isBagSlot then
      if !w.hasBankBagSlot pos.slot then refuse .mustPurchaseThatBagSlot
      else if w.canUseItem (o.item pItem) ≠ .ok then refuse (w.canUseItem (o.item pItem))
      else search s
    else if !(o.item pItem).isEmpty mgr then refuse .nonemptyBagOverOtherBag
    else search s
  else if isBagSlot then refuse .itemDoesntGoToSlot
  else search s

/-- Those in a bag named by the caller. -/
def bankInBag (bag slot : Nat) (pProto : ItemTemplate) (pItem : ItemRef) : SearchStep :=
  let inSlots := fun merge => afterSearch 0
    (canStoreItemInInventorySlots mgr o p bankSlotItemStart bankSlotItemEnd pProto merge
      (some pItem) bag slot)
  let inBag := fun merge => afterSearch 0
    (searchNamedBag mgr o p bag pProto merge (some pItem) slot)
  let search := fun merge => if bag = inventorySlotBag0 then inSlots merge else inBag merge
  fun s =>
    if pProto.inventoryType = .bag ∧ !(o.item pItem).isEmpty mgr then
      .error ⟨.nonemptyBagOverOtherBag, s.dest, none⟩
    else (stepIf (1 < pProto.stackable) (search true) >=> search false) s

/-- Those anywhere in the bank, for stacks to merge to. -/
def bankByMerging (bag slot : Nat) (pProto : ItemTemplate) (pItem : ItemRef) : SearchStep :=
  let inBags := fun nonSpecialized =>
    searchBags mgr o p pProto true nonSpecialized (some pItem) bag slot 0
      (slotsFrom bankSlotBagStart bankSlotBagEnd)
  afterSearch 0 (canStoreItemInInventorySlots mgr o p bankSlotItemStart bankSlotItemEnd pProto
    true (some pItem) bag slot) >=>
  stepIf (pProto.bagFamily ≠ 0) (inBags false) >=>
  inBags true

/-- And for a free slot. -/
def bankInFreeSlots (bag slot : Nat) (pProto : ItemTemplate) (pItem : ItemRef) : SearchStep :=
  let inBags := fun nonSpecialized =>
    searchBags mgr o p pProto false nonSpecialized (some pItem) bag slot 0
      (slotsFrom bankSlotBagStart bankSlotBagEnd)
  stepIf (pProto.bagFamily ≠ 0) (inBags false) >=>
  afterSearch 0 (canStoreItemInInventorySlots mgr o p bankSlotItemStart bankSlotItemEnd pProto
    false (some pItem) bag slot) >=>
  inBags true

def bankSearches (pos : Pos) (pProto : ItemTemplate) (pItem : ItemRef) (swap : Bool) :
    SearchStep :=
  stepIf (pos.bag ≠ nullBag ∧ pos.slot ≠ nullSlot)
    (bankInSlot mgr w o p pos pProto pItem swap) >=>
  stepIf (pos.bag ≠ nullBag) (bankInBag mgr o p pos.bag pos.slot pProto pItem) >=>
  stepIf (1 < pProto.stackable) (bankByMerging mgr o p pos.bag pos.slot pProto pItem) >=>
  bankInFreeSlots mgr o p pos.bag pos.slot pProto pItem

/-- `Player::CanBankItem`. -/
def canBankItem (pos : Pos) (pItem : ItemRef) (swap : Bool) : StoreAnswer :=
  let i := o.item pItem
  if i.isBindedNotWith p.guid then ⟨.dontOwnThatItem, [], none⟩
  else
    let res := canTakeMoreSimilarItems mgr o p pItem
    if res ≠ .ok then ⟨res, [], none⟩
    else
      answerOf 0 .bankFull
        (bankSearches mgr w o p pos (i.template mgr) pItem swap ⟨[], i.count⟩)

/-! ## Wearing -/

/-- The slots an item can be worn in, by its inventory type. -/
def equipSlots (proto : ItemTemplate) : List Nat :=
  match proto.inventoryType with
  | .head => [equipmentSlotHead]
  | .neck => [equipmentSlotNeck]
  | .shoulders => [equipmentSlotShoulders]
  | .body => [equipmentSlotBody]
  | .chest => [equipmentSlotChest]
  | .robe => [equipmentSlotChest]
  | .waist => [equipmentSlotWaist]
  | .legs => [equipmentSlotLegs]
  | .feet => [equipmentSlotFeet]
  | .wrists => [equipmentSlotWrists]
  | .hands => [equipmentSlotHands]
  | .finger => [equipmentSlotFinger1, equipmentSlotFinger2]
  | .trinket => [equipmentSlotTrinket1, equipmentSlotTrinket2]
  | .cloak => [equipmentSlotBack]
  | .weapon =>
      if w.canDualWield then [equipmentSlotMainhand, equipmentSlotOffhand]
      else [equipmentSlotMainhand]
  | .shield => [equipmentSlotOffhand]
  | .ranged => [equipmentSlotRanged]
  | .twoHandWeapon => [equipmentSlotMainhand]
  | .tabard => [equipmentSlotTabard]
  | .weaponMainhand => [equipmentSlotMainhand]
  | .weaponOffhand => [equipmentSlotOffhand]
  | .holdable => [equipmentSlotOffhand]
  | .thrown => [equipmentSlotRanged]
  | .rangedRight => [equipmentSlotRanged]
  | .bag => slotsFrom inventorySlotBagStart inventorySlotBagEnd
  | .relic =>
      if (proto.subClass = itemSubclassArmorLibram ∧ w.pClass = .paladin) ∨
          (proto.subClass = itemSubclassArmorIdol ∧ w.pClass = .druid) ∨
          (proto.subClass = itemSubclassArmorTotem ∧ w.pClass = .shaman) ∨
          (proto.subClass = itemSubclassArmorMisc ∧ w.pClass = .warlock) then
        [equipmentSlotRanged]
      else []
  | _ => []

/-- Whether the main hand holds a two-handed weapon. -/
def holdsTwoHandWeapon : Bool :=
  match p.getOwnItem equipmentSlotMainhand with
  | none => false
  | some mainItem =>
      decide (((o.item mainItem).template mgr).inventoryType = .twoHandWeapon)

/-- `Player::FindEquipSlot`. -/
def findEquipSlot (proto : ItemTemplate) (slot : Nat) (swap : Bool) : Nat :=
  let slots := equipSlots w proto
  if slot ≠ nullSlot then
    if (swap || (p.getOwnItem slot).isNone) && slots.contains slot then slot else nullSlot
  else
    -- search free slot at first
    let free := slots.find? fun slot => (p.getOwnItem slot).isNone &&
      (slot ≠ equipmentSlotOffhand || !holdsTwoHandWeapon mgr o p)
    match free with
    | some slot => slot
    | none => if swap then slots.headD nullSlot else nullSlot

/-- `Player::GetItemOrItemWithGemEquipped`. -/
def getItemOrItemWithGemEquipped (item : Nat) : Option ItemRef :=
  let worn := (slotsFrom 0 equipmentSlotEnd).filterMap p.getOwnItem
  match worn.find? fun r => (o.item r).entry = item with
  | some r => some r
  | none =>
      match mgr.getItemTemplate item with
      | none => none
      | some pProto =>
          if pProto.gemProperties ≠ 0 then
            worn.find? fun r => ((o.item r).template mgr).socketColor ≠ 0 &&
              decide (0 < (o.item r).getGemCountWithID item)
          else none

/-- `Player::CanUnequipItem`. -/
def canUnequipItem (pos : Pos) (swap : Bool) : InventoryResult :=
  if !pos.isEquipmentPos && !pos.isBagPos then .ok
  else
    match p.getItemByPos mgr o pos with
    | none => .ok
    | some pItem =>
        let pProto := (o.item pItem).template mgr
        if w.isCharmed then .cantDoRightNow
        else if !pProto.canChangeEquipStateInCombat && w.isInCombat then .notInCombat
        else if !pProto.canChangeEquipStateInCombat && w.isArenaInProgress then
          .notDuringArenaMatch
        else if !swap && (o.item pItem).isBag mgr && !(o.item pItem).isEmpty mgr then
          .canOnlyDoWithEmptyBags
        else .ok

/-- The item or the gem may be worn once only, and is worn elsewhere than in `eslot`. -/
def isWornElsewhere (entry eslot : Nat) (swap : Bool) : Bool :=
  match getItemOrItemWithGemEquipped mgr o p entry with
  | none => false
  | some tItem => !swap || decide ((o.item tItem).slot ≠ eslot)

/-- The first worn quiver or pouch, other than the one in `eslot`. -/
def otherQuiver (eslot : Nat) (swap : Bool) : Option ItemRef :=
  ((slotsFrom inventorySlotBagStart inventorySlotBagEnd).filterMap p.getOwnItem).find? fun r =>
    ((o.item r).template mgr).itemClass = .quiver &&
      (!swap || decide ((o.item r).slot ≠ eslot))

/-- `Player::CanEquipItem`: the position, or why not. -/
def canEquipItem (slot : Nat) (pItem : ItemRef) (swap notLoading : Bool) :
    Except InventoryResult Pos := do
  let i := o.item pItem
  let pProto := i.template mgr
  require (¬ i.isBindedNotWith p.guid) .dontOwnThatItem
  let res := canTakeMoreSimilarItems mgr o p pItem
  require (res = .ok) res
  require (¬ (notLoading ∧ w.hasUnitStateStunned)) .youAreStunned
  require (¬ (notLoading ∧ w.isCharmed)) .cantDoRightNow
  require (¬ (notLoading ∧ !pProto.canChangeEquipStateInCombat ∧ w.isInCombat)) .notInCombat
  require (¬ (notLoading ∧ !pProto.canChangeEquipStateInCombat ∧ w.isArenaInProgress))
    .notDuringArenaMatch
  require (¬ (notLoading ∧ w.isInCombat ∧ pProto.itemClass = .weapon ∧
    w.weaponChangeTimer ≠ 0)) .cantDoRightNow
  let eslot := findEquipSlot mgr w o p pProto slot swap
  require (eslot ≠ nullSlot) .itemCantBeEquipped
  require (w.canUseItem i = .ok) (w.canUseItem i)
  require (¬ (!swap ∧ (p.getOwnItem eslot).isSome)) .noEquipmentSlotAvailable
  require (¬ (pProto.uniqueEquipped ∧ isWornElsewhere mgr o p pProto.itemId eslot swap))
    .itemUniqueEquipable
  require (∀ gem ∈ i.gemIds, ¬ ((mgr.getItemTemplate gem).any (·.uniqueEquipped) ∧
    isWornElsewhere mgr o p gem eslot swap)) .itemUniqueEquipable
  match if pProto.itemClass = .quiver then otherQuiver mgr o p eslot swap else none with
  | some pBag =>
      if ((o.item pBag).template mgr).subClass = itemSubclassAmmoPouch then
        throw .canEquipOnly1Ammopouch
      else throw .canEquipOnly1Quiver
  | none => pure ()
  require (¬ (eslot = equipmentSlotOffhand ∧ (pProto.inventoryType = .weapon ∨
    pProto.inventoryType = .weaponOffhand) ∧ !w.canDualWield)) .cantDualWield
  require (¬ (eslot = equipmentSlotOffhand ∧ holdsTwoHandWeapon mgr o p))
    .cantEquipWithTwohanded
  require (¬ (pProto.inventoryType = .twoHandWeapon ∧ eslot ≠ equipmentSlotMainhand))
    .itemCantBeEquipped
  -- offhand item must can be stored in inventory for offhand item and it also must be unequipped
  match p.getOwnItem equipmentSlotOffhand with
  | some offItem =>
      require (¬ (pProto.inventoryType = .twoHandWeapon ∧ (!notLoading ∨
        canUnequipItem mgr w o p ⟨inventorySlotBag0, equipmentSlotOffhand⟩ false ≠ .ok ∨
        (canStoreItem mgr o p ⟨nullBag, nullSlot⟩ offItem false).res ≠ .ok)))
        (if swap then .itemsCantBeSwapped else .inventoryFull)
  | none => pure ()
  return ⟨inventorySlotBag0, eslot⟩

end Checks

namespace Holdings

variable (mgr : ObjectMgr) (h : Holdings)

/-- `Player::VisualizeItem`. -/
def visualizeItem (slot : Nat) (pItem : ItemRef) : Holdings :=
  let bonding := ((h.objects.item pItem).template mgr).bonding
  let bound := decide (bonding = .whenEquiped ∨ bonding = .whenPickedUp ∨ bonding = .questItem)
  { h with
    objects := h.objects.modify pItem fun i =>
      { i with
        soulBound := i.soulBound || bound, owner := h.player.guid, slot := slot
        container := none }
    player := h.player.setSlot slot (some pItem) }

/-- `Player::EquipItem`. -/
def equipItem (pos : Pos) (pItem : ItemRef) : Holdings :=
  match h.player.getItemByPos mgr h.objects pos with
  | none => h.visualizeItem mgr pos.slot pItem
  | some pItem2 =>
      let o := h.objects.modify pItem2 fun i =>
        { i with count := add32 i.count (h.objects.item pItem).count }
      let o := o.modify pItem fun i => { i with owner := h.player.guid }
      { h with objects := o, removed := Function.update h.removed pItem true }

/-- `Player::AutoUnequipOffhandIfNeed`. -/
def autoUnequipOffhandIfNeed : Holdings :=
  match h.player.getOwnItem equipmentSlotOffhand with
  | none => h
  | some offItem =>
      if !holdsTwoHandWeapon mgr h.objects h.player then h
      else
        let off := canStoreItem mgr h.objects h.player ⟨nullBag, nullSlot⟩ offItem false
        if off.res = .ok then
          ((h.removeItem mgr ⟨inventorySlotBag0, equipmentSlotOffhand⟩).storeItem mgr off.dest
            offItem).1
        else h

end Holdings

end Sunstrider.Inventory

/-!
## Splitting a stack

`SplitItem` makes a new item of part of a stack and stores, banks or equips it,
according to the kind of position it is to go to. The stack is made smaller before
the check, so that the units do not count twice, and larger again where the check
fails; the new item is deleted then. For a position of none of the three kinds,
which is one in bag 0, the new item is made and left alone.
-/

namespace Sunstrider.Inventory

namespace Holdings

variable (mgr : ObjectMgr) (w : Wearer) (h : Holdings)

/-- The end of a branch of `SplitItem` in which the check refused the new item. -/
def unsplit (pSrcItem pNewItem : ItemRef) (count : Nat) (msg : InventoryResult) :
    Holdings × Option InventoryResult :=
  let h := { h with removed := Function.update h.removed pNewItem true }
  (h.modify pSrcItem fun i => { i with count := add32 i.count count }, some msg)

/-- `Player::SplitItem`, with the equip error it sends. -/
def splitItem (src dst : Pos) (count : Nat) : Holdings × Option InventoryResult :=
  match h.player.getItemByPos mgr h.objects src with
  | none => (h, some .itemNotFound)
  | some pSrcItem =>
      -- not let split all items (can be only at cheating)
      if (h.objects.item pSrcItem).count = count then (h, some .couldntSplitItems)
      else if (h.objects.item pSrcItem).count < count then (h, some .triedToSplitMoreThanCount)
      else if (h.objects.item pSrcItem).lootGenerated then (h, some .couldntSplitItems)
      else
        match h.objects.cloneItem mgr pSrcItem count h.player.guid with
        | none => (h, some .itemNotFound)
        | some (o, pNewItem) =>
            let h := { h with objects := o }
            -- change item amount before check (for unique max count check)
            let less := h.modify pSrcItem fun i => { i with count := sub32 i.count count }
            if dst.isInventoryPos then
              let a := canStoreItem mgr less.objects less.player dst pNewItem false
              if a.res ≠ .ok then less.unsplit pSrcItem pNewItem count a.res
              else ((less.storeItem mgr a.dest pNewItem).1, none)
            else if dst.isBankPos then
              let a := canBankItem mgr w less.objects less.player dst pNewItem false
              if a.res ≠ .ok then less.unsplit pSrcItem pNewItem count a.res
              else ((less.storeItem mgr a.dest pNewItem).1, none)
            else if dst.isEquipmentPos then
              match canEquipItem mgr w less.objects less.player dst.slot pNewItem false true with
              | .error msg => less.unsplit pSrcItem pNewItem count msg
              | .ok dest => ((less.equipItem mgr dest pNewItem).autoUnequipOffhandIfNeed mgr, none)
            else (h, none)

/-- `WorldSession::HandleSplitItemOpcode`. -/
def handleSplitItemOpcode (src dst : Pos) (count : Nat) : Holdings × Option InventoryResult :=
  if src = dst then (h, none)
  else if count = 0 then (h, none)
  else if !h.player.isValidPos mgr h.objects src then (h, some .itemNotFound)
  else if !h.player.isValidPos mgr h.objects dst then (h, some .itemDoesntGoToSlot)
  else h.splitItem mgr w src dst count

end Holdings

end Sunstrider.Inventory
