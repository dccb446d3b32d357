import Sunstrider.Inventory.CanStore

/-!
# Moving items

The functions of `Player` and `Bag` that change slots. A slot holds a reference
and the object records the slot in turn, so every move is two writes:
`RemoveItem` takes an item out of its slot and leaves the object in nobody's
hands, `StoreItem` carries out a plan of `_CanStoreItem`. All positions of a plan
but the last get a clone of the item; the item itself goes to the last one, and
where a stack lies there already it is merged into it and its object deleted.

An object that is deleted is marked `ITEM_REMOVED`; `removed` are the references
whose object is no more.
-/

namespace Sunstrider.Inventory

/-! ## Objects -/

namespace Item

variable (mgr : ObjectMgr)

/-- `Item::SetBinding`, as `_StoreItem` applies it to what it stores at `pos`. -/
def bindWhenStored (i : Item) (pos : Pos) : Item :=
  let bonding := (i.template mgr).bonding
  if bonding = .whenPickedUp ∨ bonding = .questItem ∨
      (bonding = .whenEquiped ∧ pos.isBagPos) then
    { i with soulBound := true }
  else i

end Item

namespace Objects

variable (mgr : ObjectMgr) (o : Objects)

def modify (r : ItemRef) (f : Item → Item) : Objects :=
  { o with item := Function.update o.item r (f (o.item r)) }

/-- `Bag::RemoveItem`. -/
def removeFromBag (pBag : ItemRef) (slot : Nat) : Objects :=
  let o :=
    match (o.item pBag).bagslot slot with
    | none => o
    | some r => o.modify r fun i => { i with container := none }
  o.modify pBag fun b => { b with bagslot := Function.update b.bagslot slot none }

/-- `Bag::StoreItem`. -/
def storeToBag (pBag : ItemRef) (slot : Nat) (pItem : ItemRef) : Objects :=
  if maxBagSize < slot then o
  else
    let o := o.modify pBag fun b =>
      { b with bagslot := Function.update b.bagslot slot (some pItem) }
    o.modify pItem fun i =>
      { i with owner := (o.item pBag).owner, container := some pBag, slot := slot }

/-- `Item::CloneItem`, with the reference of the clone. -/
def cloneItem (r : ItemRef) (count owner : Nat) : Option (Objects × ItemRef) :=
  if count < 1 then none
  else
    match mgr.getItemTemplate (o.item r).entry with
    | none => none
    | some pProto =>
        let clone : Item :=
          { entry := (o.item r).entry
            count := min count pProto.getMaxStackSize
            bagslot := fun _ => none
            slot := 0
            container := none
            owner := owner
            soulBound := (o.item r).soulBound
            lootGenerated := false
            inTrade := false
            gemIds := [] }
        some (⟨Function.update o.item o.next clone, o.next + 1⟩, o.next)

end Objects

/-! ## Slots -/

namespace Player

variable (mgr : ObjectMgr) (o : Objects) (p : Player)

def setSlot (slot : Nat) (r : Option ItemRef) : Player :=
  { p with items := Function.update p.items slot r }

end Player

/-- What the functions that move items work on. -/
structure Holdings where
  objects : Objects
  player : Player
  removed : ItemRef → Bool

namespace Holdings

variable (mgr : ObjectMgr) (h : Holdings)

def modify (r : ItemRef) (f : Item → Item) : Holdings :=
  { h with objects := h.objects.modify r f }

/-- `Player::RemoveItem`. -/
def removeItem (pos : Pos) : Holdings :=
  match h.player.getItemByPos mgr h.objects pos with
  | none => h
  | some pItem =>
      let h :=
        if pos.bag = inventorySlotBag0 then { h with player := h.player.setSlot pos.slot none }
        else
          match h.player.getOwnItem pos.bag with
          | none => h
          | some pBag => { h with objects := h.objects.removeFromBag pBag pos.slot }
      h.modify pItem fun i => { i with slot := nullSlot }

/-- `Player::_StoreItem`, with the item it returns. -/
def storeItem' (pos : Pos) (pItem : ItemRef) (count : Nat) (clone : Bool) :
    Holdings × Option ItemRef :=
  match h.player.getItemByPos mgr h.objects pos with
  | none =>
      let stored :=
        if clone then h.objects.cloneItem mgr pItem count h.player.guid
        else some (h.objects.modify pItem fun i => { i with count := count }, pItem)
      match stored with
      | none => (h, none)
      | some (o, pItem) =>
          let o := o.modify pItem fun i => i.bindWhenStored mgr pos
          if pos.bag = inventorySlotBag0 then
            let o := o.modify pItem fun i =>
              { i with owner := h.player.guid, slot := pos.slot, container := none }
            ({ h with objects := o, player := h.player.setSlot pos.slot (some pItem) }, some pItem)
          else
            match h.player.getOwnItem pos.bag with
            | none => ({ h with objects := o }, some pItem)
            | some pBag => ({ h with objects := o.storeToBag pBag pos.slot pItem }, some pItem)
  | some pItem2 =>
      let o := h.objects.modify pItem2 fun i =>
        { i.bindWhenStored mgr pos with count := add32 i.count count }
      if clone then ({ h with objects := o }, some pItem2)
      else
        let o := o.modify pItem fun i => { i with owner := h.player.guid }
        ({ h with objects := o, removed := Function.update h.removed pItem true }, some pItem2)

/-- `Player::StoreItem`. -/
def storeItem (h : Holdings) : List ItemPosCount → ItemRef → Holdings × Option ItemRef
  | [], pItem => (h, some pItem)
  | [e], pItem => h.storeItem' mgr e.pos pItem e.count false
  | e :: dest, pItem => storeItem (h.storeItem' mgr e.pos pItem e.count true).1 dest pItem

end Holdings

end Sunstrider.Inventory

/-!
## Destroying items

`DestroyItem` takes what is at a position out of the game; what is in a bag is to
go with it. `DestroyItemCount` is given an entry and a number and goes through six
ranges of slots with one running total: a stack that fits into what is still to
be destroyed goes whole, and the first that does not is cut and ends the function.
The loop bodies are the same but for the equipment, where `CanUnequipItem` may
keep an item; that function is a parameter here.

`DestroyItem` calls itself, and nothing bounds the calls when the slots an item
records are not the slot it is in. `depth` bounds them. Quest counters, packets,
enchantments and the database are left out.
-/

namespace Sunstrider.Inventory

namespace Item

/-- `Item::IsInBag`. -/
def isInBag (i : Item) : Bool := i.container.isSome

/-- `Item::IsEquipped`. -/
def isEquipped (i : Item) : Bool := !i.isInBag && decide (i.slot < equipmentSlotEnd)

end Item

namespace Holdings

variable (mgr : ObjectMgr)

/-- What is at a position. -/
def itemAt (h : Holdings) (pos : Pos) : Option ItemRef := h.player.getItemByPos mgr h.objects pos

/-- `DestroyItem` behind the contents: the slot is emptied and the object marked. -/
def destroyAlone (h : Holdings) (pos : Pos) (pItem : ItemRef) : Holdings :=
  let h :=
    if pos.bag = inventorySlotBag0 then { h with player := h.player.setSlot pos.slot none }
    else
      match h.player.getOwnItem pos.bag with
      | none => h
      | some pBag => { h with objects := h.objects.removeFromBag pBag pos.slot }
  let h := h.modify pItem fun i => { i with slot := nullSlot }
  { h with removed := Function.update h.removed pItem true }

/-- `Player::DestroyItem`. -/
def destroyItem : Nat → Holdings → Pos → Holdings
  | 0, h, _ => h
  | depth + 1, h, pos =>
      match h.itemAt mgr pos with
      | none => h
      | some pItem =>
          -- start from destroy contained items (only equipped bag can have its)
          let h :=
            if (h.objects.item pItem).isBag mgr ∧ (h.objects.item pItem).isEquipped then
              (List.range maxBagSize).foldl (fun h i => destroyItem depth h ⟨pos.slot, i⟩) h
            else h
          h.destroyAlone pos pItem

end Holdings

/-- A run of `DestroyItemCount`. -/
structure Destroying where
  holdings : Holdings
  remcount : Nat

namespace Destroying

variable (mgr : ObjectMgr) (depth item count : Nat)

/-- What a run ends with, by a return or behind the last loop. -/
def outcome : Except Holdings Destroying → Holdings
  | .ok s => s.holdings
  | .error h => h

/-- The body of the loops, at an item that may be destroyed; `.error` is a return. -/
def destroyStack (mayDestroy : Holdings → Bool) (pos : Pos) (pItem : Option ItemRef)
    (s : Destroying) : Except Holdings Destroying :=
  match pItem with
  | none => .ok s
  | some r =>
      let i := s.holdings.objects.item r
      if i.entry ≠ item then .ok s
      else if add32 i.count s.remcount ≤ count then
        if mayDestroy s.holdings then
          let remcount := add32 s.remcount i.count
          let h := s.holdings.destroyItem mgr depth pos
          if count ≤ remcount then .error h else .ok ⟨h, remcount⟩
        else .ok s
      else
        .error (s.holdings.modify r fun i =>
          { i with count := add32 (sub32 i.count count) s.remcount })

/-- A loop over slots of the player. -/
def destroyInSlots (mayDestroy : Holdings → Pos → Bool) (first last : Nat) (s : Destroying) :
    Except Holdings Destroying :=
  (slotsFrom first last).foldlM (fun s i =>
    let pos := ⟨inventorySlotBag0, i⟩
    s.destroyStack mgr depth item count (mayDestroy · pos) pos
      (s.holdings.player.getOwnItem i)) s

/-- A loop over the contents of the bag in a slot. -/
def destroyInBag (s : Destroying) (i : Nat) : Except Holdings Destroying :=
  match s.holdings.player.getOwnItem i with
  | none => .ok s
  | some pBag =>
      (List.range ((s.holdings.objects.item pBag).getBagSize mgr)).foldlM (fun s j =>
        s.destroyStack mgr depth item count (fun _ => true) ⟨i, j⟩
          ((s.holdings.objects.item pBag).getItemByPos mgr j)) s

/-- A loop over bags. -/
def destroyInBags (first last : Nat) (s : Destroying) : Except Holdings Destroying :=
  (slotsFrom first last).foldlM (destroyInBag mgr depth item count) s

end Destroying

/-- `Player::DestroyItemCount`. -/
def Holdings.destroyItemCount (mgr : ObjectMgr) (depth : Nat)
    (canUnequipItem : Holdings → Pos → InventoryResult) (h : Holdings) (item count : Nat)
    (unequipCheck inBankAlso : Bool) : Holdings :=
  let always : Holdings → Pos → Bool := fun _ _ => true
  let mayUnequip : Holdings → Pos → Bool := fun h pos =>
    !unequipCheck || decide (canUnequipItem h pos = .ok)
  let inSlots := Destroying.destroyInSlots mgr depth item count
  let inBags := Destroying.destroyInBags mgr depth item count
  Destroying.outcome do
    let s ← inSlots always inventorySlotItemStart inventorySlotItemEnd ⟨h, 0⟩
    let s ← inSlots always keyringSlotStart keyringSlotEnd s
    let s ← inBags inventorySlotBagStart inventorySlotBagEnd s
    let s ← inSlots mayUnequip 0 inventorySlotBagEnd s
    if inBankAlso then
      let s ← inSlots always bankSlotItemStart bankSlotItemEnd s
      inBags bankSlotBagStart bankSlotBagEnd s
    else
      return s

end Sunstrider.Inventory
