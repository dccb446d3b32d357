import Sunstrider.Inventory.Item

/-!
# Sold items

What a player sells goes to one of twelve buyback slots, from which he can have
it back for what he got. The slots are a range of the item array; three arrays of
update fields hold the identity, the price and the time of the sale, and
`m_currentBuybackSlot` is where the next item goes if that slot is free.

If it is not, `AddItemToBuyBackSlot` goes through the slots. It stops at a free
one, but what it noted there is overwritten right behind the loop by the oldest
of the slots it has seen so far, and whatever is in that slot is deleted.

The time is the length of the session in seconds and thirty hours, cut to 32
bits. Stored loot of a sold container and packets are left out.
-/

namespace Sunstrider.Inventory

/-- A player with what selling reads and writes. -/
structure SellingPlayer extends Player where
  /-- `PLAYER_FIELD_VENDORBUYBACK_SLOT_1` and the fields after it. -/
  vendorbuybackSlot : Nat → Option ItemRef
  buybackPrice : Nat → Nat
  buybackTimestamp : Nat → Nat
  currentBuybackSlot : Nat
  logintime : Int
  /-- Items set to `ITEM_REMOVED`, the last one first. -/
  removed : List ItemRef

/-- `SellPrice` of the template of an entry; there may be no template. -/
abbrev SellPrices := Nat → Option Nat

def buybackSlots : List Nat := slotsFrom buybackSlotStart buybackSlotEnd

namespace SellingPlayer

/-- Whoever logs in has sold nothing. -/
def login (guid : Nat) (items : Nat → Option ItemRef) (logintime : Int) : SellingPlayer where
  guid := guid
  items slot := if slot ∈ buybackSlots then none else items slot
  vendorbuybackSlot _ := none
  buybackPrice _ := 0
  buybackTimestamp _ := 0
  currentBuybackSlot := buybackSlotStart
  logintime := logintime
  removed := []

/-- The time a sale at `base` is recorded with. -/
def etime (player : SellingPlayer) (base : Int) : Nat :=
  ((base - player.logintime + 30 * 3600) % 2 ^ 32).toNat

/-- The loop of `AddItemToBuyBackSlot`, and what is behind it. -/
def oldestSlot (player : SellingPlayer) : List Nat → Nat → Nat → Nat
  | [], _, oldest => oldest
  | i :: slots, oldestTime, oldest =>
      match player.items i with
      -- `slot = i; break;`, and then `slot = oldest_slot`
      | none => oldest
      | some _ =>
          let iTime := player.buybackTimestamp (i - buybackSlotStart)
          if iTime < oldestTime then player.oldestSlot slots iTime i
          else player.oldestSlot slots oldestTime oldest

/-- Where `AddItemToBuyBackSlot` puts an item. -/
def slotForSold (player : SellingPlayer) : Nat :=
  match player.items player.currentBuybackSlot with
  | none => player.currentBuybackSlot
  | some _ =>
      player.oldestSlot (slotsFrom (buybackSlotStart + 1) buybackSlotEnd)
        (player.buybackTimestamp 0) buybackSlotStart

def removeItemFromBuyBackSlot (slot : Nat) (del : Bool) (player : SellingPlayer) :
    SellingPlayer :=
  if buybackSlotStart ≤ slot ∧ slot < buybackSlotEnd then
    let eslot := slot - buybackSlotStart
    let emptied : SellingPlayer :=
      { player with
        items := Function.update player.items slot none
        vendorbuybackSlot := Function.update player.vendorbuybackSlot eslot none
        buybackPrice := Function.update player.buybackPrice eslot 0
        buybackTimestamp := Function.update player.buybackTimestamp eslot 0
        removed :=
          match player.items slot with
          | some pItem => if del then pItem :: player.removed else player.removed
          | none => player.removed }
    -- if current backslot is filled set to now free slot
    match emptied.items emptied.currentBuybackSlot with
    | some _ => { emptied with currentBuybackSlot := slot }
    | none => emptied
  else
    player

def addItemToBuyBackSlot (sellPrice : SellPrices) (o : Objects) (base : Int)
    (pItem : Option ItemRef) (player : SellingPlayer) : SellingPlayer :=
  match pItem with
  | none => player
  | some pItem =>
      let slot := player.slotForSold
      let player := player.removeItemFromBuyBackSlot slot true
      let eslot := slot - buybackSlotStart
      let item := o.item pItem
      let price :=
        match sellPrice item.entry with
        | some price => price * item.count % pow32
        | none => 0
      { player with
        items := Function.update player.items slot (some pItem)
        vendorbuybackSlot := Function.update player.vendorbuybackSlot eslot (some pItem)
        buybackPrice := Function.update player.buybackPrice eslot price
        buybackTimestamp := Function.update player.buybackTimestamp eslot (player.etime base)
        currentBuybackSlot :=
          if player.currentBuybackSlot < buybackSlotEnd - 1 then player.currentBuybackSlot + 1
          else player.currentBuybackSlot }

end SellingPlayer

end Sunstrider.Inventory
