import Sunstrider.Inventory.Item

/-!
# Finding room for an item

`_CanStoreItem` plans where an item would go without moving anything. It runs a
sequence of searches over ranges of slots; each search hands out positions with
a share of the count and stops when nothing is left. First come stacks of the
same entry that are not full, then empty slots, each time the keyring, special
bags, the backpack and plain bags. The block of code after every search is the
same throughout and is `afterSearch` here: it ends the function when the search
failed or nothing is left to place, otherwise the next search goes on.

A share is stored in eight bits, the count it is subtracted from has 32.
`no_space_count` is an output the code leaves alone when it answers `ok`.
-/

namespace Sunstrider.Inventory

/-- A position and how many items go there. -/
structure ItemPosCount where
  pos : Pos
  count : Nat
deriving DecidableEq, Repr

/-- The constructor of `ItemPosCount`, whose second parameter is a `uint8`. -/
def ItemPosCount.of (pos : Pos) (count : Nat) : ItemPosCount := ⟨pos, count % 256⟩

/-- `ItemPosCount::isContainedIn`. -/
def isContainedIn (pos : Pos) (dest : List ItemPosCount) : Bool :=
  dest.any fun e => decide (e.pos = pos)

def add32 (a b : Nat) : Nat := (a + b) % pow32

def sub32 (a b : Nat) : Nat := (a + (pow32 - b % pow32)) % pow32

/-- What the searches share by reference: the plan so far and what is left. -/
structure Search where
  dest : List ItemPosCount
  count : Nat
deriving DecidableEq, Repr

/-- The answer of `_CanStoreItem`. -/
structure StoreAnswer where
  res : InventoryResult
  dest : List ItemPosCount
  noSpaceCount : Option Nat
deriving DecidableEq, Repr

/-- Take `needSpace`, or what is left of the count, at `pos`, unless the plan
lists the position already. -/
def Search.take (s : Search) (pos : Pos) (needSpace : Nat) : Option Search :=
  let needSpace := if s.count < needSpace then s.count else needSpace
  if isContainedIn pos s.dest then none
  else some ⟨s.dest ++ [.of pos needSpace], s.count - needSpace⟩

section Searches

variable (mgr : ObjectMgr) (o : Objects) (p : Player)

/-- The item in a slot, not counting the one that is being moved: its slot will
be empty by then. -/
def slotItem (pSrcItem : Option ItemRef) (pos : Pos) : Option ItemRef :=
  let pItem2 := p.getItemByPos mgr o pos
  if pItem2 = pSrcItem then none else pItem2

/-- The space of a slot for items of the template; `none` for another item and
for a full stack. -/
def slotSpace (pProto : ItemTemplate) (pItem2 : Option ItemRef) : Option Nat :=
  match pItem2 with
  | none => some pProto.stackable
  | some r =>
      if (o.item r).entry = pProto.itemId ∧ (o.item r).count < pProto.stackable then
        some (pProto.stackable - (o.item r).count)
      else none

/-- The loop `_CanStoreItem_InBag` and `_CanStoreItem_InInventorySlots` share. -/
def searchSlots (pProto : ItemTemplate) (merge : Bool) (pSrcItem : Option ItemRef) (bag : Nat) :
    List Nat → Search → Search
  | [], s => s
  | j :: js, s =>
      let pItem2 := slotItem mgr o p pSrcItem ⟨bag, j⟩
      if pItem2.isSome ≠ merge then searchSlots pProto merge pSrcItem bag js s
      else
        match slotSpace o pProto pItem2 with
        | none => searchSlots pProto merge pSrcItem bag js s
        | some needSpace =>
            match s.take ⟨bag, j⟩ needSpace with
            | none => searchSlots pProto merge pSrcItem bag js s
            | some s =>
                if s.count = 0 then s else searchSlots pProto merge pSrcItem bag js s

/-- `Player::_CanStoreItem_InBag`. -/
def canStoreItemInBag (bag : Nat) (pProto : ItemTemplate) (merge nonSpecialized : Bool)
    (pSrcItem : Option ItemRef) (skipBag skipSlot : Nat) (s : Search) :
    InventoryResult × Search :=
  if bag = skipBag then (.itemDoesntGoIntoBag, s)
  else
    match p.getOwnItem bag with
    | none => (.itemDoesntGoIntoBag, s)
    | some pBag =>
        let pBagProto := (o.item pBag).template mgr
        if nonSpecialized ≠ pBagProto.isPlainBag then (.itemDoesntGoIntoBag, s)
        else if !itemCanGoIntoBag pProto pBagProto then (.itemDoesntGoIntoBag, s)
        else
          let slots := (List.range ((o.item pBag).getBagSize mgr)).filter (· ≠ skipSlot)
          (.ok, searchSlots mgr o p pProto merge pSrcItem bag slots s)

/-- `Player::_CanStoreItem_InInventorySlots`. -/
def canStoreItemInInventorySlots (slotBegin slotEnd : Nat) (pProto : ItemTemplate) (merge : Bool)
    (pSrcItem : Option ItemRef) (skipBag skipSlot : Nat) (s : Search) :
    InventoryResult × Search :=
  let slots := (slotsFrom slotBegin slotEnd).filter fun j =>
    ¬ (inventorySlotBag0 = skipBag ∧ j = skipSlot)
  (.ok, searchSlots mgr o p pProto merge pSrcItem inventorySlotBag0 slots s)

/-- `Player::_CanStoreItem_InSpecificSlot`. -/
def canStoreItemInSpecificSlot (pos : Pos) (pProto : ItemTemplate) (swap : Bool)
    (pSrcItem : Option ItemRef) (s : Search) : InventoryResult × Search :=
  let pItem2 := slotItem mgr o p pSrcItem pos
  let take := fun needSpace => (InventoryResult.ok, (s.take pos needSpace).getD s)
  -- empty specific slot, or one that will be: check item fit to slot
  let fit := fun (_ : Unit) =>
    if pos.bag = inventorySlotBag0 then
      if keyringSlotStart ≤ pos.slot ∧ pos.slot < keyringSlotStart + getMaxKeyringSize ∧
          pProto.bagFamily &&& bagFamilyMaskKeys = 0 then
        (.itemDoesntGoIntoBag, s)
      else if (buybackSlotStart ≤ pos.slot ∧ pos.slot < buybackSlotEnd) ∨
          playerSlotEnd ≤ pos.slot then
        (.itemDoesntGoIntoBag, s)
      else take pProto.stackable
    else
      match p.getOwnItem pos.bag with
      | none => (.itemDoesntGoIntoBag, s)
      | some pBag =>
          if !itemCanGoIntoBag pProto ((o.item pBag).template mgr) then
            (.itemDoesntGoIntoBag, s)
          else take pProto.stackable
  match pItem2 with
  | none => fit ()
  | some r =>
      if swap then fit ()
      else if (o.item r).entry ≠ pProto.itemId then (.itemCantStack, s)
      else if pProto.stackable ≤ (o.item r).count then (.itemCantStack, s)
      else take (pProto.stackable - (o.item r).count)

/-- `Player::_CanTakeMoreSimilarItems`: the answer and, where it says so, how
many are too many. -/
def canTakeMoreSimilarItems' (entry count : Nat) (pItem : Option ItemRef) :
    InventoryResult × Option Nat :=
  match mgr.getItemTemplate entry with
  | none => (.cantCarryMoreOfThis, some count)
  | some pProto =>
      if (pItem.map fun r => (o.item r).lootGenerated) = some true then (.alreadyLooted, none)
      else if pProto.maxCount = 0 then (.ok, none)
      else
        let curcount := p.getItemCount mgr o pProto.itemId true pItem
        if pProto.maxCount < add32 curcount count then
          (.cantCarryMoreOfThis, some (sub32 (add32 count curcount) pProto.maxCount))
        else (.ok, none)

/-- A part of `_CanStoreItem`: it goes on with what is left, or ends the
function with an answer. -/
abbrev SearchStep := Search → Except StoreAnswer Search

/-- A search and the block after it. -/
def afterSearch (noSimilarCount : Nat) (search : Search → InventoryResult × Search) :
    SearchStep := fun s =>
  let (res, s) := search s
  if res ≠ .ok then .error ⟨res, s.dest, some (add32 s.count noSimilarCount)⟩
  else if s.count = 0 then
    if noSimilarCount = 0 then .error ⟨.ok, s.dest, none⟩
    else .error ⟨.cantCarryMoreOfThis, s.dest, some (add32 s.count noSimilarCount)⟩
  else .ok s

/-- A part of the function under an `if`. -/
def stepIf (c : Prop) [Decidable c] (step : SearchStep) : SearchStep :=
  if c then step else .ok

/-- A loop over the bags in the given slots; a bag that will not take the item
is passed over. -/
def searchBags (pProto : ItemTemplate) (merge nonSpecialized : Bool) (pItem : Option ItemRef)
    (skipBag skipSlot noSimilarCount : Nat) : List Nat → SearchStep
  | [], s => .ok s
  | i :: is, s =>
      let search := canStoreItemInBag mgr o p i pProto merge nonSpecialized pItem skipBag skipSlot
      if (search s).1 ≠ .ok then
        searchBags pProto merge nonSpecialized pItem skipBag skipSlot noSimilarCount is s
      else
        afterSearch noSimilarCount search s >>=
          searchBags pProto merge nonSpecialized pItem skipBag skipSlot noSimilarCount is

/-- The two tries at a bag named by the caller, specialised first. -/
def searchNamedBag (bag : Nat) (pProto : ItemTemplate) (merge : Bool) (pItem : Option ItemRef)
    (skipSlot : Nat) (s : Search) : InventoryResult × Search :=
  let r := canStoreItemInBag mgr o p bag pProto merge false pItem nullBag skipSlot s
  if r.1 ≠ .ok then canStoreItemInBag mgr o p bag pProto merge true pItem nullBag skipSlot s
  else r

/-- The searches of `_CanStoreItem` in a bag named by the caller: stacks to merge
to, then a free slot. -/
def storeInBag (bag slot : Nat) (pProto : ItemTemplate) (pItem : Option ItemRef)
    (noSimilarCount : Nat) : SearchStep :=
  let inSlots := fun first last merge =>
    afterSearch noSimilarCount
      (canStoreItemInInventorySlots mgr o p first last pProto merge pItem bag slot)
  let inBag := fun merge =>
    afterSearch noSimilarCount (searchNamedBag mgr o p bag pProto merge pItem slot)
  if bag = inventorySlotBag0 then
    stepIf (1 < pProto.stackable)
      (inSlots keyringSlotStart keyringSlotEnd true >=>
        inSlots inventorySlotItemStart inventorySlotItemEnd true) >=>
    stepIf (pProto.bagFamily &&& bagFamilyMaskKeys ≠ 0)
      (inSlots keyringSlotStart (keyringSlotStart + getMaxKeyringSize) false) >=>
    inSlots inventorySlotItemStart inventorySlotItemEnd false
  else
    stepIf (1 < pProto.stackable) (inBag true) >=> inBag false

/-- The search of `_CanStoreItem` for stacks to merge to, anywhere. -/
def storeByMerging (bag slot : Nat) (pProto : ItemTemplate) (pItem : Option ItemRef)
    (noSimilarCount : Nat) : SearchStep :=
  let inSlots := fun first last =>
    afterSearch noSimilarCount
      (canStoreItemInInventorySlots mgr o p first last pProto true pItem bag slot)
  let inBags := fun nonSpecialized =>
    searchBags mgr o p pProto true nonSpecialized pItem bag slot noSimilarCount
      (slotsFrom inventorySlotBagStart inventorySlotBagEnd)
  inSlots keyringSlotStart keyringSlotEnd >=>
  inSlots inventorySlotItemStart inventorySlotItemEnd >=>
  stepIf (pProto.bagFamily ≠ 0) (inBags false) >=>
  inBags true

/-- The search of `_CanStoreItem` for a free slot, anywhere. -/
def storeInFreeSlots (bag slot : Nat) (pProto : ItemTemplate) (pItem : Option ItemRef)
    (noSimilarCount : Nat) : SearchStep :=
  let inSlots := fun first last =>
    afterSearch noSimilarCount
      (canStoreItemInInventorySlots mgr o p first last pProto false pItem bag slot)
  let inBags := fun nonSpecialized =>
    searchBags mgr o p pProto false nonSpecialized pItem bag slot noSimilarCount
      (slotsFrom inventorySlotBagStart inventorySlotBagEnd)
  -- special bag case
  stepIf (pProto.bagFamily ≠ 0)
    (stepIf (pProto.bagFamily &&& bagFamilyMaskKeys ≠ 0)
      (inSlots keyringSlotStart (keyringSlotStart + getMaxKeyringSize)) >=>
      inBags false) >=>
  inSlots inventorySlotItemStart inventorySlotItemEnd >=>
  inBags true

/-- The slot named by the caller, if it exists. -/
def storeInSlot (pos : Pos) (pProto : ItemTemplate) (pItem : Option ItemRef) (swap : Bool)
    (noSimilarCount : Nat) : SearchStep := fun s =>
  if !p.isValidPos mgr o pos then .error ⟨.itemDoesntGoToSlot, s.dest, none⟩
  else afterSearch noSimilarCount (canStoreItemInSpecificSlot mgr o p pos pProto swap pItem) s

/-- The searches of `_CanStoreItem`, from the slot named by the caller on. -/
def storeSearches (pos : Pos) (pProto : ItemTemplate) (pItem : Option ItemRef) (swap : Bool)
    (noSimilarCount : Nat) : SearchStep :=
  stepIf (pos.bag ≠ nullBag ∧ pos.slot ≠ nullSlot)
    (storeInSlot mgr o p pos pProto pItem swap noSimilarCount) >=>
  stepIf (pos.bag ≠ nullBag)
    (storeInBag mgr o p pos.bag pos.slot pProto pItem noSimilarCount) >=>
  stepIf (1 < pProto.stackable)
    (storeByMerging mgr o p pos.bag pos.slot pProto pItem noSimilarCount) >=>
  storeInFreeSlots mgr o p pos.bag pos.slot pProto pItem noSimilarCount

/-- The answer the searches end in; when all of them are through there is no
room for the rest. -/
def answerOf (noSimilarCount : Nat) (noRoom : InventoryResult) :
    Except StoreAnswer Search → StoreAnswer
  | .error a => a
  | .ok s => ⟨noRoom, s.dest, some (add32 s.count noSimilarCount)⟩

/-- `Player::_CanStoreItem`. -/
def canStoreItem' (pos : Pos) (dest : List ItemPosCount) (entry count : Nat)
    (pItem : Option ItemRef) (swap : Bool) (pProto : Option ItemTemplate) : StoreAnswer :=
  let pProto := pProto <|> pItem.map fun r => (o.item r).template mgr
  match pProto <|> mgr.getItemTemplate entry with
  | none => ⟨if swap then .itemsCantBeSwapped else .itemNotFound, dest, some count⟩
  | some pProto =>
      if (pItem.map fun r => (o.item r).isBindedNotWith p.guid) = some true then
        ⟨.dontOwnThatItem, dest, some count⟩
      else
        let (res, noSimilar) := canTakeMoreSimilarItems' mgr o p entry count pItem
        let noSimilarCount := noSimilar.getD 0
        if res ≠ .ok ∧ count = noSimilarCount then ⟨res, dest, some noSimilarCount⟩
        else
          let count := if res ≠ .ok then sub32 count noSimilarCount else count
          answerOf noSimilarCount .inventoryFull
            (storeSearches mgr o p pos pProto pItem swap noSimilarCount ⟨dest, count⟩)

/-- `Player::CanStoreItem`. -/
def canStoreItem (pos : Pos) (pItem : ItemRef) (swap : Bool) : StoreAnswer :=
  canStoreItem' mgr o p pos [] (o.item pItem).entry (o.item pItem).count (some pItem) swap
    (some ((o.item pItem).template mgr))

/-- `Player::CanTakeMoreSimilarItems`. -/
def canTakeMoreSimilarItems (pItem : ItemRef) : InventoryResult :=
  (canTakeMoreSimilarItems' mgr o p (o.item pItem).entry (o.item pItem).count (some pItem)).1

end Searches

end Sunstrider.Inventory
