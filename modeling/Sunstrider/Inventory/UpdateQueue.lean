import Mathlib

/-!
# The update queues of the items

An item that was changed waits in the queue of its owner until the inventory of the owner is
saved. The queue is a vector of pointers, and the item keeps its index in `uQueuePos`, so that
it can be taken out by a write of null at that index. Owners, positions and queues change
in different functions; `Op` is one call of one of them.

Items are told apart by their addresses. A call on an item that is not there, which in
the source is a use of freed memory, does nothing here.
-/

namespace Sunstrider.Inventory

inductive ItemUpdateState
  | unchanged | changed | new | removed
deriving DecidableEq, Repr

/-- What `Item` has to do with the queues. -/
structure OwnedItem (P : Type) where
  owner : P
  uState : ItemUpdateState
  /-- An `int16`; −1 in no queue. -/
  uQueuePos : Int
deriving DecidableEq, Repr

namespace OwnedItem

variable {P : Type}

/-- The constructor, and `Item::Create`, which sets the owner. -/
def new (owner : P) : OwnedItem P := ⟨owner, .new, -1⟩

def isInUpdateQueue (it : OwnedItem P) : Bool := it.uQueuePos != -1

/-- `m_itemUpdateQueue.size() - 1` as it is stored in the item. -/
def queuePosOf (index : Nat) : Int := (index : Int).bmod (2 ^ 16)

end OwnedItem

/-- `m_itemUpdateQueue[uQueuePos] = nullptr`. A negative position is an index far past the
end. -/
def clearEntry {I : Type} (queue : List (Option I)) : Int → List (Option I)
  | .ofNat k => queue.set k none
  | .negSucc _ => queue

/-- The items by their addresses, the queue of each player, and the items for which statements
were appended to a transaction, in that order. -/
structure QueueWorld (I P : Type) where
  items : I → Option (OwnedItem P)
  m_itemUpdateQueue : P → List (Option I)
  m_itemUpdateQueueBlocked : P → Bool
  /-- Whom `GetOwner` finds. -/
  online : P → Bool
  written : List I

namespace QueueWorld

variable {I P : Type} [DecidableEq I] [DecidableEq P]

/-- No item yet. -/
def start : QueueWorld I P := ⟨fun _ => none, fun _ => [], fun _ => false, fun _ => false, []⟩

def setItem (w : QueueWorld I P) (i : I) (it : Option (OwnedItem P)) : QueueWorld I P :=
  { w with items := Function.update w.items i it }

def setQueue (w : QueueWorld I P) (p : P) (queue : List (Option I)) : QueueWorld I P :=
  { w with m_itemUpdateQueue := Function.update w.m_itemUpdateQueue p queue }

/-- The checks which `AddItemToUpdateQueueOf` and `RemoveItemFromUpdateQueueOf` share: there is a
player, it is the owner, and its queue is not blocked. -/
def queueOpen (w : QueueWorld I P) (it : OwnedItem P) (player : Option P) : Bool :=
  match player with
  | some p => p == it.owner && !w.m_itemUpdateQueueBlocked p
  | none => w.online it.owner && !w.m_itemUpdateQueueBlocked it.owner

def addItemToUpdateQueueOf (w : QueueWorld I P) (i : I) (player : Option P) : QueueWorld I P :=
  match w.items i with
  | none => w
  | some it =>
      if it.isInUpdateQueue || !w.queueOpen it player then w
      else
        let queue := w.m_itemUpdateQueue it.owner ++ [some i]
        (w.setQueue it.owner queue).setItem i
          (some { it with uQueuePos := OwnedItem.queuePosOf (queue.length - 1) })

def removeItemFromUpdateQueueOf (w : QueueWorld I P) (i : I) (player : Option P) :
    QueueWorld I P :=
  match w.items i with
  | none => w
  | some it =>
      if !it.isInUpdateQueue || !w.queueOpen it player then w
      else
        (w.setQueue it.owner (clearEntry (w.m_itemUpdateQueue it.owner) it.uQueuePos)).setItem i
          (some { it with uQueuePos := -1 })

def setState (w : QueueWorld I P) (i : I) (state : ItemUpdateState) (forplayer : Option P) :
    QueueWorld I P :=
  match w.items i with
  | none => w
  | some it =>
      if it.uState = .new ∧ state = .removed then
        (w.removeItemFromUpdateQueueOf i forplayer).setItem i none
      else if state ≠ .unchanged then
        (w.setItem i (some (if it.uState = .new then it else { it with uState := state })))
          |>.addItemToUpdateQueueOf i forplayer
      else w.setItem i (some { it with uState := .unchanged, uQueuePos := -1 })

/-- `FSetState`. -/
def fSetState (w : QueueWorld I P) (i : I) (state : ItemUpdateState) : QueueWorld I P :=
  w.setItem i ((w.items i).map fun it => { it with uState := state })

def setOwnerGUID (w : QueueWorld I P) (i : I) (owner : P) : QueueWorld I P :=
  w.setItem i ((w.items i).map fun it => { it with owner := owner })

/-- `Item::SaveToDB`. -/
def saveToDB (w : QueueWorld I P) (i : I) : QueueWorld I P :=
  match w.items i with
  | none => w
  | some it =>
      let w := if it.uState = .unchanged then w else { w with written := w.written ++ [i] }
      if it.uState = .removed then w.setItem i none else w.setState i .unchanged none

/-- What `MoveItemToInventory` does with an item that was not merged into another stack. -/
def moveItemToInventory (w : QueueWorld I P) (p : P) (i : I) (in_characterInventoryDB : Bool) :
    QueueWorld I P :=
  (w.setOwnerGUID i p).setState i (if in_characterInventoryDB then .changed else .new) (some p)

/-- An entry that is checked before a save: `atPlace` says whether the item is found at its own
bag and slot. -/
def corrupt (w : QueueWorld I P) (atPlace : I → Bool) (i : I) : Bool :=
  (w.items i).any (·.uState ≠ .removed) && !atPlace i

/-- `_SaveInventory`, from the check of the queue on. -/
def saveInventory (w : QueueWorld I P) (p : P) (atPlace : I → Bool) : QueueWorld I P :=
  let queue := (w.m_itemUpdateQueue p).reduceOption
  if queue.any (w.corrupt atPlace) then w.setQueue p []
  else (queue.foldl saveToDB w).setQueue p []

/-! ## Runs -/

inductive Op (I P : Type)
  | create (i : I) (owner : P)
  | setState (i : I) (state : ItemUpdateState) (forplayer : Option P)
  | addItemToUpdateQueueOf (i : I) (player : Option P)
  | removeItemFromUpdateQueueOf (i : I) (player : Option P)
  | fSetState (i : I) (state : ItemUpdateState)
  | setOwnerGUID (i : I) (owner : P)
  | saveToDB (i : I)
  /-- `MoveItemFromInventory`, with an item of the player. -/
  | moveItemFromInventory (p : P) (i : I)
  | moveItemToInventory (p : P) (i : I) (in_characterInventoryDB : Bool)
  | saveInventory (p : P) (atPlace : I → Bool)
  /-- A player comes or goes, or its items are being loaded. -/
  | setPlayer (p : P) (online blocked : Bool)

/-- An item is created at an address that is free. -/
def step (w : QueueWorld I P) : Op I P → QueueWorld I P
  | .create i owner => if (w.items i).isSome then w else w.setItem i (some (.new owner))
  | .setState i state forplayer => w.setState i state forplayer
  | .addItemToUpdateQueueOf i player => w.addItemToUpdateQueueOf i player
  | .removeItemFromUpdateQueueOf i player => w.removeItemFromUpdateQueueOf i player
  | .fSetState i state => w.fSetState i state
  | .setOwnerGUID i owner => w.setOwnerGUID i owner
  | .saveToDB i => w.saveToDB i
  | .moveItemFromInventory p i => w.removeItemFromUpdateQueueOf i (some p)
  | .moveItemToInventory p i inDB => w.moveItemToInventory p i inDB
  | .saveInventory p atPlace => w.saveInventory p atPlace
  | .setPlayer p online blocked =>
      { w with
        online := Function.update w.online p online
        m_itemUpdateQueueBlocked := Function.update w.m_itemUpdateQueueBlocked p blocked }

def run (w : QueueWorld I P) (ops : List (Op I P)) : QueueWorld I P := ops.foldl step w

end QueueWorld

end Sunstrider.Inventory
