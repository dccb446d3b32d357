import Sunstrider.Inventory.Purse
import Sunstrider.Loot.Loot

/-!
# The gold of a loot

`CMSG_LOOT_MONEY` takes the gold out of whatever the player has open. The gold of
a corpse or a chest is shared with those of his group who are near: the amount is
divided by how many they are, and each gets the quotient. The opcode is accepted
from the dead as well, and death leaves the loot open.

Near is who is at reward distance of the looter. For a dead player that has left
his body the distance counts from the corpse; `GetCorpse` finds it on the map he
is on. Distances are floats in the source, here any ordered numbers in which
nothing is away from itself. A division by zero is `none`. Packets and the stored
loot of containers are left out.
-/

namespace Sunstrider.Looting

open Inventory

variable {P L F : Type}

/-- Where something is; `location` is the position and the combat reach. -/
structure WorldObject (L : Type) where
  mapId : Nat
  instanceId : Nat
  location : L

/-- `WorldObject::GetDistance`, which is never negative, and `MaxGroupXPDistance`,
which is unsigned. -/
structure Distances (L F : Type) [LinearOrder F] [Zero F] where
  getDistance : L → L → F
  groupXpDistance : F
  getDistance_self : ∀ l, getDistance l l = 0
  groupXpDistance_nonneg : 0 ≤ groupXpDistance

/-- A group whose references include the one of the player; a reference without
a source is `none`. -/
structure LinkedGroup (P : Type) (player : P) where
  members : List (Option P)
  mem : some player ∈ members

/-- The looter and everybody around. -/
structure LootScene (P L : Type) where
  player : P
  isRogue : Bool
  group : Option (LinkedGroup P player)
  object : P → WorldObject L
  isAlive : P → Bool
  /-- `Player::GetCorpse`. -/
  getCorpse : P → Option (WorldObject L)
  purse : P → Purse

structure FoundGameObject where
  ownedByPlayer : Bool
  isWithinDistInMap : Bool

structure FoundCreature where
  isAlive : Bool
  /-- `loot_type == LOOT_PICKPOCKETING`. -/
  pickpocketed : Bool
  isWithinDistInMap : Bool

/-- What the GUID of the open loot leads to. -/
inductive LootedThing
  | gameObject (found : Option FoundGameObject)
  /-- Bones, if there are any, and whether they are within interaction distance. -/
  | corpse (found : Option Bool)
  | item (found : Bool)
  | unit (found : Option FoundCreature)
  | unlootable

inductive LootError
  | didntKill
  | tooFar
deriving DecidableEq, Repr

/-- Whether there is a loot to take money from, whether that is shared, and what
the player is told if there is none. -/
structure LootAccess where
  found : Bool
  shareMoney : Bool
  error : Option LootError
deriving DecidableEq, Repr

/-- The `switch` of `HandleLootMoneyOpcode`. -/
def lootAccess (isRogue : Bool) : LootedThing → LootAccess
  | .gameObject none => ⟨false, true, none⟩
  | .gameObject (some go) => ⟨go.ownedByPlayer || go.isWithinDistInMap, true, none⟩
  | .corpse none => ⟨false, true, none⟩
  | .corpse (some inRange) => ⟨inRange, !inRange, none⟩
  | .item found => ⟨found, !found, none⟩
  | .unit none => ⟨false, true, some .didntKill⟩
  | .unit (some creature) =>
      if creature.isAlive ≠ (isRogue && creature.pickpocketed) then
        ⟨false, true, some .didntKill⟩
      else if !creature.isWithinDistInMap then ⟨false, true, some .tooFar⟩
      else ⟨true, !creature.isAlive, none⟩
  | .unlootable => ⟨false, true, none⟩

namespace LootScene

variable [LinearOrder F] [Zero F] (distances : Distances L F)

/-- `Player::IsAtGroupRewardDistance`. -/
def isAtGroupRewardDistance (scene : LootScene P L) (player : P)
    (pRewardSource : WorldObject L) : Bool :=
  let place :=
    match scene.getCorpse player with
    | some corpse => if scene.isAlive player then scene.object player else corpse
    | none => scene.object player
  if place.mapId ≠ pRewardSource.mapId ∨ place.instanceId ≠ pRewardSource.instanceId then false
  else distances.getDistance pRewardSource.location place.location ≤ distances.groupXpDistance

/-- The members the gold is divided among. -/
def playersNear (scene : LootScene P L) (group : LinkedGroup P scene.player) : List P :=
  group.members.filterMap fun source =>
    match source with
    | none => none
    | some playerGroup =>
        if scene.isAtGroupRewardDistance distances scene.player (scene.object playerGroup) then
          some playerGroup
        else none

/-- `ModifyMoney` for one player after the other. -/
def payAll [DecidableEq P] (goldPerPlayer : Nat) : List P → (P → Purse) → (P → Purse)
  | [], purse => purse
  | player :: players, purse =>
      payAll goldPerPlayer players
        (Function.update purse player ((purse player).modifyMoney (int32 goldPerPlayer)).1)

end LootScene

/-- The purses and the loot afterwards, and whether an emptied container has been
released. -/
structure MoneyTaken (P : Type) where
  purse : P → Purse
  loot : Loot P
  released : Bool

/-- `WorldSession::HandleLootMoneyOpcode`. -/
def handleLootMoneyOpcode [DecidableEq P] [LinearOrder F] [Zero F] (distances : Distances L F)
    (scene : LootScene P L) (thing : LootedThing) (loot : Loot P) : Option (MoneyTaken P) :=
  let access := lootAccess scene.isRogue thing
  if !access.found then some ⟨scene.purse, loot, false⟩
  else if loot.gold = 0 then some ⟨scene.purse, loot, false⟩
  else
    let emptied : Loot P := { loot with gold := 0 }
    let released :=
      match thing with
      | .item _ => emptied.isLooted
      | _ => false
    match access.shareMoney, scene.group with
    | true, some group =>
        let playersNear := scene.playersNear distances group
        if playersNear.length = 0 then none
        else
          let goldPerPlayer := loot.gold / playersNear.length
          some ⟨LootScene.payAll goldPerPlayer playersNear scene.purse, emptied, released⟩
    | _, _ =>
        some ⟨LootScene.payAll loot.gold [scene.player] scene.purse, emptied, released⟩

end Sunstrider.Looting
