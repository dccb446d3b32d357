import Sunstrider.Groups.World

/-!
# Rolls of a group

`GroupLoot` and `NeedBeforeGreed` walk over the items of a loot, start a roll for
each one that is worth it, with a vote for every member near enough, and block
the item. The roll stays in the list of the group, the flag in the loot. A vote
that completes the tallies, or the timer of the corpse, has `CountTheRoll`
resolve the roll; it is erased then, whatever came of it.

A loot that is gone is `none`; rolls for it are not found by `GetRoll` and are
dropped when they are counted.
-/

namespace Sunstrider.Groups

open Looting

variable {P : Type} [LinearOrder P]

/-- What a start of rolls reads of the world: templates, members, and the
threshold the leader has set. -/
structure StartEnv (P : Type) where
  lootThreshold : Nat
  template : Nat → Option LootProto
  isAtGroupRewardDistance : P → Bool
  allowedForPlayer : LootItem P → P → Bool
  canUseItem : P → Nat → Bool
  passOnGroupLoot : P → Bool

/-- What resolving a roll reads of the world, beyond who is in it. -/
structure CountEnv (P : Type) where
  findMap : P → Nat
  canStoreNewItem : List P → P → Nat → Nat → Bool
  needRoll : P → Nat
  greedRoll : P → Nat
  needRoll_pos : ∀ g, 1 ≤ needRoll g
  greedRoll_pos : ∀ g, 1 ≤ greedRoll g

/-! ## Starting -/

/-- Assignment in the vote map, which is ordered by player. -/
def putVote (g : P) (v : RollVote) : List (P × RollVote) → List (P × RollVote)
  | [] => [(g, v)]
  | e :: rest =>
      if g < e.1 then (g, v) :: e :: rest
      else if e.1 = g then (g, v) :: rest
      else e :: putVote g v rest

/-- A roll nobody takes part in yet. -/
def newRoll (itemid itemSlot : Nat) : Roll P where
  itemid := itemid
  itemSlot := itemSlot
  playerVote := []
  totalPlayersRolling := 0
  totalNeed := 0
  totalGreed := 0
  totalPass := 0

/-- A member takes part, and may have passed beforehand. -/
def addRoller (pass : P → Bool) (r : Roll P) (g : P) : Roll P :=
  { r with
    totalPlayersRolling := incr8 r.totalPlayersRolling
    playerVote := putVote g (if pass g then .pass else .notEmitedYet) r.playerVote
    totalPass := if pass g then incr8 r.totalPass else r.totalPass }

/-- The loot, the rolls of the group and the item identities, while rolls are
started. -/
structure Starting (P : Type) where
  loot : Loot P
  rolls : List (GroupRoll P)
  nextItemGUID : Nat

namespace Starting

/-- A roll for one slot, if anybody takes part. -/
def startRoll (lid itemid slot : Nat) (pass : P → Bool) (rollers : List P) (s : Starting P) :
    Starting P :=
  let r := rollers.foldl (addRoller pass) (newRoll itemid slot)
  if 0 < r.totalPlayersRolling then
    { loot := s.loot.blockForRoll slot
      rolls := s.rolls ++ [⟨s.nextItemGUID, lid, r⟩]
      nextItemGUID := s.nextItemGUID + 1 }
  else { s with nextItemGUID := s.nextItemGUID + 1 }

/-- The body of both loops. `NeedBeforeGreed` asks of an ordinary item that the
member can use it, and takes for granted that it has a template. -/
def startSlot (env : StartEnv P) (needBeforeGreed : Bool) (lid : Nat) (members : List P)
    (s : Starting P) (slot : Nat) : Starting P :=
  match s.loot.itemAt slot with
  | none => s
  | some item =>
      let near := members.filter fun p =>
        env.isAtGroupRewardDistance p && env.allowedForPlayer item p
      match env.template item.itemid with
      | none => s
      | some proto =>
          if slot < s.loot.items.length then
            if item.freeforall then s
            else if env.lootThreshold ≤ proto.quality then
              s.startRoll lid item.itemid slot env.passOnGroupLoot
                (near.filter fun p => !needBeforeGreed || env.canUseItem p item.itemid)
            else
              { s with loot := s.loot.modifyAt slot fun it => { it with isUnderthreshold := true } }
          else if item.followLootRules then
            s.startRoll lid item.itemid slot (fun _ => false) near
          else s

end Starting

namespace World

def setLoot (lid : Nat) (l : Option (Loot P)) (w : World P) : World P :=
  { w with loots := Function.update w.loots lid l }

/-- The two loops, over the items and over the quest items. -/
def startRolls (env : StartEnv P) (needBeforeGreed : Bool) (g lid : Nat) (w : World P) :
    World P :=
  match w.groups g, w.loots lid with
  | some G, some l =>
      let s := (List.range (l.items.length + l.questItems.length)).foldl
        (Starting.startSlot env needBeforeGreed lid (w.members g)) ⟨l, G.rolls, w.nextItemGUID⟩
      let w := w.modifyGroup g fun G => { G with rolls := s.rolls }
      { w.setLoot lid (some s.loot) with nextItemGUID := s.nextItemGUID }
  | _, _ => w

/-- `Group::GroupLoot`. -/
def groupLoot (env : StartEnv P) (g lid : Nat) (w : World P) : World P :=
  w.startRolls env false g lid

/-- `Group::NeedBeforeGreed`. -/
def needBeforeGreed (env : StartEnv P) (g lid : Nat) (w : World P) : World P :=
  w.startRolls env true g lid

/-! ## Resolving -/

/-- The world as `CountTheRoll` looks at it. -/
def rollEnv (w : World P) (env : CountEnv P) (allowedMap : Option Nat) : RollEnv P Nat where
  findConnectedPlayer p :=
    if w.findConnectedPlayer p then some ⟨(w.players p).inWorld, env.findMap p, true⟩ else none
  allowedMap := allowedMap
  canStoreNewItem := env.canStoreNewItem
  needRoll := env.needRoll
  greedRoll := env.greedRoll
  needRoll_pos := env.needRoll_pos
  greedRoll_pos := env.greedRoll_pos

/-- `CountTheRoll` on the roll at place `i`. -/
def countTheRoll (env : CountEnv P) (allowedMap : Option Nat) (g i : Nat) (w : World P) :
    World P :=
  match (w.groups g).bind fun G => G.rolls[i]? with
  | none => w
  | some r =>
      let w := match w.loots r.loot with
        | none => w
        | some l =>
            w.setLoot r.loot (some (r.roll.countTheRoll (w.rollEnv env allowedMap) l).loot)
      w.modifyGroup g fun G => { G with rolls := G.rolls.eraseIdx i }

/-- `GetRoll`. -/
def getRoll (w : World P) (G : Group P) (itemGUID : Nat) : Option Nat :=
  G.rolls.findIdx? fun r => r.itemGUID = itemGUID && (w.loots r.loot).isSome

/-- `CountRollVote`. -/
def countRollVote (env : CountEnv P) (g : Nat) (p : P) (itemGUID : Nat) (choice : RollVote)
    (w : World P) : World P :=
  match w.groups g with
  | none => w
  | some G =>
      match w.getRoll G itemGUID with
      | none => w
      | some i =>
          match G.rolls[i]? with
          | none => w
          | some r =>
              if !r.roll.mayVote p (w.loots r.loot) then w
              else
                let roll := r.roll.countRollVote p choice (w.loots r.loot)
                let w := w.modifyGroup g fun G =>
                  { G with rolls := G.rolls.set i { r with roll := roll } }
                if roll.complete then w.countTheRoll env none g i else w

/-- The first roll of a group for a loot. -/
def rollFor (w : World P) (g lid : Nat) : Option Nat :=
  (w.groups g).bind fun G => G.rolls.findIdx? fun r => r.loot = lid

/-- The loop of `EndRoll`, for as many rolls as the group has. Each has its own
random numbers. -/
def endRollLoop (env : Nat → CountEnv P) (allowedMap : Nat) (g lid : Nat) :
    Nat → World P → World P
  | 0, w => w
  | more + 1, w =>
      match w.rollFor g lid with
      | none => w
      | some i =>
          endRollLoop env allowedMap g lid more (w.countTheRoll (env more) (some allowedMap) g i)

/-- `EndRoll`. -/
def endRoll (env : Nat → CountEnv P) (allowedMap : Nat) (g lid : Nat) (w : World P) :
    World P :=
  match w.groups g with
  | none => w
  | some G => w.endRollLoop env allowedMap g lid G.rolls.length

end World

end Sunstrider.Groups
