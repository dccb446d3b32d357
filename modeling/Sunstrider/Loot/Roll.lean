import Sunstrider.Loot.Loot

/-!
# Group loot rolls

A `Roll` keeps a vote for each player in a map and, next to it, 8-bit tallies
of how many votes of each kind have come in. Votes may be changed, the tallies
of the old vote stay; players who leave the group take their last vote with
them. `countTheRoll` resolves the roll: it reads the tallies to choose a
branch, the votes and the world to choose a winner, and hands the item over.

The winner is looked up twice, and players who are offline or on another map
are dropped from the tallies on the way. Random numbers come from the
environment, one for each player and branch.
-/

namespace Sunstrider.Looting

variable {P : Type} [DecidableEq P] {M : Type} [DecidableEq M]

inductive RollVote
  | pass
  | need
  | greed
  | notEmitedYet
  | notValid
deriving DecidableEq, Repr

/-- `Roll`. The vote map is iterated in the order of `playerVote`. -/
structure Roll (P : Type) where
  itemid : Nat
  itemSlot : Nat
  playerVote : List (P × RollVote)
  totalPlayersRolling : Nat
  totalNeed : Nat
  totalGreed : Nat
  totalPass : Nat

/-- A connected player. -/
structure RollPlayer (M : Type) where
  isInWorld : Bool
  map : M
  hasSession : Bool

/-- The world when a roll is resolved. -/
structure RollEnv (P M : Type) where
  findConnectedPlayer : P → Option (RollPlayer M)
  allowedMap : Option M
  /-- `CanStoreNewItem` answers `EQUIP_ERR_OK` once the players listed have
  received their items. -/
  canStoreNewItem : List P → P → Nat → Nat → Bool
  /-- `urand(1, 100)` in the need loop and in the greed loop. -/
  needRoll : P → Nat
  greedRoll : P → Nat
  needRoll_pos : ∀ g, 1 ≤ needRoll g
  greedRoll_pos : ∀ g, 1 ≤ greedRoll g

namespace RollEnv

/-- `ObjectAccessor::FindPlayer`. -/
def findPlayer (env : RollEnv P M) (g : P) : Option (RollPlayer M) :=
  (env.findConnectedPlayer g).filter RollPlayer.isInWorld

/-- The check both loops make before a player may roll. -/
def reachable (env : RollEnv P M) (g : P) : Bool :=
  match env.findPlayer g with
  | none => false
  | some p =>
      match env.allowedMap with
      | none => true
      | some m => decide (p.map = m)

end RollEnv

namespace Roll

/-! ## The life of a roll -/

/-- A roll as `Group::GroupLoot` makes it: each member with whether it passes
on group loot. -/
def start (itemid itemSlot : Nat) (members : List (P × Bool)) : Roll P where
  itemid := itemid
  itemSlot := itemSlot
  playerVote := members.map fun m => (m.1, if m.2 then .pass else .notEmitedYet)
  totalPlayersRolling := members.length % 256
  totalNeed := 0
  totalGreed := 0
  totalPass := members.countP (fun m => m.2) % 256

/-- The vote of `g`, replaced. -/
def setVote (g : P) (v : RollVote) : List (P × RollVote) → List (P × RollVote)
  | [] => []
  | e :: rest => if e.1 = g then (g, v) :: rest else e :: setVote g v rest

/-- The checks of `Group::CountRollVote`: the player was there when the roll
began, and the loot, unless it is gone, has items. -/
def mayVote (r : Roll P) (g : P) (loot : Option (Loot P)) : Bool :=
  (r.playerVote.find? fun e => e.1 = g).isSome &&
    match loot with
    | none => true
    | some l => !l.items.isEmpty

/-- The switch of `Group::CountRollVote`; other choices change nothing. -/
def countRollVote (r : Roll P) (g : P) (choice : RollVote) (loot : Option (Loot P)) : Roll P :=
  if !r.mayVote g loot then r
  else
    match choice with
    | .pass =>
        { r with totalPass := incr8 r.totalPass, playerVote := setVote g .pass r.playerVote }
    | .need =>
        { r with totalNeed := incr8 r.totalNeed, playerVote := setVote g .need r.playerVote }
    | .greed =>
        { r with totalGreed := incr8 r.totalGreed, playerVote := setVote g .greed r.playerVote }
    | .notEmitedYet => r
    | .notValid => r

/-- `Group::RemoveMember` on the rolls of the group. -/
def removeMember (r : Roll P) (g : P) : Roll P :=
  match r.playerVote.find? fun e => e.1 = g with
  | none => r
  | some e =>
      let r := match e.2 with
        | .greed => { r with totalGreed := decr8 r.totalGreed }
        | .need => { r with totalNeed := decr8 r.totalNeed }
        | .pass => { r with totalPass := decr8 r.totalPass }
        | .notEmitedYet => r
        | .notValid => r
      let r :=
        if e.2 ≠ .notValid then { r with totalPlayersRolling := decr8 r.totalPlayersRolling }
        else r
      { r with playerVote := r.playerVote.eraseP fun e => e.1 = g }

/-- All votes are in. -/
def complete (r : Roll P) : Bool :=
  decide (r.totalPlayersRolling ≤ r.totalPass + r.totalNeed + r.totalGreed)

/-! ## Resolving it -/

/-- One of the two loops over the votes: the tally, the highest number so far
and its owner. -/
def rollLoop (env : RollEnv P M) (vote : RollVote) (urand : P → Nat) :
    List (P × RollVote) → Nat → Nat → Option P → Nat × Option P
  | [], tally, _, maxguid => (tally, maxguid)
  | (g, v) :: rest, tally, maxresul, maxguid =>
      if v ≠ vote then rollLoop env vote urand rest tally maxresul maxguid
      else if !env.reachable g then
        rollLoop env vote urand rest (decr8 tally) maxresul maxguid
      else if maxresul < urand g then
        rollLoop env vote urand rest tally (urand g) (some g)
      else rollLoop env vote urand rest tally maxresul maxguid

/-- A roll on its way through `CountTheRoll`: the loot, who has received the
item, and the tallies that may still change. -/
structure Progress (P : Type) where
  loot : Loot P
  recipients : List P
  totalNeed : Nat
  totalGreed : Nat

/-- Hand the item to the winner, or keep it for the winner when the bags are
full. -/
def award (env : RollEnv P M) (r : Roll P) (s : Progress P) (g : P) : Progress P :=
  match s.loot.itemAt r.itemSlot with
  | none => s
  | some item =>
      if env.canStoreNewItem s.recipients g r.itemid item.count then
        { s with
          loot := (s.loot.modifyAt r.itemSlot fun it => { it with isLooted := true }).countDown
          recipients := s.recipients ++ [g] }
      else
        { s with loot := s.loot.modifyAt r.itemSlot fun it =>
            { it with isBlocked := false, rollWinnerGUID := some g } }

/-- `player && player->GetSession()`. -/
def hasSession (p : Option (RollPlayer M)) : Bool :=
  match p with
  | none => false
  | some p => p.hasSession

/-- The branch for `totalNeed > 0`. The default winner is the first voter. -/
def needPhase (env : RollEnv P M) (r : Roll P) (s : Progress P) : Progress P :=
  if 0 < s.totalNeed then
    match r.playerVote with
    | [] => s
    | first :: _ =>
        let res := rollLoop env .need env.needRoll r.playerVote s.totalNeed 0 (some first.1)
        match res.2 with
        | none => { s with totalNeed := 0 }
        | some g =>
            let s := { s with totalNeed := res.1 }
            if hasSession (env.findPlayer g) then award env r s g else s
  else s

/-- The branch for `totalNeed == 0 && totalGreed > 0`. -/
def greedPhase (env : RollEnv P M) (r : Roll P) (s : Progress P) : Progress P :=
  if s.totalNeed = 0 ∧ 0 < s.totalGreed then
    match r.playerVote with
    | [] => s
    | _ :: _ =>
        let res := rollLoop env .greed env.greedRoll r.playerVote s.totalGreed 0 none
        match res.2 with
        | none => { s with totalGreed := 0 }
        | some g =>
            let s := { s with totalGreed := res.1 }
            if hasSession (env.findConnectedPlayer g) then award env r s g else s
  else s

/-- The last block: everybody passed. -/
def allPassedPhase (r : Roll P) (s : Progress P) : Progress P :=
  if s.totalNeed = 0 ∧ s.totalGreed = 0 then
    { s with loot := s.loot.modifyAt r.itemSlot fun it => { it with isBlocked := false } }
  else s

/-- `Group::CountTheRoll` for a roll whose loot still exists. -/
def countTheRoll (env : RollEnv P M) (r : Roll P) (l : Loot P) : Progress P :=
  let s : Progress P := ⟨l, [], r.totalNeed, r.totalGreed⟩
  allPassedPhase r (greedPhase env r (needPhase env r s))

end Roll

end Sunstrider.Looting

/-!
## A roll from its start to its end

A roll belongs to a group and lives until it is resolved or the group is gone.
Clients vote, members leave, and when the timer of the corpse runs out whatever
is in is counted. A vote ends the roll when the tallies reach the number of
players rolling. A member who leaves takes the vote along, and the code then
votes once more in the name of that member, with a choice that means nothing.

`Group::RemoveMember` disbands the group instead when too few would be left, and
again at its end when too few are online; the group deletes its rolls with it.
-/

namespace Sunstrider.Looting

variable {P : Type} [DecidableEq P]

/-- Where a roll stands. A resolved one remembers the roll that was counted and
whether the timer did it. -/
inductive RollState (P : Type)
  | running (members : List P) (roll : Roll P)
  | resolved (roll : Roll P) (timeout : Bool)
  | dropped

/-- The choices of `CountRollVote`; `MAX_ROLL_TYPE` and above match no case. -/
def rollTypeVote (rollType : Nat) : RollVote :=
  match rollType with
  | 0 => .pass
  | 1 => .need
  | 2 => .greed
  | _ => .notValid

def maxRollType : Nat := 3

/-- What may happen to a roll. `loot` is the loot at that moment, gone or with
its items; `linked` the number of members online once a member has left. -/
inductive RollEvent (P : Type)
  | lootRoll (player : P) (rollType : Nat) (loot : Option (Loot P))
  | removeMember (guid : P) (loot : Option (Loot P)) (linked : Nat)
  | endRoll

namespace RollState

/-- `Group::CountRollVote` on a running roll. `GetRoll` does not find a roll
whose loot is gone. -/
def countRollVote (members : List P) (r : Roll P) (g : P) (choice : RollVote)
    (loot : Option (Loot P)) : RollState P :=
  match loot with
  | none => .running members r
  | some l =>
      if !r.mayVote g (some l) then .running members r
      else
        let r := r.countRollVote g choice (some l)
        if r.complete then .resolved r false else .running members r

/-- `WorldSession::HandleLootRoll`. -/
def handleLootRoll (members : List P) (r : Roll P) (g : P) (rollType : Nat)
    (loot : Option (Loot P)) : RollState P :=
  if maxRollType ≤ rollType then .running members r
  else countRollVote members r g (rollTypeVote rollType) loot

/-- The loop of `Group::RemoveMember` over the rolls: the vote is taken back,
then counted once more with no choice. -/
def removeFromRoll (members : List P) (r : Roll P) (g : P) (loot : Option (Loot P)) :
    RollState P :=
  match r.playerVote.find? fun e => e.1 = g with
  | none => .running members r
  | some _ => countRollVote members (r.removeMember g) g (rollTypeVote maxRollType) loot

/-- `Group::RemoveMember`. A group keeps more than `least` members, two or, in a
battleground, one. -/
def removeMember (least : Nat) (members : List P) (r : Roll P) (g : P)
    (loot : Option (Loot P)) (linked : Nat) : RollState P :=
  if members.length ≤ least then .dropped
  else
    match removeFromRoll (members.filter (· ≠ g)) r g loot with
    | .running members r => if linked < least then .dropped else .running members r
    | s => s

/-- One event; a roll that has ended stays as it is. -/
def step (least : Nat) (s : RollState P) (e : RollEvent P) : RollState P :=
  match s with
  | .running members r =>
      match e with
      | .lootRoll g rollType loot => handleLootRoll members r g rollType loot
      | .removeMember g loot linked => removeMember least members r g loot linked
      | .endRoll => .resolved r true
  | s => s

/-- The states of a run, the first one included. -/
def states (least : Nat) : RollState P → List (RollEvent P) → List (RollState P)
  | s, [] => [s]
  | s, e :: es => s :: states least (s.step least e) es

end RollState

end Sunstrider.Looting
