import Mathlib

/-!
# Movement along waypoints

A generator takes a creature along the nodes of a path: to the last and no further, round
and round, or there and back, from either end or at random. It knows the index of the node
that comes next, and moves on to another each time a spline tells it that a point was
reached. The spline leads to that node alone or, if splines are to be smooth, to as many nodes
as can be run through at one go; these are looked up without a change of direction.

Of a node there is what decides where a path is cut. What the creature does on arrival, and
how long it stays, is left out: it holds up the next spline, which starts at the same node.
What the random numbers for another node come to is a parameter.
-/

namespace Sunstrider.Movement

inductive WaypointPathType
  | loop
  | once
  | roundTrip
  | unspecified
  | other (value : Nat)
deriving DecidableEq, Repr

inductive WaypointPathDirection
  | normal
  | reverse
  | random
  | other (value : Nat)
deriving DecidableEq, Repr

/-- `WP_PATH_TYPE_TOTAL`, which comes after `WP_PATH_TYPE_UNSPECIFIED`. -/
def wpPathTypeTotal : Nat := 100001

namespace WaypointPathType

def ofNat : Nat → WaypointPathType
  | 0 => .loop
  | 1 => .once
  | 2 => .roundTrip
  | 100000 => .unspecified
  | value => .other value

def toNat : WaypointPathType → Nat
  | .loop => 0
  | .once => 1
  | .roundTrip => 2
  | .unspecified => 100000
  | .other value => value

end WaypointPathType

namespace WaypointPathDirection

def ofNat : Nat → WaypointPathDirection
  | 0 => .normal
  | 1 => .reverse
  | 2 => .random
  | value => .other value

/-- The other way round. -/
def turn (direction : WaypointPathDirection) : WaypointPathDirection :=
  if direction = .normal then .reverse else .normal

end WaypointPathDirection

structure WaypointNode where
  delay : Nat
  moveType : Nat
deriving DecidableEq, Repr

structure WaypointPath where
  nodes : List WaypointNode
  pathType : Nat
  pathDirection : Nat
deriving DecidableEq, Repr

structure WaypointMovementGenerator where
  customPath : Option WaypointPath
  path : WaypointPath
  pathType : WaypointPathType
  direction : WaypointPathDirection
  currentNode : Nat
  useSmoothSpline : Bool
  /-- `MOVEMENTGENERATOR_FLAG_FINALIZED`. -/
  finalized : Bool
deriving DecidableEq, Repr

namespace WaypointMovementGenerator

/-- `_path->nodes.size()`. -/
def size (g : WaypointMovementGenerator) : Nat := g.path.nodes.length

/-! ## Nodes -/

def isLastMemoryNode (g : WaypointMovementGenerator) (node : Nat) : Bool :=
  match g.direction with
  | .normal => node = g.size - 1
  | .reverse => node = 0
  | .random => false
  | .other _ => true

/-- The change of direction at the end of a path. -/
def reverseDirection (g : WaypointMovementGenerator) (fromNode : Nat)
    (allowReverseDirection : Bool) : WaypointMovementGenerator :=
  if g.isLastMemoryNode fromNode ∧ allowReverseDirection ∧ g.pathType = .roundTrip then
    { g with direction := g.direction.turn }
  else g

/-- The next node in the direction of now. -/
def nextNode (random : Nat → Nat) (g : WaypointMovementGenerator) (fromNode : Nat) : Option Nat :=
  match g.direction with
  | .normal => some ((fromNode + 1) % g.size)
  | .reverse => some (if fromNode = 0 then g.size - 1 else fromNode - 1)
  | .random => if g.size ≤ 1 then none else some (random fromNode)
  | .other _ => none

/-- The generator afterwards, and the next node if there is one. -/
def getNextMemoryNode (random : Nat → Nat) (g : WaypointMovementGenerator) (fromNode : Nat)
    (allowReverseDirection : Bool) : WaypointMovementGenerator × Option Nat :=
  if g.size = 0 then (g, none)
  else if g.isLastMemoryNode fromNode ∧ g.pathType = .once then (g, none)
  else
    let g := g.reverseDirection fromNode allowReverseDirection
    (g, g.nextNode random fromNode)

def getFirstMemoryNode (random : Nat → Nat) (g : WaypointMovementGenerator) :
    WaypointMovementGenerator × Nat :=
  match g.direction with
  | .normal => (g, 0)
  | .reverse | .random =>
      let (g, next) := g.getNextMemoryNode random 0 true
      (g, next.getD 0)
  | .other _ => (g, 0)

/-! ## A path is loaded -/

/-- The path and where its type and direction come from. A custom path must not be of an
unspecified type. -/
def choosePath (stored : Option WaypointPath) (g : WaypointMovementGenerator) :
    Option WaypointMovementGenerator :=
  match g.customPath with
  | some path => if g.pathType = .unspecified then none else some { g with path := path }
  | none =>
      match stored with
      | none => none
      | some path =>
          some
            { g with
              path := path
              pathType :=
                if g.pathType = .unspecified then .ofNat path.pathType else g.pathType
              direction := .ofNat path.pathDirection }

def validateType (g : WaypointMovementGenerator) : WaypointMovementGenerator :=
  if wpPathTypeTotal ≤ g.pathType.toNat then { g with pathType := .loop } else g

def validateDirection (g : WaypointMovementGenerator) : WaypointMovementGenerator :=
  match g.direction with
  | .other _ => { g with direction := .normal }
  | .random => if g.pathType = .loop then g else { g with pathType := .loop }
  | _ => g

/-- The path with its type and direction, after the checks. -/
def configure (stored : Option WaypointPath) (g : WaypointMovementGenerator) :
    Option WaypointMovementGenerator :=
  (g.choosePath stored).map fun g => g.validateType.validateDirection

/-- `_currentNode = GetFirstMemoryNode()`. -/
def setFirstNode (random : Nat → Nat) (g : WaypointMovementGenerator) :
    WaypointMovementGenerator :=
  let (g, node) := g.getFirstMemoryNode random
  { g with currentNode := node }

def loadPath (random : Nat → Nat) (stored : Option WaypointPath) (g : WaypointMovementGenerator) :
    Option WaypointMovementGenerator :=
  match g.configure stored with
  | none => none
  | some g => if g.path.nodes.isEmpty then none else some (g.setFirstNode random)

/-! ## Arrival -/

/-- `OnArrived`: whether the spline is the one of the generator, and whether it is done. -/
def onArrived (random : Nat → Nat) (ownSpline splineFinalized : Bool)
    (g : WaypointMovementGenerator) : WaypointMovementGenerator :=
  if g.size ≤ g.currentNode then g
  else if !ownSpline then g
  else
    match g.getNextMemoryNode random g.currentNode true with
    | (g, some node) => { g with currentNode := node }
    | (g, none) => if splineFinalized then { g with finalized := true } else g

/-! ## A spline is planned -/

def delayOf (g : WaypointMovementGenerator) (node : Nat) : Nat :=
  ((g.path.nodes[node]?).map WaypointNode.delay).getD 0

def moveTypeOf (g : WaypointMovementGenerator) (node : Nat) : Nat :=
  ((g.path.nodes[node]?).map WaypointNode.moveType).getD 0

/-- The loop that looks up further nodes, and whether the spline is to be cyclic. -/
def lookUpNodes (random : Nat → Nat) (g : WaypointMovementGenerator) (lastMoveType : Nat) :
    Nat → Nat → Option (List Nat × Bool)
  | 0, _ => none
  | fuel + 1, node =>
      if !g.useSmoothSpline then some ([], false)
      else
        match (g.getNextMemoryNode random node false).2 with
        | none => some ([], false)
        | some next =>
            if g.moveTypeOf next ≠ lastMoveType then some ([], false)
            else if g.isLastMemoryNode next then
              some ([next], decide (g.pathType = .loop ∧ g.currentNode = 0))
            else if g.delayOf next ≠ 0 then some ([next], false)
            else
              (g.lookUpNodes random lastMoveType fuel next).map fun r => (next :: r.1, r.2)

/-- The loop for random nodes. The first number is how many more there may be. -/
def rollNodes (random : Nat → Nat) (g : WaypointMovementGenerator) : Nat → Nat → List Nat
  | 0, _ => []
  | n + 1, node =>
      match (g.getNextMemoryNode random node true).2 with
      | none => []
      | some next => if g.delayOf next ≠ 0 then [next] else next :: g.rollNodes random n next

/-- `StartMove`, once the creature can move: the nodes that the precomputed path leads
through, behind the point that a spline replaces, and whether it is cyclic. -/
def startMove (random : Nat → Nat) (fuel : Nat) (g : WaypointMovementGenerator) :
    Option (List Nat × Bool) :=
  if g.path.nodes.isEmpty || g.finalized || decide (g.size ≤ g.currentNode) then some ([], false)
  else
    match g.pathType with
    | .loop | .once | .roundTrip =>
        if g.direction ≠ .random then
          if g.delayOf g.currentNode ≠ 0 then some ([g.currentNode], false)
          else
            (g.lookUpNodes random (g.moveTypeOf g.currentNode) fuel g.currentNode).map fun r =>
              (g.currentNode :: r.1, r.2)
        else some (g.rollNodes random 9 g.currentNode, false)
    | _ => some ([], false)

/-! ## Node by node -/

/-- The generator after some arrivals, each at the end of a spline of its own. -/
def arrivals (random : Nat → Nat) (g : WaypointMovementGenerator) (k : Nat) :
    WaypointMovementGenerator :=
  (onArrived random true true)^[k] g

/-- The node that is visited after so many others, if the path has not ended. -/
def visited (random : Nat → Nat) (g : WaypointMovementGenerator) (k : Nat) : Option Nat :=
  if (g.arrivals random k).finalized then none else some (g.arrivals random k).currentNode

end WaypointMovementGenerator

end Sunstrider.Movement
