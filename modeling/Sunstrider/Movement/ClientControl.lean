import Mathlib

/-!
# Who moves which unit

A session keeps the unit it wants its client to move, the server-active mover, and
that unit keeps a reference to the session. Both are weak pointers, so either is gone
when its target is destroyed. Apart from these the client says which unit it has
activated.

A change of movement (a speed, a flag, a knock back, a teleport) is not made at once
when a client moves the unit: it is queued in the session and sent, and it is resolved
when the client acknowledges it, or when the server resolves the whole queue because a
mover is taken away. An ack that does not match the front of the queue gets the player
kicked.

Between a session and its client there are two channels that keep their order, one of
orders and one of acks. The client takes an order and acknowledges it with the data it
was sent; which opcode a packet has and which flag or speed it is about say the same,
so an order carries the latter. What a resolved change does to the unit, the timeout of
an old change, the anticheat and positions are left out. An assertion that fails stops
the server; here the answer is then `none`.
-/

namespace Sunstrider.Movement

/-! ## Movement changes -/

inductive UnitMoveType
  | walk
  | run
  | runBack
  | swim
  | swimBack
  | turnRate
  | flight
  | flightBack
deriving DecidableEq, Repr

/-- The flags that `SendMovementFlagChangeToMover` supports. -/
inductive MovementFlag
  | root
  | waterWalking
  | hover
  | canFly
  | fallingSlow
deriving DecidableEq, Repr

inductive MovementChangeType
  | root
  | waterWalk
  | setHover
  | setCanFly
  | featherFall
  | speedChangeWalk
  | speedChangeRun
  | speedChangeRunBack
  | speedChangeSwim
  | speedChangeSwimBack
  | rateChangeTurn
  | speedChangeFlightSpeed
  | speedChangeFlightBackSpeed
  | teleport
  | knockBack
deriving DecidableEq, Repr

/-- The opcodes of acks. -/
inductive AckOpcode
  | msgMoveTeleportAck
  | cmsgMoveKnockBackAck
  | cmsgForceMoveRootAck
  | cmsgForceMoveUnrootAck
  | cmsgMoveWaterWalkAck
  | cmsgForceWalkSpeedChangeAck
  | cmsgForceRunSpeedChangeAck
  | cmsgForceRunBackSpeedChangeAck
  | cmsgForceSwimSpeedChangeAck
  | cmsgForceSwimBackSpeedChangeAck
  | cmsgForceTurnRateChangeAck
  | cmsgForceFlightSpeedChangeAck
  | cmsgForceFlightBackSpeedChangeAck
  | cmsgMoveHoverAck
  | cmsgMoveSetCanFlyAck
  | cmsgMoveFeatherFallAck
deriving DecidableEq, Repr

/-- Floats: whether two differ by more than 0.01. -/
class MoveFloat (F : Type) extends Zero F where
  differs : F → F → Bool
  differs_self (x : F) : differs x x = false

/-- Exact arithmetic is one instance. -/
scoped instance : MoveFloat ℚ where
  differs x y := decide (|x - y| > 1 / 100)
  differs_self x := by
    rw [sub_self, abs_zero]
    exact decide_eq_false (by norm_num)

structure KnockbackInfo (F : Type) where
  vcos : F
  vsin : F
  speedXY : F
  speedZ : F
deriving DecidableEq

section
variable {F : Type} [MoveFloat F]

def KnockbackInfo.zero : KnockbackInfo F := ⟨0, 0, 0, 0⟩

def KnockbackInfo.differs (a b : KnockbackInfo F) : Bool :=
  MoveFloat.differs a.speedXY b.speedXY || MoveFloat.differs a.speedZ b.speedZ
    || MoveFloat.differs a.vcos b.vcos || MoveFloat.differs a.vsin b.vsin

end

/-- `PlayerMovementPendingChange`, without its time. -/
structure PendingChange (G F : Type) where
  guid : G
  movementChangeType : MovementChangeType
  newValue : F
  apply : Bool
  knockbackInfo : KnockbackInfo F

/-- What the mover is told, apart from the unit and the counter. -/
inductive OrderKind (F : Type)
  | speed (mtype : UnitMoveType) (newSpeedFlat : F)
  | flag (mFlag : MovementFlag) (apply : Bool)
  | knockBack (info : KnockbackInfo F)
  | teleport

structure Order (G F : Type) where
  guid : G
  counter : Nat
  kind : OrderKind F

/-- A packet with an ack. The handler of the opcode reads what it has use for. -/
structure Ack (G F : Type) where
  opcode : AckOpcode
  guid : G
  counter : Nat
  apply : Bool
  speed : F
  jump : KnockbackInfo F

/-- `GetChangeTypeByMoveType`. -/
def getChangeTypeByMoveType : UnitMoveType → MovementChangeType
  | .walk => .speedChangeWalk
  | .run => .speedChangeRun
  | .runBack => .speedChangeRunBack
  | .swim => .speedChangeSwim
  | .swimBack => .speedChangeSwimBack
  | .turnRate => .rateChangeTurn
  | .flight => .speedChangeFlightSpeed
  | .flightBack => .speedChangeFlightBackSpeed

/-- The type that `SendMovementFlagChangeToMover` gives a change. -/
def changeTypeOfFlag : MovementFlag → MovementChangeType
  | .root => .root
  | .waterWalking => .waterWalk
  | .hover => .setHover
  | .canFly => .setCanFly
  | .fallingSlow => .featherFall

/-- The type of change that an opcode acknowledges, in `HasPendingMovementChange`. -/
def changeTypeOfOpcode : AckOpcode → MovementChangeType
  | .msgMoveTeleportAck => .teleport
  | .cmsgMoveKnockBackAck => .knockBack
  | .cmsgForceMoveRootAck => .root
  | .cmsgForceMoveUnrootAck => .root
  | .cmsgMoveWaterWalkAck => .waterWalk
  | .cmsgForceWalkSpeedChangeAck => .speedChangeWalk
  | .cmsgForceRunSpeedChangeAck => .speedChangeRun
  | .cmsgForceRunBackSpeedChangeAck => .speedChangeRunBack
  | .cmsgForceSwimSpeedChangeAck => .speedChangeSwim
  | .cmsgForceSwimBackSpeedChangeAck => .speedChangeSwimBack
  | .cmsgForceTurnRateChangeAck => .rateChangeTurn
  | .cmsgForceFlightSpeedChangeAck => .speedChangeFlightSpeed
  | .cmsgForceFlightBackSpeedChangeAck => .speedChangeFlightBackSpeed
  | .cmsgMoveHoverAck => .setHover
  | .cmsgMoveSetCanFlyAck => .setCanFly
  | .cmsgMoveFeatherFallAck => .featherFall

section
variable {G F : Type} [MoveFloat F]

/-- The change that the functions `Send…ToMover` queue along with an order. -/
def Order.pendingChange (o : Order G F) : PendingChange G F :=
  match o.kind with
  | .speed mtype newSpeedFlat =>
      { guid := o.guid, movementChangeType := getChangeTypeByMoveType mtype,
        newValue := newSpeedFlat, apply := false, knockbackInfo := .zero }
  | .flag mFlag apply =>
      { guid := o.guid, movementChangeType := changeTypeOfFlag mFlag, newValue := 0,
        apply := apply, knockbackInfo := .zero }
  | .knockBack info =>
      { guid := o.guid, movementChangeType := .knockBack, newValue := 0, apply := false,
        knockbackInfo := info }
  | .teleport =>
      { guid := o.guid, movementChangeType := .teleport, newValue := 0, apply := false,
        knockbackInfo := .zero }

/-- The opcode with which a client acknowledges. -/
def OrderKind.ackOpcode : OrderKind F → AckOpcode
  | .speed .walk _ => .cmsgForceWalkSpeedChangeAck
  | .speed .run _ => .cmsgForceRunSpeedChangeAck
  | .speed .runBack _ => .cmsgForceRunBackSpeedChangeAck
  | .speed .swim _ => .cmsgForceSwimSpeedChangeAck
  | .speed .swimBack _ => .cmsgForceSwimBackSpeedChangeAck
  | .speed .turnRate _ => .cmsgForceTurnRateChangeAck
  | .speed .flight _ => .cmsgForceFlightSpeedChangeAck
  | .speed .flightBack _ => .cmsgForceFlightBackSpeedChangeAck
  | .flag .root true => .cmsgForceMoveRootAck
  | .flag .root false => .cmsgForceMoveUnrootAck
  | .flag .waterWalking _ => .cmsgMoveWaterWalkAck
  | .flag .hover _ => .cmsgMoveHoverAck
  | .flag .canFly _ => .cmsgMoveSetCanFlyAck
  | .flag .fallingSlow _ => .cmsgMoveFeatherFallAck
  | .knockBack _ => .cmsgMoveKnockBackAck
  | .teleport => .msgMoveTeleportAck

/-- The honest client: it acknowledges what it was sent. -/
def Order.ack (o : Order G F) : Ack G F where
  opcode := o.kind.ackOpcode
  guid := o.guid
  counter := o.counter
  apply := match o.kind with
    | .flag _ apply => apply
    | _ => false
  speed := match o.kind with
    | .speed _ newSpeedFlat => newSpeedFlat
    | _ => 0
  jump := match o.kind with
    | .knockBack info => info
    | _ => .zero

end

/-! ## Sessions and units -/

/-- The `ClientControl` of a session, with the far sight of its player and whether that
was kicked. `controlUpdates` are the `SMSG_CLIENT_CONTROL_UPDATE` sent; `pushed` and
`resolved` are histories, which the code does not keep. -/
structure ClientControl (U G F : Type) where
  pendingMovementChanges : List (Nat × PendingChange G F)
  movementCounter : Nat
  allowedClientControl : Finset G
  allowedClientMove : Finset G
  activeMover : Option U
  serverActiveMover : Option U
  suppressed : Bool
  farsight : Option G
  kicked : Bool
  controlUpdates : List (G × Bool)
  pushed : List (Nat × PendingChange G F)
  resolved : List (Nat × PendingChange G F)

/-- A session before anything was asked of it. -/
def ClientControl.new {U G F : Type} : ClientControl U G F where
  pendingMovementChanges := []
  movementCounter := 0
  allowedClientControl := ∅
  allowedClientMove := ∅
  activeMover := none
  serverActiveMover := none
  suppressed := false
  farsight := none
  kicked := false
  controlUpdates := []
  pushed := []
  resolved := []

structure MovedUnit (S : Type) where
  playerMovingMe : Option S
  moverSuppressed : Bool

/-- The GUIDs of units and the player of each session. -/
structure Actors (S U G : Type) where
  guid : U → G
  player : S → U

/-- What `ObjectAccessor::GetUnit` finds for a player at some moment. -/
structure Accessor {S U G : Type} (C : Actors S U G) where
  getUnit : G → Option U
  guid_getUnit : ∀ g u, getUnit g = some u → C.guid u = g

structure World (S U G F : Type) where
  sessions : S → ClientControl U G F
  units : U → MovedUnit S
  orders : S → List (Order G F)
  acks : S → List (Ack G F)

/-- Nothing has happened yet. -/
def World.new {S U G F : Type} : World S U G F where
  sessions := fun _ => .new
  units := fun _ => ⟨none, false⟩
  orders := fun _ => []
  acks := fun _ => []

namespace World

variable {S U G F : Type} [DecidableEq S] [DecidableEq U] [LinearOrder G]

def setSession (s : S) (f : ClientControl U G F → ClientControl U G F) (w : World S U G F) :
    World S U G F :=
  { w with sessions := fun t => if t = s then f (w.sessions s) else w.sessions t }

def setUnit (u : U) (f : MovedUnit S → MovedUnit S) (w : World S U G F) : World S U G F :=
  { w with units := fun v => if v = u then f (w.units u) else w.units v }

/-! ## The queue of pending changes -/

/-- `Resolve`, as far as it is told who asked for it. -/
def resolve (s : S) (change : Nat × PendingChange G F) (w : World S U G F) : World S U G F :=
  w.setSession s fun x => { x with resolved := x.resolved ++ [change] }

/-- `PopPendingMovementChange`. -/
def popPendingMovementChange (s : S) (w : World S U G F) : World S U G F :=
  w.setSession s fun x => { x with pendingMovementChanges := x.pendingMovementChanges.tail }

/-- The loop of `ResolveAllPendingChanges` over a queue. -/
def resolveEach (s : S) : List (Nat × PendingChange G F) → World S U G F → World S U G F
  | [], w => w
  | change :: rest, w => resolveEach s rest ((w.popPendingMovementChange s).resolve s change)

/-- `ResolveAllPendingChanges`. -/
def resolveAllPendingChanges (s : S) (w : World S U G F) : World S U G F :=
  if (w.sessions s).activeMover.isNone then w
  else w.resolveEach s (w.sessions s).pendingMovementChanges

/-- `PushPendingMovementChange` and the packet that goes out with it, at the end of each
of the functions `Send…ToMover`. -/
def pushPendingMovementChange [MoveFloat F] (s : S) (guid : G) (kind : OrderKind F)
    (w : World S U G F) : World S U G F :=
  let order : Order G F := ⟨guid, ((w.sessions s).movementCounter + 1) % 2 ^ 32, kind⟩
  let w := w.setSession s fun x =>
    { x with
      movementCounter := order.counter
      pendingMovementChanges :=
        x.pendingMovementChanges ++ [(order.counter, order.pendingChange)]
      pushed := x.pushed ++ [(order.counter, order.pendingChange)] }
  { w with orders := fun t => if t = s then w.orders s ++ [order] else w.orders t }

/-- `SendSpeedChangeToMover`, `SendMovementFlagChangeToMover`, `SendKnockBackToMover` and
`SendTeleportAckPacket`. -/
def sendToMover [MoveFloat F] (C : Actors S U G) (u : U) (kind : OrderKind F)
    (w : World S U G F) : World S U G F :=
  match (w.units u).playerMovingMe with
  | none => w
  | some s => w.pushPendingMovementChange s (C.guid u) kind

/-! ## The server's mover -/

/-- `InitActiveMover`. -/
def initActiveMover (C : Actors S U G) (s : S) (u : U) (w : World S U G F) : World S U G F :=
  (w.setSession s fun x =>
    { x with
      activeMover := none
      serverActiveMover := some u
      allowedClientControl := insert (C.guid u) x.allowedClientControl }).setUnit u fun v =>
        { v with playerMovingMe := some s }

/-- `SetClientControl`. -/
def setClientControl (C : Actors S U G) (s : S) (target : U) (allowMove : Bool)
    (w : World S U G F) : World S U G F :=
  w.setSession s fun x =>
    { x with controlUpdates := x.controlUpdates ++ [(C.guid target, allowMove)] }

/-- `UpdateTakeControl`. -/
def updateTakeControl (C : Actors S U G) (s : S) (target : U) (allowMove : Bool)
    (w : World S U G F) : World S U G F :=
  let targetSuppressed := (w.units target).moverSuppressed
  if allowMove then
    if (w.sessions s).serverActiveMover = some target then w
    else
      let w := (w.setSession s fun x =>
        { x with serverActiveMover := some target, suppressed := targetSuppressed }).setUnit
          target fun v => { v with playerMovingMe := some s }
      if targetSuppressed then w else w.setClientControl C s target allowMove
  else if (w.sessions s).serverActiveMover = some target then
    ((w.setSession s fun x =>
      { x with serverActiveMover := none, suppressed := false }).setUnit
        target fun v => { v with playerMovingMe := none }).setClientControl C s target allowMove
  else w.setClientControl C s target allowMove

/-- `SetViewpoint`, as far as the far sight of the player is concerned. -/
def setViewpoint (s : S) (guid : G) (apply : Bool) (w : World S U G F) : World S U G F :=
  w.setSession s fun x =>
    { x with farsight :=
        if apply then x.farsight.or (some guid)
        else if x.farsight = some guid then none else x.farsight }

/-- `AllowTakeControl`. -/
def allowTakeControl (C : Actors S U G) (s : S) (target : U) (charm : Bool)
    (w : World S U G F) : World S U G F :=
  let w := w.setSession s fun x =>
    { x with allowedClientControl := insert (C.guid target) x.allowedClientControl }
  if charm || (w.sessions s).serverActiveMover.isNone then
    let w :=
      if target = C.player s then w.setSession s fun x => { x with farsight := none }
      else w.setViewpoint s (C.guid target) true
    w.updateTakeControl C s target true
  else w

/-- `begin()` of a set of GUIDs. -/
def firstGuid (allowed : Finset G) : Option G := allowed.min

/-- The end of `DisallowTakeControl` for the server-active mover: it is released, and the
first other unit that may be controlled takes its place. -/
def restoreControl (C : Actors S U G) (s : S) (target : U) (find : Accessor C)
    (w : World S U G F) : World S U G F :=
  let w := w.updateTakeControl C s target false
  match (firstGuid (w.sessions s).allowedClientControl).bind find.getUnit with
  | none => w
  | some allowed => w.updateTakeControl C s allowed true

/-- `DisallowTakeControl`. -/
def disallowTakeControl (C : Actors S U G) (s : S) (target : U) (find : Accessor C)
    (w : World S U G F) : World S U G F :=
  let w := w.setSession s fun x =>
    { x with allowedClientControl := x.allowedClientControl.erase (C.guid target) }
  let w :=
    if (w.sessions s).serverActiveMover = some target then w.restoreControl C s target find
    else w
  if (w.sessions s).farsight = some (C.guid target) then
    w.setViewpoint s (C.guid target) false
  else w

/-- `PlayerDisconnect`. -/
def playerDisconnect (s : S) (w : World S U G F) : Option (World S U G F) :=
  match (w.sessions s).serverActiveMover with
  | none => some w
  | some u =>
      if (w.units u).playerMovingMe = some s then
        some ((w.setUnit u fun v => { v with playerMovingMe := none }).setSession s fun x =>
          { x with serverActiveMover := none, suppressed := false })
      else none

/-- `ClientControl::UpdateSuppressedMover`. -/
def updateSuppressedMover (C : Actors S U G) (s : S) (target : U) (w : World S U G F) :
    Option (World S U G F) :=
  if (w.sessions s).serverActiveMover = some target ∧
      (w.units target).playerMovingMe = some s then
    let suppressed := (w.units target).moverSuppressed
    if (w.sessions s).suppressed = suppressed then some w
    else
      some ((w.setClientControl C s target (!suppressed)).setSession s fun x =>
        { x with suppressed := suppressed })
  else none

/-- `Unit::UpdateSuppressedMover`, for a unit that now can or cannot be controlled. -/
def unitUpdateSuppressedMover (C : Actors S U G) (u : U) (cantControl : Bool)
    (w : World S U G F) : Option (World S U G F) :=
  let lastState := (w.units u).moverSuppressed
  let w := w.setUnit u fun v => { v with moverSuppressed := cantControl }
  if cantControl = lastState then some w
  else
    match (w.units u).playerMovingMe with
    | none => some w
    | some s => w.updateSuppressedMover C s u

/-- A unit is destroyed: no weak pointer leads to it any more. -/
def destroyUnit (u : U) (w : World S U G F) : World S U G F :=
  { w with
    sessions := fun s =>
      { w.sessions s with
        activeMover := (w.sessions s).activeMover.filter (· ≠ u)
        serverActiveMover := (w.sessions s).serverActiveMover.filter (· ≠ u) }
    units := fun v => if v = u then ⟨none, false⟩ else w.units v }

/-! ## The client's mover -/

/-- `AllowMover`. -/
def allowMover (C : Actors S U G) (s : S) (mover : U) (w : World S U G F) : World S U G F :=
  w.setSession s fun x =>
    { x with allowedClientMove := insert (C.guid mover) x.allowedClientMove }

/-- `DisallowMover`. -/
def disallowMover (C : Actors S U G) (s : S) (mover : U) (w : World S U G F) :
    World S U G F :=
  (w.setSession s fun x =>
    { x with allowedClientMove := x.allowedClientMove.erase (C.guid mover) })
      |>.resolveAllPendingChanges s

/-- The start of `SetActiveMover`: the session that the unit refers to may not move it
any more. -/
def disallowMovingMe (C : Actors S U G) (mover : U) (w : World S U G F) : World S U G F :=
  match (w.units mover).playerMovingMe with
  | none => w
  | some t => w.disallowMover C t mover

/-- `SetActiveMover`. -/
def setActiveMover (C : Actors S U G) (s : S) (mover : U) (w : World S U G F) :
    World S U G F :=
  let w := ((w.disallowMovingMe C mover).disallowMover C s mover).setSession s fun x =>
    { x with activeMover := some mover }
  if C.guid mover ∈ (w.sessions s).allowedClientControl then w.allowMover C s mover else w

/-- `ResetActiveMover`. -/
def resetActiveMover (s : S) (w : World S U G F) : World S U G F :=
  w.setSession s fun x => { x with activeMover := none }

/-- `ClientSetActiveMover`. -/
def clientSetActiveMover (C : Actors S U G) (s : S) (guid : G) (find : Accessor C)
    (w : World S U G F) : World S U G F :=
  if (w.sessions s).activeMover.map C.guid = some guid then w
  else if guid ∉ (w.sessions s).allowedClientControl then w
  else
    match find.getUnit guid with
    | none => w
    | some mover => (w.resetActiveMover s).setActiveMover C s mover

/-- `ClientSetNotActiveMover`, without the position it updates. -/
def clientSetNotActiveMover (s : S) (w : World S U G F) : World S U G F :=
  if (w.sessions s).activeMover.isNone then w else w.resetActiveMover s

/-! ## Acks -/

section
variable [MoveFloat F]

/-- `HasPendingMovementChange`. -/
def hasPendingMovementChange (s : S) (a : Ack G F) (apply : Bool) (w : World S U G F) : Bool :=
  match (w.sessions s).pendingMovementChanges with
  | [] => false
  | (counter, change) :: _ =>
      decide (counter = a.counter
        ∧ change.movementChangeType = changeTypeOfOpcode a.opcode
        ∧ change.guid = a.guid ∧ change.apply = apply)

/-- `KickPlayer`. -/
def kickPlayer (s : S) (w : World S U G F) : World S U G F :=
  w.setSession s fun x => { x with kicked := true }

/-- `Resolve` for an ack: the unit has to be there and to be the one of the change. -/
def resolveAck (C : Actors S U G) (s : S) (mover : Option U)
    (change : Nat × PendingChange G F) (w : World S U G F) : Option (World S U G F) :=
  if mover.map C.guid = some change.2.guid then some (w.resolve s change) else none

/-- The check of an ack against the front of the queue, and what follows when it is
passed. -/
def ackFront (C : Actors S U G) (s : S) (mover : Option U) (a : Ack G F) (apply : Bool)
    (incorrect : PendingChange G F → Bool) (w : World S U G F) : Option (World S U G F) :=
  if w.hasPendingMovementChange s a apply then
    match (w.sessions s).pendingMovementChanges with
    | [] => none
    | change :: _ =>
        let w := w.popPendingMovementChange s
        if incorrect change.2 then some (w.kickPlayer s)
        else w.resolveAck C s mover change
  else some (w.kickPlayer s)

/-- `HandleForceSpeedChangeAck`. -/
def handleForceSpeedChangeAck (C : Actors S U G) (s : S) (find : Accessor C) (a : Ack G F)
    (w : World S U G F) : Option (World S U G F) :=
  if a.guid ∉ (w.sessions s).allowedClientMove then some w
  else if (find.getUnit a.guid).isNone then some w
  else
    w.ackFront C s (find.getUnit a.guid) a false fun change =>
      MoveFloat.differs change.newValue a.speed

/-- `HandleMoveKnockBackAck`. -/
def handleMoveKnockBackAck (C : Actors S U G) (s : S) (find : Accessor C) (a : Ack G F)
    (w : World S U G F) : Option (World S U G F) :=
  if a.guid ∉ (w.sessions s).allowedClientMove then some w
  else
    w.ackFront C s (find.getUnit a.guid) a false fun change =>
      change.knockbackInfo.differs a.jump

/-- `HandleMovementFlagChangeAck`: the opcode says whether the flag is applied. -/
def handleMovementFlagChangeAck (C : Actors S U G) (s : S) (find : Accessor C) (a : Ack G F)
    (w : World S U G F) : Option (World S U G F) :=
  if a.guid ∉ (w.sessions s).allowedClientMove then some w
  else
    w.ackFront C s (find.getUnit a.guid) a (decide (a.opcode = .cmsgForceMoveRootAck))
      fun _ => false

/-- `HandleMovementFlagChangeToggleAck`: the packet says whether the flag is applied. -/
def handleMovementFlagChangeToggleAck (C : Actors S U G) (s : S) (find : Accessor C)
    (a : Ack G F) (w : World S U G F) : Option (World S U G F) :=
  if a.guid ∉ (w.sessions s).allowedClientMove then some w
  else w.ackFront C s (find.getUnit a.guid) a a.apply fun _ => false

/-- `HandleMoveTeleportAck`: the only handler that looks at the queue before it asks
whether the client may move the unit. -/
def handleMoveTeleportAck (C : Actors S U G) (s : S) (find : Accessor C) (a : Ack G F)
    (w : World S U G F) : Option (World S U G F) :=
  if !w.hasPendingMovementChange s a false then some (w.kickPlayer s)
  else if a.guid ∉ (w.sessions s).allowedClientMove then some w
  else if (find.getUnit a.guid).isNone then some w
  else w.ackFront C s (find.getUnit a.guid) a false fun _ => false

/-- The handler of an opcode. -/
def handleAck (C : Actors S U G) (s : S) (find : Accessor C) (a : Ack G F)
    (w : World S U G F) : Option (World S U G F) :=
  match a.opcode with
  | .msgMoveTeleportAck => w.handleMoveTeleportAck C s find a
  | .cmsgMoveKnockBackAck => w.handleMoveKnockBackAck C s find a
  | .cmsgForceMoveRootAck | .cmsgForceMoveUnrootAck =>
      w.handleMovementFlagChangeAck C s find a
  | .cmsgMoveWaterWalkAck | .cmsgMoveHoverAck | .cmsgMoveSetCanFlyAck
  | .cmsgMoveFeatherFallAck => w.handleMovementFlagChangeToggleAck C s find a
  | .cmsgForceWalkSpeedChangeAck | .cmsgForceRunSpeedChangeAck
  | .cmsgForceRunBackSpeedChangeAck | .cmsgForceSwimSpeedChangeAck
  | .cmsgForceSwimBackSpeedChangeAck | .cmsgForceTurnRateChangeAck
  | .cmsgForceFlightSpeedChangeAck | .cmsgForceFlightBackSpeedChangeAck =>
      w.handleForceSpeedChangeAck C s find a

/-- The client takes the next order and acknowledges it. -/
def clientAck (s : S) (w : World S U G F) : World S U G F :=
  match w.orders s with
  | [] => w
  | order :: rest =>
      { w with
        orders := fun t => if t = s then rest else w.orders t
        acks := fun t => if t = s then w.acks s ++ [order.ack] else w.acks t }

/-- The next ack reaches the server. -/
def receiveAck (C : Actors S U G) (s : S) (find : Accessor C) (w : World S U G F) :
    Option (World S U G F) :=
  match w.acks s with
  | [] => some w
  | a :: rest =>
      { w with acks := fun t => if t = s then rest else w.acks t }.handleAck C s find a

end

/-! ## Operations -/

inductive Op {S U G : Type} (F : Type) (C : Actors S U G)
  | initActiveMover (s : S) (u : U)
  | allowTakeControl (s : S) (target : U) (charm : Bool)
  | disallowTakeControl (s : S) (target : U) (find : Accessor C)
  | playerDisconnect (s : S)
  | updateSuppressedMover (u : U) (cantControl : Bool)
  | destroyUnit (u : U)
  | allowMover (s : S) (mover : U)
  | disallowMover (s : S) (mover : U)
  | setActiveMover (s : S) (mover : U)
  | clientSetActiveMover (s : S) (guid : G) (find : Accessor C)
  | clientSetNotActiveMover (s : S)
  | resolveAllPendingChanges (s : S)
  | sendToMover (u : U) (kind : OrderKind F)
  | clientAck (s : S)
  | receiveAck (s : S) (find : Accessor C)

variable [MoveFloat F]

/-- One operation; `none` when an assertion fails. -/
def exec {C : Actors S U G} (w : World S U G F) : Op F C → Option (World S U G F)
  | .initActiveMover s u => some (w.initActiveMover C s u)
  | .allowTakeControl s target charm => some (w.allowTakeControl C s target charm)
  | .disallowTakeControl s target find => some (w.disallowTakeControl C s target find)
  | .playerDisconnect s => w.playerDisconnect s
  | .updateSuppressedMover u cantControl => w.unitUpdateSuppressedMover C u cantControl
  | .destroyUnit u => some (w.destroyUnit u)
  | .allowMover s mover => some (w.allowMover C s mover)
  | .disallowMover s mover => some (w.disallowMover C s mover)
  | .setActiveMover s mover => some (w.setActiveMover C s mover)
  | .clientSetActiveMover s guid find => some (w.clientSetActiveMover C s guid find)
  | .clientSetNotActiveMover s => some (w.clientSetNotActiveMover s)
  | .resolveAllPendingChanges s => some (w.resolveAllPendingChanges s)
  | .sendToMover u kind => some (w.sendToMover C u kind)
  | .clientAck s => some (w.clientAck s)
  | .receiveAck s find => w.receiveAck C s find

/-- A server that an assertion has stopped stays where it was. -/
def step {C : Actors S U G} (w : World S U G F) (op : Op F C) : World S U G F :=
  (w.exec op).getD w

end World

end Sunstrider.Movement
