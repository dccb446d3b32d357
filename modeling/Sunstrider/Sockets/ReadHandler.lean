import Sunstrider.Sockets.AuthCrypt
import Sunstrider.Sockets.MessageBuffer

/-!
# Packets from a client

Bytes arrive in the read buffer, as many at a time as the network gives. `ReadHandler`
moves them to a buffer for the header of a packet and from there on to one for its
payload, and hands on what is complete. One packet, the one by which a client
authenticates, stops the reading until the database has answered.

What the handlers of packets do is not modelled, but what `ReadDataHandler` makes of them
is: their state is a parameter, with what decides whether a packet goes through. `none` is
a failed assertion or a write outside a buffer. The numbers of opcodes are those of the
first of the two supported clients.
-/

namespace Sunstrider.Sockets

def numOpcodeHandlers : Nat := 0x424
def cmsgPing : Nat := 0x1DC
def cmsgAuthSession : Nat := 0x1ED
def cmsgTimeSyncResp : Nat := 0x391
def cmsgKeepAlive : Nat := 0x406

/-- `sizeof(ClientPktHeader)`. -/
def sizeofClientPktHeader : Nat := 6

/-- `ClientPktHeader`, the size with its bytes reversed. -/
structure ClientPktHeader where
  size : Nat
  cmd : Nat
deriving DecidableEq, Repr

def ClientPktHeader.isValidSize (h : ClientPktHeader) : Bool :=
  decide (4 ≤ h.size) && decide (h.size < 10240)

def ClientPktHeader.isValidOpcode (h : ClientPktHeader) : Bool := decide (h.cmd < numOpcodeHandlers)

/-- The opcode in the bytes of a header. -/
def headerCmd (bytes : List UInt8) : Nat :=
  (bytes.getD 2 0).toNat + 2 ^ 8 * (bytes.getD 3 0).toNat + 2 ^ 16 * (bytes.getD 4 0).toNat +
    2 ^ 24 * (bytes.getD 5 0).toNat

/-- The header, after `EndianConvertReverse` and `EndianConvert`. -/
def ClientPktHeader.ofBytes (bytes : List UInt8) : ClientPktHeader where
  size := 2 ^ 8 * (bytes.getD 0 0).toNat + (bytes.getD 1 0).toNat
  cmd := headerCmd bytes

/-- The bytes of the header once its size is converted and does not count the opcode. -/
def headerInPlace (bytes : List UInt8) : List UInt8 :=
  let size := (ClientPktHeader.ofBytes bytes).size - 4
  UInt8.ofNat size :: UInt8.ofNat (size / 2 ^ 8) :: bytes.drop 2

inductive ReadDataHandlerResult
  | ok
  | error
  | waitingForQuery
deriving DecidableEq, Repr

/-- What the handlers of packets do, with a state of their own. `none` is a packet that ends
before its contents do, which is an exception. -/
structure Handlers (H : Type) where
  /-- The answer of `HandlePing`, with or without a session. -/
  handlePing : Bool → List UInt8 → H → Option Bool × H
  /-- `HandleAuthSession` reads the packet to its end. -/
  handleAuthSession : List UInt8 → H → Bool
  handleTimeSyncResp : List UInt8 → H → Option H
  /-- `QueuePacket`, if there is a handler for the opcode. -/
  queuePacket : Nat → List UInt8 → H → H

variable {A H : Type}

/-- What the socket knows of its client. -/
structure Client (A H : Type) where
  authCrypt : Option (AuthCrypt A)
  authed : Bool
  /-- There is a `_worldSession`. -/
  worldSession : Bool
  closed : Bool
  /-- An exception left `ReadHandler` and ended the process. -/
  terminated : Bool
  handlers : H
  /-- The packets that came to `ReadDataHandler`. -/
  delivered : List (Nat × List UInt8)
  /-- How many headers came to `ReadHeaderHandler`. -/
  headers : Nat

namespace Client

/-- `CloseSocket`, with `OnClose`. -/
def closeSocket (c : Client A H) : Client A H := { c with closed := true, worldSession := false }

/-- `DecryptRecv` on a header, if there is a cipher. -/
def decryptRecv (arc : ARC4 A) (bytes : List UInt8) (c : Client A H) :
    List UInt8 × Client A H :=
  let c := { c with headers := c.headers + 1 }
  match c.authCrypt with
  | none => (bytes, c)
  | some crypt =>
      ((crypt.decryptRecv arc bytes).2, { c with authCrypt := some (crypt.decryptRecv arc bytes).1 })

/-- `ReadDataHandler`; `none` is an exception that is not caught. -/
def readDataHandler (E : Handlers H) (opcode : Nat) (payload : List UInt8) (c : Client A H) :
    Option ReadDataHandlerResult × Client A H :=
  let c := { c with delivered := c.delivered ++ [(opcode, payload)] }
  if opcode = cmsgPing then
    match E.handlePing c.worldSession payload c.handlers with
    | (some true, h) => (some .ok, { c with handlers := h })
    | (some false, h) => (some .error, { c with handlers := h })
    | (none, h) => (some .error, { c with handlers := h })
  else if opcode = cmsgAuthSession then
    if c.authed then (some .error, c)
    else if E.handleAuthSession payload c.handlers then (some .waitingForQuery, c)
    else (some .error, c)
  else if opcode = cmsgKeepAlive then (some .ok, c)
  else if opcode = cmsgTimeSyncResp then
    if c.worldSession then
      match E.handleTimeSyncResp payload c.handlers with
      | some h => (some .ok, { c with handlers := h })
      | none => (none, { c with terminated := true })
    else (some .ok, c)
  else if !c.worldSession then (some .error, c.closeSocket)
  else (some .ok, { c with handlers := E.queuePacket opcode payload c.handlers })

end Client

/-- A `WorldSocket`, as far as it reads. -/
structure WorldSocket (A H : Type) where
  client : Client A H
  readBuffer : MessageBuffer
  headerBuffer : MessageBuffer
  packetBuffer : MessageBuffer
  closing : Bool
  /-- An asynchronous read has been started. -/
  reading : Bool
  /-- The query of `HandleAuthSession` has not been answered. -/
  querying : Bool

namespace WorldSocket

/-- The constructor, and the first `AsyncRead`. -/
def new (h : H) : WorldSocket A H where
  client := ⟨none, false, false, false, false, h, [], 0⟩
  readBuffer := .new 4096
  headerBuffer := .new sizeofClientPktHeader
  packetBuffer := .new 4096
  closing := false
  reading := true
  querying := false

def isOpen (s : WorldSocket A H) : Bool := !s.client.closed && !s.closing

def asyncRead (s : WorldSocket A H) : WorldSocket A H :=
  if !s.isOpen then s
  else { s with readBuffer := s.readBuffer.normalize.ensureFreeSpace, reading := true }

def closeSocket (s : WorldSocket A H) : WorldSocket A H := { s with client := s.client.closeSocket }

/-- `ReadHeaderHandler`. -/
def readHeaderHandler (arc : ARC4 A) (s : WorldSocket A H) : Option (Bool × WorldSocket A H) :=
  if s.headerBuffer.activeSize ≠ sizeofClientPktHeader then none
  else
    let (bytes, client) := s.client.decryptRecv arc s.headerBuffer.activeBytes
    let header := ClientPktHeader.ofBytes bytes
    if !header.isValidSize || !header.isValidOpcode then
      some (false, { s with client := client, headerBuffer := s.headerBuffer.overwrite bytes })
    else
      some (true,
        { s with
          client := client
          headerBuffer := s.headerBuffer.overwrite (headerInPlace bytes)
          packetBuffer := s.packetBuffer.resize (header.size - 4) })

/-- How a turn of the loop ends. -/
inductive Turn
  | again
  | leave
  | quit
deriving DecidableEq, Repr

/-- The end of a turn: a packet is complete. -/
def readPacket (E : Handlers H) (s : WorldSocket A H) : Option (Turn × WorldSocket A H) :=
  let (result, client) :=
    s.client.readDataHandler E (headerCmd s.headerBuffer.activeBytes) s.packetBuffer.storage
  let s := { s with client := client, packetBuffer := .moved }
  match result with
  | none => some (.quit, s)
  | some .ok => some (.again, { s with headerBuffer := s.headerBuffer.reset })
  | some .error => some (.quit, { s with headerBuffer := s.headerBuffer.reset }.closeSocket)
  | some .waitingForQuery =>
      some (.quit, { s with headerBuffer := s.headerBuffer.reset, querying := true })

/-- The middle of a turn: the header is there. -/
def readPayload (E : Handlers H) (s : WorldSocket A H) : Option (Turn × WorldSocket A H) :=
  if 0 < s.packetBuffer.remainingSpace then
    let readDataSize := min s.readBuffer.activeSize s.packetBuffer.remainingSpace
    match s.packetBuffer.write (s.readBuffer.readPointer readDataSize) with
    | none => none
    | some packetBuffer =>
        let s :=
          { s with packetBuffer := packetBuffer, readBuffer := s.readBuffer.readCompleted readDataSize }
        if 0 < s.packetBuffer.remainingSpace then
          if s.readBuffer.activeSize ≠ 0 then none else some (.leave, s)
        else s.readPacket E
  else s.readPacket E

/-- A turn of the loop in `ReadHandler`. -/
def readTurn (arc : ARC4 A) (E : Handlers H) (s : WorldSocket A H) :
    Option (Turn × WorldSocket A H) :=
  if 0 < s.headerBuffer.remainingSpace then
    let readHeaderSize := min s.readBuffer.activeSize s.headerBuffer.remainingSpace
    match s.headerBuffer.write (s.readBuffer.readPointer readHeaderSize) with
    | none => none
    | some headerBuffer =>
        let s :=
          { s with
            headerBuffer := headerBuffer, readBuffer := s.readBuffer.readCompleted readHeaderSize }
        if 0 < s.headerBuffer.remainingSpace then
          if s.readBuffer.activeSize ≠ 0 then none else some (.leave, s)
        else
          match s.readHeaderHandler arc with
          | none => none
          | some (true, s) => s.readPayload E
          | some (false, s) => some (.quit, s.closeSocket)
  else s.readPayload E

/-- The loop in `ReadHandler`. Every turn reads a byte, so there are at most as many turns as
bytes; with no fuel left while there are bytes it would not end, which is `none`. -/
def readLoop (arc : ARC4 A) (E : Handlers H) : Nat → WorldSocket A H → Option (WorldSocket A H)
  | fuel, s =>
    if s.readBuffer.activeSize = 0 then some s.asyncRead
    else
      match fuel with
      | 0 => none
      | fuel + 1 =>
          match s.readTurn arc E with
          | none => none
          | some (.again, s) => readLoop arc E fuel s
          | some (.leave, s) => some s.asyncRead
          | some (.quit, s) => some s

/-- `ReadHandler`. -/
def readHandler (arc : ARC4 A) (E : Handlers H) (s : WorldSocket A H) : Option (WorldSocket A H) :=
  if !s.isOpen then some s else readLoop arc E s.readBuffer.activeSize s

/-! ## What happens to a socket -/

inductive Op (A : Type)
  /-- The read that was started ends with bytes. -/
  | read (bytes : List UInt8)
  /-- The database answers: `HandleAuthSessionCallback`, with the cipher of a client that may
  come in. -/
  | answer (crypt : Option (AuthCrypt A))

/-- What can happen now: a read that was started ends, with as many bytes as there is room
for, or a query that was asked is answered. -/
def enabled (s : WorldSocket A H) : Op A → Prop
  | .read bytes => s.reading = true ∧ bytes ≠ [] ∧ bytes.length ≤ s.readBuffer.remainingSpace
  | .answer _ => s.querying = true

instance (s : WorldSocket A H) : (op : Op A) → Decidable (s.enabled op)
  | .read bytes =>
      inferInstanceAs (Decidable (s.reading = true ∧ bytes ≠ [] ∧
        bytes.length ≤ s.readBuffer.remainingSpace))
  | .answer _ => inferInstanceAs (Decidable (s.querying = true))

def exec (arc : ARC4 A) (E : Handlers H) (s : WorldSocket A H) : Op A → Option (WorldSocket A H)
  | .read bytes =>
      match s.readBuffer.write bytes with
      | none => none
      | some readBuffer => { s with reading := false, readBuffer := readBuffer }.readHandler arc E
  | .answer none => some { s with querying := false, closing := true }
  | .answer (some crypt) =>
      some { s with
        querying := false
        client := { s.client with authCrypt := some crypt, authed := true, worldSession := true }
        }.asyncRead

end WorldSocket

end Sunstrider.Sockets
