import Sunstrider.Sockets.AuthCrypt
import Sunstrider.Sockets.MessageBuffer

/-!
# Packets to a client

Packets are queued by other threads. `Update` takes them out, encrypts their headers and
packs small ones into buffers of a size that is configured; a packet that fits into none
gets one of its own. The buffers wait in another queue, and are written to the socket as far
as it takes them: at once, and if it would block, when it is ready again.

The connection stays open and nothing but `would_block` goes wrong with it. A write of some
bytes takes one of them at least. Headers are those of the client with four-byte headers;
`none` is a write outside a buffer.
-/

namespace Sunstrider.Sockets

/-- The bytes of a `ServerPktHeader`. -/
def serverPktHeader (size : Nat) (cmd : UInt16) : List UInt8 :=
  [UInt8.ofNat (size / 2 ^ 8), UInt8.ofNat size, cmd.toUInt8, (cmd >>> 8).toUInt8]

structure EncryptablePacket where
  opcode : UInt16
  contents : List UInt8
  /-- `NeedsEncryption`. -/
  encrypt : Bool
deriving DecidableEq, Repr

variable {A : Type}

/-- The sending half of a `WorldSocket`. -/
structure SendSocket (A : Type) where
  bufferQueue : List EncryptablePacket
  authCrypt : Option (AuthCrypt A)
  sendBufferSize : Nat
  writeQueue : List MessageBuffer
  isWritingAsync : Bool
  /-- All that the connection was given. -/
  written : List UInt8

/-- What a call of `write_some` does: it would block, or takes at most so many bytes and one
more. -/
inductive WriteSome
  | wouldBlock
  | takes (n : Nat)
deriving DecidableEq, Repr

/-- The header, encrypted if the packet is to be and there is a cipher. -/
def encryptHeader (arc : ARC4 A) (p : EncryptablePacket) (crypt : Option (AuthCrypt A)) :
    Option (AuthCrypt A) × List UInt8 :=
  let header := serverPktHeader (p.contents.length + 2) p.opcode
  match crypt with
  | none => (none, header)
  | some c =>
      if p.encrypt then (some (c.encryptSend arc header).1, (c.encryptSend arc header).2)
      else (some c, header)

namespace SendSocket

def new (sendBufferSize : Nat) : SendSocket A where
  bufferQueue := []
  authCrypt := none
  sendBufferSize := sendBufferSize
  writeQueue := []
  isWritingAsync := false
  written := []

/-- `SendPacket`. -/
def sendPacket (opcode : UInt16) (contents : List UInt8) (s : SendSocket A) : SendSocket A :=
  let encrypt :=
    match s.authCrypt with
    | none => false
    | some c => c.initialized
  { s with bufferQueue := s.bufferQueue ++ [⟨opcode, contents, encrypt⟩] }

/-- `QueuePacket`. -/
def queuePacket (b : MessageBuffer) (s : SendSocket A) : SendSocket A :=
  { s with writeQueue := s.writeQueue ++ [b] }

/-- The body of the loop in `Update`, with the buffer it fills. -/
def packPacket (arc : ARC4 A) (p : EncryptablePacket) (buffer : MessageBuffer)
    (s : SendSocket A) : Option (MessageBuffer × SendSocket A) :=
  let (crypt, header) := encryptHeader arc p s.authCrypt
  let s := { s with authCrypt := crypt }
  let size := p.contents.length + header.length
  let (buffer, s) :=
    if buffer.remainingSpace < size then
      (MessageBuffer.moved.resize s.sendBufferSize, s.queuePacket buffer)
    else (buffer, s)
  if size ≤ buffer.remainingSpace then
    match buffer.write header with
    | none => none
    | some buffer =>
        match buffer.write p.contents with
        | none => none
        | some buffer => some (buffer, s)
  else
    match (MessageBuffer.new size).write header with
    | none => none
    | some packetBuffer =>
        match packetBuffer.write p.contents with
        | none => none
        | some packetBuffer => some (buffer, s.queuePacket packetBuffer)

/-- The loop in `Update`. -/
def packPackets (arc : ARC4 A) : List EncryptablePacket → MessageBuffer → SendSocket A →
    Option (MessageBuffer × SendSocket A)
  | [], buffer, s => some (buffer, s)
  | p :: ps, buffer, s =>
      match s.packPacket arc p buffer with
      | none => none
      | some (buffer, s) => packPackets arc ps buffer s

/-- `AsyncProcessQueue`; it never says that there is more to do. -/
def asyncProcessQueue (s : SendSocket A) : SendSocket A := { s with isWritingAsync := true }

/-- `HandleQueue`: whether there is more to do. -/
def handleQueue (w : WriteSome) (s : SendSocket A) : Bool × SendSocket A :=
  match s.writeQueue with
  | [] => (false, s)
  | queuedMessage :: rest =>
      let bytesToSend := queuedMessage.activeSize
      match w with
      | .wouldBlock => (false, s.asyncProcessQueue)
      | .takes n =>
          let bytesSent := min (n + 1) bytesToSend
          let s := { s with written := s.written ++ queuedMessage.readPointer bytesSent }
          if bytesSent = 0 then (false, { s with writeQueue := rest })
          else if bytesSent < bytesToSend then
            (false, { s with
              writeQueue := queuedMessage.readCompleted bytesSent :: rest }.asyncProcessQueue)
          else (!rest.isEmpty, { s with writeQueue := rest })

/-- The loop in `Socket::Update`, with what the socket does each time. -/
def handleQueues : List WriteSome → SendSocket A → SendSocket A
  | [], s => (s.handleQueue .wouldBlock).2
  | w :: ws, s =>
      match s.handleQueue w with
      | (true, s) => handleQueues ws s
      | (false, s) => s

/-- `Update`. -/
def update (arc : ARC4 A) (ws : List WriteSome) (s : SendSocket A) : Option (SendSocket A) :=
  match packPackets arc s.bufferQueue (.new s.sendBufferSize) { s with bufferQueue := [] } with
  | none => none
  | some (buffer, s) =>
      let s := if 0 < buffer.activeSize then s.queuePacket buffer else s
      if s.isWritingAsync || s.writeQueue.isEmpty then some s else some (s.handleQueues ws)

/-- `WriteHandlerWrapper`, if it was asked to be called. -/
def writeHandlerWrapper (w : WriteSome) (s : SendSocket A) : SendSocket A :=
  if s.isWritingAsync then ({ s with isWritingAsync := false }.handleQueue w).2 else s

/-- `HandleAuthSessionCallback`, as far as packets are sent: there is a cipher from now on. -/
def initCrypt (crypt : AuthCrypt A) (s : SendSocket A) : SendSocket A :=
  if s.authCrypt.isSome then s else { s with authCrypt := some crypt }

inductive Op (A : Type)
  | sendPacket (opcode : UInt16) (contents : List UInt8)
  | initCrypt (crypt : AuthCrypt A)
  | update (ws : List WriteSome)
  | writeHandler (w : WriteSome)

def exec (arc : ARC4 A) (s : SendSocket A) : Op A → Option (SendSocket A)
  | .sendPacket opcode contents => some (s.sendPacket opcode contents)
  | .initCrypt crypt => some (s.initCrypt crypt)
  | .update ws => s.update arc ws
  | .writeHandler w => some (s.writeHandlerWrapper w)

end SendSocket

end Sunstrider.Sockets
