import Mathlib

/-!
# The cipher of packet headers

Headers are encrypted once a client has shown who it is. For one build of the client every
byte is mixed with a byte of the key and the byte before it; for the other it is a stream
cipher of a library, of which only the next byte of the stream is asked. Either way the
state goes on from byte to byte, so whoever decrypts must see every byte once, in order.
-/

namespace Sunstrider.Sockets

inductive ClientBuild
  | build243
  | build335
  | other
deriving DecidableEq, Repr

def shaDigestLength : Nat := 20
def cryptedSendLen : Nat := 4
def cryptedRecvLen : Nat := 6

/-- The library's stream cipher: the next byte of the stream, and the state after it. -/
structure ARC4 (A : Type) where
  next : A → UInt8 × A

structure AuthCrypt (A : Type) where
  initialized : Bool
  clientBuild : ClientBuild
  clientDecrypt : A
  serverEncrypt : A
  key : Fin shaDigestLength → UInt8
  sendI : UInt8
  sendJ : UInt8
  recvI : UInt8
  recvJ : UInt8

/-- A state that goes through a list, byte by byte. -/
def throughBytes {S : Type} (f : S → UInt8 → S × UInt8) : S → List UInt8 → S × List UInt8
  | s, [] => (s, [])
  | s, b :: bs =>
      let (s', b') := f s b
      let (s'', bs') := throughBytes f s' bs
      (s'', b' :: bs')

theorem length_throughBytes {S : Type} (f : S → UInt8 → S × UInt8) (s : S) (bs : List UInt8) :
    (throughBytes f s bs).2.length = bs.length := by
  induction bs generalizing s with
  | nil => rfl
  | cons b bs ih => exact congrArg Nat.succ (ih _)

/-- `UpdateData`. -/
def ARC4.updateData {A : Type} (arc : ARC4 A) : A → List UInt8 → A × List UInt8 :=
  throughBytes fun a b => ((arc.next a).2, b ^^^ (arc.next a).1)

namespace AuthCrypt

variable {A : Type}

/-- `Init` for build 2.4.3, with the key it has computed. -/
def init243 (key : Fin shaDigestLength → UInt8) (c : AuthCrypt A) : AuthCrypt A :=
  { c with
    initialized := true
    key := key
    sendI := 0
    sendJ := 0
    recvI := 0
    recvJ := 0 }

/-- The byte of the key at an index, which wraps around. -/
def keyAt (c : AuthCrypt A) (i : UInt8) : UInt8 :=
  c.key ⟨i.toNat % shaDigestLength, Nat.mod_lt _ (by decide)⟩

/-- The index after a byte: taken modulo the size of the key, and one further. -/
def nextIndex (i : UInt8) : UInt8 := UInt8.ofNat (i.toNat % shaDigestLength + 1)

/-- The body of the loop in `DecryptRecv`. -/
def decryptByte (c : AuthCrypt A) (b : UInt8) : AuthCrypt A × UInt8 :=
  ({ c with recvI := nextIndex c.recvI, recvJ := b }, (b - c.recvJ) ^^^ c.keyAt c.recvI)

/-- The body of the loop in `EncryptSend`. -/
def encryptByte (c : AuthCrypt A) (b : UInt8) : AuthCrypt A × UInt8 :=
  let x := (b ^^^ c.keyAt c.sendI) + c.sendJ
  ({ c with sendI := nextIndex c.sendI, sendJ := x }, x)

/-- `DecryptRecv`. -/
def decryptRecv (arc : ARC4 A) (data : List UInt8) (c : AuthCrypt A) :
    AuthCrypt A × List UInt8 :=
  if !c.initialized then (c, data)
  else
    match c.clientBuild with
    | .build243 =>
        if data.length < cryptedSendLen then (c, data)
        else
          let (c, start) := throughBytes decryptByte c (data.take cryptedRecvLen)
          (c, start ++ data.drop cryptedRecvLen)
    | .build335 =>
        let (state, data) := arc.updateData c.clientDecrypt data
        ({ c with clientDecrypt := state }, data)
    | .other => (c, data)

/-- `EncryptSend`. -/
def encryptSend (arc : ARC4 A) (data : List UInt8) (c : AuthCrypt A) :
    AuthCrypt A × List UInt8 :=
  if !c.initialized then (c, data)
  else
    match c.clientBuild with
    | .build243 =>
        if data.length < cryptedSendLen then (c, data)
        else
          let (c, start) := throughBytes encryptByte c (data.take cryptedSendLen)
          (c, start ++ data.drop cryptedSendLen)
    | .build335 =>
        let (state, data) := arc.updateData c.serverEncrypt data
        ({ c with serverEncrypt := state }, data)
    | .other => (c, data)

theorem length_decryptRecv (arc : ARC4 A) (data : List UInt8) (c : AuthCrypt A) :
    (c.decryptRecv arc data).2.length = data.length := by
  unfold decryptRecv
  split
  · rfl
  · split
    · split
      · rfl
      · show ((throughBytes decryptByte c _).2 ++ _).length = _
        rw [List.length_append, length_throughBytes, ← List.length_append, List.take_append_drop]
    · exact length_throughBytes ..
    · rfl

theorem length_encryptSend (arc : ARC4 A) (data : List UInt8) (c : AuthCrypt A) :
    (c.encryptSend arc data).2.length = data.length := by
  unfold encryptSend
  split
  · rfl
  · split
    · split
      · rfl
      · show ((throughBytes encryptByte c _).2 ++ _).length = _
        rw [List.length_append, length_throughBytes, ← List.length_append, List.take_append_drop]
    · exact length_throughBytes ..
    · rfl

end AuthCrypt

end Sunstrider.Sockets
