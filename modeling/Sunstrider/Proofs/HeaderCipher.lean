import Sunstrider.Sockets.AuthCrypt

/-!
# One side encrypts, the other decrypts

The two loops of the cipher share nothing but the key: one goes on from `_send_i` and
`_send_j`, the other from `_recv_i` and `_recv_j`. Started alike, they stay alike. The
encrypting loop keeps the byte it has written, the decrypting loop the one it has read,
which is the same byte; and the indices count the same bytes. So whoever decrypts header
after header what was encrypted header after header gets the headers.
-/

namespace Sunstrider.Sockets

variable {A S T : Type}

/-- A step that is undone by another, in step with it, makes a run that is. -/
theorem throughBytes_undone {R : S → T → Prop} {f : S → UInt8 → S × UInt8}
    {g : T → UInt8 → T × UInt8}
    (h : ∀ s t b, R s t → R (f s b).1 (g t (f s b).2).1 ∧ (g t (f s b).2).2 = b)
    {s : S} {t : T} (hR : R s t) (bs : List UInt8) :
    R (throughBytes f s bs).1 (throughBytes g t (throughBytes f s bs).2).1 ∧
      (throughBytes g t (throughBytes f s bs).2).2 = bs := by
  induction bs generalizing s t with
  | nil => exact ⟨hR, rfl⟩
  | cons b bs ih =>
      obtain ⟨hstep, hb⟩ := h s t b hR
      obtain ⟨hrun, hbs⟩ := ih hstep
      refine ⟨hrun, ?_⟩
      show (g t (f s b).2).2 :: (throughBytes g _ (throughBytes f _ bs).2).2 = _
      rw [hb, hbs]

/-- A state that goes through headers, and after each of them the state and what has become
of it. -/
def throughHeaders (f : S → UInt8 → S × UInt8) : S → List (List UInt8) → List (S × List UInt8)
  | _, [] => []
  | s, h :: hs => throughBytes f s h :: throughHeaders f (throughBytes f s h).1 hs

namespace AuthCrypt

variable {c d : AuthCrypt A}

/-- What the encrypting loop goes on from. -/
def sendState (c : AuthCrypt A) : UInt8 × UInt8 := (c.sendI, c.sendJ)

/-- What the decrypting loop goes on from. -/
def recvState (c : AuthCrypt A) : UInt8 × UInt8 := (c.recvI, c.recvJ)

/-- One encrypts, the other decrypts, and they have come equally far. -/
def InStep (c d : AuthCrypt A) : Prop := d.key = c.key ∧ d.recvState = c.sendState

theorem inStep_byte (c d : AuthCrypt A) (b : UInt8) (h : InStep c d) :
    InStep (c.encryptByte b).1 (d.decryptByte (c.encryptByte b).2).1 ∧
      (d.decryptByte (c.encryptByte b).2).2 = b := by
  obtain ⟨hkey, hstate⟩ := h
  obtain ⟨hi, hj⟩ := Prod.mk.inj hstate
  refine ⟨⟨hkey, ?_⟩, ?_⟩
  · show (nextIndex d.recvI, _) = (nextIndex c.sendI, _)
    rw [hi]
    rfl
  · have hsame : d.keyAt d.recvI = c.keyAt c.sendI := by
      unfold keyAt
      rw [hkey, hi]
    show ((b ^^^ c.keyAt c.sendI) + c.sendJ - d.recvJ) ^^^ d.keyAt d.recvI = b
    rw [hsame, hj, UInt8.add_sub_cancel, UInt8.xor_assoc, UInt8.xor_self, UInt8.xor_zero]

theorem inStep_headers (h : InStep c d) (headers : List (List UInt8)) :
    let sent := throughHeaders encryptByte c headers
    let read := throughHeaders decryptByte d (sent.map Prod.snd)
    read.map Prod.snd = headers ∧
      read.map (fun r => r.1.recvState) = sent.map fun s => s.1.sendState := by
  induction headers generalizing c d with
  | nil => exact ⟨rfl, rfl⟩
  | cons header headers ih =>
      obtain ⟨hstep, hheader⟩ := throughBytes_undone inStep_byte h header
      obtain ⟨hheaders, hstates⟩ := ih hstep
      constructor
      · show (throughBytes decryptByte d _).2 :: _ = _
        rw [hheader]
        exact congrArg _ hheaders
      · show recvState (throughBytes decryptByte d _).1 :: _ = _
        rw [hstep.2]
        exact congrArg _ hstates

/-- What was encrypted header after header is decrypted to the headers, and after each of
them both loops have come to the same state. -/
theorem decrypts_headers (key : Fin shaDigestLength → UInt8) (c : AuthCrypt A)
    (headers : List (List UInt8)) :
    let sent := throughHeaders encryptByte (c.init243 key) headers
    let read := throughHeaders decryptByte (c.init243 key) (sent.map Prod.snd)
    read.map Prod.snd = headers ∧
      read.map (fun r => r.1.recvState) = sent.map fun s => s.1.sendState :=
  inStep_headers ⟨rfl, rfl⟩ headers

end AuthCrypt

end Sunstrider.Sockets
