import Sunstrider.Lib.Framing
import Sunstrider.Proofs.HeaderCipher
import Sunstrider.Sockets.SendQueue

/-!
# What a client reads

A client reads four bytes for a header, undoes the cipher if the packet is one of those that
have it, and then as many bytes as the header says. Its half of the cipher goes along with
the server's: both see every encrypted header once and in order, so from the bytes of some
packets the client gets the packets back.
-/

namespace Sunstrider.Sockets

open Lib

variable {A : Type} {k : ARC4 A}

/-! ## The cipher undone -/

namespace AuthCrypt

variable {c : AuthCrypt A}

/-- What undoes `encryptByte`. -/
def decryptSentByte (c : AuthCrypt A) (b : UInt8) : AuthCrypt A × UInt8 :=
  ({ c with sendI := nextIndex c.sendI, sendJ := b }, (b - c.sendJ) ^^^ c.keyAt c.sendI)

/-- What undoes `encryptSend`. -/
def decryptSent (k : ARC4 A) (data : List UInt8) (c : AuthCrypt A) :
    AuthCrypt A × List UInt8 :=
  if !c.initialized then (c, data)
  else
    match c.clientBuild with
    | .build243 =>
        if data.length < cryptedSendLen then (c, data)
        else
          let (c, start) := throughBytes decryptSentByte c (data.take cryptedSendLen)
          (c, start ++ data.drop cryptedSendLen)
    | .build335 =>
        let (state, data) := k.updateData c.serverEncrypt data
        ({ c with serverEncrypt := state }, data)
    | .other => (c, data)

end AuthCrypt

/-- What undoes a step of a cipher undoes a run of it. -/
theorem throughBytes_inverse {S : Type} {f g : S → UInt8 → S × UInt8}
    (h : ∀ s b, g s (f s b).2 = ((f s b).1, b)) (s : S) (bs : List UInt8) :
    throughBytes g s (throughBytes f s bs).2 = ((throughBytes f s bs).1, bs) := by
  have hundone := throughBytes_undone (R := Eq) (f := f) (g := g) (fun s t b hst => by
    subst hst
    rw [h s b]
    exact ⟨rfl, rfl⟩) (Eq.refl s) bs
  exact Prod.ext hundone.1.symm hundone.2

namespace AuthCrypt

variable {c : AuthCrypt A}

theorem decryptSentByte_encryptByte (c : AuthCrypt A) (b : UInt8) :
    c.decryptSentByte (c.encryptByte b).2 = ((c.encryptByte b).1, b) := by
  have hb : ((b ^^^ c.keyAt c.sendI) + c.sendJ - c.sendJ) ^^^ c.keyAt c.sendI = b := by
    rw [UInt8.add_sub_cancel, UInt8.xor_assoc, UInt8.xor_self, UInt8.xor_zero]
  exact Prod.ext rfl hb

theorem updateData_inverse (a : A) (data : List UInt8) :
    k.updateData a (k.updateData a data).2 = ((k.updateData a data).1, data) := by
  refine throughBytes_inverse (fun a b => ?_) a data
  have hb : b ^^^ (k.next a).1 ^^^ (k.next a).1 = b := by
    rw [UInt8.xor_assoc, UInt8.xor_self, UInt8.xor_zero]
  exact Prod.ext rfl hb

/-- The two halves of the cipher: the client gets what was sent, and stays in step. -/
theorem decryptSent_encryptSend (data : List UInt8) (c : AuthCrypt A) :
    c.decryptSent k (c.encryptSend k data).2 = ((c.encryptSend k data).1, data) := by
  unfold encryptSend
  by_cases hini : c.initialized
  · rw [if_neg (by simp [hini])]
    cases hbuild : c.clientBuild with
    | build243 =>
        dsimp only
        by_cases hshort : data.length < cryptedSendLen
        · rw [if_pos hshort]
          unfold decryptSent
          rw [if_neg (by simp [hini]), hbuild]
          dsimp only
          rw [if_pos hshort]
        · rw [if_neg hshort]
          have hlen := length_throughBytes encryptByte c (data.take cryptedSendLen)
          rw [List.length_take_of_le (by omega)] at hlen
          have hinv := throughBytes_inverse decryptSentByte_encryptByte c
            (data.take cryptedSendLen)
          dsimp only
          unfold decryptSent
          rw [if_neg (by simp [hini]), hbuild]
          dsimp only
          rw [if_neg (by rw [List.length_append]; omega),
            List.take_append_of_le_length (by omega), List.drop_append_of_le_length (by omega),
            List.take_of_length_le (by omega), List.drop_of_length_le (by omega), hinv]
          dsimp only
          rw [List.nil_append, List.take_append_drop]
    | build335 =>
        have hinv := updateData_inverse (k := k) c.serverEncrypt data
        dsimp only
        unfold decryptSent
        rw [if_neg (by simp [hini]), hbuild]
        dsimp only
        rw [hinv]
    | other =>
        dsimp only
        unfold decryptSent
        rw [if_neg (by simp [hini]), hbuild]
  · rw [if_pos (by simp [hini])]
    unfold decryptSent
    rw [if_pos (by simp [hini])]

end AuthCrypt

/-! ## Headers -/

def sizeOfHeader : List UInt8 → Nat
  | [a, b, _, _] => a.toNat * 2 ^ 8 + b.toNat
  | _ => 0

def cmdOfHeader : List UInt8 → UInt16
  | [_, _, c, d] => UInt16.ofNat (c.toNat + d.toNat * 2 ^ 8)
  | _ => 0

theorem sizeOfHeader_serverPktHeader {size : Nat} {cmd : UInt16} (h : size < 2 ^ 16) :
    sizeOfHeader (serverPktHeader size cmd) = size := by
  unfold sizeOfHeader serverPktHeader
  simp only [UInt8.toNat_ofNat']
  omega

theorem cmdOfHeader_serverPktHeader (size : Nat) (cmd : UInt16) :
    cmdOfHeader (serverPktHeader size cmd) = cmd := by
  have hlt := cmd.toNat_lt
  refine UInt16.toNat_inj.1 ?_
  unfold cmdOfHeader serverPktHeader
  simp only [UInt16.toNat_ofNat', UInt16.toNat_toUInt8, UInt16.toNat_shiftRight, UInt16.reduceToNat,
    Nat.reduceMod, Nat.shiftRight_eq_div_pow]
  omega

/-! ## The bytes of packets -/

/-- What some packets are on the wire, header and contents of each in turn. -/
def encode (k : ARC4 A) : Option (AuthCrypt A) → List EncryptablePacket →
    Option (AuthCrypt A) × List UInt8
  | crypt, [] => (crypt, [])
  | crypt, p :: ps =>
      let (crypt, header) := encryptHeader k p crypt
      let (crypt, bytes) := encode k crypt ps
      (crypt, header ++ p.contents ++ bytes)

theorem encode_append (crypt : Option (AuthCrypt A)) (ps qs : List EncryptablePacket) :
    encode k crypt (ps ++ qs) =
      ((encode k (encode k crypt ps).1 qs).1,
        (encode k crypt ps).2 ++ (encode k (encode k crypt ps).1 qs).2) := by
  induction ps generalizing crypt with
  | nil => rfl
  | cons p ps ih =>
      rw [List.cons_append]
      simp only [encode, ih, List.append_assoc]

theorem length_encryptHeader (crypt : Option (AuthCrypt A)) (p : EncryptablePacket) :
    (encryptHeader k p crypt).2.length = 4 := by
  unfold encryptHeader
  cases crypt with
  | none => rfl
  | some c =>
      dsimp only
      split
      · exact AuthCrypt.length_encryptSend ..
      · rfl

/-- Packets that are not to be encrypted do not ask for the cipher. -/
theorem encode_clear {ps : List EncryptablePacket} (h : ∀ p ∈ ps, p.encrypt = false)
    (crypt : Option (AuthCrypt A)) :
    encode k crypt ps = (crypt, (encode k (none : Option (AuthCrypt A)) ps).2) := by
  induction ps with
  | nil => rfl
  | cons p ps ih =>
      have hp : encryptHeader k p crypt =
          (crypt, serverPktHeader (p.contents.length + 2) p.opcode) := by
        unfold encryptHeader
        cases crypt with
        | none => rfl
        | some c =>
            dsimp only
            rw [if_neg (by rw [h p List.mem_cons_self]; decide)]
      simp only [encode, hp, ih fun q hq => h q (List.mem_cons_of_mem p hq)]
      rfl

theorem initialized_throughBytes (c : AuthCrypt A) (bs : List UInt8) :
    (throughBytes AuthCrypt.encryptByte c bs).1.initialized = c.initialized := by
  induction bs generalizing c with
  | nil => rfl
  | cons b bs ih => exact ih _

/-- The cipher stays there, and stays as ready as it was. -/
theorem encode_initialized (crypt : Option (AuthCrypt A)) (ps : List EncryptablePacket) :
    (encode k crypt ps).1.map (·.initialized) = crypt.map (·.initialized) := by
  induction ps generalizing crypt with
  | nil => rfl
  | cons p ps ih =>
      simp only [encode, ih]
      unfold encryptHeader
      cases crypt with
      | none => rfl
      | some c =>
          dsimp only
          split
          · refine congrArg some ?_
            unfold AuthCrypt.encryptSend
            split
            · rfl
            · split
              · split
                · rfl
                · exact initialized_throughBytes c _
              · rfl
              · rfl
          · rfl

/-! ## The reader -/

/-- A client: how many headers are still in the clear, its half of the cipher, and what it
has read. -/
structure ClientReader (A : Type) where
  clear : Nat
  crypt : Option (AuthCrypt A)
  packets : List (UInt16 × List UInt8)

namespace ClientReader

variable {r r' : ClientReader A} {x y rest : List UInt8}

def decryptHeader (k : ARC4 A) (r : ClientReader A) (header : List UInt8) :
    Option (AuthCrypt A) × List UInt8 :=
  match r.crypt with
  | none => (none, header)
  | some c =>
      if r.clear = 0 then (some (c.decryptSent k header).1, (c.decryptSent k header).2)
      else (some c, header)

/-- The next packet, if all of it is there. -/
def take (k : ARC4 A) (r : ClientReader A) (x : List UInt8) :
    Option (ClientReader A × List UInt8) :=
  if x.length < 4 then none
  else
    let (crypt, header) := r.decryptHeader k (x.take 4)
    let size := sizeOfHeader header - 2
    if x.length < 4 + size then none
    else
      some (⟨r.clear - 1, crypt,
        r.packets ++ [(cmdOfHeader header, (x.drop 4).take size)]⟩, (x.drop 4).drop size)

theorem take_shrinks (h : r.take k x = some (r', rest)) : rest.length < x.length := by
  unfold take at h
  split at h <;> rename_i hlen
  · cases h
  · dsimp only at h
    split at h <;> rename_i hsize
    · cases h
    · cases h
      rw [List.length_drop, List.length_drop]
      omega

theorem take_stable (y : List UInt8) (h : r.take k x = some (r', rest)) :
    r.take k (x ++ y) = some (r', rest ++ y) := by
  unfold take at h ⊢
  by_cases hlen : x.length < 4
  · rw [if_pos hlen] at h
    cases h
  · rw [if_neg hlen] at h
    have hle : 4 ≤ x.length := by omega
    rw [if_neg (by rw [List.length_append]; omega), List.take_append_of_le_length hle,
      List.drop_append_of_le_length hle]
    dsimp only at h ⊢
    by_cases hsize : x.length < 4 + (sizeOfHeader (r.decryptHeader k (x.take 4)).2 - 2)
    · rw [if_pos hsize] at h
      cases h
    · rw [if_neg hsize] at h
      have hdrop : sizeOfHeader (r.decryptHeader k (x.take 4)).2 - 2 ≤ (x.drop 4).length := by
        rw [List.length_drop]
        omega
      rw [if_neg (by rw [List.length_append]; omega), List.take_append_of_le_length hdrop,
        List.drop_append_of_le_length hdrop]
      cases h
      rfl

def framing (k : ARC4 A) : Framing (ClientReader A) UInt8 where
  take := take k
  size _ x := x.length
  shrinks := take_shrinks
  stable y h := take_stable y h

/-- A reader that is at the server's cipher reads a header as it was. -/
theorem decryptHeader_encryptHeader {p : EncryptablePacket}
    (hclear : p.encrypt = false ↔ r.clear ≠ 0) :
    r.decryptHeader k (encryptHeader k p r.crypt).2 =
      ((encryptHeader k p r.crypt).1, serverPktHeader (p.contents.length + 2) p.opcode) := by
  unfold decryptHeader encryptHeader
  cases r.crypt with
  | none => rfl
  | some c =>
      dsimp only
      cases hp : p.encrypt with
      | false =>
          rw [if_neg (hclear.1 hp), if_neg (by decide)]
      | true =>
          have hzero : r.clear = 0 := by
            by_contra hne
            rw [hclear.2 hne] at hp
            cases hp
          rw [if_pos hzero, if_pos rfl]
          dsimp only
          rw [AuthCrypt.decryptSent_encryptSend]

/-- A packet that the header can tell of is read as what was queued. -/
theorem take_packet {p : EncryptablePacket} (hclear : p.encrypt = false ↔ r.clear ≠ 0)
    (hlen : p.contents.length < 65534) (y : List UInt8) :
    r.take k ((encryptHeader k p r.crypt).2 ++ p.contents ++ y) =
      some (⟨r.clear - 1, (encryptHeader k p r.crypt).1,
        r.packets ++ [(p.opcode, p.contents)]⟩, y) := by
  have hheader := length_encryptHeader (k := k) r.crypt p
  have htake : ((encryptHeader k p r.crypt).2 ++ p.contents ++ y).take 4 =
      (encryptHeader k p r.crypt).2 := by
    rw [List.append_assoc, List.take_append_of_le_length (by omega),
      List.take_of_length_le (by omega)]
  have hdrop : ((encryptHeader k p r.crypt).2 ++ p.contents ++ y).drop 4 =
      p.contents ++ y := by
    rw [List.append_assoc, List.drop_append_of_le_length (by omega),
      List.drop_of_length_le (by omega), List.nil_append]
  have hsize : sizeOfHeader (serverPktHeader (p.contents.length + 2) p.opcode) - 2 =
      p.contents.length := by
    rw [sizeOfHeader_serverPktHeader (by omega)]
    omega
  unfold take
  rw [if_neg (by rw [List.append_assoc, List.length_append]; omega), htake, hdrop,
    decryptHeader_encryptHeader hclear]
  dsimp only
  rw [hsize, cmdOfHeader_serverPktHeader,
    if_neg (by rw [List.append_assoc, List.length_append, List.length_append]; omega),
    List.take_append_of_le_length (Nat.le_refl _), List.take_length,
    List.drop_append_of_le_length (Nat.le_refl _), List.drop_length, List.nil_append]

/-- What the packets say without their flags. -/
def told (ps : List EncryptablePacket) : List (UInt16 × List UInt8) :=
  ps.map fun p => (p.opcode, p.contents)

/-- The reader gets all packets of which the clear ones come first. -/
theorem drain_encode {ps : List EncryptablePacket}
    (hps : ∀ p ∈ ps, p.contents.length < 65534)
    (hclear : ∀ qs p, qs ++ [p] <+: ps → (p.encrypt = false ↔ qs.length < r.clear)) :
    ((framing k).drain r (encode k r.crypt ps).2).1.packets = r.packets ++ told ps := by
  induction ps generalizing r with
  | nil =>
      have hnone : (framing k).take r [] = none := by
        show r.take k [] = none
        exact if_pos (by decide)
      show ((framing k).drain r []).1.packets = _
      rw [Framing.drain_of_none hnone]
      exact (List.append_nil _).symm
  | cons p ps ih =>
      have hp : p.encrypt = false ↔ r.clear ≠ 0 := by
        rw [hclear [] p (List.prefix_append [p] ps)]
        exact Nat.pos_iff_ne_zero
      have hnext := take_packet (k := k) hp (hps p List.mem_cons_self)
        (encode k (encryptHeader k p r.crypt).1 ps).2
      show ((framing k).drain r ((encryptHeader k p r.crypt).2 ++ p.contents ++
        (encode k (encryptHeader k p r.crypt).1 ps).2)).1.packets = _
      rw [Framing.drain_of_some hnext]
      have hrest := @ih ⟨r.clear - 1, (encryptHeader k p r.crypt).1,
        r.packets ++ [(p.opcode, p.contents)]⟩
        (fun q hq => hps q (List.mem_cons_of_mem p hq)) fun qs q hq => by
          rw [hclear (p :: qs) q ((List.prefix_cons_inj p).2 hq), List.length_cons]
          dsimp only
          omega
      rw [hrest]
      show r.packets ++ [(p.opcode, p.contents)] ++ told ps = r.packets ++ told (p :: ps)
      rw [List.append_assoc]
      rfl

end ClientReader

end Sunstrider.Sockets
