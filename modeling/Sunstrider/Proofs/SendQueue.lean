import Sunstrider.Proofs.ClientStream

/-!
# What is written is what was queued

Along a run, the packets that were queued are those packed into buffers and those that still
wait. The packed ones, encoded one after the other with the cipher the connection was given,
are what the connection has taken and what is in the buffers, front to back. Packing moves
the line between packets and buffers, and the socket the line between buffers and what is
written; neither adds, drops or swaps a byte.

Buffers without anything in them end the loop over the write queue early, and so does a
socket that blocks. So that all is written in the end is shown by counting: each round of an
update and a call of the handler takes a byte or a buffer off, until nothing is left.
-/

namespace Sunstrider.Sockets

open MessageBuffer

variable {A : Type} {k : ARC4 A}

/-- The bytes in some buffers, front to back. -/
def buffered (bs : List MessageBuffer) : List UInt8 := bs.flatMap activeBytes

@[simp] theorem buffered_nil : buffered [] = [] := rfl

@[simp] theorem buffered_cons (b : MessageBuffer) (bs : List MessageBuffer) :
    buffered (b :: bs) = b.activeBytes ++ buffered bs := rfl

@[simp] theorem buffered_append (bs bs' : List MessageBuffer) :
    buffered (bs ++ bs') = buffered bs ++ buffered bs' := by
  simp [buffered]

namespace SendSocket

variable {s s' : SendSocket A} {buffer buffer' : MessageBuffer} {p : EncryptablePacket}
  {ps : List EncryptablePacket}

/-! ## Packing -/

/-- At most `n` buffers were queued, and they and the open one hold `bytes` more. -/
structure Packs (n : Nat) (bytes : List UInt8) (buffer : MessageBuffer) (s : SendSocket A)
    (buffer' : MessageBuffer) (s' : SendSocket A) : Prop where
  ok : buffer'.Ok
  written : s'.written = s.written
  isWritingAsync : s'.isWritingAsync = s.isWritingAsync
  bufferQueue : s'.bufferQueue = s.bufferQueue
  queued : ∃ bs, s'.writeQueue = s.writeQueue ++ bs ∧ (∀ b ∈ bs, b.Ok) ∧ bs.length ≤ n ∧
    buffered bs ++ buffer'.activeBytes = buffer.activeBytes ++ bytes

theorem Packs.trans {n m : Nat} {bytes bytes' : List UInt8} {buffer'' : MessageBuffer}
    {s'' : SendSocket A} (h : Packs n bytes buffer s buffer' s')
    (h' : Packs m bytes' buffer' s' buffer'' s'') :
    Packs (n + m) (bytes ++ bytes') buffer s buffer'' s'' := by
  obtain ⟨bs, hqueue, hok, hlen, hbytes⟩ := h.queued
  obtain ⟨bs', hqueue', hok', hlen', hbytes'⟩ := h'.queued
  refine ⟨h'.ok, h'.written.trans h.written, h'.isWritingAsync.trans h.isWritingAsync,
    h'.bufferQueue.trans h.bufferQueue, bs ++ bs', ?_, ?_, ?_, ?_⟩
  · rw [hqueue', hqueue, List.append_assoc]
  · intro b hb
    rcases List.mem_append.1 hb with hb | hb
    · exact hok b hb
    · exact hok' b hb
  · rw [List.length_append]
    omega
  · rw [buffered_append, List.append_assoc, hbytes', ← List.append_assoc, hbytes,
      List.append_assoc]

/-- A header and contents that fit are written behind what is in a buffer. -/
theorem write_packet (header contents : List UInt8) (h : buffer.Ok)
    (hfit : contents.length + header.length ≤ buffer.remainingSpace) :
    ∃ b b', buffer.write header = some b ∧ b.write contents = some b' ∧ b'.Ok ∧
      b'.activeBytes = buffer.activeBytes ++ (header ++ contents) := by
  obtain ⟨b, hb, hbok, hwpos, -, hstorage, hbytes⟩ := h.write (x := header) (by omega)
  have hroom : contents.length ≤ b.remainingSpace := by
    unfold remainingSpace at hfit ⊢
    omega
  obtain ⟨b', hb', hbok', -, -, -, hbytes'⟩ := hbok.write hroom
  refine ⟨b, b', hb, hb', hbok', ?_⟩
  rw [hbytes', hbytes, List.append_assoc]

/-- A packet goes into the open buffer, into a new one after that, or into its own. -/
theorem packPacket_spec (hbuf : buffer.Ok) (s : SendSocket A) (p : EncryptablePacket) :
    ∃ buffer' s', s.packPacket k p buffer = some (buffer', s') ∧
      s'.authCrypt = (encryptHeader k p s.authCrypt).1 ∧
      Packs 2 ((encryptHeader k p s.authCrypt).2 ++ p.contents) buffer s buffer' s' := by
  obtain ⟨crypt, header, hheader⟩ : ∃ crypt header, encryptHeader k p s.authCrypt =
      (crypt, header) := ⟨_, _, rfl⟩
  unfold packPacket
  rw [hheader]
  dsimp only
  by_cases hfull : buffer.remainingSpace < p.contents.length + header.length
  · obtain ⟨hok, -, hempty⟩ := resize_of_wpos (b := moved) rfl rfl s.sendBufferSize
    rw [if_pos hfull]
    dsimp only
    by_cases hfit : p.contents.length + header.length ≤
        (moved.resize s.sendBufferSize).remainingSpace
    · obtain ⟨b, b', hb, hb', hbok, hbytes⟩ := write_packet header p.contents hok hfit
      rw [if_pos hfit, hb]
      dsimp only
      rw [hb']
      refine ⟨b', _, rfl, rfl, hbok, rfl, rfl, rfl, [buffer], rfl, ?_, by simp, ?_⟩
      · intro b hb
        rw [List.mem_singleton.1 hb]
        exact hbuf
      · rw [hbytes, hempty]
        simp
    · obtain ⟨b, b', hb, hb', hbok, hbytes⟩ := write_packet header p.contents
        (ok_new (p.contents.length + header.length)) (by simp [remainingSpace, MessageBuffer.new])
      rw [if_neg hfit, hb]
      dsimp only
      rw [hb']
      refine ⟨_, _, rfl, rfl, hok, rfl, rfl, rfl, [buffer, b'], ?_, ?_, by simp, ?_⟩
      · simp [queuePacket]
      · intro b hb
        rcases List.mem_cons.1 hb with rfl | hb
        · exact hbuf
        · rw [List.mem_singleton.1 hb]
          exact hbok
      · rw [hempty, buffered_cons, buffered_cons, hbytes]
        simp [activeBytes, readPointer, activeSize, MessageBuffer.new]
  · obtain ⟨b, b', hb, hb', hbok, hbytes⟩ := write_packet header p.contents hbuf (by omega)
    rw [if_neg hfull]
    dsimp only
    rw [if_pos (by omega), hb]
    dsimp only
    rw [hb']
    refine ⟨b', _, rfl, rfl, hbok, rfl, rfl, rfl, [], by simp, by simp, by simp, ?_⟩
    rw [hbytes]
    rfl

/-- The loop over the packets encodes them all. -/
theorem packPackets_spec (hbuf : buffer.Ok) (s : SendSocket A) (ps : List EncryptablePacket) :
    ∃ buffer' s', packPackets k ps buffer s = some (buffer', s') ∧
      s'.authCrypt = (encode k s.authCrypt ps).1 ∧
      Packs (2 * ps.length) (encode k s.authCrypt ps).2 buffer s buffer' s' := by
  induction ps generalizing buffer s with
  | nil =>
      exact ⟨buffer, s, rfl, rfl, hbuf, rfl, rfl, rfl, [], by simp, by simp, by simp,
        by simp [encode]⟩
  | cons p ps ih =>
      obtain ⟨b, s₁, hpack, hcrypt, hp⟩ := packPacket_spec (k := k) hbuf s p
      obtain ⟨b', s', hpacks, hcrypt', hps⟩ := ih hp.ok s₁
      rw [hcrypt] at hcrypt' hps
      refine ⟨b', s', ?_, hcrypt', ?_⟩
      · rw [packPackets, hpack]
        exact hpacks
      · have h := hp.trans hps
        rw [Nat.add_comm] at h
        exact h

/-! ## Writing -/

/-- Bytes went from the buffers to the connection, and nothing else happened. -/
structure Writes (s s' : SendSocket A) : Prop where
  bytes : s'.written ++ buffered s'.writeQueue = s.written ++ buffered s.writeQueue
  ok : ∀ b ∈ s'.writeQueue, b.Ok
  bufferQueue : s'.bufferQueue = s.bufferQueue
  authCrypt : s'.authCrypt = s.authCrypt

theorem Writes.trans {s'' : SendSocket A} (h : Writes s s') (h' : Writes s' s'') :
    Writes s s'' :=
  ⟨h'.bytes.trans h.bytes, h'.ok, h'.bufferQueue.trans h.bufferQueue,
    h'.authCrypt.trans h.authCrypt⟩

/-- How much there is to write: bytes, and buffers. -/
def weight (s : SendSocket A) : Nat := (buffered s.writeQueue).length + s.writeQueue.length

/-- The queue is empty, the socket blocks, or something is taken off. -/
theorem handleQueue_spec (hok : ∀ b ∈ s.writeQueue, b.Ok) (w : WriteSome) :
    Writes s (s.handleQueue w).2 ∧
      (s.writeQueue = [] ∧ s.handleQueue w = (false, s) ∨
        w = .wouldBlock ∧ s.handleQueue w = (false, s.asyncProcessQueue) ∨
        (s.handleQueue w).2.weight < s.weight) := by
  unfold handleQueue
  cases hqueue : s.writeQueue with
  | nil => exact ⟨⟨rfl, hok, rfl, rfl⟩, .inl ⟨rfl, rfl⟩⟩
  | cons b rest =>
      have hb : b.Ok := hok b (by rw [hqueue]; exact List.mem_cons_self)
      have hrest : ∀ b ∈ rest, b.Ok :=
        fun b' hb' => hok b' (by rw [hqueue]; exact List.mem_cons_of_mem b hb')
      have hlen := hb.length_activeBytes
      have hbuffered : buffered s.writeQueue = b.activeBytes ++ buffered rest := by rw [hqueue]; rfl
      have hweight : s.weight = b.activeSize + (buffered rest).length + (rest.length + 1) := by
        rw [weight, hbuffered, List.length_append, hlen, hqueue, List.length_cons]
      cases w with
      | wouldBlock => exact ⟨⟨rfl, hok, rfl, rfl⟩, .inr (.inl ⟨rfl, rfl⟩)⟩
      | takes n =>
          dsimp only
          rw [readPointer_of_le (Nat.min_le_right ..)]
          by_cases hzero : min (n + 1) b.activeSize = 0
          · have hempty : b.activeBytes = [] := hb.activeBytes_eq_nil.2 (by omega)
            rw [if_pos hzero]
            refine ⟨⟨?_, hrest, rfl, rfl⟩, .inr (.inr ?_)⟩
            · rw [hbuffered, hempty]
              simp
            · rw [hweight]
              show (buffered rest).length + rest.length < _
              omega
          · rw [if_neg hzero]
            by_cases hpart : min (n + 1) b.activeSize < b.activeSize
            · rw [if_pos hpart]
              refine ⟨⟨?_, ?_, rfl, rfl⟩, .inr (.inr ?_)⟩
              · show s.written ++ b.activeBytes.take _ ++
                  ((b.readCompleted _).activeBytes ++ buffered rest) = _
                rw [hbuffered, activeBytes_readCompleted, List.append_assoc,
                  ← List.append_assoc (List.take _ _), List.take_append_drop]
              · intro b' hb'
                rcases List.mem_cons.1 hb' with rfl | hb'
                · exact hb.readCompleted (by omega)
                · exact hrest b' hb'
              · rw [hweight]
                show ((b.readCompleted _).activeBytes ++ buffered rest).length +
                  (rest.length + 1) < _
                rw [List.length_append, activeBytes_readCompleted, List.length_drop, hlen]
                omega
            · rw [if_neg hpart]
              refine ⟨⟨?_, hrest, rfl, rfl⟩, .inr (.inr ?_)⟩
              · show s.written ++ b.activeBytes.take _ ++ buffered rest = _
                rw [hbuffered, List.take_of_length_le (by omega), List.append_assoc]
              · rw [hweight]
                show (buffered rest).length + rest.length < _
                omega

/-- The loop takes something off a queue that is not empty, or waits for the socket. -/
theorem handleQueues_spec (hok : ∀ b ∈ s.writeQueue, b.Ok) (hne : s.writeQueue ≠ [])
    (ws : List WriteSome) :
    Writes s (s.handleQueues ws) ∧ ((s.handleQueues ws).weight < s.weight ∨
      (s.handleQueues ws).weight = s.weight ∧ (s.handleQueues ws).isWritingAsync = true) := by
  induction ws generalizing s with
  | nil =>
      obtain ⟨hwrites, ⟨hnil, -⟩ | ⟨-, hblock⟩ | hlt⟩ := handleQueue_spec hok .wouldBlock
      · exact absurd hnil hne
      · refine ⟨hwrites, .inr ?_⟩
        rw [handleQueues, hblock]
        exact ⟨rfl, rfl⟩
      · exact ⟨hwrites, .inl hlt⟩
  | cons w ws ih =>
      obtain ⟨hwrites, hcases⟩ := handleQueue_spec hok w
      rw [handleQueues]
      cases hw : s.handleQueue w with
      | mk more s' =>
          rw [hw] at hwrites hcases
          rcases hcases with ⟨hnil, -⟩ | ⟨-, hblock⟩ | hlt
          · exact absurd hnil hne
          · cases hblock
            exact ⟨hwrites, .inr ⟨rfl, rfl⟩⟩
          · have hless : s'.weight < s.weight := hlt
            cases more with
            | false => exact ⟨hwrites, .inl hless⟩
            | true =>
                dsimp only
                by_cases hnil : s'.writeQueue = []
                · have hstop : s'.handleQueues ws = s' := by
                    cases ws <;> simp [handleQueues, handleQueue, hnil]
                  rw [hstop]
                  exact ⟨hwrites, .inl hless⟩
                · obtain ⟨hwrites', hprog⟩ := ih hwrites.ok hnil
                  refine ⟨hwrites.trans hwrites', .inl ?_⟩
                  rcases hprog with hlt' | ⟨heq, -⟩
                  · exact Nat.lt_trans hlt' hless
                  · exact Nat.lt_of_le_of_lt (Nat.le_of_eq heq) hless

/-! ## Both -/

/-- How much there is to do: what is to be written, and for a packet that waits its bytes,
two buffers and the one that is left open. -/
def pending (s : SendSocket A) : Nat :=
  s.weight + (s.bufferQueue.map fun p => p.contents.length + 7).sum

theorem length_encode (crypt : Option (AuthCrypt A)) (ps : List EncryptablePacket) :
    (encode k crypt ps).2.length + 3 * ps.length =
      (ps.map fun p => p.contents.length + 7).sum := by
  induction ps generalizing crypt with
  | nil => rfl
  | cons p ps ih =>
      have hrest := ih (encryptHeader k p crypt).1
      have hheader := length_encryptHeader (k := k) crypt p
      simp only [encode, List.length_append, List.length_cons, List.map_cons, List.sum_cons]
      omega

/-- Packets were packed behind what was buffered. -/
structure Packed (k : ARC4 A) (s s' : SendSocket A) : Prop where
  bytes : s'.written ++ buffered s'.writeQueue =
    s.written ++ buffered s.writeQueue ++ (encode k s.authCrypt s.bufferQueue).2
  ok : ∀ b ∈ s'.writeQueue, b.Ok
  bufferQueue : s'.bufferQueue = []
  authCrypt : s'.authCrypt = (encode k s.authCrypt s.bufferQueue).1

theorem Packed.writes {s'' : SendSocket A} (h : Packed k s s') (h' : Writes s' s'') :
    Packed k s s'' :=
  ⟨h'.bytes.trans h.bytes, h'.ok, h'.bufferQueue.trans h.bufferQueue,
    h'.authCrypt.trans h.authCrypt⟩

/-- `Update` packs all packets that wait, and then may write. -/
theorem update_eq (hok : ∀ b ∈ s.writeQueue, b.Ok) (ws : List WriteSome) :
    ∃ s', Packed k s s' ∧ s'.weight ≤ s.pending ∧ s.update k ws =
      some (if s'.isWritingAsync || s'.writeQueue.isEmpty then s' else s'.handleQueues ws) := by
  obtain ⟨b, s₁, hpack, hcrypt, hp⟩ := packPackets_spec (k := k)
    (ok_new s.sendBufferSize) { s with bufferQueue := [] } s.bufferQueue
  obtain ⟨bs, hqueue, hbs, hlen, hbytes⟩ := hp.queued
  have hb := hp.ok
  have hempty : (MessageBuffer.new s.sendBufferSize).activeBytes = [] := by
    simp [activeBytes, readPointer, activeSize, MessageBuffer.new]
  rw [hempty, List.nil_append] at hbytes
  dsimp only at hqueue hbytes hcrypt
  have hcount := congrArg List.length hbytes
  have htotal := length_encode (k := k) s.authCrypt s.bufferQueue
  rw [List.length_append, hb.length_activeBytes] at hcount
  have hok₁ : ∀ b ∈ s₁.writeQueue, b.Ok := by
    intro b' hb'
    rw [hqueue] at hb'
    rcases List.mem_append.1 hb' with hb' | hb'
    · exact hok b' hb'
    · exact hbs b' hb'
  have hweight : s₁.weight = s.weight + (buffered bs).length + bs.length := by
    unfold weight
    rw [hqueue, buffered_append, List.length_append, List.length_append]
    omega
  have hwritten : s₁.written = s.written := hp.written
  unfold update
  rw [hpack]
  dsimp only
  by_cases hopen : 0 < b.activeSize
  · rw [if_pos hopen]
    refine ⟨s₁.queuePacket b, ⟨?_, ?_, hp.bufferQueue, hcrypt⟩, ?_, ?_⟩
    · show s₁.written ++ buffered (s₁.writeQueue ++ [b]) = _
      rw [hwritten, hqueue, ← hbytes]
      simp
    · intro b' hb'
      rcases List.mem_append.1 hb' with hb' | hb'
      · exact hok₁ b' hb'
      · rw [List.mem_singleton.1 hb']
        exact hb
    · have hsome : 0 < s.bufferQueue.length := by
        by_contra hnone
        rw [List.length_eq_zero_iff.1 (Nat.eq_zero_of_not_pos hnone)] at hcount
        simp only [encode, List.length_nil] at hcount
        omega
      have hflush : (s₁.queuePacket b).weight = s₁.weight + b.activeSize + 1 := by
        unfold weight
        show (buffered (s₁.writeQueue ++ [b])).length + (s₁.writeQueue ++ [b]).length = _
        rw [buffered_append, List.length_append, List.length_append, buffered_cons,
          List.length_append, hb.length_activeBytes]
        simp
        omega
      rw [hflush, hweight]
      unfold pending
      omega
    · split <;> rfl
  · rw [if_neg hopen]
    refine ⟨s₁, ⟨?_, hok₁, hp.bufferQueue, hcrypt⟩, ?_, ?_⟩
    · rw [hwritten, hqueue, ← hbytes, hb.activeBytes_eq_nil.2 (by omega)]
      simp
    · rw [hweight]
      unfold pending
      omega
    · split <;> rfl

theorem update_spec (hok : ∀ b ∈ s.writeQueue, b.Ok) (ws : List WriteSome) :
    ∃ s', s.update k ws = some s' ∧ Packed k s s' ∧
      (s'.weight < s.pending ∨ s'.weight ≤ s.pending ∧
        (s'.writeQueue = [] ∨ s'.isWritingAsync = true)) := by
  obtain ⟨s₁, hpacked, hle, hupdate⟩ := update_eq (k := k) hok ws
  by_cases hskip : s₁.isWritingAsync || s₁.writeQueue.isEmpty
  · rw [if_pos hskip] at hupdate
    refine ⟨s₁, hupdate, hpacked, .inr ⟨hle, ?_⟩⟩
    rcases Bool.or_eq_true_iff.1 hskip with hwriting | hnil
    · exact .inr hwriting
    · exact .inl (List.isEmpty_iff.1 hnil)
  · rw [if_neg hskip] at hupdate
    have hne : s₁.writeQueue ≠ [] := by
      intro hnil
      rw [hnil] at hskip
      simp at hskip
    obtain ⟨hwrites, hprog⟩ := handleQueues_spec hpacked.ok hne ws
    refine ⟨_, hupdate, hpacked.writes hwrites, ?_⟩
    rcases hprog with hlt | ⟨heq, hwait⟩
    · exact .inl (Nat.lt_of_lt_of_le hlt hle)
    · exact .inr ⟨Nat.le_trans (Nat.le_of_eq heq) hle, .inr hwait⟩

theorem writeHandlerWrapper_spec (hok : ∀ b ∈ s.writeQueue, b.Ok) (w : WriteSome) :
    Writes s (s.writeHandlerWrapper w) ∧ (s.writeHandlerWrapper w).weight ≤ s.weight ∧
      (s.isWritingAsync = true → s.writeQueue ≠ [] → w ≠ .wouldBlock →
        (s.writeHandlerWrapper w).weight < s.weight) := by
  unfold writeHandlerWrapper
  by_cases hwriting : s.isWritingAsync = true
  · rw [if_pos hwriting]
    obtain ⟨⟨hbytes, hok', hqueue, hcrypt⟩, hcases⟩ :=
      handleQueue_spec (s := { s with isWritingAsync := false }) hok w
    refine ⟨⟨hbytes, hok', hqueue, hcrypt⟩, ?_⟩
    rcases hcases with ⟨hnil, hsame⟩ | ⟨hblock, hsame⟩ | hlt
    · rw [hsame]
      exact ⟨Nat.le_refl _, fun _ hne => absurd hnil hne⟩
    · rw [hsame]
      exact ⟨Nat.le_refl _, fun _ _ hne => absurd hblock hne⟩
    · exact ⟨Nat.le_of_lt hlt, fun _ _ _ => hlt⟩
  · rw [if_neg hwriting]
    exact ⟨⟨rfl, hok, rfl, rfl⟩, Nat.le_refl _, fun h => absurd h hwriting⟩

end SendSocket

/-! ## Runs -/

/-- A connection, with every packet that was queued and the cipher as it was given. -/
structure Sending (A : Type) where
  socket : Option (SendSocket A)
  queued : List EncryptablePacket
  crypt : Option (AuthCrypt A)

namespace Sending

open SendSocket

variable {h h' : Sending A} {s s' : SendSocket A} {o : Op A}

def new (sendBufferSize : Nat) : Sending A := ⟨some (.new sendBufferSize), [], none⟩

def step (k : ARC4 A) (h : Sending A) (o : Op A) : Sending A :=
  let socket := h.socket.bind fun s => s.exec k o
  match o with
  | .sendPacket opcode contents =>
      { h with
        socket := socket
        queued := h.queued ++ [⟨opcode, contents, h.crypt.any (·.initialized)⟩] }
  | .initCrypt crypt => { h with socket := socket, crypt := some (h.crypt.getD crypt) }
  | _ => { h with socket := socket }

def run (k : ARC4 A) (sendBufferSize : Nat) (os : List (Op A)) : Sending A :=
  os.foldl (step k) (new sendBufferSize)

/-- The header and payload of each packet that was queued, in the order of the queue. -/
def wire (k : ARC4 A) (h : Sending A) : List UInt8 := (encode k h.crypt h.queued).2

/-- The reader at the other end: it knows the cipher and how many headers are without it. -/
def reader (h : Sending A) : ClientReader A :=
  ⟨(h.queued.filter fun p => !p.encrypt).length, h.crypt, []⟩

/-- The packets that operations queue. -/
def sent (os : List (Op A)) : List (UInt16 × List UInt8) :=
  os.filterMap fun
    | .sendPacket opcode contents => some (opcode, contents)
    | _ => none

/-! ### Where a run is -/

/-- What was packed is written or buffered, in order. -/
structure At (k : ARC4 A) (h : Sending A) (s : SendSocket A) : Prop where
  socket : h.socket = some s
  ok : ∀ b ∈ s.writeQueue, b.Ok
  packed : ∃ ps, h.queued = ps ++ s.bufferQueue ∧
    encode k h.crypt ps = (s.authCrypt, s.written ++ buffered s.writeQueue)

/-- Headers that are encrypted come after those that are not, once there is a cipher. -/
def Sorted (h : Sending A) : Prop :=
  ∃ ps qs, h.queued = ps ++ qs ∧ (∀ p ∈ ps, p.encrypt = false) ∧ (∀ p ∈ qs, p.encrypt = true) ∧
    (h.crypt.any (·.initialized) = false → qs = [])

theorem at_new (n : Nat) : At k (new n) (.new n) :=
  ⟨rfl, nofun, [], rfl, rfl⟩

theorem sorted_new (n : Nat) : (new n : Sending A).Sorted :=
  ⟨[], [], rfl, nofun, nofun, fun _ => rfl⟩

theorem Sorted.step (hs : h.Sorted) : (h.step k o).Sorted := by
  obtain ⟨ps, qs, hqueued, hps, hqs, hcrypt⟩ := hs
  cases o with
  | sendPacket opcode contents =>
      cases hflag : h.crypt.any (·.initialized) with
      | false =>
          refine ⟨ps ++ [⟨opcode, contents, false⟩], [], ?_, ?_, nofun, fun _ => rfl⟩
          · show h.queued ++ [⟨opcode, contents, _⟩] = _
            rw [hflag, hqueued, hcrypt hflag, List.append_nil, List.append_nil]
          · intro p hp
            rcases List.mem_append.1 hp with hp | hp
            · exact hps p hp
            · rw [List.mem_singleton.1 hp]
      | true =>
          refine ⟨ps, qs ++ [⟨opcode, contents, true⟩], ?_, hps, ?_, ?_⟩
          · show h.queued ++ [⟨opcode, contents, _⟩] = _
            rw [hflag, hqueued, List.append_assoc]
          · intro p hp
            rcases List.mem_append.1 hp with hp | hp
            · exact hqs p hp
            · rw [List.mem_singleton.1 hp]
          · intro hnot
            exact absurd (hflag.symm.trans hnot) (by decide)
  | initCrypt crypt =>
      refine ⟨ps, qs, hqueued, hps, hqs, fun hnot => hcrypt ?_⟩
      cases hnone : h.crypt with
      | none => rfl
      | some c =>
          have hsame : (some (h.crypt.getD crypt)).any (·.initialized) = false := hnot
          rw [hnone] at hsame
          exact hsame
  | update ws => exact ⟨ps, qs, hqueued, hps, hqs, hcrypt⟩
  | writeHandler w => exact ⟨ps, qs, hqueued, hps, hqs, hcrypt⟩

/-- Before there is a cipher nothing is encrypted. -/
theorem Sorted.clear (hs : h.Sorted) (hcrypt : h.crypt = none) :
    ∀ p ∈ h.queued, p.encrypt = false := by
  obtain ⟨ps, qs, hqueued, hps, -, hnil⟩ := hs
  rw [hqueued, hnil (by rw [hcrypt]; rfl), List.append_nil]
  exact hps

/-- The reader knows which headers are in the clear. -/
theorem Sorted.reader (hs : h.Sorted) (qs : List EncryptablePacket) (p : EncryptablePacket)
    (hp : qs ++ [p] <+: h.queued) : p.encrypt = false ↔ qs.length < h.reader.clear := by
  obtain ⟨ps, ps', hqueued, hps, hps', -⟩ := hs
  have hclear : h.reader.clear = ps.length := by
    show (h.queued.filter fun p => !p.encrypt).length = _
    rw [hqueued, List.filter_append, List.filter_eq_self.2 (by simpa using hps),
      List.filter_eq_nil_iff.2 (by simpa using hps'), List.append_nil]
  obtain ⟨rest, hrest⟩ := hp
  have hget : (ps ++ ps')[qs.length]? = some p := by
    rw [← hqueued, ← hrest]
    simp
  rw [hclear]
  by_cases hlt : qs.length < ps.length
  · rw [List.getElem?_append_left hlt] at hget
    exact iff_of_true (hps p (List.mem_of_getElem? hget)) hlt
  · rw [List.getElem?_append_right (by omega)] at hget
    have htrue := hps' p (List.mem_of_getElem? hget)
    exact iff_of_false (by rw [htrue]; decide) hlt

theorem At.step (ha : At k h s) (hs : h.Sorted) : ∃ s', At k (h.step k o) s' := by
  obtain ⟨hsocket, hok, ps, hqueued, hpacked⟩ := ha
  have hready := encode_initialized (k := k) h.crypt ps
  rw [hpacked] at hready
  cases o with
  | sendPacket opcode contents =>
      refine ⟨s.sendPacket opcode contents, ?_, hok, ps, ?_, hpacked⟩
      · show h.socket.bind _ = _
        rw [hsocket]
        rfl
      · show h.queued ++ [⟨opcode, contents, h.crypt.any (·.initialized)⟩] = _
        have hflag : h.crypt.any (·.initialized) = s.authCrypt.elim false (·.initialized) := by
          cases hc : s.authCrypt <;> cases hc' : h.crypt <;> rw [hc, hc'] at hready <;>
            simp_all
        rw [hflag, hqueued, List.append_assoc]
        unfold SendSocket.sendPacket
        cases s.authCrypt <;> rfl
  | initCrypt crypt =>
      refine ⟨s.initCrypt crypt, ?_, ?_, ps, ?_, ?_⟩
      · show h.socket.bind _ = _
        rw [hsocket]
        rfl
      · unfold SendSocket.initCrypt
        split <;> exact hok
      · unfold SendSocket.initCrypt
        split <;> exact hqueued
      · show encode k (some (h.crypt.getD crypt)) ps = _
        unfold SendSocket.initCrypt
        cases hc : h.crypt with
        | none =>
            have hclear : ∀ p ∈ ps, p.encrypt = false := fun p hp =>
              hs.clear hc p (by rw [hqueued]; exact List.mem_append_left _ hp)
            rw [hc] at hpacked
            have hnone : s.authCrypt = none := by
              have := encode_clear (k := k) hclear none
              rw [hpacked] at this
              exact congrArg Prod.fst this
            rw [if_neg (by rw [hnone]; nofun), encode_clear hclear, hpacked]
            rfl
        | some c =>
            have hsome : s.authCrypt.isSome := by
              rw [hc] at hready
              cases hnone : s.authCrypt with
              | none =>
                  rw [hnone] at hready
                  cases hready
              | some c' => rfl
            rw [if_pos hsome, ← hpacked, hc]
            rfl
  | update ws =>
      obtain ⟨s', hupdate, hp, -⟩ := update_spec (k := k) hok ws
      refine ⟨s', ?_, hp.ok, ps ++ s.bufferQueue, ?_, ?_⟩
      · show h.socket.bind _ = _
        rw [hsocket]
        exact hupdate
      · rw [hp.bufferQueue, List.append_nil]
        exact hqueued
      · show encode k h.crypt _ = _
        rw [encode_append, hpacked, hp.authCrypt, hp.bytes]
  | writeHandler w =>
      obtain ⟨hw, -, -⟩ := writeHandlerWrapper_spec hok w
      refine ⟨s.writeHandlerWrapper w, ?_, hw.ok, ps, ?_, ?_⟩
      · show h.socket.bind _ = _
        rw [hsocket]
        rfl
      · rw [hw.bufferQueue]
        exact hqueued
      · show encode k h.crypt _ = _
        rw [hpacked, hw.authCrypt, hw.bytes]

theorem at_foldl (os : List (Op A)) (ha : At k h s) (hs : h.Sorted) :
    (∃ s', At k (os.foldl (step k) h) s') ∧ (os.foldl (step k) h).Sorted := by
  induction os generalizing h s with
  | nil => exact ⟨⟨s, ha⟩, hs⟩
  | cons o os ih =>
      obtain ⟨s', ha'⟩ := ha.step (o := o) hs
      exact ih ha' hs.step

theorem at_run (n : Nat) (os : List (Op A)) :
    (∃ s, At k (run k n os) s) ∧ (run k n os).Sorted :=
  at_foldl os (at_new n) (sorted_new n)

/-- What is still to be written is what is behind what was. -/
theorem At.wire (ha : At k h s) : ∃ rest, h.wire k = s.written ++ rest ∧
    (s.bufferQueue = [] → s.writeQueue = [] → rest = []) := by
  obtain ⟨-, -, ps, hqueued, hpacked⟩ := ha
  refine ⟨buffered s.writeQueue ++ (encode k s.authCrypt s.bufferQueue).2, ?_, ?_⟩
  · unfold Sending.wire
    rw [hqueued, encode_append, hpacked, List.append_assoc]
  · intro hqueue hwrite
    rw [hqueue, hwrite]
    rfl

theorem told_queued (h : Sending A) (os : List (Op A)) :
    ClientReader.told (os.foldl (step k) h).queued = ClientReader.told h.queued ++ sent os := by
  induction os generalizing h with
  | nil => exact (List.append_nil _).symm
  | cons o os ih =>
      rw [List.foldl_cons, ih]
      cases o with
      | sendPacket opcode contents =>
          show ClientReader.told (h.queued ++ [_]) ++ sent os = _ ++ (_ :: sent os)
          simp [ClientReader.told]
      | initCrypt crypt => rfl
      | update ws => rfl
      | writeHandler w => rfl

/-! ### All is written in the end -/

/-- An update, whatever the socket does then, and a call of the handler with a socket that
takes something. -/
def round (r : List WriteSome × Nat) : List (Op A) := [.update r.1, .writeHandler (.takes r.2)]

theorem At.of_socket {s₁ : SendSocket A} (ha : At k h s) (hs : h.socket = some s₁) :
    At k h s₁ := by
  have heq : s = s₁ := Option.some.inj (ha.socket.symm.trans hs)
  exact heq ▸ ha

theorem weight_eq_zero (hw : s.weight = 0) : s.writeQueue = [] := by
  unfold weight at hw
  exact List.length_eq_zero_iff.1 (by omega)

theorem pending_of_empty (hqueue : s.bufferQueue = []) : s.pending = s.weight := by
  unfold pending
  rw [hqueue]
  rfl

theorem At.round (ha : At k h s) (hs : h.Sorted) (r : List WriteSome × Nat) :
    ∃ s', At k ((Sending.round r).foldl (Sending.step k) h) s' ∧ s'.bufferQueue = [] ∧
      (s'.pending < s.pending ∨ s'.writeQueue = []) := by
  obtain ⟨s₁, hupdate, hp, hprog⟩ := update_spec (k := k) ha.ok r.1
  obtain ⟨hw, hle, hlt⟩ := writeHandlerWrapper_spec hp.ok (.takes r.2)
  obtain ⟨⟨s', ha'⟩, -⟩ := at_foldl (Sending.round r) ha hs
  have hsocket : ((Sending.round r).foldl (Sending.step k) h).socket =
      some (s₁.writeHandlerWrapper (.takes r.2)) := by
    show ((h.socket.bind fun s => s.exec k (.update r.1)).bind
      fun s => s.exec k (.writeHandler (.takes r.2))) = _
    rw [ha.socket]
    show ((s.update k r.1).bind fun s => s.exec k (.writeHandler (.takes r.2))) = _
    rw [hupdate]
    rfl
  have hqueue := hw.bufferQueue.trans hp.bufferQueue
  refine ⟨_, ha'.of_socket hsocket, hqueue, ?_⟩
  rw [pending_of_empty hqueue]
  rcases hprog with hless | ⟨hsame, hnil | hwait⟩
  · exact .inl (Nat.lt_of_le_of_lt hle hless)
  · refine .inr (weight_eq_zero ?_)
    have hzero : s₁.weight = 0 := by
      unfold weight
      rw [hnil]
      rfl
    omega
  · by_cases hnil : s₁.writeQueue = []
    · refine .inr (weight_eq_zero ?_)
      have hzero : s₁.weight = 0 := by
        unfold weight
        rw [hnil]
        rfl
      omega
    · exact .inl (Nat.lt_of_lt_of_le (hlt hwait hnil nofun) hsame)

theorem wire_rounds (h : Sending A) (rs : List (List WriteSome × Nat)) :
    ((rs.flatMap Sending.round).foldl (step k) h).wire k = h.wire k := by
  induction rs generalizing h with
  | nil => rfl
  | cons r rs ih =>
      rw [List.flatMap_cons, List.foldl_append, ih]
      rfl

theorem At.rounds (ha : At k h s) (hs : h.Sorted) (rs : List (List WriteSome × Nat))
    (hrs : s.pending < rs.length) :
    ∃ s', At k ((rs.flatMap Sending.round).foldl (Sending.step k) h) s' ∧ s'.bufferQueue = [] ∧
      s'.writeQueue = [] := by
  induction rs generalizing h s with
  | nil => exact absurd hrs (Nat.not_lt_zero _)
  | cons r rs ih =>
      rw [List.length_cons] at hrs
      obtain ⟨s₁, ha₁, hqueue, hprog⟩ := ha.round hs r
      have hs₁ := (at_foldl (Sending.round r) ha hs).2
      rw [List.flatMap_cons, List.foldl_append]
      rcases hprog with hless | hnil
      · exact ih ha₁ hs₁ (by omega)
      · by_cases hlast : rs = []
        · subst hlast
          exact ⟨s₁, ha₁, hqueue, hnil⟩
        · refine ih ha₁ hs₁ ?_
          have hzero : s₁.weight = 0 := by
            unfold weight
            rw [hnil]
            rfl
          rw [pending_of_empty hqueue, hzero]
          exact List.length_pos_iff.2 hlast

/-- At every moment what is written is the front of the packets' headers and payloads, and
all of it when nothing waits; after enough rounds nothing does; and the reader gets the
packets. -/
theorem written_whole (k : ARC4 A) (sendBufferSize : Nat) (os : List (Op A))
    (hsent : ∀ p ∈ sent os, p.2.length < 65534) :
    (∃ s, (run k sendBufferSize os).socket = some s ∧
      s.written <+: (run k sendBufferSize os).wire k ∧
      (s.bufferQueue = [] → s.writeQueue = [] →
        s.written = (run k sendBufferSize os).wire k)) ∧
    (∃ n, ∀ rs : List (List WriteSome × Nat), n ≤ rs.length →
      ∃ s, (run k sendBufferSize (os ++ rs.flatMap round)).socket = some s ∧
        s.written = (run k sendBufferSize os).wire k) ∧
    ((ClientReader.framing k).drain (run k sendBufferSize os).reader
      ((run k sendBufferSize os).wire k)).1.packets = sent os := by
  obtain ⟨⟨s, ha⟩, hs⟩ := at_run (k := k) sendBufferSize os
  have htold := told_queued (k := k) (new sendBufferSize) os
  refine ⟨⟨s, ha.socket, ?_⟩, ⟨s.pending + 1, fun rs hrs => ?_⟩, ?_⟩
  · obtain ⟨rest, hwire, hdone⟩ := ha.wire
    refine ⟨⟨rest, hwire.symm⟩, fun hqueue hwrite => ?_⟩
    rw [hwire, hdone hqueue hwrite, List.append_nil]
  · obtain ⟨s', ha', hqueue, hwrite⟩ := ha.rounds hs rs (by omega)
    obtain ⟨rest, hwire, hdone⟩ := ha'.wire
    refine ⟨s', ?_, ?_⟩
    · rw [run, List.foldl_append]
      exact ha'.socket
    · rw [wire_rounds, hdone hqueue hwrite, List.append_nil] at hwire
      exact hwire.symm
  · have hlen : ∀ p ∈ (run k sendBufferSize os).queued, p.contents.length < 65534 := by
      intro p hp
      have hmem := List.mem_map_of_mem (f := fun p => (p.opcode, p.contents)) hp
      refine hsent (p.opcode, p.contents) ?_
      have hsame : sent os = ClientReader.told (run k sendBufferSize os).queued := htold.symm
      rw [hsame]
      exact hmem
    refine (ClientReader.drain_encode (r := (run k sendBufferSize os).reader) hlen hs.reader).trans
      ?_
    exact htold

/-- A header in the clear, one encrypted, and a packet larger than the buffers. -/
theorem three_packets_read :
    ((ClientReader.framing ⟨fun a : UInt8 => (a, a + 1)⟩).drain
      (run ⟨fun a : UInt8 => (a, a + 1)⟩ 8 [.sendPacket 492 [1, 2, 3],
        .initCrypt ⟨true, .build335, 0, 7, fun _ => 0, 0, 0, 0, 0⟩, .sendPacket 494 [],
        .update [.takes 2], .sendPacket 59 [4, 5, 6, 7, 8, 9]]).reader
      ((run ⟨fun a : UInt8 => (a, a + 1)⟩ 8 [.sendPacket 492 [1, 2, 3],
        .initCrypt ⟨true, .build335, 0, 7, fun _ => 0, 0, 0, 0, 0⟩, .sendPacket 494 [],
        .update [.takes 2], .sendPacket 59 [4, 5, 6, 7, 8, 9]]).wire
          ⟨fun a : UInt8 => (a, a + 1)⟩)).1.packets =
      [(492, [1, 2, 3]), (494, []), (59, [4, 5, 6, 7, 8, 9])] :=
  (written_whole ⟨fun a : UInt8 => (a, a + 1)⟩ 8 [.sendPacket 492 [1, 2, 3],
    .initCrypt ⟨true, .build335, 0, 7, fun _ => 0, 0, 0, 0, 0⟩, .sendPacket 494 [],
    .update [.takes 2], .sendPacket 59 [4, 5, 6, 7, 8, 9]] (by decide)).2.2

end Sending

end Sunstrider.Sockets
