import Sunstrider.Lib.Runs
import Sunstrider.Proofs.WholeStream

/-!
# However the stream is cut

The bytes that a socket has received and not handed on are in three buffers. `At` says
where the reader of the whole stream would be with the same bytes: it waits for a header of
which the first bytes are in the header buffer, or for a payload, or for the database. A
turn of the loop is one or two pieces of that reader, and the loop takes all there are. So
after each read the socket is where the reader is, and no assertion has failed.

After the database has answered it may be behind. The bytes that came behind the packet
that asked are still in the read buffer, and the socket starts to read without a look at
them; a packet that is complete stays there until more arrives.
-/

namespace Sunstrider.Sockets

open Lib

variable {A H : Type} {k : ARC4 A} {E : Handlers H}

namespace MessageBuffer

variable {b : MessageBuffer} {x : List UInt8}

/-- A full buffer is changed in place. -/
theorem overwrite_full (hr : b.rpos = 0) (hw : b.wpos = b.storage.length)
    (hd : x.length = b.storage.length) :
    (b.overwrite x).Ok ∧ (b.overwrite x).storage = x ∧
      (b.overwrite x).activeBytes = x := by
  have hstorage : (b.overwrite x).storage = x := by
    unfold overwrite
    rw [hr, List.take_zero, List.nil_append, Nat.zero_add, hd, List.drop_length, List.append_nil]
  have hok : (b.overwrite x).Ok := by
    refine ⟨?_, ?_⟩
    · show b.rpos ≤ b.wpos
      omega
    · rw [hstorage]
      show b.wpos ≤ _
      omega
  refine ⟨hok, hstorage, ?_⟩
  have hr' : (b.overwrite x).rpos = 0 := hr
  rw [activeBytes_of_rpos hr', hstorage]
  exact List.take_of_length_le (by show x.length ≤ b.wpos; omega)

theorem remainingSpace_eq_zero (h : b.Ok) : b.remainingSpace = 0 ↔ b.wpos = b.storage.length := by
  have hw := h.write_le
  unfold remainingSpace
  omega

end MessageBuffer

theorem headerCmd_headerInPlace (bytes : List UInt8) :
    headerCmd (headerInPlace bytes) = headerCmd bytes := by
  unfold headerCmd headerInPlace
  simp [List.getD_eq_getElem?_getD, List.getElem?_drop]

theorem length_headerInPlace {bytes : List UInt8} (h : bytes.length = sizeofClientPktHeader) :
    (headerInPlace bytes).length = sizeofClientPktHeader := by
  unfold headerInPlace
  unfold sizeofClientPktHeader at h ⊢
  simp only [List.length_cons, List.length_drop]
  omega

namespace WorldSocket

variable {s s' : WorldSocket A H} {r r' : Reader A H} {x u : List UInt8} {n cmd : Nat}

/-! ## Where a socket is -/

/-- The first bytes of a header have been read. -/
structure HeaderPart (s : WorldSocket A H) (u : List UInt8) : Prop where
  ok : s.headerBuffer.Ok
  rpos : s.headerBuffer.rpos = 0
  length : s.headerBuffer.storage.length = sizeofClientPktHeader
  active : s.headerBuffer.activeBytes = u
  short : u.length < sizeofClientPktHeader
  packet_wpos : s.packetBuffer.wpos = 0
  packet_rpos : s.packetBuffer.rpos = 0

/-- A header has been read, and its opcode is there. -/
structure HeaderDone (s : WorldSocket A H) (cmd : Nat) : Prop where
  ok : s.headerBuffer.Ok
  rpos : s.headerBuffer.rpos = 0
  length : s.headerBuffer.storage.length = sizeofClientPktHeader
  full : s.headerBuffer.remainingSpace = 0
  cmd : headerCmd s.headerBuffer.activeBytes = cmd

/-- The first bytes of a payload of some size have been read. -/
structure PayloadPart (s : WorldSocket A H) (n : Nat) (u : List UInt8) : Prop where
  ok : s.packetBuffer.Ok
  rpos : s.packetBuffer.rpos = 0
  length : s.packetBuffer.storage.length = n
  active : s.packetBuffer.activeBytes = u

/-- The reader of the whole stream, and the bytes it has not taken. -/
inductive At (s : WorldSocket A H) : Reader A H → List UInt8 → Prop
  | header {u : List UInt8} (hu : HeaderPart s u) :
      At s ⟨.header, s.client⟩ (u ++ s.readBuffer.activeBytes)
  | payload {n cmd : Nat} {u : List UInt8} (hh : HeaderDone s cmd) (hu : PayloadPart s n u)
      (hn : u.length < n) : At s ⟨.payload n cmd, s.client⟩ (u ++ s.readBuffer.activeBytes)
  | query (hu : HeaderPart s []) : At s ⟨.query, s.client⟩ s.readBuffer.activeBytes
  | malformed (hfull : s.headerBuffer.remainingSpace = 0) (hclosed : s.client.closed = true) :
      At s ⟨.malformed, s.client⟩ s.readBuffer.activeBytes
  | ended (hnot : s.headerBuffer.remainingSpace ≠ 0 ∨ s.client.closed = false) :
      At s ⟨.ended, s.client⟩ s.readBuffer.activeBytes

/-- The reader waits for bytes. -/
def Reads : Phase → Prop
  | .header => True
  | .payload _ _ => True
  | _ => False

/-- The connection goes on. -/
def Live : Phase → Prop
  | .malformed => False
  | .ended => False
  | _ => True

theorem Reads.live {phase : Phase} (h : Reads phase) : Live phase := by
  cases phase with
  | header => trivial
  | payload => trivial
  | query => trivial
  | malformed => exact h
  | ended => exact h

theorem PayloadPart.length_le (h : PayloadPart s n u) : u.length ≤ n := by
  have hlen := h.ok.length_activeBytes
  have hw := h.ok.write_le
  have hsize : s.packetBuffer.activeSize = s.packetBuffer.wpos - s.packetBuffer.rpos := rfl
  rw [h.active] at hlen
  rw [← h.length]
  omega

theorem PayloadPart.wpos (h : PayloadPart s n u) : s.packetBuffer.wpos = u.length := by
  have hlen := h.ok.length_activeBytes
  have hsize : s.packetBuffer.activeSize = s.packetBuffer.wpos - s.packetBuffer.rpos := rfl
  have hr := h.rpos
  rw [h.active] at hlen
  omega

theorem PayloadPart.remainingSpace (h : PayloadPart s n u) :
    s.packetBuffer.remainingSpace = n - u.length := by
  unfold MessageBuffer.remainingSpace
  rw [h.length, h.wpos]

theorem HeaderPart.wpos (h : HeaderPart s u) : s.headerBuffer.wpos = u.length := by
  have hlen := h.ok.length_activeBytes
  have hsize : s.headerBuffer.activeSize = s.headerBuffer.wpos - s.headerBuffer.rpos := rfl
  have hr := h.rpos
  rw [h.active] at hlen
  omega

theorem HeaderPart.remainingSpace (h : HeaderPart s u) :
    s.headerBuffer.remainingSpace = sizeofClientPktHeader - u.length := by
  unfold MessageBuffer.remainingSpace
  rw [h.length, h.wpos]

/-! ## A turn of the loop -/

/-- How a turn ends: the socket is where the reader is after the pieces it took. -/
structure TurnTo (k : ARC4 A) (E : Handlers H) (s : WorldSocket A H) (t : Turn)
    (s' : WorldSocket A H) (r' : Reader A H) (x' : List UInt8) : Prop where
  at_ : At s' r' x'
  ok : s'.readBuffer.Ok
  reading : s'.reading = s.reading
  closing : s'.closing = s.closing
  querying : s'.querying = true ↔ r'.phase = .query ∨ s.querying = true
  isOpen : Live r'.phase → s'.client.closed = false
  turn : match t with
    | .again => r'.phase = .header
    | .leave => Reads r'.phase ∧ s'.readBuffer.activeSize = 0 ∧ Reader.take k E r' x' = none
    | .quit => ¬ Reads r'.phase

end WorldSocket

/-- Only a packet that ends the connection closes it. -/
theorem Client.closed_readDataHandler {c c' : Client A H} {cmd : Nat} {payload : List UInt8}
    {result : Option ReadDataHandlerResult} (h : c.readDataHandler E cmd payload = (result, c'))
    (hresult : result ≠ some .error) : c'.closed = c.closed := by
  unfold Client.readDataHandler at h
  dsimp only at h
  repeat' split at h
  all_goals cases h
  all_goals first
    | rfl
    | exact absurd rfl hresult

theorem Client.decryptRecv_spec {c c' : Client A H} {bytes bytes' : List UInt8}
    (h : c.decryptRecv k bytes = (bytes', c')) :
    bytes'.length = bytes.length ∧ c'.closed = c.closed := by
  unfold Client.decryptRecv at h
  dsimp only at h
  split at h
  · cases h
    exact ⟨rfl, rfl⟩
  · cases h
    exact ⟨AuthCrypt.length_decryptRecv .., rfl⟩

namespace WorldSocket

variable {s s' : WorldSocket A H} {r r' : Reader A H} {x u : List UInt8} {n cmd : Nat}

variable {c : Client A H}

/-- Once a packet is handed on, the next header starts. -/
theorem HeaderDone.reset {b : Bool} (h : HeaderDone s cmd) :
    HeaderPart { s with client := c, packetBuffer := .moved, querying := b,
                        headerBuffer := s.headerBuffer.reset } [] where
  ok := ⟨Nat.le_refl 0, Nat.zero_le _⟩
  rpos := rfl
  length := h.length
  active := by
    show s.headerBuffer.reset.activeBytes = []
    rw [MessageBuffer.activeBytes_of_rpos rfl]
    exact List.take_zero
  short := by decide
  packet_wpos := rfl
  packet_rpos := rfl

theorem readPacket_spec (h : HeaderDone s cmd) (hok : s.readBuffer.Ok)
    (hopen : s.client.closed = false) :
    ∃ t s', s.readPacket E = some (t, s') ∧ s'.readBuffer = s.readBuffer ∧
      TurnTo k E s t s' (Reader.afterPacket E cmd s.packetBuffer.storage s.client)
        s.readBuffer.activeBytes := by
  unfold readPacket Reader.afterPacket
  rw [h.cmd]
  cases hres : s.client.readDataHandler E cmd s.packetBuffer.storage with
  | mk result c =>
      dsimp only
      cases result with
      | none =>
          have hclosed := Client.closed_readDataHandler hres (by decide)
          refine ⟨_, _, rfl, rfl, .ended (.inr (hclosed.trans hopen)), hok, rfl, rfl, ?_,
            fun hl => hl.elim, fun hr => hr⟩
          exact ⟨.inr, fun hq => hq.resolve_left fun hc => by cases hc⟩
      | some result =>
          cases result with
          | ok =>
              have hclosed := Client.closed_readDataHandler hres (by decide)
              refine ⟨_, _, rfl, rfl, ?_, hok, rfl, rfl, ?_, fun _ => hclosed.trans hopen, rfl⟩
              · exact At.header (h.reset (c := c) (b := s.querying))
              · exact ⟨.inr, fun hq => hq.resolve_left fun hc => by cases hc⟩
          | error =>
              have hreset := (h.reset (c := c) (b := s.querying)).remainingSpace
              refine ⟨_, _, rfl, rfl, .ended (.inl ?_), hok, rfl, rfl, ?_, fun hl => hl.elim,
                fun hr => hr⟩
              · show s.headerBuffer.reset.remainingSpace ≠ 0
                rw [show s.headerBuffer.reset.remainingSpace = _ from hreset]
                decide
              · exact ⟨.inr, fun hq => hq.resolve_left fun hc => by cases hc⟩
          | waitingForQuery =>
              have hclosed := Client.closed_readDataHandler hres (by decide)
              refine ⟨_, _, rfl, rfl, ?_, hok, rfl, rfl, ?_, fun _ => hclosed.trans hopen,
                fun hr => hr⟩
              · exact At.query (h.reset (c := c) (b := true))
              · exact ⟨fun _ => .inl rfl, fun _ => rfl⟩

/-- The state of the socket before a turn matters only so far. -/
theorem TurnTo.congr {s₁ : WorldSocket A H} {t : Turn} (h : TurnTo k E s₁ t s' r' x)
    (hreading : s₁.reading = s.reading) (hclosing : s₁.closing = s.closing)
    (hquerying : s₁.querying = s.querying) :
    TurnTo k E s t s' r' x where
  at_ := h.at_
  ok := h.ok
  reading := h.reading.trans hreading
  closing := h.closing.trans hclosing
  querying := by
    rw [← hquerying]
    exact h.querying
  isOpen := h.isOpen
  turn := h.turn

theorem take_payload (h : n ≤ x.length) :
    (Reader.framing k E).drain ⟨.payload n cmd, c⟩ x =
      (Reader.framing k E).drain (Reader.afterPacket E cmd (x.take n) c) (x.drop n) := by
  refine Framing.drain_of_some ?_
  show (if x.length < n then _ else _) = _
  rw [if_neg (by omega)]

/-- A full buffer for the payload holds nothing else. -/
theorem PayloadPart.storage (h : PayloadPart s n u) (hn : u.length = n) :
    s.packetBuffer.storage = u := by
  have hactive := h.active
  rw [MessageBuffer.activeBytes_of_rpos h.rpos, h.wpos, List.take_of_length_le] at hactive
  · exact hactive
  · rw [h.length]
    omega

/-- The header is there: as much of the payload is read as has come. -/
theorem readPayload_spec (hh : HeaderDone s cmd) (hu : PayloadPart s n u)
    (hok : s.readBuffer.Ok) (hopen : s.client.closed = false) :
    ∃ t s' r' x', s.readPayload E = some (t, s') ∧
      (Reader.framing k E).drain ⟨.payload n cmd, s.client⟩ (u ++ s.readBuffer.activeBytes) =
        (Reader.framing k E).drain r' x' ∧ TurnTo k E s t s' r' x' ∧
      s'.readBuffer.activeSize = s.readBuffer.activeSize -
        min s.readBuffer.activeSize (n - u.length) := by
  have hle := hu.length_le
  have hspace := hu.remainingSpace
  have hlen := hok.length_activeBytes
  unfold readPayload
  split <;> rename_i hroom
  · rw [hspace] at hroom
    obtain ⟨m, hk⟩ : ∃ m, m = min s.readBuffer.activeSize (n - u.length) := ⟨_, rfl⟩
    have hdata : s.readBuffer.readPointer m = s.readBuffer.activeBytes.take m :=
      MessageBuffer.readPointer_of_le (by omega)
    have hdlen : (s.readBuffer.activeBytes.take m).length = m :=
      List.length_take_of_le (by omega)
    obtain ⟨b, hb, hbok, hbw, hbr, hblen, hbact⟩ := hu.ok.write
      (x := s.readBuffer.activeBytes.take m) (by omega)
    rw [hspace, ← hk]
    dsimp only
    rw [hdata, hb]
    dsimp only
    have hrok := hok.readCompleted (n := m) (by omega)
    have hrsize : (s.readBuffer.readCompleted m).activeSize = s.readBuffer.activeSize - m :=
      MessageBuffer.activeSize_readCompleted
    have hract : (s.readBuffer.readCompleted m).activeBytes = s.readBuffer.activeBytes.drop m :=
      MessageBuffer.activeBytes_readCompleted
    have hu' : PayloadPart { s with packetBuffer := b, readBuffer := s.readBuffer.readCompleted m }
        n (u ++ s.readBuffer.activeBytes.take m) :=
      ⟨hbok, hbr.trans hu.rpos, hblen.trans hu.length, by rw [← hu.active]; exact hbact⟩
    have hlen' : (u ++ s.readBuffer.activeBytes.take m).length = u.length + m := by
      rw [List.length_append, hdlen]
    have hspace' : b.remainingSpace = n - (u.length + m) := hlen' ▸ hu'.remainingSpace
    have hstream : u ++ s.readBuffer.activeBytes = (u ++ s.readBuffer.activeBytes.take m) ++
        s.readBuffer.activeBytes.drop m := by
      rw [List.append_assoc, List.take_append_drop]
    split <;> rename_i hroom'
    · -- all that has come is read, and more is needed
      have hall : (s.readBuffer.readCompleted m).activeSize = 0 := by omega
      have hnil : s.readBuffer.activeBytes.drop m = [] := by
        rw [← hract]
        exact hrok.activeBytes_eq_nil.2 hall
      rw [if_neg (not_not.2 hall)]
      refine ⟨_, _, _, _, rfl, rfl, ?_, hrsize⟩
      rw [hstream, ← hract]
      refine ⟨At.payload ⟨hh.ok, hh.rpos, hh.length, hh.full, hh.cmd⟩ hu' (by omega), hrok, rfl,
        rfl, ⟨.inr, fun hq => hq.resolve_left fun hc => by cases hc⟩, fun _ => hopen,
        trivial, hall, ?_⟩
      show (if _ < n then none else _) = none
      rw [hract, hnil, List.append_nil, if_pos (by omega)]
    · have hfull : (u ++ s.readBuffer.activeBytes.take m).length = n := by omega
      obtain ⟨t, s', ht, hsame, hturn⟩ := readPacket_spec (k := k) (E := E)
        (s := { s with packetBuffer := b, readBuffer := s.readBuffer.readCompleted m })
        ⟨hh.ok, hh.rpos, hh.length, hh.full, hh.cmd⟩ hrok hopen
      refine ⟨t, s', _, _, ht, ?_, hturn.congr rfl rfl rfl, by rw [hsame]; exact hrsize⟩
      rw [hstream, take_payload (by rw [List.length_append]; omega), hu'.storage hfull,
        List.take_left' hfull, List.drop_left' hfull]
      exact congrArg _ hract.symm
  · have hfull : u.length = n := by omega
    obtain ⟨t, s', ht, hsame, hturn⟩ := readPacket_spec (k := k) (E := E) hh hok hopen
    refine ⟨t, s', _, _, ht, ?_, hturn, by rw [hsame, hfull]; omega⟩
    rw [take_payload (by rw [List.length_append]; omega), hu.storage hfull,
      List.take_left' hfull, List.drop_left' hfull]

theorem take_header (h : sizeofClientPktHeader ≤ x.length) :
    (Reader.framing k E).drain ⟨.header, c⟩ x = (Reader.framing k E).drain
      (Reader.afterHeader k (x.take sizeofClientPktHeader) c) (x.drop sizeofClientPktHeader) := by
  refine Framing.drain_of_some ?_
  show (if x.length < sizeofClientPktHeader then _ else _) = _
  rw [if_neg (by omega)]

/-- The header is complete: it is decrypted and looked at, and the payload is next. -/
theorem readHeader_spec {bytes : List UInt8} (hok : s.headerBuffer.Ok)
    (hrpos : s.headerBuffer.rpos = 0)
    (hlen : s.headerBuffer.storage.length = sizeofClientPktHeader)
    (hactive : s.headerBuffer.activeBytes = bytes) (hbytes : bytes.length = sizeofClientPktHeader)
    (hpw : s.packetBuffer.wpos = 0) (hpr : s.packetBuffer.rpos = 0) (hread : s.readBuffer.Ok)
    (hopen : s.client.closed = false) :
    ∃ t s' r' x', (match s.readHeaderHandler k with
        | none => none
        | some (true, s) => s.readPayload E
        | some (false, s) => some (.quit, s.closeSocket)) = some (t, s') ∧
      (Reader.framing k E).drain (Reader.afterHeader k bytes s.client)
          s.readBuffer.activeBytes = (Reader.framing k E).drain r' x' ∧
      TurnTo k E s t s' r' x' ∧ s'.readBuffer.activeSize ≤ s.readBuffer.activeSize := by
  have hsize : s.headerBuffer.activeSize = sizeofClientPktHeader := by
    rw [← hok.length_activeBytes, hactive, hbytes]
  have hwpos : s.headerBuffer.wpos = s.headerBuffer.storage.length := by
    unfold MessageBuffer.activeSize at hsize
    omega
  unfold readHeaderHandler Reader.afterHeader
  rw [if_neg (not_not.2 hsize), hactive]
  cases hdec : s.client.decryptRecv k bytes with
  | mk bytes' c =>
      obtain ⟨hlen', hclosed⟩ := Client.decryptRecv_spec hdec
      dsimp only
      by_cases hvalid : (!(ClientPktHeader.ofBytes bytes').isValidSize ||
          !(ClientPktHeader.ofBytes bytes').isValidOpcode) = true
      · rw [if_pos hvalid, if_pos hvalid]
        have hover := MessageBuffer.overwrite_full (x := bytes') hrpos hwpos (by omega)
        refine ⟨_, _, _, _, rfl, rfl, ⟨At.malformed ?_ rfl, hread, rfl, rfl, ?_, fun hl => hl.elim,
          fun hr => hr⟩, Nat.le_refl _⟩
        · show (s.headerBuffer.overwrite bytes').remainingSpace = 0
          rw [MessageBuffer.remainingSpace_eq_zero hover.1, hover.2.1]
          show s.headerBuffer.wpos = _
          omega
        · exact ⟨.inr, fun hq => hq.resolve_left fun hc => by cases hc⟩
      · rw [if_neg hvalid, if_neg hvalid]
        have hover := MessageBuffer.overwrite_full (x := headerInPlace bytes') hrpos hwpos
          (by rw [length_headerInPlace (hlen'.trans hbytes), hlen])
        obtain ⟨hpok, hplen, hpact⟩ := MessageBuffer.resize_of_wpos hpw hpr
          ((ClientPktHeader.ofBytes bytes').size - 4)
        have hinplace := length_headerInPlace (hlen'.trans hbytes)
        have hdone : HeaderDone { s with
            client := c, headerBuffer := s.headerBuffer.overwrite (headerInPlace bytes')
            packetBuffer := s.packetBuffer.resize ((ClientPktHeader.ofBytes bytes').size - 4) }
            (headerCmd bytes') :=
          ⟨hover.1, hrpos, by rw [hover.2.1]; exact hinplace, by
            rw [MessageBuffer.remainingSpace_eq_zero hover.1, hover.2.1]
            show s.headerBuffer.wpos = _
            omega, by rw [hover.2.2]; exact headerCmd_headerInPlace bytes'⟩
        obtain ⟨t, s', r', x', ht, hdrain, hturn, hless⟩ := readPayload_spec (k := k) (E := E)
          (n := (ClientPktHeader.ofBytes bytes').size - 4) (u := []) hdone
          ⟨hpok, hpr, hplen, hpact⟩ hread (hclosed.trans hopen)
        refine ⟨t, s', r', x', ht, hdrain, ?_, by rw [hless]; exact Nat.sub_le ..⟩
        exact hturn.congr rfl rfl rfl

/-- A turn of the loop takes what the reader takes, and reads a byte at least. -/
theorem readTurn_spec (hat : At s r x) (hreads : Reads r.phase) (hok : s.readBuffer.Ok)
    (hopen : s.client.closed = false) (hpos : 0 < s.readBuffer.activeSize) :
    ∃ t s' r' x', s.readTurn k E = some (t, s') ∧
      (Reader.framing k E).drain r x = (Reader.framing k E).drain r' x' ∧
      TurnTo k E s t s' r' x' ∧ s'.readBuffer.activeSize < s.readBuffer.activeSize := by
  have hlen := hok.length_activeBytes
  cases hat with
  | header hu =>
      rename_i u
      have hspace := hu.remainingSpace
      have hshort := hu.short
      unfold readTurn
      rw [if_pos (by omega), hspace]
      obtain ⟨m, hk⟩ : ∃ m, m = min s.readBuffer.activeSize (sizeofClientPktHeader - u.length) :=
        ⟨_, rfl⟩
      have hdlen : (s.readBuffer.activeBytes.take m).length = m :=
        List.length_take_of_le (by omega)
      obtain ⟨b, hb, hbok, hbw, hbr, hblen, hbact⟩ := hu.ok.write
        (x := s.readBuffer.activeBytes.take m) (by omega)
      rw [← hk]
      dsimp only
      rw [MessageBuffer.readPointer_of_le (by omega), hb]
      dsimp only
      have hrok := hok.readCompleted (n := m) (by omega)
      have hrsize : (s.readBuffer.readCompleted m).activeSize = s.readBuffer.activeSize - m :=
        MessageBuffer.activeSize_readCompleted
      have hract : (s.readBuffer.readCompleted m).activeBytes = s.readBuffer.activeBytes.drop m :=
        MessageBuffer.activeBytes_readCompleted
      have hblen' := hblen.trans hu.length
      have hspace' : b.remainingSpace = sizeofClientPktHeader - (u.length + m) := by
        have hwpos := hu.wpos
        unfold MessageBuffer.remainingSpace
        omega
      have hlen' : (u ++ s.readBuffer.activeBytes.take m).length = u.length + m := by
        rw [List.length_append, hdlen]
      have hbact' : b.activeBytes = u ++ s.readBuffer.activeBytes.take m := by
        rw [hbact, hu.active]
      have hstream : u ++ s.readBuffer.activeBytes = (u ++ s.readBuffer.activeBytes.take m) ++
          s.readBuffer.activeBytes.drop m := by
        rw [List.append_assoc, List.take_append_drop]
      split <;> rename_i hroom
      · -- all that has come is read, and the header is not complete
        have hall : (s.readBuffer.readCompleted m).activeSize = 0 := by omega
        have hnil : s.readBuffer.activeBytes.drop m = [] := by
          rw [← hract]
          exact hrok.activeBytes_eq_nil.2 hall
        rw [if_neg (not_not.2 hall)]
        refine ⟨_, _, _, _, rfl, rfl, ?_, by show (s.readBuffer.readCompleted m).activeSize < _; omega⟩
        rw [hstream, ← hract]
        refine ⟨At.header ⟨hbok, hbr.trans hu.rpos, hblen', hbact', by omega, hu.packet_wpos,
          hu.packet_rpos⟩, hrok, rfl, rfl, ⟨.inr, fun hq => hq.resolve_left fun hc => by cases hc⟩,
          fun _ => hopen, trivial, hall, ?_⟩
        show (if _ < sizeofClientPktHeader then none else _) = none
        rw [hract, hnil, List.append_nil, if_pos (by omega)]
      · have hfull : (u ++ s.readBuffer.activeBytes.take m).length = sizeofClientPktHeader := by
          omega
        obtain ⟨t, s', r', x', ht, hdrain, hturn, hless⟩ := readHeader_spec (k := k) (E := E)
          (s := { s with headerBuffer := b, readBuffer := s.readBuffer.readCompleted m })
          hbok (hbr.trans hu.rpos) hblen' hbact' hfull hu.packet_wpos hu.packet_rpos hrok hopen
        refine ⟨t, s', r', x', ht, ?_, hturn.congr rfl rfl rfl, ?_⟩
        · rw [← hdrain, hstream, take_header (by rw [List.length_append]; omega),
            List.take_left' hfull, List.drop_left' hfull]
          exact congrArg _ hract.symm
        · have hle : s'.readBuffer.activeSize ≤ s.readBuffer.activeSize - m := hrsize ▸ hless
          omega
  | payload hh hu hn =>
      unfold readTurn
      rw [if_neg (by have hfull := hh.full; omega)]
      obtain ⟨t, s', r', x', ht, hdrain, hturn, hless⟩ :=
        readPayload_spec (k := k) (E := E) hh hu hok hopen
      exact ⟨t, s', r', x', ht, hdrain, hturn, by omega⟩
  | query => exact hreads.elim
  | malformed => exact hreads.elim
  | ended => exact hreads.elim

/-! ## The loop -/

/-- Between reads, a socket that reads has started to, and one that waits has asked. -/
structure Ready (s : WorldSocket A H) (r : Reader A H) (x : List UInt8) : Prop where
  at_ : At s r x
  ok : s.readBuffer.Ok
  reading : s.reading = true ↔ Reads r.phase
  querying : s.querying = true ↔ r.phase = .query
  isOpen : Live r.phase → s.client.closed = false ∧ s.closing = false

theorem drain_of_not_reads (h : ¬ Reads r.phase) :
    (Reader.framing k E).drain r x = (r, x) := by
  refine Framing.drain_of_none ?_
  show Reader.take k E r x = none
  unfold Reader.take
  split <;> rename_i hphase
  · rw [hphase] at h
    exact absurd trivial h
  · rw [hphase] at h
    exact absurd trivial h
  · rfl

/-- With nothing in the read buffer there is nothing to take. -/
theorem At.drain_of_empty (h : At s r x) (hempty : s.readBuffer.activeBytes = []) :
    (Reader.framing k E).drain r x = (r, x) := by
  refine Framing.drain_of_none ?_
  show Reader.take k E r x = none
  cases h with
  | header hu =>
      show (if _ < sizeofClientPktHeader then none else _) = none
      rw [hempty, List.append_nil, if_pos hu.short]
  | @payload n cmd u hh hu hn =>
      show (if _ < n then none else _) = none
      rw [hempty, List.append_nil, if_pos hn]
  | query => rfl
  | malformed => rfl
  | ended => rfl

/-- What is in the read buffer may be elsewhere in it. -/
theorem At.readBuffer (h : At s r x) {b : MessageBuffer}
    (hb : b.activeBytes = s.readBuffer.activeBytes) (reading : Bool) :
    At { s with readBuffer := b, reading := reading } r x := by
  cases h with
  | header hu =>
      rw [← hb]
      exact At.header (s := { s with readBuffer := b, reading := reading })
        ⟨hu.ok, hu.rpos, hu.length, hu.active, hu.short, hu.packet_wpos, hu.packet_rpos⟩
  | payload hh hu hn =>
      rw [← hb]
      exact At.payload (s := { s with readBuffer := b, reading := reading })
        ⟨hh.ok, hh.rpos, hh.length, hh.full, hh.cmd⟩ ⟨hu.ok, hu.rpos, hu.length, hu.active⟩ hn
  | query hu =>
      rw [← hb]
      exact At.query (s := { s with readBuffer := b, reading := reading })
        ⟨hu.ok, hu.rpos, hu.length, hu.active, hu.short, hu.packet_wpos, hu.packet_rpos⟩
  | malformed hfull hclosed =>
      rw [← hb]
      exact At.malformed (s := { s with readBuffer := b, reading := reading }) hfull hclosed
  | ended hnot =>
      rw [← hb]
      exact At.ended (s := { s with readBuffer := b, reading := reading }) hnot

theorem isOpen_eq (hclosed : s.client.closed = false) (hclosing : s.closing = false) :
    s.isOpen = true := by
  rw [isOpen, hclosed, hclosing]
  rfl

theorem asyncRead_ready (hat : At s r x) (hok : s.readBuffer.Ok) (hreads : Reads r.phase)
    (hclosed : s.client.closed = false) (hclosing : s.closing = false)
    (hquery : s.querying = false) : Ready s.asyncRead r x := by
  obtain ⟨hnok, hnact⟩ := hok.normalize
  obtain ⟨heok, heact⟩ := hnok.ensureFreeSpace
  unfold asyncRead
  rw [isOpen_eq hclosed hclosing]
  refine ⟨hat.readBuffer (heact.trans hnact) true, heok, iff_of_true rfl hreads, ?_,
    fun _ => ⟨hclosed, hclosing⟩⟩
  refine iff_of_false (fun hq => ?_) fun hq => ?_
  · rw [show s.querying = true from hq] at hquery
    cases hquery
  · rw [hq] at hreads
    exact hreads

/-- The loop takes all there is to take, and ends. -/
theorem readLoop_spec (fuel : Nat) (hfuel : s.readBuffer.activeSize ≤ fuel) (hat : At s r x)
    (hreads : Reads r.phase) (hok : s.readBuffer.Ok) (hclosed : s.client.closed = false)
    (hclosing : s.closing = false) (hreading : s.reading = false) (hquery : s.querying = false) :
    ∃ s', readLoop k E fuel s = some s' ∧ Ready s' ((Reader.framing k E).drain r x).1
      ((Reader.framing k E).drain r x).2 := by
  induction fuel generalizing s r x with
  | zero =>
      have hempty : s.readBuffer.activeSize = 0 := by omega
      rw [hat.drain_of_empty (hok.activeBytes_eq_nil.2 hempty)]
      refine ⟨s.asyncRead, ?_, asyncRead_ready hat hok hreads hclosed hclosing hquery⟩
      unfold readLoop
      rw [if_pos hempty]
  | succ fuel ih =>
      unfold readLoop
      by_cases hempty : s.readBuffer.activeSize = 0
      · rw [hat.drain_of_empty (hok.activeBytes_eq_nil.2 hempty), if_pos hempty]
        exact ⟨s.asyncRead, rfl, asyncRead_ready hat hok hreads hclosed hclosing hquery⟩
      · obtain ⟨t, s', r', x', ht, hdrain, hturn, hless⟩ :=
          readTurn_spec (k := k) (E := E) hat hreads hok hclosed (by omega)
        rw [if_neg hempty, ht, hdrain]
        have hquery' : s'.querying = true ↔ r'.phase = .query := by
          rw [hturn.querying, hquery]
          exact or_iff_left (by decide)
        have hread : Reads r'.phase → s'.client.closed = false ∧ s'.closing = false ∧
            s'.querying = false := by
          intro hr
          refine ⟨hturn.isOpen hr.live, hturn.closing.trans hclosing, ?_⟩
          rw [Bool.eq_false_iff, ne_eq, hquery']
          intro hq
          rw [hq] at hr
          exact hr
        cases t with
        | again =>
            have hr : Reads r'.phase := by
              have hphase : r'.phase = .header := hturn.turn
              rw [hphase]
              trivial
            obtain ⟨hc, hcl, hq⟩ := hread hr
            exact ih (by omega) hturn.at_ hr hturn.ok hc hcl (hturn.reading.trans hreading) hq
        | leave =>
            obtain ⟨hr, -, htake⟩ := hturn.turn
            obtain ⟨hc, hcl, hq⟩ := hread hr
            rw [Framing.drain_of_none htake]
            exact ⟨_, rfl, asyncRead_ready hturn.at_ hturn.ok hr hc hcl hq⟩
        | quit =>
            have hr : ¬ Reads r'.phase := hturn.turn
            rw [drain_of_not_reads hr]
            refine ⟨s', rfl, hturn.at_, hturn.ok, ?_, hquery', fun hl =>
              ⟨hturn.isOpen hl, hturn.closing.trans hclosing⟩⟩
            rw [hturn.reading, hreading]
            exact iff_of_false (by decide) hr

/-- After a read, the socket is where the reader is. -/
theorem exec_read {bytes : List UInt8} (h : Ready s r x) (hen : s.enabled (.read bytes)) :
    ∃ s', s.exec k E (.read bytes) = some s' ∧
      Ready s' ((Reader.framing k E).drain r (x ++ bytes)).1
        ((Reader.framing k E).drain r (x ++ bytes)).2 := by
  obtain ⟨hreading, -, hfit⟩ := hen
  have hreads := h.reading.1 hreading
  obtain ⟨hclosed, hclosing⟩ := h.isOpen hreads.live
  obtain ⟨b, hb, hbok, -, -, -, hbact⟩ := h.ok.write hfit
  have hat : At { s with reading := false, readBuffer := b } r (x ++ bytes) := by
    have hat := h.at_
    cases hat with
    | header hu =>
        rw [List.append_assoc, ← hbact]
        exact At.header (s := { s with reading := false, readBuffer := b })
          ⟨hu.ok, hu.rpos, hu.length, hu.active, hu.short, hu.packet_wpos, hu.packet_rpos⟩
    | payload hh hu hn =>
        rw [List.append_assoc, ← hbact]
        exact At.payload (s := { s with reading := false, readBuffer := b })
          ⟨hh.ok, hh.rpos, hh.length, hh.full, hh.cmd⟩ ⟨hu.ok, hu.rpos, hu.length, hu.active⟩ hn
    | query => exact hreads.elim
    | malformed => exact hreads.elim
    | ended => exact hreads.elim
  have hquery : s.querying = false := by
    rw [Bool.eq_false_iff, ne_eq, h.querying]
    intro hq
    rw [hq] at hreads
    exact hreads
  obtain ⟨s', hs', hready⟩ := readLoop_spec (k := k) (E := E) b.activeSize (Nat.le_refl _) hat
    hreads hbok hclosed hclosing rfl hquery
  refine ⟨s', ?_, hready⟩
  rw [exec, hb]
  show ({ s with reading := false, readBuffer := b } : WorldSocket A H).readHandler k E = some s'
  have hopen : ({ s with reading := false, readBuffer := b } : WorldSocket A H).isOpen = true :=
    isOpen_eq hclosed hclosing
  rw [readHandler, hopen]
  exact hs'

/-- After an answer it is where the reader was, with what came behind the packet that asked
in its read buffer. -/
theorem exec_answer {crypt : Option (AuthCrypt A)} (h : Ready s r x)
    (hen : s.enabled (.answer crypt)) :
    ∃ s', s.exec k E (.answer crypt) = some s' ∧ Ready s' (r.answer crypt) x := by
  have hphase := h.querying.1 hen
  have hlive : Live r.phase := by
    rw [hphase]
    trivial
  obtain ⟨hclosed, hclosing⟩ := h.isOpen hlive
  have hat := h.at_
  cases hat with
  | query hu =>
      cases crypt with
      | none =>
          refine ⟨_, rfl, At.ended (.inr hclosed), h.ok, ?_, ?_, fun hl => hl.elim⟩
          · exact ⟨fun hr => absurd (h.reading.1 hr) id, fun hr => hr.elim⟩
          · exact iff_of_false Bool.false_ne_true fun hc => by cases hc
      | some crypt =>
          refine ⟨_, rfl, asyncRead_ready ?_ h.ok trivial hclosed hclosing rfl⟩
          exact At.header (s := { s with
            querying := false
            client := { s.client with
              authCrypt := some crypt, authed := true, worldSession := true } })
            ⟨hu.ok, hu.rpos, hu.length, hu.active, hu.short, hu.packet_wpos, hu.packet_rpos⟩
  | header => cases hphase
  | payload => cases hphase
  | malformed => cases hphase
  | ended => cases hphase

end WorldSocket

end Sunstrider.Sockets
