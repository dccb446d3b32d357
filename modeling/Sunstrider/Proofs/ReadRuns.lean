import Sunstrider.Proofs.ReadHandler

/-!
# Reads and answers in any order

`History` is a socket with the bytes it has received and the answers of the database so
far. In every run no assertion fails, no buffer overflows, a header is decrypted once, and
the packets delivered are the first of those that the reader of the whole stream delivers.
They are all of them, and the connection ends where that reader ends it, exactly as long as
nothing that could be handed on comes in one read with the end of the packet that asks the
database.

The client at the end sends that packet and another one. In one read, the second waits in
the buffer for a third; in two, it is delivered.
-/

namespace Sunstrider.Sockets

open Lib

variable {A H : Type} {k : ARC4 A} {E : Handlers H}

def WorldSocket.Op.bytes : WorldSocket.Op A → List UInt8
  | .read bytes => bytes
  | .answer _ => []

def WorldSocket.Op.answers : WorldSocket.Op A → List (Option (AuthCrypt A))
  | .read _ => []
  | .answer crypt => [crypt]

/-- A socket, if nothing has failed, and what it was given. -/
structure History (A H : Type) where
  socket : Option (WorldSocket A H)
  received : List UInt8
  answered : List (Option (AuthCrypt A))

namespace History

def start (h : H) : History A H := ⟨some (.new h), [], []⟩

def step (k : ARC4 A) (E : Handlers H) (w : History A H) (op : WorldSocket.Op A) :
    History A H :=
  match w.socket with
  | none => w
  | some s =>
      if s.enabled op then
        { socket := s.exec k E op
          received := w.received ++ op.bytes
          answered := w.answered ++ op.answers }
      else w

variable {w : History A H} {s : WorldSocket A H} {r r' : Reader A H} {x rest : List UInt8}
variable {h : H}

/-- What the reader of the whole stream makes of it. -/
def whole (k : ARC4 A) (E : Handlers H) (h : H) (w : History A H) :
    Reader A H × List UInt8 := Reader.parse k E w.answered (Reader.start h) w.received

end History

/-! ## Headers and packets -/

namespace Client

variable {c c' : Client A H}

theorem readDataHandler_spec {cmd : Nat} {payload : List UInt8}
    {result : Option ReadDataHandlerResult} (h : c.readDataHandler E cmd payload = (result, c')) :
    c'.delivered = c.delivered ++ [(cmd, payload)] ∧ c'.headers = c.headers := by
  unfold readDataHandler at h
  dsimp only at h
  repeat' split at h
  all_goals
    cases h
    exact ⟨rfl, rfl⟩

theorem decryptRecv_counts {bytes bytes' : List UInt8}
    (h : c.decryptRecv k bytes = (bytes', c')) :
    c'.delivered = c.delivered ∧ c'.headers = c.headers + 1 ∧ c'.terminated = c.terminated := by
  unfold decryptRecv at h
  dsimp only at h
  split at h
  · cases h
    exact ⟨rfl, rfl, rfl⟩
  · cases h
    exact ⟨rfl, rfl, rfl⟩

end Client

namespace Reader

variable {r r' : Reader A H} {x rest : List UInt8}

/-- Whether the last header has no packet. -/
def openHeaders (r : Reader A H) : Nat :=
  match r.phase with
  | .payload _ _ => 1
  | .malformed => 1
  | _ => 0

/-- The headers that were decrypted are those of the packets delivered, and maybe one whose
payload has not come. -/
def Counted (r : Reader A H) : Prop :=
  r.client.headers = r.client.delivered.length + r.openHeaders

theorem afterPacket_spec (E : Handlers H) (cmd : Nat) (payload : List UInt8) (c : Client A H) :
    (afterPacket E cmd payload c).client.delivered = c.delivered ++ [(cmd, payload)] ∧
      (afterPacket E cmd payload c).client.headers = c.headers ∧
      (afterPacket E cmd payload c).openHeaders = 0 := by
  have hopen : (afterPacket E cmd payload c).openHeaders = 0 := by
    unfold openHeaders
    rcases phase_afterPacket E cmd payload c with hp | hp | hp <;> rw [hp]
  cases hres : c.readDataHandler E cmd payload with
  | mk result c' =>
      obtain ⟨hdel, hhead⟩ := Client.readDataHandler_spec hres
      refine ⟨?_, ?_, hopen⟩
      · unfold afterPacket
        rw [hres]
        repeat' split
        all_goals
          rename_i heq
          cases heq
          exact hdel
      · unfold afterPacket
        rw [hres]
        repeat' split
        all_goals
          rename_i heq
          cases heq
          exact hhead

theorem afterHeader_spec (k : ARC4 A) (bytes : List UInt8) (c : Client A H) :
    (afterHeader k bytes c).client.delivered = c.delivered ∧
      (afterHeader k bytes c).client.headers = c.headers + 1 ∧
      (afterHeader k bytes c).openHeaders = 1 := by
  cases hdec : c.decryptRecv k bytes with
  | mk bytes' c' =>
      obtain ⟨hdel, hhead, -⟩ := Client.decryptRecv_counts hdec
      unfold afterHeader
      rw [hdec]
      dsimp only
      split
      · exact ⟨hdel, hhead, rfl⟩
      · exact ⟨hdel, hhead, rfl⟩

/-- What a piece adds. -/
theorem take_spec (h : take k E r x = some (r', rest)) :
    r.client.delivered <+: r'.client.delivered ∧ (Counted r → Counted r') := by
  unfold take at h
  split at h
  · rename_i hphase
    split at h
    · cases h
    · cases h
      obtain ⟨hdel, hhead, hopen⟩ :=
        afterHeader_spec k (x.take sizeofClientPktHeader) r.client
      refine ⟨by simp only [hdel, List.prefix_refl], fun hc => ?_⟩
      unfold Counted at hc ⊢
      unfold openHeaders at hc
      rw [hphase] at hc
      rw [hdel, hhead, hopen, hc]
      rfl
  · rename_i n cmd hphase
    split at h
    · cases h
    · cases h
      obtain ⟨hdel, hhead, hopen⟩ := afterPacket_spec E cmd (x.take n) r.client
      refine ⟨by rw [hdel]; exact List.prefix_append .., fun hc => ?_⟩
      unfold Counted at hc ⊢
      unfold openHeaders at hc
      rw [hphase] at hc
      rw [hdel, hhead, hopen, hc, List.length_append]
      rfl
  · cases h

theorem delivered_drain (k : ARC4 A) (E : Handlers H) (r : Reader A H) (x : List UInt8) :
    r.client.delivered <+: ((framing k E).drain r x).1.client.delivered :=
  Framing.drain_induct (Q := fun (r' : Reader A H) _ => r.client.delivered <+: r'.client.delivered)
    (fun _ _ _ _ hpre htake => hpre.trans (take_spec htake).1) (List.prefix_refl _)

theorem counted_drain (hc : Counted r) (x : List UInt8) :
    Counted ((framing k E).drain r x).1 :=
  Framing.drain_induct (Q := fun (r : Reader A H) _ => Counted r)
    (fun _ _ _ _ hc htake => (take_spec htake).2 hc) hc

theorem counted_answer {crypt : Option (AuthCrypt A)} (hc : Counted r) :
    Counted (r.answer crypt) := by
  unfold answer
  split <;> rename_i hphase
  · unfold Counted openHeaders at hc ⊢
    rw [hphase] at hc
    exact hc
  · unfold Counted openHeaders at hc ⊢
    rw [hphase] at hc
    exact hc
  · exact hc

end Reader

namespace WorldSocket

variable {s : WorldSocket A H} {r : Reader A H} {x : List UInt8}

/-- The connection was ended by a header that is none. -/
def Rejected (s : WorldSocket A H) : Prop :=
  s.client.closed = true ∧ s.headerBuffer.remainingSpace = 0

/-- Every header was decrypted once: one for each packet delivered, and maybe one that is
still in the header buffer. -/
def HeadersOnce (s : WorldSocket A H) : Prop :=
  s.client.headers = s.client.delivered.length ∨
    s.headerBuffer.remainingSpace = 0 ∧ s.client.headers = s.client.delivered.length + 1

/-- The socket has delivered what the reader has, and its connection has ended if and as the
reader's has. -/
structure Agrees (s : WorldSocket A H) (r : Reader A H) : Prop where
  delivered : s.client.delivered = r.client.delivered
  rejected : s.Rejected ↔ r.phase = .malformed
  closed : s.client.closed = r.client.closed
  terminated : s.client.terminated = r.client.terminated

theorem At.client (h : At s r x) : s.client = r.client := by
  cases h <;> rfl

theorem Ready.agrees (h : Ready s r x) : s.Agrees r := by
  have hclient := h.at_.client
  refine ⟨by rw [hclient], ?_, by rw [hclient], by rw [hclient]⟩
  have hopen := h.isOpen
  have hat := h.at_
  unfold Rejected
  cases hat with
  | header => exact iff_of_false (by rw [(hopen trivial).1]; simp) (by simp)
  | payload => exact iff_of_false (by rw [(hopen trivial).1]; simp) (by simp)
  | query => exact iff_of_false (by rw [(hopen trivial).1]; simp) (by simp)
  | malformed hfull hclosed => exact iff_of_true ⟨hclosed, hfull⟩ rfl
  | ended hnot =>
      refine iff_of_false (fun hr => ?_) (by simp)
      rcases hnot with hroom | hclosed
      · exact hroom hr.2
      · rw [hr.1] at hclosed
        cases hclosed

theorem At.headersOnce (h : At s r x) (hc : r.Counted) : s.HeadersOnce := by
  cases h with
  | header => exact .inl hc
  | payload hh => exact .inr ⟨hh.full, hc⟩
  | query => exact .inl hc
  | malformed hfull => exact .inr ⟨hfull, hc⟩
  | ended => exact .inl hc

theorem ready_new (h : H) : Ready (WorldSocket.new h : WorldSocket A H) (Reader.start h) [] where
  at_ := At.header (s := WorldSocket.new h) (u := [])
    ⟨MessageBuffer.ok_new _, rfl, rfl, rfl, by decide, rfl, rfl⟩
  ok := MessageBuffer.ok_new _
  reading := iff_of_true rfl trivial
  querying := iff_of_false Bool.false_ne_true fun hc => by cases hc
  isOpen _ := ⟨rfl, rfl⟩

end WorldSocket

namespace History

open WorldSocket

variable {w : History A H} {s : WorldSocket A H} {h : H}

variable {r : Reader A H} {x : List UInt8}

/-- The socket is somewhere, and what it has not taken is what the reader of the whole
stream goes on from. -/
structure Behind (k : ARC4 A) (E : Handlers H) (h : H) (w : History A H)
    (s : WorldSocket A H) (r : Reader A H) (x : List UInt8) : Prop where
  socket : w.socket = some s
  ready : Ready s r x
  counted : r.Counted
  asked : Reader.Asked k E w.answered (Reader.start h) w.received
  whole : w.whole k E h = (Reader.framing k E).drain r x

theorem behind_start (h : H) : Behind k E h (start h) (.new h : WorldSocket A H)
    (Reader.start h) [] := ⟨rfl, ready_new h, rfl, trivial, rfl⟩

theorem step_of_enabled {op : WorldSocket.Op A} (hs : w.socket = some s) (hen : s.enabled op) :
    w.step k E op = ⟨s.exec k E op, w.received ++ op.bytes, w.answered ++ op.answers⟩ := by
  rw [step, hs]
  exact if_pos hen

theorem step_of_not_enabled {op : WorldSocket.Op A} (hs : w.socket = some s)
    (hen : ¬ s.enabled op) : w.step k E op = w := by
  rw [step, hs]
  exact if_neg hen

/-- A read brings the socket to where the reader is. -/
theorem behind_read {bytes : List UInt8} (hb : Behind k E h w s r x)
    (hen : s.enabled (.read bytes)) :
    ∃ s', Behind k E h (w.step k E (.read bytes)) s'
        ((Reader.framing k E).drain r (x ++ bytes)).1
        ((Reader.framing k E).drain r (x ++ bytes)).2 ∧
      (w.step k E (.read bytes)).whole k E h =
        (Reader.framing k E).drain r (x ++ bytes) := by
  obtain ⟨s', hs', hready⟩ := exec_read (k := k) (E := E) hb.ready hen
  have hstep := step_of_enabled (k := k) (E := E) hb.socket hen
  obtain ⟨happend, hasked⟩ := Reader.parse_append hb.asked bytes
  have hwhole : (w.step k E (.read bytes)).whole k E h =
      (Reader.framing k E).drain r (x ++ bytes) := by
    have hbefore : Reader.parse k E w.answered (Reader.start h) w.received =
        (Reader.framing k E).drain r x := hb.whole
    rw [hstep, Framing.drain_append, ← hbefore, ← happend]
    show Reader.parse k E (w.answered ++ []) _ _ = _
    rw [List.append_nil]
    rfl
  refine ⟨s', ⟨by rw [hstep]; exact hs', hready, Reader.counted_drain hb.counted _, ?_, ?_⟩, hwhole⟩
  · rw [hstep]
    show Reader.Asked k E (w.answered ++ []) _ _
    rw [List.append_nil]
    exact hasked
  · rw [hwhole, Framing.drain_of_none (Framing.take_drain ..)]

/-- An answer lets it go on, but it does not. -/
theorem behind_answer {crypt : Option (AuthCrypt A)} (hb : Behind k E h w s r x)
    (hen : s.enabled (.answer crypt)) :
    ∃ s', Behind k E h (w.step k E (.answer crypt)) s' (r.answer crypt) x := by
  obtain ⟨s', hs', hready⟩ := exec_answer (k := k) (E := E) hb.ready hen
  have hstep := step_of_enabled (k := k) (E := E) hb.socket hen
  have hquery : r.phase = .query := hb.ready.querying.1 hen
  have hhere : Reader.parse k E w.answered (Reader.start h) w.received = (r, x) :=
    hb.whole.trans (Reader.drain_of_query hquery x)
  obtain ⟨hanswer, hasked⟩ := Reader.parse_answer crypt hb.asked
    (by rw [hhere]; exact hquery)
  refine ⟨s', by rw [hstep]; exact hs', hready, Reader.counted_answer hb.counted, ?_, ?_⟩
  · rw [hstep]
    show Reader.Asked k E _ _ (w.received ++ [])
    rw [List.append_nil]
    exact hasked
  · rw [hstep]
    show Reader.parse k E _ _ (w.received ++ []) = _
    rw [List.append_nil]
    refine hanswer.trans ?_
    rw [hhere]

theorem behind_step (op : WorldSocket.Op A) (hb : Behind k E h w s r x) :
    ∃ s' r' x', Behind k E h (w.step k E op) s' r' x' := by
  by_cases hen : s.enabled op
  · cases op with
    | read bytes =>
        obtain ⟨s', hb', -⟩ := behind_read hb hen
        exact ⟨s', _, _, hb'⟩
    | answer crypt =>
        obtain ⟨s', hb'⟩ := behind_answer hb hen
        exact ⟨s', _, _, hb'⟩
  · rw [step_of_not_enabled hb.socket hen]
    exact ⟨s, r, x, hb⟩

/-- What holds in every run: nothing fails, headers are decrypted once, and what is
delivered is what the reader of the whole stream delivers first. -/
def Sound (k : ARC4 A) (E : Handlers H) (h : H) (w : History A H) : Prop :=
  ∃ s, w.socket = some s ∧ s.HeadersOnce ∧
    s.client.delivered <+: (w.whole k E h).1.client.delivered

theorem Behind.sound (hb : Behind k E h w s r x) : Sound k E h w := by
  refine ⟨s, hb.socket, hb.ready.at_.headersOnce hb.counted, ?_⟩
  rw [hb.whole, hb.ready.at_.client]
  exact Reader.delivered_drain ..

theorem behind_run (k : ARC4 A) (E : Handlers H) (h : H) (ops : List (WorldSocket.Op A)) :
    ∃ s r x, Behind k E h (ops.foldl (step k E) (start h)) s r x := by
  induction ops using List.reverseRecOn with
  | nil => exact ⟨_, _, _, behind_start h⟩
  | append_singleton ops op ih =>
      obtain ⟨s, r, x, hb⟩ := ih
      rw [List.foldl_append]
      exact behind_step op hb

/-! ## Where nothing is left behind -/

/-- What the reader of the whole stream delivers, the socket has delivered. -/
def Whole (k : ARC4 A) (E : Handlers H) (h : H) (w : History A H) : Prop :=
  ∃ s, w.socket = some s ∧ s.Agrees (w.whole k E h).1

/-- With a new cipher, the bytes are less than a header that is one and its payload. -/
def Unfinished (k : ARC4 A) (crypt : AuthCrypt A) (x : List UInt8) : Prop :=
  x.length < sizeofClientPktHeader ∨
    ((ClientPktHeader.ofBytes (crypt.decryptRecv k (x.take sizeofClientPktHeader)).2).isValidSize
        = true ∧
      (ClientPktHeader.ofBytes
        (crypt.decryptRecv k (x.take sizeofClientPktHeader)).2).isValidOpcode = true ∧
      x.length < sizeofClientPktHeader + ((ClientPktHeader.ofBytes
        (crypt.decryptRecv k (x.take sizeofClientPktHeader)).2).size - 4))

/-- The condition: what came in one read with the end of the packet that asked the database
holds no packet and no malformed header. -/
def NothingBehind (k : ARC4 A) (w : History A H) : WorldSocket.Op A → Prop
  | .answer (some crypt) =>
      ∀ s, w.socket = some s → s.querying = true → Unfinished k crypt s.readBuffer.activeBytes
  | _ => True

/-- A reader at a header with a new cipher finds nothing to deliver or to reject exactly if
the bytes are unfinished; and then nothing else happens to the connection. -/
theorem unfinished_iff {crypt : AuthCrypt A} {c : Client A H} (hcrypt : c.authCrypt = some crypt) :
    (Unfinished k crypt x ↔
      ((Reader.framing k E).drain ⟨.header, c⟩ x).1.client.delivered = c.delivered ∧
        ((Reader.framing k E).drain ⟨.header, c⟩ x).1.phase ≠ .malformed) ∧
      (Unfinished k crypt x →
        ((Reader.framing k E).drain ⟨.header, c⟩ x).1.client.closed = c.closed ∧
          ((Reader.framing k E).drain ⟨.header, c⟩ x).1.client.terminated = c.terminated) := by
  by_cases hshort : x.length < sizeofClientPktHeader
  · have hdrain : (Reader.framing k E).drain ⟨.header, c⟩ x = (⟨.header, c⟩, x) :=
      Framing.drain_of_none (if_pos hshort)
    rw [hdrain]
    exact ⟨iff_of_true (.inl hshort) ⟨rfl, by simp⟩, fun _ => ⟨rfl, rfl⟩⟩
  · rw [take_header (by omega)]
    have hdec : c.decryptRecv k (x.take sizeofClientPktHeader) =
        ((crypt.decryptRecv k (x.take sizeofClientPktHeader)).2,
          { c with
            headers := c.headers + 1
            authCrypt := some (crypt.decryptRecv k (x.take sizeofClientPktHeader)).1 }) := by
      unfold Client.decryptRecv
      dsimp only
      rw [hcrypt]
    obtain ⟨bytes, hbytes⟩ : ∃ bytes,
        bytes = (crypt.decryptRecv k (x.take sizeofClientPktHeader)).2 := ⟨_, rfl⟩
    unfold Reader.afterHeader Unfinished
    rw [hdec, or_iff_right hshort, ← hbytes]
    dsimp only
    by_cases hvalid : (!(ClientPktHeader.ofBytes bytes).isValidSize ||
        !(ClientPktHeader.ofBytes bytes).isValidOpcode) = true
    · rw [if_pos hvalid, drain_of_not_reads id]
      have hnot : ¬ ((ClientPktHeader.ofBytes bytes).isValidSize = true ∧
          (ClientPktHeader.ofBytes bytes).isValidOpcode = true ∧ x.length <
            sizeofClientPktHeader + ((ClientPktHeader.ofBytes bytes).size - 4)) := by
        rintro ⟨hsize, hopcode, -⟩
        rw [hsize, hopcode] at hvalid
        cases hvalid
      exact ⟨iff_of_false hnot fun hc => hc.2 rfl, fun hc => absurd hc hnot⟩
    · rw [if_neg hvalid]
      rw [Bool.or_eq_true, not_or, Bool.not_eq_true', Bool.not_eq_false, Bool.not_eq_true',
        Bool.not_eq_false] at hvalid
      rw [and_iff_right hvalid.1, and_iff_right hvalid.2]
      by_cases hpayload : (x.drop sizeofClientPktHeader).length <
          (ClientPktHeader.ofBytes bytes).size - 4
      · rw [Framing.drain_of_none (show (if _ < _ then none else _) = none from if_pos hpayload)]
        rw [List.length_drop] at hpayload
        exact ⟨iff_of_true (by omega) ⟨rfl, by simp⟩, fun _ => ⟨rfl, rfl⟩⟩
      · rw [take_payload (by omega)]
        rw [List.length_drop] at hpayload
        have hnot : ¬ x.length <
            sizeofClientPktHeader + ((ClientPktHeader.ofBytes bytes).size - 4) := by omega
        refine ⟨iff_of_false hnot fun hc => ?_, fun hc => absurd hc hnot⟩
        -- a packet that is handed on stays delivered
        have hpre := Reader.delivered_drain k E (Reader.afterPacket E
          (ClientPktHeader.ofBytes bytes).cmd ((x.drop sizeofClientPktHeader).take
            ((ClientPktHeader.ofBytes bytes).size - 4))
          { c with
            headers := c.headers + 1
            authCrypt := some (crypt.decryptRecv k (x.take sizeofClientPktHeader)).1 })
          ((x.drop sizeofClientPktHeader).drop ((ClientPktHeader.ofBytes bytes).size - 4))
        rw [hc.1, (Reader.afterPacket_spec ..).1] at hpre
        have hlen := hpre.length_le
        rw [List.length_append] at hlen
        exact Nat.not_succ_le_self _ hlen

theorem agrees_of_behind (hb : Behind k E h w s r x) (hw : w.whole k E h = (r, x)) :
    Whole k E h w :=
  ⟨s, hb.socket, by rw [hw]; exact hb.ready.agrees⟩

/-- A step leaves the socket with all that the reader delivers, or it is an answer. -/
theorem whole_step (op : WorldSocket.Op A) (hb : Behind k E h w s r x) (hw : Whole k E h w) :
    Whole k E h (w.step k E op) ↔ NothingBehind k w op := by
  by_cases hen : s.enabled op
  · cases op with
    | read bytes =>
        obtain ⟨s', hb', hwhole⟩ := behind_read hb hen
        exact iff_of_true (agrees_of_behind hb' hwhole) trivial
    | answer crypt =>
        obtain ⟨s', hb'⟩ := behind_answer hb hen
        have hquery : r.phase = .query := hb.ready.querying.1 hen
        have hat := hb.ready.at_
        cases crypt with
        | none =>
            have hended : r.answer none = ⟨.ended, r.client⟩ := by
              unfold Reader.answer
              rw [hquery]
            refine iff_of_true (agrees_of_behind hb' ?_) trivial
            rw [hb'.whole, hended]
            exact Reader.drain_of_ended rfl x
        | some crypt =>
            have hx : x = s.readBuffer.activeBytes := by
              cases hat with
              | query => rfl
              | header => cases hquery
              | payload => cases hquery
              | malformed => cases hquery
              | ended => cases hquery
            have hheader : r.answer (some crypt) = ⟨.header,
                { r.client with authCrypt := some crypt, authed := true,
                                worldSession := true }⟩ := by
              unfold Reader.answer
              rw [hquery]
            have hopen := hb'.ready.isOpen (by rw [hheader]; trivial)
            have hclient := hb'.ready.at_.client
            rw [hheader] at hclient
            obtain ⟨hiff, hrest⟩ := unfinished_iff (k := k) (E := E) (x := x)
              (c := { r.client with authCrypt := some crypt, authed := true,
                                    worldSession := true }) rfl
            have hcond : NothingBehind k w (.answer (some crypt)) ↔ Unfinished k crypt x := by
              rw [hx]
              refine ⟨fun hc => hc s hb.socket hen, fun hc s' hs' _ => ?_⟩
              rw [hb.socket] at hs'
              rw [← Option.some.inj hs']
              exact hc
            have hnot : ¬ s'.Rejected := by
              intro hr
              have hclosed := hr.1
              rw [hopen.1] at hclosed
              cases hclosed
            rw [hcond]
            unfold Whole
            rw [hb'.whole, hheader]
            constructor
            · rintro ⟨s'', hs'', hagrees⟩
              rw [hb'.socket] at hs''
              obtain rfl := Option.some.inj hs''
              refine hiff.2 ⟨?_, fun hc => hnot (hagrees.rejected.2 hc)⟩
              rw [← hagrees.delivered, hclient]
            · intro hun
              obtain ⟨hdel, hphase⟩ := hiff.1 hun
              obtain ⟨hclosed, hterm⟩ := hrest hun
              refine ⟨s', hb'.socket, ?_, iff_of_false hnot hphase, ?_, ?_⟩
              · rw [hdel, hclient]
              · rw [hclosed, hclient]
              · rw [hterm, hclient]
  · have hsame := step_of_not_enabled (k := k) (E := E) hb.socket hen
    rw [hsame]
    refine iff_of_true hw ?_
    cases op with
    | read bytes => trivial
    | answer crypt =>
        cases crypt with
        | none => trivial
        | some crypt =>
            intro s' hs' hq
            rw [hb.socket] at hs'
            obtain rfl := Option.some.inj hs'
            exact absurd hq hen

/-- In every run no assertion fails, no buffer overflows, every header is decrypted once, and
the packets delivered begin those of the stream read in one go. They are all of those, and
the connection ends at the same header or packet, at every moment if and only if the
database never answers while more than an unfinished packet is left in the read buffer. -/
theorem reads_whole_iff (k : ARC4 A) (E : Handlers H) (h : H) (ops : List (WorldSocket.Op A)) :
    (∀ os, os <+: ops → Sound k E h (os.foldl (step k E) (start h))) ∧
      ((∀ os, os <+: ops → Whole k E h (os.foldl (step k E) (start h))) ↔
        Along (step k E) (NothingBehind k) (start h) ops) := by
  refine ⟨fun os _ => ?_, ?_⟩
  · obtain ⟨s, r, x, hb⟩ := behind_run k E h os
    exact hb.sound
  · refine Along.holds_iff
      (I := fun w => (∃ s r x, Behind k E h w s r x) ∧ Whole k E h w)
      (fun _ hw => hw.2) ?_ ?_ ⟨⟨_, _, _, behind_start h⟩, ?_⟩
    · rintro w op ⟨⟨s, r, x, hb⟩, hw⟩ hop
      exact ⟨behind_step op hb, (whole_step op hb hw).2 hop⟩
    · rintro w op ⟨⟨s, r, x, hb⟩, hw⟩ hstep
      exact (whole_step op hb hw).1 hstep
    · have hb := behind_start (k := k) (E := E) h
      refine agrees_of_behind hb (hb.whole.trans ?_)
      exact hb.ready.at_.drain_of_empty rfl

end History

/-- Pings are answered by those who are in, and whoever asks to come in may be asked for. -/
def pinging : Handlers Unit where
  handlePing session _ h := (some session, h)
  handleAuthSession payload _ := decide (34 < payload.length)
  handleTimeSyncResp _ h := some h
  queuePacket _ _ h := h

def noStream : ARC4 Unit := ⟨fun _ => (0, ())⟩

def zeroKey : AuthCrypt Unit := ⟨true, .build243, (), (), fun _ => 0, 0, 0, 0, 0⟩

def authSession : List UInt8 := [0, 39, 0xED, 1, 0, 0] ++ List.replicate 35 0

/-- A ping, with its header encrypted. -/
def encryptedPing : List UInt8 := [0, 12, 0xE8, 0xE9, 0xE9, 0xE9] ++ List.replicate 8 0

/-- The same bytes and the same answer. In one read the ping is left in the buffer; in two
it is delivered. -/
theorem ping_left_in_read_buffer :
    let one := [.read (authSession ++ encryptedPing), .answer (some zeroKey)].foldl
      (History.step noStream pinging) (.start ())
    let two := [.read authSession, .answer (some zeroKey), .read encryptedPing].foldl
      (History.step noStream pinging) (.start ())
    one.received = two.received ∧ one.answered.length = two.answered.length ∧
      one.socket.map (fun s => s.client.delivered.map Prod.fst) = some [cmsgAuthSession] ∧
      two.socket.map (fun s => s.client.delivered.map Prod.fst) =
        some [cmsgAuthSession, cmsgPing] := by
  refine ⟨by decide +kernel, by decide +kernel, by decide +kernel, by decide +kernel⟩

end Sunstrider.Sockets
