import Sunstrider.Lib.Framing
import Sunstrider.Sockets.ReadHandler

/-!
# A reader of the whole stream

What a client has sent, read in one go: six bytes are a header, and what its size says is
the payload, which goes to `ReadDataHandler` at once. The reader stops for the database
after a packet that asks it, and for good after a header that is no header or a packet that
ends the connection. There are no buffers and no reads here; it is what the socket is
compared with.
-/

namespace Sunstrider.Sockets

open Lib

variable {A H : Type}

/-- What the reader is at. -/
inductive Phase
  | header
  | payload (size cmd : Nat)
  | query
  | malformed
  | ended
deriving DecidableEq, Repr

structure Reader (A H : Type) where
  phase : Phase
  client : Client A H

namespace Reader

variable {k : ARC4 A} {E : Handlers H} {r r' : Reader A H} {x y rest : List UInt8}

/-- A packet is handled. -/
def afterPacket (E : Handlers H) (cmd : Nat) (payload : List UInt8) (c : Client A H) :
    Reader A H :=
  match c.readDataHandler E cmd payload with
  | (some .ok, c) => ⟨.header, c⟩
  | (some .error, c) => ⟨.ended, c.closeSocket⟩
  | (some .waitingForQuery, c) => ⟨.query, c⟩
  | (none, c) => ⟨.ended, c⟩

/-- A header is decrypted and looked at. -/
def afterHeader (k : ARC4 A) (bytes : List UInt8) (c : Client A H) : Reader A H :=
  let (bytes, c) := c.decryptRecv k bytes
  let header := ClientPktHeader.ofBytes bytes
  if !header.isValidSize || !header.isValidOpcode then ⟨.malformed, c.closeSocket⟩
  else ⟨.payload (header.size - 4) header.cmd, c⟩

/-- The next header or payload, if all of it is there. -/
def take (k : ARC4 A) (E : Handlers H) (r : Reader A H) (x : List UInt8) :
    Option (Reader A H × List UInt8) :=
  match r.phase with
  | .header =>
      if x.length < sizeofClientPktHeader then none
      else some (afterHeader k (x.take sizeofClientPktHeader) r.client,
        x.drop sizeofClientPktHeader)
  | .payload size cmd =>
      if x.length < size then none
      else some (afterPacket E cmd (x.take size) r.client, x.drop size)
  | _ => none

/-- What there is to take is bounded by the bytes, and a payload that may have none. -/
def size (r : Reader A H) (x : List UInt8) : Nat :=
  2 * x.length +
    match r.phase with
    | .payload _ _ => 1
    | _ => 0

theorem phase_afterPacket (E : Handlers H) (cmd : Nat) (payload : List UInt8) (c : Client A H) :
    (afterPacket E cmd payload c).phase = .header ∨ (afterPacket E cmd payload c).phase = .query ∨
      (afterPacket E cmd payload c).phase = .ended := by
  unfold afterPacket
  split
  · exact .inl rfl
  · exact .inr (.inr rfl)
  · exact .inr (.inl rfl)
  · exact .inr (.inr rfl)

theorem size_le (r : Reader A H) (x : List UInt8) : r.size x ≤ 2 * x.length + 1 := by
  unfold size
  split <;> omega

theorem shrinks (h : take k E r x = some (r', rest)) : r'.size rest < r.size x := by
  unfold take at h
  split at h
  · rename_i hphase
    split at h <;> rename_i hlen
    · cases h
    · cases h
      have hle := size_le (afterHeader k (x.take sizeofClientPktHeader) r.client)
        (x.drop sizeofClientPktHeader)
      rw [List.length_drop] at hle
      have hsize : r.size x = 2 * x.length := by
        unfold size
        rw [hphase]
        rfl
      unfold sizeofClientPktHeader at hlen hle ⊢
      omega
  · rename_i n cmd hphase
    split at h
    · cases h
    · cases h
      have hsize : r.size x = 2 * x.length + 1 := by
        unfold size
        rw [hphase]
      have hsize' : (afterPacket E cmd (x.take n) r.client).size (x.drop n) =
          2 * (x.drop n).length := by
        unfold size
        rcases phase_afterPacket E cmd (x.take n) r.client with hp | hp | hp <;> rw [hp] <;> rfl
      rw [hsize', hsize, List.length_drop]
      omega
  · cases h

theorem stable (y : List UInt8) (h : take k E r x = some (r', rest)) :
    take k E r (x ++ y) = some (r', rest ++ y) := by
  unfold take at h ⊢
  split at h
  · split at h <;> rename_i hlen
    · cases h
    · cases h
      rw [List.length_append, if_neg (by omega), List.take_append_of_le_length (by omega),
        List.drop_append_of_le_length (by omega)]
  · split at h <;> rename_i hlen
    · cases h
    · cases h
      rw [List.length_append, if_neg (by omega), List.take_append_of_le_length (by omega),
        List.drop_append_of_le_length (by omega)]
  · cases h

/-- The reader takes headers and payloads in turn. -/
def framing (k : ARC4 A) (E : Handlers H) : Framing (Reader A H) UInt8 where
  take := take k E
  size := size
  shrinks := shrinks
  stable := fun y h => stable y h

/-- The database answers. -/
def answer (crypt : Option (AuthCrypt A)) (r : Reader A H) : Reader A H :=
  match r.phase, crypt with
  | .query, none => ⟨.ended, r.client⟩
  | .query, some crypt =>
      ⟨.header, { r.client with authCrypt := some crypt, authed := true, worldSession := true }⟩
  | _, _ => r

def start (h : H) : Reader A H := ⟨.header, ⟨none, false, false, false, false, h, [], 0⟩⟩

/-- The stream is read in one go; each time the reader waits for the database, it gets the
next of the answers. -/
def parse (k : ARC4 A) (E : Handlers H) : List (Option (AuthCrypt A)) → Reader A H →
    List UInt8 → Reader A H × List UInt8
  | [], r, x => (framing k E).drain r x
  | crypt :: answers, r, x =>
      let (r, x) := (framing k E).drain r x
      if r.phase = .query then parse k E answers (r.answer crypt) x else (r, x)

/-- The reader waits as often as there are answers. -/
def Asked (k : ARC4 A) (E : Handlers H) : List (Option (AuthCrypt A)) → Reader A H →
    List UInt8 → Prop
  | [], _, _ => True
  | crypt :: answers, r, x =>
      ((framing k E).drain r x).1.phase = .query ∧
        Asked k E answers (((framing k E).drain r x).1.answer crypt)
          ((framing k E).drain r x).2

variable {answers : List (Option (AuthCrypt A))} {crypt : Option (AuthCrypt A)}

/-- While it waits the reader takes nothing. -/
theorem drain_of_query (h : r.phase = .query) (x : List UInt8) :
    (framing k E).drain r x = (r, x) := by
  refine Framing.drain_of_none ?_
  show take k E r x = none
  unfold take
  rw [h]

theorem drain_of_ended (h : r.phase = .ended) (x : List UInt8) :
    (framing k E).drain r x = (r, x) := by
  refine Framing.drain_of_none ?_
  show take k E r x = none
  unfold take
  rw [h]

theorem drain_append_of_query (h : ((framing k E).drain r x).1.phase = .query)
    (y : List UInt8) : (framing k E).drain r (x ++ y) =
      (((framing k E).drain r x).1, ((framing k E).drain r x).2 ++ y) := by
  rw [Framing.drain_append, drain_of_query h]

/-- More bytes are read where the reader stopped. -/
theorem parse_append (h : Asked k E answers r x) (y : List UInt8) :
    parse k E answers r (x ++ y) =
        (framing k E).drain (parse k E answers r x).1 ((parse k E answers r x).2 ++ y) ∧
      Asked k E answers r (x ++ y) := by
  induction answers generalizing r x with
  | nil => exact ⟨Framing.drain_append r x y, trivial⟩
  | cons crypt answers ih =>
      obtain ⟨hquery, hrest⟩ := h
      have hdrain := drain_append_of_query hquery y
      obtain ⟨heq, hasked⟩ := ih hrest
      refine ⟨?_, by rw [hdrain]; exact hquery, by rw [hdrain]; exact hasked⟩
      unfold parse
      rw [hdrain]
      dsimp only
      rw [if_pos hquery, if_pos hquery]
      exact heq

/-- One more answer comes where the reader waits. -/
theorem parse_answer (crypt : Option (AuthCrypt A)) (h : Asked k E answers r x)
    (hquery : (parse k E answers r x).1.phase = .query) :
    parse k E (answers ++ [crypt]) r x = (framing k E).drain
        ((parse k E answers r x).1.answer crypt) (parse k E answers r x).2 ∧
      Asked k E (answers ++ [crypt]) r x := by
  induction answers generalizing r x with
  | nil =>
      refine ⟨?_, hquery, trivial⟩
      show (if ((framing k E).drain r x).1.phase = .query then _ else _) = _
      exact if_pos hquery
  | cons a answers ih =>
      obtain ⟨hfirst, hrest⟩ := h
      have hsame : parse k E (a :: answers) r x = parse k E answers
          (((framing k E).drain r x).1.answer a) ((framing k E).drain r x).2 :=
        if_pos hfirst
      rw [hsame] at hquery ⊢
      obtain ⟨heq, hasked⟩ := ih hrest hquery
      exact ⟨(if_pos hfirst).trans heq, hfirst, hasked⟩

end Reader

end Sunstrider.Sockets
