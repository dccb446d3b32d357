import Sunstrider.Packets.ByteBuffer

/-!
# What a byte buffer takes and gives back

`append` goes through exactly if the buffer is below the size it asserts and the bytes end
within what a vector can hold at all; `Room` is that, and `padded` the vector it copies the
bytes to. What is read is said of the bytes that are `Upcoming` at the read position, so
that the rest of the buffer need not be spoken of.
-/

namespace Sunstrider.Packets.ByteBuffer

open Lib.Digits

variable {b b' : ByteBuffer} {src bytes rest : List UInt8} {x : UInt8}

theorem toNat_size : b.size.toNat = b.storage.1.length := by
  have h := b.storage.2
  unfold maxSize at h
  exact UInt64.toNat_ofNat_of_lt' (Nat.lt_of_le_of_lt h (by decide))

theorem ok_bind {α β : Type} (a : α) (f : α → Except Stop β) : (Except.ok a >>= f) = f a := rfl

/-! ## Writing -/

structure Room (b : ByteBuffer) (src : List UInt8) : Prop where
  below : b.storage.1.length < 10000000
  ends : b.wpos.toNat + src.length ≤ maxSize

/-- The vector, made longer where the bytes would not fit. -/
def padded (b : ByteBuffer) (src : List UInt8) : List UInt8 :=
  b.storage.1 ++ List.replicate (b.wpos.toNat + src.length - b.storage.1.length) 0

theorem append_of_room (hroom : b.Room src) (hsrc : src ≠ []) :
    ∃ b', b.append src = .ok b' ∧ b'.rpos = b.rpos ∧
      b'.wpos.toNat = b.wpos.toNat + src.length ∧
      b'.storage.1 = (b.padded src).take b.wpos.toNat ++ src ++
        (b.padded src).drop (b.wpos.toNat + src.length) := by
  obtain ⟨hbelow, hends⟩ := hroom
  have hpos := List.length_pos_iff.2 hsrc
  have hmax : maxSize < 2 ^ 64 := by decide
  have hcnt : (UInt64.ofNat src.length).toNat = src.length :=
    UInt64.toNat_ofNat_of_lt' (Nat.lt_of_le_of_lt (by omega) hmax)
  have hwpos : (b.wpos + UInt64.ofNat src.length).toNat = b.wpos.toNat + src.length := by
    rw [UInt64.toNat_add, hcnt, Nat.mod_eq_of_lt (by omega)]
  have hsome : ¬ UInt64.ofNat src.length = 0 := fun h => by
    have := congrArg UInt64.toNat h
    rw [hcnt, UInt64.toNat_zero] at this
    omega
  have hsize : b.size < 10000000 := by
    rw [UInt64.lt_iff_toNat_lt, toNat_size]
    exact hbelow
  have hlength : (b.padded src).length = max b.storage.1.length (b.wpos.toNat + src.length) := by
    rw [padded, List.length_append, List.length_replicate]
    omega
  have hstorage : ∃ s : Storage, s.1 = b.padded src ∧
      b.storage.atLeast (b.wpos + UInt64.ofNat src.length) = .ok s := by
    unfold Storage.atLeast
    have hgrow : b.size < b.wpos + UInt64.ofNat src.length ↔
        b.storage.1.length < b.wpos.toNat + src.length := by
      rw [UInt64.lt_iff_toNat_lt, toNat_size, hwpos]
    by_cases hlonger : b.storage.1.length < b.wpos.toNat + src.length
    · have hle : (b.padded src).length ≤ maxSize := by
        rw [hlength]
        omega
      refine ⟨⟨b.padded src, hle⟩, rfl, (if_pos (hgrow.2 hlonger)).trans ?_⟩
      rw [Storage.resize, hwpos]
      exact dif_pos hle
    · refine ⟨b.storage, ?_, if_neg fun h => hlonger (hgrow.1 h)⟩
      rw [padded, Nat.sub_eq_zero_of_le (by omega), List.replicate_zero, List.append_nil]
  obtain ⟨s, hs, hstorage⟩ := hstorage
  have hfits : b.wpos.toNat + src.length ≤ s.1.length := by
    rw [hs, hlength]
    exact Nat.le_max_right _ _
  obtain ⟨t, hcopy, ht⟩ : ∃ t : Storage, s.copyTo b.wpos src = .ok t ∧
      t.1 = s.1.take b.wpos.toNat ++ src ++ s.1.drop (b.wpos.toNat + src.length) :=
    ⟨_, dif_pos hfits, rfl⟩
  refine ⟨{ b with storage := t, wpos := b.wpos + .ofNat src.length }, ?_, rfl, hwpos, ?_⟩
  · unfold append
    dsimp only
    rw [if_neg hsome, if_neg (not_not_intro hsize), hstorage, ok_bind, hcopy, ok_bind]
  · rw [ht, hs]

theorem append_of_not_room (hroom : ¬ b.Room src) :
    ∃ e, b.append src = .error e := by
  unfold append
  dsimp only
  split
  · exact ⟨_, rfl⟩
  split
  · exact ⟨_, rfl⟩
  rename_i hsize
  have hbelow : b.storage.1.length < 10000000 := by
    have h := not_not.1 hsize
    rwa [UInt64.lt_iff_toNat_lt, toNat_size] at h
  have hends : maxSize < b.wpos.toNat + src.length := by
    by_contra h
    exact hroom ⟨hbelow, by omega⟩
  -- whatever the vector was resized to, the bytes end beyond what it can be
  cases b.storage.atLeast (b.wpos + UInt64.ofNat src.length) with
  | error e => exact ⟨e, rfl⟩
  | ok s =>
      have := s.2
      refine ⟨.outsideVector, ?_⟩
      rw [ok_bind, Storage.copyTo, dif_neg (by omega)]
      rfl

/-- An operation that puts these bytes behind what is in a buffer, where the buffer is
written to at its end and has room. -/
def Writes (f : ByteBuffer → Except Stop ByteBuffer) (bytes : List UInt8) : Prop :=
  ∀ b : ByteBuffer, b.wpos.toNat = b.storage.1.length →
    b.storage.1.length + bytes.length ≤ 10000000 →
    ∃ b', f b = .ok b' ∧ b'.wpos.toNat = b'.storage.1.length ∧
      b'.storage.1 = b.storage.1 ++ bytes

variable {f g : ByteBuffer → Except Stop ByteBuffer}

theorem writes_append (hsrc : src ≠ []) : Writes (fun b => b.append src) src := by
  intro b hend hfit
  have hpos := List.length_pos_iff.2 hsrc
  have hroom : b.Room src := ⟨by omega, by unfold maxSize; omega⟩
  obtain ⟨b', happend, -, hwpos, hstorage⟩ := append_of_room hroom hsrc
  have hlength : (b.padded src).length = b.wpos.toNat + src.length := by
    rw [padded, List.length_append, List.length_replicate]
    omega
  have hbytes : b'.storage.1 = b.storage.1 ++ src := by
    rw [hstorage, ← hlength, List.drop_length, List.append_nil, padded, hend, List.take_left]
  refine ⟨b', happend, ?_, hbytes⟩
  rw [hbytes, List.length_append, hwpos, hend]

theorem writes_ok : Writes .ok [] := by
  intro b hend _
  exact ⟨b, rfl, hend, (List.append_nil _).symm⟩

theorem Writes.bind (hf : Writes f bytes) (hg : Writes g rest) :
    Writes (fun b => f b >>= g) (bytes ++ rest) := by
  intro b hend hfit
  rw [List.length_append] at hfit
  obtain ⟨b', hb', hend', hbytes'⟩ := hf b hend (by omega)
  have hlength := congrArg List.length hbytes'
  rw [List.length_append] at hlength
  obtain ⟨b'', hb'', hend'', hbytes''⟩ := hg b' hend' (by omega)
  refine ⟨b'', ?_, hend'', ?_⟩
  · show f b >>= g = _
    rw [hb', ok_bind, hb'']
  · rw [hbytes'', hbytes', List.append_assoc]

theorem Writes.ite {c : Prop} [Decidable c] (hf : c → Writes f bytes) (hg : ¬ c → Writes g bytes) :
    Writes (fun b => if c then f b else g b) bytes := by
  intro b hend hfit
  dsimp only
  split
  · rename_i h
    exact hf h b hend hfit
  · rename_i h
    exact hg h b hend hfit

theorem Writes.foldlM {α : Type} {step : ByteBuffer → α → Except Stop ByteBuffer}
    {encode : α → List UInt8} (h : ∀ a, Writes (fun b => step b a) (encode a)) (l : List α) :
    Writes (fun b => l.foldlM step b) (l.flatMap encode) := by
  induction l with
  | nil => exact writes_ok
  | cons a l ih => exact (h a).bind ih

theorem writes_writeUInt8 (v : UInt8) : Writes (fun b => b.writeUInt8 v) (littleEndian 1 v.toNat) :=
  writes_append (List.cons_ne_nil _ _)

theorem writes_writeUInt16 (v : UInt16) :
    Writes (fun b => b.writeUInt16 v) (littleEndian 2 v.toNat) :=
  writes_append (List.cons_ne_nil _ _)

theorem writes_writeUInt32 (v : UInt32) :
    Writes (fun b => b.writeUInt32 v) (littleEndian 4 v.toNat) :=
  writes_append (List.cons_ne_nil _ _)

/-! ## Reading -/

def advance (b : ByteBuffer) (bytes : Nat) : ByteBuffer :=
  { b with rpos := b.rpos + .ofNat bytes }

theorem advance_advance {m n : Nat} : (b.advance m).advance n = b.advance (m + n) := by
  rw [advance, advance, advance, UInt64.ofNat_add, UInt64.add_assoc]

theorem advance_zero : b.advance 0 = b := by
  rw [advance]
  exact congrArg (fun r => { b with rpos := r }) (UInt64.add_zero b.rpos)

/-- The bytes from the read position on. -/
def Upcoming (b : ByteBuffer) (bytes : List UInt8) : Prop :=
  bytes <+: b.storage.1.drop b.rpos.toNat

theorem Upcoming.rpos_add_le (h : b.Upcoming bytes) (hbytes : bytes ≠ []) :
    b.rpos.toNat + bytes.length ≤ b.storage.1.length := by
  have hle := h.length_le
  have hpos := List.length_pos_iff.2 hbytes
  rw [List.length_drop] at hle
  omega

theorem Upcoming.toNat_rpos_add (h : b.Upcoming (bytes ++ rest)) (hbytes : bytes ≠ []) :
    (b.rpos + .ofNat bytes.length).toNat = b.rpos.toNat + bytes.length := by
  have hle := h.rpos_add_le (List.append_ne_nil_of_left_ne_nil hbytes _)
  have hmax := b.storage.2
  unfold maxSize at hmax
  rw [List.length_append] at hle
  have hcount : (UInt64.ofNat bytes.length).toNat = bytes.length :=
    UInt64.toNat_ofNat_of_lt' (Nat.lt_of_le_of_lt (m := 2 ^ 63) (by omega) (by decide))
  rw [UInt64.toNat_add, hcount, Nat.mod_eq_of_lt (by omega)]

theorem Upcoming.toNat_rpos_end (h : b.Upcoming bytes) (hbytes : bytes ≠ []) :
    (b.rpos + .ofNat bytes.length).toNat = b.rpos.toNat + bytes.length := by
  rw [← List.append_nil bytes] at h
  exact h.toNat_rpos_add hbytes

theorem Upcoming.advance (h : b.Upcoming (bytes ++ rest)) :
    (b.advance bytes.length).Upcoming rest := by
  by_cases hbytes : bytes = []
  · subst hbytes
    rw [List.length_nil, advance_zero]
    exact h
  · obtain ⟨behind, hbehind⟩ := h
    refine ⟨behind, ?_⟩
    have hrpos : (b.advance bytes.length).rpos.toNat = b.rpos.toNat + bytes.length :=
      Upcoming.toNat_rpos_add ⟨behind, hbehind⟩ hbytes
    rw [hrpos, ← List.drop_drop]
    show _ = (b.storage.1.drop b.rpos.toNat).drop bytes.length
    rw [← hbehind, List.append_assoc, List.drop_left]

theorem read_of_upcoming (h : b.Upcoming (bytes ++ rest)) (hbytes : bytes ≠ []) :
    b.read bytes.length = .ok (value bytes, b.advance bytes.length) := by
  have hrpos := h.toNat_rpos_add hbytes
  have hle := h.rpos_add_le (List.append_ne_nil_of_left_ne_nil hbytes _)
  rw [List.length_append] at hle
  have hthrow : ¬ b.size < b.rpos + .ofNat bytes.length := by
    rw [UInt64.lt_iff_toNat_lt, toNat_size, hrpos]
    omega
  obtain ⟨behind, hbehind⟩ := h
  have hvalue : (b.storage.1.drop b.rpos.toNat).take bytes.length = bytes := by
    rw [← hbehind, List.append_assoc, List.take_left]
  rw [read, if_neg hthrow, if_neg (by omega), hvalue]
  rfl

/-- An operation that reads these bytes, and nothing behind them. -/
def Reads {α : Type} (f : ByteBuffer → Except Stop (α × ByteBuffer)) (bytes : List UInt8)
    (a : α) : Prop :=
  ∀ (b : ByteBuffer) (rest : List UInt8), b.Upcoming (bytes ++ rest) →
    f b = .ok (a, b.advance bytes.length)

theorem reads_readUInt8 (v : UInt8) : Reads readUInt8 (littleEndian 1 v.toNat) v := by
  intro b rest h
  have hread : b.read 1 = _ := read_of_upcoming h (List.cons_ne_nil _ _)
  rw [readUInt8, hread, ok_bind, value_littleEndian_of_lt v.toNat_lt]
  dsimp only
  rw [UInt8.ofNat_toNat]

theorem reads_readUInt16 (v : UInt16) : Reads readUInt16 (littleEndian 2 v.toNat) v := by
  intro b rest h
  have hread : b.read 2 = _ := read_of_upcoming h (List.cons_ne_nil _ _)
  rw [readUInt16, hread, ok_bind, value_littleEndian_of_lt v.toNat_lt]
  dsimp only
  rw [UInt16.ofNat_toNat]

theorem reads_readUInt32 (v : UInt32) : Reads readUInt32 (littleEndian 4 v.toNat) v := by
  intro b rest h
  have hread : b.read 4 = _ := read_of_upcoming h (List.cons_ne_nil _ _)
  rw [readUInt32, hread, ok_bind, value_littleEndian_of_lt v.toNat_lt]
  dsimp only
  rw [UInt32.ofNat_toNat]

/-- An operation that never reads another number of bytes. -/
def Consumes {α : Type} (f : ByteBuffer → Except Stop (α × ByteBuffer)) (n : Nat) : Prop :=
  ∀ b a b', f b = .ok (a, b') → b'.storage = b.storage ∧ b'.rpos.toNat = b.rpos.toNat + n

theorem bind_eq_ok {α β : Type} {e : Except Stop α} {k : α → Except Stop β} {r : β}
    (h : e >>= k = .ok r) : ∃ a, e = .ok a ∧ k a = .ok r := by
  cases e with
  | error _ => cases h
  | ok a => exact ⟨a, rfl, h⟩

theorem consumes_read {n : Nat} (hn : n ≤ 4) : Consumes (fun b => b.read n) n := by
  intro b v b' h
  dsimp only at h
  unfold read at h
  split at h
  · cases h
  split at h
  · cases h
  rename_i hinside
  cases h
  refine ⟨rfl, ?_⟩
  have hmax := b.storage.2
  unfold maxSize at hmax
  show (b.rpos + .ofNat n).toNat = _
  rw [UInt64.toNat_add, UInt64.toNat_ofNat_of_lt' (Nat.lt_of_le_of_lt hn (by decide)),
    Nat.mod_eq_of_lt (by omega)]

theorem consumes_readUInt16 : Consumes readUInt16 2 := by
  intro b a b' h
  obtain ⟨r, hr, hok⟩ := bind_eq_ok h
  cases hok
  exact consumes_read (by decide) b _ _ hr

theorem consumes_readUInt32 : Consumes readUInt32 4 := by
  intro b a b' h
  obtain ⟨r, hr, hok⟩ := bind_eq_ok h
  cases hok
  exact consumes_read (by decide) b _ _ hr

theorem readUInt8_of_upcoming (h : b.Upcoming (x :: rest)) :
    b.readUInt8 = .ok (x, b.advance 1) := by
  have hbyte : littleEndian 1 x.toNat = [x] := by
    rw [littleEndian, littleEndian, UInt8.ofNat_toNat]
  exact reads_readUInt8 x b rest (by rw [hbyte]; exact h)

theorem not_size_lt_of_upcoming (h : b.Upcoming (x :: rest)) : ¬ b.size < b.rpos + 1 := by
  have hup : b.Upcoming ([x] ++ rest) := h
  have hrpos : (b.rpos + 1).toNat = b.rpos.toNat + 1 := hup.toNat_rpos_add (List.cons_ne_nil _ _)
  have hle := h.rpos_add_le (by simp)
  rw [List.length_cons] at hle
  rw [UInt64.lt_iff_toNat_lt, toNat_size, hrpos]
  omega

end Sunstrider.Packets.ByteBuffer
