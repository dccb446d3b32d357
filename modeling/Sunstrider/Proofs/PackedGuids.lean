import Sunstrider.Proofs.ByteBuffer

/-!
# Packed guids

A guid as its eight bytes is mostly zeros. Packed, it is a mark that says which bytes are
there, and those: the `marks` of the eight bytes and what is `stored` of them, with the
marks as the bits of one byte. The encoder stops at the last byte that is not zero, so its
loop has seen the beginning of the eight only; the rest add no mark.

The decoder goes over the eight bits. Before a round the guid is below the place that is
next, so the or is a sum, and the loop fills in one byte after the other. It takes bytes
that are zero as well. No guid is packed to those, and packing what was read leaves them
out.
-/

namespace Sunstrider.Packets.ByteBuffer

open Lib.Digits

/-! ## The mark -/

/-- The bits of a byte, from one on. -/
def bitsFrom (mark : UInt8) (i n : Nat) : List Bool :=
  (List.range' i n).map fun i => mark.toNat.testBit i

def bits (mark : UInt8) : List Bool := bitsFrom mark 0 8

def popcount (mark : UInt8) : Nat := (bits mark).count true

/-- The byte that has these for its bits, from one on. -/
def markFrom : Nat → List Bool → UInt8
  | _, [] => 0
  | i, m :: ms => (if m then .ofNat (1 <<< i) else 0) ||| markFrom (i + 1) ms

variable {mark : UInt8} {ms : List Bool} {bytes ds : List UInt8} {guid : UInt64} {i n : Nat}

theorem bitsFrom_succ :
    bitsFrom mark i (n + 1) = mark.toNat.testBit i :: bitsFrom mark (i + 1) n := rfl

theorem length_bits : (bits mark).length = 8 := rfl

theorem bits_markFrom (h : ms.length = 8) : bits (markFrom 0 ms) = ms := by
  match ms, h with
  | [a, b, c, d, e, f, g, h], _ =>
    revert a b c d e f g h
    decide

theorem bits_injective {mark' : UInt8} (h : bits mark = bits mark') : mark = mark' := by
  have hbit : ∀ i < 8, mark.toNat.testBit i = mark'.toNat.testBit i := fun i hi =>
    List.map_inj_left.1 h i (List.mem_range'_1.2 ⟨Nat.zero_le i, by omega⟩)
  refine UInt8.toNat_inj.1 (Nat.eq_of_testBit_eq fun i => ?_)
  by_cases hi : i < 8
  · exact hbit i hi
  · have hpow : 2 ^ 8 ≤ 2 ^ i := Nat.pow_le_pow_right (by decide) (by omega)
    rw [Nat.testBit_lt_two_pow (Nat.lt_of_lt_of_le mark.toNat_lt hpow),
      Nat.testBit_lt_two_pow (Nat.lt_of_lt_of_le mark'.toNat_lt hpow)]

theorem markFrom_bits : markFrom 0 (bits mark) = mark :=
  bits_injective (bits_markFrom length_bits)

theorem markFrom_zeros (h : ∀ d ∈ ds, d = 0) : markFrom i (marks ds) = 0 := by
  induction ds generalizing i with
  | nil => rfl
  | cons d ds ih =>
      obtain ⟨rfl, hds⟩ := List.forall_mem_cons.1 h
      rw [marks_cons, markFrom, ih hds, decide_eq_false fun h => h rfl,
        if_neg Bool.false_ne_true, UInt8.zero_or]

/-! ## The encoder -/

theorem eq_zero_of_value_eq_zero (h : value ds = 0) : ∀ d ∈ ds, d = 0 := by
  induction ds with
  | nil => exact fun d hd => absurd hd List.not_mem_nil
  | cons d ds ih =>
      rw [value_cons] at h
      refine List.forall_mem_cons.2 ⟨UInt8.toNat_inj.1 ?_, ih (by omega)⟩
      rw [UInt8.toNat_zero]
      omega

theorem toNat_and_ff : (guid &&& 0xFF).toNat = guid.toNat % 256 := by
  rw [UInt64.toNat_and]
  exact Nat.and_two_pow_sub_one_eq_mod guid.toNat 8

theorem toNat_shiftRight_eight : (guid >>> 8).toNat = guid.toNat / 256 := by
  rw [UInt64.toNat_shiftRight]
  exact Nat.shiftRight_eq_div_pow _ _

/-- The loop, for any bytes that the guid has for its digits. -/
theorem packGUIDFrom_eq {packed : List UInt8} (h : guid.toNat = value ds) :
    packGUIDFrom guid i mark packed =
      (mark ||| markFrom i (marks ds), packed ++ stored ds) := by
  induction ds generalizing guid i mark packed with
  | nil =>
      have hguid : guid = 0 := UInt64.toNat_inj.1 h
      rw [packGUIDFrom, if_pos hguid, stored, List.filter_nil, List.append_nil]
      show (mark, packed) = (mark ||| 0, packed)
      rw [UInt8.or_zero]
  | cons d ds ih =>
      rw [value_cons] at h
      have hd := d.toNat_lt
      have hlow : (guid &&& 0xFF).toNat = d.toNat := by
        rw [toNat_and_ff]
        omega
      have hhigh : (guid >>> 8).toNat = value ds := by
        rw [toNat_shiftRight_eight]
        omega
      rw [packGUIDFrom, marks_cons]
      split
      · -- nothing is left of the guid, so there is nothing in the digits either
        rename_i hguid
        have hzeros : ∀ d' ∈ d :: ds, d' = 0 := by
          refine eq_zero_of_value_eq_zero ?_
          rw [value_cons, ← h, hguid]
          rfl
        have hstored : stored (d :: ds) = [] :=
          List.filter_eq_nil_iff.2 fun d' hd' => by simp [hzeros d' hd']
        rw [hstored, List.append_nil, ← marks_cons, markFrom_zeros hzeros, UInt8.or_zero]
      split
      · rename_i hbyte
        have hne : d ≠ 0 := by
          intro hzero
          rw [hzero] at hlow
          exact hbyte (UInt64.toNat_inj.1 hlow)
        have hsame : (guid &&& 0xFF).toUInt8 = d := by
          rw [← UInt8.toNat_inj, UInt64.toNat_toUInt8, hlow]
          omega
        rw [ih hhigh, hsame, stored_cons_of_ne hne, decide_eq_true hne, markFrom, if_pos rfl,
          UInt8.or_assoc, List.append_assoc, List.singleton_append]
      · rename_i hbyte
        have hzero : d = 0 := by
          rw [← UInt8.toNat_inj, ← hlow, not_not.1 hbyte]
          rfl
        rw [ih hhigh, hzero, stored_cons_zero, decide_eq_false fun h => h rfl, markFrom,
          if_neg Bool.false_ne_true, UInt8.zero_or]

theorem packGUID_eq (h : guid.toNat = value ds) :
    packGUID guid = markFrom 0 (marks ds) :: stored ds := by
  rw [packGUID, packGUIDFrom_eq h]
  dsimp only
  rw [UInt8.zero_or, List.nil_append]

/-- The eight bytes of a guid. -/
theorem value_bytes : value (littleEndian 8 guid.toNat) = guid.toNat :=
  value_littleEndian_of_lt guid.toNat_lt

/-! ## The decoder -/

theorem and_shiftLeft_ne_zero : mark.toNat &&& (1 <<< i) ≠ 0 ↔ mark.toNat.testBit i = true := by
  rw [Nat.one_shiftLeft, Nat.and_comm, Nat.two_pow_and]
  cases mark.toNat.testBit i with
  | false => simp
  | true => simp

theorem toNat_or_shiftLeft (bit : UInt8) (hguid : guid.toNat < 256 ^ i) (hi : i < 8) :
    (guid ||| (bit.toUInt64 <<< .ofNat (i * 8))).toNat =
      guid.toNat + 256 ^ i * bit.toNat := by
  have hpow : (256 : Nat) ^ i = 2 ^ (i * 8) := by
    rw [Nat.mul_comm, Nat.pow_mul]
  have hplace : 2 ^ (i * 8) * 256 ≤ 2 ^ 64 := by
    have h := Nat.pow_le_pow_right (n := 2) (by decide) (show i * 8 + 8 ≤ 64 by omega)
    rwa [Nat.pow_add] at h
  have hcount : (UInt64.ofNat (i * 8)).toNat % 64 = i * 8 := by
    rw [UInt64.toNat_ofNat_of_lt' (Nat.lt_of_lt_of_le (by omega : i * 8 < 64) (by decide))]
    omega
  have hbit : bit.toNat * 2 ^ (i * 8) < 2 ^ 64 := by
    have h := Nat.mul_lt_mul_of_pos_right bit.toNat_lt (Nat.two_pow_pos (i * 8))
    rw [Nat.mul_comm] at hplace
    exact Nat.lt_of_lt_of_le h hplace
  rw [UInt64.toNat_or, UInt64.toNat_shiftLeft, hcount, UInt8.toNat_toUInt64,
    Nat.shiftLeft_eq, Nat.mod_eq_of_lt hbit, hpow, Nat.or_comm, ← Nat.shiftLeft_eq,
    ← Nat.shiftLeft_add_eq_or_of_lt (hpow ▸ hguid), Nat.shiftLeft_eq]
  ring

/-- The rounds from one on, with the bytes for their bits next in the buffer. -/
theorem foldlM_readPackGUIDStep {b : ByteBuffer} (hguid : guid.toNat < 256 ^ i) (hi : i + n ≤ 8)
    (hcount : bytes.length = (bitsFrom mark i n).count true) (hup : b.Upcoming bytes) :
    ∃ read : UInt64,
      (List.range' i n).foldlM (readPackGUIDStep mark) (guid, b) =
        .ok (read, b.advance bytes.length) ∧
      read.toNat = guid.toNat + 256 ^ i * value (fill (bitsFrom mark i n) bytes) := by
  induction n generalizing i guid b bytes with
  | zero =>
      have hnone : bytes = [] := List.length_eq_zero_iff.1 hcount
      subst hnone
      refine ⟨guid, ?_, rfl⟩
      rw [List.length_nil, advance_zero]
      rfl
  | succ n ih =>
      rw [bitsFrom_succ] at hcount ⊢
      rw [List.range'_succ, List.foldlM_cons, readPackGUIDStep]
      have hnext : 256 ^ i ≤ 256 ^ (i + 1) := Nat.pow_le_pow_right (by decide) (Nat.le_succ i)
      cases hbit : mark.toNat.testBit i with
      | false =>
          rw [hbit, List.count_cons_of_ne (by decide)] at hcount
          rw [if_neg fun h => by
            rw [and_shiftLeft_ne_zero, hbit] at h
            cases h]
          obtain ⟨read, hread, hvalue⟩ :=
            ih (Nat.lt_of_lt_of_le hguid hnext) (by omega) hcount hup
          refine ⟨read, by rw [ok_bind, hread], ?_⟩
          rw [hvalue, fill, value_cons, UInt8.toNat_zero]
          ring
      | true =>
          rw [hbit, List.count_cons_self] at hcount
          cases bytes with
          | nil => rw [List.length_nil] at hcount; omega
          | cons x bytes =>
              rw [List.length_cons] at hcount
              have hrest : b.Upcoming ([x] ++ bytes) := hup
              have hsum := toNat_or_shiftLeft x hguid (by omega : i < 8)
              have hbelow : (guid ||| (x.toUInt64 <<< .ofNat (i * 8))).toNat < 256 ^ (i + 1) := by
                have hx : 256 ^ i * (x.toNat + 1) ≤ 256 ^ i * 256 :=
                  Nat.mul_le_mul_left _ x.toNat_lt
                rw [hsum, Nat.pow_succ]
                rw [Nat.mul_succ] at hx
                omega
              rw [if_pos (and_shiftLeft_ne_zero.2 hbit)]
              dsimp only
              rw [if_neg (not_size_lt_of_upcoming hup), readUInt8_of_upcoming hup]
              obtain ⟨read, hread, hvalue⟩ :=
                ih hbelow (by omega) (Nat.succ.inj hcount) hrest.advance
              refine ⟨read, ?_, ?_⟩
              · rw [ok_bind, ok_bind, List.length_cons, Nat.add_comm bytes.length,
                  ← advance_advance]
                exact hread
              · rw [hvalue, hsum, fill, value_cons]
                ring

/-- The decoder, for a mark with a byte behind it for each of its bits. -/
theorem readPackGUID_of_upcoming {b : ByteBuffer} (hcount : bytes.length = popcount mark)
    (hup : b.Upcoming (mark :: bytes)) :
    ∃ guid : UInt64, b.readPackGUID = .ok (guid, b.advance (1 + bytes.length)) ∧
      guid.toNat = value (fill (bits mark) bytes) := by
  have hrest : b.Upcoming ([mark] ++ bytes) := hup
  have hzero : (0 : UInt64).toNat < 256 ^ 0 := by decide
  obtain ⟨guid, hread, hvalue⟩ :=
    foldlM_readPackGUIDStep (n := 8) hzero (by decide) hcount hrest.advance
  refine ⟨guid, ?_, ?_⟩
  · rw [readPackGUID, if_neg (not_size_lt_of_upcoming hup), readUInt8_of_upcoming hup, ok_bind,
      ← advance_advance, List.range_eq_range']
    exact hread
  · rw [hvalue, Nat.pow_zero, Nat.one_mul]
    exact Nat.zero_add _

/-- A guid that was packed is read again, and read to the end of what was packed. -/
theorem readPackGUID_packGUID {b : ByteBuffer} (hup : b.Upcoming (packGUID guid)) :
    b.readPackGUID = .ok (guid, b.advance (packGUID guid).length) := by
  have hlength : (marks (littleEndian 8 guid.toNat)).length = 8 := by
    rw [length_marks, length_littleEndian]
  have hbits := bits_markFrom hlength
  rw [packGUID_eq value_bytes.symm] at hup ⊢
  obtain ⟨read, hread, hvalue⟩ :=
    readPackGUID_of_upcoming (by rw [popcount, hbits, length_stored]) hup
  have hsame : read = guid := by
    rw [hbits, fill_marks, value_bytes] at hvalue
    exact UInt64.toNat_inj.1 hvalue
  rw [hread, hsame, List.length_cons, Nat.add_comm]

/-- What was read is packed to no more bytes, and to the same if none of them is zero. -/
theorem packGUID_of_read (hcount : bytes.length = popcount mark)
    (hguid : guid.toNat = value (fill (bits mark) bytes)) :
    (packGUID guid).length ≤ 1 + bytes.length ∧
      (packGUID guid = mark :: bytes ↔ (0 : UInt8) ∉ bytes) := by
  rw [packGUID_eq hguid]
  constructor
  · have := length_stored_fill_le hcount
    rw [List.length_cons]
    omega
  · constructor
    · intro h hzero
      rw [← (List.cons.inj h).2] at hzero
      exact zero_notMem_stored hzero
    · intro hzero
      obtain ⟨hmarks, hstored⟩ := marks_stored_fill hcount hzero
      rw [hmarks, hstored, markFrom_bits]

/-! ## There and back -/

theorem packGUID_ne_nil : packGUID guid ≠ [] := List.cons_ne_nil _ _

/-- Bytes that were written are what is read at the position they were written at. -/
theorem upcoming_of_append {b b' : ByteBuffer} {src : List UInt8} (hroom : b.Room src)
    (hsrc : src ≠ []) (h : b.append src = .ok b') :
    b'.wpos.toNat = b.wpos.toNat + src.length ∧
      ({ b' with rpos := b.wpos } : ByteBuffer).Upcoming src := by
  obtain ⟨written, happend, -, hwpos, hstorage⟩ := append_of_room hroom hsrc
  obtain rfl : written = b' := Except.ok.inj (happend.symm.trans h)
  refine ⟨hwpos, (b.padded src).drop (b.wpos.toNat + src.length), ?_⟩
  have htake : ((b.padded src).take b.wpos.toNat).length = b.wpos.toNat := by
    rw [List.length_take, padded, List.length_append, List.length_replicate]
    omega
  show _ = written.storage.1.drop b.wpos.toNat
  rw [hstorage, List.append_assoc, List.drop_append_of_le_length htake.ge,
    List.drop_of_length_le htake.le, List.nil_append]

/-- A guid is appended if and only if the buffer is below the size that is asserted and the
packed guid ends within what a vector can hold. It is then read again where it was written,
up to the position behind it. A mark with a byte behind it for each of its bits is read
within the buffer, and what it stands for is packed to no more bytes, to the same ones if
and only if none of the bytes is zero. -/
theorem packed_guids :
    (∀ (b : ByteBuffer) (guid : UInt64),
      ((∃ b', b.appendPackGUID guid = .ok b') ↔
        b.storage.1.length < 10000000 ∧ b.wpos.toNat + (packGUID guid).length ≤ maxSize) ∧
      ∀ b', b.appendPackGUID guid = .ok b' →
        b'.wpos.toNat = b.wpos.toNat + (packGUID guid).length ∧
        ({ b' with rpos := b.wpos } : ByteBuffer).readPackGUID =
          .ok (guid, { b' with rpos := b'.wpos })) ∧
    (∀ (b : ByteBuffer) (mark : UInt8) (bytes : List UInt8), b.Upcoming (mark :: bytes) →
      bytes.length = popcount mark →
      ∃ guid : UInt64, b.readPackGUID = .ok (guid, b.advance (1 + popcount mark)) ∧
        b.rpos.toNat + (1 + popcount mark) ≤ b.storage.1.length ∧
        (packGUID guid).length ≤ 1 + popcount mark ∧
        (packGUID guid = mark :: bytes ↔ (0 : UInt8) ∉ bytes)) := by
  constructor
  · intro b guid
    have hiff : (∃ b', b.appendPackGUID guid = .ok b') ↔ b.Room (packGUID guid) := by
      constructor
      · rintro ⟨b', hb'⟩
        by_contra hroom
        obtain ⟨e, he⟩ := append_of_not_room hroom
        cases he.symm.trans hb'
      · intro hroom
        obtain ⟨b', hb', -⟩ := append_of_room hroom packGUID_ne_nil
        exact ⟨b', hb'⟩
    refine ⟨hiff.trans ⟨fun h => ⟨h.below, h.ends⟩, fun h => ⟨h.1, h.2⟩⟩, fun b' hb' => ?_⟩
    obtain ⟨hwpos, hup⟩ := upcoming_of_append (hiff.1 ⟨b', hb'⟩) packGUID_ne_nil hb'
    refine ⟨hwpos, ?_⟩
    rw [readPackGUID_packGUID hup, advance]
    have hend : b.wpos + .ofNat (packGUID guid).length = b'.wpos :=
      UInt64.toNat_inj.1 ((hup.toNat_rpos_end packGUID_ne_nil).trans hwpos.symm)
    rw [← hend]
  · intro b mark bytes hup hcount
    obtain ⟨guid, hread, hguid⟩ := readPackGUID_of_upcoming hcount hup
    have hends := hup.rpos_add_le (List.cons_ne_nil _ _)
    rw [List.length_cons, Nat.add_comm bytes.length] at hends
    rw [← hcount]
    exact ⟨guid, hread, hends, packGUID_of_read hcount hguid⟩

/-- A buffer that has reached the size it asserts not to have. -/
def full : ByteBuffer := ⟨0, 0, ⟨List.replicate 10000000 0, by rw [List.length_replicate]; decide⟩⟩

theorem full_takes_no_guid : full.appendPackGUID 1 = .error .assertion := by
  have hlength : full.storage.1.length = 10000000 := List.length_replicate
  have hvalue : (1 : UInt64).toNat = value [1] := rfl
  have hpacked : packGUID 1 = [1, 1] := packGUID_eq hvalue
  rw [appendPackGUID, hpacked, append, if_neg (by decide), if_pos]
  rw [UInt64.lt_iff_toNat_lt, toNat_size, hlength]
  decide

theorem hole_is_packed :
    new.appendPackGUID 0x0100000000000042 = .ok ⟨0, 3, ⟨[0x81, 0x42, 0x01], by decide⟩⟩ ∧
      (⟨0, 3, ⟨[0x81, 0x42, 0x01], by decide⟩⟩ : ByteBuffer).readPackGUID =
        .ok (0x0100000000000042, ⟨3, 3, ⟨[0x81, 0x42, 0x01], by decide⟩⟩) := by
  have hvalue : (0x0100000000000042 : UInt64).toNat = value [0x42, 0, 0, 0, 0, 0, 0, 0x01] := rfl
  have hpacked : packGUID 0x0100000000000042 = [0x81, 0x42, 0x01] := packGUID_eq hvalue
  have happend : new.appendPackGUID 0x0100000000000042 =
      .ok ⟨0, 3, ⟨[0x81, 0x42, 0x01], by decide⟩⟩ := by
    rw [appendPackGUID, hpacked]
    rfl
  exact ⟨happend, ((packed_guids.1 new _).2 _ happend).2⟩

end Sunstrider.Packets.ByteBuffer
