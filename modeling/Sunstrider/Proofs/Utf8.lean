import Sunstrider.Utilities.Utf8

/-!
# Bytes, code points and units

Every valid code point is read back from the bytes that `append` makes of it, and from
its units. So a string that is made of valid code points has just these, and what is
one of its beginnings is made of the first of them.

`utf8truncate` keeps the first `len` code points as long as none of these needs two
units. If one does, the cut comes too early, and between two surrogates it empties the
string.
-/

namespace Sunstrider.Utilities

variable {cps : List Nat}

namespace Utf8

variable {n cp : Nat} {cps : List Nat}

/-! ## Bytes as numbers -/

theorem sequenceLength_eq (b : UInt8) :
    sequenceLength b =
      if b.toNat < 128 then 1
      else if b.toNat / 32 = 6 then 2
      else if b.toNat / 16 = 14 then 3
      else if b.toNat / 8 = 30 then 4
      else 0 := by
  unfold sequenceLength
  simp only [UInt8.lt_iff_toNat_lt, beq_iff_eq, ← UInt8.toNat_inj, UInt8.toNat_shiftRight,
    Nat.shiftRight_eq_div_pow, UInt8.reduceToNat]

theorem isTrail_eq (b : UInt8) : isTrail b = decide (b.toNat / 64 = 2) := by
  unfold isTrail
  rw [Bool.eq_iff_iff]
  simp only [beq_iff_eq, ← UInt8.toNat_inj, UInt8.toNat_shiftRight, Nat.shiftRight_eq_div_pow,
    UInt8.reduceToNat, decide_eq_true_eq]

theorem toNat_ofNat (h : n < 256) : (UInt8.ofNat n).toNat = n := by
  rw [UInt8.toNat_ofNat']
  exact Nat.mod_eq_of_lt h

/-- The bits of a lead or a trail byte do not meet those of the code point. -/
theorem or_eq_add {i : Nat} (b : Nat) (h : n < 2 ^ i) : n ||| 2 ^ i * b = n + 2 ^ i * b := by
  rw [Nat.or_comm, ← Nat.two_pow_add_eq_or_of_lt h, Nat.add_comm]

/-- The bytes of a code point. -/
theorem append_eq (h : cp < 0x200000) :
    append cp =
      if cp < 0x80 then [.ofNat cp]
      else if cp < 0x800 then [.ofNat (cp / 64 + 192), .ofNat (cp % 64 + 128)]
      else if cp < 0x10000 then
        [.ofNat (cp / 4096 + 224), .ofNat (cp / 64 % 64 + 128), .ofNat (cp % 64 + 128)]
      else
        [.ofNat (cp / 262144 + 240), .ofNat (cp / 4096 % 64 + 128), .ofNat (cp / 64 % 64 + 128),
          .ofNat (cp % 64 + 128)] := by
  have hmask : ∀ n : Nat, n &&& 0x3f = n % 64 := fun n => Nat.and_two_pow_sub_one_eq_mod n 6
  have htrail : ∀ n : Nat, n % 64 ||| 0x80 = n % 64 + 128 :=
    fun n => or_eq_add (i := 6) 2 (Nat.mod_lt _ (by decide))
  unfold append
  simp only [hmask, htrail, Nat.shiftRight_eq_div_pow]
  split
  · rfl
  · split
    · rw [show cp / 2 ^ 6 ||| 0xc0 = cp / 64 + 192 from or_eq_add (i := 5) 6 (by omega)]
    · split
      · rw [show cp / 2 ^ 12 ||| 0xe0 = cp / 4096 + 224 from or_eq_add (i := 4) 14 (by omega)]
      · rw [show cp / 2 ^ 18 ||| 0xf0 = cp / 262144 + 240 from or_eq_add (i := 3) 30 (by omega)]

theorem isCodePointValid_iff :
    isCodePointValid cp = true ↔ cp ≤ 0x10ffff ∧ ¬ (0xd800 ≤ cp ∧ cp ≤ 0xdfff) := by
  simp only [isCodePointValid, isSurrogate, Bool.and_eq_true, Bool.not_eq_true',
    Bool.and_eq_false_iff, decide_eq_true_eq, decide_eq_false_iff_not]
  omega

theorem isTrail_ofNat (n : Nat) : isTrail (.ofNat (n % 64 + 128)) = true := by
  rw [isTrail_eq, toNat_ofNat (by omega)]
  exact decide_eq_true (by omega)

theorem toNat_trail (n : Nat) : (UInt8.ofNat (n % 64 + 128)).toNat = n % 64 + 128 :=
  toNat_ofNat (by omega)

/-- A code point is read back from its bytes. -/
theorem next_append (hvalid : isCodePointValid cp = true) (rest : List UInt8) :
    next (append cp ++ rest) = some (cp, rest) := by
  have hle := (isCodePointValid_iff.1 hvalid).1
  have hmask : ∀ n : Nat, n &&& 0x3f = n % 64 := fun n => Nat.and_two_pow_sub_one_eq_mod n 6
  have hmask₂ : ∀ n : Nat, n &&& 0x7ff = n % 2048 := fun n => Nat.and_two_pow_sub_one_eq_mod n 11
  have hmask₃ : ∀ n : Nat, n &&& 0xfff = n % 4096 := fun n => Nat.and_two_pow_sub_one_eq_mod n 12
  have hmask₄ : ∀ n : Nat, n &&& 0xffff = n % 65536 :=
    fun n => Nat.and_two_pow_sub_one_eq_mod n 16
  have hmask₅ : ∀ n : Nat, n &&& 0x3ffff = n % 262144 :=
    fun n => Nat.and_two_pow_sub_one_eq_mod n 18
  have hmask₆ : ∀ n : Nat, n &&& 0x1fffff = n % 2097152 :=
    fun n => Nat.and_two_pow_sub_one_eq_mod n 21
  rw [append_eq (by omega)]
  split
  · rename_i hone
    have hlen : sequenceLength (.ofNat cp) = 1 := by
      rw [sequenceLength_eq, toNat_ofNat (by omega), if_pos hone]
    simp only [List.cons_append, List.nil_append, next, getSequence, hlen,
      toNat_ofNat (show cp < 256 by omega), hvalid, isOverlongSequence, if_pos hone]
    rfl
  rename_i hone
  split
  · rename_i htwo
    have hlen : sequenceLength (.ofNat (cp / 64 + 192)) = 2 := by
      rw [sequenceLength_eq, toNat_ofNat (by omega)]
      split_ifs <;> omega
    have hcp : (cp / 64 + 192) * 2 ^ 6 % 2048 + (cp % 64 + 128) % 64 = cp := by omega
    simp only [List.cons_append, List.nil_append, next, getSequence, hlen, isTrail_ofNat, if_true,
      toNat_trail, toNat_ofNat (show cp / 64 + 192 < 256 by omega), hmask, hmask₂,
      Nat.shiftLeft_eq, hcp, hvalid, isOverlongSequence, if_neg hone, if_pos htwo]
    rfl
  rename_i htwo
  split
  · rename_i hthree
    have hlen : sequenceLength (.ofNat (cp / 4096 + 224)) = 3 := by
      rw [sequenceLength_eq, toNat_ofNat (by omega)]
      split_ifs <;> omega
    have hcp : (cp / 4096 + 224) * 2 ^ 12 % 65536 + (cp / 64 % 64 + 128) * 2 ^ 6 % 4096 +
        (cp % 64 + 128) % 64 = cp := by omega
    simp only [List.cons_append, List.nil_append, next, getSequence, hlen, isTrail_ofNat,
      Bool.and_self, if_true, toNat_trail, toNat_ofNat (show cp / 4096 + 224 < 256 by omega),
      hmask, hmask₃, hmask₄, Nat.shiftLeft_eq, hcp, hvalid, isOverlongSequence, if_neg hone,
      if_neg htwo, if_pos hthree]
    rfl
  · rename_i hthree
    have hlen : sequenceLength (.ofNat (cp / 262144 + 240)) = 4 := by
      rw [sequenceLength_eq, toNat_ofNat (by omega)]
      split_ifs <;> omega
    have hcp : (cp / 262144 + 240) * 2 ^ 18 % 2097152 + (cp / 4096 % 64 + 128) * 2 ^ 12 % 262144 +
        (cp / 64 % 64 + 128) * 2 ^ 6 % 4096 + (cp % 64 + 128) % 64 = cp := by omega
    simp only [List.cons_append, List.nil_append, next, getSequence, hlen, isTrail_ofNat,
      Bool.and_self, if_true, toNat_trail, toNat_ofNat (show cp / 262144 + 240 < 256 by omega),
      hmask, hmask₃, hmask₅, hmask₆, Nat.shiftLeft_eq, hcp, hvalid, isOverlongSequence, if_neg hone,
      if_neg htwo, if_neg hthree]
    rfl

/-! ## Strings of code points -/

def encode (cps : List Nat) : List UInt8 := cps.flatMap append

def Valid (cps : List Nat) : Prop := ∀ cp ∈ cps, isCodePointValid cp = true

theorem encode_cons (cp : Nat) (cps : List Nat) : encode (cp :: cps) = append cp ++ encode cps :=
  List.flatMap_cons

theorem append_ne_nil (cp : Nat) : append cp ≠ [] := by
  unfold append
  split_ifs <;> exact List.cons_ne_nil _ _

theorem length_le_encode (cps : List Nat) : cps.length ≤ (encode cps).length := by
  induction cps with
  | nil => exact Nat.le_refl _
  | cons cp cps ih =>
      have hpos := List.length_pos_iff.2 (append_ne_nil cp)
      rw [encode_cons, List.length_append, List.length_cons]
      omega

theorem codePoints_encode (hvalid : Valid cps) {more : Nat} (hmore : cps.length ≤ more) :
    codePoints more (encode cps) = some cps := by
  induction cps generalizing more with
  | nil => cases more <;> rfl
  | cons cp cps ih =>
      obtain ⟨hcp, hcps⟩ := List.forall_mem_cons.1 hvalid
      obtain ⟨more, rfl⟩ : ∃ n, more = n + 1 := ⟨more - 1, by rw [List.length_cons] at hmore; omega⟩
      have hnext := next_append hcp (encode cps)
      rw [encode_cons]
      cases hbytes : append cp ++ encode cps with
      | nil => exact absurd (List.append_eq_nil_iff.1 hbytes).1 (append_ne_nil cp)
      | cons b rest =>
          rw [hbytes] at hnext
          rw [codePoints, hnext]
          show (codePoints more (encode cps) >>= fun cps => some (cp :: cps)) = _
          rw [ih hcps (by rw [List.length_cons] at hmore; omega)]
          rfl

theorem distance_encode (hvalid : Valid cps) : distance (encode cps) = some cps.length := by
  rw [distance, codePoints_encode hvalid (length_le_encode cps)]
  rfl

theorem utf8to16_encode (hvalid : Valid cps) :
    utf8to16 (encode cps) = some (cps.flatMap units) := by
  rw [utf8to16, codePoints_encode hvalid (length_le_encode cps)]
  rfl

/-- A beginning that is made of code points is made of the first ones. -/
theorem prefix_of_encode {cps' : List Nat} (hvalid : Valid cps) (hvalid' : Valid cps')
    (h : encode cps' <+: encode cps) : cps' <+: cps := by
  induction cps' generalizing cps with
  | nil => exact List.nil_prefix
  | cons cp' cps' ih =>
      obtain ⟨hcp', hcps'⟩ := List.forall_mem_cons.1 hvalid'
      obtain ⟨rest, hrest⟩ := h
      rw [encode_cons, List.append_assoc] at hrest
      cases cps with
      | nil =>
          have hnil := (List.append_eq_nil_iff.1 hrest).1
          exact absurd hnil (append_ne_nil cp')
      | cons cp cps =>
          obtain ⟨hcp, hcps⟩ := List.forall_mem_cons.1 hvalid
          have hnext := next_append hcp (encode cps)
          rw [← encode_cons, ← hrest, next_append hcp'] at hnext
          obtain ⟨rfl, hsame⟩ := Prod.mk.inj (Option.some.inj hnext)
          exact List.cons_prefix_cons.2 ⟨rfl, ih hcps hcps' ⟨rest, hsame⟩⟩

theorem encode_prefix {cps' : List Nat} (h : cps' <+: cps) : encode cps' <+: encode cps := by
  obtain ⟨rest, rfl⟩ := h
  exact ⟨encode rest, (List.flatMap_append ..).symm⟩

/-! ## Units -/

/-- The code points whose units the first `n` are, if these do not end between two
surrogates. -/
def cut : List Nat → Nat → Option (List Nat)
  | _, 0 => some []
  | [], _ => some []
  | cp :: cps, n + 1 =>
      if 0xffff < cp then if n = 0 then none else (cut cps (n - 1)).map (cp :: ·)
      else (cut cps n).map (cp :: ·)

theorem utf16to8_unit (hvalid : isCodePointValid cp = true) (hone : cp ≤ 0xffff) (rest : List Nat) :
    utf16to8 (cp :: rest) = (utf16to8 rest).map (append cp ++ ·) := by
  have hnot := (isCodePointValid_iff.1 hvalid).2
  have hlead : isLeadSurrogate cp = false := by
    rw [Bool.eq_false_iff, ne_eq, isLeadSurrogate, Bool.and_eq_true, decide_eq_true_eq,
      decide_eq_true_eq]
    omega
  have htrail : isTrailSurrogate cp = false := by
    rw [Bool.eq_false_iff, ne_eq, isTrailSurrogate, Bool.and_eq_true, decide_eq_true_eq,
      decide_eq_true_eq]
    omega
  cases rest with
  | nil => simp [utf16to8, hlead, htrail, hvalid]
  | cons unit rest =>
      rw [utf16to8, hlead, htrail, hvalid, if_neg Bool.false_ne_true, if_neg Bool.false_ne_true,
        if_pos rfl]
      cases utf16to8 (unit :: rest) <;> rfl

theorem units_pair (hvalid : isCodePointValid cp = true) (htwo : 0xffff < cp) :
    ∃ lead trail, units cp = [lead, trail] ∧ isLeadSurrogate lead = true ∧
      isTrailSurrogate trail = true ∧ fromPair lead trail = cp := by
  have hle := (isCodePointValid_iff.1 hvalid).1
  have hmask : cp &&& 0x3ff = cp % 1024 := Nat.and_two_pow_sub_one_eq_mod cp 10
  refine ⟨_, _, if_pos htwo, ?_, ?_, ?_⟩
  · rw [isLeadSurrogate, Nat.shiftRight_eq_div_pow, Bool.and_eq_true, decide_eq_true_eq,
      decide_eq_true_eq]
    omega
  · rw [isTrailSurrogate, hmask, Bool.and_eq_true, decide_eq_true_eq, decide_eq_true_eq]
    omega
  · rw [fromPair, hmask, Nat.shiftRight_eq_div_pow, Nat.shiftLeft_eq]
    omega

theorem utf16to8_take (hvalid : Valid cps) (n : Nat) :
    utf16to8 ((cps.flatMap units).take n) = (cut cps n).map encode := by
  induction cps generalizing n with
  | nil => cases n <;> rfl
  | cons cp cps ih =>
      obtain ⟨hcp, hcps⟩ := List.forall_mem_cons.1 hvalid
      cases n with
      | zero => rfl
      | succ n =>
          rw [List.flatMap_cons, cut]
          by_cases htwo : 0xffff < cp
          · obtain ⟨lead, trail, hunits, hlead, htrail, hpair⟩ := units_pair hcp htwo
            rw [if_pos htwo, hunits]
            cases n with
            | zero =>
                show utf16to8 [lead] = none
                rw [utf16to8, hlead]
                rfl
            | succ n =>
                show utf16to8 (lead :: trail :: (cps.flatMap units).take n) = _
                rw [utf16to8, hlead, htrail, hpair, hcp, if_pos rfl, if_pos rfl, if_pos rfl,
                  ih hcps,
                  if_neg (Nat.succ_ne_zero n), Nat.add_sub_cancel]
                cases cut cps n with
                | none => rfl
                | some cs => exact congrArg some (encode_cons cp cs).symm
          · have hunits : units cp = [cp] := if_neg htwo
            rw [if_neg htwo, hunits, List.singleton_append, List.take_succ_cons,
              utf16to8_unit hcp (by omega), ih hcps]
            cases cut cps n with
            | none => rfl
            | some cs => exact congrArg some (encode_cons cp cs).symm

theorem cut_begins {cs : List Nat} (h : cut cps n = some cs) : cs <+: cps ∧ cs.length ≤ n := by
  induction cps generalizing n cs with
  | nil =>
      cases n with
      | zero =>
          cases h
          exact ⟨List.prefix_rfl, Nat.le_refl 0⟩
      | succ n =>
          cases h
          exact ⟨List.prefix_rfl, Nat.zero_le _⟩
  | cons cp cps ih =>
      cases n with
      | zero =>
          cases h
          exact ⟨List.nil_prefix, Nat.le_refl 0⟩
      | succ n =>
          have hcons : ∀ {m : Nat}, m ≤ n → (cut cps m).map (cp :: ·) = some cs →
              cs <+: cp :: cps ∧ cs.length ≤ n + 1 := by
            intro m hm hmap
            obtain ⟨cs', hcut, rfl⟩ := Option.map_eq_some_iff.1 hmap
            obtain ⟨hbegins, hlength⟩ := ih hcut
            refine ⟨List.cons_prefix_cons.2 ⟨rfl, hbegins⟩, ?_⟩
            rw [List.length_cons]
            omega
          rw [cut] at h
          split at h
          · split at h
            · cases h
            · exact hcons (by omega) h
          · exact hcons (Nat.le_refl n) h

/-- No code point is lost by the cut if and only if none of them has two units. -/
theorem cut_eq_take_iff (hn : n ≤ cps.length) :
    cut cps n = some (cps.take n) ↔ ∀ cp ∈ cps.take n, cp ≤ 0xffff := by
  induction cps generalizing n with
  | nil =>
      obtain rfl : n = 0 := Nat.le_zero.1 hn
      exact iff_of_true rfl fun cp hcp => absurd hcp List.not_mem_nil
  | cons cp cps ih =>
      cases n with
      | zero => exact iff_of_true rfl fun cp hcp => absurd hcp List.not_mem_nil
      | succ n =>
          have hn : n ≤ cps.length := Nat.le_of_succ_le_succ hn
          rw [cut, List.take_succ_cons, List.forall_mem_cons]
          split
          · rename_i htwo
            refine iff_of_false (fun h => ?_) fun h => absurd h.1 (by omega)
            split at h
            · cases h
            · -- what is left has room for one code point less than it is to have
              obtain ⟨cs, hcut, heq⟩ := Option.map_eq_some_iff.1 h
              have hlength := (cut_begins hcut).2
              rw [(List.cons_eq_cons.1 heq).2, List.length_take] at hlength
              omega
          · rename_i hone
            rw [and_iff_right (by omega), ← ih hn]
            constructor
            · intro h
              obtain ⟨cs, hcut, heq⟩ := Option.map_eq_some_iff.1 h
              rw [hcut, (List.cons_eq_cons.1 heq).2]
            · intro h
              rw [h]
              rfl

end Utf8

open Utf8

/-! ## The longest beginning -/

/-- A string of at most `len` code points, all of them valid. -/
def Fits (len : Nat) (s : List UInt8) : Prop :=
  ∃ cps, Valid cps ∧ cps.length ≤ len ∧ s = encode cps

/-- The longest beginning of `s` that fits. -/
structure Truncated (s : List UInt8) (len : Nat) (r : List UInt8) : Prop where
  isPrefix : r <+: s
  fits : Fits len r
  longest : ∀ p, p <+: s → Fits len p → p.length ≤ r.length

theorem truncated_iff (hvalid : Valid cps) (len : Nat) (r : List UInt8) :
    Truncated (encode cps) len r ↔ r = encode (cps.take len) := by
  have htake : Valid (cps.take len) := fun cp hcp => hvalid cp (List.mem_of_mem_take hcp)
  have hlongest : ∀ p, p <+: encode cps → Fits len p → p <+: encode (cps.take len) := by
    rintro p hp ⟨cps', hvalid', hlength, rfl⟩
    have hbegins := prefix_of_encode hvalid hvalid' hp
    exact encode_prefix (List.prefix_take_iff.2 ⟨hbegins, hlength⟩)
  have hfits : Fits len (encode (cps.take len)) := by
    refine ⟨cps.take len, htake, ?_, rfl⟩
    rw [List.length_take]
    exact Nat.min_le_left _ _
  have hbegins := encode_prefix (List.take_prefix len cps)
  constructor
  · intro h
    exact (hlongest r h.isPrefix h.fits).eq_of_length
      (Nat.le_antisymm (hlongest r h.isPrefix h.fits).length_le (h.longest _ hbegins hfits))
  · rintro rfl
    exact ⟨hbegins, hfits, fun p hp hfit => (hlongest p hp hfit).length_le⟩

theorem encode_injective {cps' : List Nat} (hvalid : Valid cps) (hvalid' : Valid cps')
    (h : encode cps = encode cps') : cps = cps' :=
  (prefix_of_encode hvalid' hvalid (h ▸ List.prefix_rfl)).eq_of_length_le
    (prefix_of_encode hvalid hvalid' (h ▸ List.prefix_rfl)).length_le

theorem utf8truncate_encode (hvalid : Valid cps) (len : Nat) :
    utf8truncate (encode cps) len =
      if cps.length ≤ len then encode cps else ((cut cps len).map encode).getD [] := by
  unfold utf8truncate
  rw [distance_encode hvalid, utf8to16_encode hvalid]
  show (if cps.length ≤ len then some (encode cps)
    else utf16to8 (((cps.flatMap units).take cps.length).take len)).getD [] = _
  split
  · rfl
  · rename_i hlonger
    rw [List.take_take, Nat.min_eq_left (by omega), utf16to8_take hvalid]

/-- There is a unit for each code point, and a second one for some. -/
theorem length_units_le_iff (cps : List Nat) :
    (cps.flatMap units).length ≤ cps.length ↔ ∀ cp ∈ cps, cp ≤ 0xffff := by
  have hlow : ∀ cps : List Nat, cps.length ≤ (cps.flatMap units).length := by
    intro cps
    induction cps with
    | nil => exact Nat.le_refl 0
    | cons cp cps ih =>
        have hpos : 0 < (units cp).length := by
          unfold units
          split <;> exact Nat.succ_pos _
        rw [List.flatMap_cons, List.length_append, List.length_cons]
        omega
  induction cps with
  | nil => exact iff_of_true (Nat.le_refl 0) fun cp hcp => absurd hcp List.not_mem_nil
  | cons cp cps ih =>
      rw [List.flatMap_cons, List.length_append, List.length_cons, List.forall_mem_cons]
      have hrest := hlow cps
      by_cases htwo : 0xffff < cp
      · have hunits : (units cp).length = 2 := by
          rw [units, if_pos htwo]
          rfl
        exact iff_of_false (by omega) fun h => absurd h.1 (by omega)
      · have hunits : (units cp).length = 1 := by
          rw [units, if_neg htwo]
          rfl
        refine ⟨fun h => ⟨by omega, ih.1 (by omega)⟩, fun h => ?_⟩
        have := ih.2 h.2
        omega

/-- A string of valid code points is cut to the longest beginning that fits if and only if
it fits already, or none of the code points that are to stay has two units. The units fit
in the buffer if and only if there is nothing to cut, or no code point at all has two. -/
theorem utf8truncate_truncates_iff {cps : List Nat} (hvalid : Valid cps) (len : Nat) :
    (Truncated (encode cps) len (utf8truncate (encode cps) len) ↔
      cps.length ≤ len ∨ ∀ cp ∈ cps.take len, cp ≤ 0xffff) ∧
    (staysInBuffer (encode cps) len = true ↔
      cps.length ≤ len ∨ ∀ cp ∈ cps, cp ≤ 0xffff) := by
  have htake : Valid (cps.take len) := fun cp hcp => hvalid cp (List.mem_of_mem_take hcp)
  constructor
  · rw [truncated_iff hvalid, utf8truncate_encode hvalid]
    split
    · rename_i hle
      rw [List.take_of_length_le hle]
      exact iff_of_true rfl (.inl hle)
    · rename_i hlonger
      rw [or_iff_right hlonger, ← cut_eq_take_iff (by omega)]
      constructor
      · intro h
        cases hcut : cut cps len with
        | none =>
            -- the string is emptied, so nothing was to stay
            rw [hcut] at h
            have hnil : [] = cps.take len := encode_injective (by simp [Valid]) htake h
            have hzero : len = 0 := by
              have hlength := congrArg List.length hnil
              rw [List.length_take, List.length_nil] at hlength
              omega
            rw [hzero, cut] at hcut
            cases hcut
        | some cs =>
            rw [hcut] at h
            have hcs : Valid cs := fun cp hcp =>
              hvalid cp ((cut_begins hcut).1.subset hcp)
            rw [encode_injective hcs htake h]
      · intro h
        rw [h]
        rfl
  · unfold staysInBuffer
    rw [distance_encode hvalid, utf8to16_encode hvalid]
    dsimp only
    rw [Bool.or_eq_true, decide_eq_true_eq, decide_eq_true_eq, length_units_le_iff]

/-! A letter and a musical symbol, which has two units, to be cut to one code point and the
other way round. -/

theorem symbol_first_is_emptied :
    Fits 2 [0xf0, 0x9d, 0x84, 0x9e, 0x41] ∧
      utf8truncate [0xf0, 0x9d, 0x84, 0x9e, 0x41] 1 = [] ∧
      ¬ Truncated [0xf0, 0x9d, 0x84, 0x9e, 0x41] 1 [] := by
  have hvalid : Valid [0x1d11e, 0x41] := by
    intro cp hcp
    rcases List.mem_pair.1 hcp with rfl | rfl <;> rfl
  have hbytes : [0xf0, 0x9d, 0x84, 0x9e, 0x41] = encode [0x1d11e, 0x41] := by decide
  refine ⟨⟨_, hvalid, by decide, hbytes⟩, by decide, ?_⟩
  rw [hbytes, truncated_iff hvalid]
  decide

theorem letter_first_is_kept :
    Truncated (encode [0x41, 0x1d11e]) 1 (utf8truncate (encode [0x41, 0x1d11e]) 1) ∧
      utf8truncate (encode [0x41, 0x1d11e]) 1 = [0x41] := by
  have hvalid : Valid [0x41, 0x1d11e] := by
    intro cp hcp
    rcases List.mem_pair.1 hcp with rfl | rfl <;> rfl
  exact ⟨(utf8truncate_truncates_iff hvalid 1).1.2 (.inr (by decide)), by decide⟩

end Sunstrider.Utilities
