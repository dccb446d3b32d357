import Sunstrider.Proofs.ByteBuffer
import Sunstrider.Spells.CooldownPacket

/-!
# Reading cooldown packets

A reader takes the count and then as many records, all of one layout. For players the
packet is always a count and records. For pets it is eight bytes short for each entry on
hold; as every record has the same width, the reader then runs out of bytes, and never
ends where the packet does.

What the records say is a matter of one entry each. A record has sixteen bits for a spell
and for a category, and thirty-two for a time. A cooldown with an end has it within half a
month, so only the time of a category can be too long. The version for players tells the
time of a category with less than a millisecond left, which is zero, and nothing of the
spell's own.
-/

namespace Sunstrider.Spells

open Lib.Digits Packets Packets.ByteBuffer

/-! ## The reader -/

inductive PacketOwner where
  | pet
  | player
deriving DecidableEq, Repr

structure CooldownRecord where
  id : UInt16
  itemId : Option UInt16
  category : UInt16
  cooldown : UInt32
  categoryCooldown : UInt32
deriving DecidableEq, Repr

def readItemId : PacketOwner → ByteBuffer → Except Stop (Option UInt16 × ByteBuffer)
  | .pet, b => .ok (none, b)
  | .player, b => do
      let (itemId, b) ← b.readUInt16
      .ok (some itemId, b)

def readRecord (owner : PacketOwner) (b : ByteBuffer) :
    Except Stop (CooldownRecord × ByteBuffer) := do
  let (id, b) ← b.readUInt16
  let (itemId, b) ← readItemId owner b
  let (category, b) ← b.readUInt16
  let (cooldown, b) ← b.readUInt32
  let (categoryCooldown, b) ← b.readUInt32
  .ok (⟨id, itemId, category, cooldown, categoryCooldown⟩, b)

def readRecords (owner : PacketOwner) :
    Nat → ByteBuffer → Except Stop (List CooldownRecord × ByteBuffer)
  | 0, b => .ok ([], b)
  | count + 1, b => do
      let (r, b) ← readRecord owner b
      let (rs, b) ← readRecords owner count b
      .ok (r :: rs, b)

def readCount : PacketOwner → ByteBuffer → Except Stop (Nat × ByteBuffer)
  | .pet, b => do
      let (count, b) ← b.readUInt8
      .ok (count.toNat, b)
  | .player, b => do
      let (count, b) ← b.readUInt16
      .ok (count.toNat, b)

def readCooldowns (owner : PacketOwner) (b : ByteBuffer) :
    Except Stop (List CooldownRecord × ByteBuffer) := do
  let (count, b) ← readCount owner b
  readRecords owner count b

/-- The bytes from a position on are read as a record for each of the entries, up to the
end of the packet. -/
def Decodes (owner : PacketOwner) (packet : ByteBuffer) (pos : UInt64) {α : Type} (entries : List α)
    (tells : α → CooldownRecord → Prop) : Prop :=
  ∃ rs b, readCooldowns owner { packet with rpos := pos } = .ok (rs, b) ∧
    b.rpos.toNat = packet.storage.1.length ∧ List.Forall₂ tells entries rs

namespace PacketOwner

def width : PacketOwner → Nat
  | pet => 12
  | player => 14

def countWidth : PacketOwner → Nat
  | pet => 1
  | player => 2

end PacketOwner

namespace CooldownRecord

def itemBytes : Option UInt16 → List UInt8
  | none => []
  | some itemId => littleEndian 2 itemId.toNat

def bytes (r : CooldownRecord) : List UInt8 :=
  littleEndian 2 r.id.toNat ++ (itemBytes r.itemId ++ (littleEndian 2 r.category.toNat ++
    (littleEndian 4 r.cooldown.toNat ++ littleEndian 4 r.categoryCooldown.toNat)))

/-- A record of the layout for this owner. -/
def For (r : CooldownRecord) : PacketOwner → Prop
  | .pet => r.itemId = none
  | .player => r.itemId.isSome = true

end CooldownRecord

variable {owner : PacketOwner} {b b' : ByteBuffer} {r : CooldownRecord} {rs : List CooldownRecord}

theorem reads_readItemId (h : r.For owner) :
    Reads (readItemId owner) (CooldownRecord.itemBytes r.itemId) r.itemId := by
  cases owner with
  | pet =>
      have hnone : r.itemId = none := h
      intro b rest _
      rw [hnone]
      show Except.ok (none, b) = Except.ok (none, b.advance 0)
      rw [advance_zero]
  | player =>
      obtain ⟨itemId, hsome⟩ := Option.isSome_iff_exists.1 h
      intro b rest hup
      rw [hsome] at hup ⊢
      rw [readItemId, reads_readUInt16 itemId b rest hup, ok_bind]
      rfl

theorem reads_readRecord (h : r.For owner) : Reads (readRecord owner) r.bytes r := by
  intro b rest hup
  unfold CooldownRecord.bytes at hup ⊢
  rw [List.append_assoc] at hup
  have hid := reads_readUInt16 r.id b _ hup
  have hup := hup.advance
  rw [List.append_assoc] at hup
  have hitem := reads_readItemId h _ _ hup
  have hup := hup.advance
  rw [List.append_assoc] at hup
  have hcategory := reads_readUInt16 r.category _ _ hup
  have hup := hup.advance
  rw [List.append_assoc] at hup
  have hcooldown := reads_readUInt32 r.cooldown _ _ hup
  have hup := hup.advance
  have hlast := reads_readUInt32 r.categoryCooldown _ _ hup
  simp only [readRecord, hid, hitem, hcategory, hcooldown, hlast, ok_bind]
  simp only [advance_advance, List.length_append, Nat.add_assoc]

theorem reads_readRecords (h : ∀ r ∈ rs, r.For owner) :
    Reads (readRecords owner rs.length) (rs.flatMap CooldownRecord.bytes) rs := by
  induction rs with
  | nil =>
      intro b rest _
      show Except.ok ([], b) = Except.ok ([], b.advance 0)
      rw [advance_zero]
  | cons r rs ih =>
      intro b rest hup
      obtain ⟨hr, hrs⟩ := List.forall_mem_cons.1 h
      rw [List.flatMap_cons, List.append_assoc] at hup
      have hrest := ih hrs _ _ hup.advance
      simp only [List.length_cons, readRecords, reads_readRecord hr b _ hup, hrest, ok_bind,
        advance_advance, List.flatMap_cons, List.length_append]

theorem consumes_readRecord : Consumes (readRecord owner) owner.width := by
  intro b a b' h
  obtain ⟨⟨id, b₁⟩, h₁, h⟩ := bind_eq_ok h
  obtain ⟨⟨itemId, b₂⟩, h₂, h⟩ := bind_eq_ok h
  obtain ⟨⟨category, b₃⟩, h₃, h⟩ := bind_eq_ok h
  obtain ⟨⟨cooldown, b₄⟩, h₄, h⟩ := bind_eq_ok h
  obtain ⟨⟨categoryCooldown, b₅⟩, h₅, h⟩ := bind_eq_ok h
  cases h
  obtain ⟨hs₁, hr₁⟩ := consumes_readUInt16 _ _ _ h₁
  obtain ⟨hs₃, hr₃⟩ := consumes_readUInt16 _ _ _ h₃
  obtain ⟨hs₄, hr₄⟩ := consumes_readUInt32 _ _ _ h₄
  obtain ⟨hs₅, hr₅⟩ := consumes_readUInt32 _ _ _ h₅
  have hitem : b₂.storage = b₁.storage ∧ b₂.rpos.toNat + 12 = b₁.rpos.toNat + owner.width := by
    cases owner with
    | pet =>
        cases h₂
        exact ⟨rfl, rfl⟩
    | player =>
        obtain ⟨⟨i, b₆⟩, h₆, h₂⟩ := bind_eq_ok h₂
        cases h₂
        obtain ⟨hs₆, hr₆⟩ := consumes_readUInt16 _ _ _ h₆
        refine ⟨hs₆, ?_⟩
        rw [hr₆]
        rfl
  refine ⟨hs₅.trans (hs₄.trans (hs₃.trans (hitem.1.trans hs₁))), ?_⟩
  have := hitem.2
  omega

theorem consumes_readRecords (count : Nat) :
    Consumes (readRecords owner count) (count * owner.width) := by
  induction count with
  | zero =>
      intro b a b' h
      cases h
      exact ⟨rfl, by rw [Nat.zero_mul, Nat.add_zero]⟩
  | succ count ih =>
      intro b a b' h
      obtain ⟨⟨r, b₁⟩, h₁, h⟩ := bind_eq_ok h
      obtain ⟨⟨rs, b₂⟩, h₂, h⟩ := bind_eq_ok h
      cases h
      obtain ⟨hs₁, hr₁⟩ := consumes_readRecord _ _ _ h₁
      obtain ⟨hs₂, hr₂⟩ := ih _ _ _ h₂
      refine ⟨hs₂.trans hs₁, ?_⟩
      rw [hr₂, hr₁, Nat.succ_mul]
      omega

/-! ## Packets that are a count and records -/

def countBytes : PacketOwner → Nat → List UInt8
  | .pet, count => littleEndian 1 (UInt8.ofNat count).toNat
  | .player, count => littleEndian 2 (UInt16.ofNat count).toNat

def maxCount : PacketOwner → Nat
  | .pet => 255
  | .player => 65535

theorem length_countBytes {count : Nat} : (countBytes owner count).length = owner.countWidth := by
  cases owner with
  | pet => exact length_littleEndian
  | player => exact length_littleEndian

theorem reads_readCount {count : Nat} (h : count ≤ maxCount owner) :
    Reads (readCount owner) (countBytes owner count) count := by
  intro b rest hup
  cases owner with
  | pet =>
      rw [countBytes] at hup ⊢
      rw [readCount, reads_readUInt8 _ b rest hup, ok_bind]
      dsimp only
      rw [UInt8.toNat_ofNat_of_lt' (Nat.lt_succ_of_le h)]
  | player =>
      rw [countBytes] at hup ⊢
      rw [readCount, reads_readUInt16 _ b rest hup, ok_bind]
      dsimp only
      rw [UInt16.toNat_ofNat_of_lt' (Nat.lt_succ_of_le h)]

variable {packet : ByteBuffer} {pos : UInt64} {before body : List UInt8} {α : Type}
  {entries : List α} {tells : α → CooldownRecord → Prop}

theorem upcoming_at (hpos : pos.toNat = before.length)
    (hstorage : packet.storage.1 = before ++ body) :
    ({ packet with rpos := pos } : ByteBuffer).Upcoming body := by
  show body <+: packet.storage.1.drop pos.toNat
  rw [hstorage, hpos, List.drop_left]

/-- A packet that has a record for each entry is read as those, so it is the records that
have to tell of the entries. -/
theorem decodes_records_iff {record : α → CooldownRecord}
    (hfor : ∀ x ∈ entries, (record x).For owner)
    (hcount : entries.length ≤ maxCount owner) (hpos : pos.toNat = before.length)
    (hstorage : packet.storage.1 = before ++ (countBytes owner entries.length ++
      entries.flatMap fun x => (record x).bytes)) :
    Decodes owner packet pos entries tells ↔ ∀ x ∈ entries, tells x (record x) := by
  have hup := upcoming_at hpos hstorage
  have hup' : ({ packet with rpos := pos } : ByteBuffer).Upcoming
      (countBytes owner entries.length ++
        ((entries.map record).flatMap CooldownRecord.bytes ++ [])) := by
    rw [List.append_nil, List.flatMap_map]
    exact hup
  have hrecords : ∀ r ∈ entries.map record, r.For owner := by
    intro r hr
    obtain ⟨x, hx, rfl⟩ := List.mem_map.1 hr
    exact hfor x hx
  have hread := reads_readRecords hrecords _ _ hup'.advance
  rw [List.length_map, List.flatMap_map] at hread
  have hcooldowns : readCooldowns owner { packet with rpos := pos } =
      .ok (entries.map record, ({ packet with rpos := pos } : ByteBuffer).advance
        (countBytes owner entries.length ++ entries.flatMap fun x => (record x).bytes).length) := by
    rw [readCooldowns, reads_readCount hcount _ _ hup, ok_bind]
    dsimp only
    rw [hread, advance_advance, List.length_append]
  have hend : (({ packet with rpos := pos } : ByteBuffer).advance
      (countBytes owner entries.length ++
        entries.flatMap fun x => (record x).bytes).length).rpos.toNat =
      packet.storage.1.length := by
    refine (hup.toNat_rpos_end ?_).trans ?_
    · cases owner with
      | pet => exact List.cons_ne_nil _ _
      | player => exact List.cons_ne_nil _ _
    · have hlength := congrArg List.length hstorage
      rw [List.length_append] at hlength
      rw [hlength, ← hpos]
  have hforall : List.Forall₂ tells entries (entries.map record) ↔
      ∀ x ∈ entries, tells x (record x) := by
    rw [List.forall₂_map_right_iff, List.forall₂_same]
  constructor
  · rintro ⟨rs, b, hrs, -, htells⟩
    rw [hcooldowns] at hrs
    cases hrs
    exact hforall.1 htells
  · intro h
    exact ⟨_, _, hcooldowns, hend, hforall.2 h⟩

/-- Whatever a packet is read as, it is as long as its count says. -/
theorem length_of_decodes (hcount : entries.length ≤ maxCount owner)
    (hpos : pos.toNat = before.length)
    (hstorage : packet.storage.1 = before ++ (countBytes owner entries.length ++ body))
    (h : Decodes owner packet pos entries tells) : body.length = entries.length * owner.width := by
  obtain ⟨rs, b, hread, hend, -⟩ := h
  have hup := upcoming_at hpos hstorage
  have hrpos : (pos + .ofNat _).toNat = pos.toNat + _ := hup.toNat_rpos_add (by
    cases owner with
    | pet => exact List.cons_ne_nil _ _
    | player => exact List.cons_ne_nil _ _)
  rw [readCooldowns, reads_readCount hcount _ _ hup, ok_bind] at hread
  obtain ⟨-, hrest⟩ := consumes_readRecords _ _ _ _ hread
  have hlength := congrArg List.length hstorage
  rw [List.length_append, List.length_append] at hlength
  have hat : (({ packet with rpos := pos } : ByteBuffer).advance
      (countBytes owner entries.length).length).rpos.toNat = _ := hrpos
  rw [hend, hat] at hrest
  omega

/-! ## What is written -/

def cooldownLeft (now : Int) (e : CooldownEntry) : Int := milliseconds (e.cooldownEnd - now)

def categoryLeft (now : Int) (e : CooldownEntry) : Int := milliseconds (e.categoryEnd - now)

/-- The two times of a cooldown with an end. -/
def times (now : Int) (e : CooldownEntry) (running : Bool) : UInt32 × UInt32 :=
  if cooldownLeft now e ≤ 0 then (0, 0)
  else if running then (0, .ofNat (categoryLeft now e).toNat)
  else (.ofNat (cooldownLeft now e).toNat, 0)

def petTimes (now : Int) (e : CooldownEntry) : UInt32 × UInt32 :=
  times now e (decide (0 < categoryLeft now e))

def playerTimes (now : Int) (e : CooldownEntry) : UInt32 × UInt32 :=
  if now + infinityCooldownDelayCheck ≤ e.cooldownEnd then (1, 0x80000000)
  else times now e (decide (0 ≤ categoryLeft now e))

def petRecord (now : Int) (x : (_ : Nat) × CooldownEntry) : CooldownRecord :=
  ⟨.ofNat x.1, none, .ofNat x.2.categoryId, (petTimes now x.2).1, (petTimes now x.2).2⟩

def playerRecord (now : Int) (x : (_ : Nat) × CooldownEntry) : CooldownRecord :=
  ⟨.ofNat x.1, some (.ofNat x.2.itemId), .ofNat x.2.categoryId, (playerTimes now x.2).1,
    (playerTimes now x.2).2⟩

/-- What the version for pets leaves of an entry. -/
def petBytes (now : Int) (x : (_ : Nat) × CooldownEntry) : List UInt8 :=
  if x.2.onHold then
    littleEndian 2 (UInt16.ofNat x.1).toNat ++ littleEndian 2 (UInt16.ofNat x.2.categoryId).toNat
  else (petRecord now x).bytes

variable {now : Int} {h : SpellHistory} {e : CooldownEntry} {x : (_ : Nat) × CooldownEntry}

theorem for_petRecord : (petRecord now x).For .pet := rfl

theorem for_playerRecord : (playerRecord now x).For .player := rfl

theorem writes_times (c k : UInt32) :
    Writes (fun b => b.writeUInt32 c >>= fun b => b.writeUInt32 k)
      (littleEndian 4 c.toNat ++ littleEndian 4 k.toNat) :=
  (writes_writeUInt32 c).bind (writes_writeUInt32 k)

/-- The tail of both loops. They differ in when the category counts as running. -/
theorem writes_left (now : Int) (e : CooldownEntry) (running : Prop) [Decidable running] :
    Writes (fun b =>
        if cooldownLeft now e ≤ 0 then b.writeUInt32 0 >>= fun b => b.writeUInt32 0
        else if running then
          b.writeUInt32 0 >>= fun b => b.writeUInt32 (.ofNat (categoryLeft now e).toNat)
        else b.writeUInt32 (.ofNat (cooldownLeft now e).toNat) >>= fun b => b.writeUInt32 0)
      (littleEndian 4 (times now e (decide running)).1.toNat ++
        littleEndian 4 (times now e (decide running)).2.toNat) := by
  refine Writes.ite (fun hover => ?_) fun hleft => ?_
  · rw [times, if_pos hover]
    exact writes_times 0 0
  · rw [times, if_neg hleft]
    refine Writes.ite (fun hrunning => ?_) fun hover => ?_
    · rw [if_pos (decide_eq_true hrunning)]
      exact writes_times 0 _
    · rw [if_neg (by rw [decide_eq_true_eq]; exact hover)]
      exact writes_times _ 0

theorem writes_writePetCooldown :
    Writes (fun b => SpellHistory.writePetCooldown now b x) (petBytes now x) := by
  cases hhold : x.2.onHold with
  | true =>
      have hbytes : petBytes now x = littleEndian 2 (UInt16.ofNat x.1).toNat ++
          (littleEndian 2 (UInt16.ofNat x.2.categoryId).toNat ++ []) := by
        rw [petBytes, hhold, if_pos rfl, List.append_nil]
      rw [hbytes]
      refine (writes_writeUInt16 _).bind ((writes_writeUInt16 _).bind
        (Writes.ite ?_ fun _ => writes_ok))
      intro hheld
      rw [hhold] at hheld
      cases hheld
  | false =>
      have hbytes : petBytes now x = littleEndian 2 (UInt16.ofNat x.1).toNat ++
          (littleEndian 2 (UInt16.ofNat x.2.categoryId).toNat ++
            (littleEndian 4 (petTimes now x.2).1.toNat ++
              littleEndian 4 (petTimes now x.2).2.toNat)) := by
        rw [petBytes, hhold]
        rfl
      rw [hbytes]
      refine (writes_writeUInt16 _).bind ((writes_writeUInt16 _).bind (Writes.ite ?_ ?_))
      · intro _
        exact writes_left now x.2 (0 < categoryLeft now x.2)
      · intro hheld
        rw [hhold] at hheld
        exact absurd rfl hheld

theorem writes_writePlayerCooldown :
    Writes (fun b => SpellHistory.writePlayerCooldown now (now + infinityCooldownDelayCheck) b x)
      (playerRecord now x).bytes := by
  refine (writes_writeUInt16 _).bind ((writes_writeUInt16 _).bind ((writes_writeUInt16 _).bind
    (Writes.ite (fun hinfinite => ?_) fun hfinite => ?_)))
  · show Writes _ (littleEndian 4 (playerTimes now x.2).1.toNat ++
      littleEndian 4 (playerTimes now x.2).2.toNat)
    rw [playerTimes, if_pos hinfinite]
    exact writes_times 1 _
  · show Writes _ (littleEndian 4 (playerTimes now x.2).1.toNat ++
      littleEndian 4 (playerTimes now x.2).2.toNat)
    rw [playerTimes, if_neg hfinite]
    exact writes_left now x.2 (0 ≤ categoryLeft now x.2)

theorem writes_writePetPacket :
    Writes (h.writePetPacket now) (countBytes .pet h.spellCooldowns.entries.length ++
      h.spellCooldowns.entries.flatMap (petBytes now)) :=
  (writes_writeUInt8 _).bind (Writes.foldlM (fun _ => writes_writePetCooldown) _)

theorem writes_writePlayerPacket :
    Writes (h.writePlayerPacket now) (countBytes .player h.spellCooldowns.entries.length ++
      h.spellCooldowns.entries.flatMap fun x => (playerRecord now x).bytes) :=
  (writes_writeUInt16 _).bind (Writes.foldlM (fun _ => writes_writePlayerCooldown) _)

/-! ## What is told -/

/-- The time left that a record is to have: of the category while that is on cooldown, of
the spell when it is not. -/
def timeLeft (now : Int) (e : CooldownEntry) : Int :=
  if 0 < categoryLeft now e then categoryLeft now e else cooldownLeft now e

/-- A cooldown that is neither on hold nor without an end, and not over. -/
structure Timed (now : Int) (e : CooldownEntry) : Prop where
  onHold : e.onHold = false
  finite : e.cooldownEnd < now + infinityCooldownDelayCheck
  pos : 0 < cooldownLeft now e

/-- A record has the spell and the category of an entry, and for a timed cooldown the time
left in one of its fields and zero in the other; zero in both for one that is over. -/
structure Tells (now : Int) (left : CooldownEntry → Int) (x : (_ : Nat) × CooldownEntry)
    (r : CooldownRecord) : Prop where
  id : r.id.toNat = x.1
  category : r.category.toNat = x.2.categoryId
  timed : Timed now x.2 →
    r.cooldown.toNat = left x.2 ∧ r.categoryCooldown = 0 ∨
      r.cooldown = 0 ∧ r.categoryCooldown.toNat = left x.2
  past : x.2.onHold = false → x.2.cooldownEnd < now + infinityCooldownDelayCheck →
    cooldownLeft now x.2 ≤ 0 → r.cooldown = 0 ∧ r.categoryCooldown = 0

/-- The spell and the category have sixteen bits. -/
structure Narrow (x : (_ : Nat) × CooldownEntry) : Prop where
  id : x.1 < 2 ^ 16
  category : x.2.categoryId < 2 ^ 16

theorem cooldownLeft_lt (h : e.cooldownEnd < now + infinityCooldownDelayCheck) :
    cooldownLeft now e < 2 ^ 32 := by
  have hhalf : infinityCooldownDelayCheck = 1296000000 * 1000000 := by decide
  rw [hhalf] at h
  rw [cooldownLeft, milliseconds, msTicks]
  by_cases hneg : e.cooldownEnd - now < 0
  · have hneg' : 0 ≤ -(e.cooldownEnd - now) := by omega
    have hquot := Int.tdiv_nonneg (b := 1000000) hneg' (by decide)
    rw [Int.neg_tdiv] at hquot
    omega
  · rw [Int.tdiv_eq_ediv_of_nonneg (by omega)]
    omega

theorem toNat_ofNat_uint16 {n : Nat} : (UInt16.ofNat n).toNat = n ↔ n < 2 ^ 16 := by
  rw [UInt16.toNat_ofNat']
  exact Nat.mod_eq_iff_lt (by decide)

theorem times_of_over {running : Bool} (h : cooldownLeft now e ≤ 0) :
    times now e running = (0, 0) :=
  if_pos h

/-- What the times say of a timed cooldown: the category's if it counts as running, the
spell's if it does not. -/
theorem times_tell_iff {left : Int} {running : Bool} (htimed : Timed now e) (hleft : 0 < left) :
    ((times now e running).1.toNat = left ∧ (times now e running).2 = 0 ∨
      (times now e running).1 = 0 ∧ (times now e running).2.toNat = left) ↔
      (if running then (((categoryLeft now e).toNat % 2 ^ 32 : Nat) : Int) else cooldownLeft now e)
        = left := by
  have hpos := htimed.pos
  have hlt := cooldownLeft_lt htimed.finite
  rw [times, if_neg (by omega)]
  have hzero : (0 : UInt32).toNat = 0 := rfl
  cases running with
  | true =>
      rw [if_pos rfl, if_pos rfl]
      dsimp only
      rw [UInt32.toNat_ofNat', hzero]
      constructor
      · rintro (⟨h, -⟩ | ⟨-, h⟩)
        · omega
        · exact h
      · exact fun h => .inr ⟨rfl, h⟩
  | false =>
      rw [if_neg Bool.false_ne_true, if_neg Bool.false_ne_true]
      dsimp only
      rw [UInt32.toNat_ofNat', hzero]
      constructor
      · rintro (⟨h, -⟩ | ⟨-, h⟩)
        · omega
        · omega
      · exact fun h => .inl ⟨by omega, rfl⟩

theorem tells_petRecord_iff {left : CooldownEntry → Int} (hleft : Timed now x.2 → 0 < left x.2) :
    Tells now left x (petRecord now x) ↔ Narrow x ∧ (Timed now x.2 →
      (if 0 < categoryLeft now x.2 then (((categoryLeft now x.2).toNat % 2 ^ 32 : Nat) : Int)
        else cooldownLeft now x.2) = left x.2) := by
  constructor
  · intro h
    refine ⟨⟨toNat_ofNat_uint16.1 h.id, toNat_ofNat_uint16.1 h.category⟩, fun htimed => ?_⟩
    have := (times_tell_iff htimed (hleft htimed)).1 (h.timed htimed)
    simpa only [decide_eq_true_eq] using this
  · rintro ⟨hnarrow, htold⟩
    refine ⟨toNat_ofNat_uint16.2 hnarrow.id, toNat_ofNat_uint16.2 hnarrow.category,
      fun htimed => (times_tell_iff htimed (hleft htimed)).2 ?_, fun _ _ hover => ?_⟩
    · simpa only [decide_eq_true_eq] using htold htimed
    · show (petTimes now x.2).1 = 0 ∧ (petTimes now x.2).2 = 0
      rw [petTimes, times_of_over hover]
      exact ⟨rfl, rfl⟩

theorem playerTimes_of_finite (h : e.cooldownEnd < now + infinityCooldownDelayCheck) :
    playerTimes now e = times now e (decide (0 ≤ categoryLeft now e)) :=
  if_neg (by omega)

theorem tells_playerRecord_iff {left : CooldownEntry → Int}
    (hleft : Timed now x.2 → 0 < left x.2) :
    Tells now left x (playerRecord now x) ↔ Narrow x ∧ (Timed now x.2 →
      (if 0 ≤ categoryLeft now x.2 then (((categoryLeft now x.2).toNat % 2 ^ 32 : Nat) : Int)
        else cooldownLeft now x.2) = left x.2) := by
  constructor
  · intro h
    refine ⟨⟨toNat_ofNat_uint16.1 h.id, toNat_ofNat_uint16.1 h.category⟩, fun htimed => ?_⟩
    have htold := h.timed htimed
    simp only [playerRecord, playerTimes_of_finite htimed.finite] at htold
    simpa only [decide_eq_true_eq] using (times_tell_iff htimed (hleft htimed)).1 htold
  · rintro ⟨hnarrow, htold⟩
    refine ⟨toNat_ofNat_uint16.2 hnarrow.id, toNat_ofNat_uint16.2 hnarrow.category,
      fun htimed => ?_, fun _ hfinite hover => ?_⟩
    · simp only [playerRecord, playerTimes_of_finite htimed.finite]
      refine (times_tell_iff htimed (hleft htimed)).2 ?_
      simpa only [decide_eq_true_eq] using htold htimed
    · show (playerTimes now x.2).1 = 0 ∧ (playerTimes now x.2).2 = 0
      rw [playerTimes_of_finite hfinite, times_of_over hover]
      exact ⟨rfl, rfl⟩

theorem timeLeft_pos (h : Timed now e) : 0 < timeLeft now e := by
  have := h.pos
  rw [timeLeft]
  split
  · assumption
  · assumption

/-! ## The packets -/

theorem length_record_bytes {r : CooldownRecord} (h : r.For owner) :
    r.bytes.length = owner.width := by
  simp only [CooldownRecord.bytes, List.length_append, length_littleEndian]
  cases owner with
  | pet =>
      have hnone : r.itemId = none := h
      rw [hnone]
      rfl
  | player =>
      obtain ⟨itemId, hsome⟩ := Option.isSome_iff_exists.1 h
      rw [hsome]
      rfl

theorem length_petBytes : (petBytes now x).length = if x.2.onHold then 4 else 12 := by
  rw [petBytes]
  split
  · rfl
  · exact length_record_bytes for_petRecord

/-- Each entry on hold leaves the packet eight bytes short. -/
theorem length_petBytes_eq_iff (now : Int) (l : List ((_ : Nat) × CooldownEntry)) :
    (l.flatMap (petBytes now)).length ≤ l.length * 12 ∧
      ((l.flatMap (petBytes now)).length = l.length * 12 ↔ ∀ x ∈ l, x.2.onHold = false) := by
  induction l with
  | nil => exact ⟨Nat.le_refl 0, iff_of_true rfl fun x hx => absurd hx List.not_mem_nil⟩
  | cons x l ih =>
      obtain ⟨hle, hiff⟩ := ih
      rw [List.flatMap_cons, List.length_append, List.length_cons, length_petBytes,
        List.forall_mem_cons]
      cases hhold : x.2.onHold with
      | true =>
          rw [if_pos rfl]
          refine ⟨by omega, iff_of_false (by omega) fun h => ?_⟩
          cases h.1
      | false =>
          rw [if_neg Bool.false_ne_true]
          refine ⟨by omega, ?_⟩
          rw [and_iff_right rfl, ← hiff]
          omega

theorem length_playerBytes {l : List ((_ : Nat) × CooldownEntry)} :
    (l.flatMap fun x => (playerRecord now x).bytes).length = l.length * 14 := by
  induction l with
  | nil => rfl
  | cons x l ih =>
      rw [List.flatMap_cons, List.length_append, ih, List.length_cons,
        length_record_bytes for_playerRecord]
      show 14 + _ = _
      omega

theorem decodes_pet_iff {written : ByteBuffer}
    {tells : (_ : Nat) × CooldownEntry → CooldownRecord → Prop}
    (hcount : h.spellCooldowns.entries.length ≤ 255) (hpos : pos.toNat = before.length)
    (hstorage : written.storage.1 = before ++ (countBytes .pet h.spellCooldowns.entries.length ++
      h.spellCooldowns.entries.flatMap (petBytes now))) :
    Decodes .pet written pos h.spellCooldowns.entries tells ↔
      ∀ x ∈ h.spellCooldowns.entries, x.2.onHold = false ∧ tells x (petRecord now x) := by
  have hrecords (hhold : ∀ x ∈ h.spellCooldowns.entries, x.2.onHold = false) :
      h.spellCooldowns.entries.flatMap (petBytes now) =
        h.spellCooldowns.entries.flatMap fun x => (petRecord now x).bytes :=
    List.flatMap_congr fun x hx => by rw [petBytes, hhold x hx, if_neg Bool.false_ne_true]
  have hiff (hhold : ∀ x ∈ h.spellCooldowns.entries, x.2.onHold = false) :
      Decodes .pet written pos h.spellCooldowns.entries tells ↔
        ∀ x ∈ h.spellCooldowns.entries, tells x (petRecord now x) :=
    decodes_records_iff (fun _ _ => for_petRecord) hcount hpos (by rw [hstorage, hrecords hhold])
  constructor
  · intro hdecodes
    have hlength := length_of_decodes hcount hpos hstorage hdecodes
    have hhold := (length_petBytes_eq_iff now _).2.1 hlength
    exact fun x hx => ⟨hhold x hx, (hiff hhold).1 hdecodes x hx⟩
  · intro hall
    exact (hiff fun x hx => (hall x hx).1).2 fun x hx => (hall x hx).2

section

variable (h : SpellHistory) (now : Int) (packet : ByteBuffer)
  (hend : packet.wpos.toNat = packet.storage.1.length)
  (hroom : packet.storage.1.length ≤ 9000000)

include hend hroom

theorem writePetPacket_decodes_iff (hcount : h.spellCooldowns.entries.length ≤ 255) :
    ∃ written, h.writePetPacket now packet = .ok written ∧
      ∀ tells, Decodes .pet written packet.wpos h.spellCooldowns.entries tells ↔
        ∀ x ∈ h.spellCooldowns.entries, x.2.onHold = false ∧ tells x (petRecord now x) := by
  have hbytes := (length_petBytes_eq_iff now h.spellCooldowns.entries).1
  have hfit : packet.storage.1.length + (countBytes .pet h.spellCooldowns.entries.length ++
      h.spellCooldowns.entries.flatMap (petBytes now)).length ≤ 10000000 := by
    rw [List.length_append, length_countBytes]
    show _ + (1 + _) ≤ _
    omega
  obtain ⟨written, hwritten, -, hstorage⟩ := writes_writePetPacket packet hend hfit
  exact ⟨written, hwritten, fun tells => decodes_pet_iff hcount hend hstorage⟩

theorem writePlayerPacket_decodes_iff (hcount : h.spellCooldowns.entries.length ≤ 65535) :
    ∃ written, h.writePlayerPacket now packet = .ok written ∧
      ∀ tells, Decodes .player written packet.wpos h.spellCooldowns.entries tells ↔
        ∀ x ∈ h.spellCooldowns.entries, tells x (playerRecord now x) := by
  have hfit : packet.storage.1.length + (countBytes .player h.spellCooldowns.entries.length ++
      h.spellCooldowns.entries.flatMap fun x => (playerRecord now x).bytes).length ≤ 10000000 := by
    rw [List.length_append, length_countBytes, length_playerBytes]
    show _ + (2 + _) ≤ _
    omega
  obtain ⟨written, hwritten, -, hstorage⟩ := writes_writePlayerPacket packet hend hfit
  exact ⟨written, hwritten, fun tells =>
    decodes_records_iff (fun _ _ => for_playerRecord) hcount hend hstorage⟩

end

/-- A packet with room takes the cooldowns of any number its count has room for. That of a
pet is read as them if and only if none is on hold, the spells and categories have sixteen
bits, and no category that stands for a timed cooldown has longer to go than a field can
hold; that of a player if and only if they have sixteen bits, and neither a category with
longer to go nor one with less than a millisecond to go stands for a timed cooldown. If it
is the spell's own time that a record is to have, then a category that stands for a spell
has to have the same time left. -/
theorem cooldownPackets_decode_iff (h : SpellHistory) (now : Int) (packet : ByteBuffer)
    (hend : packet.wpos.toNat = packet.storage.1.length)
    (hroom : packet.storage.1.length ≤ 9000000) :
    (h.spellCooldowns.entries.length ≤ 255 →
      ∃ written, h.writePetPacket now packet = .ok written ∧
        (Decodes .pet written packet.wpos h.spellCooldowns.entries (Tells now (timeLeft now)) ↔
          ∀ x ∈ h.spellCooldowns.entries, x.2.onHold = false ∧ Narrow x ∧
            (Timed now x.2 → categoryLeft now x.2 < 2 ^ 32)) ∧
        (Decodes .pet written packet.wpos h.spellCooldowns.entries (Tells now (cooldownLeft now)) ↔
          ∀ x ∈ h.spellCooldowns.entries, x.2.onHold = false ∧ Narrow x ∧
            (Timed now x.2 → 0 < categoryLeft now x.2 →
              categoryLeft now x.2 % 2 ^ 32 = cooldownLeft now x.2))) ∧
    (h.spellCooldowns.entries.length ≤ 65535 →
      ∃ written, h.writePlayerPacket now packet = .ok written ∧
        (Decodes .player written packet.wpos h.spellCooldowns.entries (Tells now (timeLeft now)) ↔
          ∀ x ∈ h.spellCooldowns.entries, Narrow x ∧
            (Timed now x.2 → categoryLeft now x.2 ≠ 0 ∧ categoryLeft now x.2 < 2 ^ 32)) ∧
        (Decodes .player written packet.wpos h.spellCooldowns.entries
            (Tells now (cooldownLeft now)) ↔
          ∀ x ∈ h.spellCooldowns.entries, Narrow x ∧
            (Timed now x.2 → 0 ≤ categoryLeft now x.2 →
              categoryLeft now x.2 % 2 ^ 32 = cooldownLeft now x.2))) := by
  have hown {e : CooldownEntry} (htimed : Timed now e) : 0 < cooldownLeft now e := htimed.pos
  constructor
  · intro hcount
    obtain ⟨written, hwritten, hiff⟩ := writePetPacket_decodes_iff h now packet hend hroom hcount
    refine ⟨written, hwritten, (hiff _).trans ?_, (hiff _).trans ?_⟩
    · refine forall₂_congr fun x hx => and_congr_right fun _ => ?_
      rw [tells_petRecord_iff timeLeft_pos]
      refine and_congr_right fun _ => forall_congr' fun htimed => ?_
      rw [timeLeft]
      split
      · omega
      · exact iff_of_true rfl (by omega)
    · refine forall₂_congr fun x hx => and_congr_right fun _ => ?_
      rw [tells_petRecord_iff hown]
      refine and_congr_right fun _ => forall_congr' fun htimed => ?_
      split
      · rename_i hrunning
        rw [forall_prop_of_true hrunning]
        omega
      · rename_i hrunning
        exact iff_of_true rfl fun h => absurd h hrunning
  · intro hcount
    obtain ⟨written, hwritten, hiff⟩ := writePlayerPacket_decodes_iff h now packet hend hroom hcount
    refine ⟨written, hwritten, (hiff _).trans ?_, (hiff _).trans ?_⟩
    · refine forall₂_congr fun x hx => ?_
      rw [tells_playerRecord_iff timeLeft_pos]
      refine and_congr_right fun _ => forall_congr' fun htimed => ?_
      have hpos := htimed.pos
      rw [timeLeft]
      split
      · split
        · omega
        · omega
      · rw [if_neg (by omega)]
        exact iff_of_true rfl (by omega)
    · refine forall₂_congr fun x hx => ?_
      rw [tells_playerRecord_iff hown]
      refine and_congr_right fun _ => forall_congr' fun htimed => ?_
      split
      · rename_i hrunning
        rw [forall_prop_of_true hrunning]
        omega
      · rename_i hrunning
        exact iff_of_true rfl fun h => absurd h hrunning

/-! Two spells of a pet, the first of them on hold, and a spell of a player without a
category, at the moment its cooldown was added. -/

def heldFirst : SpellHistory :=
  { SpellHistory.empty with
    spellCooldowns := ⟨[⟨17253, 17253, 2592000000000000, 0, 0, 0, true⟩,
      ⟨17255, 17255, 5000000000, 0, 0, 0, false⟩],
      (by decide : [17253, 17255].Nodup)⟩ }

def justAdded : SpellHistory :=
  { SpellHistory.empty with
    spellCooldowns := ⟨[⟨2139, 2139, 5000000000, 0, 0, 0, false⟩],
      (by decide : [2139].Nodup)⟩ }

theorem held_cooldown_shifts_records :
    (∃ written, heldFirst.writePetPacket 0 .new = .ok written ∧
      ¬ Decodes .pet written 0 heldFirst.spellCooldowns.entries fun x r => r.id.toNat = x.1) ∧
    (∃ written, justAdded.writePlayerPacket 0 .new = .ok written ∧
      ¬ Decodes .player written 0 justAdded.spellCooldowns.entries (Tells 0 (timeLeft 0))) := by
  constructor
  · obtain ⟨written, hwritten, hiff⟩ :=
      writePetPacket_decodes_iff heldFirst 0 .new rfl (by decide)
        (by decide)
    refine ⟨written, hwritten, fun hdecodes => ?_⟩
    cases ((hiff _).1 hdecodes _ List.mem_cons_self).1
  · obtain ⟨written, hwritten, hiff⟩ :=
      writePlayerPacket_decodes_iff justAdded 0 .new rfl (by decide)
        (by decide)
    refine ⟨written, hwritten, fun hdecodes => ?_⟩
    have htells := (hiff _).1 hdecodes _ List.mem_cons_self
    have htold := ((tells_playerRecord_iff timeLeft_pos).1 htells).2 ⟨rfl, by decide, by decide⟩
    exact absurd htold (by decide)

theorem later_packets_decode :
    (∃ written, justAdded.writePetPacket 0 .new = .ok written ∧
      Decodes .pet written 0 justAdded.spellCooldowns.entries (Tells 0 (timeLeft 0))) ∧
    (∃ written, heldFirst.writePlayerPacket 1000000 .new = .ok written ∧
      Decodes .player written 0 heldFirst.spellCooldowns.entries
        (Tells 1000000 (timeLeft 1000000))) := by
  obtain ⟨written, hwritten, hiff, -⟩ :=
    (cooldownPackets_decode_iff justAdded 0 .new rfl (by decide)).1 (by decide)
  obtain ⟨written', hwritten', hiff', -⟩ :=
    (cooldownPackets_decode_iff heldFirst 1000000 .new rfl (by decide)).2 (by decide)
  refine ⟨⟨written, hwritten, hiff.2 ?_⟩, ⟨written', hwritten', hiff'.2 ?_⟩⟩
  · intro x hx
    obtain rfl := List.mem_singleton.1 hx
    exact ⟨rfl, ⟨by decide, by decide⟩, fun _ => by decide⟩
  · intro x hx
    rcases List.mem_pair.1 hx with rfl | rfl
    · exact ⟨⟨by decide, by decide⟩, fun _ => by decide⟩
    · exact ⟨⟨by decide, by decide⟩, fun _ => by decide⟩

end Sunstrider.Spells
