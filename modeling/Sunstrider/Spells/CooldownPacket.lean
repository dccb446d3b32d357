import Sunstrider.Packets.ByteBuffer
import Sunstrider.Spells.SpellHistory

/-!
# Cooldown packets

The cooldowns of a unit as its client is told of them when it logs in or takes control of
a pet. There is a count, and a record for each entry in the order the map goes through
them. A spell whose category is on cooldown has the time left of that, any other spell the
time left of its own; the record has a field for either, and zero in the other.

The version for pets writes no item. It also leaves out the times of an entry on hold,
where the version for players has a code for a cooldown without an end.
-/

namespace Sunstrider.Spells

open Packets (ByteBuffer Stop)

/-- `InfinityCooldownDelayCheck`. -/
def infinityCooldownDelayCheck : Int := (month / 2 : Nat) * (inMilliseconds * msTicks)

/-- The milliseconds of a number of ticks, `std::chrono::duration_cast`. -/
def milliseconds (ticks : Int) : Int := ticks.tdiv msTicks

namespace SpellHistory

/-- One round of the loop of `WritePacket<Pet>`. -/
def writePetCooldown (now : Int) (packet : ByteBuffer) (spellCooldown : (_ : Nat) × CooldownEntry) :
    Except Stop ByteBuffer := do
  let packet ← packet.writeUInt16 (.ofNat spellCooldown.1)             -- spell ID
  let packet ← packet.writeUInt16 (.ofNat spellCooldown.2.categoryId)  -- spell category
  if ! spellCooldown.2.onHold then
    let cooldownDuration := milliseconds (spellCooldown.2.cooldownEnd - now)
    if cooldownDuration ≤ 0 then
      let packet ← packet.writeUInt32 0
      packet.writeUInt32 0
    else
      let categoryDuration := milliseconds (spellCooldown.2.categoryEnd - now)
      if 0 < categoryDuration then
        let packet ← packet.writeUInt32 0
        packet.writeUInt32 (.ofNat categoryDuration.toNat)
      else
        let packet ← packet.writeUInt32 (.ofNat cooldownDuration.toNat)
        packet.writeUInt32 0
  else .ok packet

/-- `WritePacket<Pet>`. -/
def writePetPacket (h : SpellHistory) (now : Int) (packet : ByteBuffer) :
    Except Stop ByteBuffer := do
  let packet ← packet.writeUInt8 (.ofNat h.spellCooldowns.entries.length)
  h.spellCooldowns.entries.foldlM (writePetCooldown now) packet

/-- One round of the loop of `WritePacket<Player>`. -/
def writePlayerCooldown (now infTime : Int) (packet : ByteBuffer)
    (spellCooldown : (_ : Nat) × CooldownEntry) : Except Stop ByteBuffer := do
  let packet ← packet.writeUInt16 (.ofNat spellCooldown.1)
  let packet ← packet.writeUInt16 (.ofNat spellCooldown.2.itemId)      -- cast item id
  let packet ← packet.writeUInt16 (.ofNat spellCooldown.2.categoryId)  -- spell category
  -- send infinity cooldown in special format
  if infTime ≤ spellCooldown.2.cooldownEnd then
    let packet ← packet.writeUInt32 1
    packet.writeUInt32 0x80000000
  else
    let cooldownDuration := milliseconds (spellCooldown.2.cooldownEnd - now)
    if cooldownDuration ≤ 0 then
      let packet ← packet.writeUInt32 0
      packet.writeUInt32 0
    else
      let categoryDuration := milliseconds (spellCooldown.2.categoryEnd - now)
      if 0 ≤ categoryDuration then
        let packet ← packet.writeUInt32 0
        packet.writeUInt32 (.ofNat categoryDuration.toNat)
      else
        let packet ← packet.writeUInt32 (.ofNat cooldownDuration.toNat)
        packet.writeUInt32 0

/-- `WritePacket<Player>`. -/
def writePlayerPacket (h : SpellHistory) (now : Int) (packet : ByteBuffer) :
    Except Stop ByteBuffer := do
  let infTime := now + infinityCooldownDelayCheck
  let packet ← packet.writeUInt16 (.ofNat h.spellCooldowns.entries.length)
  h.spellCooldowns.entries.foldlM (writePlayerCooldown now infTime) packet

end SpellHistory

end Sunstrider.Spells
