import Mathlib

/-!
# Message buffers

Storage with a position up to which it was written and one up to which it was read. The
storage is what `std::vector::resize` leaves of it; bytes are copied to the write position
without a look at how many fit, so a `write` that goes beyond the storage is `none`.

A buffer is `Ok` if neither position is ahead of what it follows. What is between them are
the `activeBytes`, and the lemmas say what becomes of those.
-/

namespace Sunstrider.Sockets

structure MessageBuffer where
  wpos : Nat
  rpos : Nat
  storage : List UInt8
deriving DecidableEq, Repr

namespace MessageBuffer

/-- The constructor with an initial size. -/
def new (initialSize : Nat) : MessageBuffer := ⟨0, 0, List.replicate initialSize 0⟩

def reset (b : MessageBuffer) : MessageBuffer := { b with wpos := 0, rpos := 0 }

def resize (bytes : Nat) (b : MessageBuffer) : MessageBuffer :=
  { b with storage := b.storage.take bytes ++ List.replicate (bytes - b.storage.length) 0 }

def readCompleted (bytes : Nat) (b : MessageBuffer) : MessageBuffer :=
  { b with rpos := b.rpos + bytes }

def activeSize (b : MessageBuffer) : Nat := b.wpos - b.rpos

def remainingSpace (b : MessageBuffer) : Nat := b.storage.length - b.wpos

/-- The bytes at the read position, as many as are asked for. -/
def readPointer (bytes : Nat) (b : MessageBuffer) : List UInt8 :=
  (b.storage.drop b.rpos).take bytes

/-- What was written and not yet read. -/
def activeBytes (b : MessageBuffer) : List UInt8 := b.readPointer b.activeSize

def normalize (b : MessageBuffer) : MessageBuffer :=
  if b.rpos ≠ 0 then
    { wpos := b.wpos - b.rpos, rpos := 0
      storage := if b.rpos ≠ b.wpos then
        b.activeBytes ++ b.storage.drop b.activeSize else b.storage }
  else b

def ensureFreeSpace (b : MessageBuffer) : MessageBuffer :=
  if b.remainingSpace = 0 then b.resize (b.storage.length * 3 / 2) else b

/-- `Write`; it may go beyond the storage. -/
def write (data : List UInt8) (b : MessageBuffer) : Option MessageBuffer :=
  if data.length = 0 then some b
  else if b.storage.length < b.wpos + data.length then none
  else some
    { b with
      wpos := b.wpos + data.length
      storage := b.storage.take b.wpos ++ data ++ b.storage.drop (b.wpos + data.length) }

/-- What is left of a buffer after `Move`. -/
def moved : MessageBuffer := ⟨0, 0, []⟩

/-- Bytes at the read position are changed in place. -/
def overwrite (data : List UInt8) (b : MessageBuffer) : MessageBuffer :=
  { b with storage := b.storage.take b.rpos ++ data ++ b.storage.drop (b.rpos + data.length) }

/-! ## Positions in order -/

structure Ok (b : MessageBuffer) : Prop where
  read_le : b.rpos ≤ b.wpos
  write_le : b.wpos ≤ b.storage.length

variable {b b' : MessageBuffer} {x : List UInt8} {n : Nat}

theorem ok_new (n : Nat) : (new n).Ok := ⟨Nat.le_refl 0, Nat.zero_le _⟩

theorem Ok.length_activeBytes (h : b.Ok) : b.activeBytes.length = b.activeSize := by
  have hr := h.read_le
  have hw := h.write_le
  unfold activeBytes readPointer activeSize
  rw [List.length_take, List.length_drop]
  omega

theorem Ok.activeBytes_eq_nil (h : b.Ok) : b.activeBytes = [] ↔ b.activeSize = 0 := by
  rw [← h.length_activeBytes, List.length_eq_zero_iff]

theorem activeBytes_of_rpos (h : b.rpos = 0) : b.activeBytes = b.storage.take b.wpos := by
  unfold activeBytes readPointer activeSize
  rw [h, List.drop_zero, Nat.sub_zero]

theorem readPointer_of_le (h : n ≤ b.activeSize) : b.readPointer n = b.activeBytes.take n := by
  unfold activeBytes readPointer
  rw [List.take_take, Nat.min_eq_left h]

theorem Ok.readCompleted (h : b.Ok) (hn : n ≤ b.activeSize) : (b.readCompleted n).Ok := by
  have hr := h.read_le
  unfold activeSize at hn
  refine ⟨?_, h.write_le⟩
  show b.rpos + n ≤ b.wpos
  omega

theorem activeSize_readCompleted : (b.readCompleted n).activeSize = b.activeSize - n :=
  Nat.sub_add_eq ..

theorem activeBytes_readCompleted :
    (b.readCompleted n).activeBytes = b.activeBytes.drop n := by
  unfold activeBytes readPointer
  rw [activeSize_readCompleted]
  show (b.storage.drop (b.rpos + n)).take _ = _
  rw [List.drop_take, List.drop_drop]

/-- What fits is written behind the active bytes. -/
theorem Ok.write (h : b.Ok) (hfit : x.length ≤ b.remainingSpace) :
    ∃ b', b.write x = some b' ∧ b'.Ok ∧ b'.wpos = b.wpos + x.length ∧ b'.rpos = b.rpos ∧
      b'.storage.length = b.storage.length ∧ b'.activeBytes = b.activeBytes ++ x := by
  have hr := h.read_le
  have hw := h.write_le
  unfold remainingSpace at hfit
  unfold MessageBuffer.write
  split <;> rename_i hempty
  · rw [List.length_eq_zero_iff] at hempty
    subst hempty
    exact ⟨b, rfl, h, rfl, rfl, rfl, (List.append_nil _).symm⟩
  · rw [if_neg (by omega)]
    have hlen : (b.storage.take b.wpos ++ x ++
        b.storage.drop (b.wpos + x.length)).length = b.storage.length := by
      simp only [List.length_append, List.length_take, List.length_drop]
      omega
    refine ⟨_, rfl, ⟨?_, ?_⟩, rfl, rfl, hlen, ?_⟩
    · show b.rpos ≤ b.wpos + x.length
      omega
    · show b.wpos + x.length ≤ (b.storage.take b.wpos ++ x ++
        b.storage.drop (b.wpos + x.length)).length
      omega
    · have hsplit : b.wpos + x.length - b.rpos = b.wpos - b.rpos + x.length := by omega
      have htake : (b.storage.take b.wpos).length = b.wpos := List.length_take_of_le hw
      unfold activeBytes readPointer activeSize
      dsimp only
      rw [List.append_assoc, List.drop_append_of_le_length (by omega), hsplit, List.drop_take]
      rw [← List.append_assoc, List.take_append_of_le_length, List.take_of_length_le]
      · rw [List.length_append, List.length_take, List.length_drop]
        omega
      · rw [List.length_append, List.length_take, List.length_drop]
        omega

theorem normalize_of_rpos (h : b.rpos = 0) : b.normalize = b := by
  unfold normalize
  rw [if_neg (not_not.2 h)]

/-- Normalizing and making room keep the active bytes. -/
theorem Ok.normalize (h : b.Ok) : b.normalize.Ok ∧ b.normalize.activeBytes = b.activeBytes := by
  by_cases hzero : b.rpos = 0
  · rw [normalize_of_rpos hzero]
    exact ⟨h, rfl⟩
  · unfold MessageBuffer.normalize
    rw [if_pos hzero]
    by_cases hempty : b.rpos = b.wpos
    · have hnil : b.activeBytes = [] := h.activeBytes_eq_nil.2 (by unfold activeSize; omega)
      rw [if_neg (not_not.2 hempty), hnil]
      refine ⟨⟨Nat.zero_le _, ?_⟩, ?_⟩
      · show b.wpos - b.rpos ≤ b.storage.length
        omega
      · rw [activeBytes_of_rpos rfl]
        show b.storage.take (b.wpos - b.rpos) = []
        rw [hempty, Nat.sub_self, List.take_zero]
    · rw [if_pos hempty]
      have hlen := h.length_activeBytes
      have hsize : b.activeSize = b.wpos - b.rpos := rfl
      refine ⟨⟨Nat.zero_le _, ?_⟩, ?_⟩
      · show b.wpos - b.rpos ≤ (b.activeBytes ++ b.storage.drop b.activeSize).length
        rw [List.length_append]
        omega
      · rw [activeBytes_of_rpos rfl]
        show (b.activeBytes ++ b.storage.drop b.activeSize).take (b.wpos - b.rpos) = _
        rw [List.take_append_of_le_length (by omega), List.take_of_length_le (by omega)]

theorem Ok.resize (h : b.Ok) (hn : b.storage.length ≤ n) :
    (b.resize n).Ok ∧ (b.resize n).activeBytes = b.activeBytes := by
  have hr := h.read_le
  have hw := h.write_le
  have hstorage : (b.resize n).storage =
      b.storage ++ List.replicate (n - b.storage.length) 0 := by
    unfold MessageBuffer.resize
    rw [List.take_of_length_le hn]
  refine ⟨⟨hr, ?_⟩, ?_⟩
  · rw [hstorage, List.length_append]
    show b.wpos ≤ _
    omega
  · unfold activeBytes readPointer
    rw [hstorage]
    show ((b.storage ++ _).drop b.rpos).take b.activeSize = _
    unfold activeSize
    rw [List.drop_append_of_le_length (by omega), List.take_append_of_le_length]
    rw [List.length_drop]
    omega

theorem Ok.ensureFreeSpace (h : b.Ok) :
    b.ensureFreeSpace.Ok ∧ b.ensureFreeSpace.activeBytes = b.activeBytes := by
  unfold MessageBuffer.ensureFreeSpace
  split
  · exact h.resize (by omega)
  · exact ⟨h, rfl⟩

/-- An unused buffer is given a size. -/
theorem resize_of_wpos (hw : b.wpos = 0) (hr : b.rpos = 0) (n : Nat) :
    (b.resize n).Ok ∧ (b.resize n).storage.length = n ∧ (b.resize n).activeBytes = [] := by
  have hlen : (b.resize n).storage.length = n := by
    unfold MessageBuffer.resize
    rw [List.length_append, List.length_take, List.length_replicate]
    omega
  have hok : (b.resize n).Ok := by
    refine ⟨?_, ?_⟩
    · show b.rpos ≤ b.wpos
      omega
    · show b.wpos ≤ _
      omega
  refine ⟨hok, hlen, hok.activeBytes_eq_nil.2 ?_⟩
  show b.wpos - b.rpos = 0
  omega

end MessageBuffer

end Sunstrider.Sockets
