import Sunstrider.Maps.InstanceIds

/-!
# No id is given out twice

An id that is handed out should be neither one of a saved instance nor one that
is still out. `Sound` is what makes it so from one event to the next: the bits
are those of the ids given out, and the next id is the least whose bit is not
set. The saved ids have no bit, because nothing registers them at the start, so
they are safe only while the ids given out stay below all of them. `StartOk` and
`EventOk` say just that: id 1 is not saved, and whenever an id is generated two
ids below every saved one are free, one to return and one to be the next.

The search runs from the next id on and everything below it is given out, so the
ids given out and the next one are never past the bits by more than one place;
the arithmetic of the new size then always makes room for the id returned.
-/

namespace Sunstrider.Maps

namespace MapManager

variable {alloc : Nat → Nat → Nat}

variable {m : MapManager} {n : Nat}

/-! ## The operations on the bits -/

/-- The loop finds the first free id, when there is one within its range. -/
theorem findFree_spec {bits : List Bool} {j : Nat} (hfree : bits[j]? ≠ some true) :
    ∀ (fuel i : Nat), i ≤ j → j < i + fuel →
      ∃ k, findFree bits i fuel = some k ∧ i ≤ k ∧ k ≤ j ∧ bits[k]? ≠ some true ∧
        ∀ n, i ≤ n → n < k → bits[n]? = some true := by
  intro fuel
  induction fuel with
  | zero =>
      intro i hij hj
      omega
  | succ fuel ih =>
      intro i hij hj
      rw [findFree]
      split <;> rename_i hbit
      · have hne : i ≠ j := by
          intro heq
          exact hfree (heq ▸ hbit)
        obtain ⟨k, hk, hik, hkj, hkfree, hbelow⟩ := ih (i + 1) (by omega) (by omega)
        refine ⟨k, hk, by omega, hkj, hkfree, ?_⟩
        intro n hin hnk
        rcases Nat.eq_or_lt_of_le hin with heq | hlt
        · exact heq ▸ hbit
        · exact hbelow n hlt hnk
      · refine ⟨i, rfl, Nat.le_refl i, hij, hbit, ?_⟩
        intro n hin hni
        omega

theorem resize_length (hn : m.instanceIds.length ≤ n) :
    (m.resize alloc n).instanceIds.length = n := by
  simp only [resize, List.length_append, List.length_take, List.length_replicate]
  omega

theorem resize_bit (hn : m.instanceIds.length ≤ n) (i : Nat) :
    (m.resize alloc n).instanceIds[i]? = some true ↔ m.instanceIds[i]? = some true := by
  simp only [resize, List.take_of_length_le hn]
  rcases Nat.lt_or_ge i m.instanceIds.length with hi | hi
  · rw [List.getElem?_append_left hi]
  · rw [List.getElem?_append_right hi, List.getElem?_eq_none hi, List.getElem?_replicate]
    split <;> simp

/-- Storage in whole words, enough of it. -/
def Storage (m : MapManager) : Prop := m.instanceIds.length ≤ m.capacity ∧ 32 ∣ m.capacity

theorem resize_storage (halloc : ∀ c n, n ≤ alloc c n ∧ 32 ∣ alloc c n) (hm : 32 ∣ m.capacity)
    (hn : m.instanceIds.length ≤ n) : (m.resize alloc n).Storage := by
  refine ⟨?_, ?_⟩
  · rw [resize_length hn]
    simp only [resize]
    split <;> rename_i h
    · exact h
    · exact (halloc m.capacity n).1
  · simp only [resize]
    split
    · exact hm
    · exact (halloc m.capacity n).2

/-- Setting a bit within the size does that and nothing else. -/
theorem setBit_spec (m : MapManager) {i : Nat} (hi : i < m.instanceIds.length) (b : Bool) :
    ∃ m', m.setBit i b = some m' ∧ m'.instanceIds.length = m.instanceIds.length ∧
      m'.capacity = m.capacity ∧ m'.nextInstanceId = m.nextInstanceId ∧
      ∀ j, m'.instanceIds[j]? = if i = j then some b else m.instanceIds[j]? := by
  refine ⟨{ m with instanceIds := m.instanceIds.set i b }, ?_, ?_, rfl, rfl, ?_⟩
  · rw [setBit, if_pos hi]
  · simp
  · intro j
    show (m.instanceIds.set i b)[j]? = _
    rw [List.getElem?_set]
    split <;> rename_i heq
    · simp
    · rfl

/-- Whichever size is chosen, it has room for the id returned, and no bit is lost. -/
theorem allocateFor_spec (halloc : ∀ c n, n ≤ alloc c n ∧ 32 ∣ alloc c n) (m : MapManager)
    (newInstanceId : Nat) (hm : m.Storage) (hsize : m.instanceIds.length < pow32)
    (hnew : newInstanceId ≤ m.instanceIds.length) (hpos : 1 ≤ m.instanceIds.length) :
    newInstanceId < (m.allocateFor alloc newInstanceId).instanceIds.length ∧
      m.instanceIds.length ≤ (m.allocateFor alloc newInstanceId).instanceIds.length ∧
      (m.allocateFor alloc newInstanceId).Storage ∧
      (m.allocateFor alloc newInstanceId).nextInstanceId = m.nextInstanceId ∧
      ∀ i : Nat, (m.allocateFor alloc newInstanceId).instanceIds[i]? = some true ↔
        m.instanceIds[i]? = some true := by
  obtain ⟨hcap, hwords⟩ := hm
  rw [allocateFor, Nat.mod_eq_of_lt hsize]
  split <;> rename_i hlen
  · split <;> rename_i hgrow
    · refine ⟨?_, ?_, resize_storage halloc hwords hcap, rfl, resize_bit hcap⟩
      · rw [resize_length hcap]
        omega
      · rw [resize_length hcap]
        exact hcap
    · -- size and capacity are both the id, a whole number of words
      have heq : newInstanceId = m.instanceIds.length := by omega
      have hmod : m.instanceIds.length % 32 = 0 := by omega
      have hn : (1 + newInstanceId / 32 * 32 + if 0 < newInstanceId % 32 then 32 else 0) % pow32
          = m.instanceIds.length + 1 := by
        rw [heq, hmod, pow32] at *
        simp only [Nat.lt_irrefl, if_false]
        omega
      rw [hn]
      have hle : m.instanceIds.length ≤ m.instanceIds.length + 1 := by omega
      refine ⟨?_, ?_, resize_storage halloc hwords hle, rfl, resize_bit hle⟩
      · rw [resize_length hle]
        omega
      · rw [resize_length hle]
        exact hle
  · exact ⟨by omega, Nat.le_refl _, ⟨hcap, hwords⟩, rfl, fun i => Iff.rfl⟩

end MapManager

namespace InstanceWorld

open MapManager

variable {alloc : Nat → Nat → Nat}

variable {w : InstanceWorld} {ids : List Nat}

/-! ## What is claimed of a run -/

/-- The server once the instance table `ids` has been loaded. -/
def start (alloc : Nat → Nat → Nat) (ids : List Nat) : Option InstanceWorld :=
  (loadInstances alloc ids).map fun m => ⟨m, ids, []⟩

/-- The next id is free, and so is the one a call would return. -/
def Safe (alloc : Nat → Nat → Nat) (w : InstanceWorld) : Prop :=
  ¬ w.InUse w.mgr.nextInstanceId ∧
    ∀ r, w.mgr.generateInstanceId alloc = some r → ¬ w.InUse r.1

/-- Every state of the run is safe, and no event of it reaches past the bits. -/
def SafeRun (alloc : Nat → Nat → Nat) : InstanceWorld → List IdEvent → Prop
  | w, [] => w.Safe alloc
  | w, e :: es => w.Safe alloc ∧ ∃ w', w.step alloc e = some w' ∧ SafeRun alloc w' es

/-- Two ids below every saved one are free at the next id: itself and another. -/
def Room (w : InstanceWorld) : Prop :=
  ∃ j, w.mgr.nextInstanceId < j ∧ j < 0xFFFFFFFF ∧ ¬ w.InUse j ∧ ∀ s ∈ w.saved, j < s

/-- An id that is freed is in use; one is generated only while there is room. -/
def EventOk (w : InstanceWorld) (e : IdEvent) : Prop :=
  match e with
  | .generate => w.Room ∧ w.mgr.instanceIds.length < pow32
  | .free id => w.InUse id

def EventsOk (alloc : Nat → Nat → Nat) : InstanceWorld → List IdEvent → Prop
  | _, [] => True
  | w, e :: es => w.EventOk e ∧ ∀ w', w.step alloc e = some w' → EventsOk alloc w' es

/-- Id 1 is not saved, and the size of the bits does not wrap around. -/
def StartOk (ids : List Nat) : Prop := 1 ∉ ids ∧ ∀ id ∈ ids, id ≤ pow32 - 32

/-- What every event keeps: the bits are those of the ids given out, everything
below the next id is given out, and the saved ids are within the bits. -/
structure Sound (w : InstanceWorld) : Prop where
  bits : ∀ i, w.mgr.instanceIds[i]? = some true ↔ i ∈ w.live
  below : ∀ i, 1 ≤ i → i < w.mgr.nextInstanceId → i ∈ w.live
  next_pos : 1 ≤ w.mgr.nextInstanceId
  next_live : w.mgr.nextInstanceId ∉ w.live
  next_saved : w.mgr.nextInstanceId ∉ w.saved
  live_pos : ∀ id ∈ w.live, 1 ≤ id
  saved_pos : ∀ id ∈ w.saved, 1 ≤ id
  saved_in : ∀ id ∈ w.saved, id < w.mgr.instanceIds.length
  apart : ∀ id ∈ w.saved, id ∉ w.live
  size_pos : 1 ≤ w.mgr.instanceIds.length
  storage : w.mgr.Storage

/-- The next id is at most one past the bits. -/
theorem Sound.next_le (h : w.Sound) : w.mgr.nextInstanceId ≤ w.mgr.instanceIds.length := by
  rcases Nat.eq_or_lt_of_le h.next_pos with heq | hlt
  · rw [← heq]
    exact h.size_pos
  · have hlive := h.below (w.mgr.nextInstanceId - 1) (by omega) (by omega)
    have hbit := (h.bits _).2 hlive
    obtain ⟨hlen, -⟩ := List.getElem?_eq_some_iff.1 hbit
    omega

/-! ## One event -/

/-- With room, `GenerateInstanceId` returns the next id and moves on to the least
id above it that is free. -/
theorem generateInstanceId_spec (halloc : ∀ c n, n ≤ alloc c n ∧ 32 ∣ alloc c n) (h : w.Sound)
    (hroom : w.Room) (hsize : w.mgr.instanceIds.length < pow32) :
    ∃ m', w.mgr.generateInstanceId alloc = some (w.mgr.nextInstanceId, m') ∧
      w.mgr.instanceIds.length ≤ m'.instanceIds.length ∧ m'.Storage ∧
      w.mgr.nextInstanceId < m'.nextInstanceId ∧
      m'.nextInstanceId ∉ w.live ∧ (∀ s ∈ w.saved, m'.nextInstanceId < s) ∧
      (∀ i, w.mgr.nextInstanceId < i → i < m'.nextInstanceId → i ∈ w.live) ∧
      ∀ i, m'.instanceIds[i]? = some true ↔ i = w.mgr.nextInstanceId ∨ i ∈ w.live := by
  obtain ⟨j, hj, hjmax, hjfree, hjsaved⟩ := hroom
  have hnext := h.next_le
  have hi : (w.mgr.nextInstanceId + 1) % pow32 = w.mgr.nextInstanceId + 1 := by
    rw [pow32] at *
    omega
  have hjbit : w.mgr.instanceIds[j]? ≠ some true := by
    intro hbit
    exact hjfree (.inr ((h.bits j).1 hbit))
  obtain ⟨k, hk, hik, hkj, hkfree, hbelow⟩ := findFree_spec hjbit
    (0xFFFFFFFF - (w.mgr.nextInstanceId + 1)) (w.mgr.nextInstanceId + 1) (by omega) (by omega)
  have hspec := allocateFor_spec halloc { w.mgr with nextInstanceId := k }
    w.mgr.nextInstanceId h.storage hsize hnext h.size_pos
  obtain ⟨hlt, hlen, hstorage, hnextk, hbits⟩ := hspec
  obtain ⟨m', hset, hlen', hcap', hnext', hbits'⟩ := setBit_spec _ hlt true
  refine ⟨m', ?_, ?_, ?_, ?_, ?_, ?_, ?_, ?_⟩
  · simp only [generateInstanceId, hi, hk, Option.getD_some, hset, Option.map_some]
  · rw [hlen']
    exact hlen
  · rw [Storage, hlen', hcap']
    exact hstorage
  · rw [hnext', hnextk]
    exact Nat.lt_of_succ_le hik
  · rw [hnext', hnextk]
    intro hlive
    exact hkfree ((h.bits k).2 hlive)
  · intro s hs
    rw [hnext', hnextk]
    exact Nat.lt_of_le_of_lt hkj (hjsaved s hs)
  · intro i hni hik
    rw [hnext', hnextk] at hik
    exact (h.bits i).1 (hbelow i hni hik)
  · intro i
    rw [hbits' i]
    split <;> rename_i heq
    · simp [heq]
    · rw [hbits i, h.bits i]
      constructor
      · exact .inr
      · intro hor
        exact hor.resolve_left fun heq' => heq heq'.symm

theorem generateInstanceId_fst {m : MapManager} {r : Nat × MapManager}
    (hr : m.generateInstanceId alloc = some r) : r.1 = m.nextInstanceId := by
  rw [generateInstanceId, Option.map_eq_some_iff] at hr
  obtain ⟨m', -, heq⟩ := hr
  rw [← heq]

/-- A sound state is a safe one. -/
theorem Sound.safe (h : w.Sound) : w.Safe alloc := by
  have hnext : ¬ w.InUse w.mgr.nextInstanceId := by
    intro huse
    rcases huse with hsaved | hlive
    · exact h.next_saved hsaved
    · exact h.next_live hlive
  refine ⟨hnext, ?_⟩
  intro r hr
  rw [generateInstanceId_fst hr]
  exact hnext

theorem Sound.generate (halloc : ∀ c n, n ≤ alloc c n ∧ 32 ∣ alloc c n) (h : w.Sound)
    (hroom : w.Room) (hsize : w.mgr.instanceIds.length < pow32) :
    ∃ w', w.step alloc .generate = some w' ∧ w'.Sound := by
  obtain ⟨m', hgen, hlen, hstorage, hnext, hlive, hsaved, hbelow, hbits⟩ :=
    generateInstanceId_spec halloc h hroom hsize
  refine ⟨⟨m', w.saved, w.mgr.nextInstanceId :: w.live⟩, ?_, ?_⟩
  · simp only [step, hgen, Option.map_some]
  · have hpos := h.next_pos
    have hsize' := h.size_pos
    refine ⟨?_, ?_, by show 1 ≤ m'.nextInstanceId; omega, ?_, ?_, ?_, h.saved_pos, ?_, ?_,
      by show 1 ≤ m'.instanceIds.length; omega, hstorage⟩
    · intro i
      rw [List.mem_cons]
      exact hbits i
    · intro i hi hlt
      rw [List.mem_cons]
      rcases Nat.lt_trichotomy i w.mgr.nextInstanceId with hltn | heq | hgt
      · exact .inr (h.below i hi hltn)
      · exact .inl heq
      · exact .inr (hbelow i hgt hlt)
    · intro hmem
      rcases List.mem_cons.1 hmem with heq | hmem
      · exact absurd heq (by show m'.nextInstanceId ≠ _; omega)
      · exact hlive hmem
    · intro hmem
      exact Nat.lt_irrefl _ (hsaved _ hmem)
    · intro id hmem
      rcases List.mem_cons.1 hmem with heq | hmem
      · exact heq ▸ hpos
      · exact h.live_pos id hmem
    · intro id hmem
      exact Nat.lt_of_lt_of_le (h.saved_in id hmem) hlen
    · intro id hmem hmem'
      rcases List.mem_cons.1 hmem' with heq | hmem'
      · exact h.next_saved (heq ▸ hmem)
      · exact h.apart id hmem hmem'

/-- An id in use is within the bits, and freeing it leaves the next id the least
one free. -/
theorem Sound.free (h : w.Sound) {id : Nat} (huse : w.InUse id) :
    ∃ w', w.step alloc (.free id) = some w' ∧ w'.Sound := by
  have hin : id < w.mgr.instanceIds.length := by
    rcases huse with hsaved | hlive
    · exact h.saved_in id hsaved
    · obtain ⟨hlt, -⟩ := List.getElem?_eq_some_iff.1 ((h.bits id).2 hlive)
      exact hlt
  have hpos : 1 ≤ id := by
    rcases huse with hsaved | hlive
    · exact h.saved_pos id hsaved
    · exact h.live_pos id hlive
  obtain ⟨m1, hm1, hbits1, hcap1, hnext1⟩ : ∃ m1 : MapManager,
      (if id < w.mgr.nextInstanceId then { w.mgr with nextInstanceId := id } else w.mgr) = m1 ∧
        m1.instanceIds = w.mgr.instanceIds ∧ m1.capacity = w.mgr.capacity ∧
        m1.nextInstanceId = min id w.mgr.nextInstanceId := by
    split <;> rename_i hlt
    · exact ⟨_, rfl, rfl, rfl, by show id = _; omega⟩
    · exact ⟨_, rfl, rfl, rfl, by omega⟩
  obtain ⟨m', hset, hlen', hcap', hnext', hbits'⟩ :=
    setBit_spec m1 (hbits1 ▸ hin) false
  have hnextm : m'.nextInstanceId = min id w.mgr.nextInstanceId := by rw [hnext', hnext1]
  have hlenm : m'.instanceIds.length = w.mgr.instanceIds.length := by rw [hlen', hbits1]
  have hcapm : m'.capacity = w.mgr.capacity := by rw [hcap', hcap1]
  refine ⟨⟨m', w.saved.filter (· ≠ id), w.live.filter (· ≠ id)⟩, ?_, ?_⟩
  · simp only [step, freeInstanceId, hm1, hset, Option.map_some]
  · have hmin : min id w.mgr.nextInstanceId = id ∨
        min id w.mgr.nextInstanceId = w.mgr.nextInstanceId := by omega
    refine ⟨?_, ?_, ?_, ?_, ?_, ?_, ?_, ?_, ?_, ?_, ?_⟩
    · intro i
      show m'.instanceIds[i]? = some true ↔ i ∈ w.live.filter (· ≠ id)
      rw [hbits' i, hbits1, List.mem_filter]
      split <;> rename_i heq
      · simp [heq]
      · rw [h.bits i]
        simp [Ne.symm heq]
    · intro i hi hlt
      replace hlt : i < m'.nextInstanceId := hlt
      rw [hnextm] at hlt
      have hlive := h.below i hi (by omega)
      have hne : i ≠ id := by omega
      simpa [hne] using hlive
    · show 1 ≤ m'.nextInstanceId
      have := h.next_pos
      omega
    · show m'.nextInstanceId ∉ w.live.filter (· ≠ id)
      rw [hnextm]
      rcases hmin with heq | heq
      · simp [heq]
      · simp [heq, h.next_live]
    · show m'.nextInstanceId ∉ w.saved.filter (· ≠ id)
      rw [hnextm]
      rcases hmin with heq | heq
      · simp [heq]
      · simp [heq, h.next_saved]
    · intro i hi
      exact h.live_pos i (List.mem_filter.1 hi).1
    · intro i hi
      exact h.saved_pos i (List.mem_filter.1 hi).1
    · intro i hi
      show i < m'.instanceIds.length
      rw [hlenm]
      exact h.saved_in i (List.mem_filter.1 hi).1
    · intro i hi hi'
      exact h.apart i (List.mem_filter.1 hi).1 (List.mem_filter.1 hi').1
    · show 1 ≤ m'.instanceIds.length
      rw [hlenm]
      exact h.size_pos
    · show m'.Storage
      rw [Storage, hlenm, hcapm]
      exact h.storage

/-! ## A run from the start -/

theorem foldr_max_le {b : Nat} (h : ∀ id ∈ ids, id ≤ b) : ids.foldr max 0 ≤ b := by
  induction ids with
  | nil => exact Nat.zero_le b
  | cons id ids ih =>
      have hhead := h id (by simp)
      have htail := ih fun i hi => h i (List.mem_cons_of_mem id hi)
      exact Nat.max_le.2 ⟨hhead, htail⟩

theorem le_foldr_max {id : Nat} (h : id ∈ ids) : id ≤ ids.foldr max 0 := by
  induction ids with
  | nil => simp at h
  | cons i ids ih =>
      show id ≤ max i (ids.foldr max 0)
      rcases List.mem_cons.1 h with heq | hmem
      · omega
      · have := ih hmem
        omega

/-- The bits have room for every saved id, as long as the size does not wrap. -/
theorem initSize_gt {maxId : Nat} (h : maxId ≤ pow32 - 32) :
    maxId < (maxId / 32 * 32 + if 0 < maxId % 32 then 32 else 1) % pow32 := by
  rw [pow32] at *
  split <;> omega

theorem start_sound (halloc : ∀ c n, n ≤ alloc c n ∧ 32 ∣ alloc c n) (hids : ∀ id ∈ ids, 1 ≤ id)
    (hok : StartOk ids) : ∃ w, start alloc ids = some w ∧ w.Sound := by
  obtain ⟨hone, hmax⟩ := hok
  have hsize := initSize_gt (foldr_max_le hmax)
  refine ⟨⟨initInstanceIds alloc ids, ids, []⟩, rfl, ?_⟩
  have hnext : (initInstanceIds alloc ids).nextInstanceId = 1 := rfl
  have hlen : ids.foldr max 0 < (initInstanceIds alloc ids).instanceIds.length := by
    rw [initInstanceIds, resize_length (Nat.zero_le _)]
    exact hsize
  refine ⟨?_, ?_, by show 1 ≤ 1; omega, by simp, hone, by simp, hids, ?_, by simp, ?_, ?_⟩
  · intro i
    rw [initInstanceIds, resize_bit (Nat.zero_le _)]
    simp
  · intro i hi hlt
    exact absurd hlt (by rw [hnext]; omega)
  · intro id hid
    exact Nat.lt_of_le_of_lt (le_foldr_max hid) hlen
  · show 1 ≤ (initInstanceIds alloc ids).instanceIds.length
    omega
  · exact resize_storage halloc (Nat.dvd_zero 32) (Nat.zero_le _)

theorem Sound.safeRun (halloc : ∀ c n, n ≤ alloc c n ∧ 32 ∣ alloc c n) {es : List IdEvent} :
    ∀ {w : InstanceWorld}, w.Sound → EventsOk alloc w es → SafeRun alloc w es := by
  induction es with
  | nil =>
      intro w h _
      exact h.safe
  | cons e es ih =>
      intro w h hok
      obtain ⟨hevent, hrest⟩ := hok
      obtain ⟨w', hstep, hsound⟩ : ∃ w', w.step alloc e = some w' ∧ w'.Sound := by
        cases e with
        | generate => exact h.generate halloc hevent.1 hevent.2
        | free id => exact h.free hevent
      exact ⟨h.safe, w', hstep, ih hsound (hrest w' hstep)⟩

/-- From a start at which id 1 is not saved, a run that frees only ids in use and
generates only while two ids below the saved ones are free is safe throughout. -/
theorem start_safeRun (alloc : Nat → Nat → Nat)
    (halloc : ∀ c n, n ≤ alloc c n ∧ 32 ∣ alloc c n) (ids : List Nat)
    (hids : ∀ id ∈ ids, 1 ≤ id) (es : List IdEvent) (hstart : StartOk ids)
    (hevents : ∀ w, start alloc ids = some w → EventsOk alloc w es) :
    ∃ w, start alloc ids = some w ∧ SafeRun alloc w es := by
  obtain ⟨w, hw, hsound⟩ := start_sound halloc hids hstart
  exact ⟨w, hw, hsound.safeRun halloc (hevents w hw)⟩

/-- Storage in words of 64 bits. -/
def wordStorage (_capacity n : Nat) : Nat := (n + 63) / 64 * 64

theorem wordStorage_spec (c n : Nat) : n ≤ wordStorage c n ∧ 32 ∣ wordStorage c n := by
  rw [wordStorage]
  omega

theorem start_safeRun_five : ∃ w, start wordStorage [5] = some w ∧
    SafeRun wordStorage w [.generate, .free 5, .generate] := by
  refine start_safeRun wordStorage wordStorage_spec [5] (by decide) _
    ⟨by decide, by rw [pow32]; decide⟩ ?_
  intro w hw
  cases hw
  refine ⟨⟨⟨2, by decide, by decide, by decide, by decide⟩, by decide⟩, ?_⟩
  intro w hw
  have hgen : w = ⟨⟨(List.replicate 32 false).set 1 true, 64, 2⟩, [5], [1]⟩ :=
    (Option.some.inj hw).symm
  subst hgen
  refine ⟨.inl (by decide), ?_⟩
  intro w hw
  have hfree : w = ⟨⟨(List.replicate 32 false).set 1 true, 64, 2⟩, [], [1]⟩ :=
    (Option.some.inj hw).symm
  subst hfree
  exact ⟨⟨⟨3, by decide, by decide, by decide, by decide⟩, by decide⟩, fun _ _ => trivial⟩

/-- With id 1 saved, the first id given out is 1. -/
theorem savedOne_givenOut : ∃ w r, start wordStorage [1] = some w ∧ w.InUse 1 ∧
    w.mgr.generateInstanceId wordStorage = some r ∧ r.1 = 1 ∧
      ¬ SafeRun wordStorage w [.generate] := by
  refine ⟨_, _, rfl, .inl (by decide), rfl, rfl, ?_⟩
  intro hsafe
  exact hsafe.1.1 (.inl (by decide))

end InstanceWorld

end Sunstrider.Maps
