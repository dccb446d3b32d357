import Sunstrider.Guilds.LogHolder
import Sunstrider.Lib.Runs

/-!
# What a guild log holds

The entries of a log carry the numbers of the order in which they were made, modulo the size of
the log. So the entries in memory, which are the last ones made, have different numbers, and a
new entry has a number of its own until the log is full, and the number of the oldest entry from
then on: the row it replaces in the table is the row of the entry that drops out of memory. When
the server starts again, the row read first is the last one written, and its number is where the
holder was.
-/

namespace Sunstrider.Guilds

open Lib

variable {K E : Type} [DecidableEq K]

variable {α : Type} {m : Nat} {l : List (LogEntry E)} {accepts : K → E → Bool} {s : Logs K E}

/-! ## Numbers that run round -/

/-- Entry number `i` of all has GUID `i % m`. -/
def Numbered (m : Nat) (l : List (LogEntry E)) : Prop :=
  ∀ i (h : i < l.length), (l.get ⟨i, h⟩).guid.toNat = i % m

/-- The last `m` of a list. -/
def lastOf {α : Type} (m : Nat) (l : List α) : List α := l.drop (l.length - m)

theorem length_lastOf (m : Nat) (l : List α) : (lastOf m l).length = min m l.length := by
  rw [lastOf, List.length_drop]
  omega

theorem lastOf_append (hm : 0 < m) (l : List α) (x : α) :
    lastOf m (l ++ [x]) =
      (if m ≤ (lastOf m l).length then (lastOf m l).tail else lastOf m l) ++ [x] := by
  rw [length_lastOf, lastOf, lastOf, List.length_append, List.length_singleton,
    List.drop_append_of_le_length (by omega)]
  congr 1
  split <;> rename_i hfull
  · rw [List.tail_drop]
    congr 1
    omega
  · congr 1
    omega

theorem getLast?_lastOf (hm : 0 < m) (l : List α) : (lastOf m l).getLast? = l.getLast? := by
  rw [lastOf, List.getLast?_drop]
  split <;> rename_i hlen
  · cases l with
    | nil => rfl
    | cons x l => simp only [List.length_cons] at hlen; omega
  · rfl

theorem Numbered.append (h : Numbered m l) {e : LogEntry E} (he : e.guid.toNat = l.length % m) :
    Numbered m (l ++ [e]) := by
  intro i hi
  rw [List.length_append, List.length_singleton] at hi
  rcases Nat.lt_succ_iff_lt_or_eq.1 hi with hlt | rfl
  · simpa [List.getElem_append_left hlt] using h i hlt
  · simpa using he

theorem Numbered.get_lastOf (h : Numbered m l) (j : Nat) (hj : j < (lastOf m l).length) :
    ((lastOf m l).get ⟨j, hj⟩).guid.toNat = (l.length - m + j) % m := by
  have hlen := hj
  rw [length_lastOf] at hlen
  have hget := h (l.length - m + j) (by omega)
  simpa [lastOf, List.getElem_drop] using hget

theorem eq_of_add_mod {a i j : Nat} (hi : i < m) (hj : j < m) (h : (a + i) % m = (a + j) % m) :
    i = j := by
  have hmod : Nat.ModEq m i j := Nat.ModEq.add_left_cancel' a h
  rwa [Nat.ModEq, Nat.mod_eq_of_lt hi, Nat.mod_eq_of_lt hj] at hmod

/-- Among the last `m` entries no two have the same GUID. -/
theorem Numbered.nodup (h : Numbered m l) : ((lastOf m l).map LogEntry.guid).Nodup := by
  rw [List.nodup_iff_injective_get]
  rintro ⟨i, hi⟩ ⟨j, hj⟩ heq
  rw [List.length_map] at hi hj
  have hguid : ((lastOf m l).get ⟨i, hi⟩).guid.toNat = ((lastOf m l).get ⟨j, hj⟩).guid.toNat := by
    have := congrArg UInt32.toNat heq
    simpa using this
  rw [h.get_lastOf, h.get_lastOf] at hguid
  rw [length_lastOf] at hi hj
  rw [Fin.mk.injEq]
  exact eq_of_add_mod (by omega) (by omega) hguid

/-- The number of the next entry is free until the log is full; then the oldest entry has it. -/
theorem Numbered.filter_guid (h : Numbered m l) (hm : 0 < m) {guid : UInt32}
    (hguid : guid.toNat = l.length % m) :
    (lastOf m l).filter (fun e => !decide (e.guid = guid)) =
      if m ≤ (lastOf m l).length then (lastOf m l).tail else lastOf m l := by
  have hnodup := h.nodup
  split <;> rename_i hfull
  · have hfirst := h.get_lastOf 0 (by omega)
    rw [length_lastOf] at hfull
    cases hlast : lastOf m l with
    | nil => rfl
    | cons oldest rest =>
        have holdest : oldest.guid = guid := by
          rw [← UInt32.toNat_inj, hguid]
          simp only [hlast, List.get_eq_getElem, List.getElem_cons_zero] at hfirst
          rw [hfirst, Nat.add_zero, ← Nat.mod_eq_sub_mod (by omega)]
        rw [hlast, List.map_cons, List.nodup_cons] at hnodup
        rw [List.filter_cons_of_neg (by simpa using holdest), List.tail_cons, List.filter_eq_self]
        intro e he
        have hne : e.guid ≠ guid := by
          rintro heq
          exact hnodup.1 (List.mem_map.2 ⟨e, he, heq.trans holdest.symm⟩)
        simpa using hne
  · rw [length_lastOf] at hfull
    rw [List.filter_eq_self]
    intro e he
    obtain ⟨⟨j, hj⟩, rfl⟩ := List.mem_iff_get.1 he
    have hnumber := h.get_lastOf j hj
    rw [length_lastOf] at hj
    have hne : ((lastOf m l).get ⟨j, by rw [length_lastOf]; exact hj⟩).guid ≠ guid := by
      intro heq
      rw [heq, hguid, Nat.mod_eq_of_lt (by omega), Nat.mod_eq_of_lt (by omega)] at hnumber
      omega
    simpa using hne

/-! ## What holds between the calls -/

/-- The entries of one log among all that were written. -/
def Logs.history (s : Logs K E) (holder : K) : List (LogEntry E) :=
  (s.written.filter fun r => decide (r.holder = holder)).map LogRow.entry

/-- The rows of one log. -/
def Logs.rowsOf (table : List (LogRow K E)) (holder : K) : List (LogEntry E) :=
  (table.filter fun r => decide (r.holder = holder)).map LogRow.entry

theorem Logs.rowsOf_cons (r : LogRow K E) (rows : List (LogRow K E)) (k : K) :
    rowsOf (r :: rows) k = if r.holder = k then r.entry :: rowsOf rows k else rowsOf rows k := by
  by_cases hk : r.holder = k
  · simp [rowsOf, hk]
  · simp [rowsOf, hk]

/-- Between two calls. -/
structure Logs.Sound (accepts : K → E → Bool) (s : Logs K E) : Prop where
  limit : ∀ k, (s.holders k).maxRecords = s.maxRecords
  numbered : ∀ k, Numbered s.maxRecords.toNat (s.history k)
  log : ∀ k, (s.holders k).log = lastOf s.maxRecords.toNat (s.history k)
  rows : ∀ k, Logs.rowsOf s.table k = (s.holders k).log
  next : ∀ k, (s.holders k).nextGUID =
    ((s.history k).getLast?.map LogEntry.guid).getD guildEventLogGuidUndefined
  accepted : ∀ r ∈ s.table, accepts r.holder r.entry.event = true

theorem Logs.init_sound (accepts : K → E → Bool) (maxRecords : UInt32) :
    (init maxRecords : Logs K E).Sound accepts where
  limit _ := rfl
  numbered _ := fun _ h => absurd h (Nat.not_lt_zero _)
  log _ := by simp [init, LogHolder.new, history, lastOf]
  rows _ := rfl
  next _ := rfl
  accepted _ h := by cases h

/-- The number the next entry of a log gets. -/
theorem Logs.Sound.getNextGUID (h : s.Sound accepts) (hm : 0 < s.maxRecords) (k : K) :
    (s.holders k).getNextGUID.2.toNat = (s.history k).length % s.maxRecords.toNat := by
  have hnext := h.next k
  rw [LogHolder.getNextGUID]
  dsimp only
  rcases List.eq_nil_or_concat (s.history k) with hnil | ⟨front, last, hhist⟩
  · rw [hnil] at hnext ⊢
    rw [if_pos (show (s.holders k).nextGUID = guildEventLogGuidUndefined from hnext)]
    simp
  · have hlast : last.guid.toNat = front.length % s.maxRecords.toNat := by
      have := h.numbered k front.length (by rw [hhist]; simp)
      simpa [hhist] using this
    have hpos : 0 < s.maxRecords.toNat := by simpa using UInt32.lt_iff_toNat_lt.1 hm
    have hlt := Nat.mod_lt front.length hpos
    have hmax := s.maxRecords.toNat_lt
    rw [hhist] at hnext
    simp only [List.concat_eq_append, List.getLast?_append, List.getLast?_singleton,
      Option.some_or, Option.map_some, Option.getD_some] at hnext
    have hdef : (s.holders k).nextGUID ≠ guildEventLogGuidUndefined := by
      rw [hnext, ne_eq, ← UInt32.toNat_inj, hlast]
      have : guildEventLogGuidUndefined.toNat = 2 ^ 32 - 1 := rfl
      omega
    rw [if_neg hdef, h.limit, hnext, UInt32.toNat_mod, UInt32.toNat_add, hlast, hhist]
    have hone : (1 : UInt32).toNat = 1 := rfl
    rw [hone, Nat.mod_eq_of_lt (by omega : front.length % s.maxRecords.toNat + 1 < 2 ^ 32),
      List.concat_eq_append, List.length_append, List.length_singleton, Nat.mod_add_mod]

/-! ## A new entry -/

theorem Logs.rowsOf_saveToDB (table : List (LogRow K E)) (row : LogRow K E) (k : K) :
    rowsOf (saveToDB table row) k =
      if k = row.holder then
        (rowsOf table k).filter (fun e => !decide (e.guid = row.entry.guid)) ++ [row.entry]
      else rowsOf table k := by
  rw [rowsOf, rowsOf, saveToDB, List.filter_append, List.filter_filter]
  split <;> rename_i hk
  · subst hk
    rw [List.filter_map, List.filter_filter, List.map_append]
    congr 1
    · congr 1
      refine List.filter_congr fun r _ => ?_
      by_cases hr : r.holder = row.holder
      · simp [hr]
      · simp [hr]
    · simp
  · have hother : [row].filter (fun r => decide (r.holder = k)) = [] := by
      simpa using fun h => hk h.symm
    rw [hother, List.append_nil]
    congr 1
    refine List.filter_congr fun r _ => ?_
    by_cases hr : r.holder = k
    · simp [hr, fun h => hk h]
    · simp [hr]

theorem Logs.history_logEvent (s : Logs K E) (holder : K) (time : Nat) (event : E) (k : K) :
    (s.logEvent holder time event).history k =
      if k = holder then
        s.history k ++ [⟨(s.holders holder).getNextGUID.2, time, event⟩]
      else s.history k := by
  rw [history, history]
  show List.map LogRow.entry (List.filter _ (s.written ++ [_])) = _
  rw [List.filter_append, List.map_append]
  by_cases hk : k = holder
  · simp [hk, LogHolder.getNextGUID]
  · have hne : ¬ holder = k := fun h => hk h.symm
    simp [hk, hne]

theorem Logs.Sound.logEvent (h : s.Sound accepts) (hm : 0 < s.maxRecords) {holder : K} {event : E}
    (haccepts : accepts holder event = true) (time : Nat) :
    (s.logEvent holder time event).Sound accepts := by
  have hpos : 0 < s.maxRecords.toNat := by simpa using UInt32.lt_iff_toNat_lt.1 hm
  have hguid := h.getNextGUID hm holder
  have hhist := s.history_logEvent holder time event
  have hholders : ∀ k, (s.logEvent holder time event).holders k =
      if k = holder then
        (s.holders holder).getNextGUID.1.addEvent
          ⟨(s.holders holder).getNextGUID.2, time, event⟩
      else s.holders k := fun k => Function.update_apply _ _ _ _
  have hmax : (s.logEvent holder time event).maxRecords = s.maxRecords := rfl
  have htable : (s.logEvent holder time event).table =
      saveToDB s.table ⟨holder, ⟨(s.holders holder).getNextGUID.2, time, event⟩⟩ := rfl
  -- the list in memory loses its first entry when it is full
  have hlog : ∀ k, ((s.logEvent holder time event).holders k).log =
      lastOf s.maxRecords.toNat ((s.logEvent holder time event).history k) := by
    intro k
    rw [hholders, hhist]
    split <;> rename_i hk
    · subst hk
      rw [lastOf_append hpos, ← h.log, ← h.limit k]
      rfl
    · exact h.log k
  constructor
  case limit =>
    intro k
    rw [hholders, hmax]
    split <;> rename_i hk
    · subst hk
      exact h.limit k
    · exact h.limit k
  case numbered =>
    intro k
    rw [hhist, hmax]
    split <;> rename_i hk
    · subst hk
      exact (h.numbered k).append hguid
    · exact h.numbered k
  case log => exact hlog
  case rows =>
    intro k
    rw [hlog, htable, rowsOf_saveToDB, hhist, h.rows]
    dsimp only
    split <;> rename_i hk
    · subst hk
      rw [lastOf_append hpos, h.log, (h.numbered k).filter_guid hpos hguid]
    · exact h.log k
  case next =>
    intro k
    rw [hholders, hhist]
    split <;> rename_i hk
    · simp [LogHolder.addEvent, LogHolder.getNextGUID]
    · exact h.next k
  case accepted =>
    intro r hr
    rw [htable, saveToDB, List.mem_append, List.mem_filter, List.mem_singleton] at hr
    rcases hr with ⟨hr, -⟩ | rfl
    · exact h.accepted r hr
    · exact haccepts

/-! ## Starting again -/

/-- Reading rows into one holder. -/
def LogHolder.loadRows (h : LogHolder E) (rows : List (LogEntry E)) : LogHolder E :=
  rows.foldl (fun h e => if h.canInsert then h.loadEvent e else h) h

theorem foldl_loadRow (accepts : K → E → Bool) (rows : List (LogRow K E)) (k : K)
    (haccepts : ∀ r ∈ rows, accepts r.holder r.entry.event = true) (holders : K → LogHolder E) :
    rows.foldl (Logs.loadRow accepts) holders k =
      (holders k).loadRows (Logs.rowsOf rows k) := by
  induction rows generalizing holders with
  | nil => rfl
  | cons r rows ih =>
      rw [List.foldl_cons, ih (fun r hr => haccepts r (List.mem_cons_of_mem _ hr)),
        Logs.loadRow, haccepts r List.mem_cons_self, Bool.true_and]
      by_cases hk : r.holder = k
      · subst hk
        rw [Logs.rowsOf_cons, if_pos rfl, LogHolder.loadRows, LogHolder.loadRows,
          List.foldl_cons]
        split <;> rename_i hroom
        · rw [Function.update_self]
        · rfl
      · rw [Logs.rowsOf_cons, if_neg hk]
        split
        · rw [Function.update_of_ne (Ne.symm hk)]
        · rfl

/-- A new holder takes the rows one before the other while there is room, and knows the number
of the first. -/
theorem LogHolder.loadRows_new {maxRecords : UInt32} (rows : List (LogEntry E))
    (hroom : rows.length ≤ maxRecords.toNat)
    (hguid : ∀ e ∈ rows, e.guid ≠ guildEventLogGuidUndefined) :
    (LogHolder.new maxRecords : LogHolder E).loadRows rows =
      ⟨rows.reverse, maxRecords,
        (rows.head?.map LogEntry.guid).getD guildEventLogGuidUndefined⟩ := by
  induction rows using List.reverseRecOn with
  | nil => rfl
  | append_singleton rows e ih =>
      rw [List.length_append, List.length_singleton] at hroom
      rw [loadRows, List.foldl_append]
      have hpre := ih (by omega) fun e he => hguid e (List.mem_append_left _ he)
      rw [loadRows] at hpre
      rw [hpre, List.foldl_cons, List.foldl_nil, canInsert, List.length_reverse,
        if_pos (decide_eq_true (show rows.length < maxRecords.toNat by omega)), loadEvent,
        List.reverse_append]
      cases rows with
      | nil => simp
      | cons first rest =>
          have hfirst := hguid first (by simp)
          simp [hfirst]

/-- The rows of every log come newest first. -/
def Logs.NewestFirst (s : Logs K E) : Prop :=
  ∀ k, rowsOf (selectRows s.trimTable) k = (rowsOf s.trimTable k).reverse

/-- The numbers are below the limit, so no row is deleted before the rows are read. -/
theorem Logs.Sound.guid_lt (h : s.Sound accepts) (hm : 0 < s.maxRecords) {r : LogRow K E}
    (hr : r ∈ s.table) : r.entry.guid < s.maxRecords := by
  have hpos : 0 < s.maxRecords.toNat := by simpa using UInt32.lt_iff_toNat_lt.1 hm
  have hmem : r.entry ∈ rowsOf s.table r.holder :=
    List.mem_map.2 ⟨r, List.mem_filter.2 ⟨hr, by simp⟩, rfl⟩
  rw [h.rows, h.log] at hmem
  obtain ⟨⟨j, hj⟩, hget⟩ := List.mem_iff_get.1 hmem
  rw [UInt32.lt_iff_toNat_lt, ← hget, (h.numbered r.holder).get_lastOf]
  exact Nat.mod_lt _ hpos

theorem Logs.Sound.trimTable_eq (h : s.Sound accepts) (hm : 0 < s.maxRecords) :
    s.trimTable = s.table := by
  rw [trimTable, List.filter_eq_self]
  intro r hr
  exact decide_eq_true (UInt32.le_of_lt (h.guid_lt hm hr))

instance : Std.Total (Logs.before (K := K) (E := E)) where
  total := by
    intro a b
    unfold Logs.before
    rcases lt_trichotomy a.entry.timestamp b.entry.timestamp with h | h | h
    · exact Or.inr (Or.inl h)
    · rcases UInt32.le_total b.entry.guid a.entry.guid with hg | hg
      · exact Or.inl (Or.inr ⟨h, hg⟩)
      · exact Or.inr (Or.inr ⟨h.symm, hg⟩)
    · exact Or.inl (Or.inl h)

instance : IsTrans (LogRow K E) Logs.before where
  trans := by
    unfold Logs.before
    rintro a b c (hab | ⟨hab, hgab⟩) (hbc | ⟨hbc, hgbc⟩)
    · exact Or.inl (by omega)
    · exact Or.inl (by omega)
    · exact Or.inl (by omega)
    · exact Or.inr ⟨hab.trans hbc, UInt32.le_trans hgbc hgab⟩

/-- Where the clock moves on, or the GUID does not wrap, between two entries of a log, the
query gives its rows newest first. -/
theorem Logs.newestFirst_of_before
    (h : s.trimTable.Pairwise fun a b => a.holder = b.holder → ¬ before a b) : s.NewestFirst := by
  intro k
  have hsorted := List.pairwise_insertionSort (before (K := K) (E := E)) s.trimTable
  have hperm := List.perm_insertionSort (before (K := K) (E := E)) s.trimTable
  rw [rowsOf, rowsOf, ← List.map_reverse]
  congr 1
  have hrows : (s.trimTable.filter fun r => decide (r.holder = k)).Pairwise
      fun a b => ¬ before a b := by
    refine (List.Pairwise.sublist List.filter_sublist h).imp_of_mem ?_
    intro a b ha hb hab
    refine hab ?_
    rw [of_decide_eq_true (List.mem_filter.1 ha).2, of_decide_eq_true (List.mem_filter.1 hb).2]
  refine List.Perm.eq_of_pairwise ?_
    (List.Pairwise.sublist List.filter_sublist hsorted) ?_
    ((hperm.filter _).trans (List.reverse_perm _).symm)
  · -- two rows that are each before the other are the same row
    intro a b ha hb hab hba
    have ha := (hperm.filter _).mem_iff.1 ha
    rw [List.mem_reverse] at hb
    obtain ⟨⟨i, hi⟩, rfl⟩ := List.mem_iff_get.1 ha
    obtain ⟨⟨j, hj⟩, rfl⟩ := List.mem_iff_get.1 hb
    rw [List.pairwise_iff_getElem] at hrows
    rcases lt_trichotomy i j with hlt | rfl | hlt
    · exact absurd hab (hrows i j hi hj hlt)
    · rfl
    · exact absurd hba (hrows j i hj hi hlt)
  · rw [List.pairwise_reverse]
    exact hrows.imp fun {a b} hab => (Std.Total.total (r := before) a b).resolve_left hab

theorem Logs.Sound.reload (h : s.Sound accepts) (hm : 0 < s.maxRecords) (hnewest : s.NewestFirst) :
    (s.reload accepts).Sound accepts := by
  have htrim := h.trimTable_eq hm
  have hperm : (selectRows s.table).Perm s.table := List.perm_insertionSort before s.table
  have hholders : ∀ k, (s.reload accepts).holders k = ⟨(s.holders k).log, s.maxRecords,
      (((s.holders k).log.reverse).head?.map LogEntry.guid).getD
        guildEventLogGuidUndefined⟩ := by
    intro k
    have hrows := hnewest k
    rw [htrim, h.rows] at hrows
    show (selectRows s.trimTable).foldl (loadRow accepts) (fun _ => LogHolder.new s.maxRecords) k
      = _
    rw [htrim, foldl_loadRow accepts _ k (fun r hr => h.accepted r (hperm.mem_iff.1 hr)), hrows,
      LogHolder.loadRows_new, List.reverse_reverse]
    · rw [List.length_reverse, h.log, length_lastOf]
      omega
    · intro e he
      rw [List.mem_reverse, ← h.rows] at he
      obtain ⟨r, hr, rfl⟩ := List.mem_map.1 he
      have hlt := UInt32.lt_iff_toNat_lt.1 (h.guid_lt hm (List.mem_filter.1 hr).1)
      have hmax := s.maxRecords.toNat_lt
      rw [ne_eq, ← UInt32.toNat_inj]
      have : guildEventLogGuidUndefined.toNat = 2 ^ 32 - 1 := rfl
      omega
  have htable : (s.reload accepts).table = s.table := htrim
  constructor
  case limit =>
    intro k
    rw [hholders]
    rfl
  case numbered => exact h.numbered
  case log =>
    intro k
    rw [hholders]
    exact h.log k
  case rows =>
    intro k
    rw [hholders, htable]
    exact h.rows k
  case next =>
    intro k
    rw [hholders]
    show ((((s.holders k).log.reverse).head?.map LogEntry.guid).getD _) =
      ((s.history k).getLast?.map LogEntry.guid).getD _
    rw [List.head?_reverse, h.log, getLast?_lastOf (by simpa using UInt32.lt_iff_toNat_lt.1 hm)]
  case accepted =>
    intro r hr
    rw [htable] at hr
    exact h.accepted r hr

/-! ## Runs -/

/-- Entries go to the log they belong to, and rows are read back newest first. -/
def Logs.OpOk (accepts : K → E → Bool) (s : Logs K E) : Op K E → Prop
  | .logEvent holder _ event => accepts holder event = true
  | .reload => s.NewestFirst

theorem Logs.Sound.step (h : s.Sound accepts) (hm : 0 < s.maxRecords) {op : Op K E}
    (hop : s.OpOk accepts op) : (s.step accepts op).Sound accepts := by
  cases op with
  | logEvent holder time event => exact h.logEvent hm hop time
  | reload => exact h.reload hm hop

theorem Logs.maxRecords_step (accepts : K → E → Bool) (s : Logs K E) (op : Op K E) :
    (s.step accepts op).maxRecords = s.maxRecords := by
  cases op with
  | logEvent holder time event => rfl
  | reload => rfl

/-- After every run each log in memory has pairwise different numbers, holds what the rows of
the table hold, and consists of the last entries that were made, in their order. -/
theorem Logs.holds_most_recent (accepts : K → E → Bool) {maxRecords : UInt32}
    (hm : 0 < maxRecords) (ops : List (Op K E))
    (hops : Along (step accepts) (OpOk accepts) (init maxRecords) ops) (k : K) :
    let s := ops.foldl (step accepts) (init maxRecords)
    ((s.holders k).log.map LogEntry.guid).Nodup ∧
      rowsOf s.table k = (s.holders k).log ∧
      (s.holders k).log = lastOf maxRecords.toNat (s.history k) := by
  intro s
  have hrun : s.Sound accepts ∧ s.maxRecords = maxRecords := by
    refine Along.invariant (I := fun s => s.Sound accepts ∧ s.maxRecords = maxRecords) ?_
      ⟨init_sound accepts maxRecords, rfl⟩ hops
    rintro s op ⟨hs, hmax⟩ hop
    exact ⟨hs.step (hmax ▸ hm) hop, (maxRecords_step accepts s op).trans hmax⟩
  obtain ⟨hs, hmax⟩ := hrun
  refine ⟨?_, hs.rows k, hmax ▸ hs.log k⟩
  rw [hs.log k]
  exact (hs.numbered k).nodup

/-- Two entries fit. The server starts again when the numbers have wrapped once, and again
after the next entry. -/
def smallLogCalls : List (Logs.Op Unit Nat) :=
  [.logEvent () 10 0, .logEvent () 11 1, .logEvent () 12 2, .reload, .logEvent () 13 3, .reload]

theorem small_log_wraps :
    let s := smallLogCalls.foldl (Logs.step fun _ _ => true) (Logs.init 2)
    (s.holders ()).log.map LogEntry.event = [2, 3] ∧
      Logs.rowsOf s.table () = (s.holders ()).log := by
  refine ⟨by decide, (Logs.holds_most_recent (fun _ _ => true) (by decide) smallLogCalls
    ⟨rfl, rfl, rfl, ?_, rfl, ?_, trivial⟩ ()).2.1⟩
  · exact Logs.newestFirst_of_before (by decide)
  · exact Logs.newestFirst_of_before (by decide)

/-! ## The bank -/

/-- What `_LogBankEvent` writes for a tab that is bought, its row is accepted for. -/
theorem logBankEvent_step {purchasedTabs : Nat → Nat} (s : Logs BankLogKey BankEvent)
    {guild tabId : Nat} (htab : tabId < purchasedTabs guild) (hbought : purchasedTabs guild ≤
      guildBankMaxTabs) (time : Nat) (event : BankEvent) :
    logBankEvent s guild time tabId event = s ∨ ∃ op : Logs.Op BankLogKey BankEvent,
      s.OpOk (bankAccepts purchasedTabs) op ∧
        logBankEvent s guild time tabId event = s.step (bankAccepts purchasedTabs) op := by
  have hmoney : tabId ≠ guildBankMoneyLogsTab := by
    unfold guildBankMoneyLogsTab
    unfold guildBankMaxTabs at hbought
    omega
  rw [logBankEvent]
  split
  · exact Or.inl rfl
  · split
    · exact Or.inl rfl
    · refine Or.inr ⟨.logEvent _ time event, ?_, rfl⟩
      show bankAccepts purchasedTabs _ event = true
      unfold bankAccepts
      split <;> simp_all

end Sunstrider.Guilds
