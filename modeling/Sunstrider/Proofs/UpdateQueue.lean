import Sunstrider.Inventory.UpdateQueue
import Sunstrider.Lib.Runs

/-!
# An item waits where it says

Position and queue are written together in two places only: where an item is queued and where it
is taken out. Both keep them in step as long as the index fits the position. All else writes
one side. A position that is cleared, or an owner that is changed, leaves the entry behind,
so both must be done to an item that is in no queue; a save clears a whole queue, and keeps
in step because it clears the position of each item in it first.

What a save writes is then each waiting item once: the indices of two entries differ, and an
item has one position.
-/

namespace Sunstrider.Inventory.QueueWorld

open Lib (Along)

variable {I P : Type} {w : QueueWorld I P} {i j : I} {p : P} {it it' : OwnedItem P} {k : Nat}
  {player : Option P}

/-- The entries of an item are those at its position in the queue of its owner. -/
structure Consistent (w : QueueWorld I P) : Prop where
  own : ∀ i it, w.items i = some it →
    ∀ k : Nat, (w.m_itemUpdateQueue it.owner)[k]? = some (some i) ↔ it.uQueuePos = k
  sign : ∀ i it, w.items i = some it → -1 ≤ it.uQueuePos
  placed : ∀ p (k : Nat) i, (w.m_itemUpdateQueue p)[k]? = some (some i) →
    ∃ it, w.items i = some it ∧ it.owner = p

/-- What a save writes of an item, if it has one to write. -/
def unsaved (w : QueueWorld I P) (i : I) : Bool := (w.items i).any (·.uState ≠ .unchanged)

/-- The item waits for the next save of the player, with something to write. -/
def waits [DecidableEq P] (w : QueueWorld I P) (p : P) (i : I) : Bool :=
  (w.items i).any fun it => it.owner == p && it.isInUpdateQueue && it.uState != .unchanged

/-- An item is marked as unchanged, is saved by itself or gets another owner only while it is in
no queue, and a new item is dropped only where it can be taken out. Apart from this, queues
stay short enough for the position, and no save is refused. -/
def Proper [DecidableEq P] (w : QueueWorld I P) : Op I P → Prop
  | .setState i state forplayer => ∀ it ∈ w.items i,
      (it.isInUpdateQueue = true → state ≠ .unchanged ∧
        (it.uState = .new → state = .removed → w.queueOpen it forplayer = true)) ∧
      (w.m_itemUpdateQueue it.owner).length < 2 ^ 15
  | .addItemToUpdateQueueOf i _ => ∀ it ∈ w.items i,
      (w.m_itemUpdateQueue it.owner).length < 2 ^ 15
  | .setOwnerGUID i owner => ∀ it ∈ w.items i, it.isInUpdateQueue = true → it.owner = owner
  | .saveToDB i => ∀ it ∈ w.items i, it.isInUpdateQueue = false
  | .moveItemToInventory p i _ => ∀ it ∈ w.items i,
      (it.isInUpdateQueue = true → it.owner = p) ∧ (w.m_itemUpdateQueue p).length < 2 ^ 15
  | .saveInventory p atPlace =>
      (w.m_itemUpdateQueue p).reduceOption.any (w.corrupt atPlace) = false
  | _ => True

/-! ## Writes to an item -/

theorem items_setItem [DecidableEq I] (w : QueueWorld I P) (i j : I)
    (x : Option (OwnedItem P)) : (w.setItem i x).items j = if j = i then x else w.items j :=
  Function.update_apply _ _ _ _

theorem queue_setQueue [DecidableEq P] (w : QueueWorld I P) (p q : P)
    (queue : List (Option I)) :
    (w.setQueue p queue).m_itemUpdateQueue q = if q = p then queue else w.m_itemUpdateQueue q :=
  Function.update_apply _ _ _ _

theorem isInUpdateQueue_iff : it.isInUpdateQueue = true ↔ it.uQueuePos ≠ -1 := by
  simp [OwnedItem.isInUpdateQueue]

theorem isInUpdateQueue_eq_false : it.isInUpdateQueue = false ↔ it.uQueuePos = -1 := by
  simp [OwnedItem.isInUpdateQueue]

theorem Consistent.exists_index (h : Consistent w) (hit : w.items i = some it)
    (hin : it.isInUpdateQueue = true) : ∃ k : Nat, it.uQueuePos = k := by
  have hsign := h.sign i it hit
  rw [isInUpdateQueue_iff] at hin
  exact ⟨it.uQueuePos.toNat, by omega⟩

/-- The entry of an item is in the queue of its owner, at its position. -/
theorem Consistent.entry (h : Consistent w)
    (hentry : (w.m_itemUpdateQueue p)[k]? = some (some i)) :
    ∃ it, w.items i = some it ∧ it.owner = p ∧ it.uQueuePos = k := by
  obtain ⟨it, hit, rfl⟩ := h.placed p k i hentry
  exact ⟨it, hit, rfl, (h.own i it hit k).1 hentry⟩

theorem mem_reduceOption {l : List (Option I)} :
    i ∈ l.reduceOption ↔ ∃ k : Nat, l[k]? = some (some i) := by
  rw [List.reduceOption_mem_iff, List.mem_iff_getElem?]

theorem Consistent.nodup (h : Consistent w) (p : P) :
    (w.m_itemUpdateQueue p).reduceOption.Nodup := by
  rw [List.reduceOption, List.Nodup, List.pairwise_filterMap, List.pairwise_iff_getElem]
  rintro k k' hk hk' hlt i hi j hj rfl
  obtain ⟨it, hit, -, hpos⟩ := h.entry (List.getElem?_eq_some_iff.2 ⟨hk, hi⟩)
  obtain ⟨it', hit', -, hpos'⟩ := h.entry (List.getElem?_eq_some_iff.2 ⟨hk', hj⟩)
  cases hit.symm.trans hit'
  omega

/-- The waiting items of a player are those in its queue. -/
theorem Consistent.mem_queue (h : Consistent w) (p : P) (i : I) :
    i ∈ (w.m_itemUpdateQueue p).reduceOption ↔
      ∃ it, w.items i = some it ∧ it.owner = p ∧ it.isInUpdateQueue = true := by
  rw [mem_reduceOption]
  constructor
  · rintro ⟨k, hk⟩
    obtain ⟨it, hit, hp, hpos⟩ := h.entry hk
    exact ⟨it, hit, hp, isInUpdateQueue_iff.2 (by omega)⟩
  · rintro ⟨it, hit, rfl, hin⟩
    obtain ⟨k, hk⟩ := h.exists_index hit hin
    exact ⟨k, (h.own i it hit k).2 hk⟩

/-- What a save leaves of an item. -/
def saved (it : OwnedItem P) : Option (OwnedItem P) :=
  if it.uState = .removed then none else some { it with uState := .unchanged, uQueuePos := -1 }

theorem isInUpdateQueue_saved : ∀ it' ∈ saved it, it'.isInUpdateQueue = false := by
  simp [saved, OwnedItem.isInUpdateQueue]

theorem bind_saved (x : Option (OwnedItem P)) : (x.bind saved).bind saved = x.bind saved := by
  rcases x with _ | ⟨owner, state, pos⟩
  · rfl
  · cases state <;> rfl

variable [DecidableEq I]

/-- An item that is in no queue, or not there, may be replaced by another such. -/
theorem Consistent.setUnqueued (h : Consistent w) {x : Option (OwnedItem P)}
    (hold : ∀ it ∈ w.items i, it.isInUpdateQueue = false)
    (hnew : ∀ it ∈ x, it.isInUpdateQueue = false) : Consistent (w.setItem i x) := by
  have hnot : ∀ p (k : Nat), (w.m_itemUpdateQueue p)[k]? ≠ some (some i) := fun p k hentry => by
    obtain ⟨it, hit, -, hk⟩ := h.entry hentry
    have hpos := isInUpdateQueue_eq_false.1 (hold it hit)
    omega
  refine ⟨fun j it hj k => ?_, fun j it hj => ?_, fun p k j hj => ?_⟩
  · rw [items_setItem] at hj
    split at hj
    · subst j
      have hpos := isInUpdateQueue_eq_false.1 (hnew it hj)
      exact iff_of_false (hnot it.owner k) (by omega)
    · exact h.own j it hj k
  · rw [items_setItem] at hj
    split at hj
    · exact Int.le_of_eq (isInUpdateQueue_eq_false.1 (hnew it hj)).symm
    · exact h.sign j it hj
  · rw [items_setItem, if_neg]
    · exact h.placed p k j hj
    · rintro rfl
      exact hnot p k hj

/-- An item and the queue of its owner may be written together, if what the queue has of other
items stays and what it has of this one is where the position says. -/
theorem Consistent.write [DecidableEq P] (h : Consistent w) (hit : w.items i = some it)
    (howner : it'.owner = it.owner) (hsign : -1 ≤ it'.uQueuePos) (queue : List (Option I))
    (hself : ∀ k : Nat, queue[k]? = some (some i) ↔ it'.uQueuePos = k)
    (hothers : ∀ (k : Nat) j, j ≠ i →
      (queue[k]? = some (some j) ↔ (w.m_itemUpdateQueue it.owner)[k]? = some (some j))) :
    Consistent ((w.setQueue it.owner queue).setItem i (some it')) := by
  have hqueue : ∀ p (k : Nat) j, j ≠ i →
      ((w.setQueue it.owner queue).m_itemUpdateQueue p)[k]? = some (some j) →
        (w.m_itemUpdateQueue p)[k]? = some (some j) := fun p k j hj hentry => by
    rw [queue_setQueue] at hentry
    split at hentry
    · subst p
      exact (hothers k j hj).1 hentry
    · exact hentry
  refine ⟨fun j jt hj k => ?_, fun j jt hj => ?_, fun p k j hj => ?_⟩
  · rw [items_setItem] at hj
    change ((w.setQueue it.owner queue).m_itemUpdateQueue jt.owner)[k]? = _ ↔ _
    rw [queue_setQueue]
    split at hj
    · cases hj
      subst j
      rw [if_pos howner]
      exact hself k
    · rename_i hji
      split
      · rename_i hjt
        rw [hothers k j hji, ← hjt]
        exact h.own j jt hj k
      · exact h.own j jt hj k
  · rw [items_setItem] at hj
    split at hj
    · cases hj
      exact hsign
    · exact h.sign j jt hj
  · rw [items_setItem]
    by_cases hji : j = i
    · subst j
      refine ⟨it', if_pos rfl, ?_⟩
      change ((w.setQueue it.owner queue).m_itemUpdateQueue p)[k]? = _ at hj
      rw [queue_setQueue] at hj
      split at hj
      · rename_i hp
        rw [howner, hp]
      · obtain ⟨it₂, hit₂, hp, -⟩ := h.entry hj
        cases hit.symm.trans hit₂
        rw [howner, hp]
    · rw [if_neg hji]
      exact h.placed p k j (hqueue p k j hji hj)

variable [DecidableEq P]

/-- What is not about the queue may be written at any time. -/
theorem Consistent.setSame (h : Consistent w) (hit : w.items i = some it)
    (howner : it'.owner = it.owner) (hpos : it'.uQueuePos = it.uQueuePos) :
    Consistent (w.setItem i (some it')) := by
  have hsame : w.setQueue it.owner (w.m_itemUpdateQueue it.owner) = w := by
    rw [setQueue, Function.update_eq_self]
  have hwrite := h.write hit howner (hpos ▸ h.sign i it hit) (w.m_itemUpdateQueue it.owner)
    (fun k => by rw [hpos]; exact h.own i it hit k) (fun _ _ _ => Iff.rfl)
  rwa [hsame] at hwrite

theorem Consistent.setIfSame (h : Consistent w) (f : OwnedItem P → OwnedItem P)
    (hf : ∀ it ∈ w.items i, (f it).owner = it.owner ∧ (f it).uQueuePos = it.uQueuePos) :
    Consistent (w.setItem i ((w.items i).map f)) := by
  cases hit : w.items i with
  | none => exact h.setUnqueued (by simp [hit]) (by simp)
  | some it => exact h.setSame hit (hf it hit).1 (hf it hit).2

/-! ## Into a queue and out of it -/

theorem queuePosOf_of_lt (h : k < 2 ^ 15) : OwnedItem.queuePosOf k = k := by
  change Int.bmod k 65536 = k
  exact Int.bmod_eq_of_le (by omega) (by omega)

theorem Consistent.add (h : Consistent w) (player : Option P)
    (hroom : ∀ it ∈ w.items i, (w.m_itemUpdateQueue it.owner).length < 2 ^ 15) :
    Consistent (w.addItemToUpdateQueueOf i player) := by
  rw [addItemToUpdateQueueOf]
  cases hit : w.items i with
  | none => exact h
  | some it =>
      simp only [List.length_append, List.length_singleton, Nat.add_sub_cancel,
        queuePosOf_of_lt (hroom it hit)]
      split
      · exact h
      · rename_i hopen
        have hnone : it.uQueuePos = -1 := by
          rw [Bool.or_eq_true, not_or, isInUpdateQueue_iff, not_not] at hopen
          exact hopen.1
        have hold : ∀ k : Nat, (w.m_itemUpdateQueue it.owner)[k]? ≠ some (some i) :=
          fun k hentry => by
            have hk := (h.own i it hit k).1 hentry
            omega
        refine h.write hit ?_ ?_ _ (fun k => ?_) fun k j hj => ?_
        · rfl
        · exact Int.le_trans (by decide) (Int.natCast_nonneg _)
        · rw [List.getElem?_append]
          split
          · rename_i hk
            exact iff_of_false (hold k) (by dsimp only; omega)
          · rw [List.getElem?_singleton]
            simp only
            split <;> simp <;> omega
        · rw [List.getElem?_append]
          split
          · rfl
          · rename_i hk
            rw [List.getElem?_singleton, List.getElem?_eq_none (by omega)]
            split <;> simp [Ne.symm hj]

theorem Consistent.remove (h : Consistent w) (i : I) (player : Option P) :
    Consistent (w.removeItemFromUpdateQueueOf i player) := by
  rw [removeItemFromUpdateQueueOf]
  cases hit : w.items i with
  | none => exact h
  | some it =>
      simp only
      split
      · exact h
      · rename_i hopen
        rw [Bool.or_eq_true, not_or, Bool.not_eq_true', Bool.not_eq_false] at hopen
        obtain ⟨k, hk⟩ := h.exists_index hit hopen.1
        have hown := h.own i it hit
        refine h.write hit ?_ ?_ _ (fun k' => ?_) fun k' j hj => ?_
        · rfl
        · exact Int.le_refl _
        · rw [hk]
          change ((w.m_itemUpdateQueue it.owner).set k none)[k']? = _ ↔ _
          refine iff_of_false ?_ (by dsimp only; omega)
          rw [List.getElem?_set]
          split
          · split <;> simp
          · rename_i hne
            rw [hown k', hk]
            omega
        · rw [hk]
          change ((w.m_itemUpdateQueue it.owner).set k none)[k']? = _ ↔ _
          rw [List.getElem?_set]
          split
          · rename_i heq
            subst k'
            rw [(hown k).2 hk]
            split <;> simp [Ne.symm hj]
          · rfl

/-- Taken out of a queue that is open to it, an item is in none. -/
theorem isInUpdateQueue_remove (hopen : ∀ it ∈ w.items i, it.isInUpdateQueue = true →
      w.queueOpen it player = true) :
    ∀ it ∈ (w.removeItemFromUpdateQueueOf i player).items i, it.isInUpdateQueue = false := by
  intro it hit
  rw [removeItemFromUpdateQueueOf] at hit
  cases hold : w.items i with
  | none =>
      rw [hold] at hit
      cases hold.symm.trans hit
  | some old =>
      rw [hold] at hit
      simp only at hit
      split at hit
      · rename_i hnot
        cases hold.symm.trans hit
        cases hin : it.isInUpdateQueue with
        | false => rfl
        | true => simp [hin, hopen it hold hin] at hnot
      · rw [items_setItem, if_pos rfl] at hit
        cases hit
        rfl

theorem Consistent.setState (h : Consistent w) {state : ItemUpdateState}
    (hproper : Proper w (.setState i state player)) : Consistent (w.setState i state player) := by
  rw [QueueWorld.setState]
  cases hit : w.items i with
  | none => exact h
  | some it =>
      obtain ⟨hin, hroom⟩ := hproper it hit
      simp only
      split
      · -- a new item is dropped
        rename_i hdrop
        refine (h.remove i player).setUnqueued (isInUpdateQueue_remove fun it' hit' hin' => ?_)
          (by simp)
        cases hit.symm.trans hit'
        exact (hin hin').2 hdrop.1 hdrop.2
      · split
        · refine (h.setSame hit ?_ ?_).add player fun it' hit' => ?_
          · split <;> rfl
          · split <;> rfl
          · rw [items_setItem, if_pos rfl] at hit'
            cases hit'
            change (w.m_itemUpdateQueue _).length < _
            split <;> exact hroom
        · rename_i hstate
          refine h.setUnqueued (fun it' hit' => ?_) (by simp [OwnedItem.isInUpdateQueue])
          cases hit.symm.trans hit'
          cases hq : it.isInUpdateQueue with
          | false => rfl
          | true => exact absurd (hin hq).1 hstate

/-! ## Saves -/

theorem saveToDB_eq (w : QueueWorld I P) (i : I) :
    w.saveToDB i = { w with
      items := Function.update w.items i ((w.items i).bind saved)
      written := if w.unsaved i then w.written ++ [i] else w.written } := by
  rw [saveToDB]
  cases hit : w.items i with
  | none =>
      have hsame : Function.update w.items i none = w.items := by
        rw [← hit, Function.update_eq_self]
      simp [unsaved, hit, hsame]
  | some it =>
      rcases it with ⟨owner, state, pos⟩
      cases state <;> simp [unsaved, hit, saved, QueueWorld.setState, setItem]

theorem foldl_saveToDB (l : List I) (w : QueueWorld I P) :
    ∃ written, l.foldl QueueWorld.saveToDB w = { w with
        items := fun i => if i ∈ l then (w.items i).bind saved else w.items i
        written := w.written ++ written } ∧ (l.Nodup → written = l.filter w.unsaved) := by
  induction l generalizing w with
  | nil => exact ⟨[], by simp, by simp⟩
  | cons a l ih =>
      obtain ⟨written, hfold, hwritten⟩ := ih (w.saveToDB a)
      have hitems : ∀ i, (w.saveToDB a).items i =
          if i = a then (w.items a).bind saved else w.items i := fun i => by
        rw [saveToDB_eq]
        exact Function.update_apply _ _ _ _
      refine ⟨(if w.unsaved a then [a] else []) ++ written, ?_, fun hnodup => ?_⟩
      · rw [List.foldl_cons, hfold]
        have hall : (fun i => if i ∈ l then ((w.saveToDB a).items i).bind saved
            else (w.saveToDB a).items i) =
              fun i => if i ∈ a :: l then (w.items i).bind saved else w.items i := by
          funext i
          simp only [hitems, List.mem_cons]
          by_cases hia : i = a
          · simp [hia, bind_saved]
          · simp [hia]
        rw [hall, saveToDB_eq]
        simp only
        split <;> simp
      · obtain ⟨ha, hl⟩ := List.nodup_cons.1 hnodup
        rw [hwritten hl, List.filter_cons]
        have hrest : l.filter (w.saveToDB a).unsaved = l.filter w.unsaved :=
          List.filter_congr fun i hi => by
            rw [unsaved, unsaved, hitems, if_neg (by rintro rfl; exact ha hi)]
        rw [hrest]
        split <;> rfl

theorem Consistent.saveInventory (h : Consistent w) {atPlace : I → Bool}
    (hok : (w.m_itemUpdateQueue p).reduceOption.any (w.corrupt atPlace) = false) :
    Consistent (w.saveInventory p atPlace) := by
  obtain ⟨written, hfold, -⟩ := foldl_saveToDB (w.m_itemUpdateQueue p).reduceOption w
  simp only [QueueWorld.saveInventory, hok, hfold, Bool.false_eq_true, if_false]
  have hqueue : ∀ q (k : Nat) i,
      (Function.update w.m_itemUpdateQueue p [] q)[k]? = some (some i) ↔
        (w.m_itemUpdateQueue q)[k]? = some (some i) ∧
          i ∉ (w.m_itemUpdateQueue p).reduceOption := fun q k i => by
    rw [Function.update_apply]
    split
    · subst q
      exact iff_of_false (by simp) fun ⟨hk, hnot⟩ => hnot (mem_reduceOption.2 ⟨k, hk⟩)
    · rename_i hq
      refine ⟨fun hk => ⟨hk, fun hmem => ?_⟩, And.left⟩
      obtain ⟨it, hit, howner, -⟩ := h.entry hk
      obtain ⟨it', hit', howner', -⟩ := (h.mem_queue p i).1 hmem
      cases hit.symm.trans hit'
      exact hq (howner.symm.trans howner')
  refine ⟨fun i it hi k => ?_, fun i it hi => ?_, fun q k i hk => ?_⟩
  · simp only [setQueue, hqueue] at hi ⊢
    split at hi
    · rename_i hmem
      obtain ⟨it', -, hsaved⟩ := Option.bind_eq_some_iff.1 hi
      have hpos := isInUpdateQueue_eq_false.1 (isInUpdateQueue_saved it hsaved)
      exact iff_of_false (fun hk => hk.2 hmem) (by omega)
    · rename_i hmem
      rw [and_iff_left hmem]
      exact h.own i it hi k
  · simp only [setQueue] at hi
    split at hi
    · obtain ⟨it', -, hsaved⟩ := Option.bind_eq_some_iff.1 hi
      exact Int.le_of_eq (isInUpdateQueue_eq_false.1 (isInUpdateQueue_saved it hsaved)).symm
    · exact h.sign i it hi
  · simp only [setQueue, hqueue] at hk ⊢
    rw [if_neg hk.2]
    exact h.placed q k i hk.1

theorem Consistent.setOwnerGUID (h : Consistent w)
    (hproper : ∀ it ∈ w.items i, it.isInUpdateQueue = true → it.owner = p) :
    Consistent (w.setOwnerGUID i p) := by
  by_cases hin : ∀ it ∈ w.items i, it.isInUpdateQueue = false
  · refine h.setUnqueued hin fun it hit => ?_
    obtain ⟨it', hit', rfl⟩ := Option.map_eq_some_iff.1 hit
    exact hin it' hit'
  · simp only [not_forall] at hin
    obtain ⟨it, hit, hin⟩ := hin
    refine h.setIfSame _ fun it' hit' => ⟨?_, rfl⟩
    cases hit.symm.trans hit'
    exact (hproper it hit (by simpa using hin)).symm

/-- A save that is not refused writes each waiting item of the player once, and nothing else. -/
theorem Consistent.count_written (h : Consistent w) {atPlace : I → Bool}
    (hok : (w.m_itemUpdateQueue p).reduceOption.any (w.corrupt atPlace) = false) :
    ∃ written, (w.saveInventory p atPlace).written = w.written ++ written ∧
      ∀ i, written.count i = if w.waits p i then 1 else 0 := by
  obtain ⟨written, hfold, hwritten⟩ := foldl_saveToDB (w.m_itemUpdateQueue p).reduceOption w
  refine ⟨written, ?_, fun i => ?_⟩
  · simp only [QueueWorld.saveInventory, hok, hfold, setQueue, Bool.false_eq_true, if_false]
  · rw [hwritten (h.nodup p), List.Nodup.count (List.Nodup.filter _ (h.nodup p))]
    refine if_congr ?_ rfl rfl
    rw [List.mem_filter, h.mem_queue]
    cases hit : w.items i <;> simp [unsaved, waits, hit]

/-- An item that is marked waits for the next save of its owner. -/
theorem waits_setState {state : ItemUpdateState} (hit : w.items i = some it)
    (hroom : (w.m_itemUpdateQueue it.owner).length < 2 ^ 15) (hstate : state ≠ .unchanged)
    (hnot : ¬(it.uState = .new ∧ state = .removed)) (hopen : w.queueOpen it player = true) :
    (w.setState i state player).waits it.owner i = true := by
  simp only [QueueWorld.setState, hit, if_neg hnot, if_pos hstate]
  have hmarked : ∃ it', (if it.uState = .new then it else { it with uState := state }) = it' ∧
      it'.owner = it.owner ∧ it'.uState ≠ .unchanged := by
    refine ⟨_, rfl, ?_⟩
    split
    · rename_i hnew
      exact ⟨rfl, by simp [hnew]⟩
    · exact ⟨rfl, hstate⟩
  obtain ⟨it', hit', howner, hstate'⟩ := hmarked
  have hopen' : (w.setItem i (some it')).queueOpen it' player = true := by
    simpa only [queueOpen, setItem, howner] using hopen
  rw [hit', addItemToUpdateQueueOf, items_setItem, if_pos rfl]
  simp only [hopen', Bool.not_true, Bool.or_false]
  split
  · rename_i hin
    simp [waits, items_setItem, howner, hstate', hin]
  · have hpos : OwnedItem.queuePosOf (w.m_itemUpdateQueue it.owner).length ≠ -1 := by
      rw [queuePosOf_of_lt hroom]
      omega
    rw [← howner] at hpos
    simpa [waits, items_setItem, setItem, howner, hstate', isInUpdateQueue_iff] using hpos

/-! ## Runs -/

theorem consistent_step (h : Consistent w) (o : Op I P) (ho : Proper w o) :
    Consistent (w.step o) := by
  cases o with
  | create i owner =>
      simp only [step]
      split
      · exact h
      · rename_i hnone
        refine h.setUnqueued (fun it hit => absurd ?_ hnone) (by rintro _ ⟨⟩; rfl)
        rw [hit]
        rfl
  | setState i state player => exact h.setState ho
  | addItemToUpdateQueueOf i player => exact h.add player ho
  | removeItemFromUpdateQueueOf i player => exact h.remove i player
  | fSetState i state => exact h.setIfSame _ fun _ _ => ⟨rfl, rfl⟩
  | setOwnerGUID i owner => exact h.setOwnerGUID ho
  | saveToDB i =>
      rw [step, saveToDB_eq]
      have hset := h.setUnqueued (x := (w.items i).bind saved) ho fun it hit => by
        obtain ⟨it', -, hsaved⟩ := Option.bind_eq_some_iff.1 hit
        exact isInUpdateQueue_saved it hsaved
      exact ⟨hset.own, hset.sign, hset.placed⟩
  | moveItemFromInventory p i => exact h.remove i (some p)
  | moveItemToInventory p i inDB =>
      refine (h.setOwnerGUID fun it hit => (ho it hit).1).setState fun it hit => ?_
      rw [QueueWorld.setOwnerGUID, items_setItem, if_pos rfl] at hit
      obtain ⟨it', hit', rfl⟩ := Option.map_eq_some_iff.1 hit
      refine ⟨fun _ => ⟨?_, fun _ hremoved => ?_⟩, (ho it' hit').2⟩
      · cases inDB <;> decide
      · cases inDB <;> cases hremoved
  | saveInventory p atPlace => exact h.saveInventory ho
  | setPlayer p online blocked => exact ⟨h.own, h.sign, h.placed⟩

/-- After any run of such operations an item has position `k` exactly if entry `k` of the queue
of its owner is this item; no queue has an item twice, or one of another owner; what is marked
waits, and a save writes what waits once. -/
theorem run_queues_exact {ops : List (Op I P)} (hops : Along step Proper start ops) :
    let w : QueueWorld I P := run start ops
    (∀ i it, w.items i = some it →
      (it.isInUpdateQueue = true ↔ some i ∈ w.m_itemUpdateQueue it.owner) ∧
      ∀ k : Nat, it.uQueuePos = k ↔ (w.m_itemUpdateQueue it.owner)[k]? = some (some i)) ∧
    (∀ p, (w.m_itemUpdateQueue p).reduceOption.Nodup ∧
      ∀ i, some i ∈ w.m_itemUpdateQueue p → ∃ it, w.items i = some it ∧ it.owner = p) ∧
    (∀ i it state player, w.items i = some it → Proper w (.setState i state player) →
      state ≠ .unchanged → ¬(it.uState = .new ∧ state = .removed) →
        w.queueOpen it player = true → (w.setState i state player).waits it.owner i = true) ∧
    ∀ p atPlace, (w.m_itemUpdateQueue p).reduceOption.any (w.corrupt atPlace) = false →
      ∃ written, (w.saveInventory p atPlace).written = w.written ++ written ∧
        ∀ i, written.count i = if w.waits p i then 1 else 0 := by
  intro w
  have h : Consistent w := Along.invariant (fun _ o h ho => consistent_step h o ho)
    ⟨by simp [start], by simp [start], by simp [start]⟩ hops
  refine ⟨fun i it hit => ⟨?_, fun k => (h.own i it hit k).symm⟩, fun p => ⟨h.nodup p, ?_⟩,
    fun _ _ _ _ hit hproper => waits_setState hit (hproper _ hit).2, fun _ _ => h.count_written⟩
  · rw [← List.reduceOption_mem_iff, h.mem_queue]
    constructor
    · exact fun hin => ⟨it, hit, rfl, hin⟩
    · rintro ⟨it', hit', -, hin⟩
      cases hit.symm.trans hit'
      exact hin
  · intro i hi
    obtain ⟨it, hit, hp, -⟩ := (h.mem_queue p i).1 (List.reduceOption_mem_iff.2 hi)
    exact ⟨it, hit, hp⟩

/-- A helmet is bought, moves from one player to the other in a trade, and both save. -/
def tradedHelmet : List (Op Nat Bool) :=
  [.setPlayer true true false, .setPlayer false true false, .create 0 true,
    .setState 0 .new (some true), .saveInventory true fun _ => true, .setState 0 .changed none,
    .moveItemFromInventory true 0, .moveItemToInventory false 0 true,
    .saveInventory true fun _ => true]

/-- The first owner does not write it, and the next writes it once. -/
theorem run_queues_exact_of_a_trade : Along step Proper start tradedHelmet ∧
    ∃ written, ((run start tradedHelmet).saveInventory false fun _ => true).written =
      [0] ++ written ∧ written.count 0 = 1 := by
  have hops : Along step Proper start tradedHelmet := by
    refine ⟨?_, ?_, ?_, ?_, ?_, ?_, ?_, ?_, ?_, trivial⟩ <;> simp [Proper] <;> decide
  have h := run_queues_exact hops
  obtain ⟨written, hwritten, hcount⟩ := h.2.2.2 false (fun _ => true) (by decide)
  exact ⟨hops, written, hwritten, (hcount 0).trans (by decide)⟩

/-- An item that waits is marked as unchanged, and then changed again. -/
def unmarkedItem : List (Op Nat Bool) :=
  [.setPlayer true true false, .create 0 true, .setState 0 .changed none,
    .setState 0 .unchanged none, .setState 0 .changed none]

/-- It is in the queue of its owner twice. -/
theorem unmarked_item_waits_twice :
    ¬((run start unmarkedItem).m_itemUpdateQueue true).reduceOption.Nodup := by decide

end Sunstrider.Inventory.QueueWorld
