import Mathlib

/-!
# Mutable priority heaps with live priorities

A mutable heap keeps handles, not values: the comparator reads whatever the
handles point at when it is called, so the owner of the values has to tell
the heap about every change, and in which direction the element moved. This
file states that contract once. `MutableHeap` is the interface, `HeapOrdered`
the order property the structure maintains, and `LawfulMutableHeap` says what
each operation owes: a change of one priority upwards followed by `increase`,
or downwards followed by `decrease`, keeps the order, and an ordered heap has
a greatest element on top.

Nothing is promised for a change reported in the wrong direction, or not
reported at all. `SortedQueue` is the smallest lawful structure: a list kept
in descending order whose two notifications move the element one way only.
-/

namespace Sunstrider.Lib

/-- The comparators a heap is used with: strict weak orders. -/
structure StrictWeak {ι : Type} (less : ι → ι → Bool) : Prop where
  asymm : ∀ {a b}, less a b = true → less b a = false
  split : ∀ {a c} (b : ι), less a c = true → less a b = true ∨ less b c = true

theorem StrictWeak.irrefl {ι : Type} {less : ι → ι → Bool} (hw : StrictWeak less)
    (a : ι) : less a a = false := by
  cases h : less a a with
  | false => rfl
  | true => exact absurd (hw.asymm h) (by simp [h])

/-- "Not below" composes. -/
theorem StrictWeak.not_less_trans {ι : Type} {less : ι → ι → Bool}
    (hw : StrictWeak less) {a b c : ι} (hab : less a b = false)
    (hbc : less b c = false) : less a c = false := by
  cases h : less a c with
  | false => rfl
  | true =>
      rcases hw.split b h with h1 | h1
      · rw [h1] at hab; cases hab
      · rw [h1] at hbc; cases hbc

/-- `less` is `less₀` after the priority of `x`, and of nothing else, moved
up (or stayed level). -/
structure MovedUp {ι : Type} (less₀ less : ι → ι → Bool) (x : ι) : Prop where
  off : ∀ {a b}, a ≠ x → b ≠ x → less a b = less₀ a b
  above : ∀ {a}, a ≠ x → less₀ a x = true → less a x = true
  below : ∀ {a}, a ≠ x → less x a = true → less₀ x a = true

/-- The mirror image of `MovedUp`. -/
structure MovedDown {ι : Type} (less₀ less : ι → ι → Bool) (x : ι) : Prop where
  off : ∀ {a b}, a ≠ x → b ≠ x → less a b = less₀ a b
  above : ∀ {a}, a ≠ x → less a x = true → less₀ a x = true
  below : ∀ {a}, a ≠ x → less₀ x a = true → less x a = true

/-! Comparators usually compare ranks in some linear order; then the three
conditions above are about the ranks. -/

/-- `less` compares the ranks `rank` gives. -/
def ByRank {ι α : Type} [LinearOrder α] (rank : ι → α) (less : ι → ι → Bool) : Prop :=
  ∀ a b, less a b = true ↔ rank a < rank b

section ByRank

variable {ι α : Type} [LinearOrder α] {rank₀ rank : ι → α} {less₀ less : ι → ι → Bool}

theorem ByRank.eq_false_iff (h : ByRank rank less) (a b : ι) :
    less a b = false ↔ rank b ≤ rank a := by
  rw [← Bool.not_eq_true, h a b, not_lt]

theorem ByRank.strictWeak (h : ByRank rank less) : StrictWeak less where
  asymm := by
    intro a b hab
    rw [h.eq_false_iff]
    exact le_of_lt ((h a b).1 hab)
  split := by
    intro a c b hac
    rw [h, h]
    rcases lt_or_ge (rank a) (rank b) with hab | hba
    · exact Or.inl hab
    · exact Or.inr (lt_of_le_of_lt hba ((h a c).1 hac))

theorem ByRank.off (h₀ : ByRank rank₀ less₀) (h : ByRank rank less) {x : ι}
    (hoff : ∀ a, a ≠ x → rank a = rank₀ a) {a b : ι} (ha : a ≠ x) (hb : b ≠ x) :
    less a b = less₀ a b := by
  rw [Bool.eq_iff_iff, h, h₀, hoff a ha, hoff b hb]

theorem ByRank.movedUp (h₀ : ByRank rank₀ less₀) (h : ByRank rank less) {x : ι}
    (hoff : ∀ a, a ≠ x → rank a = rank₀ a) (hx : rank₀ x ≤ rank x) :
    MovedUp less₀ less x where
  off := h₀.off h hoff
  above := by
    intro a ha hlt
    rw [h, hoff a ha]
    exact lt_of_lt_of_le ((h₀ a x).1 hlt) hx
  below := by
    intro a ha hlt
    rw [h₀, ← hoff a ha]
    exact lt_of_le_of_lt hx ((h x a).1 hlt)

theorem ByRank.movedDown (h₀ : ByRank rank₀ less₀) (h : ByRank rank less) {x : ι}
    (hoff : ∀ a, a ≠ x → rank a = rank₀ a) (hx : rank x ≤ rank₀ x) :
    MovedDown less₀ less x where
  off := h₀.off h hoff
  above := by
    intro a ha hlt
    rw [h₀, ← hoff a ha]
    exact lt_of_lt_of_le ((h a x).1 hlt) hx
  below := by
    intro a ha hlt
    rw [h, hoff a ha]
    exact lt_of_le_of_lt hx ((h₀ x a).1 hlt)

end ByRank

/-- The interface of a mutable max-heap over handles `ι`. Every operation
that compares takes the comparator as it stands at the call. -/
class MutableHeap (H : Type) (ι : outParam Type) where
  empty : H
  elems : H → List ι
  push : (ι → ι → Bool) → H → ι → H
  erase : (ι → ι → Bool) → H → ι → H
  increase : (ι → ι → Bool) → H → ι → H
  decrease : (ι → ι → Bool) → H → ι → H
  top : H → Option ι
  ordered : (ι → ι → Bool) → H → List ι
  HeapOrdered : (ι → ι → Bool) → H → Prop

open MutableHeap

/-- What the operations owe, membership first and order second. -/
class LawfulMutableHeap (H : Type) {ι : outParam Type} [MutableHeap H ι] :
    Prop where
  elems_empty : elems (empty : H) = []
  mem_push {less : ι → ι → Bool} {h : H} {x y : ι} :
    y ∈ elems (push less h x) ↔ y = x ∨ y ∈ elems h
  mem_erase {less : ι → ι → Bool} {h : H} {x y : ι} :
    y ∈ elems (erase less h x) ↔ y ∈ elems h ∧ y ≠ x
  mem_increase {less : ι → ι → Bool} {h : H} {x y : ι} :
    y ∈ elems (increase less h x) ↔ y ∈ elems h
  mem_decrease {less : ι → ι → Bool} {h : H} {x y : ι} :
    y ∈ elems (decrease less h x) ↔ y ∈ elems h
  mem_ordered {less : ι → ι → Bool} {h : H} {y : ι} :
    y ∈ ordered less h ↔ y ∈ elems h
  top_mem {h : H} {x : ι} : top h = some x → x ∈ elems h
  top_isSome {h : H} {x : ι} : x ∈ elems h → (top h).isSome
  ordered_empty {less : ι → ι → Bool} : HeapOrdered less (empty : H)
  ordered_congr {less₀ less : ι → ι → Bool} {h : H} :
    (∀ a ∈ elems h, ∀ b ∈ elems h, less a b = less₀ a b) →
    HeapOrdered less₀ h → HeapOrdered less h
  ordered_push {less : ι → ι → Bool} {h : H} {x : ι} : StrictWeak less →
    x ∉ elems h → HeapOrdered less h → HeapOrdered less (push less h x)
  ordered_erase {less : ι → ι → Bool} {h : H} {x : ι} : StrictWeak less →
    HeapOrdered less h → HeapOrdered less (erase less h x)
  ordered_increase {less₀ less : ι → ι → Bool} {h : H} {x : ι} :
    StrictWeak less → x ∈ elems h → MovedUp less₀ less x →
    HeapOrdered less₀ h → HeapOrdered less (increase less h x)
  ordered_decrease {less₀ less : ι → ι → Bool} {h : H} {x : ι} :
    StrictWeak less → x ∈ elems h → MovedDown less₀ less x →
    HeapOrdered less₀ h → HeapOrdered less (decrease less h x)
  top_greatest {less : ι → ι → Bool} {h : H} {x y : ι} :
    StrictWeak less → HeapOrdered less h → top h = some x → y ∈ elems h →
    less x y = false

/-- What going through a heap in order owes: it begins with the top and never goes up. -/
class OrderedIteration (H : Type) {ι : outParam Type} [MutableHeap H ι] : Prop where
  ordered_head {less : ι → ι → Bool} {h : H} : (ordered less h).head? = top h
  ordered_descending {less : ι → ι → Bool} {h : H} : StrictWeak less → HeapOrdered less h →
    (ordered less h).Pairwise fun a b => less a b = false

/-! ## Sorted queues

The descending list. `increase` only ever moves its element towards the head
and `decrease` only towards the tail, so either of them leaves a wrongly
announced change where it was. -/

/-- Handles in descending order, each at most once. -/
structure SortedQueue (ι : Type) where
  list : List ι
  nodup : list.Nodup

variable {ι : Type}

/-- Put `x` in front of the first element of `l` that is below it. -/
def insertDesc (less : ι → ι → Bool) (x : ι) : List ι → List ι
  | [] => [x]
  | y :: ys => if less y x then x :: y :: ys else y :: insertDesc less x ys

theorem insertDesc_perm (less : ι → ι → Bool) (x : ι) (l : List ι) :
    (insertDesc less x l).Perm (x :: l) := by
  induction l with
  | nil => exact List.Perm.refl _
  | cons y ys ih =>
      rw [insertDesc]
      split
      · exact List.Perm.refl _
      · exact (List.Perm.cons y ih).trans (List.Perm.swap x y ys)

theorem mem_insertDesc {less : ι → ι → Bool} {x y : ι} {l : List ι} :
    y ∈ insertDesc less x l ↔ y = x ∨ y ∈ l := by
  rw [(insertDesc_perm less x l).mem_iff, List.mem_cons]

/-- Descending: no element is below one that comes after it. -/
def Descending (less : ι → ι → Bool) (l : List ι) : Prop :=
  l.Pairwise fun a b => less a b = false

theorem insertDesc_descending {less : ι → ι → Bool} (hw : StrictWeak less)
    {x : ι} {l : List ι} (hl : Descending less l) :
    Descending less (insertDesc less x l) := by
  induction l with
  | nil => exact List.pairwise_singleton _ _
  | cons y ys ih =>
      obtain ⟨hy, hys⟩ := List.pairwise_cons.1 hl
      rw [insertDesc]
      split <;> rename_i hyx
      · refine List.pairwise_cons.2 ⟨fun b hb => ?_, hl⟩
        have hxy := hw.asymm hyx
        rcases List.mem_cons.1 hb with rfl | hb
        · exact hxy
        · exact hw.not_less_trans hxy (hy b hb)
      · refine List.pairwise_cons.2 ⟨fun b hb => ?_, ih hys⟩
        rcases mem_insertDesc.1 hb with rfl | hb
        · simpa using hyx
        · exact hy b hb

theorem Descending.congr {less₀ less : ι → ι → Bool} {l : List ι}
    (h : ∀ a ∈ l, ∀ b ∈ l, less a b = less₀ a b) (hl : Descending less₀ l) :
    Descending less l :=
  List.Pairwise.imp_of_mem (fun ha hb hab => by rw [h _ ha _ hb]; exact hab) hl

variable [DecidableEq ι]

/-- The elements in front of `x`, and those behind it. -/
def before (x : ι) (l : List ι) : List ι := l.takeWhile (· ≠ x)

def after (x : ι) (l : List ι) : List ι := (l.dropWhile (· ≠ x)).tail

theorem before_append_after {x : ι} {l : List ι} (hx : x ∈ l) :
    before x l ++ x :: after x l = l := by
  induction l with
  | nil => cases hx
  | cons y ys ih =>
      by_cases hy : y = x
      · subst hy; simp [before, after]
      · have hx' : x ∈ ys := by simpa [Ne.symm hy] using hx
        have := ih hx'
        simp only [before, after, ne_eq, decide_not] at this
        simp [before, after, hy, this]

/-- Move `x` towards the head, past everything below it. -/
def siftUp (less : ι → ι → Bool) (l : List ι) (x : ι) : List ι :=
  if x ∈ l then insertDesc less x (before x l) ++ after x l else l

/-- Move `x` towards the tail, behind everything not below it. -/
def siftDown (less : ι → ι → Bool) (l : List ι) (x : ι) : List ι :=
  if x ∈ l then before x l ++ insertDesc less x (after x l) else l

theorem siftUp_perm (less : ι → ι → Bool) (l : List ι) (x : ι) :
    (siftUp less l x).Perm l := by
  rw [siftUp]
  split <;> rename_i hx
  · calc insertDesc less x (before x l) ++ after x l
        |>.Perm (x :: before x l ++ after x l) :=
          (insertDesc_perm less x _).append_right _
      _ |>.Perm (before x l ++ x :: after x l) := List.perm_middle.symm
      _ |>.Perm l := by rw [before_append_after hx]
  · exact List.Perm.refl _

theorem siftDown_perm (less : ι → ι → Bool) (l : List ι) (x : ι) :
    (siftDown less l x).Perm l := by
  rw [siftDown]
  split <;> rename_i hx
  · calc before x l ++ insertDesc less x (after x l)
        |>.Perm (before x l ++ x :: after x l) :=
          (insertDesc_perm less x _).append_left _
      _ |>.Perm l := by rw [before_append_after hx]
  · exact List.Perm.refl _

namespace SortedQueue

def insert (less : ι → ι → Bool) (q : SortedQueue ι) (x : ι) : SortedQueue ι :=
  if hx : x ∈ q.list then q
  else ⟨insertDesc less x q.list,
    (insertDesc_perm less x q.list).nodup_iff.2 (List.nodup_cons.2 ⟨hx, q.nodup⟩)⟩

def increase (less : ι → ι → Bool) (q : SortedQueue ι) (x : ι) : SortedQueue ι :=
  ⟨siftUp less q.list x, (siftUp_perm less q.list x).nodup_iff.2 q.nodup⟩

def decrease (less : ι → ι → Bool) (q : SortedQueue ι) (x : ι) : SortedQueue ι :=
  ⟨siftDown less q.list x, (siftDown_perm less q.list x).nodup_iff.2 q.nodup⟩

instance : MutableHeap (SortedQueue ι) ι where
  empty := ⟨[], List.nodup_nil⟩
  elems q := q.list
  push := insert
  erase _ q x := ⟨q.list.erase x, q.nodup.erase x⟩
  increase := increase
  decrease := decrease
  top q := q.list.head?
  ordered _ q := q.list
  HeapOrdered less q := Descending less q.list

end SortedQueue

theorem mem_after_ne {x y : ι} {l : List ι} (hn : l.Nodup) (hx : x ∈ l)
    (hy : y ∈ after x l) : y ≠ x := by
  rw [← before_append_after hx] at hn
  have h := (List.nodup_append.1 hn).2.1
  rintro rfl
  exact (List.nodup_cons.1 h).1 hy

theorem mem_before_ne {x y : ι} {l : List ι} (hy : y ∈ before x l) : y ≠ x := by
  have := List.all_takeWhile (p := (· ≠ x)) (l := l)
  simpa using List.all_eq_true.1 this y hy

/-- The descending list around `x`: both sides are descending, and what is
in front is not below what is behind. -/
theorem Descending.around {less : ι → ι → Bool} {x : ι} {l : List ι}
    (hx : x ∈ l) (hl : Descending less l) :
    Descending less (before x l) ∧ Descending less (after x l) ∧
      (∀ a ∈ before x l, less a x = false) ∧
      (∀ b ∈ after x l, less x b = false) ∧
      ∀ a ∈ before x l, ∀ b ∈ after x l, less a b = false := by
  rw [← before_append_after hx] at hl
  obtain ⟨hb, ha, hab⟩ := List.pairwise_append.1 hl
  obtain ⟨hxa, ha⟩ := List.pairwise_cons.1 ha
  exact ⟨hb, ha, fun a h => hab a h x (by simp), hxa,
    fun a h b h' => hab a h b (by simp [h'])⟩

theorem siftUp_descending {less₀ less : ι → ι → Bool} {x : ι} {l : List ι}
    (hw : StrictWeak less) (hn : l.Nodup) (hx : x ∈ l)
    (hm : MovedUp less₀ less x) (hl : Descending less₀ l) :
    Descending less (siftUp less l x) := by
  obtain ⟨hb, ha, -, hxa, hba⟩ := hl.around hx
  have hb' : Descending less (before x l) :=
    hb.congr fun a h b h' => hm.off (mem_before_ne h) (mem_before_ne h')
  have ha' : Descending less (after x l) :=
    ha.congr fun a h b h' => hm.off (mem_after_ne hn hx h) (mem_after_ne hn hx h')
  rw [siftUp, if_pos hx]
  refine List.pairwise_append.2 ⟨insertDesc_descending hw hb', ha', ?_⟩
  intro a hmem b hb
  have hbx := mem_after_ne hn hx hb
  rcases mem_insertDesc.1 hmem with rfl | hmem
  · -- `x` was not below what followed it, and moving up keeps it so.
    cases h : less a b with
    | false => rfl
    | true => rw [← hxa b hb]; exact (hm.below hbx h).symm
  · rw [hm.off (mem_before_ne hmem) hbx]
    exact hba a hmem b hb

theorem siftDown_descending {less₀ less : ι → ι → Bool} {x : ι} {l : List ι}
    (hw : StrictWeak less) (hn : l.Nodup) (hx : x ∈ l)
    (hm : MovedDown less₀ less x) (hl : Descending less₀ l) :
    Descending less (siftDown less l x) := by
  obtain ⟨hb, ha, hbx, -, hba⟩ := hl.around hx
  have hb' : Descending less (before x l) :=
    hb.congr fun a h b h' => hm.off (mem_before_ne h) (mem_before_ne h')
  have ha' : Descending less (after x l) :=
    ha.congr fun a h b h' => hm.off (mem_after_ne hn hx h) (mem_after_ne hn hx h')
  rw [siftDown, if_pos hx]
  refine List.pairwise_append.2 ⟨hb', insertDesc_descending hw ha', ?_⟩
  intro a hmem b hb
  have hax := mem_before_ne hmem
  rcases mem_insertDesc.1 hb with rfl | hb
  · -- Nothing in front was below `x`, and moving down keeps it so.
    cases h : less a b with
    | false => rfl
    | true => rw [← hbx a hmem]; exact (hm.above hax h).symm
  · rw [hm.off hax (mem_after_ne hn hx hb)]
    exact hba a hmem b hb

instance : LawfulMutableHeap (SortedQueue ι) where
  elems_empty := rfl
  mem_push := by
    intro less q x y
    show y ∈ (SortedQueue.insert less q x).list ↔ y = x ∨ y ∈ q.list
    rw [SortedQueue.insert]
    split <;> rename_i hx
    · exact ⟨Or.inr, fun h => h.elim (fun e => e ▸ hx) id⟩
    · exact mem_insertDesc
  mem_erase := by
    intro less q x y
    show y ∈ q.list.erase x ↔ y ∈ q.list ∧ y ≠ x
    rw [q.nodup.mem_erase_iff]
    exact and_comm
  mem_increase := (siftUp_perm _ _ _).mem_iff
  mem_decrease := (siftDown_perm _ _ _).mem_iff
  mem_ordered := Iff.rfl
  top_mem := List.mem_of_head?
  top_isSome := by
    rintro ⟨l, hn⟩ x hx
    cases l with
    | nil => cases hx
    | cons y ys => rfl
  ordered_empty := List.Pairwise.nil
  ordered_congr := fun h hl => Descending.congr h hl
  ordered_push := by
    intro less q x hw hx hl
    show Descending less (SortedQueue.insert less q x).list
    rw [SortedQueue.insert, dif_neg (show x ∉ q.list from hx)]
    exact insertDesc_descending hw hl
  ordered_erase := fun _ hl => List.Pairwise.sublist List.erase_sublist hl
  ordered_increase := fun hw hx hm hl => siftUp_descending hw (SortedQueue.nodup _) hx hm hl
  ordered_decrease := fun hw hx hm hl => siftDown_descending hw (SortedQueue.nodup _) hx hm hl
  top_greatest := by
    rintro less ⟨l, hn⟩ x y hw hl ht hy
    cases l with
    | nil => cases hy
    | cons z zs =>
        obtain rfl : z = x := Option.some.inj ht
        rcases List.mem_cons.1 hy with rfl | hy
        · exact hw.irrefl y
        · exact (List.pairwise_cons.1 hl).1 y hy

instance : OrderedIteration (SortedQueue ι) where
  ordered_head := rfl
  ordered_descending := fun _ hl => hl

end Sunstrider.Lib
