import Mathlib

/-!
# Taking turns

Some stand in a list, one of them has the turn, and it goes to the next who may
have it: those behind come first, then those from the start, and whoever had the
turn comes last. `following` is the list in that order.

Where nobody stands twice, passing the turn on turns that order by one, if only
those are looked at who may have it. So over many turns they come round in a fixed
order, and nobody gets two turns more than another.
-/

namespace Sunstrider.Lib

variable {α : Type*} [DecidableEq α] {l before after : List α} {c w : α} {E : α → Bool}

/-- All in the order in which they are asked, if `c` had the turn. -/
def following (l : List α) (c : α) : List α :=
  if c ∈ l then l.rotate (l.idxOf c + 1) else l

/-- Who has the turn after `c`. -/
def nextTurn (E : α → Bool) (l : List α) (c : α) : Option α := (following l c).find? E

theorem following_append (h : c ∉ before) :
    following (before ++ c :: after) c = after ++ before ++ [c] := by
  have hidx : (before ++ c :: after).idxOf c + 1 = (before ++ [c]).length := by
    rw [List.idxOf_append_of_notMem h, List.idxOf_cons_self, List.length_append,
      List.length_singleton]
  rw [following, if_pos (by simp), hidx, ← List.singleton_append, ← List.append_assoc,
    List.rotate_append_length_eq, List.append_assoc]

theorem mem_following {x : α} : x ∈ following l c ↔ x ∈ l := by
  unfold following
  split
  · exact List.mem_rotate
  · rfl

theorem nodup_following (h : l.Nodup) : (following l c).Nodup := by
  unfold following
  split
  · exact List.nodup_rotate.2 h
  · exact h

/-- Where the list begins does not matter for who has been found in it. -/
theorem following_swap {first second : List α} (h : (first ++ second).Nodup)
    (hc : c ∈ first ++ second) :
    following (second ++ first) c = following (first ++ second) c := by
  obtain ⟨hfirst, hsecond, hapart⟩ := List.nodup_append'.1 h
  rcases List.mem_append.1 hc with hc | hc
  · obtain ⟨b, a, rfl⟩ := List.append_of_mem hc
    have hb : c ∉ b := fun hin =>
      (List.nodup_append'.1 hfirst).2.2 hin List.mem_cons_self
    have hs : c ∉ second ++ b := by
      rw [List.mem_append, not_or]
      exact ⟨fun hin => hapart (by simp) hin, hb⟩
    rw [← List.append_assoc, following_append hs, List.append_assoc b, List.cons_append,
      following_append hb]
    simp
  · obtain ⟨b, a, rfl⟩ := List.append_of_mem hc
    have hb : c ∉ b := fun hin =>
      (List.nodup_append'.1 hsecond).2.2 hin List.mem_cons_self
    have hs : c ∉ first ++ b := by
      rw [List.mem_append, not_or]
      exact ⟨fun hin => hapart hin (by simp), hb⟩
    rw [← List.append_assoc first, following_append hs, List.append_assoc b, List.cons_append,
      following_append hb]
    simp

theorem following_following (h : l.Nodup) (hw : w ∈ l) :
    following (following l c) w = following l w := by
  by_cases hc : c ∈ l
  · obtain ⟨b, a, rfl⟩ := List.append_of_mem hc
    have hb : c ∉ b := fun hin =>
      (List.nodup_append'.1 h).2.2 hin List.mem_cons_self
    have hsplit : b ++ c :: a = (b ++ [c]) ++ a := by simp
    rw [following_append hb, List.append_assoc, hsplit]
    exact following_swap (hsplit ▸ h) (hsplit ▸ hw)
  · rw [show following l c = l from if_neg hc]

/-- The turn passed on: the order of those who may have it goes round by one. -/
theorem filter_following_next (h : l.Nodup) (hw : nextTurn E l c = some w) :
    (following l w).filter E = ((following l c).filter E).rotate 1 := by
  have hmem : w ∈ l := mem_following.1 (List.mem_of_find?_eq_some hw)
  obtain ⟨hE, first, rest, hsplit, hfirst⟩ := List.find?_eq_some_iff_append.1 hw
  have hnodup : (first ++ w :: rest).Nodup := hsplit ▸ nodup_following h
  have hw' : w ∉ first := fun hin =>
    (List.nodup_append'.1 hnodup).2.2 hin List.mem_cons_self
  have hnone : first.filter E = [] := by
    rw [List.filter_eq_nil_iff]
    intro x hx
    simpa using hfirst x hx
  rw [← following_following (c := c) h hmem, hsplit, following_append hw']
  simp [hnone, hE]

/-! ## Many turns -/

/-- `turn k` has the turn at the `k`-th time. -/
structure TakeTurns (E : α → Bool) (l : List α) (turn : Nat → α) : Prop where
  next : ∀ k, nextTurn E l (turn k) = some (turn (k + 1))

namespace TakeTurns

variable {turn : Nat → α}

theorem filter_following (ht : TakeTurns E l turn) (h : l.Nodup) (k : Nat) :
    (following l (turn k)).filter E = ((following l (turn 0)).filter E).rotate k := by
  induction k with
  | zero => rw [List.rotate_zero]
  | succ k ih => rw [filter_following_next h (ht.next k), ih, List.rotate_rotate]

/-- They come round in the order of those who may have the turn. -/
theorem turn_eq (ht : TakeTurns E l turn) (h : l.Nodup) (k : Nat) :
    ((following l (turn 0)).filter E)[k % ((following l (turn 0)).filter E).length]? =
      some (turn (k + 1)) := by
  have hhead : ((following l (turn k)).filter E).head? = some (turn (k + 1)) := by
    rw [List.head?_filter]
    exact ht.next k
  have hpos : 0 < ((following l (turn 0)).filter E).length := by
    rw [← List.length_rotate (n := k), ← ht.filter_following h k]
    cases hlist : (following l (turn k)).filter E with
    | nil =>
        rw [hlist] at hhead
        cases hhead
    | cons x xs => exact Nat.succ_pos _
  rw [← List.head?_rotate (Nat.mod_lt _ hpos), List.rotate_mod, ← ht.filter_following h k]
  exact hhead

/-- Who gives his own turn away is asked last, so he is the end of the order. -/
theorem turn_eq_of_mem (ht : TakeTurns E l turn) (h : l.Nodup) (h0 : turn 0 ∈ l)
    (hE : E (turn 0) = true) (k : Nat) :
    ((following l (turn 0)).filter E)[(k + (((following l (turn 0)).filter E).length - 1)) %
      ((following l (turn 0)).filter E).length]? = some (turn k) := by
  obtain ⟨b, a, hl⟩ := List.append_of_mem h0
  have hb : turn 0 ∉ b := fun hin =>
    (List.nodup_append'.1 (hl ▸ h)).2.2 hin List.mem_cons_self
  have horder : (following l (turn 0)).filter E = (a ++ b).filter E ++ [turn 0] := by
    conv_lhs => rw [hl]
    rw [following_append hb, List.filter_append, List.filter_singleton, hE, cond_true]
  have hlen : ((following l (turn 0)).filter E).length = ((a ++ b).filter E).length + 1 := by
    rw [horder, List.length_append, List.length_singleton]
  cases k with
  | zero =>
      rw [Nat.zero_add, Nat.mod_eq_of_lt (by omega), hlen, Nat.add_sub_cancel, horder,
        List.getElem?_concat_length]
  | succ k =>
      rw [← ht.turn_eq h k, show k + 1 + (((following l (turn 0)).filter E).length - 1) =
        k + ((following l (turn 0)).filter E).length by omega, Nat.add_mod_right]

end TakeTurns

/-- Of `n` turns that go round a list each gets his share, or one more. -/
theorem count_round {order : List α} {turn : Nat → α} {a : Nat} (ha : a ≤ order.length)
    (hturn : ∀ k, order[(k + a) % order.length]? = some (turn k)) (hnodup : order.Nodup)
    (hw : w ∈ order) (n : Nat) :
    n / order.length ≤ Nat.count (fun k => turn k = w) n ∧
      Nat.count (fun k => turn k = w) n ≤ n / order.length + 1 := by
  obtain ⟨i, hi, rfl⟩ := List.getElem_of_mem hw
  have hpos : 0 < order.length := Nat.lt_of_le_of_lt (Nat.zero_le i) hi
  -- the turn is his whenever the place is
  have hiff : ∀ k, turn k = order[i] ↔ k ≡ i + (order.length - a) [MOD order.length] := by
    intro k
    have hk := Nat.mod_lt (k + a) hpos
    have hat : order[(k + a) % order.length] = turn k := by
      rw [← Option.some_inj, ← List.getElem?_eq_getElem hk]
      exact hturn k
    rw [← hat, hnodup.getElem_inj_iff]
    constructor
    · intro hplace
      have hround : k + a + (order.length - a) ≡ i + (order.length - a) [MOD order.length] :=
        Nat.ModEq.add_right _ (by rw [Nat.ModEq, hplace, Nat.mod_eq_of_lt hi])
      rwa [Nat.add_assoc, Nat.add_sub_cancel' ha, Nat.ModEq, Nat.add_mod_right] at hround
    · intro hround
      have hplace := hround.add_right a
      rw [Nat.add_assoc, Nat.sub_add_cancel ha, Nat.ModEq, Nat.add_mod_right] at hplace
      rw [hplace, Nat.mod_eq_of_lt hi]
  have hcount : Nat.count (fun k => turn k = order[i]) n =
      Nat.count (fun k => k ≡ i + (order.length - a) [MOD order.length]) n :=
    le_antisymm (Nat.count_mono_left fun k _ => (hiff k).1)
      (Nat.count_mono_left fun k _ => (hiff k).2)
  rw [hcount, Nat.count_modEq_card _ hpos]
  split <;> omega

/-- Two who may have the turn get it equally often, up to one. -/
theorem TakeTurns.count_le {turn : Nat → α} (ht : TakeTurns E l turn) (h : l.Nodup)
    (h0 : turn 0 ∈ l) (hE0 : E (turn 0) = true) {v : α} (hv : v ∈ l) (hEv : E v = true)
    (hw : w ∈ l) (hEw : E w = true) (n : Nat) :
    Nat.count (fun k => turn k = v) n ≤ Nat.count (fun k => turn k = w) n + 1 := by
  have hnodup := (nodup_following (c := turn 0) h).filter E
  have hround {x : α} (hx : x ∈ l) (hEx : E x = true) :=
    count_round (Nat.sub_le _ 1) (ht.turn_eq_of_mem h h0 hE0) hnodup
      (List.mem_filter.2 ⟨mem_following.2 hx, hEx⟩) n
  exact (hround hv hEv).2.trans (Nat.add_le_add_right (hround hw hEw).1 1)

/-! ## Passing it on -/

/-- `c` gives the turn on; he keeps it where nobody may have it. -/
def pass (E : α → Bool) (l : List α) (c : α) : α := (nextTurn E l c).getD c

theorem nextTurn_eq_pass (hw : w ∈ l) (hE : E w = true) (c : α) :
    nextTurn E l c = some (pass E l c) := by
  cases hnext : nextTurn E l c with
  | none =>
      have hnot := List.find?_eq_none.1 hnext w (mem_following.2 hw)
      exact absurd hE hnot
  | some x => rw [pass, hnext, Option.getD_some]

theorem takeTurns_pass (hw : w ∈ l) (hE : E w = true) (c : α) :
    TakeTurns E l fun k => (pass E l)^[k] c where
  next k := by
    rw [nextTurn_eq_pass hw hE, Function.iterate_succ_apply']

end Sunstrider.Lib
