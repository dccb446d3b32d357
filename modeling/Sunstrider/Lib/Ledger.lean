import Mathlib

/-!
# Sums over a finite map

A map from keys to values, and a weight for each of its entries. `weigh` adds the
weights up; counting the entries of a kind is adding up ones. Every statement
about an operation on the map is stated as a balance, the old sum on one side and
the new one on the other, so that a natural number is never subtracted from.
-/

set_option linter.unusedSectionVars false

namespace Sunstrider.Lib

/-- A map with at most one value for a key. -/
abbrev Ledger (κ α : Type) := AList (fun _ : κ => α)

namespace Ledger

section Weigh

variable {κ α M : Type} [DecidableEq κ] [AddCommMonoid M]

variable {s : Ledger κ α} {k : κ} {a : α}

/-- The sum of the weights of the entries. -/
def weigh (s : Ledger κ α) (f : κ → α → M) : M := (s.entries.map fun e => f e.1 e.2).sum

theorem weigh_congr {f g : κ → α → M} (h : ∀ k a, s.lookup k = some a → f k a = g k a) :
    weigh s f = weigh s g := by
  unfold weigh
  congr 1
  refine List.map_congr_left fun e he => ?_
  exact h e.1 e.2 (AList.mem_lookup_iff.2 he)

theorem weigh_eq_zero {f : κ → α → M} (h : ∀ k a, s.lookup k = some a → f k a = 0) :
    weigh s f = 0 := by
  rw [weigh_congr (g := fun _ _ => 0) h]
  simp [weigh]

theorem weigh_add (s : Ledger κ α) (f g : κ → α → M) :
    weigh s (fun k a => f k a + g k a) = weigh s f + weigh s g :=
  List.sum_map_add

theorem weigh_insert_of_notMem (hk : k ∉ s) (a : α) (f : κ → α → M) :
    weigh (s.insert k a) f = f k a + weigh s f := by
  unfold weigh
  rw [AList.entries_insert_of_notMem hk, List.map_cons, List.sum_cons]

theorem weigh_erase (hk : s.lookup k = some a) (f : κ → α → M) :
    f k a + weigh (s.erase k) f = weigh s f := by
  have hmem : (⟨k, a⟩ : Sigma fun _ : κ => α) ∈ s.entries := AList.mem_lookup_iff.1 hk
  have hperm : List.Perm s.entries (⟨k, a⟩ :: s.entries.kerase k) := by
    obtain ⟨b, l₁, l₂, hnot, heq, herase⟩ :=
      List.exists_of_kerase (List.mem_keys_of_mem hmem)
    have hb : b = a := by
      have hin : (⟨k, b⟩ : Sigma fun _ : κ => α) ∈ s.entries := by simp [heq]
      exact Option.some.inj ((AList.mem_lookup_iff.2 hin).symm.trans hk)
    rw [herase, heq, hb]
    exact List.perm_middle
  show f k a + ((s.entries.kerase k).map fun e => f e.1 e.2).sum = _
  unfold weigh
  rw [(hperm.map _).sum_eq, List.map_cons, List.sum_cons]

theorem weigh_erase_of_notMem (hk : k ∉ s) (f : κ → α → M) : weigh (s.erase k) f = weigh s f := by
  unfold weigh
  congr 2
  exact List.kerase_of_notMem_keys hk

/-- The entry of a key is replaced. -/
theorem weigh_insert (hk : s.lookup k = some a) (b : α) (f : κ → α → M) :
    f k a + weigh (s.insert k b) f = f k b + weigh s f := by
  have hins : weigh (s.insert k b) f = f k b + weigh (s.erase k) f := rfl
  rw [hins, ← weigh_erase hk f, ← add_assoc, ← add_assoc, add_comm (f k a)]

theorem weigh_nonneg {f : κ → α → Int} (h : ∀ k a, s.lookup k = some a → 0 ≤ f k a) :
    0 ≤ weigh s f := by
  refine List.sum_nonneg fun n hn => ?_
  obtain ⟨e, he, rfl⟩ := List.mem_map.1 hn
  exact h e.1 e.2 (AList.mem_lookup_iff.2 he)

/-- A sum without negative weights is zero only if all weights are. -/
theorem weigh_eq_zero_iff {f : κ → α → Int} (h : ∀ k a, s.lookup k = some a → 0 ≤ f k a) :
    weigh s f = 0 ↔ ∀ k a, s.lookup k = some a → f k a = 0 := by
  refine ⟨fun hzero k a hk => ?_, weigh_eq_zero⟩
  have herase := weigh_erase hk f
  have hrest : 0 ≤ weigh (s.erase k) f := by
    refine weigh_nonneg fun k' b hb => ?_
    by_cases hne : k' = k
    · rw [hne, AList.lookup_erase] at hb
      cases hb
    · rw [AList.lookup_erase_ne hne] at hb
      exact h k' b hb
  have hself := h k a hk
  omega

theorem length_erase (hk : s.lookup k = some a) :
    1 + (s.erase k).entries.length = s.entries.length := by
  have h := weigh_erase hk fun _ _ => 1
  simpa [weigh] using h

end Weigh

section Count

variable {κ α : Type} [DecidableEq κ]

variable {s : Ledger κ α} {p : κ → α → Bool} {k : κ} {a : α}

/-- How many entries are of a kind. -/
def count (s : Ledger κ α) (p : κ → α → Bool) : Nat := weigh s fun k a => (p k a).toNat

theorem count_congr {q : κ → α → Bool} (h : ∀ k a, s.lookup k = some a → p k a = q k a) :
    count s p = count s q :=
  weigh_congr fun k a hk => by rw [h k a hk]

theorem count_eq_zero (h : ∀ k a, s.lookup k = some a → p k a = false) : count s p = 0 :=
  weigh_eq_zero fun k a hk => by rw [h k a hk]; rfl

theorem count_insert_of_notMem (hk : k ∉ s) (a : α) (p : κ → α → Bool) :
    count (s.insert k a) p = (p k a).toNat + count s p :=
  weigh_insert_of_notMem hk a fun k a => (p k a).toNat

theorem count_erase (hk : s.lookup k = some a) (p : κ → α → Bool) :
    (p k a).toNat + count (s.erase k) p = count s p :=
  weigh_erase hk fun k a => (p k a).toNat

theorem count_pos (hk : s.lookup k = some a) (hp : p k a = true) : 0 < count s p := by
  have h := count_erase hk p
  rw [hp, Bool.toNat_true] at h
  omega

theorem count_eq_countP (s : Ledger κ α) (p : κ → α → Bool) :
    count s p = s.entries.countP fun e => p e.1 e.2 := by
  show (s.entries.map fun e => (p e.1 e.2).toNat).sum = _
  induction s.entries with
  | nil => rfl
  | cons e l ih =>
    rw [List.map_cons, List.sum_cons, ih, List.countP_cons]
    cases p e.1 e.2 <;> simp [Nat.add_comm]

/-- A list of keys without repetition that names the entries of a kind counts them. -/
theorem count_eq_length {l : List κ} (hl : l.Nodup)
    (h : ∀ k, k ∈ l ↔ ∃ a, s.lookup k = some a ∧ p k a = true) : count s p = l.length := by
  let kept := s.entries.filter fun e => p e.1 e.2
  have hnodup : (kept.map Sigma.fst).Nodup :=
    List.Nodup.sublist (List.filter_sublist.map _) s.keys_nodup
  have hmem : ∀ k, k ∈ kept.map Sigma.fst ↔ k ∈ l := by
    intro k
    rw [h k, List.mem_map]
    refine ⟨?_, ?_⟩
    · rintro ⟨e, he, rfl⟩
      obtain ⟨hin, hp⟩ := List.mem_filter.1 he
      exact ⟨e.2, AList.mem_lookup_iff.2 hin, hp⟩
    · rintro ⟨a, ha, hp⟩
      exact ⟨⟨k, a⟩, List.mem_filter.2 ⟨AList.mem_lookup_iff.1 ha, hp⟩, rfl⟩
  have hperm := (List.perm_ext_iff_of_nodup hnodup hl).2 hmem
  rw [count_eq_countP, List.countP_eq_length_filter, ← hperm.length_eq, List.length_map]

/-- Ones are added up by counting. -/
theorem sum_ite_eq_countP {β : Type} (p : β → Prop) [DecidablePred p] (l : List β) :
    (l.map fun b => if p b then (1 : Int) else 0).sum = l.countP fun b => p b := by
  induction l with
  | nil => rfl
  | cons b l ih =>
      rw [List.map_cons, List.sum_cons, List.countP_cons, ih]
      split <;> rename_i hp
      · rw [if_pos (decide_eq_true hp)]
        omega
      · rw [if_neg (by simpa using hp)]
        omega

theorem weigh_ite_eq_count (s : Ledger κ α) (p : κ → α → Prop) [∀ k a, Decidable (p k a)] :
    weigh s (fun k a => if p k a then (1 : Int) else 0) = count s fun k a => p k a := by
  rw [count_eq_countP]
  exact sum_ite_eq_countP (fun e : Sigma fun _ : κ => α => p e.1 e.2) s.entries

theorem of_count_eq_zero (h : count s p = 0) {k : κ} {a : α} (hk : s.lookup k = some a) :
    p k a = false := by
  cases hp : p k a with
  | false => rfl
  | true =>
      have hpos := count_pos hk hp
      omega

end Count

end Ledger

end Sunstrider.Lib
