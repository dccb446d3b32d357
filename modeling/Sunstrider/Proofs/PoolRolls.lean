import Sunstrider.Pools.PoolMgr

/-!
# What a roll can give

The objects rolled for a group are some of its members, in the order of its lists,
each of them inactive or the one that triggered the call, and if there is a limit they
are no more than are missing. Which ones they are is up to the random numbers.
-/

set_option linter.unusedSectionVars false

namespace Sunstrider.Pools

variable {F : Type} [Chance F]

namespace PoolGroup

/-- All objects of a group, in the order in which they are removed. -/
def members (g : PoolGroup F) : List (PoolObject F) := g.equalChanced ++ g.explicitlyChanced

variable {g : PoolGroup F} {out : Outside F} {k : Kind}

theorem rollExplicit_cases (s : ActivePoolData) (triggerFrom : Nat) (roll : F)
    (l : List (PoolObject F)) :
    rollExplicit s k triggerFrom roll l = [] ∨
      ∃ o ∈ l, rollExplicit s k triggerFrom roll l = [o] ∧ eligible s k triggerFrom o := by
  induction l generalizing roll with
  | nil => exact .inl rfl
  | cons o l ih =>
      rw [rollExplicit]
      split <;> rename_i h
      · exact .inr ⟨o, List.mem_cons_self, rfl, h.2⟩
      · rcases ih (roll - o.chance) with hnil | ⟨o', ho', he, hel⟩
        · exact .inl hnil
        · exact .inr ⟨o', List.mem_cons_of_mem _ ho', he, hel⟩

theorem randomKeep_spec {α : Type} (l : List α) (n clock : Nat) :
    (randomKeep out n l clock).1.Sublist l ∧ (randomKeep out n l clock).1.length ≤ n := by
  induction l generalizing n clock with
  | nil => exact ⟨List.Sublist.refl _, Nat.zero_le _⟩
  | cons x l ih =>
      rw [randomKeep]
      split <;> rename_i h
      · obtain ⟨hsub, hlen⟩ := ih (n - 1) (clock + 1)
        have hdraw := (out.urand_mem clock 1 (l.length + 1) (by omega)).1
        refine ⟨hsub.cons_cons x, ?_⟩
        show (randomKeep out (n - 1) l (clock + 1)).1.length + 1 ≤ n
        omega
      · obtain ⟨hsub, hlen⟩ := ih n (clock + 1)
        exact ⟨hsub.cons x, hlen⟩

theorem randomResize_spec {α : Type} (out : Outside F) (l : List α) (n clock : Nat) :
    (randomResize out n l clock).1.Sublist l ∧ (randomResize out n l clock).1.length ≤ n := by
  unfold randomResize
  split <;> rename_i h
  · exact ⟨List.Sublist.refl _, h⟩
  · exact randomKeep_spec l n clock

/-- What a roll gives. -/
structure Rolled (g : PoolGroup F) (k : Kind) (triggerFrom : Nat) (s : ActivePoolData)
    (limit : Nat) (count : Int) (rolled : List (PoolObject F)) : Prop where
  sublist : rolled.Sublist g.members
  eligible : ∀ o ∈ rolled, PoolGroup.eligible s k triggerFrom o
  few : limit ≠ 0 → 0 < count → (rolled.length : Int) ≤ count

variable {limit triggerFrom : Nat} {count : Int}

theorem rolled_nil (s : ActivePoolData) : Rolled g k triggerFrom s limit count [] := by
  refine ⟨List.nil_sublist _, ?_, ?_⟩
  · intro o ho
    cases ho
  · intro _ h
    exact Int.le_of_lt h

theorem rolled_rollChances (s : Spawns) :
    Rolled g k triggerFrom s.data limit count (g.rollChances out k triggerFrom s).1 := by
  unfold rollChances
  split
  · exact rolled_nil s.data
  · dsimp only
    rcases rollExplicit_cases s.data triggerFrom (out.randChance s.clock) g.explicitlyChanced
      with he | ⟨o, ho, he, hel⟩
    · rw [he]
      exact rolled_nil s.data
    · rw [he]
      refine ⟨List.singleton_sublist.2 (List.mem_append_right _ ho), ?_, ?_⟩
      · intro o' ho'
        rw [List.mem_singleton.1 ho']
        exact hel
      · intro _ h
        exact h

theorem rolled_rollEqual (s : ActivePoolData) (clock : Nat) :
    Rolled g k triggerFrom s limit count
      (g.rollEqual out k limit count triggerFrom s clock).1 := by
  have hfilter : (g.equalChanced.filter (eligible s k triggerFrom)).Sublist g.members :=
    List.filter_sublist.trans (List.sublist_append_left _ _)
  unfold rollEqual
  dsimp only
  split <;> rename_i hlimit
  · obtain ⟨hsub, hlen⟩ := randomResize_spec out
      (g.equalChanced.filter (eligible s k triggerFrom)) count.toNat clock
    refine ⟨hsub.trans hfilter, fun o ho => (List.mem_filter.1 (hsub.subset ho)).2, ?_⟩
    intro _ h
    omega
  · refine ⟨hfilter, fun o ho => (List.mem_filter.1 ho).2, ?_⟩
    intro h
    exact absurd h hlimit

theorem rolled_rollObjects (s : Spawns) : Rolled g k triggerFrom s.data limit count
    (g.rollObjects out k limit count triggerFrom s).1 := by
  unfold rollObjects
  dsimp only
  split
  · exact rolled_rollEqual s.data _
  · exact rolled_rollChances s

end PoolGroup

end Sunstrider.Pools
