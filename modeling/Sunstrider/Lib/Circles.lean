import Mathlib

/-!
# Circles of links

Two views of one question: can the links of a structure be followed for ever?

First a partial function `next`, one link for each element. From an element the walk
either ends or comes to a circle; `Ends` is the first case, given as the way to the
end. Taking one link out (`Cut`) ends every walk that used it and no other changes.
On a circle each element is reached from one other element of the circle only.

Then a relation, with any number of links from each element. If it is acyclic and its
links lead into a finite set, every element has a height below the size of the set
that drops along each link, so a recursion down the links needs no more steps than
the set has elements. And from a root there is always a tree: each element reached
has a parent that is nearer to the root. A circle of `next` cannot consist of links
to the parent.
-/

namespace Sunstrider.Lib

open Relation

variable {α : Type}

/-! ## One link for each element -/

def Link (next : α → Option α) (x y : α) : Prop := next x = some y

/-- The walk from an element comes to an end. -/
inductive Ends (next : α → Option α) : α → Prop
  | stop {x : α} : next x = none → Ends next x
  | step {x y : α} : next x = some y → Ends next y → Ends next x

variable {next next' : α → Option α} {x y z : α}

theorem Ends.no_circle (h : Ends next x) : ¬ TransGen (Link next) x x := by
  have hnone : ∀ x y, next x = none → ¬ TransGen (Link next) x y := by
    intro x y hx hxy
    obtain ⟨z, hz, -⟩ := TransGen.head'_iff.1 hxy
    rw [Link, hx] at hz
    cases hz
  induction h with
  | stop hx => exact hnone _ _ hx
  | @step x y hy _ ih =>
      intro hxx
      obtain ⟨z, hz, hzx⟩ := TransGen.head'_iff.1 hxx
      obtain rfl : z = y := Option.some.inj (hz.symm.trans hy)
      exact ih (TransGen.tail' hzx hz)

/-- The link of `x` is taken out. -/
structure Cut (next next' : α → Option α) (x : α) : Prop where
  self : next' x = none
  other : ∀ z, z ≠ x → next' z = next z

namespace Cut

theorem link (h : Cut next next' x) (hl : Link next' y z) : Link next y z := by
  have hne : y ≠ x := by
    intro he
    rw [Link, he, h.self] at hl
    cases hl
  rw [Link, ← h.other y hne]
  exact hl

theorem circle (h : Cut next next' x) (hc : TransGen (Link next') y z) :
    TransGen (Link next) y z :=
  TransGen.mono (fun _ _ => h.link) _ _ hc

theorem ends (h : Cut next next' x) (he : Ends next y) : Ends next' y := by
  classical
  induction he with
  | @stop y hy =>
      by_cases hyx : y = x
      · exact .stop (hyx ▸ h.self)
      · exact .stop ((h.other y hyx).trans hy)
  | @step y z hz _ ih =>
      by_cases hyx : y = x
      · exact .stop (hyx ▸ h.self)
      · exact .step ((h.other y hyx).trans hz) ih

/-- A walk that came to `x` ends there. -/
theorem ends_of_reached (h : Cut next next' x) (hr : ReflTransGen (Link next) y x) :
    Ends next' y := by
  classical
  induction hr using ReflTransGen.head_induction_on with
  | refl => exact .stop h.self
  | @head y z hyz _ ih =>
      by_cases hyx : y = x
      · exact .stop (hyx ▸ h.self)
      · exact .step ((h.other y hyx).trans hyz) ih

end Cut

/-- An element on a circle comes back to itself after some number of steps. -/
theorem exists_iterate (h : TransGen (Link next) x y) :
    ∃ n, 0 < n ∧ (fun z => (next z).getD z)^[n] x = y := by
  induction h with
  | @single y hy =>
      refine ⟨1, Nat.one_pos, ?_⟩
      rw [Function.iterate_one, hy]
      rfl
  | @tail y z _ hz ih =>
      obtain ⟨n, _, hn⟩ := ih
      refine ⟨n + 1, Nat.succ_pos n, ?_⟩
      rw [Function.iterate_succ_apply', hn, hz]
      rfl

/-- On a circle an element is reached from one element only. -/
theorem circle_injective (hx : TransGen (Link next) x x) (hy : TransGen (Link next) y y)
    (hxz : Link next x z) (hyz : Link next y z) : x = y := by
  have hperiodic : ∀ w, TransGen (Link next) w w →
      w ∈ Function.periodicPts fun z => (next z).getD z := by
    intro w hw
    obtain ⟨n, hn, hiter⟩ := exists_iterate hw
    exact ⟨n, hn, hiter⟩
  refine (Function.bijOn_periodicPts (f := fun z => (next z).getD z)).injOn (hperiodic x hx)
    (hperiodic y hy) ?_
  rw [hxz, hyz]
  rfl

/-! ## Any number of links -/

variable {R : α → α → Prop}

def Acyclic (R : α → α → Prop) : Prop := ∀ x, ¬ TransGen R x x

/-- The links of a circle, each with the way back. -/
theorem circle_links (h : TransGen R x x) :
    TransGen (fun y z => R y z ∧ ReflTransGen R z y) x x := by
  have hway : ∀ y, TransGen R x y → ReflTransGen R y x →
      TransGen (fun y z => R y z ∧ ReflTransGen R z y) x y := by
    intro y hxy
    induction hxy with
    | single hy => exact fun hyx => .single ⟨hy, hyx⟩
    | @tail y z hxy hz ih =>
        intro hzx
        exact .tail (ih (.head hz hzx)) ⟨hz, hzx.trans hxy.to_reflTransGen⟩
  exact hway x h .refl

/-- No measure drops all the way around a circle. -/
theorem exists_not_drop (d : α → Nat) (h : TransGen R x x) :
    ∃ y z, ReflTransGen R x y ∧ R y z ∧ ReflTransGen R z x ∧ ¬ d z < d y := by
  by_contra hno
  have hdrop : ∀ y, TransGen R x y → ReflTransGen R y x → d y < d x := by
    intro y hxy
    induction hxy with
    | @single y hy =>
        intro hyx
        by_contra hd
        exact hno ⟨x, y, .refl, hy, hyx, hd⟩
    | @tail y z hxy hz ih =>
        intro hzx
        have hy := ih (ReflTransGen.head hz hzx)
        have hd : d z < d y := by
          by_contra hd
          exact hno ⟨y, z, hxy.to_reflTransGen, hz, hzx, hd⟩
        omega
  exact Nat.lt_irrefl _ (hdrop x h .refl)

/-- The heights of an acyclic relation with links into a finite set. -/
theorem Acyclic.exists_height (h : Acyclic R) (s : Finset α) (hs : ∀ x y, R x y → y ∈ s) :
    ∃ height : α → Nat, (∀ x, height x ≤ s.card) ∧ ∀ x y, R x y → height y < height x := by
  classical
  refine ⟨fun x => (s.filter (TransGen R x)).card, fun x => Finset.card_filter_le _ _, ?_⟩
  intro x y hxy
  refine Finset.card_lt_card ?_
  rw [Finset.ssubset_iff_of_subset]
  · refine ⟨y, ?_, ?_⟩
    · rw [Finset.mem_filter]
      exact ⟨hs x y hxy, .single hxy⟩
    · rw [Finset.mem_filter]
      exact fun hy => h y hy.2
  · intro z hz
    rw [Finset.mem_filter] at hz ⊢
    exact ⟨hz.1, .head hxy hz.2⟩

/-- Reached from `a` in so many steps. -/
def Within (R : α → α → Prop) (a : α) : Nat → α → Prop
  | 0, x => x = a
  | n + 1, x => ∃ y, Within R a n y ∧ R y x

theorem exists_within {a : α} (h : ReflTransGen R a x) : ∃ n, Within R a n x := by
  induction h with
  | refl => exact ⟨0, rfl⟩
  | @tail y z _ hz ih =>
      obtain ⟨n, hn⟩ := ih
      exact ⟨n + 1, y, hn, hz⟩

theorem reached_of_within {a : α} : ∀ {n x}, Within R a n x → ReflTransGen R a x := by
  intro n
  induction n with
  | zero =>
      intro x hx
      exact hx ▸ .refl
  | succ n ih =>
      intro x hx
      obtain ⟨y, hy, hyx⟩ := hx
      exact .tail (ih hy) hyx

/-- A tree of what is reached from `a`: every other element has a parent nearer to it. -/
theorem exists_parents (R : α → α → Prop) (a : α) :
    ∃ (parent : α → α) (dist : α → Nat), ∀ x, ReflTransGen R a x → x ≠ a →
      R (parent x) x ∧ ReflTransGen R a (parent x) ∧ dist (parent x) < dist x := by
  classical
  let dist : α → Nat := fun x => if h : ∃ n, Within R a n x then Nat.find h else 0
  have hle : ∀ {n x}, Within R a n x → dist x ≤ n := by
    intro n x hx
    show (if h : ∃ n, Within R a n x then Nat.find h else 0) ≤ n
    rw [dif_pos ⟨n, hx⟩]
    exact Nat.find_min' _ hx
  have hparent : ∀ x, ∃ p, ReflTransGen R a x → x ≠ a →
      R p x ∧ ReflTransGen R a p ∧ dist p < dist x := by
    intro x
    by_cases hx : ReflTransGen R a x ∧ x ≠ a
    · have hex := exists_within hx.1
      have hspec := Nat.find_spec hex
      have hdist : dist x = Nat.find hex := dif_pos hex
      cases hn : Nat.find hex with
      | zero =>
          rw [hn] at hspec
          exact absurd hspec hx.2
      | succ n =>
          rw [hn] at hspec
          obtain ⟨p, hp, hpx⟩ := hspec
          have := hle hp
          exact ⟨p, fun _ _ => ⟨hpx, reached_of_within hp, by omega⟩⟩
    · exact ⟨x, fun h h' => absurd ⟨h, h'⟩ hx⟩
  exact ⟨fun x => (hparent x).choose, dist, fun x => (hparent x).choose_spec⟩

end Sunstrider.Lib
