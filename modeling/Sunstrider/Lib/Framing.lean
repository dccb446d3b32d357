import Mathlib

/-!
# Reading a stream piece by piece

A reader takes pieces from the front of a stream, and its state says what piece it waits
for. Whether a piece is there depends on the bytes of that piece alone, so what follows
makes no difference: `stable`. A reader that takes whatever is there, keeps the rest, and
goes on when more has come is then where it would be had everything come at once.
-/

namespace Sunstrider.Lib

/-- A reader: `take` is the next piece, if it is there. -/
structure Framing (σ α : Type) where
  take : σ → List α → Option (σ × List α)
  size : σ → List α → Nat
  shrinks : ∀ {s x s' r}, take s x = some (s', r) → size s' r < size s x
  stable : ∀ {s x s' r} (y), take s x = some (s', r) → take s (x ++ y) = some (s', r ++ y)

namespace Framing

variable {σ α : Type} (F : Framing σ α) {s s' : σ} {x y r : List α}

/-- Every piece that is there is taken. -/
def drain (s : σ) (x : List α) : σ × List α :=
  match _h : F.take s x with
  | none => (s, x)
  | some (s', r) => drain s' r
termination_by F.size s x
decreasing_by exact F.shrinks _h

variable {F}

theorem drain_of_none (h : F.take s x = none) : F.drain s x = (s, x) := by
  rw [drain]
  split
  · rfl
  · rename_i heq
    rw [h] at heq
    cases heq

theorem drain_of_some (h : F.take s x = some (s', r)) : F.drain s x = F.drain s' r := by
  rw [drain]
  split
  · rename_i heq
    rw [h] at heq
    cases heq
  · rename_i heq
    rw [h] at heq
    cases heq
    rfl

/-- The rule for what is taken: what every piece keeps, the whole keeps. -/
theorem drain_induct {Q : σ → List α → Prop} (hstep : ∀ s x s' r, Q s x →
    F.take s x = some (s', r) → Q s' r) (hQ : Q s x) : Q (F.drain s x).1 (F.drain s x).2 := by
  induction hn : F.size s x using Nat.strongRecOn generalizing s x with
  | ind n ih =>
      cases h : F.take s x with
      | none =>
          rw [drain_of_none h]
          exact hQ
      | some p =>
          obtain ⟨s', r⟩ := p
          rw [drain_of_some h]
          exact ih _ (hn ▸ F.shrinks h) (hstep s x s' r hQ h) rfl

/-- Nothing is left to take. -/
theorem take_drain (s : σ) (x : List α) :
    F.take (F.drain s x).1 (F.drain s x).2 = none := by
  induction hn : F.size s x using Nat.strongRecOn generalizing s x with
  | ind n ih =>
      cases h : F.take s x with
      | none =>
          rw [drain_of_none h]
          exact h
      | some p =>
          rw [drain_of_some h]
          exact ih _ (hn ▸ F.shrinks h) _ _ rfl

/-- It makes no difference whether what follows is there already. -/
theorem drain_append (s : σ) (x y : List α) :
    F.drain s (x ++ y) = F.drain (F.drain s x).1 ((F.drain s x).2 ++ y) := by
  induction hn : F.size s x using Nat.strongRecOn generalizing s x with
  | ind n ih =>
      cases h : F.take s x with
      | none => rw [drain_of_none h]
      | some p =>
          rw [drain_of_some h, drain_of_some (F.stable y h)]
          exact ih _ (hn ▸ F.shrinks h) _ _ rfl

end Framing

end Sunstrider.Lib
