import Mathlib

/-!
# Handlers that read as a list of checks

A request handler looks at its request, and at each thing that is wrong with it
returns at once. Written with `require` and `found` in the `Except` monad, such a
handler has the checks below each other as its source has them. Two lemmas take
them off one by one from a handler that came through, and two find what all its
early returns have in common.
-/

namespace Sunstrider.Lib

variable {ε α β : Type}

variable {p : Prop} {reply : ε} {f : Unit → Except ε β} {b : β} {o : Option α}

/-- Returns `reply` unless the condition holds. -/
def require (p : Prop) [Decidable p] (reply : ε) : Except ε Unit :=
  if p then .ok () else .error reply

/-- Returns `reply` unless there is a value. -/
def found (o : Option α) (reply : ε) : Except ε α :=
  match o with
  | some a => .ok a
  | none => .error reply

theorem require_bind_ok [Decidable p] : (require p reply >>= f) = .ok b ↔ p ∧ f () = .ok b := by
  unfold require
  split <;> rename_i hp
  · exact ⟨fun h => ⟨hp, h⟩, And.right⟩
  · exact ⟨fun h => (by cases h), fun h => absurd h.1 hp⟩

theorem found_bind_ok {f : α → Except ε β} :
    (found o reply >>= f) = .ok b ↔ ∃ a, o = some a ∧ f a = .ok b := by
  cases o with
  | none => exact ⟨fun h => (by cases h), fun ⟨_, ha, _⟩ => (by cases ha)⟩
  | some a =>
      refine ⟨fun h => ⟨a, rfl, h⟩, ?_⟩
      rintro ⟨b, hb, h⟩
      cases hb
      exact h

/-- What the handler returns early is of a kind. -/
def Rejects (P : ε → Prop) (x : Except ε α) : Prop := ∀ reply, x = .error reply → P reply

variable {P : ε → Prop}

theorem Rejects.require [Decidable p] (hreply : P reply) (hf : Rejects P (f ())) :
    Rejects P (require p reply >>= f) := by
  unfold Lib.require
  split
  · exact hf
  · intro e he
    cases he
    exact hreply

theorem Rejects.found {f : α → Except ε β} (hreply : P reply) (hf : ∀ a, Rejects P (f a)) :
    Rejects P (found o reply >>= f) := by
  cases o with
  | none =>
      intro e he
      cases he
      exact hreply
  | some a => exact hf a

theorem Rejects.ok (a : α) : Rejects P (.ok a : Except ε α) := fun _ he => by cases he

end Sunstrider.Lib
