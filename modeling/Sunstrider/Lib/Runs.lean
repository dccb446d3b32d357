import Mathlib

/-!
# Runs that meet a condition

A system steps from state to state as operations come in. A condition looks at an
operation and at the state it finds; `Along` says that every step of a run meets
it. What holds at the start and survives each such step holds at the end, and
since a part of a run that meets the condition meets it too, at every moment. Where the
condition is not only enough but needed, a run that keeps what the invariant promises
meets it.
-/

namespace Sunstrider.Lib

variable {σ ο : Type}

/-- Every operation meets the condition in the state it finds. -/
def Along (step : σ → ο → σ) (P : σ → ο → Prop) : σ → List ο → Prop
  | _, [] => True
  | s, o :: os => P s o ∧ Along step P (step s o) os

namespace Along

variable {step : σ → ο → σ} {P Q : σ → ο → Prop} {s : σ} {os os' : List ο}

theorem append : Along step P s (os ++ os') ↔
    Along step P s os ∧ Along step P (os.foldl step s) os' := by
  induction os generalizing s with
  | nil => simp [Along]
  | cons o os ih =>
      rw [List.cons_append, Along, Along, ih, List.foldl_cons, and_assoc]

/-- The rule for runs. -/
theorem invariant {I : σ → Prop} (hstep : ∀ s o, I s → P s o → I (step s o)) (hs : I s)
    (hos : Along step P s os) : I (os.foldl step s) := by
  induction os generalizing s with
  | nil => exact hs
  | cons o os ih => exact ih (hstep s o hs hos.1) hos.2

/-- What is the same in every state of the invariant is the same along a run. -/
theorem congr {I : σ → Prop} {R : σ → ο → Prop} (hstep : ∀ s o, I s → R s o → I (step s o))
    (hiff : ∀ s o, I s → R s o → (P s o ↔ Q s o)) (hs : I s) (hos : Along step R s os) :
    Along step P s os ↔ Along step Q s os := by
  induction os generalizing s with
  | nil => exact Iff.rfl
  | cons o os ih =>
      exact and_congr (hiff s o hs hos.1) (ih (hstep s o hs hos.1) hos.2)

/-- Where the condition keeps an invariant, and is needed for what the invariant promises,
a run keeps the promise at every moment if and only if it meets the condition. -/
theorem holds_iff {I Q : σ → Prop} (hQ : ∀ s, I s → Q s)
    (hstep : ∀ s o, I s → P s o → I (step s o)) (hneed : ∀ s o, I s → Q (step s o) → P s o)
    (hs : I s) : (∀ os', os' <+: os → Q (os'.foldl step s)) ↔ Along step P s os := by
  induction os generalizing s with
  | nil =>
      refine iff_of_true (fun os' hos' => ?_) trivial
      rw [List.prefix_nil.1 hos']
      exact hQ s hs
  | cons o os ih =>
      constructor
      · intro hall
        have ho : P s o := hneed s o hs (hall [o] (List.prefix_append [o] os))
        refine ⟨ho, (ih (hstep s o hs ho)).1 fun os' hos' => ?_⟩
        exact hall (o :: os') ((List.prefix_cons_inj o).2 hos')
      · rintro ⟨ho, hos⟩ os' hos'
        cases os' with
        | nil => exact hQ s hs
        | cons o' os' =>
            obtain ⟨rfl, hrest⟩ := List.cons_prefix_cons.1 hos'
            exact (ih (hstep s o' hs ho)).2 hos os' hrest

end Along

end Sunstrider.Lib
