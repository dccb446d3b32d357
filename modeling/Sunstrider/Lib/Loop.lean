import Mathlib

/-!
# Loops

A `while` whose body may fail. `loop` makes as many rounds as it has fuel for; `LoopEnds` is
what it comes to where the fuel does not matter, a derivation with a step for each round.
The two agree, so that what is shown of one by the rules below holds of the other with
fuel enough.

A loop that goes on for longer does first what one that stops sooner does, and a loop ends
if every round brings some rank down.
-/

namespace Sunstrider.Lib

variable {σ τ ε : Type}

def loop (c : σ → Bool) (f : σ → Except ε σ) : Nat → σ → Option (Except ε σ)
  | 0, _ => none
  | fuel + 1, s =>
      if c s then
        match f s with
        | .error e => some (.error e)
        | .ok s => loop c f fuel s
      else some (.ok s)

inductive LoopEnds (c : σ → Bool) (f : σ → Except ε σ) : σ → Except ε σ → Prop
  | exit {s} (hc : c s = false) : LoopEnds c f s (.ok s)
  | fail {s e} (hc : c s = true) (hf : f s = .error e) : LoopEnds c f s (.error e)
  | round {s s' r} (hc : c s = true) (hf : f s = .ok s') (hrest : LoopEnds c f s' r) :
      LoopEnds c f s r

variable {c d : σ → Bool} {f : σ → Except ε σ} {s s' : σ} {r r' : Except ε σ} {fuel : Nat}

theorem loop_of_ends (h : LoopEnds c f s r) : ∃ n, ∀ fuel, n ≤ fuel → loop c f fuel s = some r := by
  induction h with
  | exit hc =>
      refine ⟨1, fun fuel hfuel => ?_⟩
      obtain ⟨fuel, rfl⟩ := Nat.exists_eq_succ_of_ne_zero (by omega : fuel ≠ 0)
      rw [loop, if_neg (by rw [hc]; exact Bool.false_ne_true)]
  | fail hc hf =>
      refine ⟨1, fun fuel hfuel => ?_⟩
      obtain ⟨fuel, rfl⟩ := Nat.exists_eq_succ_of_ne_zero (by omega : fuel ≠ 0)
      rw [loop, if_pos hc, hf]
  | round hc hf _ ih =>
      obtain ⟨n, hn⟩ := ih
      refine ⟨n + 1, fun fuel hfuel => ?_⟩
      obtain ⟨fuel, rfl⟩ := Nat.exists_eq_succ_of_ne_zero (by omega : fuel ≠ 0)
      rw [loop, if_pos hc, hf]
      exact hn fuel (by omega)

theorem ends_of_loop (h : loop c f fuel s = some r) : LoopEnds c f s r := by
  induction fuel generalizing s with
  | zero => cases h
  | succ fuel ih =>
      rw [loop] at h
      cases hc : c s with
      | false =>
          rw [hc, if_neg Bool.false_ne_true] at h
          cases h
          exact .exit hc
      | true =>
          rw [hc, if_pos rfl] at h
          cases hf : f s with
          | error e =>
              rw [hf] at h
              cases h
              exact .fail hc hf
          | ok s' =>
              rw [hf] at h
              exact .round hc hf (ih h)

namespace LoopEnds

theorem unique (h : LoopEnds c f s r) (h' : LoopEnds c f s r') : r = r' := by
  obtain ⟨n, hn⟩ := loop_of_ends h
  obtain ⟨n', hn'⟩ := loop_of_ends h'
  have heq := (hn (max n n') (Nat.le_max_left _ _)).symm.trans (hn' _ (Nat.le_max_right _ _))
  exact Option.some.inj heq

/-- The rule for invariants. -/
theorem invariant {I : σ → Prop} (hround : ∀ s s', I s → c s = true → f s = .ok s' → I s')
    (hs : I s) (h : LoopEnds c f s (.ok s')) : I s' := by
  generalize hr : (Except.ok s' : Except ε σ) = r at h
  induction h with
  | exit => cases hr; exact hs
  | fail => cases hr
  | round hc hf _ ih => exact ih (hround _ _ hs hc hf) hr

/-- Two conditions that are the same in every state of an invariant. -/
theorem congr {I : σ → Prop} (hround : ∀ s s', I s → f s = .ok s' → I s')
    (hiff : ∀ s, I s → c s = d s) (hs : I s) (h : LoopEnds c f s r) : LoopEnds d f s r := by
  induction h with
  | exit hc => exact .exit (hiff _ hs ▸ hc)
  | fail hc hf => exact .fail (hiff _ hs ▸ hc) hf
  | round hc hf _ ih => exact .round (hiff _ hs ▸ hc) hf (ih (hround _ _ hs hf))

/-- A loop over states that a function takes to those of another loop. -/
theorem map {c' : τ → Bool} {f' : τ → Except ε τ} {g : σ → τ} (hc : ∀ s, c' (g s) = c s)
    (hf : ∀ s, f' (g s) = (f s).map g) (h : LoopEnds c f s r) : LoopEnds c' f' (g s) (r.map g) := by
  induction h with
  | exit hexit => exact .exit ((hc _).trans hexit)
  | fail hgo hfail => exact .fail ((hc _).trans hgo) (by rw [hf, hfail]; rfl)
  | round hgo hround _ ih => exact .round ((hc _).trans hgo) (by rw [hf, hround]; rfl) ih

/-- A loop that stops sooner fails where the other one does. -/
theorem fail_of_imp {e : ε} (himp : ∀ s, c s = true → d s = true) (h : LoopEnds c f s (.error e)) :
    LoopEnds d f s (.error e) := by
  generalize hr : (Except.error e : Except ε σ) = r at h
  induction h with
  | exit => cases hr
  | fail hc hf => cases hr; exact .fail (himp _ hc) hf
  | round hc hf _ ih => exact .round (himp _ hc) hf (ih hr)

/-- Where a loop that stops sooner stopped, the other one goes on. -/
theorem goOn (himp : ∀ s, c s = true → d s = true) (h : LoopEnds c f s (.ok s'))
    (h' : LoopEnds d f s' r) : LoopEnds d f s r := by
  generalize hr : (Except.ok s' : Except ε σ) = r₀ at h
  induction h with
  | exit => cases hr; exact h'
  | fail => cases hr
  | round hc hf _ ih => exact .round (himp _ hc) hf (ih hr)

/-- The errors of a loop are those of its rounds. -/
theorem error_of {e : ε} {E : ε → Prop} (hE : ∀ s e, f s = .error e → E e)
    (h : LoopEnds c f s (.error e)) : E e := by
  generalize hr : (Except.error e : Except ε σ) = r at h
  induction h with
  | exit => cases hr
  | fail _ hf => cases hr; exact hE _ _ hf
  | round _ _ _ ih => exact ih hr

theorem ok_of_total (htotal : ∀ s, ∃ s', f s = .ok s') (h : LoopEnds c f s r) :
    ∃ s', r = .ok s' := by
  induction h with
  | exit => exact ⟨_, rfl⟩
  | fail _ hf =>
      obtain ⟨s', hs'⟩ := htotal _
      rw [hs'] at hf
      cases hf
  | round _ _ _ ih => exact ih

/-- A round brings the rank down, so there is an end. -/
theorem exists_of_rank {α : Type} {lt : α → α → Prop} (hwf : WellFounded lt) {I : σ → Prop}
    (rank : σ → α) (hround : ∀ s s', I s → c s = true → f s = .ok s' → I s' ∧ lt (rank s') (rank s))
    (hs : I s) : ∃ r, LoopEnds c f s r := by
  induction s using (InvImage.wf rank hwf).induction with
  | _ s ih =>
      cases hc : c s with
      | false => exact ⟨_, .exit hc⟩
      | true =>
          cases hf : f s with
          | error e => exact ⟨_, .fail hc hf⟩
          | ok s' =>
              obtain ⟨hs', hlt⟩ := hround s s' hs hc hf
              obtain ⟨r, hr⟩ := ih s' hlt hs'
              exact ⟨r, .round hc hf hr⟩

end LoopEnds

end Sunstrider.Lib
