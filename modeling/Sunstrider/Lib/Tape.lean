import Mathlib

/-!
# Computations that draw from a tape

A computation that draws at random reads a tape, and its state says how far. What it
does depends on the part of the tape it has read and on nothing else (`Reads`), so the
runs of two computations, one after the other, can be put on one tape.

`Always` is about every tape, `Sometimes` about one that is chosen for the purpose.
Where one of several computations in a row can do something, all of them in a row can:
those before it keep what it needs, those behind it keep what it did.
-/

namespace Sunstrider.Lib

variable {α β σ : Type}

abbrev Drawing (α σ : Type) := (Nat → α) → σ → Option σ

namespace Drawing

/-- One after the other. -/
def andThen (X Y : Drawing α σ) : Drawing α σ := fun tape s => X tape s >>= Y tape

def inOrder (X : β → Drawing α σ) : List β → Drawing α σ
  | [] => fun _ s => some s
  | b :: bs => (X b).andThen (inOrder X bs)

/-- What is done depends on the tape between the positions before and after. -/
structure Reads (pos : σ → Nat) (X : Drawing α σ) : Prop where
  forward : ∀ {tape s s'}, X tape s = some s' → pos s ≤ pos s'
  agree : ∀ {tape tape' s s'}, X tape s = some s' →
    (∀ n, pos s ≤ n → n < pos s' → tape' n = tape n) → X tape' s = some s'

/-- On every tape it comes back, with `J`. -/
def Always (I : σ → Prop) (X : Drawing α σ) (J : σ → Prop) : Prop :=
  ∀ tape s, I s → ∃ s', X tape s = some s' ∧ J s'

/-- On some tape it comes back with `J`. -/
def Sometimes (I : σ → Prop) (X : Drawing α σ) (J : σ → Prop) : Prop :=
  ∀ s, I s → ∃ tape s', X tape s = some s' ∧ J s'

/-- The one tape up to a position, the other from there on. -/
def splice (n : Nat) (tape tape' : Nat → α) : Nat → α :=
  fun i => if i < n then tape i else tape' i

variable {pos : σ → Nat} {X Y : Drawing α σ} {I J K : σ → Prop}

theorem andThen_eq_some {tape : Nat → α} {s s' : σ} :
    X.andThen Y tape s = some s' ↔ ∃ t, X tape s = some t ∧ Y tape t = some s' :=
  Option.bind_eq_some_iff

theorem Reads.some (pos : σ → Nat) : Reads pos (fun (_ : Nat → α) s => Option.some s) where
  forward h := by
    cases h
    exact Nat.le_refl _
  agree h _ := h

theorem Reads.andThen (hX : Reads pos X) (hY : Reads pos Y) : Reads pos (X.andThen Y) where
  forward h := by
    obtain ⟨t, hx, hy⟩ := andThen_eq_some.1 h
    exact Nat.le_trans (hX.forward hx) (hY.forward hy)
  agree h hagree := by
    obtain ⟨t, hx, hy⟩ := andThen_eq_some.1 h
    have hle := hX.forward hx
    have hle' := hY.forward hy
    refine andThen_eq_some.2 ⟨t, hX.agree hx fun n h₁ h₂ => ?_, hY.agree hy fun n h₁ h₂ => ?_⟩
    · exact hagree n h₁ (Nat.lt_of_lt_of_le h₂ hle')
    · exact hagree n (Nat.le_trans hle h₁) h₂

theorem Reads.inOrder {X : β → Drawing α σ} {bs : List β} (h : ∀ b ∈ bs, Reads pos (X b)) :
    Reads pos (inOrder X bs) := by
  induction bs with
  | nil => exact .some pos
  | cons b bs ih =>
      exact (h b List.mem_cons_self).andThen (ih fun b' hb' => h b' (List.mem_cons_of_mem _ hb'))

theorem Always.andThen (hX : Always I X J) (hY : Always J Y K) : Always I (X.andThen Y) K := by
  intro tape s hs
  obtain ⟨t, hx, ht⟩ := hX tape s hs
  obtain ⟨s', hy, hs'⟩ := hY tape t ht
  exact ⟨s', andThen_eq_some.2 ⟨t, hx, hy⟩, hs'⟩

theorem Always.inOrder {X : β → Drawing α σ} {bs : List β} (h : ∀ b ∈ bs, Always I (X b) I) :
    Always I (inOrder X bs) I := by
  induction bs with
  | nil => exact fun tape s hs => ⟨s, rfl, hs⟩
  | cons b bs ih =>
      exact (h b List.mem_cons_self).andThen (ih fun b' hb' => h b' (List.mem_cons_of_mem _ hb'))

/-- Two runs, one after the other, on one tape. -/
theorem run_splice (hX : Reads pos X) (hY : Reads pos Y) {tape tape' : Nat → α} {s t s' : σ}
    (hx : X tape s = some t) (hy : Y tape' t = some s') :
    X.andThen Y (splice (pos t) tape tape') s = some s' := by
  refine andThen_eq_some.2 ⟨t, hX.agree hx fun n _ hn => if_pos hn, ?_⟩
  exact hY.agree hy fun n hn _ => if_neg (Nat.not_lt_of_ge hn)

theorem Sometimes.andThen (hX : Reads pos X) (hY : Reads pos Y) (h : Sometimes I X J)
    (h' : Sometimes J Y K) : Sometimes I (X.andThen Y) K := by
  intro s hs
  obtain ⟨tape, t, hx, ht⟩ := h s hs
  obtain ⟨tape', s', hy, hs'⟩ := h' t ht
  exact ⟨_, s', run_splice hX hY hx hy, hs'⟩

theorem Always.sometimes (tape : Nat → α) (h : Always I X J) : Sometimes I X J := by
  intro s hs
  exact ⟨tape, h tape s hs⟩

/-- What one of them can do, all of them in a row can. -/
theorem Sometimes.inOrder (tape : Nat → α) {X : β → Drawing α σ} {bs : List β} {b : β}
    (hb : b ∈ bs) (hreads : ∀ b ∈ bs, Reads pos (X b)) (hI : ∀ b ∈ bs, Always I (X b) I)
    (hJ : ∀ b ∈ bs, Always J (X b) J) (h : Sometimes I (X b) J) :
    Sometimes I (Drawing.inOrder X bs) J := by
  induction bs with
  | nil => cases hb
  | cons b' bs ih =>
      have htail : ∀ {P : β → Prop}, (∀ c ∈ b' :: bs, P c) → ∀ c ∈ bs, P c :=
        fun hall c hc => hall c (List.mem_cons_of_mem _ hc)
      have hfirst := hreads b' List.mem_cons_self
      have hrest := Reads.inOrder (htail hreads)
      rcases List.mem_cons.1 hb with rfl | hmem
      · exact h.andThen hfirst hrest ((Always.inOrder (htail hJ)).sometimes tape)
      · exact ((hI b' List.mem_cons_self).sometimes tape).andThen hfirst hrest
          (ih hmem (htail hreads) (htail hI) (htail hJ))

end Drawing

end Sunstrider.Lib
