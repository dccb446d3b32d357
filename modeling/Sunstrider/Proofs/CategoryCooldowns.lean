import Sunstrider.Proofs.CategoryPointers

/-!
# When category cooldowns are enforced

A spell without an entry of its own is on cooldown when the pointer of its
category is there, and for as long as the entry it leads to says. One pointer
stands for all entries of the category, so it should lead to one that ends last.
`Latest` says so. Two things break it: an entry that is added takes the pointer
even when another one lasts longer, and an entry that is erased takes the pointer
with it even when it led to another one. In a run without these two every category
cooldown is enforced. The remaining time is returned in 32 bits, so a category
must not end later than they can say.
-/

namespace Sunstrider.Spells

/-- What a run consists of; the category of an added entry is that of its spell. -/
inductive CooldownOp
  | add (now : Int) (spellId itemId : Nat) (cooldownEnd categoryEnd : Int) (onHold : Bool)
  | update (now : Int)
deriving DecidableEq, Repr

namespace CooldownOp

def now : CooldownOp → Int
  | add now _ _ _ _ _ => now
  | update now => now

def toSpellOp (category : Nat → Nat) : CooldownOp → SpellOp
  | add _ s itemId cooldownEnd categoryEnd onHold =>
      .addCooldown s itemId cooldownEnd (category s) categoryEnd onHold
  | update now => .update now

/-- The times of the run do not go back. -/
def Timely : Int → List CooldownOp → Prop
  | _, [] => True
  | t, op :: ops => t ≤ op.now ∧ Timely op.now ops

end CooldownOp

namespace SpellHistory

/-- From `t` on, a spell with no entry is on cooldown while an entry of its category
has time left, and for at least that time. -/
def Enforced (st : SpellStores) (h : SpellHistory) (t : Int) : Prop :=
  ∀ (spellInfo : SpellInfo) (now : Int) (s : Nat) (e : CooldownEntry), t ≤ now →
    h.spellCooldowns.lookup spellInfo.id = none → h.Entry s e → e.categoryId ≠ 0 →
      now < e.categoryEnd →
        (∀ itemId, (getCooldownDurations st spellInfo itemId).2.1 = e.categoryId →
          hasCooldown st h spellInfo itemId false = true) ∧
        (spellInfo.category = e.categoryId →
          ∃ r, h.getRemainingCooldown spellInfo now = some r ∧
            ((e.categoryEnd - now) / msTicks).toNat ≤ r)

def EnforcedRun (st : SpellStores) (category : Nat → Nat) :
    SpellHistory → Int → List CooldownOp → Prop
  | h, t, [] => h.Enforced st t
  | h, t, op :: ops =>
      h.Enforced st t ∧ ∃ h', h.step st (op.toSpellOp category) = some h' ∧
        EnforcedRun st category h' op.now ops

/-- An entry that is added ends, for its category, no sooner than the others of the
category, and within what the remaining time can say; no entry is over at an update
while another one of its category stays and has time left. -/
def OpOk (category : Nat → Nat) (h : SpellHistory) (op : CooldownOp) : Prop :=
  match op with
  | .add now s _ _ categoryEnd _ =>
      category s ≠ 0 →
        (∀ s' e, s' ≠ s → h.Entry s' e → e.categoryId = category s → now < e.categoryEnd →
          e.categoryEnd ≤ categoryEnd) ∧
        categoryEnd - now < 2 ^ 32 * msTicks
  | .update now =>
      ∀ s e s' e', h.Entry s e → h.Entry s' e' → e.categoryId = e'.categoryId →
        e.categoryId ≠ 0 → e.cooldownEnd < now → now ≤ e'.cooldownEnd → e'.categoryEnd ≤ now

def OpsOk (st : SpellStores) (category : Nat → Nat) : SpellHistory → List CooldownOp → Prop
  | _, [] => True
  | h, op :: ops =>
      h.OpOk category op ∧
        ∀ h', h.step st (op.toSpellOp category) = some h' → OpsOk st category h' ops

/-- While an entry has time left for its category, the pointer of the category leads to
one that ends no sooner. -/
def Latest (h : SpellHistory) (t : Int) : Prop :=
  ∀ s e, h.Entry s e → e.categoryId ≠ 0 → t < e.categoryEnd →
    ∃ s₀ e₀, h.Points e.categoryId s₀ ∧ h.Entry s₀ e₀ ∧ e.categoryEnd ≤ e₀.categoryEnd ∧
      e₀.categoryEnd - t < 2 ^ 32 * msTicks

/-- What a run keeps. -/
structure Kept (category : Nat → Nat) (h : SpellHistory) (t : Int) : Prop where
  matched : h.Matched
  fixed : ∀ s e, h.Entry s e → e.categoryId = category s
  latest : h.Latest t

variable {st : SpellStores} {category : Nat → Nat} {h : SpellHistory} {t : Int}

theorem empty_kept : empty.Kept category t := by
  have hnone : ∀ s e, ¬ empty.Entry s e := by
    intro s e he
    cases he
  refine ⟨empty_matched, fun s e he => absurd he (hnone s e), ?_⟩
  intro s e he
  exact absurd he (hnone s e)

theorem Latest.later (hl : h.Latest t) {now : Int} (hnow : t ≤ now) : h.Latest now := by
  intro s e he hc hend
  obtain ⟨s₀, e₀, hp, he₀, hle, hbound⟩ := hl s e he hc (by omega)
  exact ⟨s₀, e₀, hp, he₀, hle, by omega⟩

/-! ## What the pointer answers -/

theorem le_remainingUntil {now finish finish' : Int} (hnow : now ≤ finish)
    (hle : finish ≤ finish') (hbound : finish' - now < 2 ^ 32 * msTicks) :
    ((finish - now) / msTicks).toNat ≤ remainingUntil now finish' := by
  have hpos : (0 : Int) < msTicks := by rw [msTicks]; omega
  have hdiv : (finish - now) / msTicks ≤ (finish' - now) / msTicks :=
    Int.ediv_le_ediv hpos (by omega)
  have hlt : (finish' - now) / msTicks < 2 ^ 32 := Int.ediv_lt_of_lt_mul hpos hbound
  rw [remainingUntil, if_neg (by omega), Nat.mod_eq_of_lt (by omega)]
  omega

theorem Kept.enforced (hk : h.Kept category t) : h.Enforced st t := by
  intro spellInfo now s e hnow hnone he hc hend
  obtain ⟨s₀, e₀, hp, he₀, hle, hbound⟩ := (hk.latest.later hnow) s e he hc hend
  rw [Points] at hp
  refine ⟨?_, ?_⟩
  · intro itemId hcat
    rw [hasCooldown, hnone, hcat]
    simp [hc, hp]
  · intro hcat
    rw [Entry] at he₀
    refine ⟨remainingUntil now e₀.categoryEnd, ?_, le_remainingUntil (by omega) hle hbound⟩
    rw [getRemainingCooldown, hnone, hcat]
    simp only [hp, he₀, Option.map_some]

/-! ## One operation -/

theorem Kept.add (hk : h.Kept category t) {now : Int} (hnow : t ≤ now) {s itemId : Nat}
    {cooldownEnd categoryEnd : Int} {onHold : Bool}
    (hok : h.OpOk category (.add now s itemId cooldownEnd categoryEnd onHold)) :
    (h.addCooldown s itemId cooldownEnd (category s) categoryEnd onHold).Kept category now := by
  have hwrite : h.WriteOk s (category s) := by
    intro c hp
    obtain ⟨e, he, hc⟩ := hk.matched c s hp
    rw [← hc, hk.fixed s e he]
  refine ⟨hk.matched.addCooldown hwrite, ?_, ?_⟩
  · intro s' e he
    rw [entry_addCooldown] at he
    split at he <;> rename_i hs
    · rw [hs, ← he]
    · exact hk.fixed s' e he
  · intro s' e he hc hend
    simp only [points_addCooldown, entry_addCooldown] at he ⊢
    by_cases hcat : category s ≠ 0 ∧ e.categoryId = category s
    · -- the entry that is added takes the pointer
      obtain ⟨hothers, hbound⟩ := hok hcat.1
      refine ⟨s, ⟨s, cooldownEnd, itemId, category s, categoryEnd, onHold⟩, ?_, ?_, ?_, hbound⟩
      · rw [if_pos hcat]
      · rw [if_pos rfl]
      · split at he <;> rename_i hs
        · subst he
          exact Int.le_refl _
        · exact hothers s' e hs he hcat.2 hend
    · have hs : s' ≠ s := by
        intro hs
        rw [if_pos hs] at he
        exact hcat ⟨by rw [← he] at hc; exact hc, by rw [← he]⟩
      rw [if_neg hs] at he
      obtain ⟨s₀, e₀, hp, he₀, hle, hbound⟩ := (hk.latest.later hnow) s' e he hc hend
      have hs₀ : s₀ ≠ s := by
        intro hs₀
        obtain ⟨e₁, he₁, hc₁⟩ := hk.matched _ _ hp
        have hfix := hk.fixed s₀ e₁ he₁
        rw [hc₁, hs₀] at hfix
        exact hcat ⟨hfix ▸ hc, hfix⟩
      exact ⟨s₀, e₀, by rw [if_neg hcat]; exact hp, by rw [if_neg hs₀]; exact he₀, hle, hbound⟩

theorem Kept.update (hk : h.Kept category t) {now : Int} (hnow : t ≤ now)
    (hok : h.OpOk category (.update now)) :
    ∃ h', h.update now = some h' ∧ h'.Kept category now := by
  obtain ⟨h', hrun, hentry, hpoints⟩ := update_spec hk.matched.noDangling now
  obtain ⟨h₁, hrun₁, hm⟩ := hk.matched.update now
  rw [hrun] at hrun₁
  cases hrun₁
  refine ⟨h', hrun, hm, ?_, ?_⟩
  · intro s e he
    exact hk.fixed s e ((hentry s e).1 he).1
  · intro s e he hc hend
    obtain ⟨he, hstays⟩ := (hentry s e).1 he
    obtain ⟨s₀, e₀, hp, he₀, hle, hbound⟩ := (hk.latest.later hnow) s e he hc hend
    have hnone : ∀ s' e', h.Entry s' e' → e'.cooldownEnd < now → e'.categoryId ≠ e.categoryId := by
      intro s' e' he' hgone hcat
      have := hok s' e' s e he' he hcat (hcat ▸ hc) hgone hstays
      omega
    refine ⟨s₀, e₀, ?_, ?_, hle, hbound⟩
    · rw [hpoints]
      refine ⟨hp, ?_, hnone⟩
      intro e₁ he₁
      rw [he₁.unique he₀]
      omega
    · rw [hentry]
      refine ⟨he₀, ?_⟩
      rw [← Int.not_lt]
      intro hgone
      obtain ⟨e₁, he₁, hc₁⟩ := hk.matched _ _ hp
      exact hnone s₀ e₀ he₀ hgone (he₁.unique he₀ ▸ hc₁)

/-! ## A run -/

theorem Kept.enforcedRun {ops : List CooldownOp} :
    ∀ {h : SpellHistory} {t : Int}, h.Kept category t → CooldownOp.Timely t ops →
      OpsOk st category h ops → EnforcedRun st category h t ops := by
  induction ops with
  | nil =>
      intro h t hk _ _
      exact hk.enforced
  | cons op ops ih =>
      intro h t hk htimely hok
      obtain ⟨hnow, htimely⟩ := htimely
      obtain ⟨hop, hrest⟩ := hok
      obtain ⟨h', hrun, hk'⟩ : ∃ h', h.step st (op.toSpellOp category) = some h' ∧
          h'.Kept category op.now := by
        cases op with
        | add now s itemId cooldownEnd categoryEnd onHold => exact ⟨_, rfl, hk.add hnow hop⟩
        | update now => exact hk.update hnow hop
      exact ⟨hk.enforced, h', hrun, ih hk' htimely (hrest h' hrun)⟩

/-- In a run in which every entry that is added ends last in its category, and none of a
category is over at an update before another one that has time left, every category
cooldown is enforced. -/
theorem empty_enforcedRun (st : SpellStores) (category : Nat → Nat) (t : Int)
    (ops : List CooldownOp) (htimely : CooldownOp.Timely t ops)
    (hok : OpsOk st category empty ops) : EnforcedRun st category empty t ops :=
  empty_kept.enforcedRun htimely hok

theorem empty_enforcedRun_twoSpells :
    EnforcedRun plainStores (fun _ => 9) empty 0
      [.add 0 1 0 5000000 5000000 false, .add 1000000 2 0 8000000 8000000 false] := by
  refine empty_enforcedRun plainStores _ 0 _ ⟨by decide, by decide, trivial⟩ ⟨?_, ?_⟩
  · intro _
    refine ⟨?_, by rw [msTicks]; decide⟩
    intro s' e _ he
    cases he
  · intro h' hrun
    cases hrun
    refine ⟨?_, fun _ _ => trivial⟩
    intro _
    refine ⟨?_, by rw [msTicks]; decide⟩
    intro s' e _ he _ _
    rw [entry_addCooldown] at he
    split at he
    · rw [← he]
      decide
    · cases he

/-- Spell 1 has ten seconds on its category and spell 2, cast after it, five. Six seconds
later an update has removed the pointer, and spell 3 is ready. -/
theorem shorterCategory_lifted :
    ¬ EnforcedRun plainStores (fun _ => 9) empty 0
      [.add 0 1 0 10000000000 10000000000 false, .add 0 2 0 5000000000 5000000000 false,
        .update 6000000000] := by
  intro hrun
  obtain ⟨-, h₁, hrun₁, -, h₂, hrun₂, -, h₃, hrun₃, hlast⟩ := hrun
  cases hrun₁
  cases hrun₂
  cases hrun₃
  have hspec := hlast ⟨3, 0, 0, 9, false, false, 0, false, false⟩ 6000000000 1
    ⟨1, 10000000000, 0, 9, 10000000000, false⟩ (by decide) (by decide) rfl (by decide) (by decide)
  exact absurd (hspec.1 0 rfl) (by decide)

end SpellHistory

end Sunstrider.Spells
