import Sunstrider.Proofs.GroupSteps

/-!
# What looting leaves alone

The rolls of a group come and go while its members loot. No other field of the
group is written then, and of the world only the loots: `Quiet` says so, and the
invariants about members, invitations and leaders go through looting by it.
-/

set_option linter.unusedSectionVars false

namespace Sunstrider.Groups

open Looting

variable {P : Type} [LinearOrder P]

/-- A group with its rolls put aside. -/
def Group.noRolls (G : Group P) : Group P := { G with rolls := [] }

namespace World

/-- Rolls and loots apart, nothing has changed. -/
structure Quiet (w w' : World P) : Prop where
  groups : ∀ g, (w'.groups g).map Group.noRolls = (w.groups g).map Group.noRolls
  players : w'.players = w.players
  links : w'.links = w.links
  memberRows : w'.memberRows = w.memberRows
  bgRaids : w'.bgRaids = w.bgRaids
  nextGroup : w'.nextGroup = w.nextGroup

namespace Quiet

variable {w w' w'' : World P}

theorem refl (w : World P) : Quiet w w := ⟨fun _ => rfl, rfl, rfl, rfl, rfl, rfl⟩

theorem trans (h : Quiet w w') (h' : Quiet w' w'') : Quiet w w'' where
  groups := fun g => (h'.groups g).trans (h.groups g)
  players := h'.players.trans h.players
  links := h'.links.trans h.links
  memberRows := h'.memberRows.trans h.memberRows
  bgRaids := h'.bgRaids.trans h.bgRaids
  nextGroup := h'.nextGroup.trans h.nextGroup

/-- A group afterwards was there before, with other rolls. -/
theorem group (h : Quiet w w') {g : Nat} {G' : Group P} (hG' : w'.groups g = some G') :
    ∃ G, w.groups g = some G ∧ G'.noRolls = G.noRolls := by
  have hg := h.groups g
  rw [hG'] at hg
  cases hG : w.groups g with
  | none =>
      rw [hG] at hg
      cases hg
  | some G =>
      rw [hG] at hg
      exact ⟨G, rfl, Option.some.inj hg⟩

theorem symm (h : Quiet w w') : Quiet w' w where
  groups := fun g => (h.groups g).symm
  players := h.players.symm
  links := h.links.symm
  memberRows := h.memberRows.symm
  bgRaids := h.bgRaids.symm
  nextGroup := h.nextGroup.symm

end Quiet

/-- The rolls of one group are written, and the loots. -/
theorem quiet_rolls {w w' : World P} {g : Nat} {f : Group P → Group P}
    (hobjects : w'.groupObjects = (w.modifyGroup g f).groupObjects)
    (hf : ∀ G, (f G).noRolls = G.noRolls) (hplayers : w'.players = w.players)
    (hlinks : w'.links = w.links) (hrows : w'.memberRows = w.memberRows)
    (hraids : w'.bgRaids = w.bgRaids) : Quiet w w' := by
  refine ⟨fun h => ?_, hplayers, hlinks, hrows, hraids, by
    unfold nextGroup
    rw [hobjects]
    exact List.length_modify _ _ _⟩
  have hread : w'.groups h = (w.modifyGroup g f).groups h := by
    unfold groups
    rw [hobjects]
  rw [hread, groups_modifyGroup]
  split
  · cases w.groups h with
    | none => rfl
    | some G => exact congrArg some (hf G)
  · rfl

theorem quiet_setLoot (w : World P) (lid : Nat) (l : Option (Loot P)) :
    Quiet w (w.setLoot lid l) := ⟨fun _ => rfl, rfl, rfl, rfl, rfl, rfl⟩

theorem quiet_startRolls (env : StartEnv P) (needBeforeGreed : Bool) (g lid : Nat)
    (w : World P) : Quiet w (w.startRolls env needBeforeGreed g lid) := by
  unfold startRolls
  split
  · exact quiet_rolls rfl (fun _ => rfl) rfl rfl rfl rfl
  · exact Quiet.refl w

theorem quiet_countTheRoll (env : CountEnv P) (allowedMap : Option Nat) (g i : Nat)
    (w : World P) : Quiet w (w.countTheRoll env allowedMap g i) := by
  unfold countTheRoll
  split
  · exact Quiet.refl w
  · dsimp only
    refine Quiet.trans ?_ (quiet_rolls rfl (fun _ => rfl) rfl rfl rfl rfl)
    split
    · exact Quiet.refl w
    · exact quiet_setLoot w _ _

theorem quiet_countRollVote (env : CountEnv P) (g : Nat) (p : P) (itemGUID : Nat)
    (choice : RollVote) (w : World P) : Quiet w (w.countRollVote env g p itemGUID choice) := by
  unfold countRollVote
  split
  · exact Quiet.refl w
  · split
    · exact Quiet.refl w
    · split
      · exact Quiet.refl w
      · split
        · exact Quiet.refl w
        · dsimp only
          have hset : ∀ r : GroupRoll P, ∀ i, Quiet w
              (w.modifyGroup g fun G => { G with rolls := G.rolls.set i r }) :=
            fun r i => quiet_rolls rfl (fun _ => rfl) rfl rfl rfl rfl
          split
          · exact (hset _ _).trans (quiet_countTheRoll env none g _ _)
          · exact hset _ _

theorem quiet_endRollLoop (env : Nat → CountEnv P) (allowedMap g lid fuel : Nat)
    (w : World P) : Quiet w (w.endRollLoop env allowedMap g lid fuel) := by
  induction fuel generalizing w with
  | zero => exact Quiet.refl w
  | succ more ih =>
      rw [endRollLoop]
      split
      · exact Quiet.refl w
      · exact (quiet_countTheRoll _ _ _ _ w).trans (ih _)

theorem quiet_endRoll (env : Nat → CountEnv P) (allowedMap g lid : Nat) (w : World P) :
    Quiet w (w.endRoll env allowedMap g lid) := by
  unfold endRoll
  split
  · exact Quiet.refl w
  · exact quiet_endRollLoop env allowedMap g lid _ w

theorem quiet_handleLootRoll (env : CountEnv P) (p : P) (itemGUID rollType : Nat)
    (w : World P) : Quiet w (w.handleLootRoll env p itemGUID rollType) := by
  unfold handleLootRoll onGroupOf
  split
  · exact Quiet.refl w
  · split
    · exact Quiet.refl w
    · dsimp only
      split
      · exact Quiet.refl w
      · exact quiet_countRollVote env _ p itemGUID _ w

theorem connected_setGroupInvite (w : World P) (g : Option Nat) (p q : P) :
    ((w.setGroupInvite g p).players q).connected = (w.players q).connected := by
  show (Function.update w.players p _ q).connected = _
  by_cases hq : q = p
  · rw [hq, Function.update_self]
  · rw [Function.update_of_ne hq]

/-! ## Rules for handlers -/

section

variable {I : World P → Prop} {w : World P}

theorem of_byPlayer {p : P} {f : World P → World P} (hw : I w)
    (hf : (w.players p).connected = true → I (f w)) : I (w.byPlayer p f) := by
  unfold byPlayer
  split <;> rename_i hp
  · exact hf hp
  · exact hw

theorem of_onGroupOf {p : P} {f : Nat → Group P → World P → World P} (hw : I w)
    (hf : ∀ g G, w.getGroup p = some g → w.groups g = some G → I (f g G w)) :
    I (w.onGroupOf p f) := by
  unfold onGroupOf
  split <;> rename_i hg
  · exact hw
  · split <;> rename_i hG
    · exact hw
    · exact hf _ _ hg hG

theorem of_getD {o : Option (World P)} (hw : I w) (h : ∀ w', o = some w' → I w') :
    I (o.getD w) := by
  cases o with
  | none => exact hw
  | some w' => exact h w' rfl

end

end World

end Sunstrider.Groups
