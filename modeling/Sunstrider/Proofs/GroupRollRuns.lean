import Sunstrider.Proofs.GroupRolls

/-!
# No item goes astray

Rolls are started and counted here, and the runs are put together. A start
blocks an item and adds the roll in one go; a count takes the roll away and has
to free the item, unless another roll for it goes on. `RollsEndWell` asks of each
operation that the groups it deletes release their items and the rolls it counts
settle. Along a run that meets it, an item that is blocked with no roll was so
all along.

Two players, a roll, and `Disband`: the item is blocked for good.
-/

set_option linter.unusedSectionVars false

namespace Sunstrider.Groups

open Looting Lib

variable {P : Type} [LinearOrder P]

/-! ## Starting -/

theorem itemSlot_addRollers (pass : P → Bool) (rollers : List P) (r : Roll P) :
    (rollers.foldl (addRoller pass) r).itemSlot = r.itemSlot := by
  induction rollers generalizing r with
  | nil => rfl
  | cons p rollers ih => exact ih (addRoller pass r p)

namespace Starting

variable {lid : Nat} {l : Loot P} {rolls : List (GroupRoll P)} {s : Starting P}

/-- What is held was held at the start, or has a roll; rolls are only added. -/
structure Covers (lid : Nat) (l : Loot P) (rolls : List (GroupRoll P)) (s : Starting P) :
    Prop where
  held : ∀ slot, s.loot.HeldAt slot →
    l.HeldAt slot ∨ (lid, slot) ∈ s.rolls.map GroupRoll.item
  rolls : ∀ r ∈ rolls, r ∈ s.rolls

theorem Covers.startRoll (h : Covers lid l rolls s) (itemid slot : Nat) (pass : P → Bool)
    (rollers : List P) : Covers lid l rolls (s.startRoll lid itemid slot pass rollers) := by
  unfold Starting.startRoll
  dsimp only
  split
  · refine ⟨?_, fun r hr => List.mem_append_left _ (h.rolls r hr)⟩
    intro slot' ⟨item', hi, hheld⟩
    rw [List.map_append, List.mem_append]
    by_cases hs : slot = slot'
    · subst hs
      refine Or.inr (Or.inr ?_)
      simp [GroupRoll.item, itemSlot_addRollers, newRoll]
    · rw [Loot.blockForRoll, Loot.itemAt_modifyAt_ne _ _ hs] at hi
      rcases h.held slot' ⟨item', hi, hheld⟩ with h | h
      · exact Or.inl h
      · exact Or.inr (Or.inl h)
  · exact ⟨h.held, h.rolls⟩

theorem Covers.startSlot (h : Covers lid l rolls s) (env : StartEnv P) (needBeforeGreed : Bool)
    (members : List P) (slot : Nat) :
    Covers lid l rolls (s.startSlot env needBeforeGreed lid members slot) := by
  unfold Starting.startSlot
  split
  · exact h
  · dsimp only
    split
    · exact h
    · split
      · split
        · exact h
        · split
          · exact h.startRoll _ _ _ _
          · refine ⟨fun slot' hs => ?_, h.rolls⟩
            refine h.held slot' (Loot.freer_modifyAt s.loot slot ?_ slot' hs)
            exact fun _ hi => hi
      · split
        · exact h.startRoll _ _ _ _
        · exact h

theorem covers_loop (env : StartEnv P) (needBeforeGreed : Bool) (members : List P)
    (slots : List Nat) (h : Covers lid l rolls s) :
    Covers lid l rolls (slots.foldl (Starting.startSlot env needBeforeGreed lid members) s) := by
  induction slots generalizing s with
  | nil => exact h
  | cons slot slots ih => exact ih (h.startSlot env needBeforeGreed members slot)

end Starting

namespace World

variable {w : World P} {g i : Nat} {G : Group P} {env : CountEnv P} {allowedMap : Option Nat}
  {r : GroupRoll P} {p : P}

variable {w' : World P} {f : Nat → Group P → World P → World P} {lid : Nat} {item : Nat × Nat}
  {realm : Realm P}

theorem rolling_some (hG : w.groups g = some G) : w.rolling g = G.rolls.map GroupRoll.item := by
  unfold rolling
  rw [hG]

/-- The rolls of one group, replaced. -/
theorem rolling_setRolls {f : Group P → Group P}
    (hobjects : w'.groupObjects = (w.modifyGroup g f).groupObjects) (hG : w.groups g = some G)
    (g' : Nat) :
    w'.rolling g' = if g = g' then (f G).rolls.map GroupRoll.item else w.rolling g' := by
  have hgroups : w'.groups = (w.modifyGroup g f).groups := by
    unfold groups
    rw [hobjects]
  unfold rolling
  rw [hgroups, groups_modifyGroup]
  by_cases hgg : g = g'
  · subst hgg
    rw [if_pos rfl, if_pos rfl, hG]
    rfl
  · rw [if_neg hgg, if_neg hgg]

/-- Held in one loot or another: what is held in the loot that was written. -/
theorem held_setLoot {l' : Loot P} (h : (w.setLoot lid (some l')).Held item) :
    (item.1 = lid ∧ l'.HeldAt item.2) ∨ (item.1 ≠ lid ∧ w.Held item) := by
  obtain ⟨l, hl, hat⟩ := h
  have hl' : Function.update w.loots lid (some l') item.1 = some l := hl
  by_cases hlid : item.1 = lid
  · rw [hlid, Function.update_self] at hl'
    obtain rfl := Option.some.inj hl'
    exact Or.inl ⟨hlid, hat⟩
  · rw [Function.update_of_ne hlid] at hl'
    exact Or.inr ⟨hlid, l, hl', hat⟩

theorem noNewStray_startRolls (env : StartEnv P) (needBeforeGreed : Bool) (g lid : Nat)
    (w : World P) : NoNewStray w (w.startRolls env needBeforeGreed g lid) := by
  unfold startRolls
  split
  · rename_i G l hG hl
    dsimp only
    have hcov : Starting.Covers lid l G.rolls ((List.range
        (l.items.length + l.questItems.length)).foldl
          (Starting.startSlot env needBeforeGreed lid (w.members g))
            ⟨l, G.rolls, w.nextItemGUID⟩) :=
      Starting.covers_loop env needBeforeGreed _ _ ⟨fun _ h => Or.inl h, fun _ h => h⟩
    generalize List.foldl _ _ _ = s at hcov ⊢
    have hrolling : ∀ g', ({ (w.modifyGroup g fun G => { G with rolls := s.rolls }).setLoot lid
        (some s.loot) with nextItemGUID := s.nextItemGUID } : World P).rolling g' =
          if g = g' then s.rolls.map GroupRoll.item else w.rolling g' :=
      rolling_setRolls rfl hG
    intro item ⟨hheld, hno⟩
    refine ⟨?_, ?_⟩
    · rcases held_setLoot (w := w.modifyGroup g fun G => { G with rolls := s.rolls })
        hheld with ⟨hlid, hat⟩ | ⟨_, hw⟩
      · rcases hcov.held item.2 hat with h | h
        · exact ⟨l, by rw [hlid]; exact hl, h⟩
        · refine absurd ⟨g, ?_⟩ hno
          rw [hrolling, if_pos rfl, show item = (lid, item.2) from Prod.ext hlid rfl]
          exact h
      · exact hw
    · intro ⟨g', hmem⟩
      refine hno ⟨g', ?_⟩
      rw [hrolling]
      split <;> rename_i hgg
      · subst hgg
        rw [rolling_some hG] at hmem
        obtain ⟨r, hr, hitem⟩ := List.mem_map.1 hmem
        exact List.mem_map.2 ⟨r, hcov.rolls r hr, hitem⟩
      · exact hmem
  · exact NoNewStray.refl w

/-! ## Counting -/

/-- Counting the roll at place `i` of a group frees its item: it is not held, or
another roll for it goes on, or the roll settles. -/
def CountsWell (env : CountEnv P) (allowedMap : Option Nat) (g i : Nat) (w : World P) : Prop :=
  ∀ G r, w.groups g = some G → G.rolls[i]? = some r → w.Held r.item →
    (∃ g', g' ≠ g ∧ r.item ∈ w.rolling g') ∨
    r.item ∈ (G.rolls.eraseIdx i).map GroupRoll.item ∨
    r.roll.Settles (w.rollEnv env allowedMap)

theorem rollEnv_sessions (w : World P) (env : CountEnv P) (allowedMap : Option Nat) :
    (w.rollEnv env allowedMap).Sessions := by
  intro p x hx
  have h : (if w.findConnectedPlayer p then
      some (⟨(w.players p).inWorld, env.findMap p, true⟩ : RollPlayer Nat) else none) =
        some x := hx
  split at h
  · obtain rfl := Option.some.inj h
    rfl
  · cases h

/-- Where one is taken out, the others stay. -/
theorem mem_or_mem_eraseIdx {α : Type} {l : List α} {a b : α} (hi : l[i]? = some b) (ha : a ∈ l) :
    a = b ∨ a ∈ l.eraseIdx i := by
  obtain ⟨hlt, rfl⟩ := List.getElem?_eq_some_iff.1 hi
  rw [List.eraseIdx_eq_take_drop_succ, List.mem_append]
  rw [← List.take_append_drop i l, List.mem_append, List.drop_eq_getElem_cons hlt,
    List.mem_cons] at ha
  rcases ha with ha | ha | ha
  · exact Or.inr (Or.inl ha)
  · exact Or.inl ha
  · exact Or.inr (Or.inr ha)

/-- The loots once a roll is counted. -/
def countLoot (env : CountEnv P) (allowedMap : Option Nat) (r : GroupRoll P) (w : World P) :
    World P :=
  match w.loots r.loot with
  | none => w
  | some l => w.setLoot r.loot (some (r.roll.countTheRoll (w.rollEnv env allowedMap) l).loot)

theorem countTheRoll_some (hG : w.groups g = some G) (hi : G.rolls[i]? = some r) :
    w.countTheRoll env allowedMap g i = (w.countLoot env allowedMap r).modifyGroup g fun G =>
      { G with rolls := G.rolls.eraseIdx i } := by
  unfold countTheRoll
  rw [hG, Option.bind_some, hi]
  rfl

theorem countTheRoll_none (h : ∀ G, w.groups g = some G → G.rolls[i]? = none) :
    w.countTheRoll env allowedMap g i = w := by
  unfold countTheRoll
  cases hG : w.groups g with
  | none => rfl
  | some G =>
      rw [Option.bind_some, h G hG]

/-- Counting holds nothing new, and frees the item of a roll that settles. -/
theorem held_countLoot (h : (w.countLoot env allowedMap r).Held item) :
    w.Held item ∧ (item = r.item → ¬ r.roll.Settles (w.rollEnv env allowedMap)) := by
  unfold countLoot at h
  cases hl : w.loots r.loot with
  | none =>
      rw [hl] at h
      refine ⟨h, ?_⟩
      intro hitem _
      obtain ⟨l', hl', _⟩ := h
      rw [hitem] at hl'
      exact Option.some_ne_none l' (hl'.symm.trans hl)
  | some l =>
      rw [hl] at h
      rcases held_setLoot h with ⟨hlid, hat⟩ | ⟨hlid, hw⟩
      · refine ⟨⟨l, by rw [hlid]; exact hl,
          Roll.countTheRoll_freer _ r.roll l item.2 hat⟩, ?_⟩
        intro hitem hsettles
        rw [hitem] at hat
        exact Roll.countTheRoll_frees (rollEnv_sessions w env allowedMap) hsettles l hat
      · refine ⟨hw, ?_⟩
        intro hitem
        exact absurd (congrArg Prod.fst hitem) hlid

theorem groupObjects_countLoot (w : World P) (env : CountEnv P) (allowedMap : Option Nat)
    (r : GroupRoll P) : (w.countLoot env allowedMap r).groupObjects = w.groupObjects := by
  unfold countLoot
  split <;> rfl

theorem noNewStray_countTheRoll (hc : w.CountsWell env allowedMap g i) :
    NoNewStray w (w.countTheRoll env allowedMap g i) := by
  by_cases hnone : ∀ G, w.groups g = some G → G.rolls[i]? = none
  · rw [countTheRoll_none hnone]
    exact NoNewStray.refl w
  · push Not at hnone
    obtain ⟨G, hG, hsome⟩ := hnone
    obtain ⟨r, hi⟩ := Option.ne_none_iff_exists'.1 hsome
    rw [countTheRoll_some hG hi]
    have hrolling : ∀ g', ((w.countLoot env allowedMap r).modifyGroup g fun G =>
        { G with rolls := G.rolls.eraseIdx i }).rolling g' =
          if g = g' then (G.rolls.eraseIdx i).map GroupRoll.item else w.rolling g' :=
      rolling_setRolls (f := fun G => { G with rolls := G.rolls.eraseIdx i })
        (by unfold modifyGroup; rw [groupObjects_countLoot]) hG
    intro item ⟨hheld', hno⟩
    obtain ⟨hheld, hsettles⟩ := held_countLoot hheld'
    refine ⟨hheld, ?_⟩
    intro ⟨g', hg'⟩
    by_cases hgg : g = g'
    · subst hgg
      rw [rolling_some hG] at hg'
      obtain ⟨r', hr', hitem⟩ := List.mem_map.1 hg'
      rcases mem_or_mem_eraseIdx hi hr' with h | h
      · -- the item of the roll that is counted
        subst h
        rcases hc G r' hG hi (by rw [hitem]; exact hheld) with ⟨g', hne, hg'⟩ | h | h
        · refine hno ⟨g', ?_⟩
          rw [hrolling, if_neg (Ne.symm hne), ← hitem]
          exact hg'
        · refine hno ⟨g, ?_⟩
          rw [hrolling, if_pos rfl, ← hitem]
          exact h
        · exact hsettles hitem.symm h
      · refine hno ⟨g, ?_⟩
        rw [hrolling, if_pos rfl]
        exact List.mem_map.2 ⟨r', h, hitem⟩
    · refine hno ⟨g', ?_⟩
      rw [hrolling, if_neg hgg]
      exact hg'

/-- A roll of the group with the vote of a player in. -/
def voted (w : World P) (p : P) (choice : RollVote) (r : GroupRoll P) : GroupRoll P :=
  { r with roll := r.roll.countRollVote p choice (w.loots r.loot) }

def setRoll (i : Nat) (r : GroupRoll P) (G : Group P) : Group P :=
  { G with rolls := G.rolls.set i r }

/-- A vote frees the item of the roll it completes. -/
def VotesWell (env : CountEnv P) (g : Nat) (p : P) (itemGUID : Nat) (choice : RollVote)
    (w : World P) : Prop :=
  ∀ G i r, w.groups g = some G → w.getRoll G itemGUID = some i → G.rolls[i]? = some r →
    r.roll.mayVote p (w.loots r.loot) = true → (w.voted p choice r).roll.complete = true →
    CountsWell env none g i (w.modifyGroup g (setRoll i (w.voted p choice r)))

theorem itemSlot_countRollVote (r : Roll P) (g : P) (choice : RollVote)
    (loot : Option (Loot P)) : (r.countRollVote g choice loot).itemSlot = r.itemSlot := by
  unfold Roll.countRollVote
  split
  · rfl
  · cases choice with
    | pass => rfl
    | need => rfl
    | greed => rfl
    | notEmitedYet => rfl
    | notValid => rfl

theorem item_voted (w : World P) (p : P) (choice : RollVote) (r : GroupRoll P) :
    (w.voted p choice r).item = r.item := by
  show (r.loot, (r.roll.countRollVote p choice _).itemSlot) = (r.loot, r.roll.itemSlot)
  rw [itemSlot_countRollVote]

theorem keepsRolls_voted (hG : w.groups g = some G) (hr : G.rolls[i]? = some r) (p : P)
    (choice : RollVote) : KeepsRolls w (w.modifyGroup g (setRoll i (w.voted p choice r))) := by
  refine ⟨rfl, fun g' => ?_⟩
  rw [rolling_setRolls rfl hG]
  split <;> rename_i hgg
  · subst hgg
    rw [rolling_some hG]
    show (G.rolls.set i (w.voted p choice r)).map GroupRoll.item = _
    rw [List.map_set, item_voted]
    refine List.ext_getElem? fun j => ?_
    rw [List.getElem?_set]
    split <;> rename_i hij
    · subst hij
      obtain ⟨hlt, hget⟩ := List.getElem?_eq_some_iff.1 hr
      rw [if_pos (by simpa using hlt), List.getElem?_map, hr]
      rfl
    · rfl
  · rfl

theorem noNewStray_countRollVote {itemGUID : Nat} {choice : RollVote}
    (hv : w.VotesWell env g p itemGUID choice) :
    NoNewStray w (w.countRollVote env g p itemGUID choice) := by
  unfold countRollVote
  cases hG : w.groups g with
  | none => exact NoNewStray.refl w
  | some G =>
      dsimp only
      cases hi : w.getRoll G itemGUID with
      | none => exact NoNewStray.refl w
      | some i =>
          dsimp only
          cases hr : G.rolls[i]? with
          | none => exact NoNewStray.refl w
          | some r =>
              dsimp only
              split <;> rename_i hmay
              · exact NoNewStray.refl w
              · have hset := keepsRolls_voted hG hr p choice
                split <;> rename_i hcomplete
                · exact hset.noNewStray.trans
                    (noNewStray_countTheRoll (hv G i r hG hi hr (by simpa using hmay) hcomplete))
                · exact hset.noNewStray

/-- Each roll `EndRoll` counts frees its item. -/
def EndsWell (env : Nat → CountEnv P) (allowedMap g lid : Nat) : Nat → World P → Prop
  | 0, _ => True
  | more + 1, w =>
      match w.rollFor g lid with
      | none => True
      | some i =>
          w.CountsWell (env more) (some allowedMap) g i ∧
            EndsWell env allowedMap g lid more
              (w.countTheRoll (env more) (some allowedMap) g i)

theorem noNewStray_endRollLoop {env : Nat → CountEnv P} {allowedMap : Nat} (fuel : Nat)
    (h : EndsWell env allowedMap g lid fuel w) :
    NoNewStray w (w.endRollLoop env allowedMap g lid fuel) := by
  induction fuel generalizing w with
  | zero => exact NoNewStray.refl w
  | succ more ih =>
      rw [endRollLoop]
      rw [EndsWell] at h
      cases hi : w.rollFor g lid with
      | none => exact NoNewStray.refl w
      | some i =>
          rw [hi] at h
          exact (noNewStray_countTheRoll h.1).trans (ih h.2)

/-! ## Operations that leave rolls alone -/

theorem keepsRolls_getD {o : Option (World P)} (h : ∀ w', o = some w' → KeepsRolls w w') :
    KeepsRolls w (o.getD w) := by
  cases o with
  | none => exact KeepsRolls.refl w
  | some w' => exact h w' rfl

theorem keepsRolls_inviteTo (inviter target : P) (w : World P) :
    KeepsRolls w (w.inviteTo inviter target) := by
  unfold inviteTo
  split
  · split
    · exact KeepsRolls.refl w
    · split
      · exact KeepsRolls.refl w
      · split
        · exact KeepsRolls.refl w
        · exact keepsRolls_getD fun w' h => keepsRolls_addInvite h
  · dsimp only
    split <;> rename_i h
    · exact KeepsRolls.refl w
    · exact keepsRolls_getD fun w' h' =>
        ((keepsRolls_newGroup w inviter none).trans (keepsRolls_addInvite h)).trans
          (keepsRolls_addInvite h')

theorem keepsRolls_handleGroupInvite (inviter target : P) (allowed : Bool) (w : World P) :
    KeepsRolls w (w.handleGroupInvite inviter target allowed) := by
  unfold handleGroupInvite
  split
  · exact KeepsRolls.refl w
  · split
    · exact KeepsRolls.refl w
    · split
      · exact KeepsRolls.refl w
      · exact keepsRolls_inviteTo inviter target w

theorem keepsRolls_acceptFirst (g : Nat) (leader p : P) (w : World P) :
    KeepsRolls w (w.acceptFirst g leader p) := by
  unfold acceptFirst
  split
  · exact keepsRolls_removeAllInvites w g
  · dsimp only
    have hremove := keepsRolls_removeInvite w g leader
    split <;> rename_i hc
    · exact hremove
    · have hcreate := hremove.trans (keepsRolls_create hc)
      split <;> rename_i ha
      · exact hcreate
      · exact (hcreate.trans (keepsRolls_addMember ha)).trans (keepsRolls_commitRows _ g _)

theorem keepsRolls_handleGroupAccept (p : P) (w : World P) :
    KeepsRolls w (w.handleGroupAccept p) := by
  unfold handleGroupAccept
  split <;> rename_i g _
  · exact KeepsRolls.refl w
  · split
    · exact KeepsRolls.refl w
    · split
      · exact KeepsRolls.refl w
      · dsimp only
        have hremove := keepsRolls_removeInvite w g p
        split
        · exact hremove
        · split
          · split <;> rename_i ha
            · exact hremove
            · exact (hremove.trans (keepsRolls_addMember ha)).trans (keepsRolls_commitRows _ g _)
          · exact hremove.trans (keepsRolls_acceptFirst g _ p _)

theorem keepsRolls_onGroupOf (hf : ∀ g G, KeepsRolls w (f g G w)) :
    KeepsRolls w (w.onGroupOf p f) := by
  unfold onGroupOf
  split
  · exact KeepsRolls.refl w
  · split
    · exact KeepsRolls.refl w
    · exact hf _ _

theorem keepsRolls_ite {c : Prop} [Decidable c] {w₁ w₂ : World P} (h₁ : KeepsRolls w w₁)
    (h₂ : KeepsRolls w w₂) : KeepsRolls w (if c then w₁ else w₂) := by
  split
  · exact h₁
  · exact h₂

theorem rolls_changeMembersGroup (guid : P) (group : Nat) (G : Group P) :
    (G.changeMembersGroup guid group).rolls = G.rolls := by
  unfold Group.changeMembersGroup
  split
  · rfl
  · split
    · rfl
    · split
      · rfl
      · exact rolls_modifySlot guid _ G

theorem rolls_setGroupMemberFlag (guid : P) (apply : Bool) (G : Group P) :
    (G.setGroupMemberFlag guid apply).rolls = G.rolls := by
  unfold Group.setGroupMemberFlag
  split
  · exact rolls_modifySlot guid _ G
  · rfl

theorem keepsRolls_handleGroupChangeSubGroup (realm : Realm P) (p : P) (name : String)
    (groupNr : Nat) (w : World P) :
    KeepsRolls w (w.handleGroupChangeSubGroup realm p name groupNr) := by
  refine keepsRolls_onGroupOf fun g G => ?_
  split
  · exact KeepsRolls.refl w
  · refine keepsRolls_ite (KeepsRolls.refl w) (keepsRolls_ite (KeepsRolls.refl w)
      (keepsRolls_ite (KeepsRolls.refl w) ?_))
    split
    · exact KeepsRolls.refl w
    · exact keepsRolls_modifyGroup w g fun G => by rw [rolls_changeMembersGroup]

theorem keepsRolls_handleGroupSwapSubGroup (realm : Realm P) (p : P) (name1 name2 : String)
    (w : World P) : KeepsRolls w (w.handleGroupSwapSubGroup realm p name1 name2) := by
  unfold handleGroupSwapSubGroup
  split
  · refine keepsRolls_onGroupOf fun g G => ?_
    refine keepsRolls_ite (KeepsRolls.refl w) (keepsRolls_ite (KeepsRolls.refl w)
      (keepsRolls_ite (KeepsRolls.refl w) (keepsRolls_ite (KeepsRolls.refl w) ?_)))
    exact keepsRolls_modifyGroup w g fun G => by
      rw [rolls_changeMembersGroup, rolls_changeMembersGroup]
  · exact KeepsRolls.refl w

theorem keepsRolls_lfgAdd {owner : P} (h : w.lfgAdd owner p = some w') : KeepsRolls w w' := by
  unfold lfgAdd at h
  split at h
  · exact keepsRolls_addMember h
  · dsimp only at h
    split at h <;> rename_i hc
    · cases h
    · exact ((keepsRolls_newGroup w owner none).trans (keepsRolls_create hc)).trans
        (keepsRolls_addMember h)

theorem keepsRolls_attemptAddMore (owner p : P) (w : World P) :
    KeepsRolls w (w.attemptAddMore owner p) := by
  unfold attemptAddMore
  refine keepsRolls_ite ?_ (KeepsRolls.refl w)
  split <;> rename_i h
  · exact KeepsRolls.refl w
  · split
    · exact keepsRolls_lfgAdd h
    · exact (keepsRolls_lfgAdd h).trans (keepsRolls_commitRows _ _ _)

theorem keepsRolls_leadFromOutside (g : Nat) (p : P) (w : World P) :
    KeepsRolls w (w.leadFromOutside g p) := by
  unfold leadFromOutside
  split
  · exact KeepsRolls.refl w
  · exact keepsRolls_ite (keepsRolls_changeLeader w g p) (KeepsRolls.refl w)

theorem keepsRolls_addOrSet (p : P) (b : Nat) (w : World P) :
    KeepsRolls w (w.addOrSetPlayerToCorrectBgGroup p b) := by
  unfold addOrSetPlayerToCorrectBgGroup
  split
  · refine (keepsRolls_newGroup w p (some b)).trans (KeepsRolls.trans ?_
      (keepsRolls_getD fun w' h => keepsRolls_create h))
    exact keepsRolls_of_eq rfl rfl
  · split
    · exact KeepsRolls.refl w
    · refine keepsRolls_ite (relinked_setBattlegroundRaid w _ p).keepsRolls ?_
      exact (keepsRolls_getD fun w' h => keepsRolls_addMember h).trans
        (keepsRolls_leadFromOutside _ p _)

theorem keepsRolls_login (p : P) (w : World P) : KeepsRolls w (w.login p) := by
  unfold login
  refine keepsRolls_ite (KeepsRolls.refl w) ?_
  have hnew : KeepsRolls w (w.setPlayer p ⟨(w.players p).name, true, true, none, false⟩) :=
    keepsRolls_of_eq rfl rfl
  dsimp only
  split
  · exact hnew
  · exact keepsRolls_ite (hnew.trans (relinked_setRef _ false _ p).keepsRolls) hnew

theorem keepsRolls_loadGroup (leader : P) (raid : Bool) (rows : List (MemberSlot P))
    (w : World P) : KeepsRolls w (w.loadGroup leader raid rows) := by
  have hrows : ∀ (rows : List (MemberSlot P)) (G : Group P),
      (rows.foldl (fun G s => G.pushSlot s) G).rolls = G.rolls := by
    intro rows
    induction rows with
    | nil => exact fun _ => rfl
    | cons s rows ih => exact fun G => ih (G.pushSlot s)
  have htype : KeepsRolls w ((w.newGroup leader none).modifyGroup w.nextGroup
      fun G => if raid then G.convertToRaid else G) := by
    refine (keepsRolls_newGroup w leader none).trans (keepsRolls_modifyGroup _ _ fun G => ?_)
    cases raid with
    | true => rfl
    | false => rfl
  have hmembers := htype.trans (keepsRolls_modifyGroup _ w.nextGroup fun G => by
    rw [hrows rows G])
  exact hmembers.trans (keepsRolls_of_eq rfl rfl)

/-! ## Operations -/

/-- The group a declined invitation deletes. -/
def DeclineDeletes (p : P) (g : Nat) (w : World P) : Prop :=
  (w.players p).groupInvite = some g ∧
    ∃ G, w.groups g = some G ∧ w.findConnectedPlayer G.leaderGuid = true ∧
      G.isCreated = false

theorem noNewStray_handleGroupDecline (hr : ∀ g, DeclineDeletes p g w → w.Releases g) :
    NoNewStray w (w.handleGroupDecline p) := by
  unfold handleGroupDecline
  cases hg : (w.players p).groupInvite with
  | none => exact NoNewStray.refl w
  | some g =>
      dsimp only
      cases hG : w.groups g with
      | none => exact NoNewStray.refl w
      | some G =>
          dsimp only
          split <;> rename_i hconn
          · exact NoNewStray.refl w
          · have hinvite : ∀ w' : World P, NoNewStray w' (w'.setGroupInvite none p) :=
              fun w' => (keepsRolls_of_eq rfl rfl).noNewStray
            split <;> rename_i hc
            · exact hinvite w
            · refine NoNewStray.trans ?_ (hinvite _)
              exact (removeAllInvites_deleteGroup hG).noNewStray
                (hr g ⟨hg, G, hG, by simpa using hconn, by simpa using hc⟩)

/-- The groups a request to uninvite deletes. -/
def UninviteEndsWell (d : UninviteDecision P) (w : World P) : Prop :=
  match d with
  | .ignore => True
  | .answer _ => True
  | .removeFromGroup g guid => RemoveDisbands g guid w → w.Releases g
  | .uninviteFromGroup q => ∀ g, UninviteDeletes q g w → w.Releases g

theorem noNewStray_applyUninvite {d : UninviteDecision P} (h : UninviteEndsWell d w) :
    NoNewStray w (w.applyUninvite d) := by
  cases d with
  | ignore => exact NoNewStray.refl w
  | answer res => exact NoNewStray.refl w
  | removeFromGroup g guid => exact noNewStray_removeMember h
  | uninviteFromGroup q => exact noNewStray_uninviteFromGroup h

/-- Every group the operation deletes releases the items it has rolls for, and
every roll it counts frees its item. -/
def RollsEndWell (realm : Realm P) (w : World P) (o : Op P) : Prop :=
  match o with
  | .logout p => ∀ g, UninviteDeletes p g w → w.Releases g
  | .decline p => ∀ g, DeclineDeletes p g w → w.Releases g
  | .uninviteGuid p guid => UninviteEndsWell (w.uninviteGuid p guid) w
  | .uninviteName p name => UninviteEndsWell (w.uninviteName realm p name) w
  | .leave p => ∀ g, w.getGroup p = some g → RemoveDisbands g p w → w.Releases g
  | .leaveBattleground p b => ∀ g, w.bgRaids b = some g → RemoveDisbands g p w → w.Releases g
  | .removeMember g guid => RemoveDisbands g guid w → w.Releases g
  | .disband g => w.Releases g
  | .lootRoll env p itemGUID rollType =>
      ∀ g, w.getGroup p = some g → w.VotesWell env g p itemGUID (rollTypeVote rollType)
  | .endRoll env allowedMap g lid =>
      ∀ G, w.groups g = some G → EndsWell env allowedMap g lid G.rolls.length w
  | _ => True

theorem noNewStray_byPlayer {f : World P → World P} (h : NoNewStray w (f w)) :
    NoNewStray w (w.byPlayer p f) := by
  unfold byPlayer
  split
  · exact h
  · exact NoNewStray.refl w

theorem noNewStray_onGroupOf
    (hf : ∀ g G, w.getGroup p = some g → w.groups g = some G → NoNewStray w (f g G w)) :
    NoNewStray w (w.onGroupOf p f) := by
  unfold onGroupOf
  split <;> rename_i hg
  · exact NoNewStray.refl w
  · split <;> rename_i hG
    · exact NoNewStray.refl w
    · exact hf _ _ hg hG

/-- One operation: no item goes astray. -/
theorem noNewStray_step {o : Op P} (h : RollsEndWell realm w o) :
    NoNewStray w (w.step realm o) := by
  cases o with
  | login p => exact (keepsRolls_login p w).noNewStray
  | logout p =>
      refine noNewStray_byPlayer ((noNewStray_uninviteFromGroup h).trans ?_)
      exact (keepsRolls_of_eq rfl rfl).noNewStray
  | setInWorld p b => exact noNewStray_byPlayer (keepsRolls_of_eq rfl rfl).noNewStray
  | invite p target allowed =>
      exact noNewStray_byPlayer (keepsRolls_handleGroupInvite p target allowed w).noNewStray
  | accept p => exact noNewStray_byPlayer (keepsRolls_handleGroupAccept p w).noNewStray
  | decline p => exact noNewStray_byPlayer (noNewStray_handleGroupDecline h)
  | uninviteGuid p guid => exact noNewStray_byPlayer (noNewStray_applyUninvite h)
  | uninviteName p name => exact noNewStray_byPlayer (noNewStray_applyUninvite h)
  | leave p =>
      refine noNewStray_byPlayer (noNewStray_onGroupOf fun g G hg _ => ?_)
      split
      · exact NoNewStray.refl w
      · exact noNewStray_removeMember (h g hg)
  | setLeader p guid =>
      refine noNewStray_byPlayer (KeepsRolls.noNewStray (keepsRolls_onGroupOf fun g G => ?_))
      exact keepsRolls_ite (KeepsRolls.refl w) (keepsRolls_changeLeader w g guid)
  | raidConvert p =>
      refine noNewStray_byPlayer (KeepsRolls.noNewStray (keepsRolls_onGroupOf fun g G => ?_))
      exact keepsRolls_ite (KeepsRolls.refl w) (keepsRolls_ite (KeepsRolls.refl w)
        (keepsRolls_modifyGroup w g fun _ => rfl))
  | changeSubGroup p name groupNr =>
      exact noNewStray_byPlayer
        (keepsRolls_handleGroupChangeSubGroup realm p name groupNr w).noNewStray
  | swapSubGroup p name1 name2 =>
      exact noNewStray_byPlayer
        (keepsRolls_handleGroupSwapSubGroup realm p name1 name2 w).noNewStray
  | assistantLeader p guid apply =>
      refine noNewStray_byPlayer (KeepsRolls.noNewStray (keepsRolls_onGroupOf fun g G => ?_))
      exact keepsRolls_ite (KeepsRolls.refl w)
        (keepsRolls_modifyGroup w g fun G => by rw [rolls_setGroupMemberFlag])
  | attemptJoin p owner =>
      refine KeepsRolls.noNewStray (keepsRolls_ite ?_ (KeepsRolls.refl w))
      exact keepsRolls_getD fun w' h => keepsRolls_lfgAdd h
  | attemptAddMore owner p => exact (keepsRolls_attemptAddMore owner p w).noNewStray
  | joinBattleground p b =>
      refine noNewStray_byPlayer (KeepsRolls.noNewStray (KeepsRolls.trans ?_
        (keepsRolls_addOrSet p b _)))
      exact keepsRolls_of_eq rfl rfl
  | leaveBattleground p b =>
      refine NoNewStray.trans ?_ (KeepsRolls.noNewStray (keepsRolls_of_eq rfl rfl))
      show NoNewStray w (match w.bgRaids b with
        | none => w
        | some g => w.removeMember g p)
      split <;> rename_i hb
      · exact NoNewStray.refl w
      · exact noNewStray_removeMember (h _ hb)
  | removeMember g guid => exact noNewStray_removeMember h
  | disband g => exact noNewStray_disband h
  | changeLeader g guid => exact (keepsRolls_changeLeader w g guid).noNewStray
  | changeLeaderToFirstOnlineMember g => exact (keepsRolls_changeLeaderToFirst w g).noNewStray
  | loadGroup leader raid rows => exact (keepsRolls_loadGroup leader raid rows w).noNewStray
  | groupLoot env g lid => exact noNewStray_startRolls env false g lid w
  | needBeforeGreed env g lid => exact noNewStray_startRolls env true g lid w
  | lootRoll env p itemGUID rollType =>
      refine noNewStray_byPlayer (noNewStray_onGroupOf fun g G hg _ => ?_)
      split
      · exact NoNewStray.refl w
      · exact noNewStray_countRollVote (h g hg)
  | endRoll env allowedMap g lid =>
      show NoNewStray w (w.endRoll env allowedMap g lid)
      unfold endRoll
      split <;> rename_i hG
      · exact NoNewStray.refl w
      · exact noNewStray_endRollLoop _ (h _ hG)
  | loseLoot lid =>
      intro item ⟨⟨l, hl, hat⟩, hno⟩
      refine ⟨?_, hno⟩
      have hl' : Function.update w.loots lid none item.1 = some l := hl
      by_cases hlid : item.1 = lid
      · rw [hlid, Function.update_self] at hl'
        cases hl'
      · rw [Function.update_of_ne hlid] at hl'
        exact ⟨l, hl', hat⟩

/-! ## Runs -/

theorem noNewStray_run {ops : List (Op P)} (h : Along (step realm) (RollsEndWell realm) w ops) :
    NoNewStray w (w.run realm ops) := by
  induction ops generalizing w with
  | nil => exact NoNewStray.refl w
  | cons o ops ih => exact (noNewStray_step h.1).trans (ih h.2)

/-- Where deleted groups release their items and counted rolls settle, an item
that is held has an active roll. One that has none was held at every moment of
the run, and never had one. -/
theorem held_while_rolled {realm : Realm P} {w : World P} {ops : List (Op P)}
    (h : Along (step realm) (RollsEndWell realm) w ops) (item : Nat × Nat)
    (hheld : (w.run realm ops).Held item) :
    (w.run realm ops).HasRoll item ∨ ∀ n, (w.run realm (ops.take n)).Stray item := by
  by_cases hroll : (w.run realm ops).HasRoll item
  · exact Or.inl hroll
  · refine Or.inr fun n => ?_
    rw [← List.take_append_drop n ops, Along.append] at h
    refine noNewStray_run h.2 item ?_
    unfold run
    rw [← List.foldl_append, List.take_append_drop]
    exact ⟨hheld, hroll⟩

/-! Two players form a party and loot a corpse with one item worth a roll. The item
is held while its roll runs; when one of them leaves before the timer runs out, the
party is disbanded, and nothing will free it again. -/

def everybody : Realm Nat := ⟨some, fun _ => none⟩

def chestItem : LootItem Nat where
  itemid := 7
  conditions := []
  rollWinnerGUID := none
  count := 1
  isLooted := false
  isBlocked := false
  freeforall := false
  isUnderthreshold := false
  isCounted := false
  needsQuest := false
  followLootRules := false

def chest : Loot Nat := { Loot.empty 0 with items := [chestItem], unlootedCount := 1 }

def nearby : StartEnv Nat where
  lootThreshold := 2
  template _ := some ⟨1, false, 3, false⟩
  isAtGroupRewardDistance _ := true
  allowedForPlayer _ _ := true
  canUseItem _ _ := true
  passOnGroupLoot _ := false

def corpse : World Nat := start (fun _ => "") fun lid => if lid = 0 then some chest else none

/-- The party is formed and the roll started. -/
def rolled : List (Op Nat) :=
  [.login 1, .login 2, .invite 1 2 true, .accept 2, .groupLoot nearby 0 0]

theorem rolled_endsWell : Along (step everybody) (RollsEndWell everybody) corpse rolled :=
  ⟨trivial, trivial, trivial, trivial, trivial, trivial⟩

theorem held_while_rolled_party :
    (corpse.run everybody rolled).HasRoll (0, 0) ∨
      ∀ n, (corpse.run everybody (rolled.take n)).Stray (0, 0) :=
  held_while_rolled rolled_endsWell (0, 0) ⟨_, rfl, _, rfl, rfl, rfl⟩

def left : List (Op Nat) := rolled ++ [Op.leave 2]

theorem disband_leaves_held :
    ¬ ((corpse.run everybody left).Held (0, 0) →
      (corpse.run everybody left).HasRoll (0, 0) ∨
      ∀ n, (corpse.run everybody (left.take n)).Stray (0, 0)) := by
  intro h
  have hheld : (corpse.run everybody left).Held (0, 0) := ⟨_, rfl, _, rfl, rfl, rfl⟩
  rcases h hheld with ⟨g, hg⟩ | hstray
  · have hgone : (corpse.run everybody left).groups g = none := by
      show ([none][g]? : Option (Option (Group Nat))).join = none
      cases g with
      | zero => rfl
      | succ g => rfl
    unfold rolling at hg
    rw [hgone] at hg
    cases hg
  · refine (hstray 5).2 ⟨0, ?_⟩
    decide

end World

end Sunstrider.Groups
