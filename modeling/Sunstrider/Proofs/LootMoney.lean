import Sunstrider.Loot.LootMoney

/-!
# Who divides the gold

A living looter is near himself, and so is one who has died and not left his
body, so the list the gold is divided among has him in it. A ghost is near where
his body is. Its own position is measured from the corpse like everybody else's,
and if nobody of the group stands near the corpse the list is empty.

Whoever is paid gets at most his share, a purse that would pass the limit gets
nothing, and the shares together are not more than the gold.
-/

namespace Sunstrider.Looting

open Inventory Finset

variable {P L F : Type} [DecidableEq P] [LinearOrder F] [Zero F]

namespace LootScene

variable {distances : Distances L F} {scene : LootScene P L}

/-- One purse changes. -/
theorem sum_update_le (players : Finset P) (purse : P → Purse) (player : P) (paid : Purse)
    (amount : Nat) (hpaid : paid.money ≤ (purse player).money + amount) :
    ∑ p ∈ players, (Function.update purse player paid p).money ≤
      ∑ p ∈ players, (purse p).money + amount := by
  by_cases hmem : player ∈ players
  · rw [← add_sum_erase players _ hmem, ← add_sum_erase players (fun p => (purse p).money) hmem]
    have hrest : ∑ p ∈ players.erase player, (Function.update purse player paid p).money =
        ∑ p ∈ players.erase player, (purse p).money := by
      refine sum_congr rfl fun p hp => ?_
      rw [Function.update_of_ne (ne_of_mem_erase hp)]
    rw [hrest, Function.update_self]
    omega
  · have hsame : ∑ p ∈ players, (Function.update purse player paid p).money =
        ∑ p ∈ players, (purse p).money := by
      refine sum_congr rfl fun p hp => ?_
      have hne : p ≠ player := fun heq => hmem (by rwa [← heq])
      rw [Function.update_of_ne hne]
    rw [hsame]
    exact Nat.le_add_right _ _

theorem payAll_le (players : Finset P) (goldPerPlayer : Nat) (near : List P) (purse : P → Purse) :
    ∑ p ∈ players, (payAll goldPerPlayer near purse p).money ≤
      ∑ p ∈ players, (purse p).money + near.length * goldPerPlayer := by
  induction near generalizing purse with
  | nil => exact Nat.le_add_right _ _
  | cons player near ih =>
      calc ∑ p ∈ players, (payAll goldPerPlayer (player :: near) purse p).money
          ≤ ∑ p ∈ players, (Function.update purse player
              ((purse player).modifyMoney (int32 goldPerPlayer)).1 p).money +
                near.length * goldPerPlayer := ih _
        _ ≤ ∑ p ∈ players, (purse p).money + goldPerPlayer + near.length * goldPerPlayer :=
            Nat.add_le_add_right
              (sum_update_le players purse player _ _ (Purse.modifyMoney_le _ _)) _
        _ = ∑ p ∈ players, (purse p).money + (player :: near).length * goldPerPlayer := by
            rw [List.length_cons, Nat.succ_mul]
            omega

omit [DecidableEq P] in
/-- The body he is in is near itself. -/
theorem isAtGroupRewardDistance_self (player : P)
    (h : scene.isAlive player = true ∨ scene.getCorpse player = none) :
    scene.isAtGroupRewardDistance distances player (scene.object player) = true := by
  have hself : distances.getDistance (scene.object player).location
      (scene.object player).location ≤ distances.groupXpDistance := by
    rw [distances.getDistance_self]
    exact distances.groupXpDistance_nonneg
  unfold isAtGroupRewardDistance
  rcases h with halive | hcorpse
  · cases scene.getCorpse player with
    | none => simpa using hself
    | some corpse => simpa [halive] using hself
  · rw [hcorpse]
    simpa using hself

/-- Somebody of the group is near. -/
def SomebodyNear (distances : Distances L F) (scene : LootScene P L)
    (group : LinkedGroup P scene.player) : Prop :=
  ∃ playerGroup, some playerGroup ∈ group.members ∧
    scene.isAtGroupRewardDistance distances scene.player (scene.object playerGroup) = true

omit [DecidableEq P] in
theorem playersNear_ne_nil (group : LinkedGroup P scene.player) :
    (scene.playersNear distances group).length ≠ 0 ↔ scene.SomebodyNear distances group := by
  rw [← Nat.pos_iff_ne_zero, List.length_pos_iff_exists_mem]
  constructor
  · rintro ⟨player, hmem⟩
    obtain ⟨source, hsource, heq⟩ := List.mem_filterMap.1 hmem
    cases source with
    | none => cases heq
    | some playerGroup =>
        simp only at heq
        split at heq
        · rename_i hnear
          exact ⟨playerGroup, hsource, hnear⟩
        · cases heq
  · rintro ⟨playerGroup, hsource, hnear⟩
    exact ⟨playerGroup, List.mem_filterMap.2 ⟨some playerGroup, hsource, if_pos hnear⟩⟩

end LootScene

/-! ## The opcode -/

variable {distances : Distances L F} {scene : LootScene P L} {thing : LootedThing} {loot : Loot P}

/-- The looter has his body about him, or somebody of the group is where it lies. -/
def BodyNear (distances : Distances L F) (scene : LootScene P L)
    (group : LinkedGroup P scene.player) : Prop :=
  scene.isAlive scene.player = true ∨ scene.getCorpse scene.player = none ∨
    scene.SomebodyNear distances group

omit [DecidableEq P] in
theorem bodyNear_iff (group : LinkedGroup P scene.player) :
    BodyNear distances scene group ↔ scene.SomebodyNear distances group := by
  constructor
  · rintro (halive | hcorpse | hnear)
    · exact ⟨scene.player, group.mem, LootScene.isAtGroupRewardDistance_self _ (.inl halive)⟩
    · exact ⟨scene.player, group.mem, LootScene.isAtGroupRewardDistance_self _ (.inr hcorpse)⟩
    · exact hnear
  · intro hnear
    exact .inr (.inr hnear)

/-- No division by zero; afterwards the loot has no gold, if there was a loot to
take it from, and no players have together got more than it had. -/
def TakenRight (scene : LootScene P L) (thing : LootedThing) (loot : Loot P)
    (taken : Option (MoneyTaken P)) : Prop :=
  ∃ after, taken = some after ∧
    ((lootAccess scene.isRogue thing).found = true → after.loot.gold = 0) ∧
    ∀ players : Finset P, ∑ p ∈ players, (after.purse p).money ≤
      ∑ p ∈ players, (scene.purse p).money + loot.gold

/-- What has to be divided has to be divided among somebody. -/
def Divisible (distances : Distances L F) (scene : LootScene P L) (thing : LootedThing)
    (loot : Loot P) : Prop :=
  (lootAccess scene.isRogue thing).found = true →
    (lootAccess scene.isRogue thing).shareMoney = true → loot.gold ≠ 0 →
    ∀ group, scene.group = some group → BodyNear distances scene group

theorem takenRight_alone (released : Bool) :
    TakenRight scene thing loot
      (some ⟨LootScene.payAll loot.gold [scene.player] scene.purse, { loot with gold := 0 },
        released⟩) := by
  refine ⟨_, rfl, fun _ => rfl, fun players => ?_⟩
  have hpaid := LootScene.payAll_le players loot.gold [scene.player] scene.purse
  rwa [List.length_singleton, Nat.one_mul] at hpaid

/-- The gold is taken as it should be if and only if whoever shares it and has left
his body has somebody of his group near it. -/
theorem handleLootMoneyOpcode_right_iff (distances : Distances L F) (scene : LootScene P L)
    (thing : LootedThing) (loot : Loot P) :
    TakenRight scene thing loot (handleLootMoneyOpcode distances scene thing loot) ↔
      Divisible distances scene thing loot := by
  simp only [handleLootMoneyOpcode]
  cases hfound : (lootAccess scene.isRogue thing).found with
  | false =>
      refine iff_of_true ⟨_, rfl, fun h => ?_, fun players => Nat.le_add_right _ _⟩ fun h => ?_
      · rw [hfound] at h
        cases h
      · rw [hfound] at h
        cases h
  | true =>
      rw [if_neg (by decide)]
      split
      · rename_i hgold
        refine iff_of_true ⟨_, rfl, fun _ => hgold, fun players => Nat.le_add_right _ _⟩ ?_
        intro _ _ hne
        exact absurd hgold hne
      · rename_i hgold
        split
        · rename_i group hshare hgroup
          have hdivisible : Divisible distances scene thing loot ↔
              BodyNear distances scene group := by
            refine ⟨fun h => h hfound hshare hgold group hgroup, fun h _ _ _ other hother => ?_⟩
            rw [hgroup, Option.some_inj] at hother
            exact hother ▸ h
          rw [hdivisible, bodyNear_iff, ← LootScene.playersNear_ne_nil]
          split
          · rename_i hnobody
            refine iff_of_false (fun h => ?_) (fun h => h hnobody)
            obtain ⟨after, hnone, -⟩ := h
            cases hnone
          · rename_i hsomebody
            refine iff_of_true ⟨_, rfl, fun _ => rfl, fun players => ?_⟩ hsomebody
            exact Nat.le_trans (LootScene.payAll_le players _ _ scene.purse)
              (Nat.add_le_add_left (Nat.mul_div_le _ _) _)
        · rename_i hnot
          refine iff_of_true (takenRight_alone _) ?_
          intro _ hshare _ group hgroup
          exact absurd hgroup (hnot group hshare)

/-- A ghost alone in its group at the corpse of a creature with five copper, and
its own corpse `away` from there. -/
def ghostAt (away : Int) : LootScene Nat Int where
  player := 1
  isRogue := false
  group := some ⟨[some 1], List.mem_cons_self⟩
  object _ := ⟨0, 0, 0⟩
  isAlive _ := false
  getCorpse _ := some ⟨0, 0, away⟩
  purse _ := ⟨0, Nat.zero_le _⟩

/-- Distances on a line. -/
def onALine : Distances Int Int where
  getDistance a b := |a - b|
  groupXpDistance := 74
  getDistance_self a := by rw [sub_self, abs_zero]
  groupXpDistance_nonneg := by decide

def deadCreature : LootedThing := .unit (some ⟨false, false, true⟩)

/-- Nobody is near the corpse of the ghost, and the gold is divided by zero. -/
theorem ghost_divides_by_zero :
    handleLootMoneyOpcode onALine (ghostAt 100) deadCreature (Loot.empty 5) = none ∧
      ¬ TakenRight (ghostAt 100) deadCreature (Loot.empty 5)
        (handleLootMoneyOpcode onALine (ghostAt 100) deadCreature (Loot.empty 5)) := by
  have hzero : handleLootMoneyOpcode onALine (ghostAt 100) deadCreature (Loot.empty 5) = none :=
    rfl
  refine ⟨hzero, ?_⟩
  rintro ⟨after, hsome, -⟩
  rw [hzero] at hsome
  cases hsome

end Sunstrider.Looting
