import Sunstrider.Battlegrounds.BattleGroundEvents

/-!
# When objects stand exactly while their events are active

An object of several events should stand exactly while all of them are active,
and it should not matter when its grid was loaded. At its loading this is always
so. A change of an event decides it anew for the objects of the state that goes
and of the state that comes: for creatures by looking at all their events, for
gameobjects by looking at none. `OpOk` lists what follows: a gameobject comes up
with any one of its events, a creature whose respawn is only stopped stays, and
an event that is looked up without being there becomes active without anything
being spawned.

`correctRun_iff` shows that there is nothing else: a run is right in every state
exactly when none of its changes is one of these. Two such runs with the same
changes end alike, wherever the loading of an object falls in them.
-/

namespace Sunstrider.Battlegrounds

/-- Every event of the vector is in the state listed. -/
def Complete (act : Nat → Option Nat) (v : List BattleGroundEventIdx) : Prop :=
  ∀ p ∈ v, act p.1 = some p.2

/-- A vector as the loader makes it: not empty, and without the number for none. -/
def ValidVector (v : List BattleGroundEventIdx) : Prop :=
  v ≠ [] ∧ ∀ p ∈ v, p.1 ≠ bgEventNone ∧ p.2 ≠ bgEventNone

def EventVectors.Valid (vectors : EventVectors) : Prop :=
  (∀ guid, ValidVector (vectors.creature guid)) ∧ ∀ guid, ValidVector (vectors.gameObject guid)

/-! ## One object and one event

`act` are the active states before, `a` the state of the event `e`, and `x` the one
it changes to. -/

section OneObject

variable {act : Nat → Option Nat} {v : List BattleGroundEventIdx} {e a x : Nat}

theorem complete_update_of_not_mem (hx : (e, x) ∉ v) :
    Complete (Function.update act e (some x)) v ↔ Complete act v ∧ ∀ p ∈ v, p.1 ≠ e := by
  constructor
  · intro h
    have hne : ∀ p ∈ v, p.1 ≠ e := by
      intro p hp heq
      have hact := h p hp
      rw [heq, Function.update_self] at hact
      have hpx : p = (e, x) := by rw [← heq, Option.some.inj hact]
      exact hx (hpx ▸ hp)
    refine ⟨?_, hne⟩
    intro p hp
    rw [← h p hp, Function.update_of_ne (hne p hp)]
  · intro h p hp
    rw [Function.update_of_ne (h.2 p hp)]
    exact h.1 p hp

/-- An object that stands and is not of the state that is active now has nothing to
do with the event. -/
theorem not_listed_of_complete (hact : ∀ y, act e = some y → y = a) (hc : Complete act v)
    (ha : (e, a) ∉ v) : ∀ p ∈ v, p.1 ≠ e := by
  intro p hp heq
  have hpa := hact p.2 (heq ▸ hc p hp)
  have hpe : p = (e, a) := by rw [← heq, ← hpa]
  exact ha (hpe ▸ hp)

theorem not_complete_of_listed (hact : ∀ y, act e = some y → y = a) (hx : (e, x) ∈ v)
    (hne : a ≠ x) : ¬ Complete act v := by
  intro hc
  exact hne (hact x (hc (e, x) hx)).symm

/-- The event leaves its state for one the object is not of: whatever of the state
does not stay up is right. -/
theorem leave_iff (hact : ∀ y, act e = some y → y = a) (hx : (e, x) ∉ v) {standing : Bool}
    (hs : standing = true ↔ Complete act v) (stays : Bool) :
    ((if (e, a) ∈ v then stays && standing else standing) = true ↔
        Complete (Function.update act e (some x)) v) ↔
      (stays = false ∨ ¬ (Complete act v ∧ (e, a) ∈ v)) := by
  rw [complete_update_of_not_mem hx]
  by_cases ha : (e, a) ∈ v
  · have hlisted : ¬ (Complete act v ∧ ∀ p ∈ v, p.1 ≠ e) := fun h => h.2 _ ha rfl
    rw [if_pos ha, Bool.and_eq_true, hs, eq_false hlisted]
    cases stays <;> simp [ha]
  · rw [if_neg ha, hs]
    refine iff_of_true ⟨fun hc => ⟨hc, not_listed_of_complete hact hc ha⟩, And.left⟩ ?_
    exact .inr fun h => ha h.2

/-- The event changes from one state to another: besides what stays up of the old
state, what is of the new one is decided anew. -/
theorem change_iff (hact : ∀ y, act e = some y → y = a) (hne : a ≠ x) {standing : Bool}
    (hs : standing = true ↔ Complete act v) (stays : Bool) {all : Bool}
    (hall : all = true ↔ Complete (Function.update act e (some x)) v) :
    ((if (e, x) ∈ v then all || (stays && if (e, a) ∈ v then stays && standing else standing)
        else if (e, a) ∈ v then stays && standing else standing) = true ↔
        Complete (Function.update act e (some x)) v) ↔
      (stays = false ∨ ¬ (Complete act v ∧ (e, a) ∈ v)) := by
  by_cases hx : (e, x) ∈ v
  · have hnot := not_complete_of_listed hact hx hne
    have hfalse : standing = false := by
      rw [← Bool.not_eq_true, hs]
      exact hnot
    rw [if_pos hx, hfalse, Bool.and_false, ite_self, Bool.and_false, Bool.or_false, hall]
    exact iff_of_true Iff.rfl (.inr fun h => hnot h.1)
  · rw [if_neg hx]
    exact leave_iff hact hx hs stays

end OneObject

namespace Battleground

variable {v : List BattleGroundEventIdx} {op : BgOp} {ops : List BgOp}

theorem allActive_iff {b : Battleground} : b.allActive v = true ↔ Complete b.activeEvents v := by
  simp [allActive, isActiveEvent, Complete]

/-! ## The loops of `SpawnEvent` -/

theorem spawnBGCreature_twice (c : BgCreature) (mode : BattleGroundCreatureSpawnMode) :
    spawnBGCreature (spawnBGCreature c mode) mode = spawnBGCreature c mode := by
  obtain ⟨standing, inWorld⟩ := c
  cases mode <;> cases inWorld <;> rfl

theorem spawnCreatures_spec (vectors : EventVectors) (spawn forcedDespawn : Bool)
    (l : List Nat) : ∀ b : Battleground,
      spawnCreatures vectors spawn forcedDespawn l b =
        { b with
          creatures := fun guid =>
            if guid ∈ l then
              (b.creatures guid).map fun c =>
                spawnBGCreature c (creatureMode vectors b spawn forcedDespawn guid)
            else b.creatures guid } := by
  induction l with
  | nil =>
      intro b
      simp [spawnCreatures]
  | cons guid l ih =>
      intro b
      have hstep : spawnCreatures vectors spawn forcedDespawn (guid :: l) b =
          spawnCreatures vectors spawn forcedDespawn l
            ((b.creatures guid).elim b fun c =>
              { b with
                creatures :=
                  Function.update b.creatures guid
                    (some (spawnBGCreature c
                      (creatureMode vectors b spawn forcedDespawn guid))) }) := by
        rw [spawnCreatures, spawnCreatures, List.foldl_cons]
        cases b.creatures guid <;> rfl
      rw [hstep, ih]
      cases hguid : b.creatures guid with
      | none =>
          simp only [Option.elim_none, List.mem_cons]
          congr 1
          funext g
          by_cases hg : g = guid
          · simp [hg, hguid]
          · simp [hg]
      | some c =>
          have hmode : ∀ g, creatureMode vectors
              { b with
                creatures :=
                  Function.update b.creatures guid
                    (some (spawnBGCreature c
                      (creatureMode vectors b spawn forcedDespawn guid))) }
              spawn forcedDespawn g = creatureMode vectors b spawn forcedDespawn g :=
            fun g => rfl
          simp only [Option.elim_some, hmode, List.mem_cons]
          congr 1
          funext g
          by_cases hg : g = guid
          · subst hg
            simp [hguid, spawnBGCreature_twice]
          · simp [hg]

theorem spawnGameObjects_spec (respawntime : Nat) (l : List Nat) : ∀ b : Battleground,
    spawnGameObjects respawntime l b =
      { b with
        gameObjects := fun guid =>
          if guid ∈ l then (b.gameObjects guid).map fun obj => spawnBGObject obj respawntime
          else b.gameObjects guid } := by
  induction l with
  | nil =>
      intro b
      simp [spawnGameObjects]
  | cons guid l ih =>
      intro b
      have hstep : spawnGameObjects respawntime (guid :: l) b =
          spawnGameObjects respawntime l
            ((b.gameObjects guid).elim b fun obj =>
              { b with
                gameObjects :=
                  Function.update b.gameObjects guid
                    (some (spawnBGObject obj respawntime)) }) := by
        rw [spawnGameObjects, spawnGameObjects, List.foldl_cons]
        cases b.gameObjects guid <;> rfl
      rw [hstep, ih]
      cases hguid : b.gameObjects guid with
      | none =>
          simp only [Option.elim_none, List.mem_cons]
          congr 1
          funext g
          by_cases hg : g = guid
          · simp [hg, hguid]
          · simp [hg]
      | some obj =>
          simp only [Option.elim_some, List.mem_cons]
          congr 1
          funext g
          by_cases hg : g = guid
          · subst hg
            simp [hguid, spawnBGObject]
          · simp [hg]

/-! ## What holds of a battleground -/

/-- Every loaded object is registered under the events of its vector and no others. -/
structure Sound (vectors : EventVectors) (b : Battleground) : Prop where
  creature : ∀ p guid, guid ∈ b.eventCreatures p ↔
    (∃ c, b.creatures guid = some c) ∧ p ∈ vectors.creature guid
  gameObject : ∀ p guid, guid ∈ b.eventGameObjects p ↔
    (∃ obj, b.gameObjects guid = some obj) ∧ p ∈ vectors.gameObject guid
  inWorld : ∀ guid c, b.creatures guid = some c → c.inWorld = true

/-- An object stands exactly when all the events of its vector are active. -/
structure Correct (vectors : EventVectors) (b : Battleground) : Prop where
  creature : ∀ guid c, b.creatures guid = some c →
    (c.standing = true ↔ Complete b.activeEvents (vectors.creature guid))
  gameObject : ∀ guid obj, b.gameObjects guid = some obj →
    (obj.standing = true ↔ Complete b.activeEvents (vectors.gameObject guid))

/-- An object is loaded once. -/
def Legal (b : Battleground) (op : BgOp) : Prop :=
  match op with
  | .loadCreature guid => b.creatures guid = none
  | .loadGameObject guid => b.gameObjects guid = none
  | .spawnEvent _ _ _ _ _ => True

/-- A change of an event is none of those that leave an object wrong: where the event
is not there, nothing gets complete by its state 0; a creature that stands goes with
a forced despawn; a gameobject of the state that comes is complete, and comes up
within the day. -/
def OpOk (vectors : EventVectors) (b : Battleground) (op : BgOp) : Prop :=
  match op with
  | .spawnEvent event1 event2 spawn forcedDespawn delay =>
      if event2 = bgEventNone then True
      else if (spawn ∧ b.activeState event1 = event2) ∨
          (¬ spawn ∧ b.activeState event1 ≠ event2) then
        b.activeEvents event1 = none →
          (∀ guid c, b.creatures guid = some c → (event1, 0) ∈ vectors.creature guid →
            ¬ (b.touch event1).allActive (vectors.creature guid) = true) ∧
          ∀ guid obj, b.gameObjects guid = some obj → (event1, 0) ∈ vectors.gameObject guid →
            ¬ (b.touch event1).allActive (vectors.gameObject guid) = true
      else
        (forcedDespawn = true ∨ ∀ guid c, b.creatures guid = some c →
          ¬ (b.allActive (vectors.creature guid) = true ∧
            (event1, b.activeState event1) ∈ vectors.creature guid)) ∧
        (spawn = true → ∀ guid obj, b.gameObjects guid = some obj →
          (event1, event2) ∈ vectors.gameObject guid →
            ((b.setActive event1 event2).allActive (vectors.gameObject guid) = true ↔
              delay < respawnOneDay))
  | _ => True

variable {vectors : EventVectors} {b : Battleground} {e a x : Nat}

theorem activeState_eq (hact : b.activeState e = a) : ∀ y, b.activeEvents e = some y → y = a := by
  intro y hy
  rw [← hact, activeState, hy]
  rfl

theorem touch_activeEvents (b : Battleground) (e : Nat) :
    (b.touch e).activeEvents = Function.update b.activeEvents e (some (b.activeState e)) := rfl

theorem touch_activeState (b : Battleground) (e : Nat) :
    (b.touch e).activeState e = b.activeState e := by
  simp [activeState, touch]

/-! ## An event that is only looked up -/

theorem Sound.touch (hs : b.Sound vectors) : (b.touch e).Sound vectors :=
  ⟨hs.creature, hs.gameObject, hs.inWorld⟩

/-- Looking up an event that is there changes nothing. -/
theorem touch_of_some {y : Nat} (hy : b.activeEvents e = some y) : b.touch e = b := by
  have hsame : Function.update b.activeEvents e (some ((b.activeEvents e).getD 0)) =
      b.activeEvents := by
    rw [hy, Option.getD_some, ← hy, Function.update_eq_self]
  rw [touch, hsame]

/-- When the event is not there, what lists its state 0 must stay incomplete. -/
theorem touch_object (hnone : b.activeEvents e = none) {standing : Bool}
    (hs : standing = true ↔ Complete b.activeEvents v) :
    (standing = true ↔ Complete (b.touch e).activeEvents v) ↔
      ((e, 0) ∈ v → ¬ Complete (b.touch e).activeEvents v) := by
  have hact : ∀ y, b.activeEvents e = some y → y = 0 := by
    intro y hy
    rw [hnone] at hy
    cases hy
  have hzero : b.activeState e = 0 := by rw [activeState, hnone]; rfl
  rw [touch_activeEvents, hzero]
  by_cases hv : (e, 0) ∈ v
  · have hnot : ¬ Complete b.activeEvents v := by
      intro hc
      have hlisted := hc (e, 0) hv
      rw [hnone] at hlisted
      cases hlisted
    rw [hs, eq_false hnot]
    simp [hv]
  · have hleave := leave_iff hact hv hs true
    rw [if_neg hv] at hleave
    refine iff_of_true (hleave.2 (.inr fun h => hv h.2)) fun h => absurd h hv

theorem Correct.touch_iff (hc : b.Correct vectors) : (b.touch e).Correct vectors ↔
    (b.activeEvents e = none →
      (∀ guid c, b.creatures guid = some c → (e, 0) ∈ vectors.creature guid →
        ¬ (b.touch e).allActive (vectors.creature guid) = true) ∧
      ∀ guid obj, b.gameObjects guid = some obj → (e, 0) ∈ vectors.gameObject guid →
        ¬ (b.touch e).allActive (vectors.gameObject guid) = true) := by
  cases hact : b.activeEvents e with
  | some y =>
      rw [touch_of_some hact]
      exact iff_of_true hc fun hnone => absurd hnone (by simp)
  | none =>
      simp only [allActive_iff]
      constructor
      · intro hc' _
        refine ⟨?_, ?_⟩
        · intro guid c hg
          exact (touch_object hact (hc.creature guid c hg)).1 (hc'.creature guid c hg)
        · intro guid obj hg
          exact (touch_object hact (hc.gameObject guid obj hg)).1 (hc'.gameObject guid obj hg)
      · intro hok
        obtain ⟨hcreature, hobject⟩ := hok trivial
        refine ⟨?_, ?_⟩
        · intro guid c hg
          exact (touch_object hact (hc.creature guid c hg)).2 (hcreature guid c hg)
        · intro guid obj hg
          exact (touch_object hact (hc.gameObject guid obj hg)).2 (hobject guid obj hg)

/-! ## A change of an event -/

theorem Sound.setActive (hs : b.Sound vectors) : (b.setActive e x).Sound vectors :=
  ⟨hs.creature, hs.gameObject, hs.inWorld⟩

/-- What the loops make of a creature in the world that they come to. -/
theorem spawnBGCreature_mode (vectors : EventVectors) (b : Battleground) {c : BgCreature}
    (hc : c.inWorld = true) (guid : Nat) (spawn forcedDespawn : Bool) :
    spawnBGCreature c (creatureMode vectors b spawn forcedDespawn guid) =
      { c with
        standing := spawn && b.allActive (vectors.creature guid) ||
          (! forcedDespawn && c.standing) } := by
  obtain ⟨standing, inWorld⟩ := c
  replace hc : inWorld = true := hc
  subst hc
  rw [creatureMode]
  cases hspawn : spawn && b.allActive (vectors.creature guid) with
  | true => simp [spawnBGCreature]
  | false =>
      cases forcedDespawn with
      | true => simp [spawnBGCreature]
      | false =>
          simp only [Bool.false_eq_true, if_false, spawnBGCreature, if_true, Bool.not_false,
            Bool.true_and, Bool.false_or]

/-- The loops of `SpawnEvent`, by the vectors of the objects. -/
theorem spawnObjects_eq (hs : b.Sound vectors) (e x : Nat) (spawn forcedDespawn : Bool)
    (delay : Nat) :
    spawnObjects vectors e x spawn forcedDespawn delay b =
      { b with
        creatures := fun guid => (b.creatures guid).map fun c =>
          { c with
            standing :=
              if (e, x) ∈ vectors.creature guid then
                spawn && b.allActive (vectors.creature guid) || (! forcedDespawn && c.standing)
              else c.standing }
        gameObjects := fun guid => (b.gameObjects guid).map fun obj =>
          if (e, x) ∈ vectors.gameObject guid then
            spawnBGObject obj (if spawn then delay else respawnOneDay)
          else obj } := by
  rw [spawnObjects, spawnCreatures_spec]
  simp only [spawnGameObjects_spec]
  congr 1
  · funext guid
    have hiff := hs.creature (e, x) guid
    by_cases hmem : guid ∈ b.eventCreatures (e, x)
    · obtain ⟨⟨c, hguid⟩, hv⟩ := hiff.1 hmem
      simp only [if_pos hmem, hguid, Option.map_some, if_pos hv,
        spawnBGCreature_mode vectors b (hs.inWorld guid c hguid)]
    · rw [if_neg hmem]
      cases hguid : b.creatures guid with
      | none => rfl
      | some c =>
          have hv : (e, x) ∉ vectors.creature guid := fun hv => hmem (hiff.2 ⟨⟨c, hguid⟩, hv⟩)
          simp only [Option.map_some, if_neg hv]
  · funext guid
    have hiff := hs.gameObject (e, x) guid
    by_cases hmem : guid ∈ b.eventGameObjects (e, x)
    · obtain ⟨⟨obj, hguid⟩, hv⟩ := hiff.1 hmem
      simp only [if_pos hmem, hguid, Option.map_some, if_pos hv]
    · rw [if_neg hmem]
      cases hguid : b.gameObjects guid with
      | none => rfl
      | some obj =>
          have hv : (e, x) ∉ vectors.gameObject guid :=
            fun hv => hmem (hiff.2 ⟨⟨obj, hguid⟩, hv⟩)
          simp only [Option.map_some, if_neg hv]

/-- The battleground after the state `a` of the event has been despawned. -/
def leave (vectors : EventVectors) (b : Battleground) (e a : Nat) (forcedDespawn : Bool) :
    Battleground :=
  { b with
    activeEvents := Function.update b.activeEvents e (some bgEventNone)
    creatures := fun guid => (b.creatures guid).map fun c =>
      { c with
        standing :=
          if (e, a) ∈ vectors.creature guid then ! forcedDespawn && c.standing else c.standing }
    gameObjects := fun guid => (b.gameObjects guid).map fun obj =>
      if (e, a) ∈ vectors.gameObject guid then spawnBGObject obj respawnOneDay else obj }

theorem spawnObjects_leave (hs : b.Sound vectors) (e a : Nat) (forcedDespawn : Bool)
    (delay : Nat) :
    spawnObjects vectors e a false forcedDespawn delay (b.setActive e bgEventNone) =
      b.leave vectors e a forcedDespawn := by
  rw [spawnObjects_eq hs.setActive]
  simp only [Bool.false_and, Bool.false_or, Bool.false_eq_true, if_false]
  rfl

theorem touch_setActive (b : Battleground) (e x : Nat) :
    (b.touch e).setActive e x = b.setActive e x := by
  simp [setActive, touch]

/-- The call of `SpawnEvent` to itself. Without an active state it does nothing, and
nothing is registered under none. -/
theorem despawnEvent_eq (hv : vectors.Valid) (hs : b.Sound vectors)
    (hact : b.activeState e = a) (forcedDespawn : Bool) :
    despawnEvent vectors (b.touch e) e a forcedDespawn = b.leave vectors e a forcedDespawn := by
  rw [despawnEvent]
  split <;> rename_i hnone
  · have hcreature : ∀ guid, (e, a) ∉ vectors.creature guid := by
      intro guid hmem
      exact ((hv.1 guid).2 _ hmem).2 hnone
    have hobject : ∀ guid, (e, a) ∉ vectors.gameObject guid := by
      intro guid hmem
      exact ((hv.2 guid).2 _ hmem).2 hnone
    rw [activeState] at hact
    rw [leave, touch, hact, hnone]
    rw [hnone] at hcreature hobject
    simp [hcreature, hobject]
  · have htwice : (b.touch e).touch e = b.touch e :=
      touch_of_some (y := b.activeState e) (by simp [touch_activeEvents])
    simp only [htwice, touch_activeState, hact, ne_eq, not_true_eq_false, if_false,
      touch_setActive]
    exact spawnObjects_leave hs e a forcedDespawn 0

/-- Objects that are only changed, and stay in the world, are registered as before. -/
theorem Sound.map {b' : Battleground} {f : Nat → BgCreature → BgCreature}
    {g : Nat → BgGameObject → BgGameObject} (hs : b.Sound vectors)
    (hcreature : ∀ guid, b'.creatures guid = (b.creatures guid).map (f guid))
    (hobject : ∀ guid, b'.gameObjects guid = (b.gameObjects guid).map (g guid))
    (hevents : b'.eventCreatures = b.eventCreatures ∧ b'.eventGameObjects = b.eventGameObjects)
    (hf : ∀ guid c, (f guid c).inWorld = c.inWorld) : b'.Sound vectors := by
  refine ⟨?_, ?_, ?_⟩
  · intro p guid
    rw [hevents.1, hs.creature, hcreature]
    cases b.creatures guid <;> simp
  · intro p guid
    rw [hevents.2, hs.gameObject, hobject]
    cases b.gameObjects guid <;> simp
  · intro guid c hc
    rw [hcreature, Option.map_eq_some_iff] at hc
    obtain ⟨c₀, hc₀, heq⟩ := hc
    rw [← heq, hf]
    exact hs.inWorld guid c₀ hc₀

theorem Sound.leave (hs : b.Sound vectors) (forcedDespawn : Bool) :
    (b.leave vectors e a forcedDespawn).Sound vectors :=
  hs.map (fun _ => rfl) (fun _ => rfl) ⟨rfl, rfl⟩ fun _ _ => rfl

/-- `SpawnEvent` once it is past its first test. -/
theorem spawnEvent_eq (hv : vectors.Valid) (hs : b.Sound vectors) (hx : x ≠ bgEventNone)
    {spawn : Bool} (hpast : ¬ ((spawn = true ∧ b.activeState e = x) ∨
      (¬ spawn = true ∧ b.activeState e ≠ x))) (forcedDespawn : Bool) (delay : Nat) :
    b.spawnEvent vectors e x spawn forcedDespawn delay =
      if spawn then
        spawnObjects vectors e x true forcedDespawn delay
          ((b.leave vectors e (b.activeState e) forcedDespawn).setActive e x)
      else b.leave vectors e x forcedDespawn := by
  rw [spawnEvent, if_neg hx]
  simp only [touch_activeState, if_neg hpast]
  cases spawn with
  | true =>
      simp only [if_true]
      rw [despawnEvent_eq hv hs rfl]
  | false =>
      simp only [Bool.false_eq_true, if_false, touch_setActive]
      exact spawnObjects_leave hs e x forcedDespawn delay

/-! ## One operation -/

/-- Correctness of a battleground whose objects are those of `b`, each one changed. -/
theorem correct_map_iff {b' : Battleground} {f : Nat → BgCreature → BgCreature}
    {g : Nat → BgGameObject → BgGameObject}
    (hcreature : ∀ guid, b'.creatures guid = (b.creatures guid).map (f guid))
    (hobject : ∀ guid, b'.gameObjects guid = (b.gameObjects guid).map (g guid)) :
    b'.Correct vectors ↔
      (∀ guid c, b.creatures guid = some c →
        ((f guid c).standing = true ↔ Complete b'.activeEvents (vectors.creature guid))) ∧
      ∀ guid obj, b.gameObjects guid = some obj →
        ((g guid obj).standing = true ↔ Complete b'.activeEvents (vectors.gameObject guid)) := by
  constructor
  · intro hc
    refine ⟨?_, ?_⟩
    · intro guid c hguid
      exact hc.creature guid _ (by rw [hcreature, hguid]; rfl)
    · intro guid obj hguid
      exact hc.gameObject guid _ (by rw [hobject, hguid]; rfl)
  · intro hc
    refine ⟨?_, ?_⟩
    · intro guid c hguid
      rw [hcreature, Option.map_eq_some_iff] at hguid
      obtain ⟨c₀, hc₀, heq⟩ := hguid
      rw [← heq]
      exact hc.1 guid c₀ hc₀
    · intro guid obj hguid
      rw [hobject, Option.map_eq_some_iff] at hguid
      obtain ⟨obj₀, hobj₀, heq⟩ := hguid
      rw [← heq]
      exact hc.2 guid obj₀ hobj₀

theorem standing_spawn (obj : BgGameObject) (respawntime : Nat) :
    (spawnBGObject obj respawntime).standing = true ↔ respawntime < respawnOneDay := by
  rw [BgGameObject.standing, decide_eq_true_eq]
  exact Iff.rfl

theorem standing_oneDay (obj : BgGameObject) :
    (spawnBGObject obj respawnOneDay).standing = false := by
  simp [spawnBGObject, BgGameObject.standing]

/-- A gameobject after its state has gone. -/
theorem standing_leave (obj : BgGameObject) (p : Prop) [Decidable p] :
    (if p then spawnBGObject obj respawnOneDay else obj).standing =
      if p then false && obj.standing else obj.standing := by
  split
  · exact standing_oneDay obj
  · rfl

/-- Each creature goes, or was not up. -/
theorem forcedOk_iff {forcedDespawn : Bool} {p : Nat → Prop} :
    (forcedDespawn = true ∨ ∀ guid c, b.creatures guid = some c → ¬ p guid) ↔
      ∀ guid c, b.creatures guid = some c → (! forcedDespawn) = false ∨ ¬ p guid := by
  cases forcedDespawn <;> simp

theorem Correct.leave_iff (hv : vectors.Valid) (hc : b.Correct vectors)
    (hact : b.activeState e = a) (forcedDespawn : Bool) :
    (b.leave vectors e a forcedDespawn).Correct vectors ↔
      (forcedDespawn = true ∨ ∀ guid c, b.creatures guid = some c →
        ¬ (b.allActive (vectors.creature guid) = true ∧ (e, a) ∈ vectors.creature guid)) := by
  have hact := activeState_eq hact
  have hcreature : ∀ guid c, b.creatures guid = some c → _ := fun guid c hguid =>
    Battlegrounds.leave_iff hact (fun hmem => ((hv.1 guid).2 (e, bgEventNone) hmem).2 rfl)
      (hc.creature guid c hguid) (! forcedDespawn)
  have hobject : ∀ guid obj, b.gameObjects guid = some obj → _ := fun guid obj hguid =>
    Battlegrounds.leave_iff hact (fun hmem => ((hv.2 guid).2 (e, bgEventNone) hmem).2 rfl)
      (hc.gameObject guid obj hguid) false
  rw [correct_map_iff (b := b) (fun guid => rfl) (fun guid => rfl), forcedOk_iff]
  simp only [standing_leave, allActive_iff]
  exact (and_iff_left fun guid obj hguid => (hobject guid obj hguid).2 (.inl rfl)).trans
    (forall₃_congr hcreature)

/-- The battleground after the state `x` of the event has come for the state `a`. -/
def change (vectors : EventVectors) (b : Battleground) (e a x : Nat) (forcedDespawn : Bool)
    (delay : Nat) : Battleground :=
  { b with
    activeEvents := Function.update b.activeEvents e (some x)
    creatures := fun guid => (b.creatures guid).map fun c =>
      { c with
        standing :=
          if (e, x) ∈ vectors.creature guid then
            (b.setActive e x).allActive (vectors.creature guid) ||
              (! forcedDespawn &&
                if (e, a) ∈ vectors.creature guid then ! forcedDespawn && c.standing
                else c.standing)
          else if (e, a) ∈ vectors.creature guid then ! forcedDespawn && c.standing
          else c.standing }
    gameObjects := fun guid => (b.gameObjects guid).map fun obj =>
      if (e, x) ∈ vectors.gameObject guid then spawnBGObject obj delay
      else if (e, a) ∈ vectors.gameObject guid then spawnBGObject obj respawnOneDay
      else obj }

theorem spawnObjects_change (hs : b.Sound vectors) (e a x : Nat) (forcedDespawn : Bool)
    (delay : Nat) :
    spawnObjects vectors e x true forcedDespawn delay
        ((b.leave vectors e a forcedDespawn).setActive e x) =
      b.change vectors e a x forcedDespawn delay := by
  have hactive : ((b.leave vectors e a forcedDespawn).setActive e x).activeEvents =
      (b.setActive e x).activeEvents := by
    simp [leave, setActive]
  have hall : ∀ v, ((b.leave vectors e a forcedDespawn).setActive e x).allActive v =
      (b.setActive e x).allActive v := by
    intro v
    rw [Bool.eq_iff_iff, allActive_iff, allActive_iff, hactive]
  rw [spawnObjects_eq (hs.leave forcedDespawn).setActive, change]
  simp only [hall, hactive, Bool.true_and, if_true]
  congr 1
  · funext guid
    show Option.map _ (Option.map _ (b.creatures guid)) = _
    rw [Option.map_map]
    rfl
  · funext guid
    show Option.map _ (Option.map _ (b.gameObjects guid)) = _
    rw [Option.map_map]
    rfl

theorem Correct.change_iff (hc : b.Correct vectors) (hact : b.activeState e = a) (hne : a ≠ x)
    (forcedDespawn : Bool) (delay : Nat) :
    (b.change vectors e a x forcedDespawn delay).Correct vectors ↔
      (forcedDespawn = true ∨ ∀ guid c, b.creatures guid = some c →
        ¬ (b.allActive (vectors.creature guid) = true ∧ (e, a) ∈ vectors.creature guid)) ∧
      ∀ guid obj, b.gameObjects guid = some obj → (e, x) ∈ vectors.gameObject guid →
        ((b.setActive e x).allActive (vectors.gameObject guid) = true ↔
          delay < respawnOneDay) := by
  have hact := activeState_eq hact
  have hcreature : ∀ guid c, b.creatures guid = some c → _ := fun guid c hguid =>
    Battlegrounds.change_iff (x := x) hact hne (hc.creature guid c hguid) (! forcedDespawn)
      (allActive_iff (b := b.setActive e x) (v := vectors.creature guid))
  have hobject : ∀ guid obj, b.gameObjects guid = some obj →
      (((if (e, x) ∈ vectors.gameObject guid then spawnBGObject obj delay
          else if (e, a) ∈ vectors.gameObject guid then spawnBGObject obj respawnOneDay
          else obj).standing = true ↔
        Complete (b.setActive e x).activeEvents (vectors.gameObject guid)) ↔
      ((e, x) ∈ vectors.gameObject guid →
        ((b.setActive e x).allActive (vectors.gameObject guid) = true ↔
          delay < respawnOneDay))) := by
    intro guid obj hguid
    by_cases hx : (e, x) ∈ vectors.gameObject guid
    · rw [if_pos hx, allActive_iff]
      simp only [standing_spawn, hx, true_imp_iff]
      exact iff_comm
    · have hone := (Battlegrounds.leave_iff hact hx (hc.gameObject guid obj hguid) false).2
        (.inl rfl)
      rw [if_neg hx, standing_leave]
      exact iff_of_true hone fun hmem => absurd hmem hx
  rw [correct_map_iff (b := b) (fun guid => rfl) (fun guid => rfl), forcedOk_iff]
  simp only [allActive_iff] at hcreature hobject ⊢
  exact and_congr (forall₃_congr hcreature) (forall₃_congr hobject)

/-- A battleground that is right stays right with a change of an event exactly when the
change is a good one. -/
theorem Correct.spawnEvent_iff (hv : vectors.Valid) (hs : b.Sound vectors)
    (hc : b.Correct vectors) (spawn forcedDespawn : Bool) (delay : Nat) :
    (b.spawnEvent vectors e x spawn forcedDespawn delay).Correct vectors ↔
      b.OpOk vectors (.spawnEvent e x spawn forcedDespawn delay) := by
  rw [OpOk]
  split <;> rename_i hx
  · rw [Battleground.spawnEvent, if_pos hx]
    exact iff_of_true hc trivial
  · split <;> rename_i hearly
    · have hsame : b.spawnEvent vectors e x spawn forcedDespawn delay = b.touch e := by
        rw [Battleground.spawnEvent, if_neg hx]
        simp only [touch_activeState, if_pos hearly]
      rw [hsame]
      exact hc.touch_iff
    · rw [spawnEvent_eq hv hs hx hearly]
      cases spawn with
      | true =>
          have hne : b.activeState e ≠ x := fun heq => hearly (.inl ⟨rfl, heq⟩)
          rw [if_pos rfl, spawnObjects_change hs, hc.change_iff rfl hne]
          simp
      | false =>
          have heq : b.activeState e = x := by
            by_contra hne
            exact hearly (.inr ⟨by simp, hne⟩)
          subst heq
          rw [if_neg (by simp), hc.leave_iff hv rfl]
          simp

theorem Sound.change (hs : b.Sound vectors) (forcedDespawn : Bool) (delay : Nat) :
    (b.change vectors e a x forcedDespawn delay).Sound vectors :=
  hs.map (fun _ => rfl) (fun _ => rfl) ⟨rfl, rfl⟩ fun _ _ => rfl

theorem Sound.spawnEvent (hv : vectors.Valid) (hs : b.Sound vectors)
    (spawn forcedDespawn : Bool) (delay : Nat) :
    (b.spawnEvent vectors e x spawn forcedDespawn delay).Sound vectors := by
  by_cases hx : x = bgEventNone
  · rw [Battleground.spawnEvent, if_pos hx]
    exact hs
  · by_cases hearly : (spawn = true ∧ b.activeState e = x) ∨
        (¬ spawn = true ∧ b.activeState e ≠ x)
    · rw [Battleground.spawnEvent, if_neg hx]
      simp only [touch_activeState, if_pos hearly]
      exact hs.touch
    · rw [spawnEvent_eq hv hs hx hearly]
      cases spawn with
      | true =>
          rw [if_pos rfl, spawnObjects_change hs]
          exact hs.change forcedDespawn delay
      | false => exact hs.leave forcedDespawn

/-! ## Loading an object -/

theorem mem_register {regs : BattleGroundEventIdx → List Nat} (guid : Nat)
    (p p' : BattleGroundEventIdx) (v : List BattleGroundEventIdx) (g : Nat) :
    (g ∈ Function.update regs p (regs p ++ [guid]) p' ∨ g = guid ∧ p' ∈ v) ↔
      g ∈ regs p' ∨ g = guid ∧ p' ∈ p :: v := by
  by_cases hp : p' = p
  · subst hp
    rw [Function.update_self, List.mem_append, List.mem_singleton, List.mem_cons, or_assoc]
    simp only [true_or, and_true]
    exact or_congr_right ⟨fun h => h.elim id And.left, .inl⟩
  · simp only [Function.update_of_ne hp, List.mem_cons, hp, false_or]

/-- A creature is registered under each pair of its vector, and stays up while they are
all active. -/
theorem loadCreatureEvents_spec (guid : Nat) (v : List BattleGroundEventIdx) :
    ∀ (b : Battleground) (c : BgCreature),
      ∃ regs, (loadCreatureEvents guid v b c).1 = { b with eventCreatures := regs } ∧
        (∀ p g, g ∈ regs p ↔ g ∈ b.eventCreatures p ∨ (g = guid ∧ p ∈ v)) ∧
        (loadCreatureEvents guid v b c).2.standing = (c.standing && b.allActive v) := by
  induction v with
  | nil =>
      intro b c
      exact ⟨b.eventCreatures, rfl, by simp, by simp [loadCreatureEvents, allActive]⟩
  | cons p v ih =>
      intro b c
      obtain ⟨regs, hb, hregs, hstanding⟩ := ih (b.registerCreature guid p)
        (if b.isActiveEvent p then c else spawnBGCreature c .despawnForced)
      refine ⟨regs, ?_, ?_, ?_⟩
      · rw [loadCreatureEvents, hb]
        rfl
      · intro p' g
        rw [hregs]
        exact mem_register guid p p' v g
      · rw [loadCreatureEvents, hstanding]
        have hall : (b.registerCreature guid p).allActive v = b.allActive v := rfl
        rw [hall, allActive, allActive, List.all_cons]
        cases b.isActiveEvent p <;> simp [spawnBGCreature]

theorem loadGameObjectEvents_spec (guid : Nat) (v : List BattleGroundEventIdx) :
    ∀ (b : Battleground) (obj : BgGameObject),
      ∃ regs, (loadGameObjectEvents guid v b obj).1 = { b with eventGameObjects := regs } ∧
        (∀ p g, g ∈ regs p ↔ g ∈ b.eventGameObjects p ∨ (g = guid ∧ p ∈ v)) ∧
        (loadGameObjectEvents guid v b obj).2.standing = (obj.standing && b.allActive v) := by
  induction v with
  | nil =>
      intro b obj
      exact ⟨b.eventGameObjects, rfl, by simp, by simp [loadGameObjectEvents, allActive]⟩
  | cons p v ih =>
      intro b obj
      obtain ⟨regs, hb, hregs, hstanding⟩ := ih (b.registerGameObject guid p)
        (if b.isActiveEvent p then obj else spawnBGObject obj respawnOneDay)
      refine ⟨regs, ?_, ?_, ?_⟩
      · rw [loadGameObjectEvents, hb]
        rfl
      · intro p' g
        rw [hregs]
        exact mem_register guid p p' v g
      · rw [loadGameObjectEvents, hstanding]
        have hall : (b.registerGameObject guid p).allActive v = b.allActive v := rfl
        rw [hall, allActive, allActive, List.all_cons]
        cases b.isActiveEvent p <;> simp [standing_oneDay]

theorem noEvents_eq_false (hv : ValidVector v) : noEvents v = false := by
  obtain ⟨hne, hall⟩ := hv
  cases v with
  | nil => exact absurd rfl hne
  | cons p v => simpa [noEvents] using (hall p (by simp)).1

/-- A loaded creature stands exactly while the events of its vector are active. -/
theorem loadCreature_spec (hv : vectors.Valid) (hs : b.Sound vectors) {guid : Nat}
    (hnew : b.creatures guid = none) :
    (b.loadCreature vectors guid).Sound vectors ∧
      (b.Correct vectors → (b.loadCreature vectors guid).Correct vectors) := by
  obtain ⟨regs, hb, hregs, hstanding⟩ :=
    loadCreatureEvents_spec guid (vectors.creature guid) b ⟨true, false⟩
  have hload : b.loadCreature vectors guid =
      { b with
        eventCreatures := regs
        creatures :=
          Function.update b.creatures guid
            (some ⟨b.allActive (vectors.creature guid), true⟩) } := by
    rw [loadCreature, noEvents_eq_false (hv.1 guid)]
    simp only [Bool.false_eq_true, if_false, hb, hstanding, Bool.true_and]
  rw [hload]
  refine ⟨⟨?_, hs.gameObject, ?_⟩, ?_⟩
  · intro p g
    show g ∈ regs p ↔ (∃ c, Function.update b.creatures guid _ g = some c) ∧ _
    rw [hregs, hs.creature]
    by_cases hg : g = guid
    · subst hg
      simp [hnew]
    · simp [hg]
  · intro g c hc
    replace hc : Function.update b.creatures guid _ g = some c := hc
    by_cases hg : g = guid
    · subst hg
      rw [Function.update_self] at hc
      rw [← Option.some.inj hc]
    · rw [Function.update_of_ne hg] at hc
      exact hs.inWorld g c hc
  · intro hc
    refine ⟨?_, hc.gameObject⟩
    intro g c hg'
    replace hg' : Function.update b.creatures guid _ g = some c := hg'
    show _ ↔ Complete b.activeEvents _
    by_cases hg : g = guid
    · subst hg
      rw [Function.update_self] at hg'
      rw [← Option.some.inj hg']
      exact allActive_iff
    · rw [Function.update_of_ne hg] at hg'
      exact hc.creature g c hg'

theorem loadGameObject_spec (hv : vectors.Valid) (hs : b.Sound vectors) {guid : Nat}
    (hnew : b.gameObjects guid = none) :
    (b.loadGameObject vectors guid).Sound vectors ∧
      (b.Correct vectors → (b.loadGameObject vectors guid).Correct vectors) := by
  obtain ⟨regs, hb, hregs, hstanding⟩ :=
    loadGameObjectEvents_spec guid (vectors.gameObject guid) b ⟨0, false⟩
  obtain ⟨obj, hload, hobj⟩ : ∃ obj : BgGameObject, b.loadGameObject vectors guid =
      { b with
        eventGameObjects := regs
        gameObjects := Function.update b.gameObjects guid (some obj) } ∧
        obj.standing = b.allActive (vectors.gameObject guid) := by
    rw [loadGameObject, noEvents_eq_false (hv.2 guid)]
    have hfresh : (⟨0, false⟩ : BgGameObject).standing = true := by decide
    rw [hfresh, Bool.true_and] at hstanding
    simp only [Bool.false_eq_true, if_false, hb]
    exact ⟨_, rfl, hstanding⟩
  rw [hload]
  refine ⟨⟨hs.creature, ?_, hs.inWorld⟩, ?_⟩
  · intro p g
    show g ∈ regs p ↔ (∃ c, Function.update b.gameObjects guid _ g = some c) ∧ _
    rw [hregs, hs.gameObject]
    by_cases hg : g = guid
    · subst hg
      simp [hnew]
    · simp [hg]
  · intro hc
    refine ⟨hc.creature, ?_⟩
    intro g obj' hg'
    replace hg' : Function.update b.gameObjects guid _ g = some obj' := hg'
    show _ ↔ Complete b.activeEvents _
    by_cases hg : g = guid
    · subst hg
      rw [Function.update_self] at hg'
      rw [← Option.some.inj hg', hobj]
      exact allActive_iff
    · rw [Function.update_of_ne hg] at hg'
      exact hc.gameObject g obj' hg'

/-! ## A run -/

theorem Sound.step (hv : vectors.Valid) (hs : b.Sound vectors) (hlegal : b.Legal op) :
    (b.step vectors op).Sound vectors := by
  cases op with
  | loadCreature guid => exact (loadCreature_spec hv hs hlegal).1
  | loadGameObject guid => exact (loadGameObject_spec hv hs hlegal).1
  | spawnEvent event1 event2 spawn forcedDespawn delay =>
      exact hs.spawnEvent hv spawn forcedDespawn delay

theorem Correct.step_iff (hv : vectors.Valid) (hs : b.Sound vectors) (hc : b.Correct vectors)
    (hlegal : b.Legal op) : (b.step vectors op).Correct vectors ↔ b.OpOk vectors op := by
  cases op with
  | loadCreature guid => exact iff_of_true ((loadCreature_spec hv hs hlegal).2 hc) trivial
  | loadGameObject guid => exact iff_of_true ((loadGameObject_spec hv hs hlegal).2 hc) trivial
  | spawnEvent event1 event2 spawn forcedDespawn delay =>
      exact hc.spawnEvent_iff hv hs spawn forcedDespawn delay

def LegalRun (vectors : EventVectors) : Battleground → List BgOp → Prop
  | _, [] => True
  | b, op :: ops => b.Legal op ∧ LegalRun vectors (b.step vectors op) ops

/-- Every state of the run is right. -/
def CorrectRun (vectors : EventVectors) : Battleground → List BgOp → Prop
  | b, [] => b.Correct vectors
  | b, op :: ops => b.Correct vectors ∧ CorrectRun vectors (b.step vectors op) ops

def OpsOk (vectors : EventVectors) : Battleground → List BgOp → Prop
  | _, [] => True
  | b, op :: ops => b.OpOk vectors op ∧ OpsOk vectors (b.step vectors op) ops

def run (vectors : EventVectors) (b : Battleground) (ops : List BgOp) : Battleground :=
  ops.foldl (step vectors) b

theorem Correct.correctRun_iff (hv : vectors.Valid) :
    ∀ {b : Battleground}, b.Sound vectors → b.Correct vectors → b.LegalRun vectors ops →
      (b.CorrectRun vectors ops ↔ b.OpsOk vectors ops) := by
  induction ops with
  | nil =>
      intro b _ hc _
      exact iff_of_true hc trivial
  | cons op ops ih =>
      intro b hs hc hlegal
      have hs' := hs.step hv hlegal.1
      have hiff := hc.step_iff hv hs hlegal.1
      constructor
      · intro hrun
        have hc' : (b.step vectors op).Correct vectors := by
          cases ops with
          | nil => exact hrun.2
          | cons op' ops => exact hrun.2.1
        exact ⟨hiff.1 hc', (ih hs' hc' hlegal.2).1 hrun.2⟩
      · intro hok
        exact ⟨hc, (ih hs' (hiff.2 hok.1) hlegal.2).2 hok.2⟩

theorem CorrectRun.last :
    ∀ {b : Battleground}, b.CorrectRun vectors ops → (b.run vectors ops).Correct vectors := by
  induction ops with
  | nil =>
      intro b h
      exact h
  | cons op ops ih =>
      intro b h
      exact ih h.2

theorem unloaded_sound (act : Nat → Option Nat) : (unloaded act).Sound vectors :=
  ⟨by simp [unloaded], by simp [unloaded], by simp [unloaded]⟩

theorem unloaded_correct (act : Nat → Option Nat) : (unloaded act).Correct vectors :=
  ⟨by simp [unloaded], by simp [unloaded]⟩

/-! ## Where the loading falls -/

def isChange : BgOp → Bool
  | .spawnEvent _ _ _ _ _ => true
  | _ => false

/-- What a change makes of the active states, whatever is loaded. -/
def nextActive (act : Nat → Option Nat) : BgOp → Nat → Option Nat
  | .spawnEvent event1 event2 spawn _ _ =>
      if event2 = bgEventNone then act
      else if (spawn ∧ (act event1).getD 0 = event2) ∨
          (¬ spawn ∧ (act event1).getD 0 ≠ event2) then
        Function.update act event1 (some ((act event1).getD 0))
      else Function.update act event1 (some (if spawn then event2 else bgEventNone))
  | _ => act

theorem step_activeEvents (hv : vectors.Valid) (hs : b.Sound vectors) (hlegal : b.Legal op) :
    (b.step vectors op).activeEvents = nextActive b.activeEvents op := by
  cases op with
  | loadCreature guid =>
      obtain ⟨regs, hb, -⟩ := loadCreatureEvents_spec guid (vectors.creature guid) b ⟨true, false⟩
      rw [step, loadCreature, noEvents_eq_false (hv.1 guid)]
      simp only [Bool.false_eq_true, if_false, hb]
      rfl
  | loadGameObject guid =>
      obtain ⟨regs, hb, -⟩ :=
        loadGameObjectEvents_spec guid (vectors.gameObject guid) b ⟨0, false⟩
      rw [step, loadGameObject, noEvents_eq_false (hv.2 guid)]
      simp only [Bool.false_eq_true, if_false, hb]
      rfl
  | spawnEvent e x spawn forcedDespawn delay =>
      rw [step, nextActive]
      split <;> rename_i hx
      · rw [Battleground.spawnEvent, if_pos hx]
      · split <;> rename_i hearly
        · have hearly' : (spawn = true ∧ b.activeState e = x) ∨
              (¬ spawn = true ∧ b.activeState e ≠ x) := hearly
          rw [Battleground.spawnEvent, if_neg hx]
          simp only [touch_activeState, if_pos hearly']
          rfl
        · rw [spawnEvent_eq hv hs hx hearly]
          cases spawn with
          | true =>
              rw [if_pos rfl, spawnObjects_change hs]
              rfl
          | false => rfl

theorem run_activeEvents (hv : vectors.Valid) :
    ∀ {b : Battleground}, b.Sound vectors → b.LegalRun vectors ops →
      (b.run vectors ops).activeEvents =
        (ops.filter isChange).foldl nextActive b.activeEvents := by
  induction ops with
  | nil =>
      intro b _ _
      rfl
  | cons op ops ih =>
      intro b hs hlegal
      have hrest := ih (hs.step hv hlegal.1) hlegal.2
      rw [step_activeEvents hv hs hlegal.1] at hrest
      show ((b.step vectors op).run vectors ops).activeEvents = _
      rw [hrest]
      cases op <;> rfl

/-- Every object that is loaded in both stands in both or in neither. -/
structure SameStanding (b b' : Battleground) : Prop where
  creature : ∀ guid c c', b.creatures guid = some c → b'.creatures guid = some c' →
    c.standing = c'.standing
  gameObject : ∀ guid obj obj', b.gameObjects guid = some obj → b'.gameObjects guid = some obj' →
    obj.standing = obj'.standing

theorem Correct.sameStanding {b' : Battleground} (hc : b.Correct vectors)
    (hc' : b'.Correct vectors) (hact : b.activeEvents = b'.activeEvents) :
    b.SameStanding b' := by
  refine ⟨?_, ?_⟩
  · intro guid c c' hg hg'
    rw [Bool.eq_iff_iff, hc.creature guid c hg, hc'.creature guid c' hg', hact]
  · intro guid obj obj' hg hg'
    rw [Bool.eq_iff_iff, hc.gameObject guid obj hg, hc'.gameObject guid obj' hg', hact]

/-- A run is right in every state exactly when its changes are good ones, and two such
runs with the same changes end alike, wherever the objects are loaded in them. -/
theorem unloaded_runs (vectors : EventVectors) (hv : vectors.Valid) (act : Nat → Option Nat) :
    (∀ ops, (unloaded act).LegalRun vectors ops →
      ((unloaded act).CorrectRun vectors ops ↔ (unloaded act).OpsOk vectors ops)) ∧
    ∀ ops ops', (unloaded act).LegalRun vectors ops → (unloaded act).LegalRun vectors ops' →
      (unloaded act).OpsOk vectors ops → (unloaded act).OpsOk vectors ops' →
      ops.filter isChange = ops'.filter isChange →
      ((unloaded act).run vectors ops).SameStanding ((unloaded act).run vectors ops') := by
  have hrun : ∀ ops, (unloaded act).LegalRun vectors ops →
      ((unloaded act).CorrectRun vectors ops ↔ (unloaded act).OpsOk vectors ops) := by
    intro ops hlegal
    exact (unloaded_correct act).correctRun_iff hv (unloaded_sound act) hlegal
  refine ⟨hrun, ?_⟩
  intro ops ops' hlegal hlegal' hok hok' hsame
  have hc := ((hrun ops hlegal).2 hok).last
  have hc' := ((hrun ops' hlegal').2 hok').last
  refine hc.sameStanding hc' ?_
  rw [run_activeEvents hv (unloaded_sound act) hlegal,
    run_activeEvents hv (unloaded_sound act) hlegal', hsame]

/-- Every object is one of two events, state 1 of event 0 and state 0 of event 1. -/
def twoEvents : EventVectors := ⟨fun _ => [(0, 1), (1, 0)], fun _ => [(0, 1), (1, 0)]⟩

theorem twoEvents_valid : twoEvents.Valid := by
  have hv : ValidVector [(0, 1), (1, 0)] := ⟨by simp, by decide⟩
  exact ⟨fun _ => hv, fun _ => hv⟩

theorem unloaded_runs_twoEvents :
    (unloaded fun e => if e = 1 then some 0 else none).CorrectRun twoEvents
      [.loadGameObject 7, .spawnEvent 0 1 true true 0] := by
  refine ((unloaded_runs twoEvents twoEvents_valid _).1
    [.loadGameObject 7, .spawnEvent 0 1 true true 0] ⟨rfl, trivial, trivial⟩).2
    ⟨trivial, ?_, trivial⟩
  rw [OpOk, if_neg (by decide), if_neg (by decide)]
  refine ⟨.inl rfl, ?_⟩
  intro _ guid obj _ _
  have hall : (((unloaded fun e => if e = 1 then some 0 else none).loadGameObject twoEvents
      7).setActive 0 1).allActive [(0, 1), (1, 0)] = true := by decide
  exact iff_of_true hall (by decide)

/-- A gameobject of two events, of which one is made active: it stands when it was loaded
before, and does not when it is loaded after. -/
theorem oneOfTwo_stands :
    ¬ (unloaded fun _ => none).CorrectRun twoEvents
        [.loadGameObject 7, .spawnEvent 0 1 true true 0] ∧
      ¬ ((unloaded fun _ => none).run twoEvents
          [.loadGameObject 7, .spawnEvent 0 1 true true 0]).SameStanding
        ((unloaded fun _ => none).run twoEvents
          [.spawnEvent 0 1 true true 0, .loadGameObject 7]) := by
  refine ⟨?_, ?_⟩
  · intro hrun
    have hstands := (hrun.2.2.gameObject 7 ⟨0, true⟩ rfl).1 (by decide)
    exact absurd (hstands (1, 0) (by decide)) (by decide)
  · intro hsame
    exact absurd (hsame.gameObject 7 ⟨0, true⟩ ⟨respawnOneDay, true⟩ rfl rfl) (by decide)

end Battleground

end Sunstrider.Battlegrounds
