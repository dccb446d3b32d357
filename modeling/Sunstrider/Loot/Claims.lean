import Sunstrider.Loot.Roll

/-!
# Loot claims

What the counter of a loot is for: somebody may still come and take something.
A `Claim` is one such something, and a loot goes together with the multiset of
the claims that were counted and have not been taken. Filling adds claims,
taking removes one.

Everything that happens to a loot, the long calls of `FillLoot` and
`CountTheRoll` included, is a list of `Act`s: nine kinds of steps, each with
what it does to the loot, which claims it counts, and which claim it takes.
`Op.acts` lists the acts of a call as the call comes to them, and `Op.run_acts`
says that the list does what the code does.

The loot keeps no record of who was counted for a quest item that everybody
can see; that is the one thing the multiset knows and the loot does not.
-/

namespace Sunstrider.Looting

variable {P : Type} [DecidableEq P] {M : Type} [DecidableEq M]

/-- `shared` is the one copy of an item, `own` the copy of one player. Quest
items have their own positions. -/
inductive Claim (P : Type)
  | shared (quest : Bool) (index : Nat)
  | own (quest : Bool) (player : P) (index : Nat)
deriving DecidableEq

/-- Changes to a loot that neither count nor take anything. -/
inductive Mark (P : Type)
  | roundRobin (player : P)
  | underthreshold (env : LootEnv P) (threshold : Nat)
  | masterLoot
  | block (slot : Nat)
  | unblock (slot : Nat)
  | keepFor (winner : P) (slot : Nat)

inductive Act (P : Type)
  | addItem (env : LootEnv P) (store : LootStoreItem) (count : Nat)
  | fillQuest (env : LootEnv P) (player : P)
  | fillFFA (env : LootEnv P) (player : P)
  | fillConditional (env : LootEnv P) (player : P)
  | store (env : LootEnv P) (player : P) (slot : Nat)
  | give (env : LootEnv P) (target : P) (slot : Nat)
  | award (slot : Nat)
  | money
  | mark (m : Mark P)

namespace Mark

def apply (l : Loot P) : Mark P → Loot P
  | .roundRobin p => { l with roundRobinPlayer := some p }
  | .underthreshold env threshold => l.markUnderthreshold env threshold
  | .masterLoot => l.masterLoot
  | .block slot => l.blockForRoll slot
  | .unblock slot => l.modifyAt slot fun it => { it with isBlocked := false }
  | .keepFor w slot => l.modifyAt slot fun it =>
      { it with isBlocked := false, rollWinnerGUID := some w }

end Mark

namespace Act

/-- What an act does to the loot. The fill functions are called for players
who have no list yet. -/
def apply (l : Loot P) : Act P → Loot P
  | .addItem env entry count => l.addItem env entry count
  | .fillQuest env p =>
      if (l.playerQuestItems.lookup p).isSome then l else l.fillQuestLoot env p
  | .fillFFA env p =>
      if (l.playerFFAItems.lookup p).isSome then l else l.fillFFALoot env p
  | .fillConditional env p =>
      if (l.playerNonQuestNonFFAConditionalItems.lookup p).isSome then l
      else l.fillNonQuestNonFFAConditionalLoot env p
  | .store env p slot => l.storeLootItem env p slot
  | .give env target slot => l.lootMasterGive env target slot
  | .award slot => (l.modifyAt slot fun it => { it with isLooted := true }).countDown
  | .money => l.lootMoney
  | .mark m => m.apply l

end Act

/-! ## The claims of a fill -/

namespace Loot

/-- An item for one taker, without conditions. -/
def ordinary (item : LootItem P) : Bool := item.conditions.isEmpty && !item.freeforall

/-- The positions of the stacks that `addItem` made. -/
def addedSlots (env : LootEnv P) (l : Loot P) (store : LootStoreItem) (count : Nat) :
    List Nat :=
  (List.range (l.addItem env store count).items.length).filter
    fun i => decide (l.items.length ≤ i)

/-- The stacks that `addItem` counts. -/
def addClaims (env : LootEnv P) (l : Loot P) (store : LootStoreItem) (count : Nat) :
    List (Claim P) :=
  ((l.addedSlots env store count).filter fun i =>
    ((l.addItem env store count).items[i]?.map ordinary).getD false).map (Claim.shared false)

/-- `FillFFALoot` offers the item to `p`. -/
def offersFFA (env : LootEnv P) (l : Loot P) (p : P) (i : Nat) : Bool :=
  match l.items[i]? with
  | none => false
  | some item => !item.isLooted && item.freeforall && env.allowedForPlayer item p

def ffaOffers (env : LootEnv P) (l : Loot P) (p : P) : List Nat :=
  (List.range l.items.length).filter (l.offersFFA env p)

def ffaClaims (env : LootEnv P) (l : Loot P) (p : P) : List (Claim P) :=
  (l.ffaOffers env p).map (Claim.own false p)

/-- `FillQuestLoot` offers the item to `p`, room permitting. -/
def offersQuest (env : LootEnv P) (l : Loot P) (p : P) (i : Nat) : Bool :=
  match l.questItems[i]? with
  | none => false
  | some item => offersQuestItem env p item

def questOffers (env : LootEnv P) (l : Loot P) (p : P) : List Nat :=
  if l.items.length = maxNrLootItems then []
  else
    ((List.range l.questItems.length).filter (l.offersQuest env p)).take
      (maxNrLootItems - l.items.length)

/-- A free-for-all item is claimed by each player it is offered, another item
unless it was blocked before. -/
def questClaim (l : Loot P) (p : P) (i : Nat) : Option (Claim P) :=
  match l.questItems[i]? with
  | none => none
  | some item =>
      if item.freeforall then some (.own true p i)
      else if item.isBlocked then none
      else some (.shared true i)

def questClaims (env : LootEnv P) (l : Loot P) (p : P) : List (Claim P) :=
  (l.questOffers env p).filterMap (l.questClaim p)

/-- `FillNonQuestNonFFAConditionalLoot` offers the item to `p`. -/
def offersConditional (env : LootEnv P) (l : Loot P) (p : P) (i : Nat) : Bool :=
  match l.items[i]? with
  | none => false
  | some item => !item.isLooted && !item.freeforall && env.allowedForPlayer item p &&
      !item.conditions.isEmpty

def conditionalOffers (env : LootEnv P) (l : Loot P) (p : P) : List Nat :=
  (List.range l.items.length).filter (l.offersConditional env p)

def notCounted (l : Loot P) (i : Nat) : Bool :=
  match l.items[i]? with
  | none => false
  | some item => !item.isCounted

/-- A conditional item is claimed once, when it is first offered. -/
def conditionalClaims (env : LootEnv P) (l : Loot P) (p : P) : List (Claim P) :=
  ((l.conditionalOffers env p).filter l.notCounted).map (Claim.shared false)

/-! ## The claim that is taken -/

/-- The claim that `StoreLootItem` takes. -/
def storedClaim (p : P) (ref : SlotRef) (item : LootItem P) : Claim P :=
  if item.freeforall then .own ref.quest p ref.index else .shared ref.quest ref.index

/-- The claim on the item in a slot. -/
def slotClaim (l : Loot P) (slot : Nat) : Claim P :=
  if l.items.length ≤ slot then .shared true (slot - l.items.length) else .shared false slot

/-- `HandleLootMasterGiveOpcode` comes to giving the item. -/
def gives (env : LootEnv P) (l : Loot P) (target : P) (slot : Nat) : Bool :=
  match l.itemAt slot with
  | none => false
  | some item =>
      (!item.followLootRules || env.allowedForPlayer item target) &&
        env.canStoreNewItem target item.itemid item.count

end Loot

namespace Act

/-- The claims after an act. -/
def claims (l : Loot P) (c : Multiset (Claim P)) : Act P → Multiset (Claim P)
  | .addItem env entry count => c + (l.addClaims env entry count : Multiset (Claim P))
  | .fillQuest env p =>
      if (l.playerQuestItems.lookup p).isSome then c
      else c + (l.questClaims env p : Multiset (Claim P))
  | .fillFFA env p =>
      if (l.playerFFAItems.lookup p).isSome then c
      else c + (l.ffaClaims env p : Multiset (Claim P))
  | .fillConditional env p =>
      if (l.playerNonQuestNonFFAConditionalItems.lookup p).isSome then c
      else c + (l.conditionalClaims env p : Multiset (Claim P))
  | .store env p slot =>
      match l.lootItemInSlot slot p with
      | none => c
      | some (ref, item) =>
          if Loot.mayStore env p ref item then c.erase (Loot.storedClaim p ref item) else c
  | .give env target slot =>
      if l.gives env target slot then c.erase (l.slotClaim slot) else c
  | .award slot => c.erase (l.slotClaim slot)
  | .money => c
  | .mark _ => c

/-- An item can still be taken by the one who is to have it: it is not
free-for-all, not looted, and was counted; a quest item was counted more often
than it was taken. -/
def Claimed (c : Multiset (Claim P)) (quest : Bool) (index : Nat) (item : LootItem P) :
    Prop :=
  item.freeforall = false ∧
    if quest then 0 < c.count (.shared true index)
    else item.isLooted = false ∧ (item.conditions = [] ∨ item.isCounted = true)

def SlotClaimed (l : Loot P) (c : Multiset (Claim P)) (slot : Nat) (item : LootItem P) :
    Prop :=
  if l.items.length ≤ slot then Claimed c true (slot - l.items.length) item
  else Claimed c false slot item

/-- What an act must find for the counter to stay right. Filling must not go
past 255 claims. Taking must find a claim: a free-for-all item is on the
player's own list, any other item is `Claimed`. -/
def Ok (l : Loot P) (c : Multiset (Claim P)) : Act P → Prop
  | .addItem env entry count => (claims l c (.addItem env entry count)).card ≤ 255
  | .fillQuest env p => (claims l c (.fillQuest env p)).card ≤ 255
  | .fillFFA env p => (claims l c (.fillFFA env p)).card ≤ 255
  | .fillConditional env p => (claims l c (.fillConditional env p)).card ≤ 255
  | .store env p slot => ∀ found ∈ l.lootItemInSlot slot p,
      Loot.mayStore env p found.1 found.2 = true →
      if found.2.freeforall then found.1.entry.isSome = true
      else Claimed c found.1.quest found.1.index found.2
  | .give env target slot => l.gives env target slot = true →
      ∀ item ∈ l.itemAt slot, SlotClaimed l c slot item
  | .award slot => ∃ item ∈ l.itemAt slot, SlotClaimed l c slot item
  | .money => True
  | .mark _ => True

instance (c : Multiset (Claim P)) (quest : Bool) (index : Nat) (item : LootItem P) :
    Decidable (Claimed c quest index item) :=
  inferInstanceAs (Decidable (_ ∧ if quest then _ else _))

instance (l : Loot P) (c : Multiset (Claim P)) (slot : Nat) (item : LootItem P) :
    Decidable (SlotClaimed l c slot item) :=
  inferInstanceAs (Decidable (if l.items.length ≤ slot then
    Claimed c true (slot - l.items.length) item else Claimed c false slot item))

instance (l : Loot P) (c : Multiset (Claim P)) : DecidablePred (Ok l c)
  | .addItem _ _ _ => inferInstanceAs (Decidable (_ ≤ _))
  | .fillQuest _ _ => inferInstanceAs (Decidable (_ ≤ _))
  | .fillFFA _ _ => inferInstanceAs (Decidable (_ ≤ _))
  | .fillConditional _ _ => inferInstanceAs (Decidable (_ ≤ _))
  | .store env p slot => inferInstanceAs (Decidable (∀ found ∈ l.lootItemInSlot slot p,
      Loot.mayStore env p found.1 found.2 = true →
      if found.2.freeforall then found.1.entry.isSome = true
      else Claimed c found.1.quest found.1.index found.2))
  | .give env target slot => inferInstanceAs (Decidable (l.gives env target slot = true →
      ∀ item ∈ l.itemAt slot, SlotClaimed l c slot item))
  | .award slot => inferInstanceAs (Decidable (∃ item ∈ l.itemAt slot,
      SlotClaimed l c slot item))
  | .money => inferInstanceAs (Decidable True)
  | .mark _ => inferInstanceAs (Decidable True)

end Act

/-! ## Runs of acts -/

/-- The loot after some acts. -/
def runActs (l : Loot P) (acts : List (Act P)) : Loot P := acts.foldl Act.apply l

/-- The claims after some acts. -/
def actsClaims : Loot P → Multiset (Claim P) → List (Act P) → Multiset (Claim P)
  | _, c, [] => c
  | l, c, a :: rest => actsClaims (a.apply l) (a.claims l c) rest

/-- Every act finds what it must. -/
def ActsOk : Loot P → Multiset (Claim P) → List (Act P) → Prop
  | _, _, [] => True
  | l, c, a :: rest => a.Ok l c ∧ ActsOk (a.apply l) (a.claims l c) rest

instance decidableActsOk : ∀ (acts : List (Act P)) (l : Loot P) (c : Multiset (Claim P)),
    Decidable (ActsOk l c acts)
  | [], _, _ => inferInstanceAs (Decidable True)
  | a :: rest, l, c =>
      have : Decidable (ActsOk (a.apply l) (a.claims l c) rest) := decidableActsOk rest _ _
      inferInstanceAs (Decidable (a.Ok l c ∧ _))

/-! ## The acts of a call -/

namespace Loot

def fillListsActs (env : LootEnv P) (p : P) : List (Act P) :=
  [.fillQuest env p, .fillFFA env p, .fillConditional env p]

/-- The currency tokens that `FillNotNormalLootFor` stores. -/
def currencyActs (env : LootEnv P) (p : P) : List Nat → Loot P → List (Act P)
  | [], _ => []
  | i :: rest, l =>
      match l.itemAt i with
      | none => currencyActs env p rest l
      | some item =>
          if !item.isLooted && item.freeforall && env.allowedForPlayer item p &&
              ((env.template item.itemid).map LootProto.isCurrencyToken).getD false then
            .store env p i :: currencyActs env p rest (l.storeLootItem env p i)
          else currencyActs env p rest l

def fillNotNormalLootForActs (env : LootEnv P) (l : Loot P) (p : P)
    (presentAtLooting : Bool) : List (Act P) :=
  fillListsActs env p ++
    if !presentAtLooting then []
    else
      let l := l.fillLists env p
      currencyActs env p (List.range (l.getMaxSlotInLootFor p)) l

def fillGroupActs (env : LootEnv P) : List (P × Bool × Bool) → Loot P → List (Act P)
  | [], _ => []
  | m :: rest, l =>
      if m.2.1 then
        l.fillNotNormalLootForActs env m.1 m.2.2 ++
          fillGroupActs env rest (l.fillNotNormalLootFor env m.1 m.2.2)
      else fillGroupActs env rest l

def fillLootActs (env : LootEnv P) (l : Loot P) (rolled : List (LootStoreItem × Nat))
    (lootOwner : P) (personal : Bool) : List (Act P) :=
  (rolled.map fun e => Act.addItem env e.1 e.2) ++
    let l := l.process env rolled
    match env.group lootOwner with
    | some g =>
        if personal then l.fillNotNormalLootForActs env lootOwner true
        else
          .mark (.roundRobin lootOwner) ::
            (fillGroupActs env g.members { l with roundRobinPlayer := some lootOwner } ++
              [.mark (.underthreshold env g.lootThreshold)])
    | none => l.fillNotNormalLootForActs env lootOwner true

end Loot

namespace Roll

/-- The player whom the need branch awards. -/
def needAwards (env : RollEnv P M) (r : Roll P) (s : Progress P) : Option P :=
  if 0 < s.totalNeed then
    match r.playerVote with
    | [] => none
    | first :: _ =>
        ((rollLoop env .need env.needRoll r.playerVote s.totalNeed 0 (some first.1)).2).filter
          fun g => hasSession (env.findPlayer g)
  else none

/-- The player whom the greed branch awards. -/
def greedAwards (env : RollEnv P M) (r : Roll P) (s : Progress P) : Option P :=
  if s.totalNeed = 0 ∧ 0 < s.totalGreed then
    match r.playerVote with
    | [] => none
    | _ :: _ =>
        ((rollLoop env .greed env.greedRoll r.playerVote s.totalGreed 0 none).2).filter
          fun g => hasSession (env.findConnectedPlayer g)
  else none

def awardActs (env : RollEnv P M) (r : Roll P) (s : Progress P) : Option P → List (Act P)
  | none => []
  | some g =>
      match s.loot.itemAt r.itemSlot with
      | none => []
      | some item =>
          if env.canStoreNewItem s.recipients g r.itemid item.count then [.award r.itemSlot]
          else [.mark (.keepFor g r.itemSlot)]

def allPassedActs (r : Roll P) (s : Progress P) : List (Act P) :=
  if s.totalNeed = 0 ∧ s.totalGreed = 0 then [.mark (.unblock r.itemSlot)] else []

def countTheRollActs (env : RollEnv P M) (r : Roll P) (l : Loot P) : List (Act P) :=
  let s : Progress P := ⟨l, [], r.totalNeed, r.totalGreed⟩
  let s' := needPhase env r s
  awardActs env r s (needAwards env r s) ++
    (awardActs env r s' (greedAwards env r s') ++ allPassedActs r (greedPhase env r s'))

end Roll

/-! ## Runs of calls -/

/-- What players and the server do to a loot, each with the world around. -/
inductive Op (P M : Type)
  | fillLoot (env : LootEnv P) (rolled : List (LootStoreItem × Nat)) (lootOwner : P)
      (personal : Bool)
  | storeLootItem (env : LootEnv P) (player : P) (slot : Nat)
  | lootMasterGive (env : LootEnv P) (target : P) (slot : Nat)
  | lootMoney
  | masterLoot
  | blockForRoll (slot : Nat)
  | countTheRoll (env : RollEnv P M) (roll : Roll P)

namespace Op

def run (l : Loot P) : Op P M → Loot P
  | .fillLoot env rolled lootOwner personal => l.fillLoot env rolled lootOwner personal
  | .storeLootItem env p slot => l.storeLootItem env p slot
  | .lootMasterGive env target slot => l.lootMasterGive env target slot
  | .lootMoney => l.lootMoney
  | .masterLoot => l.masterLoot
  | .blockForRoll slot => l.blockForRoll slot
  | .countTheRoll env r => (Roll.countTheRoll env r l).loot

def acts (l : Loot P) : Op P M → List (Act P)
  | .fillLoot env rolled lootOwner personal => l.fillLootActs env rolled lootOwner personal
  | .storeLootItem env p slot => [.store env p slot]
  | .lootMasterGive env target slot => [.give env target slot]
  | .lootMoney => [.money]
  | .masterLoot => [.mark .masterLoot]
  | .blockForRoll slot => [.mark (.block slot)]
  | .countTheRoll env r => Roll.countTheRollActs env r l

end Op

/-- The loot after a run. -/
def runOps (l : Loot P) (ops : List (Op P M)) : Loot P := ops.foldl Op.run l

/-- The claims after a run. -/
def opsClaims : Loot P → Multiset (Claim P) → List (Op P M) → Multiset (Claim P)
  | _, c, [] => c
  | l, c, op :: rest => opsClaims (op.run l) (actsClaims l c (op.acts l)) rest

/-- In every call of a run, every act finds what it must. -/
def OpsOk : Loot P → Multiset (Claim P) → List (Op P M) → Prop
  | _, _, [] => True
  | l, c, op :: rest =>
      ActsOk l c (op.acts l) ∧ OpsOk (op.run l) (actsClaims l c (op.acts l)) rest

instance decidableOpsOk : ∀ (ops : List (Op P M)) (l : Loot P) (c : Multiset (Claim P)),
    Decidable (OpsOk l c ops)
  | [], _, _ => inferInstanceAs (Decidable True)
  | op :: rest, l, c =>
      have : Decidable (OpsOk (op.run l) (actsClaims l c (op.acts l)) rest) :=
        decidableOpsOk rest _ _
      inferInstanceAs (Decidable (ActsOk l c (op.acts l) ∧ _))

end Sunstrider.Looting
