import Sunstrider.Loot.Claims

/-!
# Loot calls as acts

`Op.run_acts`: a call does to the loot what its acts do, one after the other.
The fill functions are loops themselves, over the positions of an item list;
the second half says what each loop computes, as one filter over the
positions: which entries the player gets, how far the counter moves, and which
flags of the items change. Each of these is an induction over the positions
still to come, and the items at those are as they were at the start because no
position comes twice.
-/

set_option linter.unusedSectionVars false

namespace Sunstrider.Looting

variable {P : Type} [DecidableEq P] {M : Type} [DecidableEq M]

/-! ## A call is its acts -/

@[simp] theorem runActs_cons (l : Loot P) (a : Act P) (acts : List (Act P)) :
    runActs l (a :: acts) = runActs (a.apply l) acts := rfl

@[simp] theorem runActs_append (l : Loot P) (acts acts' : List (Act P)) :
    runActs l (acts ++ acts') = runActs (runActs l acts) acts' :=
  List.foldl_append

namespace Loot

theorem fillLists_acts (env : LootEnv P) (l : Loot P) (p : P) :
    runActs l (fillListsActs env p) = l.fillLists env p := rfl

theorem currencyLoop_acts (env : LootEnv P) (p : P) (slots : List Nat) :
    ∀ l : Loot P, runActs l (currencyActs env p slots l) = currencyLoop env p slots l := by
  induction slots with
  | nil =>
      intro l
      rfl
  | cons i rest ih =>
      intro l
      rw [currencyActs, currencyLoop]
      cases l.itemAt i with
      | none => exact ih l
      | some item =>
          simp only
          split
          · rw [runActs_cons]
            exact ih _
          · exact ih l

theorem fillNotNormalLootFor_acts (env : LootEnv P) (l : Loot P) (p : P) (present : Bool) :
    runActs l (l.fillNotNormalLootForActs env p present) =
      l.fillNotNormalLootFor env p present := by
  rw [fillNotNormalLootForActs, runActs_append, fillLists_acts, fillNotNormalLootFor]
  cases present
  · rfl
  · exact currencyLoop_acts env p _ _

theorem fillGroup_acts (env : LootEnv P) (members : List (P × Bool × Bool)) :
    ∀ l : Loot P, runActs l (fillGroupActs env members l) = fillGroup env members l := by
  induction members with
  | nil =>
      intro l
      rfl
  | cons m rest ih =>
      intro l
      rw [fillGroupActs, fillGroup, List.foldl_cons]
      split
      · rw [runActs_append, fillNotNormalLootFor_acts]
        exact ih _
      · exact ih l

theorem process_acts (env : LootEnv P) (l : Loot P) (rolled : List (LootStoreItem × Nat)) :
    runActs l (rolled.map fun e => Act.addItem env e.1 e.2) = l.process env rolled := by
  rw [runActs, List.foldl_map]
  rfl

theorem fillLoot_acts (env : LootEnv P) (l : Loot P) (rolled : List (LootStoreItem × Nat))
    (lootOwner : P) (personal : Bool) :
    runActs l (l.fillLootActs env rolled lootOwner personal) =
      l.fillLoot env rolled lootOwner personal := by
  rw [fillLootActs, fillLoot, runActs_append, process_acts]
  cases env.group lootOwner with
  | none => exact fillNotNormalLootFor_acts env _ _ _
  | some g =>
      simp only
      split
      · exact fillNotNormalLootFor_acts env _ _ _
      · rw [runActs_cons, runActs_append, Act.apply, Mark.apply, fillGroup_acts]
        rfl

end Loot

namespace Roll

/-- An award looks at the loot and at who has received something, not at the
tallies. -/
theorem award_acts (env : RollEnv P M) (r : Roll P) {s s' : Progress P}
    (hl : s'.loot = s.loot) (hr : s'.recipients = s.recipients) (g : P) :
    runActs s.loot (awardActs env r s (some g)) = (award env r s' g).loot := by
  rw [awardActs, award, hl, hr]
  cases s.loot.itemAt r.itemSlot with
  | none => exact hl.symm
  | some item =>
      simp only
      split <;> rfl

theorem needPhase_acts (env : RollEnv P M) (r : Roll P) (s : Progress P) :
    runActs s.loot (awardActs env r s (needAwards env r s)) = (needPhase env r s).loot := by
  rw [needPhase, needAwards]
  split
  · cases r.playerVote with
    | nil => rfl
    | cons first rest =>
        simp only
        cases (rollLoop env .need env.needRoll (first :: rest) s.totalNeed 0
          (some first.1)).2 with
        | none => rfl
        | some g =>
            rw [Option.filter_some]
            simp only
            split
            · exact award_acts env r (by rfl) (by rfl) g
            · rfl
  · rfl

theorem greedPhase_acts (env : RollEnv P M) (r : Roll P) (s : Progress P) :
    runActs s.loot (awardActs env r s (greedAwards env r s)) = (greedPhase env r s).loot := by
  rw [greedPhase, greedAwards]
  split
  · cases r.playerVote with
    | nil => rfl
    | cons first rest =>
        simp only
        cases (rollLoop env .greed env.greedRoll (first :: rest) s.totalGreed 0
          none).2 with
        | none => rfl
        | some g =>
            rw [Option.filter_some]
            simp only
            split
            · exact award_acts env r (by rfl) (by rfl) g
            · rfl
  · rfl

theorem countTheRoll_acts (env : RollEnv P M) (r : Roll P) (l : Loot P) :
    runActs l (countTheRollActs env r l) = (countTheRoll env r l).loot := by
  rw [countTheRollActs, countTheRoll]
  rw [runActs_append, runActs_append, needPhase_acts env r ⟨l, [], _, _⟩, greedPhase_acts,
    allPassedActs, allPassedPhase]
  split <;> rfl

end Roll

/-- The acts of a call do what the call does. -/
theorem Op.run_acts (l : Loot P) (op : Op P M) : runActs l (op.acts l) = op.run l := by
  cases op with
  | fillLoot env rolled lootOwner personal => exact Loot.fillLoot_acts env l _ _ _
  | storeLootItem env p slot => rfl
  | lootMasterGive env target slot => rfl
  | lootMoney => rfl
  | masterLoot => rfl
  | blockForRoll slot => rfl
  | countTheRoll env r => exact Roll.countTheRoll_acts env r l

/-! ## What the fill loops compute -/

/-- The entry a fill makes for a position. -/
def newEntry (i : Nat) : NotNormalLootItem := ⟨i, false⟩

namespace Loot

theorem incr8_add (u k : Nat) : (incr8 u + k) % 256 = (u + (k + 1)) % 256 := by
  rw [incr8]
  omega

/-- Changing the items at some positions with a change that can be repeated. -/
theorem getElem?_foldl_modify {α : Type} (f : α → α) (hf : ∀ a, f (f a) = f a) (is : List Nat) :
    ∀ (l : List α) (j : Nat), (is.foldl (fun l i => l.modify i f) l)[j]? =
      if j ∈ is then l[j]?.map f else l[j]? := by
  induction is with
  | nil =>
      intro l j
      rfl
  | cons i rest ih =>
      intro l j
      rw [List.foldl_cons, ih]
      rcases eq_or_ne i j with rfl | hij
      · rw [List.getElem?_modify_eq]
        cases l[i]? with
        | none => simp
        | some a => simp [hf]
      · rw [List.getElem?_modify_ne _ _ hij]
        simp [Ne.symm hij]

theorem length_foldl_modify {α : Type} (f : α → α) (is : List Nat) :
    ∀ l : List α, (is.foldl (fun l i => l.modify i f) l).length = l.length := by
  induction is with
  | nil =>
      intro l
      rfl
  | cons i rest ih =>
      intro l
      rw [List.foldl_cons, ih, List.length_modify]

theorem ffaLoop_eq (env : LootEnv P) (p : P) (is : List Nat) :
    ∀ (l : Loot P) (ql : List NotNormalLootItem), l.unlootedCount < 256 →
      ffaLoop env p is l ql =
        ({ l with unlootedCount :=
            (l.unlootedCount + (is.filter (l.offersFFA env p)).length) % 256 },
          ql ++ (is.filter (l.offersFFA env p)).map newEntry) := by
  induction is with
  | nil =>
      intro l ql hlt
      simp [ffaLoop, Nat.mod_eq_of_lt hlt]
  | cons i rest ih =>
      intro l ql hlt
      have hsame : l.countUp.offersFFA env p = l.offersFFA env p := rfl
      rw [ffaLoop]
      cases hi : l.items[i]? with
      | none =>
          rw [ih l ql hlt, List.filter_cons_of_neg (by simp [offersFFA, hi])]
      | some item =>
          simp only
          split <;> rename_i hoff
          · rw [ih _ _ (Nat.mod_lt _ (by decide)), hsame,
              List.filter_cons_of_pos (by simpa [offersFFA, hi] using hoff)]
            simp [countUp, incr8_add, newEntry]
          · rw [ih l ql hlt, List.filter_cons_of_neg (by simpa [offersFFA, hi] using hoff)]

/-- The items `FillNonQuestNonFFAConditionalLoot` marks as counted. -/
def markCounted (is : List Nat) (items : List (LootItem P)) : List (LootItem P) :=
  is.foldl (fun items i => items.modify i fun it => { it with isCounted := true }) items

theorem getElem?_markCounted (is : List Nat) (items : List (LootItem P)) (j : Nat) :
    (markCounted is items)[j]? =
      if j ∈ is then items[j]?.map fun it => { it with isCounted := true } else items[j]? :=
  getElem?_foldl_modify (fun it : LootItem P => { it with isCounted := true }) (fun _ => rfl)
    is items j

theorem condLoop_eq (env : LootEnv P) (p : P) (is : List Nat) :
    ∀ (l : Loot P) (ql : List NotNormalLootItem), l.unlootedCount < 256 → is.Nodup →
      condLoop env p is l ql =
        ({ l with
            items := markCounted ((is.filter (l.offersConditional env p)).filter l.notCounted)
              l.items
            unlootedCount := (l.unlootedCount +
              ((is.filter (l.offersConditional env p)).filter l.notCounted).length) % 256 },
          ql ++ (is.filter (l.offersConditional env p)).map newEntry) := by
  induction is with
  | nil =>
      intro l ql hlt _
      simp [condLoop, Nat.mod_eq_of_lt hlt, markCounted]
  | cons i rest ih =>
      intro l ql hlt hnodup
      obtain ⟨hirest, hrest⟩ := List.nodup_cons.1 hnodup
      rw [condLoop]
      cases hi : l.items[i]? with
      | none =>
          rw [ih l ql hlt hrest, List.filter_cons_of_neg (by simp [offersConditional, hi])]
      | some item =>
          simp only
          split <;> rename_i hoff
          · have hpos : l.offersConditional env p i = true := by
              simpa [offersConditional, hi] using hoff
            rw [List.filter_cons_of_pos hpos]
            by_cases hc : item.isCounted = true
            · rw [if_pos hc, ih l _ hlt hrest,
                List.filter_cons_of_neg (by simp [notCounted, hi, hc])]
              simp [newEntry]
            · -- the later positions see the items they saw before
              let l' : Loot P := { l.countUp with
                items := l.items.modify i fun it => { it with isCounted := true } }
              have hother : ∀ j ∈ rest, l'.items[j]? = l.items[j]? := fun j hj =>
                List.getElem?_modify_ne _ _ (fun h => hirest (h ▸ hj))
              have hoffers : rest.filter (l'.offersConditional env p) =
                  rest.filter (l.offersConditional env p) :=
                List.filter_congr fun j hj => by simp only [offersConditional, hother j hj]
              have hcounted : (rest.filter (l.offersConditional env p)).filter l'.notCounted =
                  (rest.filter (l.offersConditional env p)).filter l.notCounted :=
                List.filter_congr fun j hj => by
                  simp only [notCounted, hother j (List.mem_of_mem_filter hj)]
              rw [if_neg hc, ih l' _ (Nat.mod_lt _ (by decide)) hrest, hoffers, hcounted,
                List.filter_cons_of_pos (by simp [notCounted, hi, hc])]
              simp [l', countUp, incr8_add, newEntry, markCounted]
          · rw [ih l ql hlt hrest,
              List.filter_cons_of_neg (by simpa [offersConditional, hi] using hoff)]

/-- The quest items after `FillQuestLoot` offered some. -/
def markBlocked (env : LootEnv P) (p : P) (is : List Nat) (items : List (LootItem P)) :
    List (LootItem P) :=
  if blocksQuestItems env p then
    is.foldl (fun items i => items.modify i fun it => { it with isBlocked := true }) items
  else items

theorem questLoop_eq (env : LootEnv P) (p : P) (is : List Nat) :
    ∀ (l : Loot P) (ql : List NotNormalLootItem), l.unlootedCount < 256 → is.Nodup →
      l.items.length + ql.length < maxNrLootItems →
      questLoop env p is l ql =
        let offered := (is.filter (l.offersQuest env p)).take
          (maxNrLootItems - l.items.length - ql.length)
        ({ l with
            questItems := markBlocked env p offered l.questItems
            unlootedCount :=
              (l.unlootedCount + (offered.filterMap (l.questClaim p)).length) % 256 },
          ql ++ offered.map newEntry) := by
  induction is with
  | nil =>
      intro l ql hlt _ _
      simp [questLoop, Nat.mod_eq_of_lt hlt, markBlocked]
  | cons i rest ih =>
      intro l ql hlt hnodup hroom
      obtain ⟨hirest, hrest⟩ := List.nodup_cons.1 hnodup
      rw [questLoop]
      cases hi : l.questItems[i]? with
      | none =>
          rw [ih l ql hlt hrest hroom, List.filter_cons_of_neg (by simp [offersQuest, hi])]
      | some item =>
          simp only
          split <;> rename_i hoff
          · have hpos : l.offersQuest env p i = true := by
              simpa [offersQuest, hi] using hoff
            obtain ⟨room, hsucc⟩ : ∃ room,
                maxNrLootItems - l.items.length - ql.length = room + 1 :=
              ⟨maxNrLootItems - l.items.length - ql.length - 1, by omega⟩
            rw [List.filter_cons_of_pos hpos, hsucc, List.take_succ_cons]
            -- the loot after this item: one claim more, if it makes one
            let l' : Loot P := { l with
              questItems := markBlocked env p [i] l.questItems
              unlootedCount :=
                (l.unlootedCount + ([i].filterMap (l.questClaim p)).length) % 256 }
            have hl' : l' =
                (let l₁ := if item.freeforall || !item.isBlocked then l.countUp else l
                 if blocksQuestItems env p then
                   { l₁ with questItems := l₁.questItems.modify i fun it =>
                      { it with isBlocked := true } }
                 else l₁) := by
              cases hf : item.freeforall <;> cases hb : item.isBlocked <;>
                cases hbl : blocksQuestItems env p <;>
                simp [l', markBlocked, questClaim, hi, hf, hb, hbl, countUp, incr8,
                  Nat.mod_eq_of_lt hlt]
            simp only at hl'
            rw [← hl']
            have hother : ∀ j ∈ rest, l'.questItems[j]? = l.questItems[j]? := by
              intro j hj
              have hne : i ≠ j := fun h => hirest (h ▸ hj)
              simp only [l', markBlocked]
              split
              · exact List.getElem?_modify_ne _ _ hne
              · rfl
            have hoffers : rest.filter (l'.offersQuest env p) =
                rest.filter (l.offersQuest env p) :=
              List.filter_congr fun j hj => by simp only [offersQuest, hother j hj]
            have hitems : l'.items = l.items := rfl
            have hmark : ∀ is, markBlocked env p is l'.questItems =
                markBlocked env p (i :: is) l.questItems := by
              intro is
              simp only [l', markBlocked]
              split <;> rfl
            split <;> rename_i hfull
            · -- the list is full
              have hzero : room = 0 := by
                simp only [hitems, List.length_append, List.length_cons,
                  List.length_nil] at hfull
                omega
              rw [hzero, List.take_zero]
              rfl
            · have hroom' : l'.items.length + (ql ++ [(⟨i, false⟩ : NotNormalLootItem)]).length <
                  maxNrLootItems := by
                simp only [hitems, List.length_append, List.length_cons,
                  List.length_nil] at hfull ⊢
                omega
              have hroom'' : maxNrLootItems - l'.items.length -
                  (ql ++ [(⟨i, false⟩ : NotNormalLootItem)]).length = room := by
                simp only [hitems, List.length_append, List.length_cons, List.length_nil]
                omega
              have hclaims : ∀ j ∈ (rest.filter (l.offersQuest env p)).take room,
                  l'.questClaim p j = l.questClaim p j := by
                intro j hj
                have hjr := List.mem_of_mem_filter (List.mem_of_mem_take hj)
                simp only [questClaim, hother j hjr]
              rw [ih l' _ (Nat.mod_lt _ (by decide)) hrest hroom', hroom'', hoffers]
              simp only
              rw [List.filterMap_congr hclaims, hmark]
              simp only [List.map_cons, List.append_assoc, List.singleton_append]
              have hsum : (l'.unlootedCount +
                  (((rest.filter (l.offersQuest env p)).take room).filterMap
                    (l.questClaim p)).length) % 256 =
                  (l.unlootedCount +
                    ((i :: (rest.filter (l.offersQuest env p)).take room).filterMap
                      (l.questClaim p)).length) % 256 := by
                simp only [l', List.filterMap_cons]
                cases l.questClaim p i with
                | none => simp
                | some c =>
                    simp
                    omega
              rw [hsum]
              rfl
          · rw [ih l ql hlt hrest hroom,
              List.filter_cons_of_neg (by simpa [offersQuest, hi] using hoff)]

/-- A player's list after a fill that offered some positions. -/
def fillMap (map : NotNormalLootItemMap P) (p : P) (offered : List Nat) :
    NotNormalLootItemMap P :=
  if offered = [] then map else map.insert p (offered.map newEntry)

theorem fillFFALoot_eq (env : LootEnv P) (l : Loot P) (p : P) (hlt : l.unlootedCount < 256) :
    l.fillFFALoot env p =
      { l with
        playerFFAItems := fillMap l.playerFFAItems p (l.ffaOffers env p)
        unlootedCount := (l.unlootedCount + (l.ffaClaims env p).length) % 256 } := by
  rw [fillFFALoot, ffaLoop_eq env p _ l [] hlt, ← ffaOffers, ffaClaims, List.length_map, fillMap]
  cases l.ffaOffers env p with
  | nil => rfl
  | cons i rest => rfl

theorem fillConditional_eq (env : LootEnv P) (l : Loot P) (p : P)
    (hlt : l.unlootedCount < 256) :
    l.fillNonQuestNonFFAConditionalLoot env p =
      { l with
        items := markCounted ((l.conditionalOffers env p).filter l.notCounted) l.items
        playerNonQuestNonFFAConditionalItems :=
          fillMap l.playerNonQuestNonFFAConditionalItems p (l.conditionalOffers env p)
        unlootedCount :=
          (l.unlootedCount + (l.conditionalClaims env p).length) % 256 } := by
  rw [fillNonQuestNonFFAConditionalLoot, condLoop_eq env p _ l [] hlt List.nodup_range,
    ← conditionalOffers, conditionalClaims, List.length_map, fillMap]
  cases l.conditionalOffers env p with
  | nil => rfl
  | cons i rest => rfl

theorem fillQuestLoot_eq (env : LootEnv P) (l : Loot P) (p : P) (hlt : l.unlootedCount < 256)
    (hlen : l.items.length ≤ maxNrLootItems) :
    l.fillQuestLoot env p =
      { l with
        questItems := markBlocked env p (l.questOffers env p) l.questItems
        playerQuestItems := fillMap l.playerQuestItems p (l.questOffers env p)
        unlootedCount := (l.unlootedCount + (l.questClaims env p).length) % 256 } := by
  rw [fillQuestLoot, questClaims]
  split <;> rename_i hfull
  · have hnone : l.questOffers env p = [] := by rw [questOffers, if_pos hfull]
    rw [hnone]
    simp [markBlocked, fillMap, Nat.mod_eq_of_lt hlt]
  · have hoffers : l.questOffers env p =
        ((List.range l.questItems.length).filter (l.offersQuest env p)).take
          (maxNrLootItems - l.items.length) := by rw [questOffers, if_neg hfull]
    rw [questLoop_eq env p _ l [] hlt List.nodup_range (by simp only [List.length_nil]; omega)]
    simp only [List.length_nil, Nat.sub_zero, ← hoffers, fillMap]
    cases l.questOffers env p with
    | nil => rfl
    | cons i rest => rfl

/-- A stack `AddItem` made. -/
def Fresh (store : LootStoreItem) (proto : LootProto) (item : LootItem P) : Prop :=
  ∃ n, item = newItem store proto n

theorem addStacks_quest {store : LootStoreItem} (proto : LootProto)
    (hq : store.needsQuest = true) (more : Nat) : ∀ (count : Nat) (l : Loot P),
    ∃ added : List (LootItem P), (∀ item ∈ added, Fresh store proto item) ∧
      addStacks store proto more count l =
        { l with questItems := l.questItems ++ added } := by
  induction more with
  | zero =>
      intro count l
      exact ⟨[], by simp, by simp [addStacks]⟩
  | succ n ih =>
      intro count l
      rw [addStacks, if_pos hq]
      split
      · obtain ⟨added, hfresh, h⟩ := ih (count - proto.maxStackSize)
          { l with questItems := l.questItems ++
              [newItem store proto (min count proto.maxStackSize)] }
        refine ⟨newItem store proto (min count proto.maxStackSize) :: added, ?_, ?_⟩
        · intro item hitem
          rcases List.mem_cons.1 hitem with rfl | hitem
          · exact ⟨_, rfl⟩
          · exact hfresh item hitem
        · rw [h]
          simp
      · exact ⟨[], by simp, by simp⟩

theorem addStacks_items {store : LootStoreItem} (proto : LootProto)
    (hq : store.needsQuest = false) (more : Nat) : ∀ (count : Nat) (l : Loot P),
    l.unlootedCount < 256 → l.items.length ≤ maxNrLootItems →
    ∃ added : List (LootItem P), (∀ item ∈ added, Fresh store proto item) ∧
      (l.items ++ added).length ≤ maxNrLootItems ∧
      addStacks store proto more count l =
        { l with
          items := l.items ++ added
          unlootedCount := (l.unlootedCount +
            if store.conditions.isEmpty && !proto.multiDrop then added.length else 0) % 256 } := by
  induction more with
  | zero =>
      intro count l hlt hlen
      exact ⟨[], by simp, by simpa using hlen, by simp [addStacks, Nat.mod_eq_of_lt hlt]⟩
  | succ n ih =>
      intro count l hlt hlen
      rw [addStacks, if_neg (by simp [hq])]
      split <;> rename_i hroom
      · let item : LootItem P := newItem store proto (min count proto.maxStackSize)
        let l' : Loot P := { l with items := l.items ++ [item] }
        have hcount : (if store.conditions.isEmpty && !proto.multiDrop then l'.countUp
            else l').unlootedCount < 256 := by
          split
          · exact Nat.mod_lt _ (by decide)
          · exact hlt
        have hitems : (if store.conditions.isEmpty && !proto.multiDrop then l'.countUp
            else l').items = l.items ++ [item] := by
          split <;> rfl
        obtain ⟨added, hfresh, hlen', h⟩ := ih (count - proto.maxStackSize) _ hcount (by
          rw [hitems, List.length_append]
          exact hroom)
        refine ⟨item :: added, ?_, ?_, ?_⟩
        · intro it hit
          rcases List.mem_cons.1 hit with rfl | hit
          · exact ⟨_, rfl⟩
          · exact hfresh it hit
        · rw [hitems] at hlen'
          simpa using hlen'
        · rw [h]
          split <;> simp [l', countUp, incr8_add]
      · exact ⟨[], by simp, by simpa using hlen, by simp [Nat.mod_eq_of_lt hlt]⟩

/-- `AddItem` appends to one of the two lists. All stacks of a call are alike:
nobody has taken them or was counted for them, and they are counted now or
not, all together. -/
theorem addItem_cases (env : LootEnv P) (l : Loot P) (store : LootStoreItem) (count : Nat)
    (hlt : l.unlootedCount < 256) (hlen : l.items.length ≤ maxNrLootItems) :
    ∃ added : List (LootItem P),
      l.addItem env store count = { l with questItems := l.questItems ++ added } ∨
      (l.items ++ added).length ≤ maxNrLootItems ∧ ∃ b, l.addItem env store count =
          { l with
            items := l.items ++ added
            unlootedCount := (l.unlootedCount + if b then added.length else 0) % 256 } ∧
        ∀ item ∈ added, ordinary item = b ∧ item.isLooted = false ∧ item.isCounted = false := by
  rw [addItem]
  cases env.template store.itemid with
  | none => exact ⟨[], Or.inl (by simp)⟩
  | some proto =>
      cases hq : store.needsQuest with
      | true =>
          obtain ⟨added, _, h⟩ := addStacks_quest proto hq _ count l
          exact ⟨added, Or.inl h⟩
      | false =>
          obtain ⟨added, hfresh, hlen', h⟩ := addStacks_items proto hq _ count l hlt hlen
          refine ⟨added, Or.inr ⟨hlen', _, h, fun item hitem => ?_⟩⟩
          obtain ⟨n, rfl⟩ := hfresh item hitem
          exact ⟨rfl, rfl, rfl⟩

end Loot

end Sunstrider.Looting
