import Sunstrider.Events.GameEventMgr

/-!
# When event quests are those of the running events

A start always adds a pair; a stop takes one copy back, unless another event that
is on lists the quest. So the pairs of a giver are those of the database followed
by some that events brought, and the question is whether there are as many of
these as the running events list. `Layered` says so, and a start keeps it. A stop
keeps it as long as no other running event has one of the quests. When another
one has, the pair stays, and nothing will ever take that copy back: `Surplus`
counts such copies, and no start or stop loses one of them.

So a table is right in all its runs exactly when no quest is listed for two
events, whoever gives it.
-/

namespace Sunstrider.Events

variable {e giver q k : Nat}

/-! ## What is claimed -/

/-- The pairs are those of the base table and of the active events, and without
an active event the table is the base table. -/
def Exact (quests : GameEventQuestMap) (active : Finset Nat) (base m : QuestRelations) : Prop :=
  (∀ giver q, q ∈ m giver ↔ q ∈ base giver ∨ ∃ e ∈ active, (giver, q) ∈ quests e) ∧
    (active = ∅ → m = base)

/-- No other active event lists a quest of the event `e`. -/
def Alone (quests : GameEventQuestMap) (active : Finset Nat) (e : Nat) : Prop :=
  ∀ p ∈ quests e, ∀ e' ∈ active, ∀ p' ∈ quests e', p'.2 = p.2 → e' = e

/-- No quest is listed for two events. -/
def Unshared (quests : GameEventQuestMap) : Prop :=
  ∀ e e' p p', p ∈ quests e → p' ∈ quests e' → p'.2 = p.2 → e' = e

/-- No listed pair is one of the base table. -/
def Extra (quests : GameEventQuestMap) (base : QuestRelations) : Prop :=
  ∀ e, ∀ p ∈ quests e, p.2 ∉ base p.1

namespace GameEventMgr

def StateExact (creatureBase goBase : QuestRelations) (g : GameEventMgr) : Prop :=
  Exact g.creatureQuests g.activeEvents creatureBase g.creatureQuestMap ∧
    Exact g.gameObjectQuests g.activeEvents goBase g.goQuestMap

/-- Both tables are right in every state of the run. -/
def StatesExact (creatureBase goBase : QuestRelations) : GameEventMgr → List EventOp → Prop
  | g, [] => g.StateExact creatureBase goBase
  | g, op :: ops =>
      g.StateExact creatureBase goBase ∧ StatesExact creatureBase goBase (g.step op) ops

def LegalRun : GameEventMgr → List EventOp → Prop
  | _, [] => True
  | g, op :: ops => g.Legal op ∧ LegalRun (g.step op) ops

/-- An event stops only while no other active one lists one of its quests. -/
def StopOk (g : GameEventMgr) (op : EventOp) : Prop :=
  match op with
  | .start _ => True
  | .stop e =>
      Alone g.creatureQuests g.activeEvents e ∧ Alone g.gameObjectQuests g.activeEvents e

def StopsOk : GameEventMgr → List EventOp → Prop
  | _, [] => True
  | g, op :: ops => g.StopOk op ∧ StopsOk (g.step op) ops

end GameEventMgr

/-! ## One table -/

/-- How many times the active events list a pair. -/
def listings (quests : GameEventQuestMap) (active : Finset Nat) (giver q : Nat) : Nat :=
  ∑ e ∈ active, (quests e).count (giver, q)

/-- The base table, followed for each giver by what the active events list. -/
def Layered (quests : GameEventQuestMap) (active : Finset Nat) (base m : QuestRelations) :
    Prop :=
  ∃ extra : Nat → List Nat, (∀ giver, m giver = base giver ++ extra giver) ∧
    ∀ giver q, (extra giver).count q = listings quests active giver q

/-- At least `k` copies of a pair that no active event accounts for. -/
def Surplus (quests : GameEventQuestMap) (active : Finset Nat) (giver q k : Nat)
    (m : QuestRelations) : Prop :=
  k + listings quests active giver q ≤ (m giver).count q

variable {quests : GameEventQuestMap} {active : Finset Nat} {base m : QuestRelations}

theorem eraseQuest_eq (quest : Nat) (l : List Nat) : eraseQuest quest l = l.erase quest := by
  induction l with
  | nil => rfl
  | cons q qs ih =>
      rw [eraseQuest, ih, List.erase_cons]
      simp only [beq_iff_eq]

theorem listings_insert (he : e ∉ active) (giver q : Nat) :
    listings quests (insert e active) giver q =
      (quests e).count (giver, q) + listings quests active giver q :=
  Finset.sum_insert he

theorem listings_erase (quests : GameEventQuestMap) (he : e ∈ active) (giver q : Nat) :
    (quests e).count (giver, q) + listings quests (active.erase e) giver q =
      listings quests active giver q :=
  Finset.add_sum_erase active (fun e => (quests e).count (giver, q)) he

theorem listings_pos_iff (giver q : Nat) :
    0 < listings quests active giver q ↔ ∃ e ∈ active, (giver, q) ∈ quests e := by
  rw [listings, Nat.pos_iff_ne_zero, Ne, Finset.sum_eq_zero_iff]
  simp only [List.count_eq_zero, not_forall, not_not]
  constructor
  · intro h
    obtain ⟨e, he, hmem⟩ := h
    exact ⟨e, he, hmem⟩
  · intro h
    obtain ⟨e, he, hmem⟩ := h
    exact ⟨e, he, hmem⟩

/-- A layered table is an exact one. -/
theorem Layered.exact (h : Layered quests active base m) : Exact quests active base m := by
  obtain ⟨extra, hm, hcount⟩ := h
  have hextra : ∀ giver q, q ∈ extra giver ↔ ∃ e ∈ active, (giver, q) ∈ quests e := by
    intro giver q
    rw [← List.count_pos_iff, hcount, listings_pos_iff]
  refine ⟨?_, ?_⟩
  · intro giver q
    rw [hm, List.mem_append, hextra]
  · intro hnone
    funext giver
    have hnil : extra giver = [] := by
      rw [List.eq_nil_iff_forall_not_mem]
      intro q hq
      obtain ⟨e, he, -⟩ := (hextra giver q).1 hq
      simp [hnone] at he
    rw [hm, hnil, List.append_nil]

/-- Activation appends the pairs of the event, giver by giver. -/
theorem updateQuests_true (except : Nat → Bool) (l : List QuestRelation) (giver : Nat) :
    ∀ m : QuestRelations, updateQuests except true l m giver =
      m giver ++ (l.filter (fun p => p.1 = giver)).map Prod.snd := by
  induction l with
  | nil =>
      intro m
      simp [updateQuests]
  | cons p l ih =>
      intro m
      have hstep : updateQuests except true (p :: l) m =
          updateQuests except true l (m.insert p) := rfl
      rw [hstep, ih]
      by_cases hp : p.1 = giver
      · simp [QuestRelations.insert, hp]
      · simp [QuestRelations.insert, hp, Ne.symm hp]

theorem count_ofGiver (l : List QuestRelation) (giver q : Nat) :
    ((l.filter (fun p => p.1 = giver)).map Prod.snd).count q = l.count (giver, q) := by
  induction l with
  | nil => rfl
  | cons p l ih =>
      obtain ⟨giver', q'⟩ := p
      rw [List.count_cons, ← ih]
      by_cases hg : giver' = giver
      · simp [hg, List.count_cons, Prod.mk.injEq]
      · simp [hg, Prod.mk.injEq]

/-- Without the quests being needed by others, deactivation takes back a copy for
each pair of the list, and the base table stays. -/
theorem updateQuests_false (except : Nat → Bool) {l : List QuestRelation}
    (hexcept : ∀ p ∈ l, except p.2 = false) (hbase : ∀ p ∈ l, p.2 ∉ base p.1) :
    ∀ {m : QuestRelations} {extra : Nat → List Nat},
      (∀ giver, m giver = base giver ++ extra giver) →
      ∃ extra' : Nat → List Nat,
        (∀ giver, updateQuests except false l m giver = base giver ++ extra' giver) ∧
        ∀ giver q, (extra' giver).count q = (extra giver).count q - l.count (giver, q) := by
  induction l with
  | nil =>
      intro m extra hm
      exact ⟨extra, hm, fun giver q => by simp⟩
  | cons p l ih =>
      intro m extra hm
      have hp := hexcept p (by simp)
      have hstep : updateQuests except false (p :: l) m =
          updateQuests except false l (m.remove p) := by
        simp [updateQuests, hp]
      have hremove : ∀ giver, m.remove p giver =
          base giver ++ Function.update extra p.1 ((extra p.1).erase p.2) giver := by
        intro giver
        rw [QuestRelations.remove, eraseQuest_eq, Function.update_apply, Function.update_apply]
        split <;> rename_i hg
        · rw [hm, hg, List.erase_append_right _ (hbase p (by simp))]
        · exact hm giver
      obtain ⟨extra', hextra', hcount⟩ := ih (fun p' hp' => hexcept p' (by simp [hp']))
        (fun p' hp' => hbase p' (by simp [hp'])) hremove
      refine ⟨extra', ?_, ?_⟩
      · rw [hstep]
        exact hextra'
      · intro giver q
        obtain ⟨giver', q'⟩ := p
        rw [hcount, List.count_cons, Function.update_apply]
        by_cases hg : giver = giver'
        · subst hg
          rw [if_pos rfl, List.count_erase]
          simp only [beq_iff_eq, Prod.mk.injEq, true_and]
          omega
        · rw [if_neg hg]
          simp [Prod.mk.injEq, Ne.symm hg]

theorem count_remove (m : QuestRelations) (p : QuestRelation) (giver q : Nat) :
    (m giver).count q ≤ (m.remove p giver).count q + if p = (giver, q) then 1 else 0 := by
  obtain ⟨giver', q'⟩ := p
  rw [QuestRelations.remove, eraseQuest_eq, Function.update_apply]
  by_cases hg : giver = giver'
  · subst hg
    rw [if_pos rfl, List.count_erase]
    simp only [beq_iff_eq, Prod.mk.injEq, true_and]
    omega
  · rw [if_neg hg]
    omega

/-- Deactivation takes back at most as many copies of a pair as the list has, and
none when another event has the quest. -/
theorem count_updateQuests_false (except : Nat → Bool) (l : List QuestRelation)
    (giver q : Nat) : ∀ m : QuestRelations,
      (m giver).count q ≤ (updateQuests except false l m giver).count q +
        (if except q then 0 else l.count (giver, q)) := by
  induction l with
  | nil =>
      intro m
      simp [updateQuests]
  | cons p l ih =>
      intro m
      have hstep : updateQuests except false (p :: l) m =
          updateQuests except false l (if except p.2 then m else m.remove p) := by
        simp only [updateQuests, List.foldl_cons, Bool.false_eq_true, if_false]
      have hrest := ih (if except p.2 then m else m.remove p)
      have hone := count_remove m p giver q
      rw [hstep, List.count_cons]
      simp only [beq_iff_eq]
      by_cases hp : except p.2 = true
      · simp only [if_pos hp] at hrest ⊢
        split at hrest <;> rename_i hq
        · simpa [hq] using hrest
        · rw [if_neg hq]
          omega
      · simp only [if_neg hp] at hrest ⊢
        split at hrest <;> rename_i hq
        · -- the quest of this pair is another one
          have hne : p ≠ (giver, q) := by
            intro heq
            exact hp (heq ▸ hq)
          rw [if_neg hne] at hone
          rw [if_pos hq]
          omega
        · rw [if_neg hq]
          omega

/-! ## A start and a stop, for one table -/

theorem not_except_of_alone (he : Alone quests active e) :
    ∀ p ∈ quests e, hasQuestActiveEventExcept quests (active.erase e) p.2 e = false := by
  intro p hp
  rw [hasQuestActiveEventExcept, decide_eq_false_iff_not]
  intro hother
  obtain ⟨e', he', hne, p', hp', hq⟩ := hother
  exact hne (he p hp e' (Finset.mem_of_mem_erase he') p' hp' hq)

theorem Layered.start (h : Layered quests active base m) (he : e ∉ active) (except : Nat → Bool) :
    Layered quests (insert e active) base (updateQuests except true (quests e) m) := by
  obtain ⟨extra, hm, hcount⟩ := h
  refine ⟨fun giver => extra giver ++ ((quests e).filter (fun p => p.1 = giver)).map Prod.snd,
    ?_, ?_⟩
  · intro giver
    rw [updateQuests_true, hm, List.append_assoc]
  · intro giver q
    rw [List.count_append, count_ofGiver, hcount, listings_insert he, Nat.add_comm]

theorem Layered.stop (h : Layered quests active base m) (hbase : Extra quests base)
    (he : e ∈ active) (halone : Alone quests active e) :
    Layered quests (active.erase e) base
      (updateQuests (fun q => hasQuestActiveEventExcept quests (active.erase e) q e) false
        (quests e) m) := by
  obtain ⟨extra, hm, hcount⟩ := h
  obtain ⟨extra', hm', hcount'⟩ :=
    updateQuests_false (fun q => hasQuestActiveEventExcept quests (active.erase e) q e)
      (not_except_of_alone halone) (hbase e) hm
  refine ⟨extra', hm', ?_⟩
  intro giver q
  have hlist := listings_erase quests he giver q
  rw [hcount', hcount]
  omega

theorem Surplus.start (h : Surplus quests active giver q k m) (he : e ∉ active)
    (except : Nat → Bool) :
    Surplus quests (insert e active) giver q k (updateQuests except true (quests e) m) := by
  rw [Surplus] at h ⊢
  rw [updateQuests_true, List.count_append, count_ofGiver, listings_insert he]
  omega

theorem Surplus.stop (h : Surplus quests active giver q k m) (he : e ∈ active)
    (except : Nat → Bool) :
    Surplus quests (active.erase e) giver q k (updateQuests except false (quests e) m) := by
  have hlist := listings_erase quests he giver q
  have hcount := count_updateQuests_false except (quests e) giver q m
  rw [Surplus] at h ⊢
  split at hcount <;> omega

/-- A stop leaves a copy behind when another active event has the quest. -/
theorem Surplus.stop_shared (h : Surplus quests active giver q 0 m) {e' : Nat} (he : e ∈ active)
    (he' : e' ∈ active) (hne : e' ≠ e) (hp : (giver, q) ∈ quests e) {p' : QuestRelation}
    (hp' : p' ∈ quests e') (hq : p'.2 = q) :
    Surplus quests (active.erase e) giver q 1
      (updateQuests (fun q => hasQuestActiveEventExcept quests (active.erase e) q e) false
        (quests e) m) := by
  have hlist := listings_erase quests he giver q
  have hpos := List.count_pos_iff.2 hp
  have hexcept : hasQuestActiveEventExcept quests (active.erase e) q e = true := by
    rw [hasQuestActiveEventExcept, decide_eq_true_eq]
    exact ⟨e', Finset.mem_erase.2 ⟨hne, he'⟩, hne, p', hp', hq⟩
  have hcount := count_updateQuests_false
    (fun q => hasQuestActiveEventExcept quests (active.erase e) q e) (quests e) giver q m
  rw [if_pos hexcept] at hcount
  rw [Surplus] at h ⊢
  omega

/-- With a surplus a table is not the base table, even without an active event. -/
theorem Surplus.not_exact (h : Surplus quests ∅ giver q (k + 1) m) (hbase : q ∉ base giver) :
    ¬ Exact quests ∅ base m := by
  intro hexact
  have hmem : q ∈ m giver := by
    rw [← List.count_pos_iff]
    rw [Surplus] at h
    omega
  rw [hexact.2 rfl] at hmem
  exact hbase hmem

/-! ## A run -/

namespace GameEventMgr

variable {creatureBase goBase : QuestRelations}

variable {g : GameEventMgr} {e giver q n : Nat} {ops : List EventOp} {side : Side}

/-- The start of an event that may start. -/
theorem startEvent_open
    (h : (wickermanFestival ≤ e ∧ e ≤ horsenameRazorHill) → hallowsEnd ∈ g.activeEvents) :
    g.startEvent e = (g.addActiveEvent e).applyNewEvent e := by
  rw [startEvent, if_neg]
  intro hclosed
  exact hclosed.2 (by simpa [isActiveEvent] using h hclosed.1)

/-- Both tables are layered. -/
def Kept (creatureBase goBase : QuestRelations) (g : GameEventMgr) : Prop :=
  Layered g.creatureQuests g.activeEvents creatureBase g.creatureQuestMap ∧
    Layered g.gameObjectQuests g.activeEvents goBase g.goQuestMap

theorem loaded_kept (creatureQuests gameObjectQuests : GameEventQuestMap)
    (creatureBase goBase : QuestRelations) :
    (loaded creatureQuests gameObjectQuests creatureBase goBase).Kept creatureBase goBase := by
  have hnone : ∀ (quests : GameEventQuestMap) (base : QuestRelations),
      Layered quests ∅ base base := by
    intro quests base
    exact ⟨fun _ => [], by simp, by simp [listings]⟩
  exact ⟨hnone _ _, hnone _ _⟩

theorem Kept.step (h : g.Kept creatureBase goBase) (hc : Extra g.creatureQuests creatureBase)
    (hgo : Extra g.gameObjectQuests goBase) {op : EventOp} (hlegal : g.Legal op)
    (hok : g.StopOk op) : (g.step op).Kept creatureBase goBase := by
  cases op with
  | start e =>
      show (g.startEvent e).Kept creatureBase goBase
      rw [startEvent]
      split
      · exact h
      · exact
          ⟨h.1.start hlegal fun q => (g.addActiveEvent e).hasCreatureQuestActiveEventExcept q e,
            h.2.start hlegal fun q => (g.addActiveEvent e).hasGameObjectQuestActiveEventExcept q e⟩
  | stop e => exact ⟨h.1.stop hc hlegal hok.1, h.2.stop hgo hlegal hok.2⟩

theorem step_quests (g : GameEventMgr) (op : EventOp) :
    (g.step op).creatureQuests = g.creatureQuests ∧
      (g.step op).gameObjectQuests = g.gameObjectQuests := by
  cases op with
  | start e =>
      rw [step, startEvent]
      split <;> exact ⟨rfl, rfl⟩
  | stop e => exact ⟨rfl, rfl⟩

theorem Kept.statesExact :
    ∀ {g : GameEventMgr}, g.Kept creatureBase goBase →
      Extra g.creatureQuests creatureBase → Extra g.gameObjectQuests goBase →
      g.LegalRun ops → g.StopsOk ops → g.StatesExact creatureBase goBase ops := by
  induction ops with
  | nil =>
      intro g h _ _ _ _
      exact ⟨h.1.exact, h.2.exact⟩
  | cons op ops ih =>
      intro g h hc hgo hlegal hok
      obtain ⟨hcq, hgq⟩ := step_quests g op
      refine ⟨⟨h.1.exact, h.2.exact⟩, ?_⟩
      exact ih (h.step hc hgo hlegal.1 hok.1) (hcq ▸ hc) (hgq ▸ hgo) hlegal.2 hok.2

theorem stopsOk_of_unshared :
    ∀ {g : GameEventMgr}, Unshared g.creatureQuests → Unshared g.gameObjectQuests →
      g.StopsOk ops := by
  induction ops with
  | nil =>
      intro g _ _
      trivial
  | cons op ops ih =>
      intro g hc hgo
      obtain ⟨hcq, hgq⟩ := step_quests g op
      refine ⟨?_, ih (hcq ▸ hc) (hgq ▸ hgo)⟩
      cases op with
      | start e => trivial
      | stop e =>
          refine ⟨?_, ?_⟩
          · intro p hp e' _ p' hp' hq
            exact hc e e' p p' hp hp' hq
          · intro p hp e' _ p' hp' hq
            exact hgo e e' p p' hp hp' hq

/-! ## A quest of two events

Both events start and stop inside a Hallow's End, which keeps the gate of the
start open; the one that stops first is not Hallow's End itself. -/

/-- The two sides `UpdateEventQuests` treats alike. -/
inductive Side
  | creature
  | gameObject

def questsOf (g : GameEventMgr) : Side → GameEventQuestMap
  | .creature => g.creatureQuests
  | .gameObject => g.gameObjectQuests

def Side.baseOf (creatureBase goBase : QuestRelations) : Side → QuestRelations
  | .creature => creatureBase
  | .gameObject => goBase

def questMapOf (g : GameEventMgr) : Side → QuestRelations
  | .creature => g.creatureQuestMap
  | .gameObject => g.goQuestMap

/-- The active events are `active`, and on one side there are `n` copies of a pair
too many. -/
def SurplusAt (g : GameEventMgr) (active : Finset Nat) (side : Side) (giver q n : Nat) : Prop :=
  g.activeEvents = active ∧ Surplus (g.questsOf side) active giver q n (g.questMapOf side)

theorem step_quests_side (g : GameEventMgr) (op : EventOp) (side : Side) :
    (g.step op).questsOf side = g.questsOf side := by
  obtain ⟨hc, hgo⟩ := step_quests g op
  cases side with
  | creature => exact hc
  | gameObject => exact hgo

theorem step_start (hopen : e = hallowsEnd ∨ hallowsEnd ∈ g.activeEvents) :
    (g.step (.start e)).activeEvents = insert e g.activeEvents ∧
      ∀ side, ∃ except, (g.step (.start e)).questMapOf side =
        updateQuests except true (g.questsOf side e) (g.questMapOf side) := by
  have hstart : g.step (.start e) = (g.addActiveEvent e).applyNewEvent e := by
    refine startEvent_open ?_
    intro hclosed
    rcases hopen with heq | hmem
    · rw [heq, wickermanFestival, hallowsEnd] at hclosed
      omega
    · exact hmem
  rw [hstart]
  refine ⟨rfl, ?_⟩
  intro side
  cases side with
  | creature =>
      exact ⟨fun q => (g.addActiveEvent e).hasCreatureQuestActiveEventExcept q e, rfl⟩
  | gameObject =>
      exact ⟨fun q => (g.addActiveEvent e).hasGameObjectQuestActiveEventExcept q e, rfl⟩

theorem step_stop (g : GameEventMgr) (e : Nat) (side : Side) :
    (g.step (.stop e)).questMapOf side =
      updateQuests
        (fun q => hasQuestActiveEventExcept (g.questsOf side) (g.activeEvents.erase e) q e)
        false (g.questsOf side e) (g.questMapOf side) := by
  cases side <;> rfl

theorem SurplusAt.start (h : g.SurplusAt active side giver q n) (he : e ∉ active)
    (hopen : e = hallowsEnd ∨ hallowsEnd ∈ active) :
    (g.step (.start e)).SurplusAt (insert e active) side giver q n := by
  obtain ⟨hactive, h⟩ := h
  obtain ⟨hactive', hmap⟩ := step_start (hactive ▸ hopen)
  obtain ⟨except, hmap⟩ := hmap side
  refine ⟨by rw [hactive', hactive], ?_⟩
  rw [step_quests_side, hmap]
  exact Surplus.start h he except

theorem SurplusAt.stop (h : g.SurplusAt active side giver q n) (he : e ∈ active) :
    (g.step (.stop e)).SurplusAt (active.erase e) side giver q n := by
  obtain ⟨hactive, h⟩ := h
  refine ⟨by rw [← hactive]; rfl, ?_⟩
  rw [step_quests_side, step_stop]
  exact Surplus.stop h he _

theorem SurplusAt.stop_shared (h : g.SurplusAt active side giver q 0) {e' : Nat} (he : e ∈ active)
    (he' : e' ∈ active) (hne : e' ≠ e) (hp : (giver, q) ∈ g.questsOf side e) {p' : QuestRelation}
    (hp' : p' ∈ g.questsOf side e') (hq : p'.2 = q) :
    (g.step (.stop e)).SurplusAt (active.erase e) side giver q 1 := by
  obtain ⟨hactive, h⟩ := h
  refine ⟨by rw [← hactive]; rfl, ?_⟩
  rw [step_quests_side, step_stop, hactive]
  exact Surplus.stop_shared h he he' hne hp hp' hq

theorem StatesExact.last :
    ∀ {g : GameEventMgr}, g.StatesExact creatureBase goBase ops →
      (ops.foldl step g).StateExact creatureBase goBase := by
  induction ops with
  | nil =>
      intro g h
      exact h
  | cons op ops ih =>
      intro g h
      exact ih h.2

/-- A run that ends with nothing on and a copy too many. -/
theorem not_statesExact (hsurplus : (ops.foldl step g).SurplusAt ∅ side giver q 1)
    (hbase : q ∉ side.baseOf creatureBase goBase giver) :
    ¬ g.StatesExact creatureBase goBase ops := by
  intro hexact
  obtain ⟨hnone, hsurplus⟩ := hsurplus
  have hlast := hexact.last
  rw [StateExact, hnone] at hlast
  cases side with
  | creature => exact hsurplus.not_exact hbase hlast.1
  | gameObject => exact hsurplus.not_exact hbase hlast.2

/-- Hallow's End with `e` in it, or with `e` and `e'`, which share a quest. -/
def sharing (e e' : Nat) : List EventOp :=
  if e' = hallowsEnd then [.start hallowsEnd, .start e, .stop e, .stop hallowsEnd]
  else
    [.start hallowsEnd, .start e, .start e', .stop e, .stop e', .stop hallowsEnd]

theorem SurplusAt.legal_start (h : g.SurplusAt active side giver q n) (he : e ∉ active) :
    g.Legal (.start e) := by
  show e ∉ g.activeEvents
  rw [h.1]
  exact he

theorem SurplusAt.legal_stop (h : g.SurplusAt active side giver q n) (he : e ∈ active) :
    g.Legal (.stop e) := by
  show e ∈ g.activeEvents
  rw [h.1]
  exact he

theorem sharing_run (hnone : g.activeEvents = ∅) {e' : Nat} (hne : e' ≠ e) (he : e ≠ hallowsEnd)
    (hp : (giver, q) ∈ g.questsOf side e) {p' : QuestRelation} (hp' : p' ∈ g.questsOf side e')
    (hq : p'.2 = q) :
    g.LegalRun (sharing e e') ∧
      ((sharing e e').foldl step g).SurplusAt ∅ side giver q 1 := by
  have h0 : g.SurplusAt ∅ side giver q 0 := by
    refine ⟨hnone, ?_⟩
    rw [Surplus, listings, Finset.sum_empty]
    exact Nat.zero_le _
  -- Hallow's End starts, then `e` in it
  have hn1 : hallowsEnd ∉ (∅ : Finset Nat) := Finset.notMem_empty hallowsEnd
  have h1 := h0.start hn1 (.inl rfl)
  have hn2 : e ∉ insert hallowsEnd (∅ : Finset Nat) := by simpa using he
  have h2 := h1.start hn2 (.inr (Finset.mem_insert_self _ _))
  rw [sharing]
  split <;> rename_i he'
  · -- the other event is Hallow's End itself
    subst he'
    have hm3 : e ∈ insert e (insert hallowsEnd (∅ : Finset Nat)) := by simp
    have h3 := h2.stop_shared hm3 (by simp) hne (by simpa only [step_quests_side] using hp)
      (by simpa only [step_quests_side] using hp') hq
    have hm4 : hallowsEnd ∈ (insert e (insert hallowsEnd (∅ : Finset Nat))).erase e := by
      simp [hne]
    have h4 := h3.stop hm4
    refine ⟨⟨h0.legal_start hn1, h1.legal_start hn2, h2.legal_stop hm3, h3.legal_stop hm4,
      trivial⟩, ?_⟩
    have hempty : ((insert e (insert hallowsEnd (∅ : Finset Nat))).erase e).erase hallowsEnd =
        ∅ := by
      ext x
      simp only [Finset.mem_erase, Finset.mem_insert, Finset.notMem_empty]
      tauto
    rw [hempty] at h4
    exact h4
  · have hn3 : e' ∉ insert e (insert hallowsEnd (∅ : Finset Nat)) := by simp [hne, he']
    have h3 := h2.start hn3 (.inr (by simp))
    have hm4 : e ∈ insert e' (insert e (insert hallowsEnd (∅ : Finset Nat))) := by simp
    have h4 := h3.stop_shared hm4 (by simp) hne (by simpa only [step_quests_side] using hp)
      (by simpa only [step_quests_side] using hp') hq
    have hm5 : e' ∈ (insert e' (insert e (insert hallowsEnd (∅ : Finset Nat)))).erase e := by
      simp [hne]
    have h5 := h4.stop hm5
    have hm6 : hallowsEnd ∈
        ((insert e' (insert e (insert hallowsEnd (∅ : Finset Nat)))).erase e).erase e' := by
      simp [Ne.symm he, Ne.symm he']
    have h6 := h5.stop hm6
    refine ⟨⟨h0.legal_start hn1, h1.legal_start hn2, h2.legal_start hn3, h3.legal_stop hm4,
      h4.legal_stop hm5, h5.legal_stop hm6, trivial⟩, ?_⟩
    have hempty : (((insert e' (insert e (insert hallowsEnd (∅ : Finset Nat)))).erase e).erase
        e').erase hallowsEnd = ∅ := by
      ext x
      simp only [Finset.mem_erase, Finset.mem_insert, Finset.notMem_empty]
      tauto
    rw [hempty] at h6
    exact h6

/-- When every run of a table is right, no quest of one side is listed for two events. -/
theorem unshared_of_statesExact (creatureBase goBase : QuestRelations)
    (hnone : g.activeEvents = ∅) (side : Side)
    (hbase : Extra (g.questsOf side) (side.baseOf creatureBase goBase))
    (hexact : ∀ ops, g.LegalRun ops → g.StatesExact creatureBase goBase ops) :
    Unshared (g.questsOf side) := by
  intro e e' p p' hp hp' hq
  by_contra hne
  rcases Nat.decEq e hallowsEnd with he | he
  · obtain ⟨hlegal, hsurplus⟩ := sharing_run hnone hne he hp hp' hq
    exact not_statesExact hsurplus (hbase e p hp) (hexact _ hlegal)
  · -- the two change places
    have he' : e' ≠ hallowsEnd := he ▸ hne
    obtain ⟨hlegal, hsurplus⟩ := sharing_run hnone (Ne.symm hne) he' hp' hp hq.symm
    exact not_statesExact hsurplus (hbase e' p' hp') (hexact _ hlegal)

/-- A run in which an event stops only while no other active one has a quest of its
is right in every state; and a table whose runs all are right is one that lists no
quest for two events. -/
theorem statesExact_runs (creatureQuests gameObjectQuests : GameEventQuestMap)
    (creatureBase goBase : QuestRelations) (hc : Extra creatureQuests creatureBase)
    (hgo : Extra gameObjectQuests goBase) :
    (∀ ops, (loaded creatureQuests gameObjectQuests creatureBase goBase).LegalRun ops →
        (loaded creatureQuests gameObjectQuests creatureBase goBase).StopsOk ops →
        (loaded creatureQuests gameObjectQuests creatureBase goBase).StatesExact
          creatureBase goBase ops) ∧
      ((∀ ops, (loaded creatureQuests gameObjectQuests creatureBase goBase).LegalRun ops →
          (loaded creatureQuests gameObjectQuests creatureBase goBase).StatesExact
            creatureBase goBase ops) ↔
        Unshared creatureQuests ∧ Unshared gameObjectQuests) := by
  have hkept := loaded_kept creatureQuests gameObjectQuests creatureBase goBase
  refine ⟨?_, ?_, ?_⟩
  · intro ops hlegal hok
    exact hkept.statesExact hc hgo hlegal hok
  · intro hexact
    have hside : ∀ side, Extra
        ((loaded creatureQuests gameObjectQuests creatureBase goBase).questsOf side)
        (side.baseOf creatureBase goBase) → Unshared
        ((loaded creatureQuests gameObjectQuests creatureBase goBase).questsOf side) := by
      intro side hbase
      exact unshared_of_statesExact creatureBase goBase rfl side hbase hexact
    exact ⟨hside .creature hc, hside .gameObject hgo⟩
  · intro hunshared ops hlegal
    exact hkept.statesExact hc hgo hlegal (stopsOk_of_unshared hunshared.1 hunshared.2)

/-- Events 1 and 2 list quest 7, for givers 3 and 4. -/
def twoGivers : GameEventQuestMap := fun e =>
  if e = 1 then [(3, 7)] else if e = 2 then [(4, 7)] else []

theorem statesExact_runs_twoGivers :
    (loaded twoGivers (fun _ => []) (fun _ => []) (fun _ => [])).StatesExact (fun _ => [])
      (fun _ => []) [.start 1, .stop 1, .start 2, .stop 2] := by
  have hextra : ∀ quests, Extra quests fun _ => [] := by
    intro quests e p _
    exact List.not_mem_nil
  have halone : ∀ (quests : GameEventQuestMap) (e : Nat), Alone quests {e} e := by
    intro quests e p _ e' he' p' _ _
    exact Finset.mem_singleton.1 he'
  refine (statesExact_runs twoGivers (fun _ => []) _ _ (hextra _) (hextra _)).1 _ ?_ ?_
  · exact ⟨by decide, by decide, by decide, by decide, trivial⟩
  · exact ⟨trivial, ⟨halone _ 1, halone _ 1⟩, trivial, ⟨halone _ 2, halone _ 2⟩, trivial⟩

/-- Events 1 and 2 run together: the pair of the one that stops first stays when
both are over. -/
theorem twoGivers_leftOver :
    ¬ (loaded twoGivers (fun _ => []) (fun _ => []) (fun _ => [])).StatesExact (fun _ => [])
      (fun _ => []) [.start 1, .start 2, .stop 1, .stop 2] := by
  intro hexact
  have hlast := hexact.last.1.2 (by decide)
  have hthree := congrFun hlast 3
  exact absurd hthree (by decide)

end GameEventMgr

end Sunstrider.Events
