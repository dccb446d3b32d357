import Sunstrider.Loot.Roll

/-!
# Who gets the rolled item

`CountTheRoll` chooses its branch by the tallies and its winner by the votes.
The two can disagree: a changed vote stays in the old tally, and a voter may
be gone when the roll is counted. `rollLoop_winner` and `rollLoop_tally` say
what the loop over the votes computes, for any mixture; from them the outcome
of a whole roll follows branch by branch.

The need branch starts out with the first voter as its winner, and keeps that
winner when nobody who rolled need can be reached. `Roll.Harmless` is the
exact condition under which nobody notices.
-/

set_option linter.unusedSectionVars false

namespace Sunstrider.Looting

variable {P : Type} [DecidableEq P] {M : Type} [DecidableEq M]

theorem Loot.itemAt_modifyAt (l : Loot P) (slot : Nat) (f : LootItem P → LootItem P) :
    (l.modifyAt slot f).itemAt slot = (l.itemAt slot).map f := by
  unfold modifyAt itemAt
  split <;> rename_i h
  · rw [List.getElem?_modify_eq]
    rfl
  · have h' : ¬ (l.items.modify slot f).length ≤ slot := by simpa using h
    simp only [h', if_false, List.getElem?_modify_eq]
    rfl

@[simp] theorem Loot.itemAt_countDown (l : Loot P) (slot : Nat) :
    l.countDown.itemAt slot = l.itemAt slot := rfl

/-! ## Tallies -/

namespace Roll

variable {l : Loot P} {v : RollVote} {r : Roll P} {env : RollEnv P M}
  {votes rest : List (P × RollVote)} {g : P} {s : Progress P} {item : LootItem P}

/-- How many have `v` as their vote. -/
def count (r : Roll P) (v : RollVote) : Nat := r.playerVote.countP fun e => e.2 = v

/-- The tallies are at least the votes, small enough for 8 bits, and every
player has one vote. -/
structure Tallied (r : Roll P) : Prop where
  need : r.count .need ≤ r.totalNeed
  greed : r.count .greed ≤ r.totalGreed
  pass : r.count .pass ≤ r.totalPass
  sum : r.totalPass + r.totalNeed + r.totalGreed ≤ 40
  rolling : r.totalPlayersRolling = r.playerVote.length
  players : r.playerVote.length ≤ 40
  valid : ∀ e ∈ r.playerVote, e.2 ≠ .notValid
  nodup : (r.playerVote.map Prod.fst).Nodup

/-- What is left of `Tallied` when one more vote may have come in: all that
resolving a roll relies on. -/
structure Counted (r : Roll P) : Prop where
  need : r.count .need ≤ r.totalNeed
  greed : r.count .greed ≤ r.totalGreed
  need_lt : r.totalNeed < 256
  greed_lt : r.totalGreed < 256
  nodup : (r.playerVote.map Prod.fst).Nodup

/-- A roll that has not been resolved: it was started for the members of a
raid, players voted without completing it, players left. -/
inductive Open : Roll P → Prop
  | start (itemid itemSlot : Nat) {members : List (P × Bool)} :
      members.length ≤ 40 → (members.map Prod.fst).Nodup →
      Open (start itemid itemSlot members)
  | vote {r : Roll P} (g : P) (choice : RollVote) (loot : Option (Loot P)) : Open r →
      (r.countRollVote g choice loot).complete = false → Open (r.countRollVote g choice loot)
  | leave {r : Roll P} (g : P) : Open r → Open (r.removeMember g)

/-- A roll that is resolved: its timer has run out, or a vote completed it. -/
inductive Due : Roll P → Prop
  | timer {r : Roll P} : Open r → Due r
  | vote {r : Roll P} (g : P) (choice : RollVote) (loot : Option (Loot P)) : Open r →
      r.mayVote g loot = true → (r.countRollVote g choice loot).complete = true →
      Due (r.countRollVote g choice loot)

theorem map_fst_setVote (g : P) (v : RollVote) (l : List (P × RollVote)) :
    (setVote g v l).map Prod.fst = l.map Prod.fst := by
  induction l with
  | nil => rfl
  | cons e rest ih =>
      rw [setVote]
      split <;> rename_i he
      · simp [he]
      · simp [ih]

/-- A replaced vote adds at most one to its new kind, and nothing to others. -/
theorem countP_setVote (g : P) (v w : RollVote) (l : List (P × RollVote)) :
    (setVote g v l).countP (fun e => e.2 = w) ≤
      l.countP (fun e => e.2 = w) + if v = w then 1 else 0 := by
  induction l with
  | nil => simp [setVote]
  | cons e rest ih =>
      rw [setVote]
      split
      · simp only [List.countP_cons, decide_eq_true_eq]
        split <;> split <;> omega
      · simp only [List.countP_cons, decide_eq_true_eq]
        omega

/-- The vote that leaves is one less of its kind. -/
theorem countP_eraseP_find {p q : P × RollVote → Bool} {l : List (P × RollVote)}
    {e : P × RollVote} (h : l.find? p = some e) (hq : q e = true) :
    (l.eraseP p).countP q + 1 = l.countP q := by
  induction l with
  | nil => cases h
  | cons x rest ih =>
      rw [List.find?_cons] at h
      cases hp : p x with
      | true =>
          rw [hp] at h
          obtain rfl := Option.some.inj h
          rw [List.eraseP_cons_of_pos hp, List.countP_cons_of_pos hq]
      | false =>
          rw [hp] at h
          rw [List.eraseP_cons_of_neg (by simp [hp]), List.countP_cons, List.countP_cons,
            ← ih h]
          omega

theorem start_tallied (itemid itemSlot : Nat) {members : List (P × Bool)}
    (hlen : members.length ≤ 40) (hn : (members.map Prod.fst).Nodup) :
    (start itemid itemSlot members).Tallied := by
  have hpass : members.countP (fun m => m.2) ≤ members.length := List.countP_le_length
  have hcount : ∀ v, v ≠ .pass → v ≠ .notEmitedYet →
      (start itemid itemSlot members).count v = 0 := by
    intro v h1 h2
    rw [count, start, List.countP_map, List.countP_eq_zero]
    intro m _
    cases hm : m.2 <;> simp [hm, Ne.symm h1, Ne.symm h2]
  refine ⟨?_, ?_, ?_, ?_, ?_, ?_, ?_, ?_⟩
  · rw [hcount _ (by decide) (by decide)]
    exact Nat.zero_le _
  · rw [hcount _ (by decide) (by decide)]
    exact Nat.zero_le _
  · show (members.map _).countP _ ≤ members.countP (fun m => m.2) % 256
    rw [List.countP_map, Nat.mod_eq_of_lt (by omega)]
    refine List.countP_mono_left fun m _ hm => ?_
    cases hb : m.2
    · simp [hb] at hm
    · rfl
  · show members.countP (fun m => m.2) % 256 + 0 + 0 ≤ 40
    omega
  · show members.length % 256 = (members.map _).length
    rw [List.length_map, Nat.mod_eq_of_lt (by omega)]
  · simpa [start] using hlen
  · intro e he
    obtain ⟨m, _, rfl⟩ := List.mem_map.1 he
    cases m.2 <;> simp
  · rw [start, List.map_map]
    exact hn

/-- A vote changes nothing, or sets one vote and counts it. -/
theorem countRollVote_cases (r : Roll P) (g : P) (choice : RollVote)
    (loot : Option (Loot P)) :
    r.countRollVote g choice loot = r ∨
    ∃ v, r.countRollVote g choice loot =
        { r with
          playerVote := setVote g v r.playerVote
          totalPass := if v = .pass then incr8 r.totalPass else r.totalPass
          totalNeed := if v = .need then incr8 r.totalNeed else r.totalNeed
          totalGreed := if v = .greed then incr8 r.totalGreed else r.totalGreed } ∧
      (v = .pass ∨ v = .need ∨ v = .greed) := by
  unfold countRollVote
  split
  · exact Or.inl rfl
  · cases choice with
    | pass => exact Or.inr ⟨.pass, rfl, by simp⟩
    | need => exact Or.inr ⟨.need, rfl, by simp⟩
    | greed => exact Or.inr ⟨.greed, rfl, by simp⟩
    | notEmitedYet => exact Or.inl rfl
    | notValid => exact Or.inl rfl

theorem setVote_valid (g : P) (hv : v ≠ .notValid) {l : List (P × RollVote)}
    (h : ∀ e ∈ l, e.2 ≠ .notValid) : ∀ e ∈ setVote g v l, e.2 ≠ .notValid := by
  induction l with
  | nil => simp [setVote]
  | cons x rest ih =>
      intro e he
      rw [setVote] at he
      split at he
      · rcases List.mem_cons.1 he with he | he
        · simpa [he] using hv
        · exact h e (List.mem_cons_of_mem _ he)
      · rcases List.mem_cons.1 he with he | he
        · exact h e (by simp [he])
        · exact ih (fun e he => h e (List.mem_cons_of_mem _ he)) e he

/-- A vote on a well tallied roll: the tallies stay at least the votes, and
grow by one at most. -/
theorem countRollVote_tally (h : r.Tallied) (g : P) (choice : RollVote) (loot : Option (Loot P)) :
    let r' := r.countRollVote g choice loot
    r'.count .need ≤ r'.totalNeed ∧ r'.count .greed ≤ r'.totalGreed ∧
      r'.count .pass ≤ r'.totalPass ∧
      r'.totalPass + r'.totalNeed + r'.totalGreed ≤ 41 ∧
      r'.totalPlayersRolling = r'.playerVote.length ∧
      r'.playerVote.map Prod.fst = r.playerVote.map Prod.fst ∧
      ∀ e ∈ r'.playerVote, e.2 ≠ .notValid := by
  intro r'
  obtain ⟨hneed, hgreed, hpass, hsum, hroll, _, hvalid, _⟩ := h
  rcases countRollVote_cases r g choice loot with he | ⟨v, he, hv⟩
  · rw [show r' = r from he]
    exact ⟨hneed, hgreed, hpass, by omega, hroll, rfl, hvalid⟩
  · rw [show r' = _ from he]
    have hn := countP_setVote g v .need r.playerVote
    have hg := countP_setVote g v .greed r.playerVote
    have hp := countP_setVote g v .pass r.playerVote
    have hlen : (setVote g v r.playerVote).length = r.playerVote.length := by
      simpa using congrArg List.length (map_fst_setVote g v r.playerVote)
    simp only [count] at *
    refine ⟨?_, ?_, ?_, ?_, by rw [hlen]; exact hroll, map_fst_setVote _ _ _, ?_⟩
    · rcases hv with rfl | rfl | rfl <;> simp [incr8] at * <;> omega
    · rcases hv with rfl | rfl | rfl <;> simp [incr8] at * <;> omega
    · rcases hv with rfl | rfl | rfl <;> simp [incr8] at * <;> omega
    · rcases hv with rfl | rfl | rfl <;> simp [incr8] at * <;> omega
    · exact setVote_valid g (by rcases hv with rfl | rfl | rfl <;> simp) hvalid

theorem removeMember_tallied (h : r.Tallied) (g : P) : (r.removeMember g).Tallied := by
  unfold removeMember
  split
  · exact h
  · rename_i e hf
    obtain ⟨hneed, hgreed, hpass, hsum, hroll, hlen, hvalid, hnodup⟩ := h
    have hmem : e ∈ r.playerVote := List.mem_of_find?_eq_some hf
    have hpos : 0 < r.playerVote.length := List.length_pos_of_mem hmem
    have hsub : List.Sublist (r.playerVote.eraseP fun e => e.1 = g) r.playerVote :=
      List.eraseP_sublist
    have hfound := List.find?_some hf
    have herase : (r.playerVote.eraseP fun e => e.1 = g).length =
        r.playerVote.length - 1 := List.length_eraseP_of_mem hmem hfound
    have hle : ∀ v, (r.playerVote.eraseP fun e => e.1 = g).countP (fun e => e.2 = v) ≤
        r.playerVote.countP (fun e => e.2 = v) := fun v => hsub.countP_le
    have hone : (r.playerVote.eraseP fun e => e.1 = g).countP (fun e' => e'.2 = e.2) + 1 =
        r.playerVote.countP (fun e' => e'.2 = e.2) :=
      countP_eraseP_find hf (by simp)
    have hn := hle .need
    have hg := hle .greed
    have hp := hle .pass
    have hv := hvalid e hmem
    simp only [count] at *
    have hvalid' : ∀ e' ∈ r.playerVote.eraseP (fun e => e.1 = g), e'.2 ≠ .notValid :=
      fun e' he' => hvalid e' (hsub.subset he')
    have hnodup' := hnodup.sublist (hsub.map Prod.fst)
    obtain ⟨a, v⟩ := e
    cases v with
    | notValid => exact absurd rfl hv
    | notEmitedYet =>
        refine ⟨?_, ?_, ?_, ?_, ?_, ?_, hvalid', hnodup'⟩ <;>
          simp [count, decr8] at * <;> omega
    | pass =>
        refine ⟨?_, ?_, ?_, ?_, ?_, ?_, hvalid', hnodup'⟩ <;>
          simp [count, decr8] at * <;> omega
    | need =>
        refine ⟨?_, ?_, ?_, ?_, ?_, ?_, hvalid', hnodup'⟩ <;>
          simp [count, decr8] at * <;> omega
    | greed =>
        refine ⟨?_, ?_, ?_, ?_, ?_, ?_, hvalid', hnodup'⟩ <;>
          simp [count, decr8] at * <;> omega

/-- No run of votes and leavers makes a tally smaller than its votes. -/
theorem open_tallied (h : r.Open) : r.Tallied := by
  induction h with
  | start itemid itemSlot hlen hn => exact start_tallied itemid itemSlot hlen hn
  | @vote r g choice loot _ hc ih =>
      obtain ⟨hneed, hgreed, hpass, hsum, hroll, hfst, hvalid⟩ :=
        countRollVote_tally ih g choice loot
      have hlen : (r.countRollVote g choice loot).playerVote.length =
          r.playerVote.length := by
        simpa using congrArg List.length hfst
      have hplayers := ih.players
      -- an incomplete roll still waits for a vote, so the sum stays in the raid size
      have hopen : ¬ (r.countRollVote g choice loot).totalPlayersRolling ≤ _ :=
        of_decide_eq_false hc
      refine ⟨hneed, hgreed, hpass, by omega, hroll, by omega, hvalid, ?_⟩
      rw [hfst]
      exact ih.nodup
  | leave g _ ih => exact removeMember_tallied ih g

theorem due_counted (h : r.Due) : r.Counted := by
  cases h with
  | timer ho =>
      have ht := open_tallied ho
      have hsum := ht.sum
      exact ⟨ht.need, ht.greed, by omega, by omega, ht.nodup⟩
  | @vote r g choice loot ho _ _ =>
      have ht := open_tallied ho
      obtain ⟨hneed, hgreed, _, hsum, _, hfst, _⟩ := countRollVote_tally ht g choice loot
      refine ⟨hneed, hgreed, by omega, by omega, ?_⟩
      rw [hfst]
      exact ht.nodup

/-! ## The loop over the votes -/

/-- Those who voted `v` and can be reached, in the order of the map. -/
def candidates (env : RollEnv P M) (v : RollVote) (votes : List (P × RollVote)) : List P :=
  (votes.filter fun e => e.2 = v ∧ env.reachable e.1).map Prod.fst

/-- A reachable voter voted `v`. -/
def Reached (env : RollEnv P M) (v : RollVote) (r : Roll P) : Prop :=
  ∃ g, (g, v) ∈ r.playerVote ∧ env.reachable g = true

theorem mem_candidates : g ∈ candidates env v votes ↔ (g, v) ∈ votes ∧ env.reachable g = true := by
  rw [candidates, List.mem_map]
  refine ⟨?_, fun h => ⟨(g, v), by simpa using h, rfl⟩⟩
  intro ⟨e, he, hg⟩
  obtain ⟨a, w⟩ := e
  obtain rfl : a = g := hg
  obtain ⟨h1, h2⟩ := List.mem_filter.1 he
  obtain ⟨hw, hr⟩ := of_decide_eq_true h2
  obtain rfl : w = v := hw
  exact ⟨h1, hr⟩

theorem reached_iff : Reached env v r ↔ candidates env v r.playerVote ≠ [] := by
  refine ⟨?_, fun h => ?_⟩
  · intro ⟨g, hg⟩
    exact List.ne_nil_of_mem (mem_candidates.2 hg)
  · obtain ⟨g, hg⟩ := List.exists_mem_of_ne_nil _ h
    exact ⟨g, mem_candidates.1 hg⟩

theorem candidates_cons_pos (h : env.reachable g = true) :
    candidates env v ((g, v) :: votes) = g :: candidates env v votes := by
  simp [candidates, h]

theorem candidates_cons_neg {e : P × RollVote} (h : ¬ (e.2 = v ∧ env.reachable e.1 = true)) :
    candidates env v (e :: votes) = candidates env v votes := by
  rw [candidates, List.filter_cons_of_neg (by simpa using h), ← candidates]

/-- The loop keeps the first of those with the highest number, among the
reachable voters and the winner it starts with. -/
theorem rollLoop_winner (env : RollEnv P M) (vote : RollVote) (urand : P → Nat)
    (votes : List (P × RollVote)) : ∀ (tally maxresul : Nat) (maxguid : Option P),
    (rollLoop env vote urand votes tally maxresul maxguid).2 =
      match (candidates env vote votes).argmax urand with
      | none => maxguid
      | some w => if maxresul < urand w then some w else maxguid := by
  induction votes with
  | nil =>
      intro tally maxresul maxguid
      rfl
  | cons e rest ih =>
      obtain ⟨g, v⟩ := e
      intro tally maxresul maxguid
      rw [rollLoop]
      split <;> rename_i hv
      · rw [ih, candidates_cons_neg (fun h => hv h.1)]
      · obtain rfl : v = vote := not_not.1 hv
        split <;> rename_i hr
        · have hr' : ¬ env.reachable g = true := by simpa using hr
          rw [ih, candidates_cons_neg (fun h => hr' h.2)]
        · rw [candidates_cons_pos (by simpa using hr), List.argmax_cons]
          split <;> rename_i hm
          · rw [ih]
            cases (candidates env v rest).argmax urand with
            | none => simp [hm]
            | some w =>
                by_cases hw : urand g < urand w
                · have hmw : maxresul < urand w := by omega
                  simp [hw, hmw]
                · simp [hw, hm]
          · rw [ih]
            cases (candidates env v rest).argmax urand with
            | none => simp [hm]
            | some w =>
                by_cases hw : urand g < urand w
                · simp [hw]
                · have hmw : ¬ maxresul < urand w := by omega
                  simp [hw, hm, hmw]

/-- The loop takes the unreachable voters off the tally, which does not wrap
when it counted them. -/
theorem rollLoop_tally (env : RollEnv P M) (vote : RollVote) (urand : P → Nat)
    (votes : List (P × RollVote)) : ∀ (tally maxresul : Nat) (maxguid : Option P),
    votes.countP (fun e => e.2 = vote) ≤ tally → tally < 256 →
    (rollLoop env vote urand votes tally maxresul maxguid).1 +
        votes.countP (fun e => e.2 = vote) =
      tally + (candidates env vote votes).length := by
  induction votes with
  | nil =>
      intro tally maxresul maxguid _ _
      rfl
  | cons e rest ih =>
      obtain ⟨g, v⟩ := e
      intro tally maxresul maxguid hle hlt
      rw [rollLoop]
      split <;> rename_i hv
      · rw [List.countP_cons_of_neg (by simpa using hv)] at hle ⊢
        rw [ih _ _ _ hle hlt, candidates_cons_neg (fun h => hv h.1)]
      · obtain rfl : v = vote := not_not.1 hv
        rw [List.countP_cons_of_pos (by simp)] at hle ⊢
        split <;> rename_i hr
        · have hr' : ¬ env.reachable g = true := by simpa using hr
          have hdecr : decr8 tally = tally - 1 := by
            rw [decr8]
            omega
          have h := ih (decr8 tally) maxresul maxguid (by omega) (by omega)
          rw [candidates_cons_neg (fun h => hr' h.2)]
          omega
        · rw [candidates_cons_pos (by simpa using hr), List.length_cons]
          split
          · have h := ih tally (urand g) (some g) (by omega) hlt
            omega
          · have h := ih tally maxresul maxguid (by omega) hlt
            omega

/-- With numbers from 1 on, the loop that starts at 0 ends with the highest
reachable voter, if there is one. -/
theorem rollLoop_zero {vote : RollVote} {urand : P → Nat} (hpos : ∀ g, 1 ≤ urand g)
    (votes : List (P × RollVote)) (tally : Nat) (maxguid : Option P) :
    (rollLoop env vote urand votes tally 0 maxguid).2 =
      ((candidates env vote votes).argmax urand).or maxguid := by
  rw [rollLoop_winner]
  cases (candidates env vote votes).argmax urand with
  | none => rfl
  | some w =>
      have hw : 0 < urand w := hpos w
      simp [hw]

/-! ## The phases of `countTheRoll` -/

/-- Where the item is awarded: handed over if there is room, else unblocked. -/
theorem award_spec (env : RollEnv P M) (r : Roll P) (hi : s.loot.itemAt r.itemSlot = some item)
    (g : P) :
    (award env r s g).totalNeed = s.totalNeed ∧
      (award env r s g).totalGreed = s.totalGreed ∧
      ∃ item', (award env r s g).loot.itemAt r.itemSlot = some item' ∧
        item'.count = item.count ∧
        if env.canStoreNewItem s.recipients g r.itemid item.count then
          (award env r s g).recipients = s.recipients ++ [g]
        else (award env r s g).recipients = s.recipients ∧ item'.isBlocked = false := by
  unfold award
  simp only [hi]
  split <;> rename_i hc
  · refine ⟨rfl, rfl, { item with isLooted := true }, ?_, rfl, by simp⟩
    rw [Loot.itemAt_countDown, Loot.itemAt_modifyAt, hi]
    rfl
  · refine ⟨rfl, rfl, { item with isBlocked := false, rollWinnerGUID := some g }, ?_, rfl,
      by simp⟩
    rw [Loot.itemAt_modifyAt, hi]
    rfl

theorem needPhase_skip (env : RollEnv P M) (r : Roll P) (h : s.totalNeed = 0 ∨ r.playerVote = []) :
    needPhase env r s = s := by
  unfold needPhase
  rcases h with h | h
  · rw [if_neg (by omega)]
  · simp [h]

/-- The need branch: the highest reachable NEED voter, or else the first voter,
whatever that one voted. -/
theorem needPhase_eq (env : RollEnv P M) (r : Roll P) (hpos : 0 < s.totalNeed) {d : P × RollVote}
    (hv : r.playerVote = d :: rest)
    (hg : ((candidates env .need r.playerVote).argmax env.needRoll).or (some d.1) = some g) :
    needPhase env r s =
      let s' := { s with
        totalNeed := (rollLoop env .need env.needRoll r.playerVote s.totalNeed 0 (some d.1)).1 }
      if hasSession (env.findPlayer g) then award env r s' g else s' := by
  have hwin : (rollLoop env .need env.needRoll r.playerVote s.totalNeed 0 (some d.1)).2 =
      some g := by
    rw [rollLoop_zero env.needRoll_pos, hg]
  rw [hv] at hwin ⊢
  unfold needPhase
  rw [if_pos hpos, hv]
  simp only [hwin]

theorem greedPhase_skip (env : RollEnv P M) (r : Roll P)
    (h : s.totalNeed ≠ 0 ∨ s.totalGreed = 0 ∨ r.playerVote = []) : greedPhase env r s = s := by
  unfold greedPhase
  rcases h with h | h | h
  · rw [if_neg (by omega)]
  · rw [if_neg (by omega)]
  · simp [h]

/-- The greed branch without a reachable GREED voter. -/
theorem greedPhase_nobody (env : RollEnv P M) (r : Roll P) (hn : s.totalNeed = 0)
    (hv : r.playerVote ≠ []) (hc : candidates env .greed r.playerVote = []) :
    greedPhase env r s = { s with totalGreed := 0 } := by
  rcases Nat.eq_zero_or_pos s.totalGreed with hz | hpos
  · rw [greedPhase_skip env r (Or.inr (Or.inl hz)), ← hz]
  · have hwin : (rollLoop env .greed env.greedRoll r.playerVote s.totalGreed 0 none).2 =
        none := by
      rw [rollLoop_zero env.greedRoll_pos, hc]
      rfl
    unfold greedPhase
    rw [if_pos ⟨hn, hpos⟩]
    split
    · contradiction
    · simp only [hwin]

/-- The greed branch with a winner. -/
theorem greedPhase_winner (env : RollEnv P M) (r : Roll P) (hn : s.totalNeed = 0)
    (hpos : 0 < s.totalGreed) {w : P}
    (hw : (candidates env .greed r.playerVote).argmax env.greedRoll = some w) :
    greedPhase env r s =
      let s' := { s with
        totalGreed := (rollLoop env .greed env.greedRoll r.playerVote s.totalGreed 0 none).1 }
      if hasSession (env.findConnectedPlayer w) then award env r s' w else s' := by
  have hwin : (rollLoop env .greed env.greedRoll r.playerVote s.totalGreed 0 none).2 =
      some w := by
    rw [rollLoop_zero env.greedRoll_pos, hw]
    rfl
  unfold greedPhase
  rw [if_pos ⟨hn, hpos⟩]
  split
  · rename_i hv
    rw [hv] at hw
    cases hw
  · simp only [hwin]

@[simp] theorem allPassedPhase_recipients (r : Roll P) (s : Progress P) :
    (allPassedPhase r s).recipients = s.recipients := by
  unfold allPassedPhase
  split <;> rfl

theorem allPassedPhase_itemAt (r : Roll P) (hi : s.loot.itemAt r.itemSlot = some item) :
    ∃ item', (allPassedPhase r s).loot.itemAt r.itemSlot = some item' ∧
      (item'.isBlocked = false ↔
        item.isBlocked = false ∨ (s.totalNeed = 0 ∧ s.totalGreed = 0)) := by
  unfold allPassedPhase
  split <;> rename_i h
  · refine ⟨{ item with isBlocked := false }, ?_, by simp [h]⟩
    rw [Loot.itemAt_modifyAt, hi]
    rfl
  · exact ⟨item, hi, by simp [h]⟩

/-! ## The outcome -/

/-- The rolled item is handed over at most once, to somebody who voted NEED if
a reachable voter did and GREED if not; if no reachable voter wants it nobody
gets it and it is not blocked any more. -/
structure AwardOk (env : RollEnv P M) (r : Roll P) (s : Progress P) : Prop where
  once : s.recipients.length ≤ 1
  need : Reached env .need r → ∀ g ∈ s.recipients, (g, RollVote.need) ∈ r.playerVote
  greed : ¬ Reached env .need r → ∀ g ∈ s.recipients, (g, RollVote.greed) ∈ r.playerVote
  nobody : ¬ Reached env .need r → ¬ Reached env .greed r →
    s.recipients = [] ∧
      ∀ item, s.loot.itemAt r.itemSlot = some item → item.isBlocked = false

/-- The first voter, whom the need branch awards when nobody else rolled in
it, can be awarded. -/
def firstTakes (env : RollEnv P M) (r : Roll P) (item : LootItem P) (d : P) : Bool :=
  hasSession (env.findPlayer d) && env.canStoreNewItem [] d r.itemid item.count

/-- When a roll is resolved as it should be: the need branch is not taken, or
somebody rolls in it; or else its default winner, the first voter, may have
the item and no greed roll gives it away again; or the first voter cannot be
given it, and a greed roll, an empty tally, or full bags unblock it. -/
def Harmless (env : RollEnv P M) (r : Roll P) (item : LootItem P) : Prop :=
  match r.playerVote with
  | [] => (r.totalNeed = 0 ∧ r.totalGreed = 0) ∨ item.isBlocked = false
  | (d, v) :: _ =>
      r.totalNeed = 0 ∨ Reached env .need r ∨
      (firstTakes env r item d = true ∧ v = .greed ∧ Reached env .greed r ∧
        (r.totalNeed = r.count .need → ∀ w,
          (candidates env .greed r.playerVote).argmax env.greedRoll = some w →
          hasSession (env.findConnectedPlayer w) = true →
          env.canStoreNewItem [d] w r.itemid item.count = false)) ∨
      (firstTakes env r item d = false ∧
        (Reached env .greed r ∨ r.totalNeed = r.count .need ∨
          hasSession (env.findPlayer d) = true ∨ item.isBlocked = false))

theorem countTheRoll_eq (env : RollEnv P M) (r : Roll P) (l : Loot P) :
    countTheRoll env r l = allPassedPhase r
      (greedPhase env r (needPhase env r ⟨l, [], r.totalNeed, r.totalGreed⟩)) := rfl

theorem not_reached_of_count (h : r.count v = 0) : ¬ Reached env v r := by
  intro ⟨g, hg, _⟩
  exact List.countP_eq_zero.1 h (g, v) hg (by simp)

/-- From the greed branch on, when it is entered with no NEED left: nobody to
win and the item is free, or the winner gets it if there is room. -/
theorem greed_outcome (env : RollEnv P M) (hr : r.Counted)
    (hi : s.loot.itemAt r.itemSlot = some item) (hn : s.totalNeed = 0)
    (hg : s.totalGreed = r.totalGreed) (hv : r.playerVote ≠ []) :
    (¬ Reached env .greed r →
      (allPassedPhase r (greedPhase env r s)).recipients = s.recipients ∧
      ∃ item', (allPassedPhase r (greedPhase env r s)).loot.itemAt r.itemSlot = some item' ∧
        item'.isBlocked = false) ∧
    (Reached env .greed r → ∃ w,
      (candidates env .greed r.playerVote).argmax env.greedRoll = some w ∧
      (allPassedPhase r (greedPhase env r s)).recipients =
        if hasSession (env.findConnectedPlayer w) = true ∧
            env.canStoreNewItem s.recipients w r.itemid item.count = true then
          s.recipients ++ [w]
        else s.recipients) := by
  refine ⟨fun hreach => ?_, fun hreach => ?_⟩
  · have hc : candidates env .greed r.playerVote = [] := by
      simpa [reached_iff] using hreach
    rw [greedPhase_nobody env r hn hv hc]
    obtain ⟨item', hi', hb⟩ :=
      allPassedPhase_itemAt r (s := { s with totalGreed := 0 }) hi
    refine ⟨allPassedPhase_recipients _ _, item', hi', hb.2 (Or.inr ⟨hn, rfl⟩)⟩
  · have hc := reached_iff.1 hreach
    cases hw : (candidates env .greed r.playerVote).argmax env.greedRoll with
    | none => exact absurd (List.argmax_eq_none.1 hw) hc
    | some w =>
        have hcount : 0 < r.count .greed := by
          obtain ⟨g, hg, _⟩ := hreach
          exact List.countP_pos_iff.2 ⟨_, hg, by simp⟩
        have hle := hr.greed
        rw [allPassedPhase_recipients, greedPhase_winner env r hn (by omega) hw]
        refine ⟨w, rfl, ?_⟩
        simp only
        split <;> rename_i hs
        · obtain ⟨_, _, item', _, _, h⟩ := award_spec env r (s := { s with
            totalGreed := (rollLoop env .greed env.greedRoll r.playerVote
              s.totalGreed 0 none).1 }) hi w
          split at h <;> rename_i hc'
          · rw [h, if_pos ⟨hs, hc'⟩]
          · rw [h.1, if_neg fun h => hc' h.2]
        · rw [if_neg fun h => hs h.1]

/-- Votes, but no NEED in the tally: greed decides. -/
theorem awardOk_of_no_need (env : RollEnv P M) (hr : r.Counted)
    (hi : l.itemAt r.itemSlot = some item) (hn : r.totalNeed = 0) (hv : r.playerVote ≠ []) :
    AwardOk env r (countTheRoll env r l) := by
  have hcount := hr.need
  have hnone : ¬ Reached env .need r := not_reached_of_count (by omega)
  have hskip : needPhase env r ⟨l, [], r.totalNeed, r.totalGreed⟩ = _ :=
    needPhase_skip env r (Or.inl hn)
  obtain ⟨h0, h1⟩ := greed_outcome env hr (s := ⟨l, [], r.totalNeed, r.totalGreed⟩) hi hn
    rfl hv
  rw [countTheRoll_eq, hskip]
  by_cases hreach : Reached env .greed r
  · obtain ⟨w, hw, hrec⟩ := h1 hreach
    have hmem := (mem_candidates.1 (List.argmax_mem hw)).1
    refine ⟨?_, fun h => absurd h hnone, fun _ g hg => ?_, fun _ h => absurd hreach h⟩
    · rw [hrec]
      split <;> simp
    · rw [hrec] at hg
      split at hg
      · obtain rfl : g = w := by simpa using hg
        exact hmem
      · simp at hg
  · obtain ⟨hrec, item', hi', hb⟩ := h0 hreach
    refine ⟨by rw [hrec]; simp, fun h => absurd h hnone, fun _ g hg => ?_, fun _ _ => ?_⟩
    · rw [hrec] at hg
      simp at hg
    · refine ⟨hrec, fun it hit => ?_⟩
      rw [hi'] at hit
      obtain rfl := Option.some.inj hit
      exact hb

/-- A reachable NEED voter: the winner is one of those, and the other branches
are not entered. -/
theorem awardOk_of_reached (env : RollEnv P M) (hr : r.Counted)
    (hi : l.itemAt r.itemSlot = some item) (hreach : Reached env .need r) :
    AwardOk env r (countTheRoll env r l) := by
  obtain ⟨g, hg, _⟩ := id hreach
  have hcount : 0 < r.count .need := List.countP_pos_iff.2 ⟨_, hg, by simp⟩
  have hle := hr.need
  have hne := reached_iff.1 hreach
  cases hvotes : r.playerVote with
  | nil =>
      rw [hvotes] at hg
      cases hg
  | cons d rest =>
      cases hw : (candidates env .need r.playerVote).argmax env.needRoll with
      | none => exact absurd (List.argmax_eq_none.1 hw) hne
      | some w =>
          have hmem := (mem_candidates.1 (List.argmax_mem hw)).1
          have htally := rollLoop_tally env .need env.needRoll r.playerVote r.totalNeed 0
            (some d.1) hle hr.need_lt
          have hlen := List.length_pos_iff.2 hne
          have hcount' : r.count .need = r.playerVote.countP fun e => e.2 = .need := rfl
          have heq := needPhase_eq env r (s := ⟨l, [], r.totalNeed, r.totalGreed⟩)
            (show 0 < r.totalNeed by omega) hvotes (g := w) (by rw [hw]; rfl)
          -- some NEED is left in the tally, so greed is skipped
          have hrest : (needPhase env r ⟨l, [], r.totalNeed, r.totalGreed⟩).totalNeed ≠ 0 ∧
              ((needPhase env r ⟨l, [], r.totalNeed, r.totalGreed⟩).recipients = [] ∨
                (needPhase env r ⟨l, [], r.totalNeed, r.totalGreed⟩).recipients = [w]) := by
            rw [heq]
            simp only
            split
            · obtain ⟨ha, _, item', _, _, h⟩ := award_spec env r (s := ⟨l, [],
                (rollLoop env .need env.needRoll r.playerVote r.totalNeed 0 (some d.1)).1,
                r.totalGreed⟩) hi w
              refine ⟨by rw [ha]; simp only; omega, ?_⟩
              split at h
              · exact Or.inr h
              · exact Or.inl h.1
            · exact ⟨by simp only; omega, Or.inl rfl⟩
          obtain ⟨hnz, hrec⟩ := hrest
          rw [countTheRoll_eq, greedPhase_skip env r (Or.inl hnz)]
          refine ⟨?_, fun _ g hg => ?_, fun h => absurd hreach h, fun h => absurd hreach h⟩
          · rw [allPassedPhase_recipients]
            rcases hrec with h | h <;> simp [h]
          · rw [allPassedPhase_recipients] at hg
            rcases hrec with h | h
            · simp [h] at hg
            · obtain rfl : g = w := by simpa [h] using hg
              exact hmem

/-- No voter left at all. -/
theorem awardOk_of_no_votes (env : RollEnv P M) (hi : l.itemAt r.itemSlot = some item)
    (hv : r.playerVote = []) :
    AwardOk env r (countTheRoll env r l) ↔
      (r.totalNeed = 0 ∧ r.totalGreed = 0) ∨ item.isBlocked = false := by
  have hnone : ∀ v, ¬ Reached env v r := by
    intro v ⟨g, hg, _⟩
    rw [hv] at hg
    cases hg
  rw [countTheRoll_eq, needPhase_skip env r (Or.inr hv),
    greedPhase_skip env r (Or.inr (Or.inr hv))]
  obtain ⟨item', hi', hb⟩ :=
    allPassedPhase_itemAt r (s := ⟨l, [], r.totalNeed, r.totalGreed⟩) hi
  refine ⟨fun h => ?_, fun h => ?_⟩
  · exact (hb.1 ((h.nobody (hnone _) (hnone _)).2 item' hi')).symm
  · refine ⟨by simp, fun h => absurd h (hnone _), fun _ g hg => by simp at hg, ?_⟩
    intro _ _
    refine ⟨allPassedPhase_recipients _ _, fun it hit => ?_⟩
    rw [hi'] at hit
    obtain rfl := Option.some.inj hit
    exact hb.2 h.symm

/-- The need branch when nobody in it can be reached: what is left of the
tally is what was not a NEED any more, and the first voter is the winner. -/
theorem needPhase_default (env : RollEnv P M) (hr : r.Counted)
    (hi : l.itemAt r.itemSlot = some item) (hpos : 0 < r.totalNeed) {d : P × RollVote}
    (hv : r.playerVote = d :: rest) (hnone : ¬ Reached env .need r) :
    ∃ s : Progress P, ∃ item',
      needPhase env r ⟨l, [], r.totalNeed, r.totalGreed⟩ = s ∧
      s.totalNeed = r.totalNeed - r.count .need ∧ s.totalGreed = r.totalGreed ∧
      s.loot.itemAt r.itemSlot = some item' ∧ item'.count = item.count ∧
      (firstTakes env r item d.1 = true → s.recipients = [d.1]) ∧
      (firstTakes env r item d.1 = false → s.recipients = [] ∧
        (item'.isBlocked = false ↔
          hasSession (env.findPlayer d.1) = true ∨ item.isBlocked = false)) := by
  have hc : candidates env .need r.playerVote = [] := by
    simpa [reached_iff] using hnone
  have heq := needPhase_eq env r (s := ⟨l, [], r.totalNeed, r.totalGreed⟩) hpos hv
    (g := d.1) (by rw [hc]; rfl)
  have htally := rollLoop_tally env .need env.needRoll r.playerVote r.totalNeed 0
    (some d.1) hr.need hr.need_lt
  have hcount : r.count .need = r.playerVote.countP fun e => e.2 = .need := rfl
  have hrest : (rollLoop env .need env.needRoll r.playerVote r.totalNeed 0 (some d.1)).1 =
      r.totalNeed - r.count .need := by
    rw [hc] at htally
    simp only [List.length_nil] at htally
    omega
  simp only at heq
  split at heq <;> rename_i hs
  · obtain ⟨hn, hg, item', hi', hcnt, h⟩ := award_spec env r (s := ⟨l, [],
      (rollLoop env .need env.needRoll r.playerVote r.totalNeed 0 (some d.1)).1,
      r.totalGreed⟩) hi d.1
    refine ⟨_, item', heq, by rw [hn, hrest], hg, hi', hcnt, fun hf => ?_, fun hf => ?_⟩
    · simp only [firstTakes, hs, Bool.true_and] at hf
      rw [if_pos hf] at h
      exact h
    · simp only [firstTakes, hs, Bool.true_and] at hf
      rw [if_neg (by simp [hf])] at h
      exact ⟨h.1, by simp [hs, h.2]⟩
  · have hs' : hasSession (env.findPlayer d.1) = false := by simpa using hs
    refine ⟨_, item, heq, hrest, rfl, hi, rfl, fun hf => ?_, fun _ => ⟨rfl, by simp [hs']⟩⟩
    simp [firstTakes, hs'] at hf

/-- The need branch has no voter of its own and gives the item to the first
voter: that is right only for a GREED voter whom nobody gets it after. -/
theorem awardOk_of_first_takes (env : RollEnv P M) (hr : r.Counted)
    (hi : l.itemAt r.itemSlot = some item) (hpos : 0 < r.totalNeed) {d : P}
    (hv : r.playerVote = (d, v) :: rest) (hnone : ¬ Reached env .need r)
    (hf : firstTakes env r item d = true) :
    AwardOk env r (countTheRoll env r l) ↔
      v = .greed ∧ Reached env .greed r ∧
        (r.totalNeed = r.count .need → ∀ w,
          (candidates env .greed r.playerVote).argmax env.greedRoll = some w →
          hasSession (env.findConnectedPlayer w) = true →
          env.canStoreNewItem [d] w r.itemid item.count = false) := by
  obtain ⟨s, item', hs, hn, hg, hi', hcnt, htakes, _⟩ :=
    needPhase_default env hr hi hpos hv hnone
  have hrec := htakes hf
  have hle := hr.need
  -- whoever comes after, the first voter has the item
  have hmem : d ∈ (countTheRoll env r l).recipients := by
    rw [countTheRoll_eq, hs]
    rcases Nat.eq_zero_or_pos s.totalNeed with hz | hnz
    · obtain ⟨h0, h1⟩ := greed_outcome env hr hi' hz hg (by simp [hv])
      by_cases hreach : Reached env .greed r
      · obtain ⟨w, _, h⟩ := h1 hreach
        rw [h, hrec]
        split <;> simp
      · rw [(h0 hreach).1, hrec]
        simp
    · rw [greedPhase_skip env r (Or.inl (by omega)), allPassedPhase_recipients, hrec]
      simp
  have hvote : (d, RollVote.greed) ∈ r.playerVote → v = .greed := by
    intro h
    have hnodup := hr.nodup
    rw [hv] at h hnodup
    rcases List.mem_cons.1 h with h | h
    · exact (congrArg Prod.snd h).symm
    · have hd := (List.nodup_cons.1 hnodup).1
      exact absurd (List.mem_map_of_mem h) hd
  refine ⟨fun h => ?_, fun ⟨hvg, hreach, hlast⟩ => ?_⟩
  · have hreach : Reached env .greed r := by
      by_contra hno
      rw [(h.nobody hnone hno).1] at hmem
      cases hmem
    refine ⟨hvote (h.greed hnone d hmem), hreach, fun hz w hw hw1 => ?_⟩
    obtain ⟨_, h1⟩ := greed_outcome env hr hi' (by omega) hg (by simp [hv])
    obtain ⟨w', hw', hrec'⟩ := h1 hreach
    obtain rfl : w' = w := Option.some.inj (hw'.symm.trans hw)
    have honce := h.once
    rw [countTheRoll_eq, hs, hrec', hrec, hcnt] at honce
    by_contra hw2
    rw [if_pos ⟨hw1, by simpa using hw2⟩] at honce
    simp at honce
  · have hdg : (d, RollVote.greed) ∈ r.playerVote := by simp [hv, hvg]
    have hfinal : (countTheRoll env r l).recipients = [d] := by
      rw [countTheRoll_eq, hs]
      rcases Nat.eq_zero_or_pos s.totalNeed with hz | hnz
      · obtain ⟨_, h1⟩ := greed_outcome env hr hi' hz hg (by simp [hv])
        obtain ⟨w, hw, h⟩ := h1 hreach
        rw [h, hrec, if_neg]
        intro ⟨hw1, hw2⟩
        rw [hcnt, hlast (by omega) w hw hw1] at hw2
        cases hw2
      · rw [greedPhase_skip env r (Or.inl (by omega)), allPassedPhase_recipients, hrec]
    refine ⟨by simp [hfinal], fun h => absurd h hnone, fun _ g hg => ?_,
      fun _ h => absurd hreach h⟩
    obtain rfl : g = d := by simpa [hfinal] using hg
    exact hdg

/-- The need branch has no voter of its own and nobody gets the item in it:
greed is right again, unless an old NEED in the tally keeps greed out. -/
theorem awardOk_of_first_not_takes (env : RollEnv P M) (hr : r.Counted)
    (hi : l.itemAt r.itemSlot = some item) (hpos : 0 < r.totalNeed) {d : P}
    (hv : r.playerVote = (d, v) :: rest) (hnone : ¬ Reached env .need r)
    (hf : firstTakes env r item d = false) :
    AwardOk env r (countTheRoll env r l) ↔
      Reached env .greed r ∨ r.totalNeed = r.count .need ∨
        hasSession (env.findPlayer d) = true ∨ item.isBlocked = false := by
  obtain ⟨s, item', hs, hn, hg, hi', hcnt, _, hnot⟩ :=
    needPhase_default env hr hi hpos hv hnone
  obtain ⟨hrec, hblock⟩ := hnot hf
  have hle := hr.need
  rw [countTheRoll_eq, hs]
  rcases Nat.eq_zero_or_pos s.totalNeed with hz | hnz
  · obtain ⟨h0, h1⟩ := greed_outcome env hr hi' hz hg (by simp [hv])
    refine iff_of_true ?_ (Or.inr (Or.inl (by omega)))
    by_cases hreach : Reached env .greed r
    · obtain ⟨w, hw, h⟩ := h1 hreach
      have hmem := (mem_candidates.1 (List.argmax_mem hw)).1
      refine ⟨?_, fun h => absurd h hnone, fun _ g hg => ?_, fun _ h => absurd hreach h⟩
      · rw [h, hrec]
        split <;> simp
      · rw [h, hrec] at hg
        split at hg
        · obtain rfl : g = w := by simpa using hg
          exact hmem
        · simp at hg
    · obtain ⟨hrec', it', hit', hb⟩ := h0 hreach
      have hnil := hrec'.trans hrec
      refine ⟨by rw [hnil]; simp, fun h => absurd h hnone, fun _ g hg => ?_,
        fun _ _ => ⟨hnil, fun it hit => ?_⟩⟩
      · rw [hnil] at hg
        cases hg
      · rw [hit'] at hit
        obtain rfl := Option.some.inj hit
        exact hb
  · rw [greedPhase_skip env r (Or.inl (by omega))]
    obtain ⟨it', hit', hb⟩ := allPassedPhase_itemAt r hi'
    have hfree : it'.isBlocked = false ↔
        hasSession (env.findPlayer d) = true ∨ item.isBlocked = false := by
      rw [hb, hblock]
      refine ⟨fun h => ?_, Or.inl⟩
      rcases h with h | h
      · exact h
      · omega
    refine ⟨fun h => ?_, fun h => ?_⟩
    · by_cases hreach : Reached env .greed r
      · exact Or.inl hreach
      · exact Or.inr (Or.inr (hfree.1 ((h.nobody hnone hreach).2 it' hit')))
    · refine ⟨by simp [hrec], fun h => absurd h hnone, fun _ g hg => by simp [hrec] at hg,
        fun _ hno => ⟨by simp [hrec], fun it hit => ?_⟩⟩
      rw [hit'] at hit
      obtain rfl := Option.some.inj hit
      rcases h with h | h | h
      · exact absurd h hno
      · omega
      · exact hfree.2 h

/-- A roll that is due, on an item that is there, ends as it should exactly
when it is harmless. -/
theorem countTheRoll_awardOk_iff (env : RollEnv P M) {r : Roll P} (hr : r.Due)
    {l : Loot P} {item : LootItem P} (hi : l.itemAt r.itemSlot = some item) :
    AwardOk env r (countTheRoll env r l) ↔ Harmless env r item := by
  have hc := due_counted hr
  unfold Harmless
  split <;> rename_i hv
  · exact awardOk_of_no_votes env hi hv
  · rename_i d v rest
    rcases Nat.eq_zero_or_pos r.totalNeed with hz | hpos
    · exact iff_of_true (awardOk_of_no_need env hc hi hz (by simp [hv])) (Or.inl hz)
    · by_cases hreach : Reached env .need r
      · exact iff_of_true (awardOk_of_reached env hc hi hreach) (Or.inr (Or.inl hreach))
      · have hnz : r.totalNeed ≠ 0 := by omega
        cases hf : firstTakes env r item d with
        | true =>
            rw [awardOk_of_first_takes env hc hi hpos hv hreach hf]
            simp [hnz, hreach]
        | false =>
            rw [awardOk_of_first_not_takes env hc hi hpos hv hreach hf]
            simp [hnz, hreach]

/-! Player 2 rolls need and logs out, player 1 passes: the tally still says
need, nobody rolls, and the item goes to player 1. -/

/-- Player 1 is in the world, nobody else is connected, and bags have room. -/
def goneEnv : RollEnv Nat Unit where
  findConnectedPlayer g := if g = 1 then some ⟨true, (), true⟩ else none
  allowedMap := none
  canStoreNewItem _ _ _ _ := true
  needRoll _ := 1
  greedRoll _ := 1
  needRoll_pos _ := Nat.le_refl 1
  greedRoll_pos _ := Nat.le_refl 1

def goneItem : LootItem Nat where
  itemid := 7
  conditions := []
  rollWinnerGUID := none
  count := 1
  isLooted := false
  isBlocked := true
  freeforall := false
  isUnderthreshold := false
  isCounted := false
  needsQuest := false
  followLootRules := false

def goneLoot : Loot Nat := { Loot.empty 0 with items := [goneItem], unlootedCount := 1 }

def goneRoll : Roll Nat :=
  ((start 7 0 [(1, false), (2, false)]).countRollVote 2 .need (some goneLoot)).countRollVote
    1 .pass (some goneLoot)

theorem goneRoll_due : goneRoll.Due :=
  Due.vote 1 .pass (some goneLoot)
    (Open.vote 2 .need (some goneLoot) (Open.start 7 0 (by decide) (by decide)) (by decide))
    (by decide) (by decide)

theorem countTheRoll_awardOk_iff_goneRoll :
    AwardOk goneEnv goneRoll (countTheRoll goneEnv goneRoll goneLoot) ↔
      Harmless goneEnv goneRoll goneItem :=
  countTheRoll_awardOk_iff goneEnv goneRoll_due rfl

theorem goneRoll_to_passer :
    goneRoll.Due ∧ ¬ AwardOk goneEnv goneRoll (countTheRoll goneEnv goneRoll goneLoot) := by
  refine ⟨goneRoll_due, fun h => ?_⟩
  have hrec : (countTheRoll goneEnv goneRoll goneLoot).recipients = [1] := by decide
  have hnone : ¬ Reached goneEnv .need goneRoll := by
    rw [reached_iff]
    decide
  have hvote := h.greed hnone 1 (by simp [hrec])
  exact absurd hvote (by decide)

end Roll

end Sunstrider.Looting
