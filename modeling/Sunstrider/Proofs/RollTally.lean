import Sunstrider.Proofs.RollResult

/-!
# Tallies that are exact, rolls that end in time

A roll should know at every moment how the votes stand, and it should end with
the vote that decides the last undecided player. `Fine` says this of one state.
`EventOk` lists what breaks it: a second vote by the same player (counted again,
while the first one stays counted), the departure of the last undecided voter
(the vote cast in the name of a player who is gone is not even looked at), and a
departure that takes the group down with its rolls. A roll that starts with
everybody passing is open with nobody left to decide.

`states_fine_iff` shows these are all: a run is fine throughout exactly when its
start and each of its events is one of the others.
-/

set_option linter.unusedSectionVars false

namespace Sunstrider.Looting

variable {P : Type} [DecidableEq P]

namespace Roll

/-- Each tally is the number of votes of its kind. -/
structure Exact (r : Roll P) : Prop where
  need : r.totalNeed = r.count .need
  greed : r.totalGreed = r.count .greed
  pass : r.totalPass = r.count .pass

/-- Somebody has not voted yet. -/
def Undecided (r : Roll P) : Prop := ∃ e ∈ r.playerVote, e.2 = .notEmitedYet

/-- `g` is one of the players rolling and has not voted yet. -/
def Waiting (r : Roll P) (g : P) : Prop := (g, RollVote.notEmitedYet) ∈ r.playerVote

/-- Somebody other than `g` has not voted yet. -/
def UndecidedBut (r : Roll P) (g : P) : Prop :=
  ∃ e ∈ r.playerVote, e.1 ≠ g ∧ e.2 = .notEmitedYet

end Roll

namespace RollState

/-- The tallies are right, a running roll waits for somebody, a roll that was
resolved without its timer waited for nobody, and no roll is dropped. -/
def Fine (s : RollState P) : Prop :=
  match s with
  | .running _ r => r.Exact ∧ r.Undecided
  | .resolved r timeout => r.Exact ∧ (timeout = false → ¬ r.Undecided)
  | .dropped => False

/-- The event is none of those that break a roll. -/
def EventOk (least : Nat) (s : RollState P) (e : RollEvent P) : Prop :=
  match s with
  | .running members r =>
      match e with
      | .lootRoll g rollType loot =>
          rollType < maxRollType → (∃ l, loot = some l ∧ l.items ≠ []) →
            g ∈ r.playerVote.map Prod.fst → r.Waiting g
      | .removeMember g _ linked =>
          least < members.length ∧ least ≤ linked ∧
            (g ∈ r.playerVote.map Prod.fst → r.UndecidedBut g)
      | .endRoll => True
  | _ => True

/-- No event of the run breaks the roll. -/
def EventsOk (least : Nat) : RollState P → List (RollEvent P) → Prop
  | _, [] => True
  | s, e :: es => s.EventOk least e ∧ EventsOk least (s.step least e) es

/-- What holds of a running roll whatever happens, as long as it is fine. -/
def Sound (s : RollState P) : Prop :=
  match s with
  | .running _ r => r.Tallied
  | _ => True

end RollState

namespace Roll

variable {r : Roll P} {l : List (P × RollVote)} {g : P}

/-! ## One vote -/

theorem countP_kinds (l : List (P × RollVote)) (hvalid : ∀ e ∈ l, e.2 ≠ .notValid) :
    l.countP (fun e => e.2 = .pass) + l.countP (fun e => e.2 = .need) +
      l.countP (fun e => e.2 = .greed) + l.countP (fun e => e.2 = .notEmitedYet) = l.length := by
  induction l with
  | nil => rfl
  | cons e l ih =>
      have ih := ih fun e he => hvalid e (List.mem_cons_of_mem _ he)
      have hv := hvalid e (by simp)
      simp only [List.countP_cons, List.length_cons, decide_eq_true_eq]
      cases h : e.2 with
      | notValid => exact absurd h hv
      | pass => simp; omega
      | need => simp; omega
      | greed => simp; omega
      | notEmitedYet => simp; omega

theorem undecided_iff (r : Roll P) : r.Undecided ↔ 0 < r.count .notEmitedYet := by
  rw [count, List.countP_pos_iff]
  simp [Undecided]

/-- With exact tallies a roll is complete when nobody is undecided. -/
theorem complete_iff (he : r.Exact) (hlen : r.totalPlayersRolling = r.playerVote.length)
    (hvalid : ∀ e ∈ r.playerVote, e.2 ≠ .notValid) : r.complete = true ↔ ¬ r.Undecided := by
  have hkinds := countP_kinds r.playerVote hvalid
  rw [complete, decide_eq_true_eq, undecided_iff, he.need, he.greed, he.pass, hlen]
  simp only [count]
  omega

/-- Replacing a vote takes one from its old kind and adds one to the new. -/
theorem countP_setVote_eq (g : P) (v : RollVote) {w : RollVote} (hn : (l.map Prod.fst).Nodup)
    (hg : (g, w) ∈ l) (u : RollVote) :
    (setVote g v l).countP (fun e => e.2 = u) + (if w = u then 1 else 0) =
      l.countP (fun e => e.2 = u) + if v = u then 1 else 0 := by
  induction l with
  | nil => simp at hg
  | cons e l ih =>
      obtain ⟨hnot, hn⟩ := List.nodup_cons.1 hn
      rw [setVote]
      by_cases he : e.1 = g
      · have hew : e = (g, w) := by
          rcases List.mem_cons.1 hg with h | h
          · exact h.symm
          · exact absurd (he ▸ List.mem_map_of_mem (f := Prod.fst) h) hnot
        rw [if_pos he]
        simp only [List.countP_cons, decide_eq_true_eq, hew]
        omega
      · have hg' : (g, w) ∈ l := by
          rcases List.mem_cons.1 hg with h | h
          · exact absurd (by rw [← h]) he
          · exact h
        have := ih hn hg'
        rw [if_neg he]
        simp only [List.countP_cons]
        omega

theorem mayVote_iff (r : Roll P) (g : P) (l : Loot P) :
    r.mayVote g (some l) = true ↔ g ∈ r.playerVote.map Prod.fst ∧ l.items ≠ [] := by
  simp [mayVote, List.find?_isSome]

/-- A vote that counts leaves the tallies exact if it is the player's first, and
only then. -/
theorem countRollVote_exact (ht : r.Tallied) (he : r.Exact) {l : Loot P}
    (hmay : r.mayVote g (some l) = true) {v : RollVote} (hv : v = .pass ∨ v = .need ∨ v = .greed) :
    (r.countRollVote g v (some l)).Exact ↔ r.Waiting g := by
  obtain ⟨w, hw⟩ : ∃ w, (g, w) ∈ r.playerVote := by
    obtain ⟨e, hmem, hfst⟩ := List.mem_map.1 ((mayVote_iff r g l).1 hmay).1
    exact ⟨e.2, hfst ▸ hmem⟩
  have hcount := countP_setVote_eq g v ht.nodup hw
  have hkinds := countP_kinds r.playerVote ht.valid
  have hlen := ht.players
  have hwaiting : r.Waiting g ↔ w = .notEmitedYet := by
    constructor
    · intro h
      exact (Prod.mk.inj (List.inj_on_of_nodup_map ht.nodup hw h rfl)).2
    · intro h
      subst h
      exact hw
  have hn := hcount .need
  have hg := hcount .greed
  have hp := hcount .pass
  obtain ⟨hneed, hgreed, hpass⟩ := he
  simp only [count] at hneed hgreed hpass
  have hvalid := ht.valid _ hw
  rw [hwaiting]
  unfold countRollVote
  rw [hmay]
  -- the old vote `w` is taken from its kind in the map, but not from its tally
  constructor
  · intro h
    obtain ⟨h₁, h₂, h₃⟩ := h
    cases w with
    | notEmitedYet => rfl
    | notValid => exact absurd rfl hvalid
    | pass => rcases hv with rfl | rfl | rfl <;> simp [count, incr8] at * <;> omega
    | need => rcases hv with rfl | rfl | rfl <;> simp [count, incr8] at * <;> omega
    | greed => rcases hv with rfl | rfl | rfl <;> simp [count, incr8] at * <;> omega
  · intro h
    subst h
    rcases hv with rfl | rfl | rfl
    · constructor <;> simp [count, incr8] at * <;> omega
    · constructor <;> simp [count, incr8] at * <;> omega
    · constructor <;> simp [count, incr8] at * <;> omega

/-! ## One departure -/

/-- The vote that leaves is none of another kind. -/
theorem countP_eraseP_other {p q : P × RollVote → Bool} {e : P × RollVote}
    (h : l.find? p = some e) (hq : q e = false) : (l.eraseP p).countP q = l.countP q := by
  induction l with
  | nil => cases h
  | cons x rest ih =>
      rw [List.find?_cons] at h
      cases hp : p x with
      | true =>
          rw [hp] at h
          obtain rfl := Option.some.inj h
          rw [List.eraseP_cons_of_pos hp, List.countP_cons_of_neg (by simp [hq])]
      | false =>
          rw [hp] at h
          rw [List.eraseP_cons_of_neg (by simp [hp]), List.countP_cons, List.countP_cons, ih h]

theorem removeMember_exact (ht : r.Tallied) (he : r.Exact) (g : P) : (r.removeMember g).Exact := by
  unfold removeMember
  split
  · exact he
  · rename_i e hf
    have hone : ∀ v, (r.playerVote.eraseP fun e => e.1 = g).countP (fun e' => e'.2 = v) +
        (if e.2 = v then 1 else 0) = r.playerVote.countP (fun e' => e'.2 = v) := by
      intro v
      by_cases hv : e.2 = v
      · rw [if_pos hv]
        exact countP_eraseP_find hf (by simpa using hv)
      · rw [if_neg hv, Nat.add_zero]
        exact countP_eraseP_other hf (by simpa using hv)
    have hvalid := ht.valid e (List.mem_of_find?_eq_some hf)
    have hkinds := countP_kinds r.playerVote ht.valid
    have hlen := ht.players
    have hn := hone .need
    have hg := hone .greed
    have hp := hone .pass
    obtain ⟨hneed, hgreed, hpass⟩ := he
    obtain ⟨a, v⟩ := e
    cases v with
    | notValid => exact absurd rfl hvalid
    | notEmitedYet => constructor <;> simp [count, decr8] at * <;> omega
    | pass => constructor <;> simp [count, decr8] at * <;> omega
    | need => constructor <;> simp [count, decr8] at * <;> omega
    | greed => constructor <;> simp [count, decr8] at * <;> omega

theorem mem_eraseP_fst (hn : (l.map Prod.fst).Nodup) (e : P × RollVote) :
    e ∈ l.eraseP (fun e => e.1 = g) ↔ e ∈ l ∧ e.1 ≠ g := by
  induction l with
  | nil => simp
  | cons x l ih =>
      obtain ⟨hnot, hn⟩ := List.nodup_cons.1 hn
      by_cases hx : x.1 = g
      · rw [List.eraseP_cons_of_pos (by simp [hx]), List.mem_cons]
        constructor
        · intro he
          refine ⟨.inr he, fun hg => hnot ?_⟩
          rw [hx, ← hg]
          exact List.mem_map_of_mem he
        · intro ⟨he, hg⟩
          rcases he with rfl | he
          · exact absurd hx hg
          · exact he
      · rw [List.eraseP_cons_of_neg (by simp [hx]), List.mem_cons, List.mem_cons, ih hn]
        constructor
        · intro he
          rcases he with rfl | ⟨he, hg⟩
          · exact ⟨.inl rfl, hx⟩
          · exact ⟨.inr he, hg⟩
        · intro ⟨he, hg⟩
          rcases he with rfl | he
          · exact .inl rfl
          · exact .inr ⟨he, hg⟩

theorem removeMember_votes (hg : g ∈ r.playerVote.map Prod.fst) :
    (r.removeMember g).playerVote = r.playerVote.eraseP fun e => e.1 = g := by
  unfold removeMember
  cases hf : r.playerVote.find? fun e => e.1 = g with
  | none =>
      obtain ⟨e, he, rfl⟩ := List.mem_map.1 hg
      exact absurd (List.find?_eq_none.1 hf e he) (by simp)
  | some e =>
      obtain ⟨a, v⟩ := e
      cases v <;> rfl

/-- Once `g` has left, those who have not voted yet are the others. -/
theorem removeMember_undecided (ht : r.Tallied) (hg : g ∈ r.playerVote.map Prod.fst) :
    (r.removeMember g).Undecided ↔ r.UndecidedBut g := by
  unfold Undecided UndecidedBut
  rw [removeMember_votes hg]
  simp only [mem_eraseP_fst ht.nodup, and_assoc]

/-- The vote in the name of a player who has left is not looked at. -/
theorem removeMember_mayVote (ht : r.Tallied) (hg : g ∈ r.playerVote.map Prod.fst) (l : Loot P) :
    (r.removeMember g).mayVote g (some l) = false := by
  rw [Bool.eq_false_iff, Ne, mayVote_iff]
  intro ⟨hmem, _⟩
  obtain ⟨e, he, hfst⟩ := List.mem_map.1 hmem
  rw [removeMember_votes hg, mem_eraseP_fst ht.nodup] at he
  exact he.2 hfst

theorem tallied_of_exact (he : r.Exact) (hrolling : r.totalPlayersRolling = r.playerVote.length)
    (hplayers : r.playerVote.length ≤ 40) (hvalid : ∀ e ∈ r.playerVote, e.2 ≠ .notValid)
    (hnodup : (r.playerVote.map Prod.fst).Nodup) : r.Tallied := by
  have hkinds := countP_kinds r.playerVote hvalid
  obtain ⟨hneed, hgreed, hpass⟩ := he
  refine ⟨by omega, by omega, by omega, ?_, hrolling, hplayers, hvalid, hnodup⟩
  simp only [count] at hneed hgreed hpass
  omega

end Roll

/-! ## One event -/

namespace RollState

variable {members : List P} {r : Roll P}

theorem handleLootRoll_fine (ht : r.Tallied) (hf : Fine (.running members r)) (g : P)
    (rollType : Nat) (loot : Option (Loot P)) :
    (Fine (handleLootRoll members r g rollType loot) ↔
      (rollType < maxRollType → (∃ l, loot = some l ∧ l.items ≠ []) →
        g ∈ r.playerVote.map Prod.fst → r.Waiting g)) ∧
    (Fine (handleLootRoll members r g rollType loot) →
      Sound (handleLootRoll members r g rollType loot)) := by
  unfold handleLootRoll
  by_cases htype : maxRollType ≤ rollType
  · rw [if_pos htype]
    exact ⟨⟨fun _ h => absurd h (by omega), fun _ => hf⟩, fun _ => ht⟩
  rw [if_neg htype]
  unfold countRollVote
  cases loot with
  | none => exact ⟨⟨fun _ _ h => by simp at h, fun _ => hf⟩, fun _ => ht⟩
  | some l =>
      simp only
      cases hmay : r.mayVote g (some l) with
      | false =>
          refine ⟨⟨fun _ _ hl hg => ?_, fun _ => hf⟩, fun _ => ht⟩
          have hitems : l.items ≠ [] := by simpa using hl
          have := (Roll.mayVote_iff r g l).2 ⟨hg, hitems⟩
          rw [hmay] at this
          exact absurd this (by simp)
      | true =>
          obtain ⟨hmem, hitems⟩ := (Roll.mayVote_iff r g l).1 hmay
          have hv : rollTypeVote rollType = .pass ∨ rollTypeVote rollType = .need ∨
              rollTypeVote rollType = .greed := by
            have hcases : rollType = 0 ∨ rollType = 1 ∨ rollType = 2 := by
              simp only [maxRollType] at htype
              omega
            rcases hcases with rfl | rfl | rfl <;> simp [rollTypeVote]
          obtain ⟨-, -, -, -, hrolling, hfst, hvalid⟩ :=
            Roll.countRollVote_tally ht g (rollTypeVote rollType) (some l)
          have hexact := Roll.countRollVote_exact ht hf.1 hmay hv
          have hplayers : (r.countRollVote g (rollTypeVote rollType) (some l)).playerVote.length
              ≤ 40 := by
            have hlen := congrArg List.length hfst
            simp only [List.length_map] at hlen
            rw [hlen]
            exact ht.players
          have hnodup : ((r.countRollVote g (rollTypeVote rollType)
              (some l)).playerVote.map Prod.fst).Nodup := by
            rw [hfst]
            exact ht.nodup
          simp only [Bool.not_true, Bool.false_eq_true, if_false]
          generalize r.countRollVote g (rollTypeVote rollType) (some l) = r' at *
          have hgoal : (rollType < maxRollType → (∃ l', some l = some l' ∧ l'.items ≠ []) →
              g ∈ r.playerVote.map Prod.fst → r.Waiting g) ↔ r.Waiting g := by
            constructor
            · intro h
              exact h (by omega) ⟨l, rfl, hitems⟩ hmem
            · intro h _ _ _
              exact h
          rw [hgoal, ← hexact]
          by_cases hc : r'.complete = true
          · rw [if_pos hc]
            refine ⟨⟨fun h => h.1, fun h => ⟨h, fun _ => ?_⟩⟩, fun _ => trivial⟩
            exact (Roll.complete_iff h hrolling hvalid).1 hc
          · rw [if_neg hc]
            refine ⟨⟨fun h => h.1, fun h => ⟨h, ?_⟩⟩, fun h =>
              Roll.tallied_of_exact h.1 hrolling hplayers hvalid hnodup⟩
            by_contra hno
            exact hc ((Roll.complete_iff h hrolling hvalid).2 hno)

/-- The roll goes on without the member, with the vote gone if there was one. -/
theorem removeFromRoll_fine (members' : List P) (ht : r.Tallied) (hf : Fine (.running members r))
    (g : P) (loot : Option (Loot P)) :
    ∃ r', removeFromRoll members' r g loot = .running members' r' ∧ r'.Tallied ∧
      (Fine (.running members' r') ↔
        (g ∈ r.playerVote.map Prod.fst → r.UndecidedBut g)) := by
  unfold removeFromRoll
  cases hfind : r.playerVote.find? fun e => e.1 = g with
  | none =>
      have hnot : g ∉ r.playerVote.map Prod.fst := by
        intro hg
        obtain ⟨e, he, rfl⟩ := List.mem_map.1 hg
        exact absurd (List.find?_eq_none.1 hfind e he) (by simp)
      exact ⟨r, rfl, ht, ⟨fun _ h => absurd h hnot, fun _ => hf⟩⟩
  | some e =>
      have hg : g ∈ r.playerVote.map Prod.fst := by
        have hfst : e.1 = g := by simpa using List.find?_some hfind
        rw [← hfst]
        exact List.mem_map_of_mem (List.mem_of_find?_eq_some hfind)
      refine ⟨r.removeMember g, ?_, Roll.removeMember_tallied ht g, ?_⟩
      · unfold countRollVote
        cases loot with
        | none => rfl
        | some l => simp [Roll.removeMember_mayVote ht hg l]
      · constructor
        · intro h _
          exact (Roll.removeMember_undecided ht hg).1 h.2
        · intro h
          exact ⟨Roll.removeMember_exact ht hf.1 g, (Roll.removeMember_undecided ht hg).2 (h hg)⟩

theorem removeMember_fine (least : Nat) (ht : r.Tallied) (hf : Fine (.running members r)) (g : P)
    (loot : Option (Loot P)) (linked : Nat) :
    (Fine (removeMember least members r g loot linked) ↔
      least < members.length ∧ least ≤ linked ∧
        (g ∈ r.playerVote.map Prod.fst → r.UndecidedBut g)) ∧
    Sound (removeMember least members r g loot linked) := by
  unfold removeMember
  by_cases hleast : members.length ≤ least
  · rw [if_pos hleast]
    exact ⟨⟨False.elim, fun h => absurd h.1 (by omega)⟩, trivial⟩
  rw [if_neg hleast]
  obtain ⟨r', hrun, ht', hfine⟩ :=
    removeFromRoll_fine (members.filter (· ≠ g)) ht hf g loot
  rw [hrun]
  simp only
  by_cases hlinked : linked < least
  · rw [if_pos hlinked]
    exact ⟨⟨False.elim, fun h => absurd h.2.1 (by omega)⟩, trivial⟩
  · rw [if_neg hlinked, hfine]
    exact ⟨⟨fun h => ⟨by omega, by omega, h⟩, fun h => h.2.2⟩, ht'⟩

/-- A fine roll stays fine with the events that break nothing, and no others. -/
theorem step_fine (least : Nat) {s : RollState P} (hs : Sound s) (hf : Fine s)
    (e : RollEvent P) :
    (Fine (s.step least e) ↔ s.EventOk least e) ∧
      (Fine (s.step least e) → Sound (s.step least e)) := by
  cases s with
  | running members r =>
      cases e with
      | lootRoll g rollType loot => exact handleLootRoll_fine hs hf g rollType loot
      | removeMember g loot linked =>
          obtain ⟨h₁, h₂⟩ := removeMember_fine least hs hf g loot linked
          exact ⟨h₁, fun _ => h₂⟩
      | endRoll =>
          exact ⟨⟨fun _ => trivial, fun _ => ⟨hf.1, fun h => absurd h (by simp)⟩⟩,
            fun _ => trivial⟩
  | resolved r timeout => exact ⟨⟨fun _ => trivial, fun _ => hf⟩, fun _ => trivial⟩
  | dropped => exact absurd hf id

theorem states_fine {least : Nat} {s : RollState P} (hs : Sound s) (hf : Fine s)
    (es : List (RollEvent P)) :
    (∀ s' ∈ states least s es, Fine s') ↔ EventsOk least s es := by
  induction es generalizing s with
  | nil => simp [states, EventsOk, hf]
  | cons e es ih =>
      obtain ⟨hiff, hsound⟩ := step_fine least hs hf e
      rw [states, List.forall_mem_cons, EventsOk, ← hiff]
      constructor
      · intro ⟨_, h⟩
        have hnext : Fine (s.step least e) := by
          refine h _ ?_
          cases es <;> simp [states]
        exact ⟨hnext, (ih (hsound hnext) hnext).1 h⟩
      · intro ⟨hnext, h⟩
        exact ⟨hf, (ih (hsound hnext) hnext).2 h⟩

theorem start_fine (members : List P) (itemid itemSlot : Nat) {voters : List (P × Bool)}
    (hlen : voters.length ≤ 40) :
    Fine (.running members (Roll.start itemid itemSlot voters)) ↔ ∃ m ∈ voters, m.2 = false := by
  have hcount : ∀ v, (Roll.start itemid itemSlot voters).count v =
      voters.countP fun m => (if m.2 then RollVote.pass else .notEmitedYet) = v := by
    intro v
    rw [Roll.count, Roll.start, List.countP_map]
    rfl
  have hle : voters.countP (fun m => m.2) ≤ voters.length := List.countP_le_length
  have hexact : (Roll.start itemid itemSlot voters).Exact := by
    refine ⟨?_, ?_, ?_⟩
    · rw [hcount]
      refine (List.countP_eq_zero.2 fun m _ => ?_).symm
      cases m.2 <;> simp
    · rw [hcount]
      refine (List.countP_eq_zero.2 fun m _ => ?_).symm
      cases m.2 <;> simp
    · rw [hcount]
      show voters.countP (fun m => m.2) % 256 = _
      rw [Nat.mod_eq_of_lt (by omega)]
      refine List.countP_congr fun m _ => ?_
      cases m.2 <;> simp
  have hundecided : (Roll.start itemid itemSlot voters).Undecided ↔ ∃ m ∈ voters, m.2 = false := by
    rw [Roll.undecided_iff, hcount, List.countP_pos_iff]
    constructor
    · intro hsome
      obtain ⟨m, hm, h⟩ := hsome
      refine ⟨m, hm, ?_⟩
      cases hb : m.2
      · rfl
      · simp [hb] at h
    · intro hsome
      obtain ⟨m, hm, h⟩ := hsome
      exact ⟨m, hm, by simp [h]⟩
  constructor
  · intro h
    exact hundecided.1 h.2
  · intro h
    exact ⟨hexact, hundecided.2 h⟩

/-- Throughout a run the tallies are the votes and the roll ends with the last
of them, exactly when somebody has to decide at the start, nobody votes twice,
the last undecided voter stays, and so does the group. -/
theorem states_fine_iff (least : Nat) (members : List P) (itemid itemSlot : Nat)
    (voters : List (P × Bool)) (hlen : voters.length ≤ 40) (hnodup : (voters.map Prod.fst).Nodup)
    (es : List (RollEvent P)) :
    (∀ s ∈ states least (.running members (Roll.start itemid itemSlot voters)) es, Fine s) ↔
      (∃ m ∈ voters, m.2 = false) ∧
        EventsOk least (.running members (Roll.start itemid itemSlot voters)) es := by
  have hs : Sound (.running members (Roll.start itemid itemSlot voters)) :=
    Roll.start_tallied itemid itemSlot hlen hnodup
  have hstart := start_fine members itemid itemSlot hlen
  constructor
  · intro h
    have hf : Fine (.running members (Roll.start itemid itemSlot voters)) := by
      refine h _ ?_
      cases es <;> simp [states]
    exact ⟨hstart.1 hf, (states_fine hs hf es).1 h⟩
  · intro ⟨hm, h⟩
    exact (states_fine hs (hstart.2 hm) es).2 h

/-! ## Two needs from one player -/

def ring : LootItem Nat where
  itemid := 7
  conditions := []
  rollWinnerGUID := none
  count := 1
  isLooted := false
  isBlocked := true
  freeforall := false
  isUnderthreshold := false
  isCounted := false
  needsQuest := false
  followLootRules := false

def chest : Loot Nat := { Loot.empty 0 with items := [ring], unlootedCount := 1 }

theorem states_fine_iff_oneVote :
    [1, 2, 3].Nodup ∧
      ∀ s ∈ states 2 (.running [1, 2, 3] (Roll.start 7 0 [(1, false), (2, false), (3, true)]))
        [.lootRoll 1 1 (some chest)], Fine s := by
  refine ⟨by decide, ?_⟩
  refine (states_fine_iff 2 [1, 2, 3] 7 0 [(1, false), (2, false), (3, true)] (by decide)
    (by decide) [.lootRoll 1 1 (some chest)]).2 ⟨⟨(1, false), by simp, rfl⟩, ?_, trivial⟩
  intro _ _ _
  show (1, RollVote.notEmitedYet) ∈ _
  decide

/-- A second need by the first player ends the roll over the head of the second. -/
theorem oneVoter_decides :
    ¬ ∀ s ∈ states 2 (.running [1, 2, 3] (Roll.start 7 0 [(1, false), (2, false), (3, true)]))
      [.lootRoll 1 1 (some chest), .lootRoll 1 1 (some chest)], Fine s := by
  intro h
  have hlast := h (.resolved ⟨7, 0, [(1, .need), (2, .notEmitedYet), (3, .pass)], 3, 2, 0, 1⟩ false)
    (by simp [states, step, handleLootRoll, countRollVote, Roll.start, Roll.mayVote,
      Roll.countRollVote, Roll.setVote, Roll.complete, rollTypeVote, maxRollType, incr8, chest,
      Loot.empty])
  exact hlast.2 rfl ⟨(2, .notEmitedYet), by simp, rfl⟩

end RollState

end Sunstrider.Looting
