import Sunstrider.Battlegrounds.ArenaTeam

/-!
# What the ratings of arena teams do

A match moves a rating by at most 32 points. The field of a team is written back
without a look at its range, so the change is what it should be as long as the sum
fits, and for a lost match that is a question about the rating and the chance:
`Fits`. Decay stops at the minimum by itself, and the counters only ever grow
together, so of what is claimed of a run only the lost and the won matches need a
condition.

The points of a lost match are 32 times the chance *not* to have won, as those of
a won match are. Two teams therefore exchange about the same number of points only
if they are about equal, and the better a team is, the fewer points it loses.
-/

set_option linter.unusedSectionVars false

namespace Sunstrider.Battlegrounds.Arenas

variable {K : Type*} [Field K] [LinearOrder K] [IsStrictOrderedRing K] [FloorRing K]
  {config : Config} {chance : Nat → Nat → K} {own own' opponent : Nat} {won : Bool}

/-! ## The points of a match -/

/-- The points of a match where the alternate rating is not used. -/
def points (chance : K) : Int := max 1 ⌊32 * (1 - chance)⌋

theorem getRatingMod_eq (config : Config) (chance : Nat → Nat → K) (own opponent : Nat)
    (won : Bool) :
    getRatingMod config chance own opponent won =
      (if won then 1 else -1) *
        (if alternates config own opponent then 15 else points (chance own opponent)) := by
  have hmax : (if ⌊32 * (1 - chance own opponent)⌋ < 1 then 1
      else ⌊32 * (1 - chance own opponent)⌋) = points (chance own opponent) := by
    unfold points
    split <;> omega
  unfold getRatingMod
  dsimp only
  rw [hmax]
  cases won with
  | true => simp
  | false =>
      rw [if_neg Bool.false_ne_true, if_neg Bool.false_ne_true]
      omega

theorem one_le_points (c : K) : 1 ≤ points c := le_max_left _ _

/-- Settings without the alternate rating, and without a decay. -/
def plainConfig : Config := ⟨false, 0, 0, 0⟩

/-! ## A run of matches -/

namespace ArenaTeamStats

variable {stats : ArenaTeamStats} {call : TeamCall}

/-- Not more matches are won than played. -/
def Counted (stats : ArenaTeamStats) : Prop :=
  stats.weekWins ≤ stats.weekGames ∧ stats.seasonWins ≤ stats.seasonGames

/-- The counters can still count. -/
def HasRoom (stats : ArenaTeamStats) : Prop :=
  stats.weekGames.toNat < 65535 ∧ stats.seasonGames.toNat < 65535

/-- What a call is to do to a team. -/
structure Fair (config : Config) (chance : Nat → Nat → K) (stats : ArenaTeamStats)
    (call : TeamCall) : Prop where
  clamped : ∀ mod, (stats.call config chance call).2 = some mod →
    ((stats.call config chance call).1.rating.toNat : Int) = max 0 (stats.rating.toNat + mod)
  decayed : call = .handleDecay →
    (stats.call config chance call).1.rating ≤ stats.rating ∧
      min stats.rating.toNat config.decayMinimumRating ≤
        (stats.call config chance call).1.rating.toNat
  counted : (stats.call config chance call).1.Counted

/-- The points of the match do not lead out of the field. -/
def Fits (chance : Nat → Nat → K) (stats : ArenaTeamStats) : TeamCall → Prop
  | .wonAgainst againstRating =>
      stats.rating.toNat < 65535 ∧
        32 * (1 - chance stats.rating.toNat againstRating.toNat) < 65536 - stats.rating.toNat
  | .lostAgainst againstRating =>
      0 < stats.rating.toNat ∧
        32 * (1 - chance stats.rating.toNat againstRating.toNat) < stats.rating.toNat + 1
  | _ => True

end ArenaTeamStats

/-! ## Exchanges -/

theorem getRatingMod_off (hoff : config.alternateRating = false) (own opponent : Nat) (won : Bool) :
    getRatingMod config chance own opponent won =
      (if won then 1 else -1) * points (chance own opponent) := by
  have halt : alternates config own opponent = false := by
    simp [alternates, hoff]
  simp only [getRatingMod_eq, halt, Bool.false_eq_true, if_false]

/-- The points both get whose chances are `c` and `1 - c`, if both are counted as
those of a winner. -/
theorem points_cancel_iff {c : K} (hpos : 0 < c) (hlt : c < 1) :
    |points c - points (1 - c)| ≤ 1 ↔ 15 < 32 * c ∧ 32 * c < 17 := by
  have hfloor : ⌊32 * (1 - c)⌋ = 32 - ⌈32 * c⌉ := by
    rw [show 32 * (1 - c) = (32 : Int) + -(32 * c) by push_cast; ring, Int.floor_intCast_add,
      Int.floor_neg, sub_eq_add_neg]
  have hpoints : points (1 - c) = max 1 ⌊32 * c⌋ := by
    rw [points, sub_sub_cancel]
  have hup : ⌊32 * c⌋ ≤ ⌈32 * c⌉ := Int.floor_le_ceil _
  have hnear : ⌈32 * c⌉ ≤ ⌊32 * c⌋ + 1 := Int.ceil_le_floor_add_one _
  have hnonneg : 0 ≤ ⌊32 * c⌋ := Int.floor_nonneg.2 (by linarith)
  have hceil : ⌈32 * c⌉ ≤ 32 := Int.ceil_le.2 (by push_cast; linarith)
  have hlow : 15 < 32 * c ↔ 15 < ⌈32 * c⌉ := by
    rw [Int.lt_ceil]
    push_cast
    rfl
  have hhigh : 32 * c < 17 ↔ ⌊32 * c⌋ < 17 := by
    rw [Int.floor_lt]
    push_cast
    rfl
  rw [hpoints, points, hfloor, hlow, hhigh, abs_le]
  omega

/-- Who has the higher chance does not pay less, only if it is the same. -/
theorem points_le_of_chance_iff {c c' : K} (h : c ≤ c') :
    points c ≤ points c' ↔ 32 * (1 - c) < 2 ∨ ⌊32 * (1 - c')⌋ = ⌊32 * (1 - c)⌋ := by
  have hle : ⌊32 * (1 - c')⌋ ≤ ⌊32 * (1 - c)⌋ := Int.floor_le_floor (by linarith)
  have hfew : 32 * (1 - c) < 2 ↔ ⌊32 * (1 - c)⌋ < 2 := by
    rw [Int.floor_lt]
    push_cast
    rfl
  rw [hfew]
  unfold points
  omega

/-- With the alternate rating off: winner and loser exchange the same number of
points within one exactly if the chance of the winner was nearly even, and of two
teams that lose against the same opponent the better one loses no fewer points
exactly if both lose the same. -/
theorem getRatingMod_exchanges_iff (config : Config) (hoff : config.alternateRating = false)
    (chance : Nat → Nat → K) (hchance : ∀ a b, 0 < chance a b ∧ chance a b < 1)
    (hsum : ∀ a b, chance a b + chance b a = 1)
    (hup : ∀ a a' b, a < a' → chance a b < chance a' b) :
    (∀ winner loser,
      |getRatingMod config chance winner loser true +
          getRatingMod config chance loser winner false| ≤ 1 ↔
        15 < 32 * chance winner loser ∧ 32 * chance winner loser < 17) ∧
    ∀ own own' opponent, own ≤ own' →
      (-getRatingMod config chance own opponent false ≤
          -getRatingMod config chance own' opponent false ↔
        32 * (1 - chance own opponent) < 2 ∨
          ⌊32 * (1 - chance own' opponent)⌋ = ⌊32 * (1 - chance own opponent)⌋) := by
  refine ⟨fun winner loser => ?_, fun own own' opponent hown => ?_⟩
  · obtain ⟨hpos, hlt⟩ := hchance winner loser
    have hother : chance loser winner = 1 - chance winner loser := by
      rw [← hsum winner loser]
      ring
    rw [getRatingMod_off hoff, getRatingMod_off hoff, hother, if_pos rfl,
      if_neg Bool.false_ne_true, one_mul, neg_one_mul, ← sub_eq_add_neg]
    exact points_cancel_iff hpos hlt
  · have hle : chance own opponent ≤ chance own' opponent := by
      rcases Nat.lt_or_eq_of_le hown with hlt | rfl
      · exact le_of_lt (hup own own' opponent hlt)
      · exact le_refl _
    rw [getRatingMod_off hoff, getRatingMod_off hoff, if_neg Bool.false_ne_true, neg_one_mul,
      neg_neg, neg_one_mul, neg_neg]
    exact points_le_of_chance_iff hle

/-- A chance by the shares of the ratings. -/
def shareChance (own opponent : Nat) : ℚ := (own + 1) / (own + opponent + 2)

theorem shareChance_bounds (a b : Nat) : 0 < shareChance a b ∧ shareChance a b < 1 := by
  unfold shareChance
  exact ⟨by positivity, by rw [div_lt_one (by positivity)]; linarith⟩

theorem shareChance_sum (a b : Nat) : shareChance a b + shareChance b a = 1 := by
  unfold shareChance
  rw [add_comm (b : ℚ) a, ← add_div, div_eq_one_iff_eq (by positivity)]
  ring

theorem shareChance_up (a a' b : Nat) (h : a < a') : shareChance a b < shareChance a' b := by
  have hlt : (a : ℚ) < a' := Nat.cast_lt.2 h
  unfold shareChance
  rw [div_lt_div_iff₀ (by positivity) (by positivity)]
  nlinarith

theorem getRatingMod_exchanges_even :
    |getRatingMod plainConfig shareChance 1500 1500 true +
      getRatingMod plainConfig shareChance 1500 1500 false| ≤ 1 :=
  ((getRatingMod_exchanges_iff plainConfig rfl shareChance shareChance_bounds shareChance_sum
    shareChance_up).1 1500 1500).2 (by norm_num [shareChance])

/-- At three to one the winner gets 8 points and the loser pays 24, and a team rated
as its opponent pays 16 where a lower one pays 24. -/
theorem threeToOne_unequal :
    ¬ |getRatingMod plainConfig shareChance 2 0 true +
        getRatingMod plainConfig shareChance 0 2 false| ≤ 1 ∧
      ¬ -getRatingMod plainConfig shareChance 0 2 false ≤
        -getRatingMod plainConfig shareChance 2 2 false := by
  have hlow : points (shareChance 0 2) = 24 := by
    norm_num [points, shareChance]
  have heven : points (shareChance 2 2) = 16 := by
    norm_num [points, shareChance]
  have hhigh : points (shareChance 2 0) = 8 := by
    norm_num [points, shareChance]
  rw [getRatingMod_off rfl, getRatingMod_off rfl, getRatingMod_off rfl, hlow, heven, hhigh]
  decide

end Sunstrider.Battlegrounds.Arenas

/-!
## What a lost match costs a member

Both ways to charge a member change the first one with the guid, and change it in the
same way but for the points. So they agree if nobody has the guid, if the match costs as
much at the rating of the team as at that of the member, and if the member has no more
than either: then both leave nothing.
-/

set_option linter.unusedSectionVars false

namespace Sunstrider.Battlegrounds.Arenas

variable {K : Type*} [Field K] [LinearOrder K] [IsStrictOrderedRing K] [FloorRing K]
  {config : Config} {chance : Nat → Nat → K}

theorem int32_eq (n : UInt32) :
    int32 n = if n.toNat < 2 ^ 31 then (n.toNat : Int) else n.toNat - 2 ^ 32 := by
  have hlt := n.toNat_lt
  unfold int32
  rw [BitVec.toInt_eq_toNat_cond]
  split <;> split <;> simp only [UInt32.toNat_toBitVec] at * <;> omega

/-- What a lost match costs. -/
def lossAgainst (config : Config) (chance : Nat → Nat → K) (own opponent : Nat) : Int :=
  -getRatingMod config chance own opponent false

theorem one_le_lossAgainst (config : Config) (chance : Nat → Nat → K) (own opponent : Nat) :
    1 ≤ lossAgainst config chance own opponent := by
  have hone := one_le_points (chance own opponent)
  unfold lossAgainst
  rw [getRatingMod_eq, if_neg Bool.false_ne_true]
  split <;> omega

/-- A loss is taken off the rating, as far as there is any. -/
theorem modifyPersonalRating_toNat (member : ArenaTeamMember) {loss : Int} (hloss : 1 ≤ loss) :
    ((member.modifyPersonalRating (-loss)).personalRating.toNat : Int) =
      max 0 (int32 member.personalRating - loss) := by
  have hlt := member.personalRating.toNat_lt
  have hint := int32_eq member.personalRating
  unfold ArenaTeamMember.modifyPersonalRating
  dsimp only
  split
  · rw [UInt32.toNat_zero]
    omega
  · unfold uint32
    rw [UInt32.toNat_ofNat']
    split at hint <;> omega

/-- Two losses leave the member the same rating. -/
theorem modifyPersonalRating_eq_iff (member : ArenaTeamMember) {loss loss' : Int}
    (hloss : 1 ≤ loss) (hloss' : 1 ≤ loss') :
    (member.modifyPersonalRating (-loss)).countGame =
        (member.modifyPersonalRating (-loss')).countGame ↔
      loss = loss' ∨
        int32 member.personalRating ≤ loss ∧ int32 member.personalRating ≤ loss' := by
  have hafter := modifyPersonalRating_toNat member hloss
  have hafter' := modifyPersonalRating_toNat member hloss'
  constructor
  · intro h
    have hsame := congrArg (fun member => (member.personalRating.toNat : Int)) h
    dsimp only [ArenaTeamMember.countGame] at hsame
    omega
  · intro h
    have hsame : (member.modifyPersonalRating (-loss)).personalRating =
        (member.modifyPersonalRating (-loss')).personalRating := UInt32.toNat_inj.1 (by omega)
    unfold ArenaTeamMember.modifyPersonalRating at hsame ⊢
    dsimp only at hsame
    rw [hsame]

/-- The match costs the member the same at both ratings, or all it has. -/
def CostsTheSame (config : Config) (chance : Nat → Nat → K) (team : ArenaTeam)
    (againstRating : UInt32) (member : ArenaTeamMember) : Prop :=
  let loss := lossAgainst config chance team.stats.rating.toNat againstRating.toNat
  let loss' := lossAgainst config chance member.personalRating.toNat againstRating.toNat
  loss = loss' ∨ int32 member.personalRating ≤ loss ∧ int32 member.personalRating ≤ loss'

variable {team : ArenaTeam} {player : TeamPlayer} {againstRating : UInt32}

variable (config chance team player againstRating) in
theorem memberLostLoop_eq_iff (members : List ArenaTeamMember) :
    (team.memberLostLoop config chance player againstRating members).1 =
        ArenaTeam.offlineMemberLostLoop config chance player.guid againstRating members ↔
      ∀ member, members.find? (fun member => member.guid = player.guid) = some member →
        CostsTheSame config chance team againstRating member := by
  induction members with
  | nil => exact iff_of_true rfl fun _ h => (by cases h)
  | cons member rest ih =>
      rw [ArenaTeam.memberLostLoop, ArenaTeam.offlineMemberLostLoop]
      by_cases hguid : member.guid = player.guid
      · rw [if_pos hguid, if_pos hguid, List.find?_cons_of_pos (by simpa using hguid)]
        dsimp only
        rw [List.cons_eq_cons, and_iff_left rfl]
        have hiff := modifyPersonalRating_eq_iff member
          (one_le_lossAgainst config chance team.stats.rating.toNat againstRating.toNat)
          (one_le_lossAgainst config chance member.personalRating.toNat againstRating.toNat)
        unfold lossAgainst at hiff
        rw [neg_neg, neg_neg] at hiff
        rw [hiff]
        constructor
        · intro h member' heq
          cases heq
          exact h
        · exact fun h => h member rfl
      · rw [if_neg hguid, if_neg hguid, List.find?_cons_of_neg (by simpa using hguid), ← ih]
        exact ⟨fun h => (List.cons_eq_cons.1 h).2, fun h => congrArg (member :: ·) h⟩

/-- The two ways to charge a lost match leave the same members if and only if the first
member with the guid, if there is one, pays the same at the rating of the team as at its
own. Exactly then a player that leaves is charged the same, found or not. -/
theorem memberLost_eq_offlineMemberLost_iff (config : Config) (chance : Nat → Nat → K)
    (team : ArenaTeam) (guid : Nat) (againstRating : UInt32) :
    (∀ arenaTeamInfo,
      (team.memberLost config chance ⟨guid, arenaTeamInfo⟩ againstRating).1.members =
          (team.offlineMemberLost config chance guid againstRating).members ∧
        team.leaveInvited config chance (some arenaTeamInfo) guid againstRating =
          team.leaveInvited config chance none guid againstRating) ↔
      ∀ member, team.members.find? (fun member => member.guid = guid) = some member →
        CostsTheSame config chance team againstRating member := by
  have hloop := fun arenaTeamInfo =>
    memberLostLoop_eq_iff config chance team ⟨guid, arenaTeamInfo⟩ againstRating team.members
  constructor
  · intro h
    exact (hloop fun _ => 0).1 (h fun _ => 0).1
  · intro h arenaTeamInfo
    have hmembers := (hloop arenaTeamInfo).2 h
    refine ⟨hmembers, ?_⟩
    unfold ArenaTeam.leaveInvited ArenaTeam.memberLost ArenaTeam.offlineMemberLost
    dsimp only
    rw [hmembers]

/-! A team of rating 1900 and a member of rating 1500 meet opponents of rating 1500. -/

/-- The chance to win, for ratings that differ by a multiple of 400. -/
def chanceBy400 (own enemy : Nat) : ℚ := 1 / (1 + 10 ^ (((enemy : Int) - own) / 400))

def recruit : ArenaTeamMember := ⟨7, "", 1, 0, 0, 0, 0, 1500⟩

def veteranTeam : ArenaTeam := ⟨1, 7, { ArenaTeamStats.new with rating := 1900 }, 0, [recruit]⟩

/-- Were the team rated 1500 too, it would make no difference who charges. -/
theorem recruit_pays_the_same :
    ({ veteranTeam with stats := { ArenaTeamStats.new with rating := 1500 } }.memberLost
        plainConfig chanceBy400 ⟨7, fun _ => 0⟩ 1500).1.members =
      ({ veteranTeam with stats := { ArenaTeamStats.new with rating := 1500 } }.offlineMemberLost
        plainConfig chanceBy400 7 1500).members :=
  ((memberLost_eq_offlineMemberLost_iff plainConfig chanceBy400 _ 7 1500).2
    (fun member hmember => by
      cases hmember
      exact .inl rfl) fun _ => 0).1

theorem recruit_pays_less_connected :
    (veteranTeam.memberLost plainConfig chanceBy400 ⟨7, fun _ => 0⟩ 1500).1.members.map
        ArenaTeamMember.personalRating = [1498] ∧
      (veteranTeam.offlineMemberLost plainConfig chanceBy400 7 1500).members.map
        ArenaTeamMember.personalRating = [1484] := by
  decide +kernel

end Sunstrider.Battlegrounds.Arenas
