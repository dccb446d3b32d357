import Sunstrider.Proofs.GuildChanges

/-!
# Members hold ranks that exist

A member stores the index of its rank, and the ranks are a vector that grows and shrinks
at its end. What an index is compared with differs from place to place: a demotion stops
at the lowest rank, a new member gets it, and the command of a game master does not go
beyond it. `Validate` replaces the ranks that lie beyond the count, but leaves the one
that is equal to it; and when the lowest rank is removed nobody looks at the members.

So the ranks of the members exist, in every run, exactly as long as neither happens: the
guild was loaded without a member one beyond the ranks, and a rank is removed only when
nobody has it. The member left behind at the end has a rank without rights, and a rank
without rights has the right to everything, for the check asks whether the result differs
from `GR_RIGHT_EMPTY`.
-/

set_option linter.unusedSectionVars false

namespace Sunstrider.Guilds

open Lib

variable {P : Type} [DecidableEq P]

namespace Guild

variable {G G' : Guild P} {walk : Walk (Member P)} {p q : P} {m : Member P} {r : Nat}

/-- The ranks are as many as they may be, and numbered from 0. -/
structure RanksOk (ranks : List RankInfo) : Prop where
  min : guildRanksMinCount ≤ ranks.length
  max : ranks.length ≤ guildRanksMaxCount
  numbered : ranks.map RankInfo.rankId = List.range ranks.length

/-- Every member's rank exists. -/
def Held (G : Guild P) : Prop := ∀ m ∈ G.members, m.rankId < G.ranks.length

/-- The ranks are in order and the members have no others. -/
structure RanksFit (G : Guild P) : Prop where
  ok : RanksOk G.ranks
  held : G.Held

/-! ## Counting ranks -/

theorem RanksOk.bounds (h : RanksOk G.ranks) : 5 ≤ G.ranks.length ∧ G.ranks.length ≤ 10 :=
  ⟨h.min, h.max⟩

theorem RanksOk.ranksSize (h : RanksOk G.ranks) : G.ranksSize = G.ranks.length := by
  have hb := h.bounds
  unfold Guild.ranksSize
  omega

theorem RanksOk.lowestRankId (h : RanksOk G.ranks) : G.lowestRankId = G.ranks.length - 1 := by
  have hb := h.bounds
  unfold Guild.lowestRankId
  omega

theorem ranks_createDefaultGuildRanks (G : Guild P) :
    G.createDefaultGuildRanks.ranks =
      [.new 0 grRightAll 0, .new 1 grRightAll 0, .new 2 grRightChat 0, .new 3 grRightChat 0,
        .new 4 grRightChat 0] := rfl

theorem ranksOk_createDefaultGuildRanks (G : Guild P) :
    RanksOk G.createDefaultGuildRanks.ranks := by
  rw [ranks_createDefaultGuildRanks]
  exact ⟨by decide, by decide, rfl⟩

theorem RanksOk.createRank {rights : BitVec 32} (h : RanksOk G.ranks)
    (hc : G.createRank rights = some G') :
    RanksOk G'.ranks ∧ G'.ranks.length = G.ranks.length + 1 ∧ G'.members = G.members := by
  unfold Guild.createRank at hc
  split at hc <;> rename_i hmax
  · cases hc
  · cases hc
    have hsize := h.ranksSize
    have hlen : (G.ranks ++ [RankInfo.new G.ranksSize rights 0]).length = G.ranks.length + 1 := by
      rw [List.length_append]
      rfl
    refine ⟨⟨?_, ?_, ?_⟩, hlen, rfl⟩
    · have hmin := h.min
      show guildRanksMinCount ≤ (G.ranks ++ [RankInfo.new G.ranksSize rights 0]).length
      omega
    · show (G.ranks ++ [RankInfo.new G.ranksSize rights 0]).length ≤ guildRanksMaxCount
      omega
    · show (G.ranks ++ [RankInfo.new G.ranksSize rights 0]).map RankInfo.rankId = _
      rw [hlen, List.range_succ, ← h.numbered, List.map_append, hsize]
      rfl

theorem RanksOk.dropLast (h : RanksOk G.ranks) (hmin : guildRanksMinCount < G.ranksSize) :
    RanksOk G.ranks.dropLast := by
  have hsize := h.ranksSize
  have hmax := h.max
  have hlen : G.ranks.dropLast.length = G.ranks.length - 1 := List.length_dropLast
  refine ⟨by omega, by omega, ?_⟩
  rw [List.map_dropLast, h.numbered, hlen]
  obtain ⟨n, hn⟩ : ∃ n, G.ranks.length = n + 1 := ⟨G.ranks.length - 1, by omega⟩
  rw [hn, List.range_succ, List.dropLast_concat]
  rfl

/-! ## Members -/

theorem held_setMemberRank (hr : r % 2 ^ 8 < G.ranks.length) :
    (G.setMemberRank p r).Held ↔ ∀ m ∈ G.members, m.guid ≠ p → m.rankId < G.ranks.length := by
  constructor
  · intro h m hm hp
    obtain ⟨m', hm', -, hrank⟩ := setMemberRank_mem (p := p) (r := r) hm
    rw [if_neg hp] at hrank
    rw [← hrank]
    exact h m' hm'
  · intro h m hm
    obtain ⟨m', hm', hguid, hrank⟩ := mem_setMemberRank hm
    rw [hrank]
    split <;> rename_i hp
    · exact hr
    · exact h m' hm' (by rw [hguid]; exact hp)

theorem Held.setMemberRank (h : G.Held) (hr : r % 2 ^ 8 < G.ranks.length) :
    (G.setMemberRank p r).Held := (held_setMemberRank hr).2 fun m hm _ => h m hm

theorem Held.eraseMember (h : G.Held) : (G.eraseMember p).Held :=
  fun m hm => h m (mem_eraseMember.1 hm).1

theorem RanksFit.setMemberRank (h : G.RanksFit) (hr : r % 2 ^ 8 < G.ranks.length) :
    (G.setMemberRank p r).RanksFit := ⟨h.ok, h.held.setMemberRank hr⟩

theorem RanksFit.led (h : G.RanksFit) (p : P) : (G.led p).RanksFit := by
  have hb := h.ok.bounds
  refine setMemberRank (G := { G with leaderGuid := p }) ⟨h.ok, h.held⟩ ?_
  show grGuildMaster % 2 ^ 8 < G.ranks.length
  unfold grGuildMaster
  omega

theorem RanksFit.afterDelete (h : G.RanksFit) (hc : G.afterDelete walk p = some G') :
    G'.RanksFit := by
  unfold Guild.afterDelete at hc
  split at hc
  · obtain ⟨leader, -, rfl⟩ := Option.map_eq_some_iff.1 hc
    exact ⟨h.ok, (h.led leader.guid).held.eraseMember⟩
  · cases hc
    exact ⟨h.ok, h.held.eraseMember⟩

theorem RanksFit.putMember (h : G.RanksFit) (hr : m.rankId < G.ranks.length) :
    (G.putMember m).RanksFit := by
  refine ⟨h.ok, fun m' hm' => ?_⟩
  rcases mem_putMember.1 hm' with ⟨hold, -⟩ | rfl
  · exact h.held m' hold
  · exact hr

theorem RanksFit.founded (h : G.Founded) : G.RanksFit := by
  obtain ⟨F, m, -, hm, -, hr, rfl⟩ := h
  refine RanksFit.putMember ⟨ranksOk_createDefaultGuildRanks F, ?_⟩ ?_
  · intro m' hm'
    rw [members_createDefaultGuildRanks, hm] at hm'
    cases hm'
  · rw [hr, ranks_createDefaultGuildRanks]
    exact Nat.succ_pos 4

/-- The last rank goes; nobody may have it. -/
theorem ranksFit_dropLast (h : G.RanksFit) (hmin : guildRanksMinCount < G.ranksSize) :
    ({ G with ranks := G.ranks.dropLast } : Guild P).RanksFit ↔
      ∀ m ∈ G.members, m.rankId ≠ G.lowestRankId := by
  have hlow := h.ok.lowestRankId
  have hb := h.ok.bounds
  have hlen : G.ranks.dropLast.length = G.ranks.length - 1 := List.length_dropLast
  constructor
  · intro hfit m hm
    have hlt : m.rankId < G.ranks.dropLast.length := hfit.held m hm
    omega
  · intro hnone
    refine ⟨h.ok.dropLast hmin, fun m hm => ?_⟩
    have hlt := h.held m hm
    have hne := hnone m hm
    show m.rankId < G.ranks.dropLast.length
    omega

end Guild

namespace World

variable {w w' : World P} {walk : Walk (Member P)} {p q : P} {g : Nat} {G G' : Guild P}

variable {o : Op P} {m leader : Member P}

/-- The condition: when the lowest rank is removed, nobody has it. -/
def RemovesUnheldRank (g : Nat) (w : World P) : Op P → Prop
  | .removeLowestRank p =>
      ∀ G, w.guildOf p = some G → (w.players p).guildId = g → guildRanksMinCount < G.ranksSize →
        G.isLeader p = true → ∀ m ∈ G.members, m.rankId ≠ G.lowestRankId
  | _ => True

theorem Change.ranksFit (hc : Change w g o G G') (h : G.RanksFit) (ho : RemovesUnheldRank g w o) :
    G'.RanksFit := by
  have hlow := h.ok.lowestRankId
  have hb := h.ok.bounds
  cases hc with
  | same => exact h
  | deleted _ hdel => exact h.afterDelete hdel
  | joined hjoin hrank => exact h.putMember (by omega)
  | demoted hm hme hrank hlt => exact h.setMemberRank (by omega)
  | @promoted _ _ _ _ m _ hm hme hrank =>
      have hheld := h.held m hm
      exact h.setMemberRank (by omega)
  | ranked hg hm hp hle => exact h.setMemberRank (by omega)
  | handedOver hp hg hlead hm =>
      refine (h.led _).setMemberRank ?_
      show grOfficer % 2 ^ 8 < G.ranks.length
      unfold grOfficer
      omega
  | rankAdded hadd =>
      obtain ⟨hok, hlen, hmem⟩ := h.ok.createRank hadd
      refine ⟨hok, fun m hm => ?_⟩
      rw [hmem] at hm
      have hheld := h.held m hm
      omega
  | rankRemoved hp hg hmin hlead =>
      exact (Guild.ranksFit_dropLast h hmin).2 (ho G hp hg hmin hlead)

/-- Otherwise somebody keeps the rank that is gone. -/
theorem removesUnheldRank_of_step (hw : At Guild.RanksFit g w)
    (hstep : At Guild.RanksFit g (w.step o)) : RemovesUnheldRank g w o := by
  cases o with
  | removeLowestRank p =>
      intro G hp hg hmin hlead
      obtain ⟨hG, -⟩ := guildOf_some hp
      rw [hg] at hG
      have h := hw G hG
      have hlow := h.ok.lowestRankId
      have hsize := h.ok.ranksSize
      have hb := h.ok.bounds
      refine (Guild.ranksFit_dropLast h hmin).1 (hstep _ ?_)
      show (w.removeLowestRank p).guilds g = _
      unfold removeLowestRank
      rw [hp]
      dsimp only
      rw [if_neg, hg, guilds_modifyGuild_of_some hG]
      · exact if_pos rfl
      · rw [hlead]
        simp only [Bool.not_true, Bool.false_eq_true, or_false]
        omega
  | _ => trivial

theorem ranksFit_step (hw : At Guild.RanksFit g w) (ho : RemovesUnheldRank g w o) :
    At Guild.RanksFit g (w.step o) :=
  at_step (fun _ => Guild.RanksFit.founded) (fun _ _ _ hc h => hc.ranksFit h ho) hw

/-! ## Loading -/

theorem members_validateRanks (G : Guild P) : (validateRanks G).members = G.members := by
  unfold validateRanks
  dsimp only
  split
  · exact Guild.members_createDefaultGuildRanks G
  · rfl

theorem leaderGuid_validateRanks (G : Guild P) :
    (validateRanks G).leaderGuid = G.leaderGuid := by
  unfold validateRanks
  dsimp only
  split
  · rfl
  · rfl

/-- The guilds that are repaired by `Validate`. -/
def Broken (G : Guild P) : Prop :=
  G.ranksSize < guildRanksMinCount ∨ guildRanksMaxCount < G.ranksSize ∨
    ∃ i < G.ranksSize, (G.rankInfo i).map RankInfo.rankId ≠ some i

theorem ranks_validateRanks_of_broken (h : Broken G) :
    (validateRanks G).ranks = G.createDefaultGuildRanks.ranks := by
  unfold validateRanks
  dsimp only
  split <;> rename_i h'
  · rfl
  · exact absurd h h'

/-- Ranks that are kept are as many as before and have the ids they had. -/
theorem ranks_validateRanks (h : ¬ Broken G) :
    (validateRanks G).ranks.map RankInfo.rankId = G.ranks.map RankInfo.rankId := by
  unfold validateRanks
  dsimp only
  split <;> rename_i h'
  · exact absurd h' h
  · rw [List.map_append, List.map_map]
    show (G.ranks.take G.ranksSize).map RankInfo.rankId ++ _ = _
    rw [← List.map_append, List.take_append_drop]

theorem length_validateRanks (h : ¬ Broken G) :
    (validateRanks G).ranks.length = G.ranks.length := by
  have hlen := congrArg List.length (ranks_validateRanks h)
  rwa [List.length_map, List.length_map] at hlen

/-- How many ranks a loaded guild has. -/
theorem ranksSize_validateRanks (G : Guild P) :
    5 ≤ (validateRanks G).ranksSize ∧ (validateRanks G).ranksSize ≤ 10 ∧
      (validateRanks G).lowestRankId + 1 = (validateRanks G).ranksSize := by
  have hbounds : 5 ≤ (validateRanks G).ranksSize ∧ (validateRanks G).ranksSize ≤ 10 := by
    by_cases h : Broken G
    · unfold Guild.ranksSize
      rw [ranks_validateRanks_of_broken h, Guild.ranks_createDefaultGuildRanks]
      exact ⟨by decide, by decide⟩
    · unfold Guild.ranksSize
      rw [length_validateRanks h]
      unfold Broken Guild.ranksSize guildRanksMinCount guildRanksMaxCount at h
      rw [not_or, not_or] at h
      omega
  refine ⟨hbounds.1, hbounds.2, ?_⟩
  unfold Guild.lowestRankId
  unfold Guild.ranksSize at hbounds ⊢
  omega

/-- The ranks of a loaded guild are in order, unless some 256 of them were not seen. -/
theorem ranksOk_validateRanks :
    Guild.RanksOk (validateRanks G).ranks ↔ Broken G ∨ G.ranks.length < 2 ^ 8 := by
  by_cases h : Broken G
  · rw [ranks_validateRanks_of_broken h]
    exact iff_of_true (Guild.ranksOk_createDefaultGuildRanks G) (.inl h)
  · rw [or_iff_right h]
    have hlen := length_validateRanks h
    constructor
    · intro hok
      have hmax := hok.bounds
      omega
    · intro hsmall
      have hsize : G.ranksSize = G.ranks.length := Nat.mod_eq_of_lt hsmall
      have hids := ranks_validateRanks h
      unfold Broken at h
      rw [not_or, not_or, hsize] at h
      obtain ⟨hmin, hmax, hids'⟩ := h
      refine ⟨by omega, by omega, ?_⟩
      rw [hids, hlen]
      refine List.ext_getElem (by simp) fun i hi hi' => ?_
      rw [List.length_range] at hi'
      have hid : (G.rankInfo i).map RankInfo.rankId = some i := by
        by_contra hne
        exact hids' ⟨i, hi', hne⟩
      rw [Guild.rankInfo, if_pos (by omega), List.getElem?_eq_getElem hi'] at hid
      rw [List.getElem_map, List.getElem_range]
      exact Option.some.inj hid

/-- The rank of the member is the one that the repair of the ranks leaves just beyond. -/
def OneBeyond (G : Guild P) (m : Member P) : Prop :=
  Broken G ∧ m.rankId = guildRanksMinCount ∨ ¬ Broken G ∧ m.rankId = G.ranksSize

theorem oneBeyond_iff : OneBeyond G m ↔ m.rankId = (validateRanks G).ranksSize := by
  unfold OneBeyond
  by_cases h : Broken G
  · unfold Guild.ranksSize
    rw [ranks_validateRanks_of_broken h, Guild.ranks_createDefaultGuildRanks]
    simp [h, guildRanksMinCount]
  · unfold Guild.ranksSize
    rw [length_validateRanks h]
    simp [h]

/-- The condition on what is loaded: 256 ranks are not overlooked, and nobody is one beyond
the ranks but a leader, who gets the first rank, or the only member, who becomes one. -/
def LoadedFit (G : Guild P) : Prop :=
  (Broken G ∨ G.ranks.length < 2 ^ 8 ∨ G.members = []) ∧
    ∀ m ∈ G.members, OneBeyond G m → m.guid = G.leaderGuid ∨ ∀ m' ∈ G.members, m' = m

/-- What becomes of a member's rank: it is one beyond the ranks if it was, and else it
exists. -/
def RankRepaired (G : Guild P) (m m₂ : Member P) : Prop :=
  m₂.guid = m.guid ∧ m₂.rankId ≤ (validateRanks G).ranksSize ∧
    (m₂.rankId = (validateRanks G).ranksSize ↔ OneBeyond G m)

theorem rankRepaired (G : Guild P) (m : Member P) :
    RankRepaired G m (if m.rankId > (validateRanks G).ranksSize then
      { m with rankId := (validateRanks G).lowestRankId % 2 ^ 8 } else m) := by
  obtain ⟨hmin, hmax, hlow⟩ := ranksSize_validateRanks G
  unfold RankRepaired
  rw [oneBeyond_iff]
  split <;> rename_i hbig
  · refine ⟨rfl, ?_, ?_⟩
    · show (validateRanks G).lowestRankId % 2 ^ 8 ≤ _
      omega
    · show (validateRanks G).lowestRankId % 2 ^ 8 = _ ↔ _
      omega
  · exact ⟨rfl, by omega, Iff.rfl⟩

theorem exists_repaired (hm : m ∈ G.members) :
    ∃ m₂ ∈ (validateMemberRanks (validateRanks G)).members, RankRepaired G m m₂ := by
  rw [members_validateMemberRanks, members_validateRanks]
  exact ⟨_, List.mem_map_of_mem hm, rankRepaired G m⟩

theorem exists_loaded {m₂ : Member P}
    (hm₂ : m₂ ∈ (validateMemberRanks (validateRanks G)).members) :
    ∃ m ∈ G.members, RankRepaired G m m₂ := by
  rw [members_validateMemberRanks, members_validateRanks] at hm₂
  obtain ⟨m, hm, rfl⟩ := List.mem_map.1 hm₂
  exact ⟨m, hm, rankRepaired G m⟩

/-- Apart from one who is about to lead, the members have ranks that exist exactly if they
were not one beyond. -/
theorem held_validateMemberRanks (G : Guild P) (l : P) :
    (∀ m ∈ (validateMemberRanks (validateRanks G)).members, m.guid ≠ l →
      m.rankId < (validateRanks G).ranksSize) ↔
    ∀ m ∈ G.members, m.guid ≠ l → ¬ OneBeyond G m := by
  constructor
  · intro h m hm hl hone
    obtain ⟨m₂, hm₂, hguid, -, hiff⟩ := exists_repaired hm
    have hlt := h m₂ hm₂ (by rw [hguid]; exact hl)
    have heq := hiff.2 hone
    omega
  · intro h m₂ hm₂ hl
    obtain ⟨m, hm, hguid, hle, hiff⟩ := exists_loaded hm₂
    have hne := mt hiff.1 (h m hm (by rw [← hguid]; exact hl))
    omega

/-- Where the leader is a member. -/
theorem held_of_leader
    (hlead : (validateMemberRanks (validateRanks G)).getMember G.leaderGuid = some leader) :
    (∀ m ∈ G.members, m.guid ≠ leader.guid → ¬ OneBeyond G m) ↔
      ∀ m ∈ G.members, OneBeyond G m → m.guid = G.leaderGuid ∨ ∀ m' ∈ G.members, m' = m := by
  obtain ⟨hmem, hguid⟩ := Guild.getMember_mem hlead
  obtain ⟨m₀, hm₀, hguid₀, -⟩ := exists_loaded hmem
  constructor
  · intro h m hm hone
    by_contra hc
    rw [not_or, ← hguid] at hc
    exact h m hm hc.1 hone
  · intro h m hm hl hone
    rcases h m hm hone with hl' | hall
    · exact hl (hl'.trans hguid.symm)
    · rw [← hall m₀ hm₀] at hl
      exact hl hguid₀.symm

/-- Where somebody else becomes the leader: one beyond the ranks only if all others are,
since the new leader has the highest rank. -/
theorem held_of_newLeader
    (hnone : (validateMemberRanks (validateRanks G)).getMember G.leaderGuid = none)
    (hnew : (validateMemberRanks (validateRanks G)).newLeader walk G.leaderGuid = some leader) :
    (∀ m ∈ G.members, m.guid ≠ leader.guid → ¬ OneBeyond G m) ↔
      ∀ m ∈ G.members, OneBeyond G m → m.guid = G.leaderGuid ∨ ∀ m' ∈ G.members, m' = m := by
  obtain ⟨⟨hmem, -⟩, hleast⟩ := Guild.newLeader_some hnew
  have hne : ∀ m ∈ G.members, m.guid ≠ G.leaderGuid := by
    intro m hm hguid
    obtain ⟨m₂, hm₂, hguid₂, -⟩ := exists_repaired hm
    exact Guild.getMember_eq_none.1 hnone m₂ hm₂ (hguid₂.trans hguid)
  constructor
  · intro h m hm hone
    refine .inr fun m' hm' => ?_
    have hguid : m.guid = leader.guid := by
      by_contra hc
      exact h m hm hc hone
    obtain ⟨m₂, hm₂, hguid₂, -, hiff⟩ := exists_repaired hm
    obtain ⟨m₂', hm₂', hguid₂', hle', hiff'⟩ := exists_repaired hm'
    -- the new leader is the member, and one beyond; so nobody has a rank that exists
    have hle := hleast m₂' hm₂' (by rw [hguid₂']; exact hne m' hm')
    rw [← Guild.eq_of_guid hm₂ hmem (hguid₂.trans hguid), hiff.2 hone] at hle
    have hone' : OneBeyond G m' := hiff'.1 (Nat.le_antisymm hle' hle)
    have hguid' : m'.guid = leader.guid := by
      by_contra hc
      exact h m' hm' hc hone'
    exact Guild.eq_of_guid hm' hm (hguid'.trans hguid.symm)
  · intro h m hm hl hone
    rcases h m hm hone with hl' | hall
    · exact hne m hm hl'
    · obtain ⟨m₀, hm₀, hguid₀, -⟩ := exists_loaded hmem
      rw [← hall m₀ hm₀] at hl
      exact hl hguid₀.symm

theorem length_pos (G : Guild P) : 0 < (validateRanks G).ranks.length := by
  have hmin := (ranksSize_validateRanks G).1
  unfold Guild.ranksSize at hmin
  omega

theorem held_led {G₂ : Guild P} {l : P} (hpos : 0 < G₂.ranks.length) :
    (G₂.led l).Held ↔ ∀ m ∈ G₂.members, m.guid ≠ l → m.rankId < G₂.ranks.length :=
  Guild.held_setMemberRank (G := { G₂ with leaderGuid := l }) hpos

/-- The guild after validation, up to the look for other guild masters: its ranks are the
repaired ones, some member leads, and the others keep their ranks. -/
theorem validated_cases (hG' : validated walk G = some G') :
    G'.ranks = (validateRanks G).ranks ∧ ∃ l,
      (G'.Held ↔ ∀ m ∈ (validateMemberRanks (validateRanks G)).members, m.guid ≠ l →
        m.rankId < (validateRanks G).ranks.length) ∧
      ((∀ m ∈ G.members, m.guid ≠ l → ¬ OneBeyond G m) ↔
        ∀ m ∈ G.members, OneBeyond G m →
          m.guid = G.leaderGuid ∨ ∀ m' ∈ G.members, m' = m) := by
  have hranks := ranks_validateMemberRanks (validateRanks G)
  have hpos : 0 < (validateMemberRanks (validateRanks G)).ranks.length := by
    rw [hranks]
    exact length_pos G
  have hleader : (validateMemberRanks (validateRanks G)).leaderGuid = G.leaderGuid :=
    (leaderGuid_validateMemberRanks _).trans (leaderGuid_validateRanks G)
  unfold validated at hG'
  dsimp only at hG'
  rw [hleader] at hG'
  split at hG' <;> rename_i hget
  · unfold Guild.afterDelete at hG'
    rw [if_pos hleader] at hG'
    obtain ⟨leader, hnew, rfl⟩ := Option.map_eq_some_iff.1 hG'
    refine ⟨hranks, leader.guid, ?_, held_of_newLeader hget hnew⟩
    rw [← hranks, ← held_led hpos]
    -- the old leader is not a member, so that erasing it changes nothing
    refine ⟨fun h m hm => h m (Guild.mem_eraseMember.2 ⟨hm, ?_⟩), fun h => h.eraseMember⟩
    obtain ⟨m', hm', hguid, -⟩ := Guild.mem_setMemberRank hm
    rw [← hguid]
    exact Guild.getMember_eq_none.1 hget m' hm'
  · rename_i leader
    split at hG' <;> rename_i hrank
    · cases hG'
      refine ⟨hranks, leader.guid, ?_, held_of_leader hget⟩
      rw [← hranks]
      refine ⟨fun h m hm _ => h m hm, fun h m hm => ?_⟩
      by_cases hl : m.guid = leader.guid
      · rw [Guild.eq_of_guid hm (Guild.getMember_mem hget).1 hl, hrank]
        exact hpos
      · exact h m hm hl
    · cases hG'
      refine ⟨hranks, leader.guid, ?_, held_of_leader hget⟩
      rw [← hranks]
      exact held_led hpos

/-- A guild without members is not accepted, and every other one is. -/
theorem validated_eq_none : validated walk G = none ↔ G.members = [] := by
  have hleader : (validateMemberRanks (validateRanks G)).leaderGuid = G.leaderGuid :=
    (leaderGuid_validateMemberRanks _).trans (leaderGuid_validateRanks G)
  unfold validated
  dsimp only
  rw [hleader]
  constructor
  · intro hnone
    split at hnone <;> rename_i hget
    · unfold Guild.afterDelete at hnone
      rw [if_pos hleader, Option.map_eq_none_iff] at hnone
      refine List.eq_nil_iff_forall_not_mem.2 fun m hm => ?_
      obtain ⟨m₂, hm₂, -⟩ := exists_repaired hm
      exact Guild.getMember_eq_none.1 hget m₂ hm₂ (Guild.newLeader_none hnone m₂ hm₂)
    · split at hnone <;> cases hnone
  · intro hempty
    have hnobody : ∀ m₂, m₂ ∉ (validateMemberRanks (validateRanks G)).members := by
      intro m₂ hm₂
      obtain ⟨m, hm, -⟩ := exists_loaded hm₂
      rw [hempty] at hm
      cases hm
    rw [Guild.getMember_eq_none.2 fun m hm => absurd hm (hnobody m)]
    dsimp only
    unfold Guild.afterDelete
    rw [if_pos hleader, Option.map_eq_none_iff]
    cases hnew : (validateMemberRanks (validateRanks G)).newLeader walk G.leaderGuid with
    | none => rfl
    | some leader => exact absurd (Guild.newLeader_some hnew).1.1 (hnobody leader)

theorem ranksFit_validated (hG' : validated walk G = some G') : G'.RanksFit ↔ LoadedFit G := by
  obtain ⟨hranks, l, hheld, hfit⟩ := validated_cases hG'
  by_cases hok : Guild.RanksOk (validateRanks G).ranks
  · have hload := ranksOk_validateRanks.1 hok
    rw [LoadedFit, ← hfit, ← held_validateMemberRanks, hok.ranksSize, ← hheld]
    refine ⟨fun h => ⟨?_, h.held⟩, fun h => ⟨by rw [hranks]; exact hok, h.2⟩⟩
    exact hload.imp_right .inl
  · refine iff_of_false (fun h => hok (by rw [← hranks]; exact h.ok)) fun h => ?_
    rw [ranksOk_validateRanks, not_or] at hok
    have hempty := (h.1.resolve_left hok.1).resolve_left hok.2
    rw [validated_eq_none.2 hempty] at hG'
    cases hG'

/-- The look for other guild masters makes no difference. -/
theorem ranksFit_validateGuildMasters : (validateGuildMasters G).RanksFit ↔ G.RanksFit := by
  have hranks := ranks_validateGuildMasters G
  have hheld : Guild.RanksOk G.ranks → ((validateGuildMasters G).Held ↔ G.Held) := by
    intro hok
    have hb := hok.bounds
    unfold Guild.Held
    rw [members_validateGuildMasters, hranks, List.forall_mem_map]
    refine forall₂_congr fun m _ => ?_
    split <;> rename_i hmaster
    · rw [hmaster.1]
      show grOfficer < _ ↔ grGuildMaster < _
      unfold grOfficer grGuildMaster
      omega
    · exact Iff.rfl
  constructor
  · rintro ⟨hok, h⟩
    rw [hranks] at hok
    exact ⟨hok, (hheld hok).1 h⟩
  · rintro ⟨hok, h⟩
    exact ⟨by rw [hranks]; exact hok, (hheld hok).2 h⟩

/-- What `Validate` accepts has ranks that fit exactly if what was loaded is fit. -/
theorem ranksFit_validate (walk : Walk (Member P)) (multiple : Bool) (g : Nat) (w : World P) :
    At Guild.RanksFit g (w.validate walk multiple g) ↔ At LoadedFit g w := by
  cases hG : w.guilds g with
  | none =>
      have hsame : w.validate walk multiple g = w := by
        unfold validate
        rw [hG]
      rw [hsame]
      refine iff_of_true (fun G hG' => ?_) fun G hG' => ?_
      · rw [hG] at hG'
        cases hG'
      · rw [hG] at hG'
        cases hG'
  | some G =>
      have hload : At LoadedFit g w ↔ LoadedFit G := by
        unfold At
        rw [hG]
        exact ⟨fun h => h G rfl, fun h G' hG' => Option.some.inj hG' ▸ h⟩
      rw [hload]
      unfold At
      rw [guilds_validate hG]
      cases hval : validated walk G with
      | none =>
          have hempty := validated_eq_none.1 hval
          refine iff_of_true (fun G' hG' => by cases hG') ⟨.inr (.inr hempty), ?_⟩
          rw [hempty]
          exact fun m hm => absurd hm List.not_mem_nil
      | some G' =>
          rw [← ranksFit_validated hval]
          have hmult : (if multiple then G' else validateGuildMasters G').RanksFit ↔
              G'.RanksFit := by
            split
            · exact Iff.rfl
            · exact ranksFit_validateGuildMasters
          rw [← hmult]
          exact ⟨fun h => h _ rfl, fun h G'' hG'' => Option.some.inj hG'' ▸ h⟩

/-- Of a guild that `Validate` accepted the ranks are in order, and those of its members
exist, at every moment of a run if and only if it was loaded without a member one beyond
the ranks, and no rank is removed that a member has. -/
theorem ranksFit_iff (walk : Walk (Member P)) (multiple : Bool) (g : Nat) (w : World P)
    (ops : List (Op P)) :
    (∀ os, os <+: ops → At Guild.RanksFit g (os.foldl step (w.validate walk multiple g))) ↔
      At LoadedFit g w ∧ Along step (RemovesUnheldRank g) (w.validate walk multiple g) ops := by
  have hload := ranksFit_validate walk multiple g w
  have hrun : ∀ w : World P, At Guild.RanksFit g w →
      ((∀ os, os <+: ops → At Guild.RanksFit g (os.foldl step w)) ↔
        Along step (RemovesUnheldRank g) w ops) :=
    fun w hw => Along.holds_iff (fun _ h => h) (fun _ _ => ranksFit_step)
      (fun _ _ => removesUnheldRank_of_step) hw
  constructor
  · intro h
    have hstart := h [] (List.nil_prefix ..)
    exact ⟨hload.1 hstart, (hrun _ hstart).1 h⟩
  · rintro ⟨hfit, halong⟩
    exact (hrun _ (hload.2 hfit)).2 halong

end World

/-- A guild of player 1, of which player 2 is a member too. -/
def stored (ranks rankId : Nat) : World Nat where
  players _ := ⟨"", true, true, 1, 0, 0, ⟨0, Nat.zero_le _⟩⟩
  cache _ := some 1
  guilds g := if g = 1 then some
    { leaderGuid := 1
      ranks := (List.range ranks).map fun i => .new i grRightChat 0
      members := [.new 1 "Leader" 0, .new 2 "Member" rankId]
      distinct := by simp [Member.new]
      purchasedTabs := 0
      bankMoney := 0 } else none
  nextGuildId := 2

/-- A member is loaded with rank 5 of ranks 0 to 4 and keeps it. Another has the last of
six ranks when it is removed, and may then remove others, for its rank has no rights. -/
theorem member_of_missing_rank :
    ¬ World.At Guild.RanksFit 1 ((stored 5 5).validate .id false 1) ∧
      ¬ World.At Guild.RanksFit 1
          (((stored 6 5).validate .id false 1).step (.removeLowestRank 1)) ∧
      ((((stored 6 5).validate .id false 1).step (.removeLowestRank 1)).guilds 1).map
        (fun G => G.hasRankRight 2 grRightRemove) = some true := by
  refine ⟨fun h => ?_, fun h => ?_, by decide⟩
  · have hlt := (h _ rfl).held (.new 2 "Member" 5) (.tail _ (.head _))
    exact absurd hlt (by decide)
  · have hlt := (h _ rfl).held (.new 2 "Member" 5) (.tail _ (.head _))
    exact absurd hlt (by decide)

end Sunstrider.Guilds
