import Sunstrider.Proofs.GuildRanks

/-!
# Every guild has one guild master

Who leads a guild is stored as its leader's GUID and as the first rank of one member.
`_SetLeaderGUID` writes both for the new leader, and whoever calls it sees to the old one:
`DeleteMember` erases it, `HandleSetLeader` makes it an officer afterwards. If both are the
same player, the officer is all that is left of it: the guild's leader has the second rank,
and nobody has the first.

Validation, with one guild master allowed, leaves exactly one, and all other requests keep
it so. A promotion ends below the rank of who promotes, a demotion and a new member have
low ranks, and the command of a game master is only as careful as the game master.
-/

set_option linter.unusedSectionVars false

namespace Sunstrider.Guilds

open Lib

variable {P : Type} [DecidableEq P]

namespace Guild

variable {G G' : Guild P} {walk : Walk (Member P)} {p q : P} {m : Member P} {r : Nat}

/-- The leader is a member, and the guild master. -/
def HasLeader (G : Guild P) : Prop :=
  ∃ m ∈ G.members, m.guid = G.leaderGuid ∧ m.rankId = grGuildMaster

/-- It is the only guild master. -/
structure Led (G : Guild P) : Prop where
  leader : G.HasLeader
  only : ∀ m ∈ G.members, m.rankId = grGuildMaster → m.guid = G.leaderGuid

/-- With it, what the comparisons of ranks need: there are neither too few nor too many. -/
structure WellLed (G : Guild P) : Prop where
  led : G.Led
  ranks : 5 ≤ G.ranksSize ∧ G.ranksSize ≤ 10
  held : ∀ m ∈ G.members, m.rankId ≤ 10

theorem lowestRankId_add_one (h : 5 ≤ G.ranksSize) : G.lowestRankId + 1 = G.ranksSize := by
  unfold lowestRankId
  unfold ranksSize at h ⊢
  omega

theorem HasLeader.led (hp : ∃ m ∈ G.members, m.guid = p) : (G.led p).HasLeader := by
  obtain ⟨m, hm, hguid⟩ := hp
  obtain ⟨m', hm', hguid', hrank⟩ :=
    setMemberRank_mem (G := { G with leaderGuid := p }) (p := p) (r := grGuildMaster) hm
  rw [if_pos hguid] at hrank
  exact ⟨m', hm', hguid'.trans hguid, hrank⟩

theorem HasLeader.eraseMember (h : G.HasLeader) (hp : G.leaderGuid ≠ p) :
    (G.eraseMember p).HasLeader := by
  obtain ⟨m, hm, hguid, hrank⟩ := h
  exact ⟨m, mem_eraseMember.2 ⟨hm, by rw [hguid]; exact hp⟩, hguid, hrank⟩

theorem HasLeader.setMemberRank (h : G.HasLeader)
    (hp : G.leaderGuid = p → r % 2 ^ 8 = grGuildMaster) : (G.setMemberRank p r).HasLeader := by
  obtain ⟨m, hm, hguid, hrank⟩ := h
  obtain ⟨m', hm', hguid', hrank'⟩ := setMemberRank_mem (p := p) (r := r) hm
  refine ⟨m', hm', hguid'.trans hguid, ?_⟩
  rw [hrank']
  split <;> rename_i he
  · exact hp (hguid.symm.trans he)
  · exact hrank

/-- A rank is written: the first to the leader, and to nobody else. -/
theorem Led.setMemberRank (h : G.Led) (hr : r % 2 ^ 8 = grGuildMaster ↔ G.leaderGuid = p) :
    (G.setMemberRank p r).Led := by
  refine ⟨h.leader.setMemberRank hr.2, fun m hm hmaster => ?_⟩
  obtain ⟨m', hm', hguid, hrank⟩ := mem_setMemberRank hm
  rw [hrank] at hmaster
  split at hmaster <;> rename_i he
  · exact he.trans (hr.1 hmaster).symm
  · rw [← hguid]
    exact h.only m' hm' hmaster

theorem Led.eraseMember (h : G.Led) (hp : G.leaderGuid ≠ p) : (G.eraseMember p).Led :=
  ⟨h.leader.eraseMember hp, fun m hm => h.only m (mem_eraseMember.1 hm).1⟩

/-- A new leader; the old one is still to be seen to. -/
theorem Led.only_led (h : G.Led) {l : P} (hm : m ∈ (G.led l).members)
    (hmaster : m.rankId = grGuildMaster) : m.guid = l ∨ m.guid = G.leaderGuid := by
  obtain ⟨m', hm', hguid, hrank⟩ := mem_setMemberRank hm
  rw [hrank] at hmaster
  split at hmaster <;> rename_i he
  · exact .inl he
  · rw [← hguid]
    exact .inr (h.only m' hm' hmaster)

theorem Led.afterDelete (h : G.Led) (hc : G.afterDelete walk p = some G') : G'.Led := by
  unfold Guild.afterDelete at hc
  split at hc <;> rename_i hp
  · obtain ⟨leader, hnew, rfl⟩ := Option.map_eq_some_iff.1 hc
    obtain ⟨⟨hmem, hne⟩, -⟩ := newLeader_some hnew
    refine ⟨(HasLeader.led ⟨leader, hmem, rfl⟩).eraseMember hne, fun m hm hmaster => ?_⟩
    obtain ⟨hm, hleft⟩ := mem_eraseMember.1 hm
    exact (h.only_led hm hmaster).resolve_right fun hc => hleft (hc.trans hp)
  · cases hc
    exact h.eraseMember hp

/-- The leader makes another member the leader. -/
theorem Led.handedOver (h : G.Led) (hp : G.leaderGuid = p) (hm : m ∈ G.members)
    (hne : m.guid ≠ p) : ((G.led m.guid).setMemberRank p grOfficer).Led := by
  refine ⟨(HasLeader.led ⟨m, hm, rfl⟩).setMemberRank fun hc => absurd hc hne,
    fun m' hm' hmaster => ?_⟩
  obtain ⟨m'', hm'', hguid, hrank⟩ := mem_setMemberRank hm'
  rw [hrank] at hmaster
  split at hmaster <;> rename_i he
  · cases hmaster
  · rw [← hguid]
    exact (h.only_led hm'' hmaster).resolve_right fun hc => he (hguid.symm.trans (hc.trans hp))

/-- A leader who hands over to itself ends as an officer. -/
theorem not_led_handedOver_self : ¬ ((G.led p).setMemberRank p grOfficer).Led := by
  intro h
  obtain ⟨m, hm, hguid, hrank⟩ := h.leader
  obtain ⟨m', -, -, hrank'⟩ := mem_setMemberRank hm
  have hp : m.guid = p := hguid
  rw [hrank', if_pos hp] at hrank
  cases hrank

theorem Led.putMember (h : G.Led) (hp : m.guid ≠ G.leaderGuid) (hr : m.rankId ≠ grGuildMaster) :
    (G.putMember m).Led := by
  obtain ⟨m', hm', hguid, hrank⟩ := h.leader
  refine ⟨⟨m', mem_putMember.2 (.inl ⟨hm', ?_⟩), hguid, hrank⟩, fun m'' hm'' hmaster => ?_⟩
  · rw [hguid]
    exact hp.symm
  · rcases mem_putMember.1 hm'' with ⟨hold, -⟩ | rfl
    · exact h.only m'' hold hmaster
    · exact absurd hmaster hr

/-- A leader who joins its guild again gets the rank of a new member. -/
theorem not_led_putMember (hp : m.guid = G.leaderGuid) (hr : m.rankId ≠ grGuildMaster) :
    ¬ (G.putMember m).Led := by
  intro h
  obtain ⟨m', hm', hguid, hrank⟩ := h.leader
  rcases mem_putMember.1 hm' with ⟨-, hne⟩ | rfl
  · exact hne (hguid.trans hp.symm)
  · exact hr hrank

/-- Under a leader, the leader is who the handlers take for one. -/
theorem Led.isLeader_iff (h : G.Led) : G.isLeader p = true ↔ G.leaderGuid = p := by
  unfold isLeader
  rw [Bool.or_eq_true, decide_eq_true_eq]
  constructor
  · rintro (hp | hmaster)
    · exact hp.symm
    · split at hmaster <;> rename_i hm
      · cases hmaster
      · obtain ⟨hmem, hguid⟩ := getMember_mem hm
        rw [← h.only _ hmem (of_decide_eq_true hmaster), hguid]
  · exact fun hp => .inl hp.symm

/-! ## Ranks stay within what the comparisons need -/

theorem WellLed.lowestRankId (h : G.WellLed) :
    4 ≤ G.lowestRankId ∧ G.lowestRankId ≤ 9 := by
  have hlow := lowestRankId_add_one h.ranks.1
  have hb := h.ranks
  omega

theorem held_setMemberRank_le (h : ∀ m ∈ G.members, m.rankId ≤ 10) (hr : r % 2 ^ 8 ≤ 10) :
    ∀ m ∈ (G.setMemberRank p r).members, m.rankId ≤ 10 := by
  intro m hm
  obtain ⟨m', hm', -, hrank⟩ := mem_setMemberRank hm
  rw [hrank]
  split
  · exact hr
  · exact h m' hm'

theorem WellLed.setMemberRank (h : G.WellLed) (hle : r % 2 ^ 8 ≤ 10)
    (hr : r % 2 ^ 8 = grGuildMaster ↔ G.leaderGuid = p) : (G.setMemberRank p r).WellLed :=
  ⟨h.led.setMemberRank hr, h.ranks, held_setMemberRank_le h.held hle⟩

theorem held_led_le (h : ∀ m ∈ G.members, m.rankId ≤ 10) (l : P) :
    ∀ m ∈ (G.led l).members, m.rankId ≤ 10 :=
  held_setMemberRank_le (G := { G with leaderGuid := l }) h (Nat.zero_le 10)

theorem ranksSize_afterDelete (hc : G.afterDelete walk p = some G') :
    G'.ranksSize = G.ranksSize := by
  unfold Guild.afterDelete at hc
  split at hc
  · obtain ⟨leader, -, rfl⟩ := Option.map_eq_some_iff.1 hc
    rfl
  · cases hc
    rfl

theorem held_afterDelete_le (h : ∀ m ∈ G.members, m.rankId ≤ 10)
    (hc : G.afterDelete walk p = some G') : ∀ m ∈ G'.members, m.rankId ≤ 10 := by
  unfold Guild.afterDelete at hc
  split at hc
  · obtain ⟨leader, -, rfl⟩ := Option.map_eq_some_iff.1 hc
    exact fun m hm => held_led_le h leader.guid m (mem_eraseMember.1 hm).1
  · cases hc
    exact fun m hm => h m (mem_eraseMember.1 hm).1

theorem WellLed.founded (h : G.Founded) : G.WellLed := by
  obtain ⟨F, m, -, hempty, hlead, hrank, rfl⟩ := h
  have honly : ∀ m', m' ∈ (F.createDefaultGuildRanks.putMember m).members ↔ m' = m := by
    intro m'
    rw [mem_putMember, members_createDefaultGuildRanks, hempty]
    simp
  have hsize : (F.createDefaultGuildRanks.putMember m).ranksSize = 5 := rfl
  refine ⟨⟨⟨m, (honly m).2 rfl, hlead.symm, hrank⟩, fun m' hm' _ => ?_⟩, by omega,
    fun m' hm' => ?_⟩
  · rw [(honly m').1 hm']
    exact hlead.symm
  · rw [(honly m').1 hm', hrank]
    exact Nat.zero_le 10

end Guild

namespace World

variable {w w' : World P} {walk : Walk (Member P)} {p q : P} {g : Nat} {G G' : Guild P}

/-- The condition: nobody hands over to itself, a game master gives the first rank to the
leader and to nobody else, and a leader does not join its own guild. -/
def KeepsLeader (g : Nat) (w : World P) : Op P → Prop
  | .setLeader walk p name =>
      ∀ G, w.guildOf p = some G → (w.players p).guildId = g → G.isLeader p = true →
        ∀ m, G.getMemberByName walk name = some m → m.guid ≠ p
  | .gmRank p r =>
      w.commandGuildId p = g → ∀ G, w.guilds g = some G → r % 2 ^ 8 ≤ G.lowestRankId →
        (G.getMember p).isSome = true → (r % 2 ^ 8 = grGuildMaster ↔ G.leaderGuid = p)
  | o => ∀ G, w.guilds g = some G → ¬ w.Joins g G.leaderGuid o

theorem not_joins_of_keepsLeader {o : Op P} (ho : KeepsLeader g w o) (hG : w.guilds g = some G) :
    ¬ w.Joins g G.leaderGuid o := by
  cases o with
  | setLeader => exact id
  | gmRank => exact id
  | _ => exact ho G hG

theorem Change.wellLed {o : Op P} (hc : Change w g o G G') (hG : w.guilds g = some G)
    (h : G.WellLed) (ho : KeepsLeader g w o) : G'.WellLed := by
  have hlow := h.lowestRankId
  have hranks := h.ranks
  have hone := Guild.lowestRankId_add_one hranks.1
  have hmaster : ∀ m ∈ G.members, 0 < m.rankId → m.guid ≠ G.leaderGuid := by
    intro m hm hpos hguid
    obtain ⟨m', hm', hguid', hrank⟩ := h.led.leader
    rw [← Guild.eq_of_guid hm' hm (hguid'.trans hguid.symm), hrank] at hpos
    exact Nat.lt_irrefl 0 hpos
  cases hc with
  | same => exact h
  | deleted _ hdel =>
      refine ⟨h.led.afterDelete hdel, ?_, Guild.held_afterDelete_le h.held hdel⟩
      rw [Guild.ranksSize_afterDelete hdel]
      exact hranks
  | @joined _ _ m hjoin hrank =>
      have hne : m.guid ≠ G.leaderGuid := by
        intro hc
        rw [hc] at hjoin
        exact not_joins_of_keepsLeader ho hG hjoin
      refine ⟨h.led.putMember hne ?_, hranks, fun m' hm' => ?_⟩
      · unfold grGuildMaster
        omega
      · rcases Guild.mem_putMember.1 hm' with ⟨hold, -⟩ | rfl
        · exact h.held m' hold
        · omega
  | @demoted _ _ _ _ m _ hm hme hrank hlt =>
      refine h.setMemberRank (by omega) (iff_of_false ?_ (hmaster m hm (by omega)).symm)
      unfold grGuildMaster
      omega
  | @promoted _ _ _ _ m me hm hme hrank =>
      have hheld := h.held m hm
      have hheld' := h.held me hme
      refine h.setMemberRank (by omega) (iff_of_false ?_ (hmaster m hm (by omega)).symm)
      unfold grGuildMaster
      omega
  | ranked hg hm hp hle =>
      refine h.setMemberRank (by omega) (ho hg G hG hle ?_)
      rw [Guild.getMember_eq_some.2 ⟨hm, hp⟩]
      rfl
  | @handedOver _ p _ _ m hp hg hlead hm =>
      have hleader := h.led.isLeader_iff.1 hlead
      refine ⟨h.led.handedOver hleader (Guild.getMemberByName_mem hm) (ho G hp hg hlead m hm),
        hranks, ?_⟩
      exact Guild.held_setMemberRank_le (Guild.held_led_le h.held m.guid) (by decide)
  | rankAdded hadd =>
      unfold Guild.createRank at hadd
      split at hadd <;> rename_i hmax
      · cases hadd
      · cases hadd
        refine ⟨⟨h.led.leader, h.led.only⟩, ?_, h.held⟩
        unfold Guild.ranksSize at hranks hmax ⊢
        unfold guildRanksMaxCount at hmax
        rw [List.length_append, List.length_singleton]
        omega
  | rankRemoved hp hg hmin hlead =>
      refine ⟨⟨h.led.leader, h.led.only⟩, ?_, h.held⟩
      unfold Guild.ranksSize at hranks hmin ⊢
      unfold guildRanksMinCount at hmin
      rw [List.length_dropLast]
      omega

theorem wellLed_step {o : Op P} (hw : At Guild.WellLed g w) (ho : KeepsLeader g w o) :
    At Guild.WellLed g (w.step o) :=
  at_step (fun _ => Guild.WellLed.founded) (fun _ _ hG hc h => hc.wellLed hG h ho) hw

/-! ## The condition is needed -/

theorem guilds_gmRank {r : Nat} (hG : w.guilds (w.commandGuildId p) = some G)
    (hlow : r % 2 ^ 8 ≤ G.lowestRankId) (hp : (G.getMember p).isSome = true) :
    (w.gmRank p r).guilds (w.commandGuildId p) = some (G.setMemberRank p r) := by
  unfold gmRank
  rw [hG]
  dsimp only
  rw [if_pos ⟨hlow, hp⟩, guilds_changeRank, guilds_modifyGuild_of_some hG]
  exact if_pos rfl

/-- Whoever joins is put in with the lowest rank. -/
theorem guilds_step_of_joins {o : Op P} (hG : w.guilds g = some G) (hjoin : w.Joins g p o) :
    ∃ m, m.guid = p ∧ m.rankId = G.lowestRankId ∧
      (w.step o).guilds g = some (G.putMember m) := by
  have hadd : ∀ row, w.guildIdOf p = 0 →
      ((w.players p).connected = true ∨ row.isSome = true) →
      ∃ m, m.guid = p ∧ m.rankId = G.lowestRankId ∧
        ((w.addMember g p none row).getD w).guilds g = some (G.putMember m) := by
    intro row hfree hrow
    obtain ⟨w', hw'⟩ := Option.isSome_iff_exists.1
      (isSome_addMember.2 ⟨by rw [hG]; rfl, hfree, hrow⟩ :
        (w.addMember g p none row).isSome = true)
    obtain ⟨G', m, hG', hm, hrank, hguilds⟩ := guilds_addMember hw'
    rw [hG] at hG'
    obtain rfl := Option.some.inj hG'
    refine ⟨m, hm, hrank, ?_⟩
    rw [hw']
    show w'.guilds g = _
    rw [hguilds]
    exact if_pos rfl
  cases o with
  | acceptMember q allowed =>
      obtain ⟨rfl, hfind, hfree, rfl, rfl⟩ := hjoin
      have hconn := connected_of_findPlayer hfind
      obtain ⟨m, hm, hrank, hguilds⟩ := hadd none (by rw [guildIdOf, if_pos hconn, hfree])
        (.inl hconn)
      refine ⟨m, hm, hrank, ?_⟩
      show (w.acceptMember q true).guilds _ = _
      rw [acceptMember, hfind, hfree]
      exact hguilds
  | gmInvite h q row =>
      obtain ⟨rfl, rfl, hk, hfree, hrow⟩ := hjoin
      obtain ⟨m, hm, hrank, hguilds⟩ := hadd row hfree hrow
      refine ⟨m, hm, hrank, ?_⟩
      show (w.gmInvite h q row).guilds _ = _
      rw [gmInvite, if_pos hk]
      exact hguilds
  | _ => exact hjoin.elim

theorem keepsLeader_of_step {o : Op P} (hw : At Guild.WellLed g w)
    (hstep : At Guild.Led g (w.step o)) : KeepsLeader g w o := by
  have hjoins : ∀ G, w.guilds g = some G → ¬ w.Joins g G.leaderGuid o := by
    intro G hG hjoin
    have h := hw G hG
    have hlow := h.lowestRankId
    obtain ⟨m, hm, hrank, hguilds⟩ := guilds_step_of_joins hG hjoin
    refine Guild.not_led_putMember hm ?_ (hstep _ hguilds)
    unfold grGuildMaster
    omega
  cases o with
  | setLeader walk p name =>
      intro G hp hg hlead m hm hself
      obtain ⟨hG, -⟩ := guildOf_some hp
      have h := hw G (by rw [← hg]; exact hG)
      have hleader := h.led.isLeader_iff.1 hlead
      obtain ⟨l, hl, hguid, -⟩ := h.led.leader
      have hold := Guild.getMember_eq_some.2 ⟨hl, hguid.trans hleader⟩
      have hguilds := guilds_setLeader hp hlead hold hm
      rw [hself] at hguilds
      refine Guild.not_led_handedOver_self (G := G) (p := p) (hstep _ ?_)
      show (w.setLeader walk p name).guilds g = _
      rw [hguilds, guilds_setGuild, if_pos hg.symm]
  | gmRank p r =>
      intro hg G hG hlow hp
      rw [← hg] at hG
      have hguilds := guilds_gmRank hG hlow hp
      have hled : (G.setMemberRank p r).Led := hstep _ (by rw [← hg]; exact hguilds)
      obtain ⟨m, hm⟩ := Option.isSome_iff_exists.1 hp
      obtain ⟨hmem, hguid⟩ := Guild.getMember_mem hm
      obtain ⟨m', hm', hguid', hrank'⟩ := Guild.setMemberRank_mem (p := p) (r := r) hmem
      rw [if_pos hguid] at hrank'
      constructor
      · intro hr
        have honly := hled.only m' hm' (hrank'.trans hr)
        exact honly.symm.trans (hguid'.trans hguid)
      · intro hleader
        obtain ⟨l, hl, hlguid, hlrank⟩ := hled.leader
        have hsame := Guild.eq_of_guid hm' hl
          ((hguid'.trans hguid).trans (hleader.symm.trans hlguid.symm))
        rw [← hrank', hsame]
        exact hlrank
  | _ => exact hjoins

/-! ## Loading -/

/-- Whatever was loaded, the guild that is accepted has a leader, and ranks within what the
comparisons need. -/
theorem validated_spec (hG' : validated walk G = some G') :
    G'.HasLeader ∧ (5 ≤ G'.ranksSize ∧ G'.ranksSize ≤ 10) ∧ ∀ m ∈ G'.members, m.rankId ≤ 10 := by
  obtain ⟨hmin, hmax, -⟩ := ranksSize_validateRanks G
  have hsize : (validateMemberRanks (validateRanks G)).ranksSize = (validateRanks G).ranksSize := by
    unfold Guild.ranksSize
    rw [ranks_validateMemberRanks]
  have hheld : ∀ m ∈ (validateMemberRanks (validateRanks G)).members, m.rankId ≤ 10 := by
    intro m hm
    obtain ⟨m', -, -, hle, -⟩ := exists_loaded hm
    omega
  unfold validated at hG'
  dsimp only at hG'
  split at hG' <;> rename_i hget
  · refine ⟨?_, ?_, Guild.held_afterDelete_le hheld hG'⟩
    · unfold Guild.afterDelete at hG'
      rw [if_pos rfl] at hG'
      obtain ⟨leader, hnew, rfl⟩ := Option.map_eq_some_iff.1 hG'
      obtain ⟨⟨hmem, hne⟩, -⟩ := Guild.newLeader_some hnew
      exact (Guild.HasLeader.led ⟨leader, hmem, rfl⟩).eraseMember hne
    · rw [Guild.ranksSize_afterDelete hG', hsize]
      exact ⟨hmin, hmax⟩
  · obtain ⟨hmem, hguid⟩ := Guild.getMember_mem hget
    split at hG' <;> rename_i hrank
    · cases hG'
      exact ⟨⟨_, hmem, hguid, hrank⟩, by omega, hheld⟩
    · cases hG'
      refine ⟨Guild.HasLeader.led ⟨_, hmem, rfl⟩, ?_, Guild.held_led_le hheld _⟩
      show 5 ≤ (validateMemberRanks (validateRanks G)).ranksSize ∧
        (validateMemberRanks (validateRanks G)).ranksSize ≤ 10
      omega

/-- The other guild masters become officers. -/
theorem wellLed_validateGuildMasters (hlead : G.HasLeader)
    (hranks : 5 ≤ G.ranksSize ∧ G.ranksSize ≤ 10) (hheld : ∀ m ∈ G.members, m.rankId ≤ 10) :
    (validateGuildMasters G).WellLed := by
  have hleader := leaderGuid_validateGuildMasters G
  have hmem := members_validateGuildMasters G
  refine ⟨⟨?_, fun m hm hmaster => ?_⟩, ?_, fun m hm => ?_⟩
  · obtain ⟨m, hm, hguid, hrank⟩ := hlead
    have hkept : m ∈ (validateGuildMasters G).members := by
      rw [hmem, List.mem_map]
      exact ⟨m, hm, if_neg fun hc => hc.2 hguid⟩
    exact ⟨m, hkept, hguid.trans hleader.symm, hrank⟩
  · rw [hmem] at hm
    obtain ⟨m', hm', rfl⟩ := List.mem_map.1 hm
    rw [hleader]
    by_cases hother : m'.rankId = grGuildMaster ∧ m'.guid ≠ G.leaderGuid
    · rw [if_pos hother] at hmaster
      cases hmaster
    · rw [if_neg hother] at hmaster ⊢
      by_contra hne
      exact hother ⟨hmaster, hne⟩
  · unfold Guild.ranksSize at hranks ⊢
    rw [ranks_validateGuildMasters]
    exact hranks
  · rw [hmem] at hm
    obtain ⟨m', hm', rfl⟩ := List.mem_map.1 hm
    split
    · exact Nat.le_add_left 1 9
    · exact hheld m' hm'

/-- Every guild that `Validate` accepts has exactly one guild master, its leader. -/
theorem wellLed_validate (walk : Walk (Member P)) (g : Nat) (w : World P) :
    At Guild.WellLed g (w.validate walk false g) := by
  intro G' hG'
  cases hG : w.guilds g with
  | none =>
      unfold validate at hG'
      rw [hG] at hG'
      exact absurd (hG.symm.trans hG') (by simp)
  | some G =>
      rw [guilds_validate hG] at hG'
      obtain ⟨G₂, hval, rfl⟩ := Option.map_eq_some_iff.1 hG'
      obtain ⟨hlead, hranks, hheld⟩ := validated_spec hval
      exact wellLed_validateGuildMasters hlead hranks hheld

/-- A guild that was accepted, or that is created in the run, has at every moment a leader
who is a member and the only guild master, if and only if the leader is kept so. -/
theorem led_iff (walk : Walk (Member P)) (g : Nat) (w : World P) (ops : List (Op P)) :
    (∀ os, os <+: ops → At Guild.Led g (os.foldl step (w.validate walk false g))) ↔
      Along step (KeepsLeader g) (w.validate walk false g) ops :=
  Along.holds_iff (I := At Guild.WellLed g) (fun _ hw G hG => (hw G hG).led)
    (fun _ _ => wellLed_step) (fun _ _ => keepsLeader_of_step) (wellLed_validate walk g w)

end World

/-- The leader names itself, and is an officer; so the guild has no guild master. -/
theorem leader_hands_over_to_itself :
    let w := ((stored 5 1).validate .id false 1).step (.setLeader .id 1 "Leader")
    (w.guilds 1).map (fun G => (G.leaderGuid, G.members.map Member.rankId)) = some (1, [1, 1]) ∧
      ¬ World.At Guild.Led 1 w := by
  refine ⟨by decide, fun h => ?_⟩
  obtain ⟨m, hm, -, hrank⟩ := (h _ rfl).leader
  have hnone : ∀ r ∈ [1, 1], r ≠ grGuildMaster := by decide
  exact hnone m.rankId (List.mem_map_of_mem hm) hrank

end Sunstrider.Guilds
