import Sunstrider.Proofs.GuildMembers

/-!
# What an operation does to a guild

An operation writes the players it concerns and at most one guild. Here the players are
forgotten: `Change` says, once for all operations, what the guild that an operation finds
may become, together with what the handler has checked by then. What holds of a guild over
whole runs is then proved by cases on it, without a look into the handlers.
-/

set_option linter.unusedSectionVars false

namespace Sunstrider.Guilds

variable {P : Type} [DecidableEq P]

namespace Guild

variable {G G' : Guild P} {walk : Walk (Member P)} {p q : P} {m : Member P}

/-- `_SetLeaderGUID`, on the guild. -/
def led (p : P) (G : Guild P) : Guild P :=
  ({ G with leaderGuid := p } : Guild P).setMemberRank p grGuildMaster

/-- `DeleteMember`, on the guild. -/
def afterDelete (walk : Walk (Member P)) (p : P) (G : Guild P) : Option (Guild P) :=
  if G.leaderGuid = p then
    (G.newLeader walk p).map fun leader => (G.led leader.guid).eraseMember p
  else some (G.eraseMember p)

/-- A guild that was created: its leader is its only member. -/
def Founded (G : Guild P) : Prop :=
  ∃ F : Guild P, ∃ m, F.ranks = [] ∧ F.members = [] ∧ F.leaderGuid = m.guid ∧
    m.rankId = grGuildMaster ∧ G = F.createDefaultGuildRanks.putMember m

theorem mem_setMemberRank {r : Nat} (h : m ∈ (G.setMemberRank p r).members) :
    ∃ m' ∈ G.members, m'.guid = m.guid ∧
      m.rankId = if m.guid = p then r % 2 ^ 8 else m'.rankId := by
  obtain ⟨m', hm', rfl⟩ := List.mem_map.1 h
  refine ⟨m', hm', ?_⟩
  split
  · exact ⟨rfl, rfl⟩
  · exact ⟨rfl, rfl⟩

theorem setMemberRank_mem {r : Nat} (h : m ∈ G.members) :
    ∃ m' ∈ (G.setMemberRank p r).members, m'.guid = m.guid ∧
      m'.rankId = if m.guid = p then r % 2 ^ 8 else m.rankId := by
  refine ⟨_, List.mem_map_of_mem h, ?_⟩
  dsimp only
  split
  · exact ⟨rfl, rfl⟩
  · exact ⟨rfl, rfl⟩

theorem mem_eraseMember : m ∈ (G.eraseMember p).members ↔ m ∈ G.members ∧ m.guid ≠ p := by
  simp [eraseMember]

theorem mem_putMember {m' : Member P} : m' ∈ (G.putMember m).members ↔
    m' ∈ G.members ∧ m'.guid ≠ m.guid ∨ m' = m := by
  simp [putMember]

/-- One entry a player. -/
theorem eq_of_guid {m' : Member P} (hm : m ∈ G.members) (hm' : m' ∈ G.members)
    (h : m.guid = m'.guid) : m = m' := List.inj_on_of_nodup_map G.distinct hm hm' h

theorem getMember_eq_some : G.getMember p = some m ↔ m ∈ G.members ∧ m.guid = p := by
  refine ⟨getMember_mem, fun ⟨hm, hp⟩ => ?_⟩
  cases hf : G.getMember p with
  | none =>
      have hnone := List.find?_eq_none.1 hf m hm
      exact absurd (decide_eq_true hp) hnone
  | some m' =>
      obtain ⟨hm', hp'⟩ := getMember_mem hf
      rw [eq_of_guid hm hm' (hp.trans hp'.symm)]

theorem getMember_eq_none : G.getMember p = none ↔ ∀ m ∈ G.members, m.guid ≠ p := by
  rw [getMember, List.find?_eq_none]
  simp

/-- The loop looks for a member of the least rank id, the first in its order. -/
theorem newLeader_eq_argmin (walk : Walk (Member P)) (p : P) (G : Guild P) :
    G.newLeader walk p =
      ((walk.order G.members).filter fun m => decide (m.guid ≠ p)).argmin Member.rankId := by
  unfold newLeader List.argmin
  rw [List.foldl_filter]
  congr 1
  funext best m
  by_cases hp : m.guid = p
  · rw [if_pos hp, if_neg (by simpa using hp)]
  · rw [if_neg hp, if_pos (by simpa using hp)]
    cases best <;> rfl

theorem newLeader_some (h : G.newLeader walk p = some m) :
    (m ∈ G.members ∧ m.guid ≠ p) ∧
      ∀ m' ∈ G.members, m'.guid ≠ p → m.rankId ≤ m'.rankId := by
  rw [newLeader_eq_argmin] at h
  have hmem : ∀ m', m' ∈ (walk.order G.members).filter (fun m => decide (m.guid ≠ p)) ↔
      m' ∈ G.members ∧ m'.guid ≠ p := by
    intro m'
    rw [List.mem_filter, (walk.perm G.members).mem_iff, decide_eq_true_eq]
  exact ⟨(hmem m).1 (List.argmin_mem h),
    fun m' hm' hp' => List.le_of_mem_argmin ((hmem m').2 ⟨hm', hp'⟩) h⟩

theorem newLeader_none (h : G.newLeader walk p = none) : ∀ m ∈ G.members, m.guid = p := by
  rw [newLeader_eq_argmin, List.argmin_eq_none, List.filter_eq_nil_iff] at h
  intro m hm
  have hm' := h m ((walk.perm G.members).mem_iff.2 hm)
  simpa using hm'

end Guild

namespace World

variable {w w' : World P} {walk : Walk (Member P)} {p q : P} {g h : Nat} {G G' : Guild P}

variable {f : Guild P → Guild P} {row : Option String} {o : Op P} {name : String}

/-! ## The guilds after each of the functions -/

theorem guilds_setGuild (g h : Nat) (G : Option (Guild P)) (w : World P) :
    (w.setGuild g G).guilds h = if h = g then G else w.guilds h := rfl

theorem guilds_changeRank (g : Nat) (p : P) (r : Nat) (w : World P) :
    (w.changeRank g p r).guilds = (w.modifyGuild g (Guild.setMemberRank p r)).guilds := by
  unfold changeRank
  dsimp only
  split <;> rfl

theorem setGuild_setGuild (g : Nat) (G G' : Option (Guild P)) (w : World P) :
    ((w.setGuild g G).setGuild g G').guilds = (w.setGuild g G').guilds := by
  funext h
  show (if h = g then G' else if h = g then G else w.guilds h) = if h = g then G' else w.guilds h
  split <;> rfl

theorem guilds_modifyGuild_of_some (hG : w.guilds g = some G) :
    (w.modifyGuild g f).guilds = (w.setGuild g (some (f G))).guilds := by
  rw [modifyGuild, hG]
  rfl

theorem modifyGuild_congr (hw : w'.guilds = w.guilds) :
    (w'.modifyGuild g f).guilds = (w.modifyGuild g f).guilds := by
  unfold modifyGuild setGuild
  rw [hw]

theorem guilds_setLeaderGUID (g : Nat) (p : P) (w : World P) :
    (w.setLeaderGUID g p).guilds = (w.modifyGuild g (Guild.led p)).guilds := by
  rw [setLeaderGUID, guilds_changeRank, modifyGuild, modifyGuild, modifyGuild, setGuild_setGuild]
  congr 2
  rw [guilds_setGuild, if_pos rfl, Option.map_map]
  rfl

theorem guilds_eraseMembers (l : List P) (g h : Nat) (w : World P) (hne : h ≠ g) :
    (l.foldl (fun w p => w.eraseMember g p) w).guilds h = w.guilds h := by
  induction l generalizing w with
  | nil => rfl
  | cons p l ih =>
      rw [List.foldl_cons, ih, guilds_eraseMember]
      exact if_neg hne

theorem guilds_disband (walk : Walk (Member P)) (g : Nat) (w : World P) :
    (w.disband walk g).guilds = (w.setGuild g none).guilds := by
  unfold disband
  cases hG : w.guilds g with
  | none =>
      funext h
      dsimp only
      rw [guilds_setGuild]
      split <;> rename_i hh
      · rw [hh]
        exact hG
      · rfl
  | some G =>
      funext h
      dsimp only
      rw [guilds_setGuild, guilds_setGuild]
      split <;> rename_i hh
      · rfl
      · exact guilds_eraseMembers _ g h w hh

theorem guilds_deleteMember (hG : w.guilds g = some G) (walk : Walk (Member P)) (p : P) :
    (w.deleteMember walk g p).guilds = (w.setGuild g (G.afterDelete walk p)).guilds := by
  unfold deleteMember Guild.afterDelete
  rw [hG]
  dsimp only
  split
  · cases hlead : G.newLeader walk p with
    | none => exact guilds_disband ..
    | some leader =>
        have hrank : ∀ w' : World P, w'.guilds = (w.setLeaderGUID g leader.guid).guilds →
            (w'.eraseMember g p).guilds =
              (w.setGuild g (some ((G.led leader.guid).eraseMember p))).guilds := by
          intro w' hw'
          rw [guilds_eraseMember, modifyGuild_congr hw',
            modifyGuild_congr (guilds_setLeaderGUID g leader.guid w),
            modifyGuild_congr (guilds_modifyGuild_of_some hG),
            guilds_modifyGuild_of_some (G := G.led leader.guid) (if_pos rfl)]
          exact setGuild_setGuild ..
        dsimp only
        split
        · exact hrank _ rfl
        · exact hrank _ rfl
  · rw [guilds_eraseMember]
    exact guilds_modifyGuild_of_some hG

/-- `AddMember` puts a member into the guild. -/
theorem guilds_addMember {rank : Option Nat} (hadd : w.addMember g p rank row = some w') :
    ∃ G m, w.guilds g = some G ∧ m.guid = p ∧ m.rankId = rank.getD G.lowestRankId ∧
      w'.guilds = (w.setGuild g (some (G.putMember m))).guilds := by
  obtain ⟨G, m, hG, hm, hr, hguilds, -⟩ := addMember_cases hadd
  exact ⟨G, m, hG, hm, hr, hguilds⟩

theorem isSome_addMember {rank : Option Nat} :
    (w.addMember g p rank row).isSome = true ↔
      (w.guilds g).isSome = true ∧ w.guildIdOf p = 0 ∧
        ((w.players p).connected = true ∨ row.isSome = true) := by
  unfold addMember guildIdOf
  cases w.guilds g with
  | none => simp
  | some G =>
      by_cases hp : (w.players p).connected = true
      · by_cases hfree : (w.players p).guildId = 0 <;> simp [hp, hfree]
      · by_cases hfree : w.cachedGuildId p = 0 <;> cases row <;> simp [hp, hfree]

/-! ## The operations -/

/-- The player asks to be taken into the guild, or is to be taken, and nothing in its way
but the guild itself. -/
def Joins (w : World P) (g : Nat) (p : P) : Op P → Prop
  | .acceptMember q allowed =>
      q = p ∧ w.findPlayer p = true ∧ (w.players p).guildId = 0 ∧ allowed = true ∧
        (w.players p).guildIdInvited = g
  | .gmInvite h q row =>
      q = p ∧ h = g ∧ w.known p = true ∧ w.guildIdOf p = 0 ∧
        ((w.players p).connected = true ∨ row.isSome = true)
  | _ => False

/-- What the guild with an id may become, by operation. -/
inductive Change (w : World P) (g : Nat) : Op P → Guild P → Guild P → Prop
  | same (o : Op P) (G : Guild P) : Change w g o G G
  | deleted (o : Op P) {walk : Walk (Member P)} {p : P} {G G' : Guild P}
      (h : G.afterDelete walk p = some G') : Change w g o G G'
  | joined {o : Op P} {G : Guild P} {m : Member P} (hjoin : w.Joins g m.guid o)
      (hrank : m.rankId = G.lowestRankId) : Change w g o G (G.putMember m)
  | demoted {walk : Walk (Member P)} {p : P} {name : String} {G : Guild P} {m me : Member P}
      (hm : m ∈ G.members) (hme : me ∈ G.members) (hrank : me.rankId < m.rankId)
      (hlow : m.rankId < G.lowestRankId) :
      Change w g (.updateMemberRank walk p name true) G (G.setMemberRank m.guid (m.rankId + 1))
  | promoted {walk : Walk (Member P)} {p : P} {name : String} {G : Guild P} {m me : Member P}
      (hm : m ∈ G.members) (hme : me ∈ G.members)
      (hrank : (me.rankId + 1) % 2 ^ 8 < m.rankId) :
      Change w g (.updateMemberRank walk p name false) G (G.setMemberRank m.guid (m.rankId - 1))
  | ranked {p : P} {r : Nat} {G : Guild P} {m : Member P} (hg : w.commandGuildId p = g)
      (hm : m ∈ G.members) (hp : m.guid = p) (hlow : r % 2 ^ 8 ≤ G.lowestRankId) :
      Change w g (.gmRank p r) G (G.setMemberRank p r)
  | handedOver {walk : Walk (Member P)} {p : P} {name : String} {G : Guild P} {m : Member P}
      (hp : w.guildOf p = some G) (hg : (w.players p).guildId = g) (hlead : G.isLeader p = true)
      (hm : G.getMemberByName walk name = some m) :
      Change w g (.setLeader walk p name) G ((G.led m.guid).setMemberRank p grOfficer)
  | rankAdded {p : P} {G G' : Guild P} (h : G.createRank grRightChat = some G') :
      Change w g (.addNewRank p) G G'
  | rankRemoved {p : P} {G : Guild P} (hp : w.guildOf p = some G)
      (hg : (w.players p).guildId = g) (hmin : guildRanksMinCount < G.ranksSize)
      (hlead : G.isLeader p = true) :
      Change w g (.removeLowestRank p) G { G with ranks := G.ranks.dropLast }

/-- One guild is written. -/
theorem change_setGuild {X : Option (Guild P)} (hG : w.guilds h = some G)
    (hX : ∀ X', h = g → X = some X' → Change w g o G X')
    (hG' : (w.setGuild h X).guilds g = some G') : ∃ G, w.guilds g = some G ∧ Change w g o G G' := by
  rw [guilds_setGuild] at hG'
  split at hG' <;> rename_i hg
  · exact ⟨G, by rw [hg]; exact hG, hX G' hg.symm hG'⟩
  · exact ⟨G', hG', .same o G'⟩

theorem change_deleteMember (hG : w.guilds h = some G)
    (hG' : (w.deleteMember walk h p).guilds g = some G') :
    ∃ G, w.guilds g = some G ∧ Change w g o G G' := by
  rw [guilds_deleteMember hG] at hG'
  exact change_setGuild hG (fun X' _ hX' => .deleted o hX') hG'

theorem change_disband (hG' : (w.disband walk h).guilds g = some G') :
    ∃ G, w.guilds g = some G ∧ Change w g o G G' := by
  rw [guilds_disband, guilds_setGuild] at hG'
  split at hG'
  · cases hG'
  · exact ⟨G', hG', .same o G'⟩

/-- The guild that is created has its leader as the only member. -/
theorem founded_create {nameFree : Bool} (hG' : (w.create p nameFree).guilds g = some G') :
    w.guilds g = some G' ∨ G'.Founded := by
  unfold create at hG'
  split at hG'
  · exact .inl hG'
  · dsimp only at hG'
    cases hadd : World.addMember w.nextGuildId p (some grGuildMaster) none _ with
    | none =>
        rw [hadd] at hG'
        exact .inl hG'
    | some w' =>
        rw [hadd] at hG'
        obtain ⟨G, m, hG, hm, hr, hguilds⟩ := guilds_addMember hadd
        rw [guilds_setGuild, if_pos rfl] at hG
        obtain rfl := Option.some.inj hG
        change w'.guilds g = some G' at hG'
        rw [hguilds, setGuild_setGuild, guilds_setGuild] at hG'
        split at hG'
        · exact .inr ⟨_, m, rfl, rfl, hm.symm, hr, (Option.some.inj hG').symm⟩
        · exact .inl hG'

theorem change_addMember (hadd : w.addMember h p none row = some w')
    (hjoin : h = g → w.Joins g p o) (hG' : w'.guilds g = some G') :
    ∃ G, w.guilds g = some G ∧ Change w g o G G' := by
  obtain ⟨G, m, hG, rfl, hr, hguilds⟩ := guilds_addMember hadd
  rw [hguilds] at hG'
  refine change_setGuild hG (fun X' hg hX' => ?_) hG'
  rw [← Option.some.inj hX']
  exact .joined (hjoin hg) hr

/-- A member's rank is written, and maybe the member's player. -/
theorem change_changeRank {r : Nat} (hG : w.guilds h = some G)
    (hc : h = g → Change w g o G (G.setMemberRank p r))
    (hG' : (w.changeRank h p r).guilds g = some G') :
    ∃ G, w.guilds g = some G ∧ Change w g o G G' := by
  rw [guilds_changeRank, guilds_modifyGuild_of_some hG] at hG'
  refine change_setGuild hG (fun X' hg hX' => ?_) hG'
  rw [← Option.some.inj hX']
  exact hc hg

theorem change_modifyGuild (hG : w.guilds h = some G) (hc : h = g → Change w g o G (f G))
    (hG' : (w.modifyGuild h f).guilds g = some G') :
    ∃ G, w.guilds g = some G ∧ Change w g o G G' := by
  rw [guilds_modifyGuild_of_some hG] at hG'
  refine change_setGuild hG (fun X' hg hX' => ?_) hG'
  rw [← Option.some.inj hX']
  exact hc hg

theorem change_updateMemberRank {demote : Bool}
    (hG' : (w.updateMemberRank walk p name demote).guilds g = some G') :
    ∃ G, w.guilds g = some G ∧ Change w g (.updateMemberRank walk p name demote) G G' := by
  cases hG : w.guildOf p with
  | none =>
      rw [updateMemberRank, hG] at hG'
      exact ⟨G', hG', .same ..⟩
  | some G =>
      have hg := (guildOf_some hG).1
      cases demote with
      | true =>
          simp only [updateMemberRank, hG, if_true] at hG'
          split at hG'
          · exact ⟨G', hG', .same ..⟩
          · split at hG'
            · rename_i m me hm hme
              have hmem := Guild.getMemberByName_mem hm
              repeat' split at hG'
              all_goals first
                | exact ⟨G', hG', .same ..⟩
                | exact change_changeRank hg
                    (fun _ => .demoted hmem (Guild.getMember_mem hme).1 (by omega) (by omega)) hG'
            · exact ⟨G', hG', .same ..⟩
      | false =>
          simp only [updateMemberRank, hG, Bool.false_eq_true, if_false] at hG'
          split at hG'
          · exact ⟨G', hG', .same ..⟩
          · split at hG'
            · rename_i m me hm hme
              have hmem := Guild.getMemberByName_mem hm
              repeat' split at hG'
              all_goals first
                | exact ⟨G', hG', .same ..⟩
                | exact change_changeRank hg
                    (fun _ => .promoted hmem (Guild.getMember_mem hme).1 (by omega)) hG'
            · exact ⟨G', hG', .same ..⟩

theorem guilds_setLeader {old new : Member P} (hp : w.guildOf p = some G)
    (hlead : G.isLeader p = true) (hold : G.getMember p = some old)
    (hnew : G.getMemberByName walk name = some new) :
    (w.setLeader walk p name).guilds = (w.setGuild (w.players p).guildId
      (some ((G.led new.guid).setMemberRank p grOfficer))).guilds := by
  unfold setLeader
  rw [hp]
  dsimp only
  rw [hlead, if_neg (by decide), hold, hnew]
  dsimp only
  rw [guilds_changeRank, modifyGuild_congr (guilds_setLeaderGUID ..),
    modifyGuild_congr (guilds_modifyGuild_of_some (guildOf_some hp).1),
    guilds_modifyGuild_of_some (G := G.led new.guid) (if_pos rfl), setGuild_setGuild,
    (Guild.getMember_mem hold).2]

theorem change_setLeader (hG' : (w.setLeader walk p name).guilds g = some G') :
    ∃ G, w.guilds g = some G ∧ Change w g (.setLeader walk p name) G G' := by
  have hnothing : w.setLeader walk p name = w →
      ∃ G, w.guilds g = some G ∧ Change w g (.setLeader walk p name) G G' := by
    intro hsame
    rw [hsame] at hG'
    exact ⟨G', hG', .same ..⟩
  cases hp : w.guildOf p with
  | none => exact hnothing (by rw [setLeader, hp])
  | some G =>
      by_cases hlead : G.isLeader p = true
      · cases hold : G.getMember p with
        | none => exact hnothing (by rw [setLeader, hp]; dsimp only; rw [hold, ite_id])
        | some old =>
            cases hnew : G.getMemberByName walk name with
            | none => exact hnothing (by rw [setLeader, hp]; dsimp only; rw [hnew]; simp)
            | some new =>
                rw [guilds_setLeader hp hlead hold hnew] at hG'
                refine change_setGuild (guildOf_some hp).1 (fun X' hg hX' => ?_) hG'
                rw [← Option.some.inj hX']
                exact .handedOver hp hg hlead hnew
      · exact hnothing (by rw [setLeader, hp]; dsimp only; rw [if_pos (by simpa using hlead)])

/-- What a step does to the guild with an id. -/
theorem change_step (hG' : (w.step o).guilds g = some G') :
    (∃ G, w.guilds g = some G ∧ Change w g o G G') ∨ G'.Founded := by
  have hsame : ∀ o : Op P, w.guilds g = some G' →
      (∃ G, w.guilds g = some G ∧ Change w g o G G') ∨ G'.Founded :=
    fun o hG => .inl ⟨G', hG, .same o G'⟩
  cases o with
  | inviteMember p invitee allowed =>
      refine hsame _ ?_
      change (w.inviteMember p invitee allowed).guilds g = some G' at hG'
      unfold inviteMember at hG'
      repeat' split at hG'
      all_goals exact hG'
  | acceptMember p allowed =>
      change (w.acceptMember p allowed).guilds g = some G' at hG'
      unfold acceptMember at hG'
      split at hG' <;> rename_i hrefused
      · exact hsame _ hG'
      · cases hadd : w.addMember (w.players p).guildIdInvited p none none with
        | none =>
            rw [hadd] at hG'
            exact hsame _ hG'
        | some w' =>
            rw [hadd] at hG'
            simp only [Bool.or_eq_true, Bool.not_eq_true', decide_eq_true_eq, not_or,
              Bool.not_eq_false, not_not] at hrefused
            exact .inl (change_addMember hadd
              (fun hg => ⟨rfl, hrefused.1.1, hrefused.1.2, hrefused.2, hg⟩) hG')
  | decline p =>
      refine hsame _ ?_
      change (w.decline p).guilds g = some G' at hG'
      unfold decline at hG'
      split at hG'
      all_goals exact hG'
  | leaveMember walk p =>
      change (w.leaveMember walk p).guilds g = some G' at hG'
      unfold leaveMember at hG'
      split at hG'
      · exact hsame _ hG'
      · rename_i G hp
        split at hG'
        · split at hG'
          · exact hsame _ hG'
          · exact .inl (change_disband hG')
        · exact .inl (change_deleteMember (guildOf_some hp).1 hG')
  | removeMember walk p name =>
      change (w.removeMember walk p name).guilds g = some G' at hG'
      unfold removeMember at hG'
      split at hG'
      · exact hsame _ hG'
      · rename_i G hp
        repeat' split at hG'
        all_goals first
          | exact hsame _ hG'
          | exact .inl (change_deleteMember (guildOf_some hp).1 hG')
  | updateMemberRank walk p name demote => exact .inl (change_updateMemberRank hG')
  | setLeader walk p name => exact .inl (change_setLeader hG')
  | addNewRank p =>
      change (w.addNewRank p).guilds g = some G' at hG'
      unfold addNewRank at hG'
      split at hG'
      · exact hsame _ hG'
      · rename_i G hp
        split at hG'
        · exact hsame _ hG'
        · split at hG'
          · exact hsame _ hG'
          · refine .inl (change_modifyGuild (guildOf_some hp).1 (fun hg => ?_) hG')
            cases hc : G.createRank grRightChat with
            | none => exact .same ..
            | some _ => exact .rankAdded hc
  | removeLowestRank p =>
      change (w.removeLowestRank p).guilds g = some G' at hG'
      unfold removeLowestRank at hG'
      split at hG'
      · exact hsame _ hG'
      · rename_i G hp
        split at hG' <;> rename_i hrefused
        · exact hsame _ hG'
        · refine .inl (change_modifyGuild (guildOf_some hp).1 (fun hg => ?_) hG')
          rw [not_or, not_or, Bool.not_eq_true', Bool.not_eq_false] at hrefused
          exact .rankRemoved hp hg (by omega) hrefused.2.2
  | disband walk p =>
      change (w.handleDisband walk p).guilds g = some G' at hG'
      unfold handleDisband at hG'
      split at hG'
      · exact hsame _ hG'
      · split at hG'
        · exact .inl (change_disband hG')
        · exact hsame _ hG'
  | gmCreate leader nameFree =>
      change (w.gmCreate leader nameFree).guilds g = some G' at hG'
      unfold gmCreate at hG'
      split at hG'
      · exact hsame _ hG'
      · exact (founded_create hG').imp_left fun hG => ⟨G', hG, .same ..⟩
  | gmInvite h p row =>
      change (w.gmInvite h p row).guilds g = some G' at hG'
      unfold gmInvite at hG'
      split at hG' <;> rename_i hk
      · cases hadd : w.addMember h p none row with
        | none =>
            rw [hadd] at hG'
            exact hsame _ hG'
        | some w' =>
            rw [hadd] at hG'
            exact .inl (change_addMember hadd (fun hg => ⟨rfl, hg, hk,
              (isSome_addMember.1 (by rw [hadd]; rfl)).2⟩) hG')
      · exact hsame _ hG'
  | gmUninvite walk p =>
      change (w.gmUninvite walk p).guilds g = some G' at hG'
      unfold gmUninvite at hG'
      split at hG'
      · cases hG : w.guilds (w.commandGuildId p) with
        | none =>
            unfold deleteMember at hG'
            rw [hG] at hG'
            exact hsame _ hG'
        | some G => exact .inl (change_deleteMember hG hG')
      · exact hsame _ hG'
  | gmRank p r =>
      change (w.gmRank p r).guilds g = some G' at hG'
      unfold gmRank at hG'
      split at hG'
      · exact hsame _ hG'
      · rename_i G hG
        split at hG' <;> rename_i hvalid
        · obtain ⟨m, hm⟩ := Option.isSome_iff_exists.1 hvalid.2
          obtain ⟨hmem, hguid⟩ := Guild.getMember_mem hm
          exact .inl (change_changeRank hG (fun hg => .ranked hg hmem hguid hvalid.1) hG')
        · exact hsame _ hG'
  | gmDelete walk h => exact .inl (change_disband hG')

/-- A property of the guild with an id, if there is one. -/
def At (Q : Guild P → Prop) (g : Nat) (w : World P) : Prop := ∀ G, w.guilds g = some G → Q G

/-- The rule for properties of a guild. -/
theorem at_step {Q : Guild P → Prop} (hfound : ∀ G, G.Founded → Q G)
    (hchange : ∀ G G', w.guilds g = some G → Change w g o G G' → Q G → Q G') (hw : At Q g w) :
    At Q g (w.step o) := by
  intro G' hG'
  rcases change_step hG' with ⟨G, hG, hc⟩ | hnew
  · exact hchange G G' hG hc (hw G hG)
  · exact hfound G' hnew

/-! ## Validation -/

/-- The ranks of the members in a list are written, all to the same. -/
theorem setRanks_spec (l : List (Member P)) (r : Guild P → Nat)
    (hr : ∀ G p k, r (Guild.setMemberRank p k G) = r G) (G : Guild P) :
    (l.foldl (fun G m => G.setMemberRank m.guid (r G)) G).ranks = G.ranks ∧
      (l.foldl (fun G m => G.setMemberRank m.guid (r G)) G).leaderGuid = G.leaderGuid ∧
      (l.foldl (fun G m => G.setMemberRank m.guid (r G)) G).members = G.members.map fun m =>
        if m.guid ∈ l.map Member.guid then { m with rankId := r G % 2 ^ 8 } else m := by
  induction l generalizing G with
  | nil => exact ⟨rfl, rfl, by simp⟩
  | cons a l ih =>
      obtain ⟨hranks, hlead, hmem⟩ := ih (G.setMemberRank a.guid (r G))
      refine ⟨hranks, hlead, ?_⟩
      rw [List.foldl_cons, hmem, hr]
      show (G.members.map _).map _ = _
      rw [List.map_map]
      refine List.map_congr_left fun m _ => ?_
      by_cases hm : m.guid = a.guid
      · simp [hm]
      · simp [hm]

/-- The same, for the members that are picked out. -/
theorem setRanksOf_spec (b : Member P → Bool) (r : Guild P → Nat)
    (hr : ∀ G p k, r (Guild.setMemberRank p k G) = r G)
    (hG' : (G.members.filter b).foldl (fun G m => G.setMemberRank m.guid (r G)) G = G') :
    G'.ranks = G.ranks ∧ G'.leaderGuid = G.leaderGuid ∧ G'.members = G.members.map fun m =>
      if b m then { m with rankId := r G % 2 ^ 8 } else m := by
  subst hG'
  obtain ⟨hranks, hlead, hmem⟩ := setRanks_spec (G.members.filter b) r hr G
  refine ⟨hranks, hlead, hmem.trans (List.map_congr_left fun m hm => ?_)⟩
  refine if_congr ⟨fun h => ?_, fun h => ?_⟩ rfl rfl
  · obtain ⟨m', hm', hguid⟩ := List.mem_map.1 h
    obtain ⟨hmem', hb⟩ := List.mem_filter.1 hm'
    rw [← Guild.eq_of_guid hmem' hm hguid]
    exact hb
  · exact List.mem_map_of_mem (List.mem_filter.2 ⟨hm, h⟩)

theorem members_validateMemberRanks (G : Guild P) : (validateMemberRanks G).members =
    G.members.map fun m =>
      if m.rankId > G.ranksSize then { m with rankId := G.lowestRankId % 2 ^ 8 } else m := by
  have hspec := setRanksOf_spec (fun m : Member P => decide (m.rankId > G.ranksSize))
    Guild.lowestRankId (fun _ _ _ => rfl) (G := G) rfl
  simp only [decide_eq_true_eq] at hspec
  exact hspec.2.2

theorem ranks_validateMemberRanks (G : Guild P) :
    (validateMemberRanks G).ranks = G.ranks :=
  (setRanksOf_spec _ Guild.lowestRankId (fun _ _ _ => rfl) rfl).1

theorem leaderGuid_validateMemberRanks (G : Guild P) :
    (validateMemberRanks G).leaderGuid = G.leaderGuid :=
  (setRanksOf_spec _ Guild.lowestRankId (fun _ _ _ => rfl) rfl).2.1

theorem members_validateGuildMasters (G : Guild P) : (validateGuildMasters G).members =
    G.members.map fun m =>
      if m.rankId = grGuildMaster ∧ m.guid ≠ G.leaderGuid then { m with rankId := grOfficer }
      else m := by
  have hspec := setRanksOf_spec
    (fun m : Member P => decide (m.rankId = grGuildMaster ∧ m.guid ≠ G.leaderGuid))
    (fun _ => grOfficer) (fun _ _ _ => rfl) (G := G) rfl
  simp only [decide_eq_true_eq] at hspec
  exact hspec.2.2

theorem ranks_validateGuildMasters (G : Guild P) :
    (validateGuildMasters G).ranks = G.ranks :=
  (setRanksOf_spec _ (fun _ => grOfficer) (fun _ _ _ => rfl) rfl).1

theorem leaderGuid_validateGuildMasters (G : Guild P) :
    (validateGuildMasters G).leaderGuid = G.leaderGuid :=
  (setRanksOf_spec _ (fun _ => grOfficer) (fun _ _ _ => rfl) rfl).2.1

/-- `Validate`, on the guild, up to the look for other guild masters. -/
def validated (walk : Walk (Member P)) (G : Guild P) : Option (Guild P) :=
  let G := validateMemberRanks (validateRanks G)
  match G.getMember G.leaderGuid with
  | none => G.afterDelete walk G.leaderGuid
  | some leader => if leader.rankId = grGuildMaster then some G else some (G.led leader.guid)

theorem guilds_validate (hG : w.guilds g = some G) (multiple : Bool) :
    (w.validate walk multiple g).guilds g =
      (validated walk G).map fun G => if multiple then G else validateGuildMasters G := by
  have hmasters : ∀ w' : World P, (if multiple then w' else
      w'.modifyGuild g validateGuildMasters).guilds g =
        (w'.guilds g).map fun G => if multiple then G else validateGuildMasters G := by
    intro w'
    cases multiple with
    | true => exact Option.map_id'.symm
    | false => exact if_pos rfl
  unfold validate validated
  rw [hG]
  dsimp only
  rw [hmasters]
  congr 1
  generalize validateMemberRanks (validateRanks G) = G₂
  have hwrite : (w.setGuild g (some G₂)).guilds g = some G₂ := if_pos rfl
  cases hlead : G₂.getMember G₂.leaderGuid with
  | none =>
      dsimp only
      rw [guilds_deleteMember hwrite]
      exact if_pos rfl
  | some leader =>
      dsimp only
      split
      · exact hwrite
      · rw [guilds_setLeaderGUID, guilds_modifyGuild_of_some hwrite]
        exact if_pos rfl

end World

end Sunstrider.Guilds
