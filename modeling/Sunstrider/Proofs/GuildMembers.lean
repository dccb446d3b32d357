import Sunstrider.Lib.Runs
import Sunstrider.Guilds.GuildHandler

/-!
# Who is in which guild

A player's guild id and the member maps are meant to say the same. `AddMember` and the end
of `DeleteMember` write both sides, and whoever calls them has looked at one side and may
conclude about the other. What else `SetInGuild` is called for is to decline an
invitation: the player's side is reset without a look at the guild. That is right for a
player who has no guild, and for no other.

The run at the end has a member decline. The guild still counts the player in, and
another guild takes it as well.
-/

set_option linter.unusedSectionVars false

namespace Sunstrider.Guilds

open Lib

variable {P : Type} [DecidableEq P]

namespace Guild

def guids (G : Guild P) : List P := G.members.map Member.guid

variable {G : Guild P} {p q : P} {m : Member P}

@[simp] theorem guids_modifyMember (p : P) (f : Member P → Member P)
    (hf : ∀ m, (f m).guid = m.guid) (G : Guild P) : (G.modifyMember p f hf).guids = G.guids := by
  unfold guids
  rw [modifyMember, List.map_map]
  refine List.map_congr_left fun m _ => ?_
  show (if m.guid = p then f m else m).guid = m.guid
  split
  · exact hf m
  · rfl

@[simp] theorem guids_setMemberRank (p : P) (r : Nat) (G : Guild P) :
    (G.setMemberRank p r).guids = G.guids := guids_modifyMember ..

theorem mem_guids_eraseMember : q ∈ (G.eraseMember p).guids ↔ q ∈ G.guids ∧ q ≠ p := by
  simp only [guids, eraseMember, List.mem_map, List.mem_filter, decide_eq_true_eq]
  constructor
  · rintro ⟨m, ⟨hm, hne⟩, rfl⟩
    exact ⟨⟨m, hm, rfl⟩, hne⟩
  · rintro ⟨⟨m, hm, rfl⟩, hne⟩
    exact ⟨m, ⟨hm, hne⟩, rfl⟩

theorem mem_guids_putMember : q ∈ (G.putMember m).guids ↔ q ∈ G.guids ∨ q = m.guid := by
  simp only [guids, putMember, List.map_append, List.mem_append, List.map_singleton,
    List.mem_singleton, List.mem_map, List.mem_filter, decide_eq_true_eq]
  constructor
  · rintro (⟨m', ⟨hm', -⟩, rfl⟩ | h)
    · exact .inl ⟨m', hm', rfl⟩
    · exact .inr h
  · rintro (⟨m', hm', rfl⟩ | h)
    · by_cases he : m'.guid = m.guid
      · exact .inr he
      · exact .inl ⟨m', ⟨hm', he⟩, rfl⟩
    · exact .inr h

@[simp] theorem members_createRank (rights : BitVec 32) (G : Guild P) :
    ((G.createRank rights).getD G).members = G.members := by
  unfold createRank
  split
  · rfl
  · rfl

theorem guids_createRank (rights : BitVec 32) (G : Guild P) :
    ((G.createRank rights).getD G).guids = G.guids := by
  rw [guids, members_createRank]
  rfl

theorem members_createDefaultGuildRanks (G : Guild P) :
    G.createDefaultGuildRanks.members = G.members := by
  simp only [createDefaultGuildRanks, List.foldl_cons, List.foldl_nil, members_createRank]

theorem getMember_mem (h : G.getMember p = some m) : m ∈ G.members ∧ m.guid = p :=
  ⟨List.mem_of_find?_eq_some h, by simpa using List.find?_some h⟩

theorem guid_mem (h : m ∈ G.members) : m.guid ∈ G.guids := List.mem_map_of_mem h

theorem getMemberByName_mem {walk : Walk (Member P)} {name : String}
    (h : G.getMemberByName walk name = some m) : m ∈ G.members :=
  (walk.perm _).subset (List.mem_of_find?_eq_some h)

end Guild

namespace World

variable {w w' : World P} {walk : Walk (Member P)} {p q : P} {g h : Nat}

variable {c : Nat} {G : Guild P}

/-- The keys of the guild's member map. -/
def roster (g : Nat) (w : World P) : List P := ((w.guilds g).map Guild.guids).getD []

/-- The guild id that belongs to the player, connected or not. -/
def guildIdOf (p : P) (w : World P) : Nat :=
  if (w.players p).connected then (w.players p).guildId else w.cachedGuildId p

/-- A player's guild id is the guild's exactly if the player is in its member map. -/
def Agree (w : World P) : Prop := ∀ p g, p ∈ w.roster g ↔ g ≠ 0 ∧ w.guildIdOf p = g

/-- With it, what the cache says of a connected player is right, and the guild ids in use
are those up to the next one. -/
structure Registered (w : World P) : Prop where
  agree : Agree w
  cached : ∀ p c, (w.players p).connected = true → w.cache p = some c →
    (w.players p).guildId = c
  fresh : ∀ g, g = 0 ∨ w.nextGuildId ≤ g → w.guilds g = none
  next_pos : 0 < w.nextGuildId

/-! ## What is written -/

@[simp] theorem players_setPlayer_self (p : P) (f : PlayerInfo → PlayerInfo) (w : World P) :
    (w.setPlayer p f).players p = f (w.players p) := if_pos rfl

theorem players_setPlayer (p q : P) (f : PlayerInfo → PlayerInfo) (w : World P) :
    (w.setPlayer p f).players q = if q = p then f (w.players p) else w.players q := rfl

theorem players_setInGuild (p q : P) (c : Nat) (w : World P) : (w.setInGuild p c).players q =
    if q = p then { w.players p with guildId := c } else w.players q := rfl

theorem cache_setInGuild (p q : P) (c : Nat) (w : World P) : (w.setInGuild p c).cache q =
    if q = p then (w.cache p).map fun _ => c else w.cache q := rfl

theorem modifyGuild_eq_none {f : Guild P → Guild P} (hh : w.guilds h = none) :
    (w.modifyGuild g f).guilds h = none := by
  show (if h = g then (w.guilds g).map f else w.guilds h) = none
  split <;> rename_i he
  · rw [← he, hh]
    rfl
  · exact hh

theorem roster_setGuild (g h : Nat) (G : Option (Guild P)) (w : World P) :
    (w.setGuild g G).roster h = if h = g then (G.map Guild.guids).getD [] else w.roster h := by
  show ((if h = g then G else w.guilds h).map Guild.guids).getD [] = _
  split <;> rfl

/-- Ranks and leaders, but not who is a member. -/
structure SameMembership (w w' : World P) : Prop where
  connected : ∀ p, (w'.players p).connected = (w.players p).connected
  guildId : ∀ p, (w'.players p).guildId = (w.players p).guildId
  cache : w'.cache = w.cache
  next : w'.nextGuildId = w.nextGuildId
  present : ∀ g, w.guilds g = none → w'.guilds g = none
  roster : ∀ g, w'.roster g = w.roster g

namespace SameMembership

theorem trans {w'' : World P} (h : SameMembership w w') (h' : SameMembership w' w'') :
    SameMembership w w'' where
  connected p := (h'.connected p).trans (h.connected p)
  guildId p := (h'.guildId p).trans (h.guildId p)
  cache := h'.cache.trans h.cache
  next := h'.next.trans h.next
  present g hg := h'.present g (h.present g hg)
  roster g := (h'.roster g).trans (h.roster g)

theorem guildIdOf (hs : SameMembership w w') (p : P) : w'.guildIdOf p = w.guildIdOf p := by
  unfold World.guildIdOf cachedGuildId
  rw [hs.connected, hs.guildId, hs.cache]

theorem registered (hs : SameMembership w w') (hw : Registered w) : Registered w' where
  agree p g := by
    rw [hs.roster, hs.guildIdOf]
    exact hw.agree p g
  cached p c hp hc := by
    rw [hs.guildId]
    refine hw.cached p c ?_ ?_
    · rw [← hs.connected]
      exact hp
    · rw [← hs.cache]
      exact hc
  fresh g hg := by
    rw [hs.next] at hg
    exact hs.present g (hw.fresh g hg)
  next_pos := by
    rw [hs.next]
    exact hw.next_pos

/-- A player is written, but not its guild. -/
theorem setPlayer (p : P) {f : PlayerInfo → PlayerInfo} (w : World P)
    (hc : ∀ x, (f x).connected = x.connected) (hi : ∀ x, (f x).guildId = x.guildId) :
    SameMembership w (w.setPlayer p f) where
  connected q := by
    rw [players_setPlayer]
    split <;> rename_i hq
    · rw [hc, hq]
    · rfl
  guildId q := by
    rw [players_setPlayer]
    split <;> rename_i hq
    · rw [hi, hq]
    · rfl
  cache := rfl
  next := rfl
  present _ hg := hg
  roster _ := rfl

/-- A guild is written, but not its members. -/
theorem modifyGuild (g : Nat) {f : Guild P → Guild P} (hf : ∀ G, (f G).guids = G.guids)
    (w : World P) : SameMembership w (w.modifyGuild g f) where
  connected _ := rfl
  guildId _ := rfl
  cache := rfl
  next := rfl
  present _ hh := modifyGuild_eq_none hh
  roster h := by
    rw [World.modifyGuild, roster_setGuild]
    split <;> rename_i he
    · rw [he, World.roster, Option.map_map]
      have hsame : Guild.guids ∘ f = Guild.guids := funext hf
      rw [hsame]
    · rfl

theorem setRank (p : P) (r : Nat) (w : World P) : SameMembership w (w.setRank p r) :=
  setPlayer p w (fun _ => rfl) fun _ => rfl

theorem changeRank (g : Nat) (p : P) (r : Nat) (w : World P) :
    SameMembership w (w.changeRank g p r) := by
  have hwrite := modifyGuild g (Guild.guids_setMemberRank p r) w
  unfold World.changeRank
  dsimp only
  split
  · exact hwrite.trans (setRank ..)
  · exact hwrite

theorem setLeaderGUID (g : Nat) (p : P) (w : World P) :
    SameMembership w (w.setLeaderGUID g p) :=
  (modifyGuild g (f := fun G => { G with leaderGuid := p }) (fun _ => rfl) w).trans
    (changeRank ..)

end SameMembership

/-! ## One player's guild id is written -/

/-- `SetInGuild` and `UpdateCharacterGuildId`, as far as the guild ids go. -/
structure GuildIdSet (p : P) (c : Nat) (w w' : World P) : Prop where
  connected : ∀ q, (w'.players q).connected = (w.players q).connected
  guildIdOf : ∀ q, w'.guildIdOf q = if q = p then c else w.guildIdOf q
  cached : (∀ q c, (w.players q).connected = true → w.cache q = some c →
      (w.players q).guildId = c) →
    ∀ q c, (w'.players q).connected = true → w'.cache q = some c → (w'.players q).guildId = c
  next : w'.nextGuildId = w.nextGuildId

theorem GuildIdSet.trans_same {w'' : World P} (h : GuildIdSet p c w w')
    (hs : SameMembership w' w'') : GuildIdSet p c w w'' where
  connected q := (hs.connected q).trans (h.connected q)
  guildIdOf q := (hs.guildIdOf q).trans (h.guildIdOf q)
  cached hw q c hq hc := by
    rw [hs.guildId]
    rw [hs.connected] at hq
    rw [hs.cache] at hc
    exact h.cached hw q c hq hc
  next := hs.next.trans h.next

theorem setInGuild_spec (hp : (w.players p).connected = true) :
    GuildIdSet p c w (w.setInGuild p c) where
  connected q := by
    rw [players_setInGuild]
    split <;> rename_i hq
    · rw [hq]
    · rfl
  guildIdOf q := by
    unfold World.guildIdOf cachedGuildId
    rw [players_setInGuild, cache_setInGuild]
    by_cases hq : q = p
    · rw [if_pos hq, if_pos hq, if_pos hp, if_pos hq]
    · rw [if_neg hq, if_neg hq, if_neg hq]
  cached hw q c' hq hc := by
    rw [players_setInGuild] at hq ⊢
    rw [cache_setInGuild] at hc
    split at hc <;> rename_i he
    · rw [if_pos he]
      obtain ⟨_, -, hcc⟩ := Option.map_eq_some_iff.1 hc
      exact hcc
    · rw [if_neg he] at hq ⊢
      exact hw q c' hq hc
  next := rfl

theorem updateCharacterGuildId_spec (hp : (w.players p).connected = false)
    (hc : (w.cache p).isSome = true ∨ c = 0) :
    GuildIdSet p c w (w.updateCharacterGuildId p c) where
  connected _ := rfl
  guildIdOf q := by
    show (if (w.players q).connected then (w.players q).guildId
      else (if q = p then (w.cache p).map fun _ => c else w.cache q).getD 0) = _
    by_cases hq : q = p
    · subst hq
      rw [if_pos rfl, if_pos rfl, hp, if_neg Bool.false_ne_true]
      cases hcache : w.cache q with
      | none =>
          rw [hcache] at hc
          rcases hc with hc | hc
          · cases hc
          · exact hc.symm
      | some _ => rfl
    · rw [if_neg hq, if_neg hq]
      rfl
  cached hw q c' hq hc := by
    change (if q = p then (w.cache p).map fun _ => c else w.cache q) = some c' at hc
    split at hc <;> rename_i he
    · rw [he] at hq
      rw [show (w.players p).connected = true from hq] at hp
      cases hp
    · exact hw q c' hq hc
  next := rfl

/-! ## A player leaves -/

theorem roster_modifyEraseMember : q ∈ (w.modifyGuild g (Guild.eraseMember p)).roster h ↔
    q ∈ w.roster h ∧ ¬ (h = g ∧ q = p) := by
  rw [modifyGuild, roster_setGuild]
  by_cases hh : h = g
  · rw [if_pos hh, roster, hh]
    cases w.guilds g with
    | none => exact iff_of_false List.not_mem_nil fun hmem => List.not_mem_nil hmem.1
    | some G =>
        refine Guild.mem_guids_eraseMember.trans (and_congr_right fun _ => ?_)
        exact not_congr (iff_and_self.2 fun _ => rfl)
  · rw [if_neg hh]
    exact (and_iff_left fun hc => hh hc.1).symm

theorem eraseMember_guildIdSet (w : World P) (g : Nat) (p : P) :
    GuildIdSet p 0 w (w.eraseMember g p) := by
  let w₁ := w.modifyGuild g (Guild.eraseMember p)
  show GuildIdSet p 0 w (if (w.players p).connected = true then (w₁.setInGuild p 0).setRank p 0
    else w₁.updateCharacterGuildId p 0)
  have hmod : ∀ w', GuildIdSet p 0 w₁ w' → GuildIdSet p 0 w w' :=
    fun w' h => ⟨h.connected, h.guildIdOf, h.cached, h.next⟩
  split <;> rename_i hp
  · exact hmod _ ((setInGuild_spec (w := w₁) hp).trans_same (.setRank ..))
  · exact hmod _ (updateCharacterGuildId_spec (Bool.eq_false_iff.2 hp) (.inr rfl))

theorem guilds_eraseMember (w : World P) (g : Nat) (p : P) :
    (w.eraseMember g p).guilds = (w.modifyGuild g (Guild.eraseMember p)).guilds := by
  unfold eraseMember
  dsimp only
  split <;> rfl

theorem mem_roster_eraseMember :
    q ∈ (w.eraseMember g p).roster h ↔ q ∈ w.roster h ∧ ¬ (h = g ∧ q = p) := by
  rw [← roster_modifyEraseMember]
  unfold roster
  rw [guilds_eraseMember]

/-- Whoever is a member of the guild, or of none, may leave it. -/
theorem registered_eraseMember (hw : Registered w)
    (hp : w.guildIdOf p = g ∨ w.guildIdOf p = 0) : Registered (w.eraseMember g p) where
  agree q h := by
    rw [mem_roster_eraseMember, (eraseMember_guildIdSet w g p).guildIdOf, hw.agree q h]
    by_cases hq : q = p
    · subst hq
      rw [if_pos rfl]
      refine iff_of_false (fun hh => ?_) fun hh => hh.1 hh.2.symm
      obtain ⟨⟨hpos, hid⟩, hne⟩ := hh
      rcases hp with hp | hp
      · exact hne ⟨hid.symm.trans hp, rfl⟩
      · exact hpos (hid.symm.trans hp)
    · rw [if_neg hq]
      exact and_iff_left fun hh => hq hh.2
  cached := (eraseMember_guildIdSet w g p).cached hw.cached
  fresh h hh := by
    rw [(eraseMember_guildIdSet w g p).next] at hh
    rw [guilds_eraseMember]
    exact modifyGuild_eq_none (hw.fresh h hh)
  next_pos := by
    rw [(eraseMember_guildIdSet w g p).next]
    exact hw.next_pos

/-- Everyone in a list leaves; all are members of the guild, or of none. -/
theorem eraseMembers_spec (l : List P) (hw : Registered w)
    (hl : ∀ p ∈ l, w.guildIdOf p = g ∨ w.guildIdOf p = 0) :
    Registered (l.foldl (fun w p => w.eraseMember g p) w) ∧
      ∀ q, q ∈ (l.foldl (fun w p => w.eraseMember g p) w).roster g →
        q ∈ w.roster g ∧ q ∉ l := by
  induction l generalizing w with
  | nil => exact ⟨hw, fun q hq => ⟨hq, List.not_mem_nil⟩⟩
  | cons p l ih =>
      have hset := eraseMember_guildIdSet w g p
      obtain ⟨hreg, hrost⟩ := ih (registered_eraseMember hw (hl p List.mem_cons_self))
        (fun q hq => by
          rw [hset.guildIdOf]
          split
          · exact .inr rfl
          · exact hl q (List.mem_cons_of_mem p hq))
      refine ⟨hreg, fun q hq => ?_⟩
      obtain ⟨hmem, hnot⟩ := hrost q hq
      obtain ⟨hold, hne⟩ := mem_roster_eraseMember.1 hmem
      refine ⟨hold, fun hc => ?_⟩
      rcases List.mem_cons.1 hc with hqp | hql
      · exact hne ⟨rfl, hqp⟩
      · exact hnot hql

theorem registered_setGuild_none (hw : Registered w) (hempty : ∀ q, q ∉ w.roster g) :
    Registered (w.setGuild g none) where
  agree q h := by
    rw [roster_setGuild]
    show _ ↔ h ≠ 0 ∧ w.guildIdOf q = h
    split <;> rename_i hh
    · rw [← hw.agree q h, hh]
      exact iff_of_false List.not_mem_nil (hempty q)
    · exact hw.agree q h
  cached := hw.cached
  fresh h hh := by
    show (if h = g then none else w.guilds h) = none
    split
    · rfl
    · exact hw.fresh h hh
  next_pos := hw.next_pos

theorem registered_disband (hw : Registered w) : Registered (w.disband walk g) := by
  unfold disband
  cases hG : w.guilds g with
  | none => exact hw
  | some G =>
      have hrost : w.roster g = G.guids := by
        rw [roster, hG]
        rfl
      have hl : ∀ p, p ∈ (walk.order G.members).map Member.guid ↔ p ∈ w.roster g := by
        intro p
        rw [hrost]
        exact ((walk.perm G.members).map Member.guid).mem_iff
      obtain ⟨hreg, hleft⟩ := eraseMembers_spec ((walk.order G.members).map Member.guid) hw
        (g := g) fun p hp => .inl ((hw.agree p g).1 ((hl p).1 hp)).2
      refine registered_setGuild_none hreg fun q hq => ?_
      obtain ⟨hmem, hnot⟩ := hleft q hq
      exact hnot ((hl q).2 hmem)

theorem registered_deleteMember (hw : Registered w)
    (hp : w.guildIdOf p = g ∨ w.guildIdOf p = 0) : Registered (w.deleteMember walk g p) := by
  unfold deleteMember
  split
  · exact hw
  · split
    · split
      · exact registered_disband hw
      · rename_i leader _
        -- the new leader is written first, and its rank once more if it is in the world
        have hlead := SameMembership.setLeaderGUID g leader.guid w
        dsimp only
        split
        · have hrank := hlead.trans (.setRank leader.guid grGuildMaster _)
          exact registered_eraseMember (hrank.registered hw) (by rw [hrank.guildIdOf]; exact hp)
        · exact registered_eraseMember (hlead.registered hw) (by rw [hlead.guildIdOf]; exact hp)
    · exact registered_eraseMember hw hp

/-! ## A player joins -/

theorem mem_roster_setGuild_putMember {G' : Guild P} {m : Member P} (hG : w.guilds g = some G)
    (hG' : G' = G.putMember m) :
    q ∈ (w.setGuild g (some G')).roster h ↔ q ∈ w.roster h ∨ h = g ∧ q = m.guid := by
  rw [roster_setGuild]
  by_cases hh : h = g
  · rw [if_pos hh, roster, hh, hG, hG']
    refine Guild.mem_guids_putMember.trans (or_congr Iff.rfl ?_)
    exact (and_iff_right rfl).symm
  · rw [if_neg hh]
    exact (or_iff_left fun hc => hh hc.1).symm

/-- What a successful `AddMember` has looked at and does. -/
theorem addMember_cases {rank : Option Nat} {row : Option String}
    (hadd : w.addMember g p rank row = some w') :
    ∃ G m, w.guilds g = some G ∧ m.guid = p ∧ m.rankId = rank.getD G.lowestRankId ∧
      w'.guilds = (w.setGuild g (some (G.putMember m))).guilds ∧ w.guildIdOf p = 0 ∧
      (((w.players p).connected = true ∨ (w.cache p).isSome = true) → GuildIdSet p g w w') := by
  unfold addMember at hadd
  split at hadd
  · cases hadd
  · rename_i G hG
    dsimp only at hadd
    split at hadd <;> rename_i hconn
    · split at hadd <;> rename_i hid
      · cases hadd
      · cases hadd
        refine ⟨G, _, hG, rfl, rfl, rfl, ?_, fun _ => ?_⟩
        · rw [guildIdOf, if_pos hconn]
          exact not_not.1 hid
        · have hset := setInGuild_spec (c := g)
            (w := w.setGuild g (some (G.putMember (.new p (w.players p).name
              (rank.getD G.lowestRankId))))) hconn
          have hset' := (hset.trans_same (.setPlayer p _ (by intro x; rfl)
            (f := fun x => { x with guildIdInvited := 0 }) (by intro x; rfl))).trans_same
              (.setRank p (rank.getD G.lowestRankId) _)
          exact ⟨hset'.connected, hset'.guildIdOf, hset'.cached, hset'.next⟩
    · split at hadd <;> rename_i hid
      · cases hadd
      · split at hadd
        · cases hadd
        · rename_i name
          cases hadd
          refine ⟨G, _, hG, rfl, rfl, rfl, ?_, fun hk => ?_⟩
          · rw [guildIdOf, if_neg hconn]
            exact not_not.1 hid
          · have hset := updateCharacterGuildId_spec (c := g)
              (w := w.setGuild g (some (G.putMember (.new p name (rank.getD G.lowestRankId)))))
              (Bool.eq_false_iff.2 hconn) (.inl (hk.resolve_left hconn))
            exact ⟨hset.connected, hset.guildIdOf, hset.cached, hset.next⟩

/-- Nobody joins who is in a guild; a player who is offline is known to the cache. -/
theorem registered_addMember {rank : Option Nat} {row : Option String}
    (hw : Registered w) (hk : (w.players p).connected = true ∨ (w.cache p).isSome = true)
    (hadd : w.addMember g p rank row = some w') : Registered w' := by
  obtain ⟨G, m, hG, hm, -, hguilds, hfree, hspec⟩ := addMember_cases hadd
  have hset := hspec hk
  have hused : ¬ (g = 0 ∨ w.nextGuildId ≤ g) := by
    intro hc
    rw [hw.fresh g hc] at hG
    cases hG
  refine ⟨fun q h => ?_, hset.cached hw.cached, fun h hh => ?_, ?_⟩
  · have hrost : q ∈ w'.roster h ↔ q ∈ w.roster h ∨ h = g ∧ q = p := by
      rw [← hm, ← mem_roster_setGuild_putMember hG rfl]
      unfold roster
      rw [hguilds]
    rw [hrost, hset.guildIdOf, hw.agree q h]
    by_cases hq : q = p
    · subst hq
      rw [if_pos rfl, hfree]
      constructor
      · rintro (⟨hne, h0⟩ | ⟨rfl, -⟩)
        · exact absurd h0.symm hne
        · exact ⟨fun hc => hused (.inl hc), rfl⟩
      · rintro ⟨-, rfl⟩
        exact .inr ⟨rfl, rfl⟩
    · rw [if_neg hq]
      exact or_iff_left fun hc => hq hc.2
  · rw [hset.next] at hh
    rw [hguilds]
    show (if h = g then _ else w.guilds h) = none
    split <;> rename_i hc
    · rw [hc] at hh
      exact absurd hh hused
    · exact hw.fresh h hh
  · rw [hset.next]
    exact hw.next_pos

theorem registered_getD {r : Option (World P)} (hw : Registered w)
    (hr : ∀ w', r = some w' → Registered w') : Registered (r.getD w) := by
  cases r with
  | none => exact hw
  | some w' => exact hr w' rfl

theorem registered_nextGuildId (hw : Registered w) :
    Registered { w with nextGuildId := w.nextGuildId + 1 } where
  agree := hw.agree
  cached := hw.cached
  fresh g hg := by
    change g = 0 ∨ w.nextGuildId + 1 ≤ g at hg
    exact hw.fresh g (by omega)
  next_pos := Nat.succ_pos _

/-- A guild without members is registered. -/
theorem registered_setGuild_empty (hw : Registered w) (hG : G.members = []) (hg : 0 < g)
    (hnext : g < w.nextGuildId) (hnew : w.guilds g = none) :
    Registered (w.setGuild g (some G)) where
  agree q h := by
    rw [roster_setGuild]
    show _ ↔ h ≠ 0 ∧ w.guildIdOf q = h
    split <;> rename_i hh
    · rw [← hw.agree q h, hh, roster, hnew]
      show q ∈ G.guids ↔ _
      rw [Guild.guids, hG]
      exact Iff.rfl
    · exact hw.agree q h
  cached := hw.cached
  fresh h hh := by
    change h = 0 ∨ w.nextGuildId ≤ h at hh
    show (if h = g then some G else w.guilds h) = none
    rw [if_neg (by omega)]
    exact hw.fresh h hh
  next_pos := hw.next_pos

theorem registered_create {nameFree : Bool} (hw : Registered w)
    (hp : (w.players p).connected = true) : Registered (w.create p nameFree) := by
  unfold create
  split
  · exact hw
  · have hnext := registered_nextGuildId hw
    refine registered_getD hnext fun w' hw' => ?_
    refine registered_addMember (registered_setGuild_empty hnext ?_ hw.next_pos
      (Nat.lt_succ_self _) (hw.fresh _ (.inr (Nat.le_refl _)))) (.inl hp) hw'
    rw [Guild.members_createDefaultGuildRanks]

/-! ## Operations -/

theorem connected_of_findPlayer (h : w.findPlayer p = true) : (w.players p).connected = true :=
  (Bool.and_eq_true_iff.1 h).1

/-- A player who sends a request finds the guild of its guild id. -/
theorem guildOf_some (h : w.guildOf p = some G) :
    w.guilds (w.players p).guildId = some G ∧ w.guildIdOf p = (w.players p).guildId := by
  unfold guildOf at h
  split at h <;> rename_i hp
  · rw [guildIdOf, if_pos (connected_of_findPlayer hp)]
    exact ⟨h, rfl⟩
  · cases h

theorem guildIdOf_member {m : Member P} (hw : Registered w) (hG : w.guilds g = some G)
    (hm : m ∈ G.members) : w.guildIdOf m.guid = g := by
  refine ((hw.agree m.guid g).1 ?_).2
  rw [roster, hG]
  exact Guild.guid_mem hm

/-- A command sees the guild id that belongs to the player. -/
theorem commandGuildId_eq (hw : Registered w) (hk : w.known p = true) :
    w.commandGuildId p = w.guildIdOf p := by
  unfold commandGuildId guildIdOf
  by_cases hf : w.findPlayer p = true
  · rw [if_pos hf, if_pos (connected_of_findPlayer hf)]
  · rw [if_neg hf]
    split <;> rename_i hconn
    · rw [known, Bool.eq_false_iff.2 hf, Bool.false_or] at hk
      obtain ⟨c, hc⟩ := Option.isSome_iff_exists.1 hk
      rw [cachedGuildId, hc]
      exact (hw.cached p c hconn hc).symm
    · rfl

theorem known_cases (hk : w.known p = true) :
    (w.players p).connected = true ∨ (w.cache p).isSome = true :=
  (Bool.or_eq_true_iff.1 hk).imp_left connected_of_findPlayer

theorem registered_acceptMember {allowed : Bool} (hw : Registered w) :
    Registered (w.acceptMember p allowed) := by
  unfold acceptMember
  split <;> rename_i hrefused
  · exact hw
  · have hp : w.findPlayer p = true := by
      by_contra hc
      rw [Bool.eq_false_iff.2 hc] at hrefused
      exact hrefused rfl
    exact registered_getD hw fun w' hw' =>
      registered_addMember hw (.inl (connected_of_findPlayer hp)) hw'

/-- For a player who has no guild, nothing is written. -/
theorem sameMembership_setInGuild_zero (hw : Registered w) (hp : (w.players p).connected = true)
    (hfree : (w.players p).guildId = 0) : SameMembership w (w.setInGuild p 0) where
  connected q := (setInGuild_spec hp).connected q
  guildId q := by
    rw [players_setInGuild]
    split <;> rename_i hq
    · rw [hq, hfree]
    · rfl
  cache := by
    funext q
    rw [cache_setInGuild]
    split <;> rename_i hq
    · rw [hq]
      cases hc : w.cache p with
      | none => rfl
      | some c => rw [← hw.cached p c hp hc, hfree]; rfl
    · rfl
  next := rfl
  present _ hg := hg
  roster _ := rfl

theorem registered_decline (hw : Registered w)
    (hp : w.findPlayer p = true → (w.players p).guildId = 0) : Registered (w.decline p) := by
  unfold decline
  split <;> rename_i hf
  · exact hw
  · rw [Bool.not_eq_true', Bool.not_eq_false] at hf
    have hsame : SameMembership w (w.setPlayer p fun x => { x with guildIdInvited := 0 }) :=
      .setPlayer p w (fun _ => rfl) fun _ => rfl
    refine (sameMembership_setInGuild_zero (hsame.registered hw) ?_ ?_).registered
      (hsame.registered hw)
    · rw [hsame.connected]
      exact connected_of_findPlayer hf
    · rw [hsame.guildId]
      exact hp hf

/-- A member who declines is still in the member map. -/
theorem not_agree_decline (hw : Registered w) (hp : w.findPlayer p = true)
    (hg : (w.players p).guildId ≠ 0) : ¬ Agree (w.decline p) := by
  have hconn := connected_of_findPlayer hp
  have hmem : p ∈ w.roster (w.players p).guildId := by
    rw [hw.agree]
    exact ⟨hg, if_pos hconn⟩
  have heq : w.decline p =
      (w.setPlayer p fun x => { x with guildIdInvited := 0 }).setInGuild p 0 := by
    rw [decline, hp]
    rfl
  intro hagree
  have hid := ((hagree p (w.players p).guildId).1 (by rw [heq]; exact hmem)).2
  rw [heq, (setInGuild_spec (by rw [players_setPlayer_self]; exact hconn)).guildIdOf,
    if_pos rfl] at hid
  exact hg hid.symm

/-- The condition: no member declines. -/
def DeclinesOutside (w : World P) : Op P → Prop
  | .decline p => w.findPlayer p = true → (w.players p).guildId = 0
  | _ => True

theorem registered_step {o : Op P} (hw : Registered w) (ho : DeclinesOutside w o) :
    Registered (w.step o) := by
  cases o with
  | inviteMember p invitee allowed =>
      show Registered (w.inviteMember p invitee allowed)
      unfold inviteMember
      repeat' split
      all_goals first
        | exact hw
        | exact (SameMembership.setPlayer _ w (by intro x; rfl) (by intro x; rfl)).registered hw
  | acceptMember p allowed => exact registered_acceptMember hw
  | decline p => exact registered_decline hw ho
  | leaveMember walk p =>
      show Registered (w.leaveMember walk p)
      unfold leaveMember
      split
      · exact hw
      · rename_i G hG
        split
        · split
          · exact hw
          · exact registered_disband hw
        · exact registered_deleteMember hw (.inl (guildOf_some hG).2)
  | removeMember walk p name =>
      show Registered (w.removeMember walk p name)
      unfold removeMember
      split
      · exact hw
      · rename_i G hG
        split
        · exact hw
        · split
          · exact hw
          · rename_i member hm
            split
            · exact hw
            · split
              · exact hw
              · split
                · exact hw
                · exact registered_deleteMember hw (.inl (guildIdOf_member hw
                    (guildOf_some hG).1 (Guild.getMemberByName_mem hm)))
  | updateMemberRank walk p name demote =>
      show Registered (w.updateMemberRank walk p name demote)
      unfold updateMemberRank
      repeat' split
      all_goals first
        | exact hw
        | exact (SameMembership.changeRank ..).registered hw
  | setLeader walk p name =>
      show Registered (w.setLeader walk p name)
      unfold setLeader
      repeat' split
      all_goals first
        | exact hw
        | exact ((SameMembership.setLeaderGUID ..).trans (.changeRank ..)).registered hw
  | addNewRank p =>
      show Registered (w.addNewRank p)
      unfold addNewRank
      repeat' split
      all_goals first
        | exact hw
        | exact (SameMembership.modifyGuild _ (Guild.guids_createRank _) w).registered hw
  | removeLowestRank p =>
      show Registered (w.removeLowestRank p)
      unfold removeLowestRank
      repeat' split
      all_goals first
        | exact hw
        | exact (SameMembership.modifyGuild _ (by intro G; rfl) w).registered hw
  | disband walk p =>
      show Registered (w.handleDisband walk p)
      unfold handleDisband
      split
      · exact hw
      · split
        · exact registered_disband hw
        · exact hw
  | gmCreate leader nameFree =>
      show Registered (w.gmCreate leader nameFree)
      unfold gmCreate
      split <;> rename_i hrefused
      · exact hw
      · rw [Bool.or_eq_true, not_or, Bool.not_eq_true', Bool.not_eq_false] at hrefused
        exact registered_create hw (connected_of_findPlayer hrefused.1)
  | gmInvite g p row =>
      show Registered (w.gmInvite g p row)
      unfold gmInvite
      split <;> rename_i hk
      · exact registered_getD hw fun w' hw' => registered_addMember hw (known_cases hk) hw'
      · exact hw
  | gmUninvite walk p =>
      show Registered (w.gmUninvite walk p)
      unfold gmUninvite
      split <;> rename_i hk
      · exact registered_deleteMember hw (.inl (commandGuildId_eq hw hk.1).symm)
      · exact hw
  | gmRank p newRank =>
      show Registered (w.gmRank p newRank)
      unfold gmRank
      repeat' split
      all_goals first
        | exact hw
        | exact (SameMembership.changeRank ..).registered hw
  | gmDelete walk g => exact registered_disband hw

/-- In a run from a world whose guilds and players agree, they agree at every moment if and
only if no member declines. -/
theorem agree_iff (hw : Registered w) (ops : List (Op P)) :
    (∀ os, os <+: ops → Agree (os.foldl step w)) ↔ Along step DeclinesOutside w ops := by
  refine Along.holds_iff (I := Registered) (fun _ hw => hw.agree) (fun _ _ => registered_step)
    (fun w o hw hagree => ?_) hw
  cases o with
  | decline p =>
      intro hp
      by_contra hg
      exact not_agree_decline hw hp hg hagree
  | _ => trivial

/-- Where they agree, nobody is a member of two guilds and no member's guild id is 0. -/
theorem Agree.one_guild (hw : Agree w) (hg : p ∈ w.roster g) (hh : p ∈ w.roster h) : g = h :=
  ((hw p g).1 hg).2.symm.trans ((hw p h).1 hh).2

end World

/-- Everybody is in the world, and there are no guilds. -/
def guildless : World Nat where
  players _ := ⟨"", true, true, 0, 0, 0, ⟨0, Nat.zero_le _⟩⟩
  cache _ := some 0
  guilds _ := none
  nextGuildId := 1

theorem registered_guildless : guildless.Registered where
  agree _ _ := iff_of_false List.not_mem_nil fun h => h.1 h.2.symm
  cached _ _ _ hc := Option.some.inj hc
  fresh _ _ := rfl
  next_pos := Nat.one_pos

/-- A guild is founded, and a second player joins it. -/
def joining : List (World.Op Nat) :=
  [.gmCreate 1 true, .inviteMember 1 (some 2) true, .acceptMember 2 true]

theorem agree_joining : (joining.foldl World.step guildless).Agree :=
  (World.agree_iff registered_guildless joining).2 ⟨trivial, trivial, trivial, trivial⟩ joining
    (List.prefix_refl joining)

/-- The member declines an invitation that nobody sent. It is in the member map of its
guild and has no guild id, so another guild may take it, and it is in two. -/
theorem declining_member_joins_second_guild :
    guildless.Registered ∧
      (let w := (joining ++ [(.decline 2 : World.Op Nat)]).foldl World.step guildless
       2 ∈ w.roster 1 ∧ w.guildIdOf 2 = 0) ∧
      let w := (joining ++ [(.decline 2 : World.Op Nat), .gmCreate 2 true]).foldl World.step
        guildless
      2 ∈ w.roster 1 ∧ 2 ∈ w.roster 2 := by
  refine ⟨registered_guildless, by decide, by decide⟩

end Sunstrider.Guilds
