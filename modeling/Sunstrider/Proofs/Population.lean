import Sunstrider.Proofs.QueueInvites

/-!
# The population of a battleground

A player who leaves from the inside gives back his place and his invitation, and one who
arrives takes a place for the invitation he travelled with. Between them are the two
operations that break the balance: `RemovePlayerAtLeave` decrements for a participant
only, so a player who is still travelling takes his invitation with him, and a logout
clears the slots before it finishes the teleport, so that a player who is travelling
then arrives without an invitation and is not added.

`balanced_runs` says that nothing else does. The witness is a run in which two players
are invited, enter, leave and decline; the counterexample is one invited player who logs
out between the two maps, after which the battleground waits for him for ever.
-/

namespace Sunstrider.Battlegrounds.Population

open Lib

/-! ## Leaving the battleground -/

/-- What `RemovePlayerAtLeave` leaves alone. -/
structure Left (w w' : World) (guid : ObjectGuid) : Prop where
  queues : w'.queues = w.queues
  queueOf : ∀ id, w'.queueOf id = w.queueOf id
  teleports : ∀ guid', w'.teleports.lookup guid' = w.teleports.lookup guid'
  inside : ∀ id guid', w'.IsInside id guid' → w.IsInside id guid' ∧ guid' ≠ guid
  connected : ∀ guid', (w'.players guid').connected = (w.players guid').connected
  invitation : ∀ q, q ≠ .none → ¬ w.IsEngaged q guid →
    (w'.players guid).invitation q = (w.players guid).invitation q

section Leave

variable {w : World} {opened : Slots} {owed : Nat → Team → Nat} {id : Nat} {bg : Battleground}
  {guid : ObjectGuid}

variable {team : Team} {w' : World}

/-- The entry is taken out of `m_Players`. -/
def Battleground.takeOut (bg : Battleground) (guid : ObjectGuid) (team : Team) : Battleground :=
  { bg.updatePlayersCountByTeam team true with players := bg.players.erase guid }

theorem inside_takeOut (hteam : bg.getPlayerTeam guid = some team) (t : Team) :
    (if t = team then 1 else 0) + (bg.takeOut guid team).inside t = bg.inside t := by
  have herase := Ledger.count_erase hteam fun _ t' => t' == t
  unfold Battleground.inside
  rw [← herase]
  congr 1
  cases t <;> cases team <;> rfl

theorem playersCount_takeOut (hteam : bg.getPlayerTeam guid = some team)
    (hcount : ∀ t, bg.playersCount t = bg.inside t) (t : Team) :
    (bg.takeOut guid team).playersCount t = (bg.takeOut guid team).inside t := by
  have hinside := inside_takeOut hteam t
  have hold := hcount t
  show Function.update bg.playersCount team (decrement (bg.playersCount team)) t = _
  by_cases ht : t = team
  · subst ht
    rw [if_pos rfl] at hinside
    rw [Function.update_self]
    have hdec := Battleground.decrement_add_one (n := bg.playersCount t) (by omega)
    omega
  · rw [if_neg ht] at hinside
    rw [Function.update_of_ne ht]
    omega

theorem wrapped_takeOut (hteam : bg.getPlayerTeam guid = some team)
    (hcount : ∀ t, bg.playersCount t = bg.inside t) :
    (bg.takeOut guid team).wrapped = bg.wrapped := by
  have hinside := inside_takeOut hteam team
  rw [if_pos rfl] at hinside
  have hne : (bg.playersCount team == 0) = false := by
    rw [beq_eq_false_iff_ne, hcount team]
    omega
  show (bg.wrapped || bg.playersCount team == 0) = bg.wrapped
  rw [hne, Bool.or_false]

/-- After the entry is out and before the decrement one invitation is owed. -/
theorem Counted.takeOut (hc : Counted w owed) (hbg : w.bgs id = some bg)
    (hteam : bg.getPlayerTeam guid = some team) :
    Counted (w.setBg id (bg.takeOut guid team)) fun id' team' =>
      owed id' team' + owedOne id team id' team' := by
  have hcount := hc.playersCount id bg hbg
  refine ⟨?_, ?_, ?_⟩
  · intro id' bg' hbg' t
    show _ = w.invitedInQueue bg'.queueType id' t + w.travelling id' t + _ + _
    unfold owedOne
    obtain ⟨rfl, rfl⟩ | ⟨hid, hold⟩ := World.setBg_cases hbg'
    · have hinvited := hc.invited id' bg hbg t
      have hinside := inside_takeOut hteam t
      show bg.getInvitedCount t = w.invitedInQueue bg.queueType id' t + _ + _ + _
      simp only [true_and]
      omega
    · rw [if_neg fun hboth => hid hboth.1]
      exact hc.invited id' bg' hold t
  · intro id' bg' hbg' t
    obtain ⟨rfl, rfl⟩ | ⟨-, hold⟩ := World.setBg_cases hbg'
    · exact playersCount_takeOut hteam hcount t
    · exact hc.playersCount id' bg' hold t
  · intro id' bg' hbg'
    obtain ⟨rfl, rfl⟩ | ⟨-, hold⟩ := World.setBg_cases hbg'
    · rw [wrapped_takeOut hteam hcount]
      exact hc.wrapped id' bg hbg
    · exact hc.wrapped id' bg' hold

/-- A world in which the player was taken out of one battleground, and perhaps lost the
slot of its queue. -/
structure TakenOut (w w' : World) (id : Nat) (guid : ObjectGuid) (q : BattlegroundQueueTypeId) :
    Prop where
  queues : w'.queues = w.queues
  teleports : w'.teleports = w.teleports
  bgs_ne : ∀ id', id' ≠ id → w'.bgs id' = w.bgs id'
  bgs_self : ∃ bg bg', w.bgs id = some bg ∧ w'.bgs id = some bg' ∧ bg'.typeID = bg.typeID ∧
    bg'.arenaType = bg.arenaType ∧ bg.queueType = q ∧ bg'.players = bg.players.erase guid
  players_ne : ∀ guid', guid' ≠ guid → w'.players guid' = w.players guid'
  player : ∃ slots, w'.players guid = { w.players guid with queueSlots := slots }
  invitation : ∀ q', q' ≠ .none → q' ≠ q →
    (w'.players guid).invitation q' = (w.players guid).invitation q'

namespace TakenOut

variable {w' : World} {q : BattlegroundQueueTypeId}

theorem queueOf (t : TakenOut w w' id guid q) (id' : Nat) : w'.queueOf id' = w.queueOf id' := by
  unfold World.queueOf
  by_cases hid : id' = id
  · obtain ⟨bg, bg', hbg, hbg', htype, harena, -⟩ := t.bgs_self
    subst hid
    rw [hbg, hbg', Option.map_some, Option.map_some]
    unfold Battleground.queueType
    rw [htype, harena]
  · rw [t.bgs_ne id' hid]

theorem isInside (t : TakenOut w w' id guid q) (id' : Nat) (guid' : ObjectGuid) :
    w'.IsInside id' guid' ↔ w.IsInside id' guid' ∧ ¬ (id' = id ∧ guid' = guid) := by
  by_cases hid : id' = id
  · obtain ⟨bg, bg', hbg, hbg', -, -, -, hplayers⟩ := t.bgs_self
    subst hid
    rw [World.isInside_iff hbg, World.isInside_iff hbg', hplayers, AList.mem_erase]
    simp [and_comm]
  · have hsame : w'.IsInside id' guid' ↔ w.IsInside id' guid' := by
      unfold World.IsInside
      rw [t.bgs_ne id' hid]
    rw [hsame]
    simp [hid]

theorem connected (t : TakenOut w w' id guid q) (guid' : ObjectGuid) :
    (w'.players guid').connected = (w.players guid').connected ∧
      (w'.players guid').bgInstanceID = (w.players guid').bgInstanceID ∧
      (w'.players guid').bgTypeID = (w.players guid').bgTypeID ∧
      (w'.players guid').getBGTeam = (w.players guid').getBGTeam := by
  by_cases heq : guid' = guid
  · obtain ⟨slots, hplayer⟩ := t.player
    subst heq
    rw [hplayer]
    exact ⟨rfl, rfl, rfl, rfl⟩
  · rw [t.players_ne guid' heq]
    exact ⟨rfl, rfl, rfl, rfl⟩

/-- The one who was inside is nowhere else, so that nothing is said about his slot any more. -/
theorem placed (t : TakenOut w w' id guid q) (h : Placed w opened) (hin : w.IsInside id guid) :
    Placed w' opened := by
  obtain ⟨bg, bg', hbg, hbg', htype, harena, hq, hplayers⟩ := t.bgs_self
  have hqid : w.queueOf id = some q := by rw [World.queueOf_eq hbg, hq]
  have hi := h.inside id guid q hqid hin
  have hqueued : ∀ q' guid', w'.IsQueued q' guid' ↔ w.IsQueued q' guid' := by
    intro q' guid'
    unfold World.IsQueued
    rw [t.queues]
  refine ⟨?_, ?_, ?_, ?_, ?_, ?_⟩
  · intro id' b hb
    by_cases hid : id' = id
    · subst hid
      rw [hbg'] at hb
      obtain rfl := Option.some.inj hb
      have hqueue : bg'.queueType = bg.queueType := by
        unfold Battleground.queueType
        rw [htype, harena]
      rw [hqueue, htype]
      exact h.bg id' bg hbg
    · rw [t.bgs_ne id' hid] at hb
      exact h.bg id' b hb
  · rw [t.queues]
    exact h.member
  · intro q' gid g hg
    rw [t.queues] at hg
    have hgroup := h.group q' gid g hg
    exact ⟨hgroup.listed, hgroup.typeId, hgroup.queueType, hgroup.queue_ne, fun hne =>
      (t.queueOf _).trans (hgroup.invited hne)⟩
  · intro q' guid' gid g hg hmem
    rw [t.queues] at hg
    obtain ⟨hconn, hslot⟩ := h.queued q' guid' gid g hg hmem
    refine ⟨(t.connected guid').1.trans hconn, fun hopen => ?_⟩
    by_cases heq : guid' = guid
    · subst heq
      rw [t.invitation q' (h.group q' gid g hg).queue_ne, hslot hopen]
      rintro rfl
      exact hi.notQueued (World.isQueued_iff.2 ⟨gid, (h.member q' guid' gid).2 ⟨g, hg, hmem⟩⟩)
    · rw [t.players_ne guid' heq]
      exact hslot hopen
  · intro guid' id' hid'
    rw [t.teleports] at hid'
    have heq : guid' ≠ guid := by
      rintro rfl
      exact hi.settled (AList.lookup_isSome.1 (hid' ▸ rfl))
    obtain ⟨hconn, hhere, q', hq', hrefers, hnot, hslot⟩ := h.travel guid' id' hid'
    rw [← t.players_ne guid' heq] at hconn hhere hrefers hslot
    exact ⟨hconn, hhere, q', (t.queueOf id').trans hq', hrefers, fun hq => hnot ((hqueued _ _).1 hq),
      hslot⟩
  · intro id' guid' q' hq' hinside
    rw [t.queueOf] at hq'
    obtain ⟨hinside', hne⟩ := (t.isInside id' guid').1 hinside
    have hi' := h.inside id' guid' q' hq' hinside'
    have heq : guid' ≠ guid := by
      rintro rfl
      exact hne ⟨hi'.here.symm.trans hi.here, rfl⟩
    obtain ⟨hhere, hsettled, hnot, hslot⟩ := hi'
    rw [← t.players_ne guid' heq] at hhere hslot
    exact ⟨hhere, t.teleports ▸ hsettled, fun hq => hnot ((hqueued _ _).1 hq), hslot⟩

end TakenOut

theorem removeParticipant_spec (hc : Counted w owed) (hbg : w.bgs id = some bg) (found : Bool) :
    (bg.getPlayerTeam guid = none ∧ w.removeParticipant id bg guid found = w) ∨
      (w.IsInside id guid ∧
        TakenOut w (w.removeParticipant id bg guid found) id guid bg.queueType ∧
        Counted (w.removeParticipant id bg guid found) owed) := by
  unfold World.removeParticipant
  cases hteam : bg.getPlayerTeam guid with
  | none => exact .inl ⟨rfl, rfl⟩
  | some team =>
      refine .inr ⟨(World.isInside_iff hbg).2 (AList.lookup_isSome.1 ?_), ?_⟩
      · exact Option.isSome_iff_exists.2 ⟨team, hteam⟩
      have hdec := (hc.takeOut hbg hteam).decrease
        (Function.update_self ..)
      have hbgs : (w.setBg id (bg.takeOut guid team)).setBg id
          ((bg.takeOut guid team).decreaseInvitedCount team) =
          w.setBg id ((bg.takeOut guid team).decreaseInvitedCount team) := by
        unfold World.setBg
        rw [Function.update_idem]
      rw [hbgs] at hdec
      have htype : ((bg.takeOut guid team).decreaseInvitedCount team).typeID = bg.typeID :=
        Battleground.decreaseInvitedCount_typeID ..
      have harena : ((bg.takeOut guid team).decreaseInvitedCount team).arenaType = bg.arenaType :=
        Battleground.decreaseInvitedCount_arenaType ..
      have hplayers : ((bg.takeOut guid team).decreaseInvitedCount team).players =
          bg.players.erase guid := Battleground.decreaseInvitedCount_players ..
      cases found with
      | false =>
          refine ⟨⟨rfl, rfl, fun id' hid => Function.update_of_ne hid .., ?_, fun _ _ => rfl,
            ⟨_, rfl⟩, fun _ _ _ => rfl⟩, hdec⟩
          exact ⟨bg, _, hbg, Function.update_self .., htype, harena, rfl, hplayers⟩
      | true =>
          refine ⟨⟨rfl, rfl, fun id' hid => Function.update_of_ne hid .., ?_,
            fun guid' heq => Function.update_of_ne heq .., ⟨_, Function.update_self ..⟩, ?_⟩,
            hdec.setSlots guid _⟩
          · exact ⟨bg, _, hbg, Function.update_self .., htype, harena, rfl, hplayers⟩
          · intro q' hq' hne
            show (Function.update w.players guid _ guid).invitation q' = _
            rw [Function.update_self]
            exact Player.invitation_remove_ne hne hq'

/-- What the player is said to be in may change while he is nowhere. -/
theorem Placed.elsewhere (h : Placed w opened) (hbgs : World.SameBgs w w')
    (hqueues : w'.queues = w.queues)
    (hteleports : ∀ guid', w'.teleports.lookup guid' = w.teleports.lookup guid')
    (hplayers : ∀ guid', guid' ≠ guid → w'.players guid' = w.players guid')
    (hconn : (w'.players guid).connected = (w.players guid).connected)
    (hslots : (w'.players guid).queueSlots = (w.players guid).queueSlots)
    (hnot : ∀ id', ¬ w.IsInside id' guid) (htravel : guid ∉ w.teleports) : Placed w' opened := by
  have hconn' : ∀ guid', (w'.players guid').connected = (w.players guid').connected := by
    intro guid'
    by_cases heq : guid' = guid
    · rw [heq, hconn]
    · rw [hplayers guid' heq]
  have hinv : ∀ guid' q', (w'.players guid').invitation q' = (w.players guid').invitation q' := by
    intro guid' q'
    by_cases heq : guid' = guid
    · unfold Player.invitation
      rw [heq, hslots]
    · rw [hplayers guid' heq]
  have hqueued : ∀ q' guid', w'.IsQueued q' guid' ↔ w.IsQueued q' guid' := by
    intro q' guid'
    unfold World.IsQueued
    rw [hqueues]
  refine ⟨?_, ?_, ?_, ?_, ?_, ?_⟩
  · intro id' b hb
    obtain ⟨b', hb', htype, harena, -⟩ := hbgs.exists_of hb
    have hqueue : b.queueType = b'.queueType := by
      unfold Battleground.queueType
      rw [htype, harena]
    rw [hqueue, ← htype]
    exact h.bg id' b' hb'
  · rw [hqueues]
    exact h.member
  · intro q' gid g hg
    rw [hqueues] at hg
    have hgroup := h.group q' gid g hg
    exact ⟨hgroup.listed, hgroup.typeId, hgroup.queueType, hgroup.queue_ne, fun hne =>
      (hbgs.queueOf _).trans (hgroup.invited hne)⟩
  · intro q' guid' gid g hg hmem
    rw [hqueues] at hg
    rw [hconn', hinv]
    exact h.queued q' guid' gid g hg hmem
  · intro guid' id' hid'
    rw [hteleports] at hid'
    have heq : guid' ≠ guid := by
      rintro rfl
      exact htravel (AList.lookup_isSome.1 (hid' ▸ rfl))
    obtain ⟨hc, hhere, q', hq', hrefers, hnotq, hslot⟩ := h.travel guid' id' hid'
    rw [← hplayers guid' heq] at hc hhere hrefers hslot
    exact ⟨hc, hhere, q', (hbgs.queueOf id').trans hq', hrefers,
      fun hq => hnotq ((hqueued _ _).1 hq), hslot⟩
  · intro id' guid' q' hq' hinside
    rw [hbgs.queueOf] at hq'
    have hinside' := (hbgs.isInside id' guid').1 hinside
    have heq : guid' ≠ guid := by
      rintro rfl
      exact hnot id' hinside'
    obtain ⟨hhere, hsettled, hnotq, hslot⟩ := h.inside id' guid' q' hq' hinside'
    rw [← hplayers guid' heq] at hhere hslot
    refine ⟨hhere, fun hin => hsettled ?_, fun hq => hnotq ((hqueued _ _).1 hq), hslot⟩
    rw [← AList.lookup_isSome, hteleports] at hin
    exact AList.lookup_isSome.1 hin

/-- Nothing that is counted changes. -/
theorem Counted.elsewhere (hc : Counted w owed) (hqueues : w'.queues = w.queues)
    (htravelling : ∀ id' team, w'.travelling id' team = w.travelling id' team)
    (hbgs : ∀ id' bg', w'.bgs id' = some bg' → ∃ bg, w.bgs id' = some bg ∧ bg'.queueType =
      bg.queueType ∧ bg'.getInvitedCount = bg.getInvitedCount ∧ bg'.players = bg.players ∧
      bg'.playersCount = bg.playersCount ∧ bg'.wrapped = bg.wrapped) :
    Counted w' owed := by
  refine ⟨?_, ?_, ?_⟩
  · intro id' bg' hbg' team
    obtain ⟨bg, hbg, hq, hinvited, hplayers, -, -⟩ := hbgs id' bg' hbg'
    have hold := hc.invited id' bg hbg team
    have hqueue : w'.invitedInQueue bg'.queueType id' team =
        w.invitedInQueue bg.queueType id' team := by
      unfold World.invitedInQueue
      rw [hqueues, hq]
    have hinside : bg'.inside team = bg.inside team := by
      unfold Battleground.inside
      rw [hplayers]
    rw [hqueue, htravelling, hinside, hinvited]
    exact hold
  · intro id' bg' hbg' team
    obtain ⟨bg, hbg, -, -, hplayers, hcount, -⟩ := hbgs id' bg' hbg'
    unfold Battleground.inside
    rw [hcount, hplayers]
    exact hc.playersCount id' bg hbg team
  · intro id' bg' hbg'
    obtain ⟨bg, hbg, -, -, -, -, hwrapped⟩ := hbgs id' bg' hbg'
    rw [hwrapped]
    exact hc.wrapped id' bg hbg

theorem travelling_of_not_travelling
    (hteleports : w'.teleports = w.teleports ∨ w'.teleports = w.teleports.erase guid)
    (hplayers : ∀ guid', guid' ≠ guid → w'.players guid' = w.players guid')
    (htravel : guid ∉ w.teleports) (id' : Nat) (team : Team) :
    w'.travelling id' team = w.travelling id' team := by
  have hcount : (Ledger.count w.teleports fun guid' dest =>
      dest == id' && (w'.players guid').getBGTeam == team) = w.travelling id' team := by
    refine Ledger.count_congr fun guid' dest hdest => ?_
    rw [hplayers guid']
    rintro rfl
    exact htravel (AList.lookup_isSome.1 (hdest ▸ rfl))
  rw [← hcount]
  unfold World.travelling
  rcases hteleports with heq | heq
  · rw [heq]
  · rw [heq]
    exact Ledger.weigh_erase_of_notMem htravel _

/-- A battleground is replaced by one with the same players and counters. -/
theorem setBg_spec (h : Placed w opened) (hc : Counted w owed)
    (hbg : w.bgs id = some bg) (bg' : Battleground) (htype : bg'.typeID = bg.typeID)
    (harena : bg'.arenaType = bg.arenaType) (hplayers : bg'.players = bg.players)
    (hinvited : bg'.getInvitedCount = bg.getInvitedCount)
    (hcount : bg'.playersCount = bg.playersCount) (hwrapped : bg'.wrapped = bg.wrapped) :
    Placed (w.setBg id bg') opened ∧ Counted (w.setBg id bg') owed ∧ Kept w (w.setBg id bg') := by
  have k : Kept w (w.setBg id bg') :=
    Kept.of_players (World.sameBgs_setBg hbg htype harena hplayers) rfl rfl
  have hqueue : bg'.queueType = bg.queueType := by
    unfold Battleground.queueType
    rw [htype, harena]
  refine ⟨?_, ?_, k⟩
  · refine h.keep k h.member (fun q gid g hg => (h.group q gid g hg).of_kept k) h.queued ?_
      fun q guid' hq => h.queued_connected (q := q) hq
    exact fun guid' q _ he _ => ⟨h.not_queued_of_engaged he, fun hopen => ⟨hopen, rfl⟩⟩
  · refine hc.elsewhere rfl k.travelling fun id' b hb => ?_
    obtain ⟨rfl, rfl⟩ | ⟨-, hold⟩ := World.setBg_cases hb
    · exact ⟨bg, hbg, hqueue, hinvited, hplayers, hcount, hwrapped⟩
    · exact ⟨b, hold, rfl, rfl, rfl, rfl, rfl⟩

theorem left_refl (hnot : ∀ id', ¬ w.IsInside id' guid) : Left w w guid := by
  refine ⟨rfl, fun _ => rfl, fun _ => rfl, fun id' guid' hin => ⟨hin, ?_⟩, fun _ => rfl,
    fun _ _ _ => rfl⟩
  rintro rfl
  exact hnot id' hin

/-- A player who is nowhere is told so, and a teleport to a battleground he does not make
is forgotten. -/
theorem detach_spec (h : Placed w opened) (hc : Counted w owed)
    (hnot : ∀ id', ¬ w.IsInside id' guid) (htravel : guid ∉ w.teleports) (hbgs : w'.bgs = w.bgs)
    (hqueues : w'.queues = w.queues)
    (hteleports : w'.teleports = w.teleports ∨ w'.teleports = w.teleports.erase guid)
    (hplayers : ∀ guid', guid' ≠ guid → w'.players guid' = w.players guid')
    (hconn : (w'.players guid).connected = (w.players guid).connected)
    (hslots : (w'.players guid).queueSlots = (w.players guid).queueSlots) :
    Placed w' opened ∧ Counted w' owed ∧ Left w w' guid := by
  have hsame : World.SameBgs w w' := fun id' => by rw [hbgs]
  have hlookup : ∀ guid', w'.teleports.lookup guid' = w.teleports.lookup guid' := by
    intro guid'
    rcases hteleports with heq | heq
    · rw [heq]
    · rw [heq]
      by_cases hguid : guid' = guid
      · rw [hguid, AList.lookup_erase, AList.lookup_eq_none.2 htravel]
      · rw [AList.lookup_erase_ne hguid]
  have htravelling := travelling_of_not_travelling hteleports hplayers htravel
  refine ⟨h.elsewhere hsame hqueues hlookup hplayers hconn hslots hnot htravel, ?_, ?_⟩
  · refine hc.elsewhere hqueues htravelling fun id' bg' hbg' => ?_
    rw [hbgs] at hbg'
    exact ⟨bg', hbg', rfl, rfl, rfl, rfl, rfl⟩
  · refine ⟨hqueues, hsame.queueOf, hlookup, fun id' guid' hin => ?_, fun guid' => ?_,
      fun q _ _ => ?_⟩
    · exact (left_refl hnot).inside id' guid' ((hsame.isInside id' guid').1 hin)
    · by_cases hguid : guid' = guid
      · rw [hguid, hconn]
      · rw [hplayers guid' hguid]
    · unfold Player.invitation
      rw [hslots]

theorem finishLeave_spec (h : Placed w opened) (hc : Counted w owed)
    (hnot : ∀ id', ¬ w.IsInside id' guid) (found : Bool)
    (htravel : found = true → guid ∉ w.teleports) (transport : Bool) :
    Placed (w.finishLeave id guid transport found) opened ∧
      Counted (w.finishLeave id guid transport found) owed ∧
      Left w (w.finishLeave id guid transport found) guid := by
  unfold World.finishLeave
  cases hbg : w.bgs id with
  | none => exact ⟨h, hc, left_refl hnot⟩
  | some bg =>
      simp only []
      split
      · obtain ⟨hp, hc', k⟩ := setBg_spec h hc hbg { bg with setDeleteThis := true } rfl rfl
          rfl rfl rfl rfl
        refine ⟨hp, hc', rfl, k.bgs.queueOf, fun _ => rfl, fun id' guid' hin => ?_, fun _ => rfl,
          fun _ _ _ => rfl⟩
        exact (left_refl hnot).inside id' guid' ((k.bgs.isInside id' guid').1 hin)
      · split <;> rename_i hfound
        · have hself : (w.setPlayer guid
              (((w.players guid).setBattlegroundId 0 .none).setBGTeam none)).players guid =
                ((w.players guid).setBattlegroundId 0 .none).setBGTeam none :=
            Function.update_self ..
          have hne : ∀ p guid', guid' ≠ guid →
              (w.setPlayer guid p).players guid' = w.players guid' :=
            fun p guid' heq => Function.update_of_ne heq ..
          split
          · refine detach_spec h hc hnot (htravel hfound) rfl rfl (.inr rfl) (hne _) ?_ ?_
            · exact (congrArg Player.connected hself).trans rfl
            · exact (congrArg Player.queueSlots hself).trans rfl
          · refine detach_spec h hc hnot (htravel hfound) rfl rfl (.inl rfl) (hne _) ?_ ?_
            · exact (congrArg Player.connected hself).trans rfl
            · exact (congrArg Player.queueSlots hself).trans rfl
        · exact ⟨h, hc, left_refl hnot⟩

/-- `RemovePlayerAtLeave` on the battleground the player is said to be in. -/
theorem removePlayerAtLeave_spec (h : Placed w opened) (hc : Counted w owed)
    (hbg : w.bgs id = some bg) (hhere : (w.players guid).bgInstanceID = id) (found : Bool)
    (htravel : found = true → guid ∉ w.teleports) (transport : Bool) :
    Placed (w.removePlayerAtLeave id bg guid transport found) opened ∧
      Counted (w.removePlayerAtLeave id bg guid transport found) owed ∧
      Left w (w.removePlayerAtLeave id bg guid transport found) guid := by
  unfold World.removePlayerAtLeave
  have honly : ∀ id', w.IsInside id' guid → id' = id := by
    rintro id' ⟨bg', hbg', hin⟩
    have hi := h.inside id' guid _ (World.queueOf_eq hbg') ⟨bg', hbg', hin⟩
    exact hi.here.symm.trans hhere
  obtain ⟨hnone, heq⟩ | ⟨hin, t, hcounted⟩ := removeParticipant_spec hc hbg found
  · rw [heq]
    refine finishLeave_spec h hc (fun id' hin => ?_) found htravel transport
    obtain rfl := honly id' hin
    rw [World.isInside_iff hbg, ← AList.lookup_isSome] at hin
    unfold Battleground.getPlayerTeam at hnone
    rw [hnone] at hin
    cases hin
  · have hplaced := t.placed h hin
    have hnot : ∀ id', ¬ (w.removeParticipant id bg guid found).IsInside id' guid := by
      intro id' hin'
      obtain ⟨hold, hne⟩ := (t.isInside id' guid).1 hin'
      exact hne ⟨honly id' hold, rfl⟩
    obtain ⟨hp, hc', hleft⟩ := finishLeave_spec hplaced hcounted hnot found
      (fun hf => t.teleports ▸ htravel hf) transport
    refine ⟨hp, hc', hleft.queues.trans t.queues, fun id' => (hleft.queueOf id').trans (t.queueOf id'),
      fun guid' => (hleft.teleports guid').trans (by rw [t.teleports]), ?_,
      fun guid' => (hleft.connected guid').trans (t.connected guid').1, ?_⟩
    · intro id' guid' hin'
      obtain ⟨hmid, hne⟩ := hleft.inside id' guid' hin'
      exact ⟨((t.isInside id' guid').1 hmid).1, hne⟩
    · intro q hq hengaged
      have hmid : ¬ (w.removeParticipant id bg guid found).IsEngaged q guid := by
        rintro ⟨id', hid', htele | hin'⟩
        · exact hengaged ⟨id', (t.queueOf id').symm.trans hid', .inl (t.teleports ▸ htele)⟩
        · exact hnot id' hin'
      rw [hleft.invitation q hq hmid]
      refine t.invitation q hq ?_
      rintro rfl
      exact hengaged ⟨id, World.queueOf_eq hbg, .inr hin⟩

end Leave

/-! ## Travelling and arriving -/

section Travel

variable {w : World} {opened : Slots} {owed : Nat → Team → Nat} {id : Nat} {bg : Battleground}
  {guid : ObjectGuid} {q : BattlegroundQueueTypeId}

theorem World.bgs_of_currentBg (hbg : w.currentBg guid = some bg) :
    (w.players guid).bgInstanceID ≠ 0 ∧ w.bgs (w.players guid).bgInstanceID = some bg := by
  obtain ⟨hne, hbg', -⟩ := World.bgs_of_getBattleground hbg
  exact ⟨hne, hbg'⟩

theorem Placed.currentBg_eq (h : Placed w opened) (hid : (w.players guid).bgInstanceID = id)
    (hq : w.queueOf id = some q) (hrefers : (w.players guid).RefersTo q) :
    ∃ bg, w.currentBg guid = some bg ∧ w.bgs id = some bg ∧ bg.queueType = q := by
  obtain ⟨bg, hbg, hqueue⟩ := World.exists_of_queueOf hq
  obtain ⟨hne, -, htype⟩ := h.bg id bg hbg
  refine ⟨bg, ?_, hbg, hqueue⟩
  unfold World.currentBg
  rw [hid]
  refine World.getBattleground_eq hne hbg (hrefers.imp_right fun hb => ?_)
  rw [htype, hqueue, hb]

/-- A connected player who is inside finds the battleground he is in. -/
theorem Placed.not_inside_of_currentBg (h : Placed w opened)
    (hconn : (w.players guid).connected = true) (hnone : w.currentBg guid = none) :
    ∀ id', ¬ w.IsInside id' guid := by
  rintro id' ⟨bg, hbg, hin⟩
  have hi := h.inside id' guid _ (World.queueOf_eq hbg) ⟨bg, hbg, hin⟩
  obtain ⟨bg', hcur, -⟩ := h.currentBg_eq hi.here (World.queueOf_eq hbg) (hi.slot hconn).1
  rw [hnone] at hcur
  cases hcur

/-- A player who holds an invitation sets out. -/
def World.depart (w : World) (guid : ObjectGuid) (id : Nat) (bgTypeId : BattlegroundTypeId)
    (team : Team) : World :=
  { w.setPlayer guid (((w.players guid).setBattlegroundId id bgTypeId).setBGTeam (some team)) with
    teleports := w.teleports.insert guid id }

theorem depart_spec {bgTypeId : BattlegroundTypeId} {team : Team} (h : Placed w opened)
    (hc : Counted w fun id' team' => owed id' team' + owedOne id team id' team')
    (hconn : (w.players guid).connected = true) (hnot : ∀ id', ¬ w.IsInside id' guid)
    (htravel : guid ∉ w.teleports) (hq : w.queueOf id = some q)
    (htype : bgTypeId = .none ∨ bgTypeId = bgTemplateId q) (hqueued : ¬ w.IsQueued q guid)
    (hslot : (w.players guid).invitation q = some id) :
    Placed (w.depart guid id bgTypeId team) opened ∧
      Counted (w.depart guid id bgTypeId team) owed := by
  have hself : (w.depart guid id bgTypeId team).players guid =
      ((w.players guid).setBattlegroundId id bgTypeId).setBGTeam (some team) :=
    Function.update_self ..
  have hne : ∀ guid', guid' ≠ guid →
      (w.depart guid id bgTypeId team).players guid' = w.players guid' :=
    fun guid' heq => Function.update_of_ne heq ..
  have hplayer : ∀ guid', ((w.depart guid id bgTypeId team).players guid').connected =
        (w.players guid').connected ∧
      ∀ q', ((w.depart guid id bgTypeId team).players guid').invitation q' =
        (w.players guid').invitation q' := by
    intro guid'
    by_cases heq : guid' = guid
    · subst heq
      rw [hself]
      exact ⟨rfl, fun _ => rfl⟩
    · rw [hne guid' heq]
      exact ⟨rfl, fun _ => rfl⟩
  refine ⟨⟨h.bg, h.member, ?_, ?_, ?_, ?_⟩, ?_⟩
  · intro q' gid g hg
    have hgroup := h.group q' gid g hg
    exact ⟨hgroup.listed, hgroup.typeId, hgroup.queueType, hgroup.queue_ne, hgroup.invited⟩
  · intro q' guid' gid g hg hmem
    rw [(hplayer guid').1, (hplayer guid').2]
    exact h.queued q' guid' gid g hg hmem
  · intro guid' id' hid'
    change (w.teleports.insert guid id).lookup guid' = some id' at hid'
    by_cases heq : guid' = guid
    · subst heq
      rw [AList.lookup_insert] at hid'
      obtain rfl := Option.some.inj hid'
      refine ⟨(hplayer guid').1.trans hconn, by rw [hself]; rfl, q, hq, ?_, hqueued, fun _ => ?_⟩
      · rw [hself]
        exact htype
      · rw [(hplayer guid').2]
        exact hslot
    · rw [AList.lookup_insert_ne heq] at hid'
      obtain ⟨hc', hhere, q', hq', hrefers, hnotq, hslot'⟩ := h.travel guid' id' hid'
      rw [← hne guid' heq] at hc' hhere hrefers hslot'
      exact ⟨hc', hhere, q', hq', hrefers, hnotq, hslot'⟩
  · intro id' guid' q' hq' hinside
    have heq : guid' ≠ guid := by
      rintro rfl
      exact hnot id' hinside
    obtain ⟨hhere, hsettled, hnotq, hslot'⟩ := h.inside id' guid' q' hq' hinside
    rw [← hne guid' heq] at hhere hslot'
    refine ⟨hhere, fun hin => ?_, hnotq, hslot'⟩
    exact hsettled (((AList.mem_insert _).1 hin).resolve_left heq)
  · refine ⟨?_, hc.playersCount, hc.wrapped⟩
    intro id' bg' hbg' team'
    have hold := hc.invited id' bg' hbg' team'
    have htravelling : (w.depart guid id bgTypeId team).travelling id' team' =
        owedOne id team id' team' + w.travelling id' team' := by
      show Ledger.count (w.teleports.insert guid id) _ = _
      rw [Ledger.count_insert_of_notMem htravel]
      congr 1
      · unfold owedOne
        rw [hself]
        by_cases hboth : id' = id ∧ team' = team
        · rw [if_pos hboth, hboth.1, hboth.2]
          simp [Player.setBGTeam, Player.getBGTeam]
        · rw [if_neg hboth]
          have hfalse : (id == id' && team == team') = false := by
            rw [Bool.and_eq_false_iff, beq_eq_false_iff_ne, beq_eq_false_iff_ne]
            by_cases hid : id = id'
            · exact .inr fun ht => hboth ⟨hid.symm, ht.symm⟩
            · exact .inl hid
          show Bool.toNat (id == id' && team == team') = 0
          rw [hfalse]
          rfl
      · refine Ledger.count_congr fun guid' dest hdest => ?_
        rw [hne guid']
        rintro rfl
        exact htravel (AList.lookup_isSome.1 (hdest ▸ rfl))
    show bg'.getInvitedCount team' = w.invitedInQueue bg'.queueType id' team' +
      (w.depart guid id bgTypeId team).travelling id' team' + bg'.inside team' + owed id' team'
    rw [htravelling]
    omega

/-- A queued player who accepts: off the queue, out of where he is, and on his way. -/
theorem enterBattleground_spec {gid : GroupId} {g : GroupQueueInfo}
    {bgTypeId : BattlegroundTypeId} (h : Placed w noSlots) (hc : Counted w owed)
    (hg : (w.queues q).groups gid = some g) (hmem : guid ∈ g.players)
    (hbg : w.getBattleground g.isInvitedToBGInstanceGUID bgTypeId = some bg)
    (htravel : guid ∉ w.teleports) :
    Placed (w.enterBattleground guid q bgTypeId g) noSlots ∧
      Counted (w.enterBattleground guid q bgTypeId g) owed := by
  obtain ⟨hne, hbgs, htypeId⟩ := World.bgs_of_getBattleground hbg
  have hgroup := h.group q gid g hg
  obtain ⟨hconn, hslot⟩ := h.queued q guid gid g hg hmem
  have hlookup := (h.member q guid gid).2 ⟨g, hg, hmem⟩
  have hqueued : w.IsQueued q guid := World.isQueued_iff.2 ⟨gid, hlookup⟩
  -- an invited group is left by one player only
  have hremove : w.queueRemovePlayer q guid false = w.unqueue q guid gid g false := by
    have hlength := Ledger.length_erase hlookup
    obtain ⟨n, hn⟩ : ∃ n, (w.queues q).queuedPlayers.entries.length = n + 1 :=
      ⟨_, (hlength.symm.trans (Nat.add_comm 1 _))⟩
    unfold World.queueRemovePlayer
    rw [hn]
    unfold World.removePlayer
    simp only [h.groupOf_eq.2 ⟨hg, hmem⟩, hgroup.listed, if_true, hne, false_and, if_false]
    split <;> rfl
  have hplaced : Placed (w.unqueue q guid gid g false) noSlots := h.unqueue hg hmem
  have hcounted := Counted.unqueue_owed h hc hg hmem
  have k : Kept w (w.unqueue q guid gid g false) := World.unqueue_kept
  have hgone : ¬ (w.unqueue q guid gid g false).IsQueued q guid := fun hin =>
    ((unqueue_isQueued h hg hmem q guid).1 hin).2 ⟨rfl, rfl⟩
  have hengaged : ¬ (w.unqueue q guid gid g false).IsEngaged q guid := fun he =>
    h.not_queued_of_engaged ((k.isEngaged q guid).1 he) hqueued
  have hplayers : (w.unqueue q guid gid g false).players = w.players := World.unqueue_players
  have htele : guid ∉ (w.unqueue q guid gid g false).teleports := by
    rw [k.teleports]
    exact htravel
  have hqueueOf : (w.unqueue q guid gid g false).queueOf g.isInvitedToBGInstanceGUID = some q :=
    (k.bgs.queueOf _).trans (hgroup.invited hne)
  have htype : bgTypeId = .none ∨ bgTypeId = bgTemplateId q := by
    have hq := World.queueOf_eq hbgs
    rw [hgroup.invited hne] at hq
    refine htypeId.imp_right fun heq => ?_
    rw [← heq, (h.bg _ bg hbgs).2.2, ← Option.some.inj hq]
  unfold World.enterBattleground
  simp only [hremove]
  generalize w.unqueue q guid gid g false = w₁ at *
  cases hcur : w₁.currentBg guid with
  | none =>
      refine depart_spec hplaced hcounted (by rw [hplayers]; exact hconn) ?_ htele hqueueOf htype
        hgone (by rw [hplayers]; exact hslot id)
      exact hplaced.not_inside_of_currentBg (by rw [hplayers]; exact hconn) hcur
  | some cur =>
      obtain ⟨-, hcurBgs⟩ := World.bgs_of_currentBg hcur
      obtain ⟨hp, hc', hleft⟩ := removePlayerAtLeave_spec hplaced hcounted hcurBgs rfl true
        (fun _ => htele) false
      refine depart_spec hp hc' ?_ ?_ ?_ ((hleft.queueOf _).trans hqueueOf) htype ?_ ?_
      · rw [hleft.connected, hplayers]
        exact hconn
      · exact fun id' hin => (hleft.inside id' guid hin).2 rfl
      · rw [← AList.lookup_eq_none, hleft.teleports, AList.lookup_eq_none]
        exact htele
      · unfold World.IsQueued
        rw [hleft.queues]
        exact hgone
      · rw [hleft.invitation q hgroup.queue_ne hengaged, hplayers]
        exact hslot id

/-- `AddPlayer` for one who has arrived: he is counted inside instead of on his way. -/
theorem addPlayer_spec (h : Placed w noSlots) (hc : Counted w owed)
    (hlookup : w.teleports.lookup guid = some id) (hbg : w.bgs id = some bg)
    (hnew : guid ∉ bg.players) :
    Placed (World.addPlayer { w with teleports := w.teleports.erase guid } id bg guid) noSlots ∧
      Counted (World.addPlayer { w with teleports := w.teleports.erase guid } id bg guid) owed := by
  obtain ⟨hconn, hhere, q, hq, hrefers, hnotq, hslot⟩ := h.travel guid id hlookup
  generalize hw : World.addPlayer { w with teleports := w.teleports.erase guid } id bg guid = w'
  obtain ⟨team, hteam⟩ : ∃ team, (w.players guid).getBGTeam = team := ⟨_, rfl⟩
  obtain ⟨bg', hset, hqueue, hplayers, hinvited, hcount, hwrapped⟩ :
      ∃ bg', w'.bgs id = some bg' ∧ (bg'.typeID = bg.typeID ∧ bg'.arenaType = bg.arenaType) ∧
        bg'.players = bg.players.insert guid team ∧
        bg'.getInvitedCount = bg.getInvitedCount ∧
        bg'.playersCount = Function.update bg.playersCount team (bg.playersCount team + 1) ∧
        bg'.wrapped = bg.wrapped := by
    subst hw hteam
    exact ⟨_, Function.update_self .., ⟨rfl, rfl⟩, rfl, by funext t; cases t <;> rfl, rfl, rfl⟩
  have hset_ne : ∀ id', id' ≠ id → w'.bgs id' = w.bgs id' := by
    intro id' hid
    subst hw
    exact Function.update_of_ne hid ..
  have hqueues : w'.queues = w.queues := by subst hw; rfl
  have hsame : w'.players = w.players := by subst hw; rfl
  have hteleports : w'.teleports = w.teleports.erase guid := by subst hw; rfl
  have htype : bg'.queueType = bg.queueType := by
    unfold Battleground.queueType
    rw [hqueue.1, hqueue.2]
  have hqueueOf : ∀ id', w'.queueOf id' = w.queueOf id' := by
    intro id'
    by_cases hid : id' = id
    · subst hid
      rw [World.queueOf_eq hset, World.queueOf_eq hbg, htype]
    · unfold World.queueOf
      rw [hset_ne id' hid]
  have hinside : ∀ id' guid', w'.IsInside id' guid' →
      w.IsInside id' guid' ∨ id' = id ∧ guid' = guid := by
    intro id' guid' hin
    by_cases hid : id' = id
    · subst hid
      rw [World.isInside_iff hset, hplayers, AList.mem_insert] at hin
      rw [World.isInside_iff hbg]
      exact hin.symm.imp_right fun heq => ⟨rfl, heq⟩
    · unfold World.IsInside at hin
      rw [hset_ne id' hid] at hin
      exact .inl hin
  have hqueued : ∀ q' guid', w'.IsQueued q' guid' ↔ w.IsQueued q' guid' := by
    intro q' guid'
    unfold World.IsQueued
    rw [hqueues]
  have hin_count : ∀ t, bg'.inside t = (team == t).toNat + bg.inside t := by
    intro t
    unfold Battleground.inside
    rw [hplayers]
    exact Ledger.count_insert_of_notMem hnew team _
  refine ⟨⟨?_, hqueues ▸ h.member, ?_, ?_, ?_, ?_⟩, ?_, ?_, ?_⟩
  · intro id' b hb
    by_cases hid : id' = id
    · subst hid
      obtain rfl := Option.some.inj (hset.symm.trans hb)
      rw [htype, hqueue.1]
      exact h.bg id' bg hbg
    · exact h.bg id' b (hset_ne id' hid ▸ hb)
  · intro q' gid g hg
    rw [hqueues] at hg
    have hgroup := h.group q' gid g hg
    exact ⟨hgroup.listed, hgroup.typeId, hgroup.queueType, hgroup.queue_ne, fun hne =>
      (hqueueOf _).trans (hgroup.invited hne)⟩
  · rw [hqueues, hsame]
    exact h.queued
  · intro guid' id' hid'
    rw [hteleports] at hid'
    have heq : guid' ≠ guid := by
      rintro rfl
      rw [AList.lookup_erase] at hid'
      cases hid'
    rw [AList.lookup_erase_ne heq] at hid'
    obtain ⟨hc', hhere', q', hq', hrefers', hnotq', hslot'⟩ := h.travel guid' id' hid'
    rw [← hsame] at hc' hhere' hrefers' hslot'
    exact ⟨hc', hhere', q', (hqueueOf id').trans hq', hrefers',
      fun hin => hnotq' ((hqueued _ _).1 hin), hslot'⟩
  · intro id' guid' q' hq' hin
    rw [hqueueOf] at hq'
    obtain hold | ⟨rfl, rfl⟩ := hinside id' guid' hin
    · obtain ⟨hhere', hsettled, hnotq', hslot'⟩ := h.inside id' guid' q' hq' hold
      rw [← hsame] at hhere' hslot'
      refine ⟨hhere', fun hmem => hsettled ?_, fun hin' => hnotq' ((hqueued _ _).1 hin'), hslot'⟩
      rw [hteleports] at hmem
      exact (AList.mem_erase.1 hmem).2
    · rw [hq] at hq'
      obtain rfl := Option.some.inj hq'
      rw [← hsame] at hhere hrefers hslot
      refine ⟨hhere, fun hmem => ?_, fun hin' => hnotq ((hqueued _ _).1 hin'), fun _ =>
        ⟨hrefers, fun hopen => ?_⟩⟩
      · rw [hteleports] at hmem
        exact (AList.mem_erase.1 hmem).1 rfl
      · rw [hslot hopen]
        rfl
  · intro id' b hb t
    have hteleport : (id == id' && team == t).toNat + w'.travelling id' t = w.travelling id' t := by
      have herase := Ledger.count_erase hlookup fun guid' dest =>
        dest == id' && (w.players guid').getBGTeam == t
      unfold World.travelling
      rw [hsame, hteleports, ← herase, hteam]
    have hqueue' : ∀ q', w'.invitedInQueue q' id' t = w.invitedInQueue q' id' t := by
      intro q'
      unfold World.invitedInQueue
      rw [hqueues]
    rw [hqueue']
    by_cases hid : id' = id
    · subst hid
      obtain rfl := Option.some.inj (hset.symm.trans hb)
      have hold := hc.invited id' bg hbg t
      have hin := hin_count t
      rw [beq_self_eq_true, Bool.true_and] at hteleport
      rw [hinvited, htype]
      omega
    · rw [hset_ne id' hid] at hb
      have hold := hc.invited id' b hb t
      rw [beq_eq_false_iff_ne.2 (Ne.symm hid), Bool.false_and, Bool.toNat_false] at hteleport
      omega
  · intro id' b hb t
    by_cases hid : id' = id
    · subst hid
      obtain rfl := Option.some.inj (hset.symm.trans hb)
      have hold := hc.playersCount id' bg hbg t
      have hin := hin_count t
      rw [hcount]
      by_cases ht : t = team
      · subst ht
        rw [beq_self_eq_true, Bool.toNat_true] at hin
        rw [Function.update_self]
        omega
      · rw [beq_eq_false_iff_ne.2 (Ne.symm ht), Bool.toNat_false] at hin
        rw [Function.update_of_ne ht]
        omega
    · exact hc.playersCount id' b (hset_ne id' hid ▸ hb) t
  · intro id' b hb
    by_cases hid : id' = id
    · subst hid
      obtain rfl := Option.some.inj (hset.symm.trans hb)
      rw [hwrapped]
      exact hc.wrapped id' bg hbg
    · exact hc.wrapped id' b (hset_ne id' hid ▸ hb)

/-- The teleport is finished, and the invitation is that of a player inside. -/
theorem handleMoveWorldportAck_spec (h : Placed w noSlots) (hc : Counted w owed) :
    Placed (w.handleMoveWorldportAck guid) noSlots ∧
      Counted (w.handleMoveWorldportAck guid) owed := by
  unfold World.handleMoveWorldportAck
  cases hlookup : w.teleports.lookup guid with
  | none => exact ⟨h, hc⟩
  | some id =>
      obtain ⟨hconn, hhere, q, hq, hrefers, hnotq, hslot⟩ := h.travel guid id hlookup
      obtain ⟨bg, hcur, hbg, hqueue⟩ := h.currentBg_eq hhere hq hrefers
      have hinvited : (w.players guid).isInvitedForBattlegroundInstance id = true :=
        Player.isInvitedForInstance_of_invitation (hslot fun hf => hf)
      have hcur' : World.currentBg { w with teleports := w.teleports.erase guid } guid =
          some bg := hcur
      simp only [hcur', hinvited, if_true, hhere]
      have hnew : guid ∉ bg.players := by
        intro hin
        exact (h.inside id guid q hq ⟨bg, hbg, hin⟩).settled
          (AList.lookup_isSome.1 (hlookup ▸ rfl))
      exact addPlayer_spec h hc hlookup hbg hnew

theorem leaveBattleground_spec (h : Placed w opened) (hc : Counted w owed) (transport found : Bool)
    (htravel : found = true → guid ∉ w.teleports) :
    Placed (w.leaveBattleground guid transport found) opened ∧
      Counted (w.leaveBattleground guid transport found) owed ∧
      (∀ guid', (w.leaveBattleground guid transport found).teleports.lookup guid' =
        w.teleports.lookup guid') ∧
      (w.leaveBattleground guid transport found).queues = w.queues := by
  unfold World.leaveBattleground
  cases hcur : w.currentBg guid with
  | none => exact ⟨h, hc, fun _ => rfl, rfl⟩
  | some bg =>
      obtain ⟨hp, hc', hleft⟩ := removePlayerAtLeave_spec h hc (World.bgs_of_currentBg hcur).2 rfl
        (found && (w.players guid).connected)
        (fun hf => htravel (Bool.and_eq_true_iff.1 hf).1) transport
      exact ⟨hp, hc', hleft.teleports, hleft.queues⟩

theorem teleportAway_spec (h : Placed w opened) (hc : Counted w owed) (found : Bool)
    (htravel : guid ∉ w.teleports) :
    Placed (w.teleportAway guid found) opened ∧ Counted (w.teleportAway guid found) owed := by
  obtain ⟨hp, hc', htele, -⟩ := leaveBattleground_spec h hc false found fun _ => htravel
  have herase : (w.leaveBattleground guid false found).teleports.erase guid =
      (w.leaveBattleground guid false found).teleports := by
    refine AList.ext (List.kerase_of_notMem_keys ?_)
    rw [← AList.lookup_eq_none, ← htele, AList.lookup_eq_none] at htravel
    exact htravel
  unfold World.teleportAway
  simp only [herase]
  exact ⟨hp, hc'⟩

/-! ## Logging out and in -/

/-- The slots of one player. -/
def slotsOf (guid : ObjectGuid) : Slots := fun guid' _ => guid' = guid

/-- After the loop the player is off the queues whose slots it went through. -/
theorem logoutSlots_spec (slots : List QueueSlot) :
    ∀ w : World, Placed w (slotsOf guid) → Counted w owed →
      Placed (World.logoutSlots guid w slots) (slotsOf guid) ∧
        Counted (World.logoutSlots guid w slots) owed ∧
        Kept w (World.logoutSlots guid w slots) ∧
        (∀ q' guid', (World.logoutSlots guid w slots).IsQueued q' guid' → w.IsQueued q' guid') ∧
        ∀ slot ∈ slots, slot.bgQueueTypeId ≠ .none →
          ¬ (World.logoutSlots guid w slots).IsQueued slot.bgQueueTypeId guid := by
  induction slots with
  | nil =>
      intro w h hc
      exact ⟨h, hc, Kept.refl w, fun _ _ hq => hq, fun _ hin => by cases hin⟩
  | cons slot rest ih =>
      intro w h hc
      unfold World.logoutSlots
      rw [List.foldl_cons]
      by_cases hnone : slot.bgQueueTypeId = .none
      · rw [if_pos hnone]
        obtain ⟨hp, hc', hk, hfewer, hgone⟩ := ih w h hc
        refine ⟨hp, hc', hk, hfewer, fun slot' hin hne => ?_⟩
        rcases List.mem_cons.1 hin with rfl | hin
        · exact absurd hnone hne
        · exact hgone slot' hin hne
      · rw [if_neg hnone]
        have hr := leaveQueue_spec (q := slot.bgQueueTypeId) h hc (.inl rfl)
        obtain ⟨hp, hc', hk, hfewer, hgone⟩ := ih _ hr.placed hr.counted
        refine ⟨hp, hc', hr.kept.trans hk, fun q' guid' hq => hr.fewer q' guid' (hfewer q' guid' hq),
          fun slot' hin hne => ?_⟩
        rcases List.mem_cons.1 hin with rfl | hin
        · exact fun hq => hr.gone (hfewer _ _ hq)
        · exact hgone slot' hin hne

/-- The record of a player who is neither queued nor travelling is replaced. -/
theorem setOwn_spec {opened' : Slots} (h : Placed w opened) (hc : Counted w owed)
    (hq : ∀ q, ¬ w.IsQueued q guid) (htravel : guid ∉ w.teleports) (p : Player)
    (hothers : ∀ guid' q, guid' ≠ guid → opened guid' q → opened' guid' q)
    (hown : ∀ id q, w.queueOf id = some q → w.IsInside id guid →
      p.bgInstanceID = id ∧ (p.connected = true →
        p.RefersTo q ∧ (¬ opened' guid q → (p.invitation q).isSome = true))) :
    Placed (w.setPlayer guid p) opened' ∧ Counted (w.setPlayer guid p) owed := by
  have hself : (w.setPlayer guid p).players guid = p := Function.update_self ..
  have hne : ∀ guid', guid' ≠ guid → (w.setPlayer guid p).players guid' = w.players guid' :=
    fun guid' heq => Function.update_of_ne heq ..
  refine ⟨⟨h.bg, h.member, ?_, ?_, ?_, ?_⟩, ?_⟩
  · intro q' gid g hg
    have hgroup := h.group q' gid g hg
    exact ⟨hgroup.listed, hgroup.typeId, hgroup.queueType, hgroup.queue_ne, hgroup.invited⟩
  · intro q' guid' gid g hg hmem
    have heq : guid' ≠ guid := by
      rintro rfl
      exact hq q' (World.isQueued_iff.2 ⟨gid, (h.member q' guid' gid).2 ⟨g, hg, hmem⟩⟩)
    rw [hne guid' heq]
    obtain ⟨hconn, hslot⟩ := h.queued q' guid' gid g hg hmem
    exact ⟨hconn, fun hopen => hslot fun ho => hopen (hothers guid' q' heq ho)⟩
  · intro guid' id' hid'
    have heq : guid' ≠ guid := by
      rintro rfl
      exact htravel (AList.lookup_isSome.1 (hid' ▸ rfl))
    obtain ⟨hconn, hhere, q', hq', hrefers, hnotq, hslot⟩ := h.travel guid' id' hid'
    rw [← hne guid' heq] at hconn hhere hrefers hslot
    exact ⟨hconn, hhere, q', hq', hrefers, hnotq,
      fun hopen => hslot fun ho => hopen (hothers guid' q' heq ho)⟩
  · intro id' guid' q' hq' hin
    by_cases heq : guid' = guid
    · subst heq
      obtain ⟨hhere, hslot⟩ := hown id' q' hq' hin
      rw [← hself] at hhere hslot
      exact ⟨hhere, htravel, hq q', hslot⟩
    · obtain ⟨hhere, hsettled, hnotq, hslot⟩ := h.inside id' guid' q' hq' hin
      rw [← hne guid' heq] at hhere hslot
      refine ⟨hhere, hsettled, hnotq, fun hconn => ?_⟩
      obtain ⟨hrefers, hsome⟩ := hslot hconn
      exact ⟨hrefers, fun hopen => hsome fun ho => hopen (hothers guid' q' heq ho)⟩
  · refine hc.elsewhere rfl (travelling_of_not_travelling (.inl rfl) hne htravel) ?_
    exact fun id' bg' hbg' => ⟨bg', hbg', rfl, rfl, rfl, rfl, rfl⟩

theorem eventPlayerLoggedOut_spec (h : Placed w opened) (hc : Counted w owed) (found : Bool)
    (htravel : guid ∉ w.teleports) :
    Placed (w.eventPlayerLoggedOut guid found) opened ∧
      Counted (w.eventPlayerLoggedOut guid found) owed ∧
      guid ∉ (w.eventPlayerLoggedOut guid found).teleports := by
  unfold World.eventPlayerLoggedOut
  cases hcur : w.currentBg guid with
  | none => exact ⟨h, hc, htravel⟩
  | some bg =>
      simp only []
      split
      · obtain ⟨hp, hc', htele, -⟩ := leaveBattleground_spec h hc true found fun _ => htravel
        refine ⟨hp, hc', ?_⟩
        rw [← AList.lookup_eq_none, htele, AList.lookup_eq_none]
        exact htravel
      · exact ⟨h, hc, htravel⟩

theorem logoutPlayer_spec (h : Placed w noSlots) (hc : Counted w owed) (found : Bool)
    (htravel : guid ∉ w.teleports) :
    Placed (w.logoutPlayer guid found) noSlots ∧ Counted (w.logoutPlayer guid found) owed := by
  unfold World.logoutPlayer
  split
  · obtain ⟨h₁, hc₁, htravel₁⟩ := eventPlayerLoggedOut_spec h hc found htravel
    simp only []
    generalize w.eventPlayerLoggedOut guid found = w₁ at *
    obtain ⟨h₂, hc₂, hk, hfewer, hgone⟩ := logoutSlots_spec (w₁.players guid).queueSlots w₁
      (h₁.mono fun _ _ hf => hf.elim) hc₁
    generalize World.logoutSlots guid w₁ (w₁.players guid).queueSlots = w₂ at *
    have htravel₂ : guid ∉ w₂.teleports := by
      rw [hk.teleports]
      exact htravel₁
    have hack : w₂.handleMoveWorldportAck guid = w₂ := by
      unfold World.handleMoveWorldportAck
      rw [AList.lookup_eq_none.2 htravel₂]
    -- a queue he was in had a slot, and the loop went through it
    have hnotq : ∀ q, ¬ w₂.IsQueued q guid := by
      intro q hq
      obtain ⟨gid, hgid⟩ := World.isQueued_iff.1 (hfewer q guid hq)
      obtain ⟨g, hg, hmem⟩ := (h₁.member q guid gid).1 hgid
      have hslot := (h₁.queued q guid gid g hg hmem).2 id
      unfold Player.invitation at hslot
      obtain ⟨slot, hfind, -⟩ := Option.map_eq_some_iff.1 hslot
      have htype : slot.bgQueueTypeId = q := by simpa using List.find?_some hfind
      refine hgone slot (List.mem_of_find?_eq_some hfind) ?_ (htype ▸ hq)
      rw [htype]
      exact (h₁.group q gid g hg).queue_ne
    rw [hack]
    refine setOwn_spec h₂ hc₂ hnotq htravel₂ _ (fun guid' q hne hopen => absurd hopen hne) ?_
    intro id q hid hin
    exact ⟨(h₂.inside id guid q hid hin).here, fun hconn => by cases hconn⟩
  · exact ⟨h, hc⟩

theorem loadFromDB_spec (h : Placed w noSlots) (hc : Counted w owed) (onBattlegroundMap : Bool) :
    Placed (w.loadFromDB guid onBattlegroundMap) noSlots ∧
      Counted (w.loadFromDB guid onBattlegroundMap) owed := by
  unfold World.loadFromDB
  split <;> rename_i hconn
  · exact ⟨h, hc⟩
  · have hnotq : ∀ q, ¬ w.IsQueued q guid := fun q hq => hconn (h.queued_connected hq)
    have htravel : guid ∉ w.teleports := by
      rw [← AList.lookup_eq_none]
      cases hlookup : w.teleports.lookup guid with
      | none => rfl
      | some id => exact absurd (h.travel guid id hlookup).connected hconn
    simp only []
    generalize hp : ({ w.players guid with
      connected := true
      bgTypeID := .none
      bgTeam := none
      queueSlots := List.replicate playerMaxBattlegroundQueues QueueSlot.free } : Player) = p
    have hself : (w.setPlayer guid p).players guid = p := Function.update_self ..
    have htwice : ∀ p', (w.setPlayer guid p).setPlayer guid p' = w.setPlayer guid p' := by
      intro p'
      unfold World.setPlayer
      rw [Function.update_idem]
    have hid : p.bgInstanceID = (w.players guid).bgInstanceID := by rw [← hp]
    have hget : ∀ id, (w.setPlayer guid p).getBattleground id .none = w.getBattleground id .none :=
      fun _ => rfl
    rw [hself, hget, htwice]
    cases hbg : (w.getBattleground p.bgInstanceID .none).filter
        fun bg => (bg.getPlayerTeam guid).isSome with
    | none =>
        have hnot : ∀ id, ¬ w.IsInside id guid := by
          rintro id ⟨bg, hbgs, hin⟩
          have hi := h.inside id guid _ (World.queueOf_eq hbgs) ⟨bg, hbgs, hin⟩
          have hfound := World.getBattleground_eq (h.bg id bg hbgs).1 hbgs
            (.inl (rfl : BattlegroundTypeId.none = .none))
          rw [hid, hi.here, hfound, Option.filter_eq_none_iff] at hbg
          exact hbg bg rfl (AList.lookup_isSome.2 hin)
        simp only []
        split
        · exact setOwn_spec h hc hnotq htravel _ (fun _ _ _ hopen => hopen)
            fun id q _ hin => absurd hin (hnot id)
        · exact setOwn_spec h hc hnotq htravel _ (fun _ _ _ hopen => hopen)
            fun id q _ hin => absurd hin (hnot id)
    | some bg =>
        obtain ⟨hfound, hin⟩ := Option.filter_eq_some_iff.1 hbg
        obtain ⟨-, hbgs, -⟩ := World.bgs_of_getBattleground hfound
        simp only []
        split <;> rename_i hstatus
        · rw [htwice]
          refine setOwn_spec h hc hnotq htravel _ (fun _ _ _ hopen => hopen) ?_
          intro id q hq hin'
          have hi := h.inside id guid q hq hin'
          have heq : id = p.bgInstanceID := hi.here.symm.trans hid.symm
          rw [heq, World.queueOf_eq hbgs] at hq
          obtain rfl := Option.some.inj hq
          refine ⟨heq.symm, fun _ => ⟨.inr (h.bg _ bg hbgs).2.2, fun _ => ?_⟩⟩
          have hadd : (p.addBattlegroundQueueId bg.queueType).invitation bg.queueType = some 0 := by
            refine Player.invitation_add_self ?_
            rw [← hp]
            rfl
          have hset := Player.invitation_setInvite_self
            (p := { p.addBattlegroundQueueId bg.queueType with bgTypeID := bg.typeID })
            p.bgInstanceID (t := bg.queueType) (by
              show ((p.addBattlegroundQueueId bg.queueType).invitation bg.queueType).isSome = true
              rw [hadd]
              rfl)
          rw [hset]
          rfl
        · obtain ⟨h₁, hc₁⟩ : Placed (w.setPlayer guid p) (slotsOf guid) ∧
              Counted (w.setPlayer guid p) owed := setOwn_spec h hc hnotq htravel p
            (fun _ _ _ hopen => hopen.elim) fun id q hq hin' =>
              ⟨hid.trans (h.inside id guid q hq hin').here, fun _ =>
                ⟨.inl (by rw [← hp]), fun hopen => absurd rfl hopen⟩⟩
          obtain ⟨h₂, hc₂, hleft⟩ := removePlayerAtLeave_spec
            h₁ hc₁ hbgs (by rw [hself]) false (fun hf => by cases hf) false
          refine setOwn_spec h₂ hc₂ ?_ ?_ _ (fun guid' q hne hopen => absurd hopen hne)
            fun id q _ hin' => absurd rfl (hleft.inside id guid hin').2
          · intro q
            unfold World.IsQueued
            rw [hleft.queues]
            exact hnotq q
          · rw [← AList.lookup_eq_none, hleft.teleports, AList.lookup_eq_none]
            exact htravel

end Travel

/-! ## Runs -/

/-- The port takes the player in. -/
def World.enters (w : World) (guid : ObjectGuid) (r : World.PortRequest) : Bool :=
  match w.groupOf (bgQueueTypeId r.bgTypeId r.arenaType) guid with
  | none => false
  | some (_, ginfo) =>
      (w.getBattleground ginfo.isInvitedToBGInstanceGUID r.bgTypeId).isSome && r.bracketFound &&
        r.effectiveAction ginfo != 0 && !r.frozen &&
        (w.players guid).isInvitedForBattlegroundQueueType (bgQueueTypeId r.bgTypeId r.arenaType)

/-- The operation takes no travelling player off his way: he does not accept another
invitation, leave while he is still found in the world, get teleported elsewhere or log out. -/
def opOk (w : World) : Op → Bool
  | .port guid r => decide (guid ∉ w.teleports) || !w.enters guid r
  | .leave guid found => decide (guid ∉ w.teleports) || !found
  | .teleportAway guid _ => decide (guid ∉ w.teleports)
  | .logout guid _ => decide (guid ∉ w.teleports)
  | _ => true

def okRun : World → List Op → Bool
  | _, [] => true
  | w, op :: ops => opOk w op && okRun (step w op) ops

section Step

variable {w : World} {owed : Nat → Team → Nat}

theorem create_spec (h : Placed w noSlots) (hc : Counted w nothingOwed)
    {q : BattlegroundQueueTypeId} {id : Nat} (hq : q ≠ .none) (hid : id ≠ 0)
    (hnew : w.bgs id = none) (isArena : Bool) :
    Placed (w.setBg id (newBattleground q isArena)) noSlots ∧
      Counted (w.setBg id (newBattleground q isArena)) nothingOwed := by
  have hqueue : (newBattleground q isArena).queueType = q := bgQueueTypeId_template q
  have hnoQueue : w.queueOf id = none := by
    unfold World.queueOf
    rw [hnew]
    rfl
  have hqueueOf : ∀ id', id' ≠ id →
      (w.setBg id (newBattleground q isArena)).queueOf id' = w.queueOf id' := by
    intro id' hne
    unfold World.queueOf World.setBg
    simp only [Function.update_of_ne hne]
  have hother : ∀ id' q', w.queueOf id' = some q' →
      (w.setBg id (newBattleground q isArena)).queueOf id' = some q' := by
    intro id' q' hq'
    rw [hqueueOf id' ?_, hq']
    rintro rfl
    rw [hnoQueue] at hq'
    cases hq'
  refine ⟨⟨?_, h.member, ?_, h.queued, ?_, ?_⟩, ?_, ?_, ?_⟩
  · intro id' bg hbg
    obtain ⟨rfl, rfl⟩ | ⟨-, hold⟩ := World.setBg_cases hbg
    · rw [hqueue]
      exact ⟨hid, hq, rfl⟩
    · exact h.bg id' bg hold
  · intro q' gid g hg
    have hgroup := h.group q' gid g hg
    exact ⟨hgroup.listed, hgroup.typeId, hgroup.queueType, hgroup.queue_ne,
      fun hne => hother _ _ (hgroup.invited hne)⟩
  · intro guid id' hid'
    obtain ⟨hconn, hhere, q', hq', hrest⟩ := h.travel guid id' hid'
    exact ⟨hconn, hhere, q', hother id' q' hq', hrest⟩
  · rintro id' guid q' hq' ⟨bg, hbg, hin⟩
    obtain ⟨rfl, rfl⟩ | ⟨hne, hold⟩ := World.setBg_cases hbg
    · cases hin
    · rw [hqueueOf id' hne] at hq'
      obtain ⟨hhere, hsettled, hnotq, hslot⟩ := h.inside id' guid q' hq' ⟨bg, hold, hin⟩
      exact ⟨hhere, hsettled, hnotq, hslot⟩
  · intro id' bg hbg team
    obtain ⟨rfl, rfl⟩ | ⟨-, hold⟩ := World.setBg_cases hbg
    · have hqzero : w.invitedInQueue q id' team = 0 := by
        refine Ledger.count_eq_zero fun guid gid hgid => ?_
        obtain ⟨g, hg, -⟩ := (h.member q guid gid).1 hgid
        unfold BattlegroundQueue.isInvited
        rw [hg, Option.any_some, beq_eq_false_iff_ne.2, Bool.false_and]
        rintro rfl
        rw [(h.group q gid g hg).invited hid] at hnoQueue
        cases hnoQueue
      have htzero : w.travelling id' team = 0 := by
        refine Ledger.count_eq_zero fun guid dest hdest => ?_
        obtain ⟨-, -, q', hq', -⟩ := h.travel guid dest hdest
        rw [beq_eq_false_iff_ne.2, Bool.false_and]
        rintro rfl
        rw [hnoQueue] at hq'
        cases hq'
      show _ = w.invitedInQueue _ id' team + w.travelling id' team + _ + _
      rw [hqueue, hqzero, htzero]
      cases team <;> rfl
    · exact hc.invited id' bg hold team
  · intro id' bg hbg team
    obtain ⟨rfl, rfl⟩ | ⟨-, hold⟩ := World.setBg_cases hbg
    · rfl
    · exact hc.playersCount id' bg hold team
  · intro id' bg hbg
    obtain ⟨rfl, rfl⟩ | ⟨-, hold⟩ := World.setBg_cases hbg
    · rfl
    · exact hc.wrapped id' bg hold

theorem handleBattleFieldPort_spec {guid : ObjectGuid} {r : World.PortRequest}
    (h : Placed w noSlots) (hc : Counted w owed)
    (hok : w.enters guid r = true → guid ∉ w.teleports) :
    Placed (w.handleBattleFieldPort guid r) noSlots ∧
      Counted (w.handleBattleFieldPort guid r) owed := by
  unfold World.enters at hok
  unfold World.handleBattleFieldPort
  split
  · exact ⟨h, hc⟩
  · simp only []
    generalize bgQueueTypeId r.bgTypeId r.arenaType = q at *
    cases hgroup : w.groupOf q guid with
    | none => exact ⟨h, hc⟩
    | some found =>
        obtain ⟨gid, g⟩ := found
        obtain ⟨hg, hmem⟩ := h.groupOf_eq.1 hgroup
        have hleave : Placed (w.leaveQueue guid q) noSlots ∧ Counted (w.leaveQueue guid q) owed := by
          have hr := leaveQueue_spec (q := q) h hc
            (.inr (World.isQueued_iff.2 ⟨gid, (h.member q guid gid).2 ⟨g, hg, hmem⟩⟩))
          exact ⟨hr.placed, hr.counted⟩
        simp only [hgroup] at hok
        simp only []
        split
        · exact ⟨h, hc⟩
        · cases hbg : w.getBattleground g.isInvitedToBGInstanceGUID r.bgTypeId with
          | some bg =>
              simp only []
              split <;> rename_i hbracket
              · exact ⟨h, hc⟩
              · split <;> rename_i haction
                · split <;> rename_i hfrozen
                  · exact ⟨h, hc⟩
                  · refine enterBattleground_spec h hc hg hmem hbg (hok ?_)
                    rw [Bool.or_eq_true, not_or] at hfrozen
                    simp_all
                · split
                  · exact ⟨h, hc⟩
                  · exact hleave
          | none =>
              simp only []
              split
              · exact ⟨h, hc⟩
              · split
                · exact ⟨h, hc⟩
                · split
                  · exact ⟨h, hc⟩
                  · exact hleave

theorem bgQueueRemoveEvent_spec {guid : ObjectGuid} {id removeTime : Nat}
    {q : BattlegroundQueueTypeId} (h : Placed w noSlots) (hc : Counted w owed) :
    Placed (w.bgQueueRemoveEvent guid id q removeTime) noSlots ∧
      Counted (w.bgQueueRemoveEvent guid id q removeTime) owed := by
  unfold World.bgQueueRemoveEvent
  split
  · cases hgroup : w.groupOf q guid with
    | none => exact ⟨h, hc⟩
    | some found =>
        obtain ⟨gid, g⟩ := found
        obtain ⟨hg, hmem⟩ := h.groupOf_eq.1 hgroup
        simp only []
        split
        · have hr := leaveQueue_spec (q := q) h hc
            (.inr (World.isQueued_iff.2 ⟨gid, (h.member q guid gid).2 ⟨g, hg, hmem⟩⟩))
          exact ⟨hr.placed, hr.counted⟩
        · exact ⟨h, hc⟩
  · exact ⟨h, hc⟩

/-- One operation that takes nobody off his way. -/
theorem step_spec (h : Placed w noSlots) (hc : Counted w nothingOwed) (op : Op)
    (hok : opOk w op = true) :
    Placed (step w op) noSlots ∧ Counted (step w op) nothingOwed := by
  cases op with
  | create q id isArena =>
      simp only [step]
      split <;> rename_i hnew
      · exact create_spec h hc hnew.1 hnew.2.1 (Option.isNone_iff_eq_none.1 hnew.2.2) isArena
      · exact ⟨h, hc⟩
  | setStatus id status =>
      simp only [step]
      cases hbg : w.bgs id with
      | none => exact ⟨h, hc⟩
      | some bg =>
          obtain ⟨hp, hc', -⟩ := setBg_spec h hc hbg { bg with status := status } rfl rfl rfl
            rfl rfl rfl
          exact ⟨hp, hc'⟩
  | join q gid members team isRated isPremade bracketId =>
      simp only [step]
      split <;> rename_i hjoin
      · obtain ⟨-, hne, hfresh, hbracket, hall⟩ := hjoin
        exact addGroup_spec h hc hne (Option.isNone_iff_eq_none.1 hfresh) hbracket
          (List.all_eq_true.1 hall)
      · exact ⟨h, hc⟩
  | skirmish q gid side => exact moveToList_spec h hc side
  | invite gid id now =>
      simp only [step]
      cases hbg : w.bgs id with
      | none => exact ⟨h, hc⟩
      | some bg =>
          simp only []
          cases hg : (w.queues bg.queueType).groups gid with
          | none => exact ⟨h, hc⟩
          | some g => exact inviteGroupToBG_spec h hc hg hbg rfl now
  | inviteRated gid id side now =>
      simp only [step]
      cases hbg : w.bgs id with
      | none => exact ⟨h, hc⟩
      | some bg => exact inviteRated_spec h hc hbg rfl side now
  | port guid r =>
      refine handleBattleFieldPort_spec h hc fun henters => ?_
      simpa [opOk, henters] using hok
  | expire guid id q removeTime => exact bgQueueRemoveEvent_spec h hc
  | arrive guid => exact handleMoveWorldportAck_spec h hc
  | leave guid found =>
      obtain ⟨hp, hc', -⟩ := leaveBattleground_spec h hc true found fun hfound => by
        simpa [opOk, hfound] using hok
      exact ⟨hp, hc'⟩
  | teleportAway guid found => exact teleportAway_spec h hc found (of_decide_eq_true hok)
  | kick id guid found =>
      simp only [step]
      cases hbg : w.bgs id with
      | none => exact ⟨h, hc⟩
      | some bg =>
          simp only []
          split <;> rename_i hin
          · have hi := h.inside id guid _ (World.queueOf_eq hbg) ⟨bg, hbg, AList.lookup_isSome.1 hin⟩
            obtain ⟨hp, hc', -⟩ := removePlayerAtLeave_spec h hc hbg hi.here
              (found && (w.players guid).connected) (fun _ => hi.settled) true
            exact ⟨hp, hc'⟩
          · exact ⟨h, hc⟩
  | logout guid found => exact logoutPlayer_spec h hc found (of_decide_eq_true hok)
  | login guid onBattlegroundMap => exact loadFromDB_spec h hc onBattlegroundMap

theorem run_spec (ops : List Op) : ∀ w : World, Placed w noSlots → Counted w nothingOwed →
    okRun w ops = true → Placed (run w ops) noSlots ∧ Counted (run w ops) nothingOwed := by
  induction ops with
  | nil => exact fun w h hc _ => ⟨h, hc⟩
  | cons op ops ih =>
      intro w h hc hok
      unfold okRun at hok
      obtain ⟨hop, hrest⟩ := Bool.and_eq_true_iff.1 hok
      obtain ⟨h', hc'⟩ := step_spec h hc op hop
      exact ih (step w op) h' hc' hrest

end Step

end Sunstrider.Battlegrounds.Population
