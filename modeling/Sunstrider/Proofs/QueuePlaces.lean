import Sunstrider.Battlegrounds.Population

/-!
# Where an invited player is

Before anything is counted, this module says where a player can be: queued, travelling
or inside, and for one queue in no two of these at once. `Placed` is that statement,
together with what carries it, the slots. A queued player's slot holds the invitation
of his group, a travelling player's the one of his destination, and a handler that lets
nobody join without a free slot keeps a player who is still counted by a battleground
out of its queue.

The handlers clear a slot before they take the player off the queue, so `Placed` names
the slots that may be wrong meanwhile. The rest of the file is one lemma for each
operation of the queue.
-/

namespace Sunstrider.Battlegrounds.Population

open Lib

/-! ## Slots -/

namespace Player

variable {p : Player} {q t : BattlegroundQueueTypeId}

theorem find_addSlot_ne (hq : q ≠ t) (hnone : q ≠ .none) (l : List QueueSlot) :
    (addSlot t l).find? (fun slot => slot.bgQueueTypeId == q) =
      l.find? fun slot => slot.bgQueueTypeId == q := by
  induction l with
  | nil => rfl
  | cons slot rest ih =>
      unfold addSlot
      split <;> rename_i h
      · have hslot : slot.bgQueueTypeId ≠ q := by
          rintro rfl
          exact h.elim hnone hq
        rw [List.find?_cons_of_neg (by simpa using hq.symm),
          List.find?_cons_of_neg (by simpa using hslot)]
      · rw [List.find?_cons, List.find?_cons, ih]

theorem find_removeSlot_ne (hq : q ≠ t) (hnone : q ≠ .none) (l : List QueueSlot) :
    (removeSlot t l).find? (fun slot => slot.bgQueueTypeId == q) =
      l.find? fun slot => slot.bgQueueTypeId == q := by
  induction l with
  | nil => rfl
  | cons slot rest ih =>
      unfold removeSlot
      split <;> rename_i h
      · have hslot : slot.bgQueueTypeId ≠ q := by
          rintro rfl
          exact hq h
        rw [List.find?_cons_of_neg (by simpa [QueueSlot.free] using hnone.symm),
          List.find?_cons_of_neg (by simpa using hslot)]
      · rw [List.find?_cons, List.find?_cons, ih]

theorem find_addSlot_self (l : List QueueSlot)
    (hfree : (l.any fun slot => slot.bgQueueTypeId == .none) = true) :
    (addSlot t l).find? (fun slot => slot.bgQueueTypeId == t) = some ⟨t, 0⟩ := by
  induction l with
  | nil => simp at hfree
  | cons slot rest ih =>
      unfold addSlot
      split <;> rename_i h
      · rw [List.find?_cons_of_pos (by simp)]
      · rw [not_or] at h
        rw [List.find?_cons_of_neg (by simpa using h.2)]
        refine ih ?_
        simpa [h.1] using hfree

theorem invitation_add_ne (hq : q ≠ t) (hnone : q ≠ .none) :
    (p.addBattlegroundQueueId t).invitation q = p.invitation q := by
  unfold invitation addBattlegroundQueueId
  rw [find_addSlot_ne hq hnone]

theorem invitation_add_self (hfree : p.hasFreeBattlegroundQueueId = true) :
    (p.addBattlegroundQueueId t).invitation t = some 0 := by
  unfold invitation addBattlegroundQueueId
  rw [find_addSlot_self _ hfree]
  rfl

theorem invitation_remove_ne (hq : q ≠ t) (hnone : q ≠ .none) :
    (p.removeBattlegroundQueueId t).invitation q = p.invitation q := by
  unfold invitation removeBattlegroundQueueId
  rw [find_removeSlot_ne hq hnone]

theorem find_setInvite (id : Nat) (l : List QueueSlot) :
    (l.map fun slot =>
        if slot.bgQueueTypeId = t then { slot with invitedToInstance := id } else slot).find?
        (fun slot => slot.bgQueueTypeId == q) =
      (l.find? fun slot => slot.bgQueueTypeId == q).map fun slot =>
        if slot.bgQueueTypeId = t then { slot with invitedToInstance := id } else slot := by
  rw [List.find?_map]
  congr 2
  funext slot
  show ((if slot.bgQueueTypeId = t then { slot with invitedToInstance := id }
    else slot : QueueSlot).bgQueueTypeId == q) = _
  split <;> rfl

theorem invitation_setInvite_ne (hq : q ≠ t) (id : Nat) :
    (p.setInviteForBattlegroundQueueType t id).invitation q = p.invitation q := by
  unfold invitation setInviteForBattlegroundQueueType
  rw [find_setInvite, Option.map_map]
  cases hfind : p.queueSlots.find? fun slot => slot.bgQueueTypeId == q with
  | none => rfl
  | some slot =>
      have hslot : slot.bgQueueTypeId = q := by simpa using List.find?_some hfind
      show some (QueueSlot.invitedToInstance (if slot.bgQueueTypeId = t then _ else slot)) = _
      rw [if_neg (by rw [hslot]; exact hq)]
      rfl

theorem invitation_setInvite_self (id : Nat) (h : (p.invitation t).isSome = true) :
    (p.setInviteForBattlegroundQueueType t id).invitation t = some id := by
  unfold invitation setInviteForBattlegroundQueueType at *
  rw [find_setInvite, Option.map_map]
  cases hfind : p.queueSlots.find? fun slot => slot.bgQueueTypeId == t with
  | none => simp [hfind] at h
  | some slot =>
      have hslot : slot.bgQueueTypeId = t := by simpa using List.find?_some hfind
      show some (QueueSlot.invitedToInstance (if slot.bgQueueTypeId = t then _ else slot)) = _
      rw [if_pos hslot]

theorem invitation_isSome : (p.invitation t).isSome = p.inQueueForType t := by
  unfold invitation inQueueForType
  rw [Option.isSome_map, Bool.eq_iff_iff, List.find?_isSome, List.any_eq_true]

theorem isInvitedForInstance_of_invitation {id : Nat} (h : p.invitation q = some id) :
    p.isInvitedForBattlegroundInstance id = true := by
  unfold invitation at h
  obtain ⟨slot, hfind, rfl⟩ := Option.map_eq_some_iff.1 h
  exact List.any_eq_true.2 ⟨slot, List.mem_of_find?_eq_some hfind, by simp⟩

end Player

/-! ## Places -/

/-- The queue of the battleground with an instance id. -/
def World.queueOf (w : World) (id : Nat) : Option BattlegroundQueueTypeId :=
  (w.bgs id).map Battleground.queueType

/-- The player is in `m_Players` of the battleground. -/
def World.IsInside (w : World) (id : Nat) (guid : ObjectGuid) : Prop :=
  ∃ bg, w.bgs id = some bg ∧ guid ∈ bg.players

def World.IsQueued (w : World) (q : BattlegroundQueueTypeId) (guid : ObjectGuid) : Prop :=
  guid ∈ (w.queues q).queuedPlayers

/-- The type the player keeps for his battleground is no obstacle to finding it. -/
def Player.RefersTo (p : Player) (q : BattlegroundQueueTypeId) : Prop :=
  p.bgTypeID = .none ∨ p.bgTypeID = bgTemplateId q

/-- A set of slots, by player and queue. -/
abbrev Slots := ObjectGuid → BattlegroundQueueTypeId → Prop

structure GroupPlaced (w : World) (q : BattlegroundQueueTypeId) (g : GroupQueueInfo) : Prop where
  listed : g.isListed = true
  typeId : g.bgTypeId = bgTemplateId q
  queueType : g.queueType = q
  queue_ne : q ≠ .none
  invited : g.isInvitedToBGInstanceGUID ≠ 0 → w.queueOf g.isInvitedToBGInstanceGUID = some q

structure TravelPlaced (w : World) (opened : Slots) (guid : ObjectGuid) (id : Nat) : Prop where
  connected : (w.players guid).connected = true
  here : (w.players guid).bgInstanceID = id
  found : ∃ q, w.queueOf id = some q ∧ (w.players guid).RefersTo q ∧ ¬ w.IsQueued q guid ∧
    (¬ opened guid q → (w.players guid).invitation q = some id)

structure InsidePlaced (w : World) (opened : Slots) (guid : ObjectGuid) (id : Nat)
    (q : BattlegroundQueueTypeId) : Prop where
  here : (w.players guid).bgInstanceID = id
  settled : guid ∉ w.teleports
  notQueued : ¬ w.IsQueued q guid
  slot : (w.players guid).connected = true →
    (w.players guid).RefersTo q ∧
      (¬ opened guid q → ((w.players guid).invitation q).isSome = true)

/-- Where everybody is, the slots in `opened` apart. -/
structure Placed (w : World) (opened : Slots) : Prop where
  bg : ∀ id bg, w.bgs id = some bg →
    id ≠ 0 ∧ bg.queueType ≠ .none ∧ bg.typeID = bgTemplateId bg.queueType
  member : ∀ q guid gid, (w.queues q).queuedPlayers.lookup guid = some gid ↔
    ∃ g, (w.queues q).groups gid = some g ∧ guid ∈ g.players
  group : ∀ q gid g, (w.queues q).groups gid = some g → GroupPlaced w q g
  queued : ∀ q guid gid g, (w.queues q).groups gid = some g → guid ∈ g.players →
    (w.players guid).connected = true ∧
      (¬ opened guid q → (w.players guid).invitation q = some g.isInvitedToBGInstanceGUID)
  travel : ∀ guid id, w.teleports.lookup guid = some id → TravelPlaced w opened guid id
  inside : ∀ id guid q, w.queueOf id = some q → w.IsInside id guid →
    InsidePlaced w opened guid id q

def noSlots : Slots := fun _ _ => False

namespace World

variable {w w' : World} {q : BattlegroundQueueTypeId} {guid : ObjectGuid} {id : Nat}

variable {bg bg' : Battleground}

theorem isQueued_iff : w.IsQueued q guid ↔ ∃ gid, (w.queues q).queuedPlayers.lookup guid = some gid := by
  unfold IsQueued
  rw [← AList.lookup_isSome, Option.isSome_iff_exists]

theorem queueOf_eq (h : w.bgs id = some bg) : w.queueOf id = some bg.queueType := by
  unfold queueOf
  rw [h]
  rfl

theorem exists_of_queueOf (h : w.queueOf id = some q) :
    ∃ bg, w.bgs id = some bg ∧ bg.queueType = q :=
  Option.map_eq_some_iff.1 h

theorem isInside_iff (h : w.bgs id = some bg) : w.IsInside id guid ↔ guid ∈ bg.players := by
  unfold IsInside
  rw [h]
  simp

theorem setBg_cases {id' : Nat} (h : (w.setBg id bg).bgs id' = some bg') :
    (id' = id ∧ bg' = bg) ∨ (id' ≠ id ∧ w.bgs id' = some bg') := by
  change Function.update w.bgs id (some bg) id' = some bg' at h
  by_cases hid : id' = id
  · rw [hid, Function.update_self] at h
    exact .inl ⟨hid, (Option.some.inj h).symm⟩
  · rw [Function.update_of_ne hid] at h
    exact .inr ⟨hid, h⟩

/-- Everything `Placed` reads of the battlegrounds is unchanged. -/
def SameBgs (w w' : World) : Prop :=
  ∀ id, (w'.bgs id).map (fun bg => (bg.typeID, bg.arenaType, bg.players)) =
    (w.bgs id).map fun bg => (bg.typeID, bg.arenaType, bg.players)

theorem SameBgs.exists_of (h : SameBgs w w') (hbg : w'.bgs id = some bg') :
    ∃ bg, w.bgs id = some bg ∧ bg.typeID = bg'.typeID ∧ bg.arenaType = bg'.arenaType ∧
      bg.players = bg'.players := by
  have hid := h id
  rw [hbg] at hid
  obtain ⟨bg, hold, heq⟩ := Option.map_eq_some_iff.1 hid.symm
  exact ⟨bg, hold, by simpa using heq⟩

theorem SameBgs.queueOf (h : SameBgs w w') (id : Nat) : w'.queueOf id = w.queueOf id := by
  have hid := congrArg (Option.map fun x => bgQueueTypeId x.1 x.2.1) (h id)
  rw [Option.map_map, Option.map_map] at hid
  exact hid

theorem SameBgs.isInside (h : SameBgs w w') (id : Nat) (guid : ObjectGuid) :
    w'.IsInside id guid ↔ w.IsInside id guid := by
  have hid := h id
  unfold IsInside
  cases hold : w.bgs id with
  | none =>
      rw [hold, Option.map_none, Option.map_eq_none_iff] at hid
      simp [hid]
  | some bg =>
      rw [hold] at hid
      obtain ⟨bg', hnew, heq⟩ := Option.map_eq_some_iff.1 hid
      have hplayers : bg'.players = bg.players := by simpa using congrArg (fun x => x.2.2) heq
      simp [hnew, hplayers]

theorem SameBgs.refl (w : World) : SameBgs w w := fun _ => rfl

theorem SameBgs.trans {w'' : World} (h : SameBgs w w') (h' : SameBgs w' w'') : SameBgs w w'' :=
  fun id => (h' id).trans (h id)

/-- One battleground is replaced by one that differs in its counters only. -/
theorem sameBgs_setBg (h : w.bgs id = some bg) (htype : bg'.typeID = bg.typeID)
    (harena : bg'.arenaType = bg.arenaType) (hplayers : bg'.players = bg.players) :
    SameBgs w (w.setBg id bg') := by
  intro id'
  show (Function.update w.bgs id (some bg') id').map _ = _
  by_cases hid : id' = id
  · subst hid
    rw [Function.update_self, h, Option.map_some, Option.map_some, htype, harena, hplayers]
  · rw [Function.update_of_ne hid]

end World

/-! ## What the queue leaves alone

The queue's operations change slots, groups and counters. Where a player is said to be
and where he is going stays. -/

structure Kept (w w' : World) : Prop where
  bgs : World.SameBgs w w'
  teleports : w'.teleports = w.teleports
  player : ∀ guid, ∃ slots, w'.players guid = { w.players guid with queueSlots := slots }

namespace Kept

variable {w w' w'' : World} {guid : ObjectGuid} {q : BattlegroundQueueTypeId}

theorem refl (w : World) : Kept w w := ⟨World.SameBgs.refl w, rfl, fun _ => ⟨_, rfl⟩⟩

theorem trans (h : Kept w w') (h' : Kept w' w'') : Kept w w'' := by
  refine ⟨h.bgs.trans h'.bgs, h'.teleports.trans h.teleports, fun guid => ?_⟩
  obtain ⟨slots, hold⟩ := h.player guid
  obtain ⟨slots', hnew⟩ := h'.player guid
  exact ⟨slots', by rw [hnew, hold]⟩

theorem connected (h : Kept w w') (guid : ObjectGuid) :
    (w'.players guid).connected = (w.players guid).connected := by
  obtain ⟨slots, heq⟩ := h.player guid
  rw [heq]

theorem bgInstanceID (h : Kept w w') (guid : ObjectGuid) :
    (w'.players guid).bgInstanceID = (w.players guid).bgInstanceID := by
  obtain ⟨slots, heq⟩ := h.player guid
  rw [heq]

theorem bgTypeID (h : Kept w w') (guid : ObjectGuid) :
    (w'.players guid).bgTypeID = (w.players guid).bgTypeID := by
  obtain ⟨slots, heq⟩ := h.player guid
  rw [heq]

theorem getBGTeam (h : Kept w w') (guid : ObjectGuid) :
    (w'.players guid).getBGTeam = (w.players guid).getBGTeam := by
  obtain ⟨slots, heq⟩ := h.player guid
  rw [heq]
  rfl

theorem refersTo (h : Kept w w') (guid : ObjectGuid) (q : BattlegroundQueueTypeId) :
    (w'.players guid).RefersTo q ↔ (w.players guid).RefersTo q := by
  unfold Player.RefersTo
  rw [h.bgTypeID guid]

theorem of_players (hbgs : World.SameBgs w w') (hteleports : w'.teleports = w.teleports)
    (hplayers : w'.players = w.players) : Kept w w' :=
  ⟨hbgs, hteleports, fun guid => ⟨_, congrFun hplayers guid⟩⟩

theorem setPlayer (w : World) (guid : ObjectGuid) (slots : List QueueSlot) :
    Kept w (w.setPlayer guid { w.players guid with queueSlots := slots }) := by
  refine ⟨fun _ => rfl, rfl, fun guid' => ?_⟩
  show ∃ slots', Function.update w.players guid _ guid' = _
  by_cases heq : guid' = guid
  · subst heq
    exact ⟨slots, Function.update_self ..⟩
  · exact ⟨_, Function.update_of_ne heq ..⟩

end Kept

/-- The player travels to a battleground of the queue, or is inside one. -/
def World.IsEngaged (w : World) (q : BattlegroundQueueTypeId) (guid : ObjectGuid) : Prop :=
  ∃ id, w.queueOf id = some q ∧ (w.teleports.lookup guid = some id ∨ w.IsInside id guid)

theorem Kept.isEngaged {w w' : World} (k : Kept w w') (q : BattlegroundQueueTypeId)
    (guid : ObjectGuid) : w'.IsEngaged q guid ↔ w.IsEngaged q guid := by
  unfold World.IsEngaged
  rw [k.teleports]
  simp only [k.bgs.queueOf, k.bgs.isInside]

namespace Placed

variable {w w' : World} {opened opened' : Slots} {guid : ObjectGuid} {q : BattlegroundQueueTypeId}

theorem queueOf_ne (h : Placed w opened) {id : Nat} (hq : w.queueOf id = some q) :
    q ≠ .none ∧ id ≠ 0 := by
  obtain ⟨bg, hbg, rfl⟩ := World.exists_of_queueOf hq
  exact ⟨(h.bg id bg hbg).2.1, (h.bg id bg hbg).1⟩

/-- Nobody is queued for a battleground of the kind he travels to or is inside of. -/
theorem not_queued_of_engaged (h : Placed w opened) (he : w.IsEngaged q guid) :
    ¬ w.IsQueued q guid := by
  obtain ⟨id, hid, htravel | hinside⟩ := he
  · obtain ⟨q', hq', -, hnot, -⟩ := (h.travel guid id htravel).found
    rw [hid] at hq'
    exact Option.some.inj hq' ▸ hnot
  · exact (h.inside id guid q hid hinside).notQueued

theorem queued_connected (h : Placed w opened) (hq : w.IsQueued q guid) :
    (w.players guid).connected = true := by
  obtain ⟨gid, hgid⟩ := World.isQueued_iff.1 hq
  obtain ⟨g, hg, hmem⟩ := (h.member q guid gid).1 hgid
  exact (h.queued q guid gid g hg hmem).1

theorem groupOf_eq (h : Placed w opened) {gid : GroupId} {g : GroupQueueInfo} :
    w.groupOf q guid = some (gid, g) ↔ (w.queues q).groups gid = some g ∧ guid ∈ g.players := by
  unfold World.groupOf
  refine ⟨?_, ?_⟩
  · intro hg
    cases hlookup : (w.queues q).queuedPlayers.lookup guid with
    | none => simp [hlookup] at hg
    | some gid' =>
        obtain ⟨g', hg', hmem⟩ := (h.member q guid gid').1 hlookup
        simp only [hlookup, hg', Option.map_some, Option.some.injEq, Prod.mk.injEq] at hg
        obtain ⟨rfl, rfl⟩ := hg
        exact ⟨hg', hmem⟩
  · rintro ⟨hg, hmem⟩
    have hlookup := (h.member q guid gid).2 ⟨g, hg, hmem⟩
    simp [hlookup, hg]

theorem groupOf_eq_none (h : Placed w opened) :
    w.groupOf q guid = none ↔ ¬ w.IsQueued q guid := by
  rw [World.isQueued_iff]
  refine ⟨?_, ?_⟩
  · rintro hnone ⟨gid, hgid⟩
    obtain ⟨g, hg, hmem⟩ := (h.member q guid gid).1 hgid
    rw [h.groupOf_eq.2 ⟨hg, hmem⟩] at hnone
    cases hnone
  · intro hnot
    cases hg : w.groupOf q guid with
    | none => rfl
    | some x =>
        obtain ⟨gid, g⟩ := x
        obtain ⟨hgroup, hmem⟩ := h.groupOf_eq.1 hg
        exact absurd ⟨gid, (h.member q guid gid).2 ⟨g, hgroup, hmem⟩⟩ hnot

/-- An operation of the queue keeps `Placed` if it keeps what it says about groups, and
does not touch those who are engaged. -/
theorem keep (h : Placed w opened) (k : Kept w w')
    (member : ∀ q guid gid, (w'.queues q).queuedPlayers.lookup guid = some gid ↔
      ∃ g, (w'.queues q).groups gid = some g ∧ guid ∈ g.players)
    (group : ∀ q gid g, (w'.queues q).groups gid = some g → GroupPlaced w' q g)
    (queued : ∀ q guid gid g, (w'.queues q).groups gid = some g → guid ∈ g.players →
      (w'.players guid).connected = true ∧
        (¬ opened' guid q → (w'.players guid).invitation q = some g.isInvitedToBGInstanceGUID))
    (engaged : ∀ guid q, q ≠ .none → w.IsEngaged q guid →
      (w.players guid).connected = true →
        ¬ w'.IsQueued q guid ∧ (¬ opened' guid q → ¬ opened guid q ∧
          (w'.players guid).invitation q = (w.players guid).invitation q))
    (offline : ∀ q guid, w'.IsQueued q guid → (w.players guid).connected = true) :
    Placed w' opened' where
  bg := by
    intro id bg' hbg'
    obtain ⟨bg, hbg, htype, harena, -⟩ := k.bgs.exists_of hbg'
    have hq : bg'.queueType = bg.queueType := by
      unfold Battleground.queueType
      rw [htype, harena]
    rw [hq, ← htype]
    exact h.bg id bg hbg
  member := member
  group := group
  queued := queued
  travel := by
    intro guid id hid
    rw [k.teleports] at hid
    have ht := h.travel guid id hid
    obtain ⟨q, hq, hrefers, -, hslot⟩ := ht.found
    have he := engaged guid q (h.queueOf_ne hq).1 ⟨id, hq, .inl hid⟩ ht.connected
    refine ⟨(k.connected guid).trans ht.connected, (k.bgInstanceID guid).trans ht.here, q,
      (k.bgs.queueOf id).trans hq, (k.refersTo guid q).2 hrefers, he.1, fun hopen => ?_⟩
    obtain ⟨hopen', heq⟩ := he.2 hopen
    rw [heq]
    exact hslot hopen'
  inside := by
    intro id guid q hq hinside
    rw [k.bgs.queueOf] at hq
    have hinside' := (k.bgs.isInside id guid).1 hinside
    have hi := h.inside id guid q hq hinside'
    have he := engaged guid q (h.queueOf_ne hq).1 ⟨id, hq, .inr hinside'⟩
    refine ⟨(k.bgInstanceID guid).trans hi.here, by rw [k.teleports]; exact hi.settled, ?_, ?_⟩
    · intro hqueued
      exact (he (offline q guid hqueued)).1 hqueued
    · intro hconn
      rw [k.connected] at hconn
      obtain ⟨hrefers, hslot⟩ := hi.slot hconn
      refine ⟨(k.refersTo guid q).2 hrefers, fun hopen => ?_⟩
      obtain ⟨hopen', heq⟩ := (he hconn).2 hopen
      rw [heq]
      exact hslot hopen'

theorem mono (h : Placed w opened) (hmono : ∀ guid q, opened guid q → opened' guid q) :
    Placed w opened' := by
  refine h.keep (Kept.refl w) h.member h.group ?_ ?_ fun q guid => h.queued_connected
  · intro q guid gid g hg hmem
    obtain ⟨hconn, hslot⟩ := h.queued q guid gid g hg hmem
    exact ⟨hconn, fun hopen => hslot fun ho => hopen (hmono guid q ho)⟩
  · intro guid q _ he _
    exact ⟨h.not_queued_of_engaged he, fun hopen => ⟨fun ho => hopen (hmono guid q ho), rfl⟩⟩

/-- A player's slots change where they may. -/
theorem setSlots (h : Placed w opened) (guid : ObjectGuid) (slots : List QueueSlot)
    (hmono : ∀ guid q, opened guid q → opened' guid q)
    (hslots : ∀ q, q ≠ .none → ¬ opened' guid q →
      Player.invitation { w.players guid with queueSlots := slots } q =
        (w.players guid).invitation q) :
    Placed (w.setPlayer guid { w.players guid with queueSlots := slots }) opened' := by
  have k := Kept.setPlayer w guid slots
  have hinv : ∀ guid' q, q ≠ .none → ¬ opened' guid' q →
      ((w.setPlayer guid { w.players guid with queueSlots := slots }).players guid').invitation q =
        (w.players guid').invitation q := by
    intro guid' q hq hopen
    show (Function.update w.players guid _ guid').invitation q = _
    by_cases heq : guid' = guid
    · subst heq
      rw [Function.update_self]
      exact hslots q hq hopen
    · rw [Function.update_of_ne heq]
  refine h.keep k h.member ?_ ?_ ?_ fun q guid => h.queued_connected
  · intro q gid g hg
    have hgroup := h.group q gid g hg
    exact ⟨hgroup.listed, hgroup.typeId, hgroup.queueType, hgroup.queue_ne, hgroup.invited⟩
  · intro q guid' gid g hg hmem
    obtain ⟨hconn, hslot⟩ := h.queued q guid' gid g hg hmem
    refine ⟨(k.connected guid').trans hconn, fun hopen => ?_⟩
    rw [hinv guid' q (h.group q gid g hg).queue_ne hopen]
    exact hslot fun ho => hopen (hmono guid' q ho)
  · intro guid' q hq he _
    exact ⟨h.not_queued_of_engaged he,
      fun hopen => ⟨fun ho => hopen (hmono guid' q ho), hinv guid' q hq hopen⟩⟩

/-- A slot of a player who is neither queued nor engaged need not be watched. -/
theorem close (h : Placed w opened)
    (hfree : ∀ guid q, opened guid q → ¬ opened' guid q →
      ¬ w.IsQueued q guid ∧ ¬ w.IsEngaged q guid) :
    Placed w opened' := by
  refine h.keep (Kept.refl w) h.member h.group ?_ ?_ fun q guid => h.queued_connected
  · intro q guid gid g hg hmem
    obtain ⟨hconn, hslot⟩ := h.queued q guid gid g hg hmem
    refine ⟨hconn, fun hopen => hslot fun ho => ?_⟩
    exact (hfree guid q ho hopen).1
      (World.isQueued_iff.2 ⟨gid, (h.member q guid gid).2 ⟨g, hg, hmem⟩⟩)
  · intro guid q _ he _
    exact ⟨h.not_queued_of_engaged he,
      fun hopen => ⟨fun ho => (hfree guid q ho hopen).2 he, rfl⟩⟩

end Placed

/-! ## Leaving the queue -/

namespace Battleground

variable (bg : Battleground) (team : Team)

@[simp] theorem decreaseInvitedCount_typeID : (bg.decreaseInvitedCount team).typeID = bg.typeID := by
  cases team <;> rfl

@[simp] theorem decreaseInvitedCount_arenaType :
    (bg.decreaseInvitedCount team).arenaType = bg.arenaType := by
  cases team <;> rfl

@[simp] theorem decreaseInvitedCount_players :
    (bg.decreaseInvitedCount team).players = bg.players := by
  cases team <;> rfl

@[simp] theorem decreaseInvitedCount_playersCount :
    (bg.decreaseInvitedCount team).playersCount = bg.playersCount := by
  cases team <;> rfl

@[simp] theorem increaseInvitedCount_typeID : (bg.increaseInvitedCount team).typeID = bg.typeID := by
  cases team <;> rfl

@[simp] theorem increaseInvitedCount_arenaType :
    (bg.increaseInvitedCount team).arenaType = bg.arenaType := by
  cases team <;> rfl

@[simp] theorem increaseInvitedCount_players :
    (bg.increaseInvitedCount team).players = bg.players := by
  cases team <;> rfl

@[simp] theorem increaseInvitedCount_playersCount :
    (bg.increaseInvitedCount team).playersCount = bg.playersCount := by
  cases team <;> rfl

@[simp] theorem increaseInvitedCount_wrapped :
    (bg.increaseInvitedCount team).wrapped = bg.wrapped := by
  cases team <;> rfl

theorem getInvitedCount_increase (t : Team) :
    (bg.increaseInvitedCount team).getInvitedCount t =
      bg.getInvitedCount t + if t = team then 1 else 0 := by
  cases team <;> cases t <;> rfl

theorem decrement_add_one {n : Nat} (hpos : 0 < n) : decrement n + 1 = n := by
  unfold decrement
  rw [if_neg (by omega)]
  omega

/-- A decrement that does not wrap. -/
theorem getInvitedCount_decrease (hpos : 0 < bg.getInvitedCount team) (t : Team) :
    (bg.decreaseInvitedCount team).getInvitedCount t + (if t = team then 1 else 0) =
      bg.getInvitedCount t := by
  cases team <;> cases t
  · exact decrement_add_one hpos
  · rfl
  · rfl
  · exact decrement_add_one hpos

theorem decreaseInvitedCount_wrapped (hpos : 0 < bg.getInvitedCount team) :
    (bg.decreaseInvitedCount team).wrapped = bg.wrapped := by
  have hne : (bg.getInvitedCount team == 0) = false := by
    rw [beq_eq_false_iff_ne]
    omega
  cases team
  · show (bg.wrapped || bg.getInvitedCount .alliance == 0) = _
    rw [hne, Bool.or_false]
  · show (bg.wrapped || bg.getInvitedCount .horde == 0) = _
    rw [hne, Bool.or_false]

end Battleground

namespace World

variable {w : World} {q : BattlegroundQueueTypeId} {guid : ObjectGuid} {gid : GroupId}
  {group : GroupQueueInfo} {dec : Bool}

theorem bgs_of_getBattleground {id : Nat} {type : BattlegroundTypeId} {bg : Battleground}
    (h : w.getBattleground id type = some bg) :
    id ≠ 0 ∧ w.bgs id = some bg ∧ (type = .none ∨ bg.typeID = type) := by
  unfold getBattleground at h
  split at h <;> rename_i hid
  · cases h
  · obtain ⟨hbg, htype⟩ := Option.filter_eq_some_iff.1 h
    exact ⟨hid, hbg, by simpa using htype⟩

theorem getBattleground_eq {id : Nat} {type : BattlegroundTypeId} {bg : Battleground}
    (hid : id ≠ 0) (hbg : w.bgs id = some bg) (htype : type = .none ∨ bg.typeID = type) :
    w.getBattleground id type = some bg := by
  unfold getBattleground
  rw [if_neg hid]
  exact Option.filter_eq_some_iff.2 ⟨hbg, by simpa using htype⟩

/-- The battlegrounds after `unqueue`. -/
def unqueueBgs (w : World) (group : GroupQueueInfo) (dec : Bool) : World :=
  match w.getBattleground group.isInvitedToBGInstanceGUID group.bgTypeId with
  | none => w
  | some bg =>
      if dec && group.isInvitedToBGInstanceGUID != 0 then
        w.setBg group.isInvitedToBGInstanceGUID (bg.decreaseInvitedCount group.team)
      else w

theorem unqueue_eq : w.unqueue q guid gid group dec =
    (w.unqueueBgs group dec).setQueue q
      { queuedPlayers := ((w.unqueueBgs group dec).queues q).queuedPlayers.erase guid
        groups :=
          Function.update ((w.unqueueBgs group dec).queues q).groups gid
            (if (group.erasePlayer guid).players = [] then none
              else some (group.erasePlayer guid)) } := rfl

theorem unqueueBgs_same : SameBgs w (w.unqueueBgs group dec) ∧
    (w.unqueueBgs group dec).queues = w.queues ∧
    (w.unqueueBgs group dec).players = w.players ∧
    (w.unqueueBgs group dec).teleports = w.teleports := by
  unfold unqueueBgs
  split
  · exact ⟨SameBgs.refl w, rfl, rfl, rfl⟩
  · rename_i bg hbg
    split
    · refine ⟨sameBgs_setBg (bgs_of_getBattleground hbg).2.1 ?_ ?_ ?_, rfl, rfl, rfl⟩ <;> simp
    · exact ⟨SameBgs.refl w, rfl, rfl, rfl⟩

theorem unqueue_kept : Kept w (w.unqueue q guid gid group dec) := by
  obtain ⟨hbgs, -, hplayers, hteleports⟩ := unqueueBgs_same (w := w)
  exact Kept.of_players hbgs hteleports hplayers

theorem unqueue_players : (w.unqueue q guid gid group dec).players = w.players := by
  obtain ⟨-, -, hplayers, -⟩ := unqueueBgs_same (w := w)
  exact hplayers

theorem unqueue_queuedPlayers : ((w.unqueue q guid gid group dec).queues q).queuedPlayers =
    (w.queues q).queuedPlayers.erase guid := by
  obtain ⟨-, hqueues, -, -⟩ := unqueueBgs_same (w := w)
  rw [unqueue_eq, hqueues]
  show (Function.update (w.unqueueBgs group dec).queues q _ q).queuedPlayers = _
  rw [Function.update_self]

theorem unqueue_groups_self : ((w.unqueue q guid gid group dec).queues q).groups gid =
    if (group.erasePlayer guid).players = [] then none else some (group.erasePlayer guid) := by
  rw [unqueue_eq]
  show (Function.update (w.unqueueBgs group dec).queues q _ q).groups gid = _
  rw [Function.update_self]
  exact Function.update_self ..

theorem unqueue_groups_ne {gid' : GroupId} (hne : gid' ≠ gid) :
    ((w.unqueue q guid gid group dec).queues q).groups gid' = (w.queues q).groups gid' := by
  obtain ⟨-, hqueues, -, -⟩ := unqueueBgs_same (w := w)
  rw [unqueue_eq, hqueues]
  show (Function.update (w.unqueueBgs group dec).queues q _ q).groups gid' = _
  rw [Function.update_self]
  exact Function.update_of_ne hne ..

theorem unqueue_queues_ne {q' : BattlegroundQueueTypeId} (hne : q' ≠ q) :
    (w.unqueue q guid gid group dec).queues q' = w.queues q' := by
  obtain ⟨-, hqueues, -, -⟩ := unqueueBgs_same (w := w)
  rw [unqueue_eq]
  show Function.update (w.unqueueBgs group dec).queues q _ q' = _
  rw [Function.update_of_ne hne, hqueues]

end World

theorem GroupPlaced.of_kept {w w' : World} {q : BattlegroundQueueTypeId} {g : GroupQueueInfo}
    (h : GroupPlaced w q g) (k : Kept w w') : GroupPlaced w' q g :=
  ⟨h.listed, h.typeId, h.queueType, h.queue_ne, fun hi => (k.bgs.queueOf _).trans (h.invited hi)⟩

section Unqueue

variable {w : World} {opened : Slots} {q : BattlegroundQueueTypeId} {guid : ObjectGuid}
  {gid : GroupId} {group : GroupQueueInfo} {dec : Bool}

/-- The groups after a player left his: none is new, and only he is missing. -/
theorem unqueue_groups (h : Placed w opened) (hg : (w.queues q).groups gid = some group)
    (hmem : guid ∈ group.players) {q' : BattlegroundQueueTypeId} {gid' : GroupId}
    {guid' : ObjectGuid} {P : GroupQueueInfo → Prop}
    (hP : P (group.erasePlayer guid) ↔ P group) :
    (∃ g, ((w.unqueue q guid gid group dec).queues q').groups gid' = some g ∧
        guid' ∈ g.players ∧ P g) ↔
      (∃ g, (w.queues q').groups gid' = some g ∧ guid' ∈ g.players ∧ P g) ∧
        ¬ (q' = q ∧ guid' = guid) := by
  by_cases hq : q' = q
  · subst hq
    by_cases hgid : gid' = gid
    · subst hgid
      rw [World.unqueue_groups_self, hg]
      have herase : guid' ∈ (group.erasePlayer guid).players ↔ guid' ≠ guid ∧ guid' ∈ group.players :=
        group.nodup.mem_erase_iff
      refine ⟨?_, ?_⟩
      · rintro ⟨g, hsome, hin, hPg⟩
        split at hsome <;> rename_i hempty
        · cases hsome
        · obtain rfl := Option.some.inj hsome
          exact ⟨⟨group, rfl, (herase.1 hin).2, hP.1 hPg⟩, fun hboth => (herase.1 hin).1 hboth.2⟩
      · rintro ⟨⟨g, hsome, hin, hPg⟩, hne⟩
        obtain rfl := Option.some.inj hsome
        have hin' := herase.2 ⟨fun heq => hne ⟨rfl, heq⟩, hin⟩
        refine ⟨_, if_neg ?_, hin', hP.2 hPg⟩
        exact List.ne_nil_of_mem hin'
    · rw [World.unqueue_groups_ne hgid]
      refine ⟨?_, fun hboth => hboth.1⟩
      rintro ⟨g, hsome, hin, hPg⟩
      refine ⟨⟨g, hsome, hin, hPg⟩, ?_⟩
      rintro ⟨-, rfl⟩
      have h1 := (h.member q' guid' gid').2 ⟨g, hsome, hin⟩
      have h2 := (h.member q' guid' gid).2 ⟨group, hg, hmem⟩
      exact hgid (Option.some.inj (h1.symm.trans h2))
  · rw [World.unqueue_queues_ne hq]
    exact ⟨fun hex => ⟨hex, fun hboth => hq hboth.1⟩, And.left⟩

/-- The same with nothing asked of the group. -/
theorem unqueue_inGroup (h : Placed w opened) (hg : (w.queues q).groups gid = some group)
    (hmem : guid ∈ group.players) (q' : BattlegroundQueueTypeId) (gid' : GroupId)
    (guid' : ObjectGuid) :
    (∃ g, ((w.unqueue q guid gid group dec).queues q').groups gid' = some g ∧
        guid' ∈ g.players) ↔
      (∃ g, (w.queues q').groups gid' = some g ∧ guid' ∈ g.players) ∧
        ¬ (q' = q ∧ guid' = guid) := by
  have hany : (fun _ : GroupQueueInfo => True) (group.erasePlayer guid) ↔ True := Iff.rfl
  have hgroups : (∃ g, ((w.unqueue q guid gid group dec).queues q').groups gid' = some g ∧
      guid' ∈ g.players ∧ True) ↔ _ := unqueue_groups h hg hmem hany
  simpa only [and_true] using hgroups

theorem unqueue_member (h : Placed w opened) (hg : (w.queues q).groups gid = some group)
    (hmem : guid ∈ group.players) (q' : BattlegroundQueueTypeId) (guid' : ObjectGuid)
    (gid' : GroupId) :
    ((w.unqueue q guid gid group dec).queues q').queuedPlayers.lookup guid' = some gid' ↔
      ∃ g, ((w.unqueue q guid gid group dec).queues q').groups gid' = some g ∧
        guid' ∈ g.players := by
  rw [unqueue_inGroup h hg hmem, ← h.member q' guid' gid']
  by_cases hq : q' = q
  · subst hq
    rw [World.unqueue_queuedPlayers]
    by_cases hguid : guid' = guid
    · subst hguid
      simp
    · rw [AList.lookup_erase_ne hguid]
      simp [hguid]
  · rw [World.unqueue_queues_ne hq]
    simp [hq]

theorem unqueue_isQueued (h : Placed w opened) (hg : (w.queues q).groups gid = some group)
    (hmem : guid ∈ group.players) (q' : BattlegroundQueueTypeId) (guid' : ObjectGuid) :
    (w.unqueue q guid gid group dec).IsQueued q' guid' ↔
      w.IsQueued q' guid' ∧ ¬ (q' = q ∧ guid' = guid) := by
  rw [World.isQueued_iff, World.isQueued_iff]
  simp only [unqueue_member h hg hmem, h.member]
  simp only [unqueue_inGroup h hg hmem, exists_and_right]

theorem Placed.unqueue (h : Placed w opened) (hg : (w.queues q).groups gid = some group)
    (hmem : guid ∈ group.players) : Placed (w.unqueue q guid gid group dec) opened := by
  have k : Kept w (w.unqueue q guid gid group dec) := World.unqueue_kept
  refine h.keep k (unqueue_member h hg hmem) ?_ ?_ ?_ ?_
  · intro q' gid' g' hg'
    by_cases hq : q' = q
    · subst hq
      by_cases hgid : gid' = gid
      · subst hgid
        rw [World.unqueue_groups_self] at hg'
        split at hg'
        · cases hg'
        · obtain rfl := Option.some.inj hg'
          have hplaced := (h.group q' gid' group hg).of_kept k
          exact ⟨hplaced.listed, hplaced.typeId, hplaced.queueType, hplaced.queue_ne,
            hplaced.invited⟩
      · rw [World.unqueue_groups_ne hgid] at hg'
        exact (h.group q' gid' g' hg').of_kept k
    · rw [World.unqueue_queues_ne hq] at hg'
      exact (h.group q' gid' g' hg').of_kept k
  · intro q' guid' gid' g' hg' hmem'
    obtain ⟨⟨g, hgold, hmemold, hsame⟩, -⟩ := (unqueue_groups h hg hmem
      (P := fun g => g.isInvitedToBGInstanceGUID = g'.isInvitedToBGInstanceGUID) Iff.rfl).1
      ⟨g', hg', hmem', rfl⟩
    rw [World.unqueue_players, ← hsame]
    exact h.queued q' guid' gid' g hgold hmemold
  · intro guid' q' _ he _
    rw [unqueue_isQueued h hg hmem, World.unqueue_players]
    exact ⟨fun hboth => h.not_queued_of_engaged he hboth.1, fun hopen => ⟨hopen, rfl⟩⟩
  · intro q' guid' hqueued
    exact h.queued_connected ((unqueue_isQueued h hg hmem q' guid').1 hqueued).1

end Unqueue

end Sunstrider.Battlegrounds.Population
