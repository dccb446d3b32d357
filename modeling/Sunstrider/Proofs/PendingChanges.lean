import Sunstrider.Proofs.ActiveMover

/-!
# Every movement change is resolved once

What a session has pushed is, at every moment, what it has resolved followed by what is
pending, unless a check of an ack threw a change away; so changes are resolved in the
order they were pushed and none is resolved twice. That much holds whatever the order of
events. The other half is about the two channels: what is pending has its ack still to
come, in the same order, somewhere on the way to the client and back.

It is here that permission comes in. An ack for a unit that the client may not move is
dropped, and its change stays at the front of the queue, where every later ack fails the
check. A queue that was resolved early leaves acks on the way that no change waits for.
`AckMatches` says of an ack that arrives that neither has happened to it. The run at the
end drops the ack of a player who has not yet activated his own character.
-/

set_option linter.unusedSectionVars false

namespace Sunstrider.Movement

open Lib

variable {S U G F : Type} [DecidableEq S] [DecidableEq U] [LinearOrder G] [MoveFloat F]

/-- The entry of the queue that an ack is about. -/
def Ack.acknowledged (a : Ack G F) : Nat × PendingChange G F :=
  (a.counter,
    { guid := a.guid, movementChangeType := changeTypeOfOpcode a.opcode, newValue := a.speed,
      apply := a.apply, knockbackInfo := a.jump })

/-- The entry of the queue that an order was pushed with. -/
def Order.entry (o : Order G F) : Nat × PendingChange G F := (o.counter, o.pendingChange)

theorem Order.acknowledged_ack (o : Order G F) : o.ack.acknowledged = o.entry := by
  obtain ⟨guid, counter, kind⟩ := o
  cases kind with
  | speed mtype newSpeedFlat => cases mtype <;> rfl
  | flag mFlag apply => cases mFlag <;> cases apply <;> rfl
  | knockBack info => rfl
  | teleport => rfl

namespace World

variable {C : Actors S U G} {w w' : World S U G F}

variable {s : S}

variable {u : U} {a : Ack G F} {apply : Bool} {find : Accessor C} {g : G} {t : S}
  {kind : OrderKind F} {op : Op F C}

/-- What is on the way to the client of a session and back. -/
def inFlight (w : World S U G F) (s : S) : List (Nat × PendingChange G F) :=
  (w.acks s).map Ack.acknowledged ++ (w.orders s).map Order.entry

/-- The client has not been kicked, its changes are resolved in the order they were
pushed, and those that are pending have their acks still to come. -/
structure Settled (w : World S U G F) (s : S) : Prop where
  kicked : (w.sessions s).kicked = false
  history : (w.sessions s).pushed =
    (w.sessions s).resolved ++ (w.sessions s).pendingMovementChanges
  awaited : (w.sessions s).pendingMovementChanges.Sublist (w.inFlight s)
  honest : ∀ a ∈ w.acks s, ∃ o : Order G F, a = o.ack

/-- With nothing on the way, everything that was pushed has been resolved. -/
theorem Settled.all_resolved (h : Settled w s) (horders : w.orders s = []) (hacks : w.acks s = []) :
    (w.sessions s).resolved = (w.sessions s).pushed := by
  have hnil : w.inFlight s = [] := by
    rw [inFlight, horders, hacks]
    rfl
  have hpending := h.awaited
  rw [hnil, List.sublist_nil] at hpending
  rw [h.history, hpending, List.append_nil]

/-! ## Queues that advance -/

/-- Queues are resolved from the front, and nothing else about them changes. -/
structure Advances (w w' : World S U G F) : Prop where
  queue : ∀ s, ∃ done,
    (w.sessions s).pendingMovementChanges =
        done ++ (w'.sessions s).pendingMovementChanges ∧
      (w'.sessions s).resolved = (w.sessions s).resolved ++ done
  pushed : ∀ s, (w'.sessions s).pushed = (w.sessions s).pushed
  kicked : ∀ s, (w'.sessions s).kicked = (w.sessions s).kicked
  orders : w'.orders = w.orders
  acks : w'.acks = w.acks

namespace Advances

theorem refl (w : World S U G F) : Advances w w where
  queue _ := ⟨[], rfl, (List.append_nil _).symm⟩
  pushed _ := rfl
  kicked _ := rfl
  orders := rfl
  acks := rfl

theorem trans {w'' : World S U G F} (h : Advances w w') (h' : Advances w' w'') :
    Advances w w'' where
  queue s := by
    obtain ⟨done, hp, hr⟩ := h.queue s
    obtain ⟨done', hp', hr'⟩ := h'.queue s
    refine ⟨done ++ done', ?_, ?_⟩
    · rw [hp, hp', List.append_assoc]
    · rw [hr', hr, List.append_assoc]
  pushed s := (h'.pushed s).trans (h.pushed s)
  kicked s := (h'.kicked s).trans (h.kicked s)
  orders := h'.orders.trans h.orders
  acks := h'.acks.trans h.acks

/-- A session is written, but not its queue. -/
theorem setSession (s : S) {f : ClientControl U G F → ClientControl U G F}
    (hf : ∀ x, (f x).pendingMovementChanges = x.pendingMovementChanges ∧
      (f x).resolved = x.resolved ∧ (f x).pushed = x.pushed ∧ (f x).kicked = x.kicked)
    (w : World S U G F) : Advances w (w.setSession s f) := by
  have hsame : ∀ t, ((w.setSession s f).sessions t).pendingMovementChanges =
        (w.sessions t).pendingMovementChanges ∧
      ((w.setSession s f).sessions t).resolved = (w.sessions t).resolved ∧
      ((w.setSession s f).sessions t).pushed = (w.sessions t).pushed ∧
      ((w.setSession s f).sessions t).kicked = (w.sessions t).kicked := by
    intro t
    rw [sessions_setSession]
    split
    · rename_i h
      rw [h]
      exact hf _
    · exact ⟨rfl, rfl, rfl, rfl⟩
  refine ⟨fun t => ⟨[], (hsame t).1.symm, ?_⟩, fun t => (hsame t).2.2.1,
    fun t => (hsame t).2.2.2, rfl, rfl⟩
  rw [(hsame t).2.1, List.append_nil]

theorem setUnit (u : U) (f : MovedUnit S → MovedUnit S) (w : World S U G F) :
    Advances w (w.setUnit u f) := ⟨(refl w).queue, fun _ => rfl, fun _ => rfl, rfl, rfl⟩

theorem settled (h : Advances w w') {s : S} (hw : Settled w s) : Settled w' s := by
  obtain ⟨done, hp, hr⟩ := h.queue s
  refine ⟨(h.kicked s).trans hw.kicked, ?_, ?_, ?_⟩
  · rw [h.pushed, hw.history, hp, hr, List.append_assoc]
  · have hfl : w'.inFlight s = w.inFlight s := by
      rw [inFlight, inFlight, h.orders, h.acks]
    rw [hfl]
    refine List.Sublist.trans ?_ hw.awaited
    rw [hp]
    exact List.sublist_append_right done _
  · rw [h.acks]
    exact hw.honest

end Advances

/-- The front of the queue of `s` is resolved. -/
theorem advances_resolveFront {change : Nat × PendingChange G F}
    (hfront : (w.sessions s).pendingMovementChanges.head? = some change) :
    Advances w ((w.popPendingMovementChange s).resolve s change) := by
  obtain ⟨rest, hrest⟩ := List.head?_eq_some_iff.1 hfront
  refine ⟨fun t => ?_, fun t => ?_, fun t => ?_, rfl, rfl⟩
  · by_cases ht : t = s
    · subst ht
      refine ⟨[change], ?_, ?_⟩
      · rw [resolve, sessions_setSession_self, popPendingMovementChange, sessions_setSession_self,
          hrest]
        rfl
      · rw [resolve, sessions_setSession_self, popPendingMovementChange, sessions_setSession_self]
    · rw [resolve, sessions_setSession, if_neg ht, popPendingMovementChange, sessions_setSession,
        if_neg ht]
      exact ⟨[], rfl, (List.append_nil _).symm⟩
  all_goals
    rw [resolve, sessions_setSession]
    split
    · rename_i ht
      rw [ht, popPendingMovementChange, sessions_setSession_self]
    · rename_i ht
      rw [popPendingMovementChange, sessions_setSession, if_neg ht]

theorem advances_resolveEach (s : S) (l : List (Nat × PendingChange G F)) :
    ∀ w : World S U G F, (w.sessions s).pendingMovementChanges = l →
      Advances w (w.resolveEach s l) := by
  induction l with
  | nil => exact fun w _ => .refl w
  | cons change l ih =>
      intro w hw
      have hfront : (w.sessions s).pendingMovementChanges.head? = some change := by
        rw [hw]
        rfl
      have hone := advances_resolveFront hfront
      refine hone.trans (ih _ ?_)
      rw [resolve, sessions_setSession_self, popPendingMovementChange, sessions_setSession_self, hw]
      rfl

theorem advances_resolveAllPendingChanges (s : S) (w : World S U G F) :
    Advances w (w.resolveAllPendingChanges s) := by
  unfold resolveAllPendingChanges
  split
  · exact .refl w
  · exact advances_resolveEach s _ w rfl

/-! ## Control and movers -/

theorem advances_setClientControl (s : S) (u : U) (b : Bool) (w : World S U G F) :
    Advances w (w.setClientControl C s u b) := by
  unfold setClientControl
  exact .setSession s (by intro x; exact ⟨rfl, rfl, rfl, rfl⟩) w

theorem advances_setViewpoint (s : S) (g : G) (b : Bool) (w : World S U G F) :
    Advances w (w.setViewpoint s g b) := by
  unfold setViewpoint
  exact .setSession s (by intro x; exact ⟨rfl, rfl, rfl, rfl⟩) w

theorem advances_updateTakeControl (s : S) (u : U) (b : Bool) (w : World S U G F) :
    Advances w (w.updateTakeControl C s u b) := by
  have hwrite : ∀ (act : Option U) (suppressed : Bool) (f : MovedUnit S → MovedUnit S),
      Advances w ((w.setSession s fun x =>
        { x with serverActiveMover := act, suppressed := suppressed }).setUnit u f) :=
    fun act suppressed f =>
      (Advances.setSession s (by intro x; exact ⟨rfl, rfl, rfl, rfl⟩) w).trans (.setUnit u f _)
  unfold updateTakeControl
  dsimp only
  split
  · split
    · exact .refl w
    · split
      · exact hwrite _ _ _
      · exact (hwrite _ _ _).trans (advances_setClientControl s u b _)
  · split
    · exact (hwrite _ _ _).trans (advances_setClientControl s u b _)
    · exact advances_setClientControl s u b w

theorem advances_initActiveMover (s : S) (u : U) (w : World S U G F) :
    Advances w (w.initActiveMover C s u) :=
  Advances.trans (.setSession s (by intro x; exact ⟨rfl, rfl, rfl, rfl⟩) w) (.setUnit u _ _)

theorem advances_allowTakeControl (s : S) (u : U) (charm : Bool) (w : World S U G F) :
    Advances w (w.allowTakeControl C s u charm) := by
  have hallow : Advances w (w.setSession s fun x =>
      { x with allowedClientControl := insert (C.guid u) x.allowedClientControl }) :=
    .setSession s (by intro x; exact ⟨rfl, rfl, rfl, rfl⟩) w
  unfold allowTakeControl
  dsimp only
  split
  · split
    · exact (hallow.trans (.setSession s (by intro x; exact ⟨rfl, rfl, rfl, rfl⟩) _)).trans
        (advances_updateTakeControl s u true _)
    · exact (hallow.trans (advances_setViewpoint s _ true _)).trans
        (advances_updateTakeControl s u true _)
  · exact hallow

theorem advances_restoreControl (s : S) (target : U) (find : Accessor C)
    (w : World S U G F) : Advances w (w.restoreControl C s target find) := by
  unfold restoreControl
  dsimp only
  split
  · exact advances_updateTakeControl s target false w
  · exact (advances_updateTakeControl s target false w).trans
      (advances_updateTakeControl s _ true _)

theorem advances_disallowTakeControl (s : S) (target : U) (find : Accessor C)
    (w : World S U G F) : Advances w (w.disallowTakeControl C s target find) := by
  have hview : ∀ w₁ : World S U G F,
      Advances w₁ (if (w₁.sessions s).farsight = some (C.guid target) then
        w₁.setViewpoint s (C.guid target) false else w₁) := by
    intro w₁
    split
    · exact advances_setViewpoint s _ false w₁
    · exact .refl w₁
  have herase : Advances w (w.setSession s fun x =>
      { x with allowedClientControl := x.allowedClientControl.erase (C.guid target) }) :=
    .setSession s (by intro x; exact ⟨rfl, rfl, rfl, rfl⟩) w
  unfold disallowTakeControl
  dsimp only
  refine Advances.trans ?_ (hview _)
  split
  · exact herase.trans (advances_restoreControl s target find _)
  · exact herase

theorem advances_playerDisconnect (h : w.playerDisconnect s = some w') : Advances w w' := by
  unfold playerDisconnect at h
  split at h
  · cases h
    exact .refl w
  · split at h
    · cases h
      exact (Advances.setUnit _ _ w).trans
        (.setSession s (by intro x; exact ⟨rfl, rfl, rfl, rfl⟩) _)
    · cases h

theorem advances_unitUpdateSuppressedMover {b : Bool}
    (h : w.unitUpdateSuppressedMover C u b = some w') : Advances w w' := by
  unfold unitUpdateSuppressedMover updateSuppressedMover at h
  dsimp only at h
  split at h
  · cases h
    exact .setUnit u _ w
  · split at h
    · cases h
      exact .setUnit u _ w
    · split at h
      · split at h
        · cases h
          exact .setUnit u _ w
        · cases h
          exact ((Advances.setUnit u _ w).trans (advances_setClientControl _ u _ _)).trans
            (.setSession _ (by intro x; exact ⟨rfl, rfl, rfl, rfl⟩) _)
      · cases h

theorem advances_destroyUnit (u : U) (w : World S U G F) : Advances w (w.destroyUnit u) :=
  ⟨(Advances.refl w).queue, fun _ => rfl, fun _ => rfl, rfl, rfl⟩

theorem advances_allowMover (s : S) (u : U) (w : World S U G F) :
    Advances w (w.allowMover C s u) := by
  unfold allowMover
  exact .setSession s (by intro x; exact ⟨rfl, rfl, rfl, rfl⟩) w

theorem advances_disallowMover (s : S) (u : U) (w : World S U G F) :
    Advances w (w.disallowMover C s u) :=
  Advances.trans (.setSession s (by intro x; exact ⟨rfl, rfl, rfl, rfl⟩) w)
    (advances_resolveAllPendingChanges s _)

theorem advances_setActiveMover (s : S) (u : U) (w : World S U G F) :
    Advances w (w.setActiveMover C s u) := by
  have hother : Advances w (w.disallowMovingMe C u) := by
    unfold disallowMovingMe
    split
    · exact .refl w
    · exact advances_disallowMover _ u w
  have htaken := (hother.trans (advances_disallowMover (C := C) s u _)).trans
    (.setSession s (f := fun x => { x with activeMover := some u })
      (by intro x; exact ⟨rfl, rfl, rfl, rfl⟩) _)
  unfold setActiveMover
  dsimp only
  split
  · exact htaken.trans (advances_allowMover s u _)
  · exact htaken

theorem advances_resetActiveMover (s : S) (w : World S U G F) :
    Advances w (w.resetActiveMover s) := by
  unfold resetActiveMover
  exact .setSession s (by intro x; exact ⟨rfl, rfl, rfl, rfl⟩) w

theorem advances_clientSetActiveMover (s : S) (guid : G) (find : Accessor C)
    (w : World S U G F) : Advances w (w.clientSetActiveMover C s guid find) := by
  unfold clientSetActiveMover
  split
  · exact .refl w
  · split
    · exact .refl w
    · split
      · exact .refl w
      · exact (advances_resetActiveMover s w).trans (advances_setActiveMover s _ _)

theorem advances_clientSetNotActiveMover (s : S) (w : World S U G F) :
    Advances w (w.clientSetNotActiveMover s) := by
  unfold clientSetNotActiveMover
  split
  · exact .refl w
  · exact advances_resetActiveMover s w

/-! ## Acks that match -/

theorem hasPendingMovementChange_of_front
    (hfront : (w.sessions s).pendingMovementChanges.head? = some a.acknowledged)
    (happly : apply = a.apply) : w.hasPendingMovementChange s a apply = true := by
  obtain ⟨rest, hrest⟩ := List.head?_eq_some_iff.1 hfront
  unfold hasPendingMovementChange
  rw [hrest, happly]
  exact decide_eq_true ⟨rfl, rfl, rfl, rfl⟩

theorem ackFront_of_front {mover : Option U} {incorrect : PendingChange G F → Bool}
    (hfront : (w.sessions s).pendingMovementChanges.head? = some a.acknowledged)
    (happly : apply = a.apply) (hcorrect : incorrect a.acknowledged.2 = false)
    (hmover : mover.map C.guid = some a.guid) :
    w.ackFront C s mover a apply incorrect =
      some ((w.popPendingMovementChange s).resolve s a.acknowledged) := by
  obtain ⟨rest, hrest⟩ := List.head?_eq_some_iff.1 hfront
  unfold ackFront
  rw [if_pos (hasPendingMovementChange_of_front hfront happly), hrest]
  dsimp only
  rw [hcorrect, if_neg (by decide)]
  exact if_pos hmover

omit [DecidableEq S] [DecidableEq U] [LinearOrder G] [MoveFloat F] in
theorem guid_of_found (hfound : (find.getUnit g).isSome) :
    (find.getUnit g).map C.guid = some g := by
  obtain ⟨u, hu⟩ := Option.isSome_iff_exists.1 hfound
  rw [hu, Option.map_some, find.guid_getUnit g u hu]

omit [DecidableEq S] [DecidableEq U] [LinearOrder G] [MoveFloat F] in
theorem not_isNone_of_found (hfound : (find.getUnit g).isSome) :
    ¬(find.getUnit g).isNone = true := by
  rw [Option.isNone_iff_eq_none]
  exact Option.isSome_iff_ne_none.1 hfound

theorem KnockbackInfo.differs_self (info : KnockbackInfo F) : info.differs info = false := by
  simp [KnockbackInfo.differs, MoveFloat.differs_self]

section
variable {s : S} {find : Accessor C} {a : Ack G F}

theorem handleForceSpeedChangeAck_of_front
    (hfront : (w.sessions s).pendingMovementChanges.head? = some a.acknowledged)
    (hallowed : a.guid ∈ (w.sessions s).allowedClientMove)
    (hfound : (find.getUnit a.guid).isSome) (happly : false = a.apply) :
    w.handleForceSpeedChangeAck C s find a =
      some ((w.popPendingMovementChange s).resolve s a.acknowledged) := by
  unfold handleForceSpeedChangeAck
  rw [if_neg (not_not.2 hallowed), if_neg (not_isNone_of_found hfound)]
  exact ackFront_of_front hfront happly (MoveFloat.differs_self _) (guid_of_found hfound)

theorem handleMoveKnockBackAck_of_front
    (hfront : (w.sessions s).pendingMovementChanges.head? = some a.acknowledged)
    (hallowed : a.guid ∈ (w.sessions s).allowedClientMove)
    (hfound : (find.getUnit a.guid).isSome) (happly : false = a.apply) :
    w.handleMoveKnockBackAck C s find a =
      some ((w.popPendingMovementChange s).resolve s a.acknowledged) := by
  unfold handleMoveKnockBackAck
  rw [if_neg (not_not.2 hallowed)]
  exact ackFront_of_front hfront happly (KnockbackInfo.differs_self _) (guid_of_found hfound)

theorem handleMovementFlagChangeAck_of_front
    (hfront : (w.sessions s).pendingMovementChanges.head? = some a.acknowledged)
    (hallowed : a.guid ∈ (w.sessions s).allowedClientMove)
    (hfound : (find.getUnit a.guid).isSome)
    (happly : decide (a.opcode = .cmsgForceMoveRootAck) = a.apply) :
    w.handleMovementFlagChangeAck C s find a =
      some ((w.popPendingMovementChange s).resolve s a.acknowledged) := by
  unfold handleMovementFlagChangeAck
  rw [if_neg (not_not.2 hallowed)]
  exact ackFront_of_front hfront happly rfl (guid_of_found hfound)

theorem handleMovementFlagChangeToggleAck_of_front
    (hfront : (w.sessions s).pendingMovementChanges.head? = some a.acknowledged)
    (hallowed : a.guid ∈ (w.sessions s).allowedClientMove)
    (hfound : (find.getUnit a.guid).isSome) :
    w.handleMovementFlagChangeToggleAck C s find a =
      some ((w.popPendingMovementChange s).resolve s a.acknowledged) := by
  unfold handleMovementFlagChangeToggleAck
  rw [if_neg (not_not.2 hallowed)]
  exact ackFront_of_front hfront rfl rfl (guid_of_found hfound)

theorem handleMoveTeleportAck_of_front
    (hfront : (w.sessions s).pendingMovementChanges.head? = some a.acknowledged)
    (hallowed : a.guid ∈ (w.sessions s).allowedClientMove)
    (hfound : (find.getUnit a.guid).isSome) (happly : false = a.apply) :
    w.handleMoveTeleportAck C s find a =
      some ((w.popPendingMovementChange s).resolve s a.acknowledged) := by
  unfold handleMoveTeleportAck
  rw [hasPendingMovementChange_of_front hfront happly, if_neg (by decide),
    if_neg (not_not.2 hallowed), if_neg (not_isNone_of_found hfound)]
  exact ackFront_of_front hfront happly rfl (guid_of_found hfound)

/-- An ack for the change at the front, of a unit that the client may move and that is
there, has that change resolved. -/
theorem handleAck_of_front {o : Order G F}
    (hfront : (w.sessions s).pendingMovementChanges.head? = some o.ack.acknowledged)
    (hallowed : o.ack.guid ∈ (w.sessions s).allowedClientMove)
    (hfound : (find.getUnit o.ack.guid).isSome) :
    w.handleAck C s find o.ack =
      some ((w.popPendingMovementChange s).resolve s o.ack.acknowledged) := by
  obtain ⟨guid, counter, kind⟩ := o
  cases kind with
  | speed mtype newSpeedFlat =>
      cases mtype <;> exact handleForceSpeedChangeAck_of_front hfront hallowed hfound rfl
  | flag mFlag apply =>
      cases mFlag with
      | root =>
          cases apply <;> exact handleMovementFlagChangeAck_of_front hfront hallowed hfound rfl
      | waterWalking => exact handleMovementFlagChangeToggleAck_of_front hfront hallowed hfound
      | hover => exact handleMovementFlagChangeToggleAck_of_front hfront hallowed hfound
      | canFly => exact handleMovementFlagChangeToggleAck_of_front hfront hallowed hfound
      | fallingSlow => exact handleMovementFlagChangeToggleAck_of_front hfront hallowed hfound
  | knockBack info => exact handleMoveKnockBackAck_of_front hfront hallowed hfound rfl
  | teleport => exact handleMoveTeleportAck_of_front hfront hallowed hfound rfl

/-- An ack for a unit that the client may not move is dropped. -/
theorem handleAck_dropped (hallowed : a.guid ∉ (w.sessions s).allowedClientMove)
    (hopcode : a.opcode ≠ .msgMoveTeleportAck) : w.handleAck C s find a = some w := by
  unfold handleAck
  split
  · rename_i h
    exact absurd h hopcode
  all_goals exact if_pos hallowed

end

/-! ## Runs -/

/-- An ack that arrives is for the change at the front, of a unit that the client may
move and that is there; or no change waits for it any more, and it is dropped because the
client may not move its unit. -/
def AckMatches (w : World S U G F) : Op F C → Prop
  | .receiveAck s find =>
      ∀ a ∈ (w.acks s).head?,
        ((w.sessions s).pendingMovementChanges.head? = some a.acknowledged →
          a.guid ∈ (w.sessions s).allowedClientMove ∧ (find.getUnit a.guid).isSome) ∧
        ((w.sessions s).pendingMovementChanges.head? ≠ some a.acknowledged →
          a.guid ∉ (w.sessions s).allowedClientMove ∧ a.opcode ≠ .msgMoveTeleportAck)
  | _ => True

/-- A push adds to the queue and to what is on the way. -/
theorem settled_pushPendingMovementChange {guid : G} (hw : Settled w s) :
    Settled (w.pushPendingMovementChange t guid kind) s := by
  by_cases hs : s = t
  · subst hs
    unfold pushPendingMovementChange
    refine ⟨?_, ?_, ?_, hw.honest⟩
    · dsimp only
      rw [sessions_setSession_self]
      exact hw.kicked
    · dsimp only
      rw [sessions_setSession_self]
      dsimp only
      rw [hw.history, List.append_assoc]
    · dsimp only [inFlight]
      rw [sessions_setSession_self, if_pos rfl, List.map_append, ← List.append_assoc]
      exact List.Sublist.append hw.awaited (List.Sublist.refl _)
  · have hses : (w.pushPendingMovementChange t guid kind).sessions s = w.sessions s := if_neg hs
    have hord : (w.pushPendingMovementChange t guid kind).orders s = w.orders s := if_neg hs
    refine ⟨?_, ?_, ?_, hw.honest⟩
    · rw [hses]
      exact hw.kicked
    · rw [hses]
      exact hw.history
    · rw [hses, inFlight, hord]
      exact hw.awaited

theorem settled_sendToMover (hw : Settled w s) : Settled (w.sendToMover C u kind) s := by
  unfold sendToMover
  split
  · exact hw
  · exact settled_pushPendingMovementChange hw

/-- What is on the way stays on the way when the client acknowledges. -/
theorem settled_clientAck (hw : Settled w s) : Settled (w.clientAck t) s := by
  unfold clientAck
  split
  · exact hw
  · rename_i order rest hord
    by_cases hs : s = t
    · subst hs
      refine ⟨hw.kicked, hw.history, ?_, ?_⟩
      · have hsame : inFlight { w with
            orders := fun t => if t = s then rest else w.orders t
            acks := fun t => if t = s then w.acks s ++ [order.ack] else w.acks t } s =
            w.inFlight s := by
          rw [inFlight, inFlight]
          dsimp only
          rw [if_pos rfl, if_pos rfl, hord, List.map_append, List.append_assoc,
            List.map_singleton, Order.acknowledged_ack]
          rfl
        rw [hsame]
        exact hw.awaited
      · dsimp only
        rw [if_pos rfl]
        intro a ha
        rcases List.mem_append.1 ha with ha | ha
        · exact hw.honest a ha
        · exact ⟨order, List.mem_singleton.1 ha⟩
    · refine ⟨hw.kicked, hw.history, ?_, ?_⟩
      · rw [inFlight]
        dsimp only
        rw [if_neg hs, if_neg hs]
        exact hw.awaited
      · dsimp only
        rw [if_neg hs]
        exact hw.honest

/-- The world once the first ack of `t` is taken out of its channel. -/
def dropAck (t : S) (rest : List (Ack G F)) (w : World S U G F) : World S U G F :=
  { w with acks := fun t' => if t' = t then rest else w.acks t' }

section
variable {t : S} {a : Ack G F} {rest : List (Ack G F)}

variable {s : S}

theorem inFlight_of_ack (hacks : w.acks t = a :: rest) :
    w.inFlight t = a.acknowledged :: (w.dropAck t rest).inFlight t := by
  have hrest : (w.dropAck t rest).acks t = rest := if_pos rfl
  rw [inFlight, inFlight, hacks, hrest]
  rfl

theorem honest_dropAck (hacks : w.acks t = a :: rest) (hw : Settled w t) :
    ∀ b ∈ (w.dropAck t rest).acks t, ∃ o : Order G F, b = o.ack := by
  intro b hb
  have hrest : (w.dropAck t rest).acks t = rest := if_pos rfl
  rw [hrest] at hb
  exact hw.honest b (by rw [hacks]; exact List.mem_cons_of_mem _ hb)

theorem settled_dropAck_of_ne (hs : s ≠ t) (hw : Settled w s) : Settled (w.dropAck t rest) s := by
  have heq : (w.dropAck t rest).acks s = w.acks s := if_neg hs
  refine ⟨hw.kicked, hw.history, ?_, ?_⟩
  · rw [inFlight, heq]
    exact hw.awaited
  · rw [heq]
    exact hw.honest

/-- An ack is dropped for which no change waits. -/
theorem settled_dropAck (hacks : w.acks t = a :: rest) (hw : Settled w t)
    (hfront : (w.sessions t).pendingMovementChanges.head? ≠ some a.acknowledged) :
    Settled (w.dropAck t rest) t := by
  refine ⟨hw.kicked, hw.history, ?_, honest_dropAck hacks hw⟩
  have hsub := hw.awaited
  rw [inFlight_of_ack hacks] at hsub
  rcases List.sublist_cons_iff.1 hsub with hsub | ⟨r, hr, -⟩
  · exact hsub
  · rw [hr] at hfront
    exact absurd rfl hfront

/-- The change at the front and its ack go together. -/
theorem settled_resolveFront (hacks : w.acks t = a :: rest) (hw : Settled w t)
    (hfront : (w.sessions t).pendingMovementChanges.head? = some a.acknowledged) :
    Settled (((w.dropAck t rest).popPendingMovementChange t).resolve t a.acknowledged) t := by
  have hadv := advances_resolveFront (w := w.dropAck t rest) (s := t) hfront
  obtain ⟨pending, hpending⟩ := List.head?_eq_some_iff.1 hfront
  have hsub := hw.awaited
  rw [hpending, inFlight_of_ack hacks, List.cons_sublist_cons] at hsub
  refine ⟨(hadv.kicked t).trans hw.kicked, ?_, ?_, honest_dropAck hacks hw⟩
  · obtain ⟨done, hp, hr⟩ := hadv.queue t
    rw [hadv.pushed, hr, List.append_assoc, ← hp]
    exact hw.history
  · have htail : ((((w.dropAck t rest).popPendingMovementChange t).resolve t
        a.acknowledged).sessions t).pendingMovementChanges = pending := by
      rw [resolve, sessions_setSession_self, popPendingMovementChange, sessions_setSession_self]
      show (w.sessions t).pendingMovementChanges.tail = pending
      rw [hpending]
      rfl
    rw [htail]
    exact hsub

theorem settled_receiveAck {find : Accessor C} (hw : ∀ s, Settled w s)
    (hmatch : w.AckMatches (.receiveAck t find : Op F C)) :
    Settled (w.step (.receiveAck t find : Op F C)) s := by
  cases hacks : w.acks t with
  | nil =>
      have hsame : w.exec (.receiveAck t find : Op F C) = some w := by
        show w.receiveAck C t find = some w
        rw [receiveAck, hacks]
      rw [step_of_some hsame]
      exact hw s
  | cons a rest =>
      have hex : w.exec (.receiveAck t find : Op F C) =
          (w.dropAck t rest).handleAck C t find a := by
        show w.receiveAck C t find = _
        rw [receiveAck, hacks]
        rfl
      obtain ⟨hfront, hother⟩ := hmatch a (by rw [hacks]; rfl)
      obtain ⟨o, rfl⟩ := (hw t).honest a (by rw [hacks]; exact List.mem_cons_self)
      by_cases hhead : (w.sessions t).pendingMovementChanges.head? = some o.ack.acknowledged
      · obtain ⟨hallowed, hfound⟩ := hfront hhead
        rw [step_of_some (hex.trans (handleAck_of_front (w := w.dropAck t rest) hhead hallowed
          hfound))]
        by_cases hs : s = t
        · rw [hs]
          exact settled_resolveFront hacks (hw t) hhead
        · exact (advances_resolveFront (w := w.dropAck t rest) hhead).settled
            (settled_dropAck_of_ne hs (hw s))
      · obtain ⟨hallowed, hopcode⟩ := hother hhead
        rw [step_of_some (hex.trans (handleAck_dropped (w := w.dropAck t rest) hallowed hopcode))]
        by_cases hs : s = t
        · rw [hs]
          exact settled_dropAck hacks (hw t) hhead
        · exact settled_dropAck_of_ne hs (hw s)

end

theorem advances_step (h : ∀ w', w.exec op = some w' → Advances w w') : Advances w (w.step op) := by
  unfold step
  cases hex : w.exec op with
  | none => exact .refl w
  | some w' => exact h w' hex

theorem settled_step (hw : ∀ s, Settled w s) (hmatch : w.AckMatches op) :
    ∀ s, Settled (w.step op) s := by
  intro s
  cases op with
  | initActiveMover t u => exact (advances_initActiveMover t u w).settled (hw s)
  | allowTakeControl t target charm =>
      exact (advances_allowTakeControl t target charm w).settled (hw s)
  | disallowTakeControl t target find =>
      exact (advances_disallowTakeControl t target find w).settled (hw s)
  | playerDisconnect t =>
      have hadv : Advances w (w.step (.playerDisconnect t : Op F C)) :=
        advances_step fun w' h => advances_playerDisconnect h
      exact hadv.settled (hw s)
  | updateSuppressedMover u cantControl =>
      have hadv : Advances w (w.step (.updateSuppressedMover u cantControl : Op F C)) :=
        advances_step fun w' h => advances_unitUpdateSuppressedMover h
      exact hadv.settled (hw s)
  | destroyUnit u => exact (advances_destroyUnit u w).settled (hw s)
  | allowMover t mover => exact (advances_allowMover t mover w).settled (hw s)
  | disallowMover t mover => exact (advances_disallowMover t mover w).settled (hw s)
  | setActiveMover t mover => exact (advances_setActiveMover t mover w).settled (hw s)
  | clientSetActiveMover t guid find =>
      exact (advances_clientSetActiveMover t guid find w).settled (hw s)
  | clientSetNotActiveMover t => exact (advances_clientSetNotActiveMover t w).settled (hw s)
  | resolveAllPendingChanges t => exact (advances_resolveAllPendingChanges t w).settled (hw s)
  | sendToMover u kind => exact settled_sendToMover (hw s)
  | clientAck t => exact settled_clientAck (hw s)
  | receiveAck t find => exact settled_receiveAck hw hmatch

theorem settled_new (s : S) : Settled (World.new : World S U G F) s where
  kicked := rfl
  history := rfl
  awaited := List.Sublist.refl _
  honest := by
    intro a ha
    cases ha

/-- As long as the acks that arrive match, nobody is kicked, changes are resolved once and
in order, and each pending change has its ack to come. -/
theorem settled_of_ackMatches (C : Actors S U G) (ops : List (Op F C))
    (hops : Along step AckMatches (World.new : World S U G F) ops) (s : S) :
    Settled (ops.foldl step World.new) s :=
  Along.invariant (I := fun w => ∀ s, Settled w s) (fun _ _ hw hop => settled_step hw hop)
    settled_new hops s

end World

/-- Finds every unit. -/
def findAll : Accessor numbered := ⟨some, fun _ _ h => by cases h; rfl⟩

/-- A change of speed and its ack, once the player has activated his character. -/
theorem settled_after_speed_change :
    World.Settled (([.initActiveMover 0 1, .clientSetActiveMover 0 1 findAll,
      .sendToMover 1 (.speed .run 7), .clientAck 0, .receiveAck 0 findAll] :
        List (World.Op ℚ numbered)).foldl World.step World.new) 0 := by
  refine World.settled_of_ackMatches numbered _ ?_ 0
  refine ⟨trivial, trivial, trivial, trivial, ?_, trivial⟩
  intro a ha
  cases ha
  refine ⟨fun _ => ⟨?_, rfl⟩, fun h => absurd rfl h⟩
  exact Finset.mem_insert_self _ _

/-- The player has not yet activated his character when the first change is acknowledged.
That ack is dropped, and the ack of the second change gets him kicked. -/
theorem kicked_for_first_ack :
    let ops : List (World.Op ℚ numbered) :=
      [.initActiveMover 0 1, .sendToMover 1 (.speed .run 7), .clientAck 0,
        .receiveAck 0 findAll, .clientSetActiveMover 0 1 findAll,
        .sendToMover 1 (.speed .run 8), .clientAck 0, .receiveAck 0 findAll]
    let w : World Nat Nat Nat ℚ := ops.foldl World.step World.new
    (w.sessions 0).kicked = true ∧ (w.sessions 0).resolved = [] ∧
      (w.sessions 0).pendingMovementChanges.length = 2 ∧ w.acks 0 = [] ∧ w.orders 0 = [] := by
  refine ⟨rfl, rfl, rfl, rfl, rfl⟩

end Sunstrider.Movement
