import Sunstrider.Lib.Runs
import Sunstrider.Movement.ClientControl

/-!
# A session and the unit it moves refer to each other

`Linked` is the relation that the assertions of `PlayerDisconnect` and
`UpdateSuppressedMover` rely on: the server-active mover of a session is a unit exactly
if that unit refers to the session. Releasing a unit clears both sides. Taking one
writes both sides for the new pair, but neither the unit the session had before nor the
session the unit had before hears of it. So the relation survives if the session already
has the unit, or if both are free, and in no other case.

The run at the end takes a second unit: a player who is in the world charms a creature,
and is still referred to by its own session.
-/

set_option linter.unusedSectionVars false

namespace Sunstrider.Movement

open Lib

variable {S U G F : Type} [DecidableEq S] [DecidableEq U] [LinearOrder G]

namespace World

variable {C : Actors S U G} {w w' : World S U G F}

variable {s : S} {u target : U} {find : Accessor C}

variable {w'' : World S U G F} {f : ClientControl U G F → ClientControl U G F}
  {g : MovedUnit S → MovedUnit S}

/-- The server-active mover of a session refers to the session, and nothing else does. -/
def Linked (w : World S U G F) : Prop :=
  ∀ s u, (w.sessions s).serverActiveMover = some u ↔ (w.units u).playerMovingMe = some s

/-- The session has the unit, or both are free. -/
def CanTake (w : World S U G F) (s : S) (u : U) : Prop :=
  (w.sessions s).serverActiveMover = some u ∨
    (w.sessions s).serverActiveMover = none ∧ (w.units u).playerMovingMe = none

/-! ## What is written -/

@[simp] theorem sessions_setSession_self (s : S) (f : ClientControl U G F → ClientControl U G F)
    (w : World S U G F) : (w.setSession s f).sessions s = f (w.sessions s) := if_pos rfl

theorem sessions_setSession (s t : S) (f : ClientControl U G F → ClientControl U G F)
    (w : World S U G F) :
    (w.setSession s f).sessions t = if t = s then f (w.sessions s) else w.sessions t := rfl

@[simp] theorem units_setSession (s : S) (f : ClientControl U G F → ClientControl U G F)
    (w : World S U G F) : (w.setSession s f).units = w.units := rfl

@[simp] theorem units_setUnit_self (u : U) (f : MovedUnit S → MovedUnit S)
    (w : World S U G F) : (w.setUnit u f).units u = f (w.units u) := if_pos rfl

@[simp] theorem sessions_setUnit (u : U) (f : MovedUnit S → MovedUnit S)
    (w : World S U G F) : (w.setUnit u f).sessions = w.sessions := rfl

/-- Neither side of the relation is written. -/
structure SameMovers (w w' : World S U G F) : Prop where
  sessions : ∀ s, (w'.sessions s).serverActiveMover = (w.sessions s).serverActiveMover
  units : ∀ u, (w'.units u).playerMovingMe = (w.units u).playerMovingMe

namespace SameMovers

theorem refl (w : World S U G F) : SameMovers w w := ⟨fun _ => rfl, fun _ => rfl⟩

theorem trans {w'' : World S U G F} (h : SameMovers w w') (h' : SameMovers w' w'') :
    SameMovers w w'' :=
  ⟨fun s => (h'.sessions s).trans (h.sessions s), fun u => (h'.units u).trans (h.units u)⟩

theorem linked (h : SameMovers w w') : Linked w' ↔ Linked w := by
  unfold Linked
  simp only [h.sessions, h.units]

theorem canTake (h : SameMovers w w') {s : S} {u : U} : CanTake w' s u ↔ CanTake w s u := by
  unfold CanTake
  rw [h.sessions, h.units]

/-- A session is written, but not its server-active mover. -/
theorem setSession (s : S) {f : ClientControl U G F → ClientControl U G F}
    (hf : ∀ x, (f x).serverActiveMover = x.serverActiveMover) (w : World S U G F) :
    SameMovers w (w.setSession s f) := by
  refine ⟨fun t => ?_, fun _ => rfl⟩
  rw [sessions_setSession]
  split
  · rename_i h
    rw [hf, h]
  · rfl

theorem setUnit (u : U) {f : MovedUnit S → MovedUnit S}
    (hf : ∀ v, (f v).playerMovingMe = v.playerMovingMe) (w : World S U G F) :
    SameMovers w (w.setUnit u f) := by
  refine ⟨fun _ => rfl, fun v => ?_⟩
  show (if v = u then f (w.units u) else w.units v).playerMovingMe = _
  split
  · rename_i h
    rw [hf, h]
  · rfl

end SameMovers

/-- The session and the unit refer to each other; whatever else there was stays. -/
structure Takes (s : S) (u : U) (w w' : World S U G F) : Prop where
  self : (w'.sessions s).serverActiveMover = some u
  unit : (w'.units u).playerMovingMe = some s
  others : ∀ t, t ≠ s → (w'.sessions t).serverActiveMover = (w.sessions t).serverActiveMover
  units : ∀ v, v ≠ u → (w'.units v).playerMovingMe = (w.units v).playerMovingMe

theorem Takes.same (h : Takes s u w w') (h' : SameMovers w' w'') :
    Takes s u w w'' where
  self := (h'.sessions s).trans h.self
  unit := (h'.units u).trans h.unit
  others t ht := (h'.sessions t).trans (h.others t ht)
  units v hv := (h'.units v).trans (h.units v hv)

/-- Taking a unit keeps the relation if and only if it can be taken. -/
theorem Takes.linked_iff (h : Takes s u w w') (hw : Linked w) : Linked w' ↔ CanTake w s u := by
  constructor
  · intro hw'
    have hs : ∀ v, (w.sessions s).serverActiveMover = some v → v = u := by
      intro v hv
      by_contra hne
      have hv' : (w'.units v).playerMovingMe = some s := by
        rw [h.units v hne]
        exact (hw s v).1 hv
      have : some u = some v := h.self.symm.trans ((hw' s v).2 hv')
      exact hne (Option.some.inj this).symm
    have hu : ∀ t, (w.units u).playerMovingMe = some t → t = s := by
      intro t ht
      by_contra hne
      have ht' : (w'.sessions t).serverActiveMover = some u := by
        rw [h.others t hne]
        exact (hw t u).2 ht
      have : some s = some t := h.unit.symm.trans ((hw' t u).1 ht')
      exact hne (Option.some.inj this).symm
    cases hsa : (w.sessions s).serverActiveMover with
    | some v => exact Or.inl (by rw [hsa, hs v hsa])
    | none =>
        refine Or.inr ⟨hsa, ?_⟩
        cases hum : (w.units u).playerMovingMe with
        | none => rfl
        | some t =>
            obtain rfl := hu t hum
            rw [(hw t u).2 hum] at hsa
            cases hsa
  · intro hcan t v
    by_cases ht : t = s
    · subst ht
      by_cases hv : v = u
      · subst hv
        exact iff_of_true h.self h.unit
      · have hfree : (w.units v).playerMovingMe ≠ some t := by
          intro hvt
          have hact := (hw t v).2 hvt
          rcases hcan with hcan | hcan
          · exact hv (Option.some.inj (hact.symm.trans hcan))
          · rw [hcan.1] at hact
            cases hact
        rw [h.self, h.units v hv]
        exact iff_of_false (fun he => hv (Option.some.inj he).symm) hfree
    · rw [h.others t ht]
      by_cases hv : v = u
      · subst hv
        have hfree : (w.sessions t).serverActiveMover ≠ some v := by
          intro htv
          have hact := (hw t v).1 htv
          rcases hcan with hcan | hcan
          · exact ht (Option.some.inj (hact.symm.trans ((hw s v).1 hcan)))
          · rw [hcan.2] at hact
            cases hact
        rw [h.unit]
        exact iff_of_false hfree fun he => ht (Option.some.inj he).symm
      · rw [h.units v hv]
        exact hw t v

/-- The session and the unit let go of each other. -/
structure Releases (s : S) (u : U) (w w' : World S U G F) : Prop where
  self : (w'.sessions s).serverActiveMover = none
  unit : (w'.units u).playerMovingMe = none
  others : ∀ t, t ≠ s → (w'.sessions t).serverActiveMover = (w.sessions t).serverActiveMover
  units : ∀ v, v ≠ u → (w'.units v).playerMovingMe = (w.units v).playerMovingMe

theorem Releases.same (h : Releases s u w w') (h' : SameMovers w' w'') :
    Releases s u w w'' where
  self := (h'.sessions s).trans h.self
  unit := (h'.units u).trans h.unit
  others t ht := (h'.sessions t).trans (h.others t ht)
  units v hv := (h'.units v).trans (h.units v hv)

theorem Releases.linked (h : Releases s u w w') (hw : Linked w)
    (hsu : (w.sessions s).serverActiveMover = some u) : Linked w' := by
  intro t v
  by_cases ht : t = s
  · subst ht
    rw [h.self]
    refine iff_of_false (by intro he; cases he) fun hvt => ?_
    by_cases hv : v = u
    · rw [hv, h.unit] at hvt
      cases hvt
    · rw [h.units v hv, ← hw t v, hsu] at hvt
      exact hv (Option.some.inj hvt).symm
  · rw [h.others t ht]
    by_cases hv : v = u
    · subst hv
      rw [h.unit, hw t v, (hw s v).1 hsu]
      exact iff_of_false (fun he => ht (Option.some.inj he).symm) (by intro he; cases he)
    · rw [h.units v hv]
      exact hw t v

/-! ## Control taken and given back -/

theorem takes_write (s : S) (u : U) (hf : ∀ x, (f x).serverActiveMover = some u)
    (hg : ∀ v, (g v).playerMovingMe = some s) (w : World S U G F) :
    Takes s u w ((w.setSession s f).setUnit u g) where
  self := by
    rw [sessions_setUnit, sessions_setSession_self]
    exact hf _
  unit := by
    rw [units_setUnit_self]
    exact hg _
  others t ht := congrArg _ (if_neg ht)
  units v hv := congrArg _ (if_neg hv)

theorem releases_write (s : S) (u : U) (hf : ∀ x, (f x).serverActiveMover = none)
    (hg : ∀ v, (g v).playerMovingMe = none) (w : World S U G F) :
    Releases s u w ((w.setSession s f).setUnit u g) where
  self := by
    rw [sessions_setUnit, sessions_setSession_self]
    exact hf _
  unit := by
    rw [units_setUnit_self]
    exact hg _
  others t ht := congrArg _ (if_neg ht)
  units v hv := congrArg _ (if_neg hv)

theorem sameMovers_setClientControl (s : S) (u : U) (b : Bool) (w : World S U G F) :
    SameMovers w (w.setClientControl C s u b) := by
  unfold setClientControl
  exact .setSession s (by intro x; rfl) w

theorem sameMovers_setViewpoint (s : S) (g : G) (b : Bool) (w : World S U G F) :
    SameMovers w (w.setViewpoint s g b) := by
  unfold setViewpoint
  exact .setSession s (by intro x; rfl) w

/-- A unit that the session has is not taken again. -/
theorem updateTakeControl_true (s : S) (u : U) (w : World S U G F) :
    w.updateTakeControl C s u true = w ∧ (w.sessions s).serverActiveMover = some u ∨
      Takes s u w (w.updateTakeControl C s u true) := by
  by_cases h : (w.sessions s).serverActiveMover = some u
  · exact Or.inl ⟨if_pos h, h⟩
  · have heq : w.updateTakeControl C s u true =
        if (w.units u).moverSuppressed then
          (w.setSession s fun x =>
            { x with
              serverActiveMover := some u
              suppressed := (w.units u).moverSuppressed }).setUnit u fun v =>
                { v with playerMovingMe := some s }
        else
          ((w.setSession s fun x =>
            { x with
              serverActiveMover := some u
              suppressed := (w.units u).moverSuppressed }).setUnit u fun v =>
                { v with playerMovingMe := some s }).setClientControl C s u true := if_neg h
    have htakes := takes_write s u
      (f := fun x =>
        { x with
          serverActiveMover := some u
          suppressed := (w.units u).moverSuppressed })
      (g := fun v => { v with playerMovingMe := some s }) (fun _ => rfl) (fun _ => rfl) w
    rw [heq]
    refine Or.inr ?_
    split
    · exact htakes
    · exact htakes.same (sameMovers_setClientControl s u true _)

theorem linked_updateTakeControl_true (hw : Linked w) :
    Linked (w.updateTakeControl C s u true) ↔ CanTake w s u := by
  rcases updateTakeControl_true (C := C) s u w with ⟨h, hsu⟩ | h
  · rw [h]
    exact iff_of_true hw (Or.inl hsu)
  · exact h.linked_iff hw

theorem releases_updateTakeControl (hsu : (w.sessions s).serverActiveMover = some u) :
    Releases s u w (w.updateTakeControl C s u false) := by
  have heq : w.updateTakeControl C s u false =
      ((w.setSession s fun x =>
        { x with serverActiveMover := none, suppressed := false }).setUnit u fun v =>
          { v with playerMovingMe := none }).setClientControl C s u false := if_pos hsu
  rw [heq]
  exact (releases_write s u (by intro x; rfl) (by intro v; rfl) w).same
    (sameMovers_setClientControl s u false _)

/-! ## Operations -/

theorem linked_initActiveMover (hw : Linked w) : Linked (w.initActiveMover C s u) ↔ CanTake w s u :=
  (takes_write s u (by intro x; rfl) (by intro v; rfl) w).linked_iff hw

/-- The world in which `AllowTakeControl` decides, and the one in which it takes. -/
theorem linked_allowTakeControl {charm : Bool} (hw : Linked w) :
    Linked (w.allowTakeControl C s u charm) ↔
      (charm = true ∨ (w.sessions s).serverActiveMover = none → CanTake w s u) := by
  have hallow : SameMovers w (w.setSession s fun x =>
      { x with allowedClientControl := insert (C.guid u) x.allowedClientControl }) :=
    .setSession s (by intro x; rfl) w
  unfold allowTakeControl
  simp only [sessions_setSession_self, Bool.or_eq_true, Option.isNone_iff_eq_none]
  by_cases hnow : charm = true ∨ (w.sessions s).serverActiveMover = none
  · rw [if_pos hnow, imp_iff_right hnow]
    split
    · have hsame := hallow.trans (.setSession s (f := fun x => { x with farsight := none })
        (by intro x; rfl) _)
      rw [linked_updateTakeControl_true (hsame.linked.2 hw), hsame.canTake]
    · have hsame := hallow.trans (sameMovers_setViewpoint s (C.guid u) true _)
      rw [linked_updateTakeControl_true (hsame.linked.2 hw), hsame.canTake]
  · rw [if_neg hnow, hallow.linked]
    exact iff_of_true hw fun h => absurd h hnow

/-- The unit that a session gets back when `target` is taken from it. -/
def restored (w : World S U G F) (s : S) (target : U) (find : Accessor C) : Option U :=
  (firstGuid ((w.sessions s).allowedClientControl.erase (C.guid target))).bind find.getUnit

theorem allowedClientControl_updateTakeControl_false (s : S) (u : U) (w : World S U G F) :
    ((w.updateTakeControl C s u false).sessions s).allowedClientControl =
      (w.sessions s).allowedClientControl := by
  by_cases h : (w.sessions s).serverActiveMover = some u
  · have heq : w.updateTakeControl C s u false =
        ((w.setSession s fun x =>
          { x with serverActiveMover := none, suppressed := false }).setUnit u fun v =>
            { v with playerMovingMe := none }).setClientControl C s u false := if_pos h
    rw [heq, setClientControl, sessions_setSession_self, sessions_setUnit,
      sessions_setSession_self]
  · have heq : w.updateTakeControl C s u false = w.setClientControl C s u false := if_neg h
    rw [heq, setClientControl, sessions_setSession_self]

/-- A unit that is given back is another one: its GUID was not erased. -/
theorem ne_of_restored (h : w.restored s target find = some u) : u ≠ target := by
  obtain ⟨g, hg, hu⟩ := Option.bind_eq_some_iff.1 h
  have hmem : g ∈ (w.sessions s).allowedClientControl.erase (C.guid target) :=
    Finset.mem_of_min hg
  rintro rfl
  rw [← find.guid_getUnit g u hu] at hmem
  exact Finset.notMem_erase _ _ hmem

theorem linked_restoreControl (hw : Linked w)
    (hact : (w.sessions s).serverActiveMover = some target)
    (hallowed : C.guid target ∉ (w.sessions s).allowedClientControl) :
    Linked (w.restoreControl C s target find) ↔
      ∀ u, w.restored s target find = some u → (w.units u).playerMovingMe = none := by
  have hrel := releases_updateTakeControl (C := C) hact
  have hlinked := hrel.linked hw hact
  have hgot : (firstGuid
      ((w.updateTakeControl C s target false).sessions s).allowedClientControl).bind find.getUnit =
        w.restored s target find := by
    rw [allowedClientControl_updateTakeControl_false, restored,
      Finset.erase_eq_of_notMem hallowed]
  unfold restoreControl
  dsimp only
  rw [hgot]
  cases hres : w.restored s target find with
  | none => exact iff_of_true hlinked (by intro u hu; cases hu)
  | some u =>
      dsimp only
      rw [linked_updateTakeControl_true hlinked, CanTake, hrel.self,
        hrel.units u (ne_of_restored hres)]
      constructor
      · intro hcan v hv
        obtain rfl := Option.some.inj hv
        rcases hcan with hcan | hcan
        · cases hcan
        · exact hcan.2
      · intro hfree
        exact Or.inr ⟨rfl, hfree u rfl⟩

theorem linked_disallowTakeControl (hw : Linked w) :
    Linked (w.disallowTakeControl C s target find) ↔
      ((w.sessions s).serverActiveMover = some target →
        ∀ u, w.restored s target find = some u → (w.units u).playerMovingMe = none) := by
  have herase : SameMovers w (w.setSession s fun x =>
      { x with allowedClientControl := x.allowedClientControl.erase (C.guid target) }) :=
    .setSession s (by intro x; rfl) w
  have hview : ∀ w₁ : World S U G F,
      Linked (if (w₁.sessions s).farsight = some (C.guid target) then
        w₁.setViewpoint s (C.guid target) false else w₁) ↔ Linked w₁ := by
    intro w₁
    split
    · exact (sameMovers_setViewpoint s _ false w₁).linked
    · exact Iff.rfl
  unfold disallowTakeControl
  dsimp only
  rw [hview, herase.sessions]
  by_cases hact : (w.sessions s).serverActiveMover = some target
  · rw [if_pos hact, imp_iff_right hact,
      linked_restoreControl (herase.linked.2 hw) ((herase.sessions s).trans hact)]
    · simp only [restored, sessions_setSession_self, Finset.erase_idem, units_setSession]
    · rw [sessions_setSession_self]
      exact Finset.notMem_erase _ _
  · rw [if_neg hact, herase.linked]
    exact iff_of_true hw fun h => absurd h hact

/-- The assertion of `PlayerDisconnect` holds, and the relation is kept. -/
theorem playerDisconnect_spec (hw : Linked w) :
    ∃ w', w.playerDisconnect s = some w' ∧ Linked w' := by
  unfold playerDisconnect
  cases hact : (w.sessions s).serverActiveMover with
  | none => exact ⟨w, rfl, hw⟩
  | some u =>
      dsimp only
      rw [if_pos ((hw s u).1 hact)]
      refine ⟨_, rfl, Releases.linked (s := s) (u := u) ⟨?_, ?_, ?_, ?_⟩ hw hact⟩
      · rw [sessions_setSession_self]
      · rw [units_setSession, units_setUnit_self]
      · intro t ht
        exact congrArg _ (if_neg ht)
      · intro v hv
        exact congrArg _ (if_neg hv)

/-- The assertions of `UpdateSuppressedMover` hold in the session a unit refers to. -/
theorem updateSuppressedMover_spec (hw : Linked w) (hu : (w.units u).playerMovingMe = some s) :
    ∃ w', w.updateSuppressedMover C s u = some w' ∧ SameMovers w w' := by
  unfold updateSuppressedMover
  rw [if_pos ⟨(hw s u).2 hu, hu⟩]
  dsimp only
  split
  · exact ⟨w, rfl, .refl w⟩
  · exact ⟨_, rfl, (sameMovers_setClientControl s u _ w).trans (.setSession s (by intro x; rfl) _)⟩

theorem unitUpdateSuppressedMover_spec {b : Bool} (hw : Linked w) :
    ∃ w', w.unitUpdateSuppressedMover C u b = some w' ∧ SameMovers w w' := by
  have hset : SameMovers w (w.setUnit u fun v => { v with moverSuppressed := b }) :=
    .setUnit u (by intro v; rfl) w
  unfold unitUpdateSuppressedMover
  dsimp only
  split
  · exact ⟨_, rfl, hset⟩
  · split
    · exact ⟨_, rfl, hset⟩
    · rename_i s hs
      obtain ⟨w', hw', hsame⟩ := updateSuppressedMover_spec (C := C) (hset.linked.2 hw) hs
      exact ⟨w', hw', hset.trans hsame⟩

/-- A unit that goes away takes both sides of its pair with it. -/
theorem linked_destroyUnit (hw : Linked w) : Linked (w.destroyUnit u) := by
  intro s v
  show (w.sessions s).serverActiveMover.filter (· ≠ u) = some v ↔
    (if v = u then (⟨none, false⟩ : MovedUnit S) else w.units v).playerMovingMe = some s
  rw [Option.filter_eq_some_iff, hw s v]
  by_cases hv : v = u
  · subst hv
    simp
  · simp [hv]

/-! ## What leaves the relation alone -/

theorem sameMovers_resolveEach (s : S) (l : List (Nat × PendingChange G F)) :
    ∀ w : World S U G F, SameMovers w (w.resolveEach s l) := by
  induction l with
  | nil => exact fun w => .refl w
  | cons change l ih =>
      intro w
      have hone : SameMovers w ((w.popPendingMovementChange s).resolve s change) :=
        SameMovers.trans (.setSession s (by intro x; rfl) w) (.setSession s (by intro x; rfl) _)
      exact hone.trans (ih _)

theorem sameMovers_resolveAllPendingChanges (s : S) (w : World S U G F) :
    SameMovers w (w.resolveAllPendingChanges s) := by
  unfold resolveAllPendingChanges
  split
  · exact .refl w
  · exact sameMovers_resolveEach s _ w

theorem sameMovers_disallowMover (s : S) (u : U) (w : World S U G F) :
    SameMovers w (w.disallowMover C s u) :=
  SameMovers.trans (.setSession s (by intro x; rfl) w) (sameMovers_resolveAllPendingChanges s _)

theorem sameMovers_setActiveMover (s : S) (u : U) (w : World S U G F) :
    SameMovers w (w.setActiveMover C s u) := by
  have htaken : ∀ w₁ : World S U G F, SameMovers w₁ ((w₁.disallowMover C s u).setSession s
      fun x => { x with activeMover := some u }) := fun w₁ =>
    (sameMovers_disallowMover s u w₁).trans (.setSession s (by intro x; rfl) _)
  have hother : SameMovers w (w.disallowMovingMe C u) := by
    unfold disallowMovingMe
    split
    · exact .refl w
    · exact sameMovers_disallowMover _ u w
  unfold setActiveMover
  dsimp only
  split
  · exact (hother.trans (htaken _)).trans (.setSession s (by intro x; rfl) _)
  · exact hother.trans (htaken _)

theorem sameMovers_clientSetActiveMover (s : S) (guid : G) (find : Accessor C)
    (w : World S U G F) : SameMovers w (w.clientSetActiveMover C s guid find) := by
  unfold clientSetActiveMover
  split
  · exact .refl w
  · split
    · exact .refl w
    · split
      · exact .refl w
      · exact SameMovers.trans (.setSession s (by intro x; rfl) w)
          (sameMovers_setActiveMover s _ _)

theorem sameMovers_clientSetNotActiveMover (s : S) (w : World S U G F) :
    SameMovers w (w.clientSetNotActiveMover s) := by
  unfold clientSetNotActiveMover
  split
  · exact .refl w
  · exact .setSession s (by intro x; rfl) w

section
variable [MoveFloat F]

variable {s : S} {op : Op F C}

variable {a : Ack G F} {find : Accessor C}

theorem sameMovers_sendToMover (u : U) (kind : OrderKind F) (w : World S U G F) :
    SameMovers w (w.sendToMover C u kind) := by
  unfold sendToMover
  split
  · exact .refl w
  · rename_i s _
    refine ⟨fun t => ?_, fun _ => rfl⟩
    unfold pushPendingMovementChange
    dsimp only
    rw [sessions_setSession]
    split
    · rename_i ht
      rw [ht]
    · rfl

theorem sameMovers_clientAck (s : S) (w : World S U G F) : SameMovers w (w.clientAck s) := by
  unfold clientAck
  split
  · exact .refl w
  · exact ⟨fun _ => rfl, fun _ => rfl⟩

theorem sameMovers_ackFront {mover : Option U} {apply : Bool}
    {incorrect : PendingChange G F → Bool} (h : w.ackFront C s mover a apply incorrect = some w') :
    SameMovers w w' := by
  have hkick : ∀ w₁ : World S U G F, SameMovers w₁ (w₁.kickPlayer s) := fun w₁ =>
    .setSession s (by intro x; rfl) w₁
  have hpop : SameMovers w (w.popPendingMovementChange s) := .setSession s (by intro x; rfl) w
  unfold ackFront at h
  split at h
  · split at h
    · cases h
    · dsimp only at h
      split at h
      · cases h
        exact hpop.trans (hkick _)
      · unfold resolveAck at h
        split at h
        · cases h
          exact hpop.trans (.setSession s (by intro x; rfl) _)
        · cases h
  · cases h
    exact hkick w

theorem sameMovers_handleAck (h : w.handleAck C s find a = some w') : SameMovers w w' := by
  have hskip : ∀ {r : Option (World S U G F)} {b : Prop} [Decidable b],
      (r = some w' → SameMovers w w') → (if b then some w else r) = some w' →
        SameMovers w w' := by
    intro r b _ hr hif
    split at hif
    · cases hif
      exact .refl w
    · exact hr hif
  unfold handleAck at h
  split at h
  · unfold handleMoveTeleportAck at h
    split at h
    · cases h
      exact .setSession s (by intro x; rfl) w
    · exact hskip (hskip sameMovers_ackFront) h
  · exact hskip sameMovers_ackFront h
  · exact hskip sameMovers_ackFront h
  · exact hskip sameMovers_ackFront h
  · exact hskip sameMovers_ackFront h
  · exact hskip sameMovers_ackFront h
  · exact hskip sameMovers_ackFront h
  · exact hskip sameMovers_ackFront h
  all_goals exact hskip (hskip sameMovers_ackFront) h

theorem sameMovers_receiveAck (h : w.receiveAck C s find = some w') : SameMovers w w' := by
  unfold receiveAck at h
  split at h
  · cases h
    exact .refl w
  · have hsame := sameMovers_handleAck h
    exact ⟨hsame.sessions, hsame.units⟩

/-! ## Runs -/

/-- What an operation may take: a unit that the session has, or a free one for a session
that has none. -/
def TakesFree (w : World S U G F) : Op F C → Prop
  | .initActiveMover s u => CanTake w s u
  | .allowTakeControl s target charm =>
      charm = true ∨ (w.sessions s).serverActiveMover = none → CanTake w s target
  | .disallowTakeControl s target find =>
      (w.sessions s).serverActiveMover = some target →
        ∀ u, w.restored s target find = some u → (w.units u).playerMovingMe = none
  | _ => True

theorem step_of_some (h : w.exec op = some w') : w.step op = w' := by
  rw [step, h]
  rfl

theorem sameMovers_step (h : ∀ w', w.exec op = some w' → SameMovers w w') :
    SameMovers w (w.step op) := by
  unfold step
  cases hex : w.exec op with
  | none => exact .refl w
  | some w' => exact h w' hex

theorem linked_step (hw : Linked w) : Linked (w.step op) ↔ TakesFree w op := by
  cases op with
  | initActiveMover s u => exact linked_initActiveMover hw
  | allowTakeControl s target charm => exact linked_allowTakeControl hw
  | disallowTakeControl s target find => exact linked_disallowTakeControl hw
  | playerDisconnect s =>
      obtain ⟨w', hw', hlinked⟩ := playerDisconnect_spec (s := s) hw
      have hstep : w.step (.playerDisconnect s : Op F C) = w' := step_of_some hw'
      rw [hstep]
      exact iff_of_true hlinked trivial
  | updateSuppressedMover u cantControl =>
      obtain ⟨w', hw', hsame⟩ := unitUpdateSuppressedMover_spec (C := C) (u := u)
        (b := cantControl) hw
      have hstep : w.step (.updateSuppressedMover u cantControl : Op F C) = w' :=
        step_of_some hw'
      rw [hstep]
      exact iff_of_true (hsame.linked.2 hw) trivial
  | destroyUnit u => exact iff_of_true (linked_destroyUnit hw) trivial
  | allowMover s mover =>
      exact iff_of_true
        ((SameMovers.setSession s (by intro x; rfl) w).linked.2 hw : Linked (w.allowMover C s mover))
        trivial
  | disallowMover s mover =>
      exact iff_of_true ((sameMovers_disallowMover s mover w).linked.2 hw) trivial
  | setActiveMover s mover =>
      exact iff_of_true ((sameMovers_setActiveMover s mover w).linked.2 hw) trivial
  | clientSetActiveMover s guid find =>
      exact iff_of_true ((sameMovers_clientSetActiveMover s guid find w).linked.2 hw) trivial
  | clientSetNotActiveMover s =>
      exact iff_of_true ((sameMovers_clientSetNotActiveMover s w).linked.2 hw) trivial
  | resolveAllPendingChanges s =>
      exact iff_of_true ((sameMovers_resolveAllPendingChanges s w).linked.2 hw) trivial
  | sendToMover u kind => exact iff_of_true ((sameMovers_sendToMover u kind w).linked.2 hw) trivial
  | clientAck s => exact iff_of_true ((sameMovers_clientAck s w).linked.2 hw) trivial
  | receiveAck s find =>
      have hsame : SameMovers w (w.step (.receiveAck s find)) :=
        sameMovers_step fun w' hw' => sameMovers_receiveAck hw'
      exact iff_of_true (hsame.linked.2 hw) trivial

theorem linked_new : Linked (World.new : World S U G F) :=
  fun _ _ => iff_of_false (by intro h; cases h) (by intro h; cases h)

/-- The assertions of `PlayerDisconnect` in each session, and those of
`UpdateSuppressedMover` in the session that a unit refers to. -/
def AssertionsHold (C : Actors S U G) (w : World S U G F) : Prop :=
  (∀ s, (w.playerDisconnect s).isSome) ∧
    ∀ s u, (w.units u).playerMovingMe = some s → (w.updateSuppressedMover C s u).isSome

theorem Linked.assertionsHold (hw : Linked w) : AssertionsHold C w := by
  refine ⟨fun s => ?_, fun s u hu => ?_⟩
  · obtain ⟨w', hw', -⟩ := playerDisconnect_spec (s := s) hw
    rw [hw']
    rfl
  · obtain ⟨w', hw', -⟩ := updateSuppressedMover_spec (C := C) hw hu
    rw [hw']
    rfl

/-- In a run from the start, the server-active mover of each session is the unit that
refers to it, and the assertions hold, at every moment if and only if each operation
takes what it may. -/
theorem linked_and_asserted_iff (C : Actors S U G) (ops : List (Op F C)) :
    (∀ os, os <+: ops →
      Linked (os.foldl step (World.new : World S U G F)) ∧
        AssertionsHold C (os.foldl step (World.new : World S U G F))) ↔
      Along step TakesFree World.new ops := by
  refine Along.holds_iff (I := Linked) (Q := fun w => Linked w ∧ AssertionsHold C w)
    (fun w hw => ⟨hw, hw.assertionsHold⟩) ?_ ?_ linked_new
  · intro w op hw hop
    exact (linked_step hw).2 hop
  · intro w op hw hstep
    exact (linked_step hw).1 hstep.1

end

end World

/-- Units are their own GUIDs, and session 0 has player 1. -/
def numbered : Actors Nat Nat Nat := ⟨id, fun s => s + 1⟩

/-- A player charms a creature: the session has the creature now, but its player still
refers to the session, and the assertion fails as soon as the player is stunned. -/
theorem charm_leaves_player_behind :
    let ops : List (World.Op ℚ numbered) := [.initActiveMover 0 1, .allowTakeControl 0 2 true]
    let w : World Nat Nat Nat ℚ := ops.foldl World.step World.new
    (w.units 1).playerMovingMe = some 0 ∧ (w.sessions 0).serverActiveMover = some 2 ∧
      w.exec (.updateSuppressedMover 1 true : World.Op ℚ numbered) = none := by
  refine ⟨rfl, rfl, rfl⟩

end Sunstrider.Movement
