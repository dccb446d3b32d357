import Sunstrider.Proofs.InstanceBinds

/-!
# What a global reset leaves

While the manager holds its lock nothing unloads, so unbinding is what it looks like: the bind
goes, and the name on the list. A reset of a save takes away the binds of its players that are
not permanent, and those of its groups; the save goes if no bind is left.

So nobody is bound after a global reset, and no save is left, exactly when nobody was bound
permanently.
-/

set_option linter.unusedSectionVars false

namespace Sunstrider.Instances

namespace InstanceSaveMgr

variable {P G : Type} [DecidableEq P] [DecidableEq G]
variable {cfg : SaveConfig} {havePlayers : Nat → Bool}

variable {s s' : InstanceSaveMgr P G} {id : Nat} {map : MapDifficulty} {resetTime : Int}

/-! ## Under the lock -/

theorem unloadIfEmpty_locked (h : s.lockInstLists = true) (id : Nat) :
    s.unloadIfEmpty havePlayers id = s := by
  rw [unloadIfEmpty, h]
  split
  · rfl
  · split
    · split
      · rfl
      · rfl
    · rfl

/-- What unbinding players of one save leaves. -/
structure PlayersGone (id : Nat) (map : MapDifficulty) (gone : List P)
    (s s' : InstanceSaveMgr P G) : Prop where
  saves : s'.instanceSaveById = Function.update s.instanceSaveById id
    ((s.instanceSaveById id).map fun save =>
      { save with playerList := save.playerList.filter (· ∉ gone) })
  binds : ∀ p k, s'.playerBinds p k = if p ∈ gone ∧ k = map then none else s.playerBinds p k
  groupBinds : s'.groupBinds = s.groupBinds
  lock : s'.lockInstLists = true
  order : s'.order = s.order
  resets : s'.resets = s.resets

variable (havePlayers) in
theorem playersGone_foldl {temp : List P} (hnodup : temp.Nodup) (h : s.Linked)
    (hlock : s.lockInstLists = true)
    (hbound : ∀ p ∈ temp, ∃ perm, s.playerBinds p map = some (id, perm)) :
    let s' := temp.foldl (fun s p => s.playerUnbindInstance havePlayers p map) s
    s'.Linked ∧ PlayersGone id map temp s s' := by
  induction temp generalizing s with
  | nil =>
      refine ⟨h, ?_, by simp, rfl, hlock, rfl, rfl⟩
      simp
  | cons p temp ih =>
      obtain ⟨perm, hp⟩ := hbound p List.mem_cons_self
      obtain ⟨hpt, hnodup⟩ := List.nodup_cons.1 hnodup
      have hstep : s.playerUnbindInstance havePlayers p map = s.withoutPlayer id p map := by
        have hlock' : (s.withoutPlayer id p map).lockInstLists = true := hlock
        rw [playerUnbindInstance_eq hp]
        exact unloadIfEmpty_locked hlock' id
      have hbinds : ∀ c k, (s.withoutPlayer id p map).playerBinds c k =
          if c = p ∧ k = map then none else s.playerBinds c k :=
        fun c k => updateBind_apply s.playerBinds p map none c k
      obtain ⟨hlinked, hgone⟩ := ih hnodup (h.withoutPlayer hp) hlock (fun q hq => by
        obtain ⟨perm', hq'⟩ := hbound q (List.mem_cons_of_mem p hq)
        refine ⟨perm', ?_⟩
        rw [hbinds, if_neg (by rintro ⟨rfl, -⟩; exact hpt hq)]
        exact hq')
      intro s'
      have hs' : s' = temp.foldl (fun s p => s.playerUnbindInstance havePlayers p map)
          (s.withoutPlayer id p map) := by
        rw [← hstep]
        rfl
      rw [hs']
      refine ⟨hlinked, ?_, ?_, hgone.groupBinds, hgone.lock, hgone.order, hgone.resets⟩
      · rw [hgone.saves]
        have hsave : (s.withoutPlayer id p map).instanceSaveById =
            Function.update s.instanceSaveById id ((s.instanceSaveById id).map fun save =>
              { save with playerList := save.playerList.filter (· ≠ p) }) := rfl
        rw [hsave, Function.update_self, Function.update_idem, Option.map_map]
        congr 2
        funext save
        simp only [Function.comp_apply, List.filter_filter]
        congr 1
        refine List.filter_congr fun q _ => ?_
        by_cases hqp : q = p <;> simp [hqp]
      · intro c k
        rw [hgone.binds, hbinds]
        by_cases hct : c ∈ temp
        · by_cases hk : k = map <;> simp [hct, hk]
        · by_cases hcp : c = p <;> by_cases hk : k = map <;> simp [hct, hcp, hk]

/-- What unbinding every group of one save leaves. -/
structure GroupsGone (id : Nat) (map : MapDifficulty) (gone : List G)
    (s s' : InstanceSaveMgr P G) : Prop where
  saves : s'.instanceSaveById = Function.update s.instanceSaveById id
    ((s.instanceSaveById id).map fun save => { save with groupList := [] })
  binds : ∀ g k, s'.groupBinds g k = if g ∈ gone ∧ k = map then none else s.groupBinds g k
  playerBinds : s'.playerBinds = s.playerBinds
  lock : s'.lockInstLists = true
  order : s'.order = s.order
  resets : s'.resets = s.resets

variable (havePlayers) in
/-- The loop over the groups ends, and leaves none. -/
theorem groupsGone_unbindGroups (id : Nat) (map : MapDifficulty) (groups : List G) (h : s.Linked)
    (hlock : s.lockInstLists = true) (hgroups : s.groupsOf id = some (map, groups)) :
    ∃ s', unbindGroups havePlayers id map groups.length s = some s' ∧ s'.Linked ∧
      GroupsGone id map groups s s' := by
  obtain ⟨save, hsave, heq⟩ := Option.map_eq_some_iff.1 hgroups
  obtain ⟨rfl, rfl⟩ := Prod.mk.inj heq
  induction hlist : save.groupList generalizing s save with
  | nil =>
      refine ⟨s, ?_, h, ?_, by simp, rfl, hlock, rfl, rfl⟩
      · rw [List.length_nil, unbindGroups, if_neg]
        rw [hsave, Option.any_some, hlist]
        simp
      · rw [hsave, Option.map_some]
        funext i
        rw [Function.update_apply]
        split <;> rename_i hi
        · rw [hi, hsave]
          congr 1
          rw [← hlist]
        · rfl
  | cons g rest ih =>
      obtain ⟨perm, hg⟩ := h.groups.listed hgroups (by rw [hlist]; exact List.mem_cons_self)
      have hnodup := h.groups.nodup hgroups
      rw [hlist] at hnodup
      obtain ⟨hgr, hnodup⟩ := List.nodup_cons.1 hnodup
      have hstep : s.groupUnbindInstance havePlayers g save.mapDifficulty =
          s.withoutGroup id g save.mapDifficulty := by
        have hlock' : (s.withoutGroup id g save.mapDifficulty).lockInstLists = true := hlock
        rw [groupUnbindInstance_eq hg]
        exact unloadIfEmpty_locked hlock' id
      have hsave₁ : (s.withoutGroup id g save.mapDifficulty).instanceSaveById =
          Function.update s.instanceSaveById id (some { save with groupList := rest }) := by
        show Function.update s.instanceSaveById id ((s.instanceSaveById id).map _) = _
        rw [hsave, Option.map_some]
        congr 3
        rw [hlist, List.filter_cons_of_neg (by simp), List.filter_eq_self]
        intro x hx
        simpa using fun heq : x = g => hgr (heq ▸ hx)
      have hself : (s.withoutGroup id g save.mapDifficulty).instanceSaveById id =
          some { save with groupList := rest } := by
        rw [hsave₁, Function.update_self]
      have hbinds : ∀ c k, (s.withoutGroup id g save.mapDifficulty).groupBinds c k =
          if c = g ∧ k = save.mapDifficulty then none else s.groupBinds c k :=
        fun c k => updateBind_apply s.groupBinds g save.mapDifficulty none c k
      obtain ⟨s', hrun, hlinked, hgone⟩ := ih (s := s.withoutGroup id g save.mapDifficulty)
        (h.withoutGroup hg) hlock { save with groupList := rest }
        hself (by rw [groupsOf, hself]; rfl) rfl rfl
      refine ⟨s', ?_, hlinked, ?_, ?_, hgone.playerBinds, hgone.lock, hgone.order, hgone.resets⟩
      · rw [List.length_cons, unbindGroups, hsave]
        simp only [Option.bind_some, hlist, List.head?_cons]
        rw [hstep]
        exact hrun
      · rw [hgone.saves, hself, hsave₁, Function.update_idem, hsave]
        rfl
      · intro c k
        rw [hgone.binds, hbinds]
        dsimp only
        by_cases hc : c ∈ rest <;> by_cases hcg : c = g <;>
          by_cases hk : k = save.mapDifficulty <;> simp [hc, hcg, hk]

/-! ## One save -/

theorem getBoundInstance_of_has (s : InstanceSaveMgr P G) (p : P)
    (hmap : cfg.hasMapDifficulty map = true) :
    s.getBoundInstance cfg p map = s.playerBinds p map := by
  rw [getBoundInstance, getDownscaledMapDifficulty, if_pos hmap]

theorem Linked.lock (h : s.Linked) (b : Bool) :
    ({ s with lockInstLists := b } : InstanceSaveMgr P G).Linked :=
  ⟨h.players, h.groups, h.registered, h.nodup⟩

/-- What the reset of one save leaves. -/
structure SaveReset (id : Nat) (map : MapDifficulty) (s s' : InstanceSaveMgr P G) : Prop where
  linked : s'.Linked
  lock : s'.lockInstLists = false
  resets : s'.resets = s.resets
  playerBinds : ∀ p k, s'.playerBinds p k =
    if k = map ∧ s.playerBinds p map = some (id, false) then none else s.playerBinds p k
  groupBinds : ∀ g k, s'.groupBinds g k =
    if k = map ∧ (s.groupBinds g map).map Prod.fst = some id then none else s.groupBinds g k
  others : ∀ i, i ≠ id → s'.instanceSaveById i = s.instanceSaveById i
  deleted : ∀ save, s'.instanceSaveById id = some save → save.mapDifficulty = map →
    ∃ p, s.playerBinds p map = some (id, true)

variable (havePlayers) in
theorem resetSave_spec (h : s.Linked) {save : InstanceSave P G}
    (hsave : s.instanceSaveById id = some save)
    (hmap : cfg.hasMapDifficulty save.mapDifficulty = true) :
    ∃ s', s.resetSave cfg havePlayers id = some s' ∧ SaveReset id save.mapDifficulty s s' := by
  have hplayersOf : s.playersOf id = some (save.mapDifficulty, save.playerList) := by
    rw [playersOf, hsave]
    rfl
  have hgroupsOf : s.groupsOf id = some (save.mapDifficulty, save.groupList) := by
    rw [groupsOf, hsave]
    rfl
  let locked : InstanceSaveMgr P G := { s with lockInstLists := true }
  have hget : ∀ p, locked.getBoundInstance cfg p save.mapDifficulty =
      s.playerBinds p save.mapDifficulty := fun p => getBoundInstance_of_has locked p hmap
  have hlisted : ∀ p, p ∈ save.playerList ↔
      (s.playerBinds p save.mapDifficulty).map Prod.fst = some id := fun p =>
    h.players.mem_iff hplayersOf
  let temp := save.playerList.filter fun p =>
    !(locked.getBoundInstance cfg p save.mapDifficulty).any Prod.snd
  have htemp : ∀ p, p ∈ temp ↔ s.playerBinds p save.mapDifficulty = some (id, false) := by
    intro p
    rw [List.mem_filter, hlisted, hget]
    cases s.playerBinds p save.mapDifficulty with
    | none => simp
    | some bind =>
        obtain ⟨i, perm⟩ := bind
        cases perm <;> simp
  obtain ⟨hlinked₁, hgone₁⟩ := playersGone_foldl havePlayers
    ((h.players.nodup hplayersOf).filter fun p =>
      !(locked.getBoundInstance cfg p save.mapDifficulty).any Prod.snd) (h.lock true) rfl
    (fun p hp => ⟨false, (htemp p).1 hp⟩)
  have hsave₁ : (temp.foldl (fun s p => s.playerUnbindInstance havePlayers p save.mapDifficulty)
      locked).instanceSaveById = Function.update s.instanceSaveById id
        (some { save with playerList := save.playerList.filter (· ∉ temp) }) := by
    rw [hgone₁.saves, show locked.instanceSaveById = s.instanceSaveById from rfl, hsave]
    rfl
  obtain ⟨s₂, hunbind, hlinked₂, hgone₂⟩ := groupsGone_unbindGroups havePlayers
    id save.mapDifficulty save.groupList hlinked₁ hgone₁.lock
    (by rw [groupsOf, hsave₁, Function.update_self]; rfl)
  have hsave₂ : s₂.instanceSaveById = Function.update s.instanceSaveById id
      (some { save with playerList := save.playerList.filter (· ∉ temp), groupList := [] }) := by
    rw [hgone₂.saves, hsave₁, Function.update_self, Function.update_idem]
    rfl
  have hself : s₂.instanceSaveById id =
      some { save with playerList := save.playerList.filter (· ∉ temp), groupList := [] } := by
    rw [hsave₂, Function.update_self]
  have hplayerBinds : ∀ p k, s₂.playerBinds p k =
      if k = save.mapDifficulty ∧ s.playerBinds p save.mapDifficulty = some (id, false) then none
      else s.playerBinds p k := by
    intro p k
    rw [hgone₂.playerBinds, hgone₁.binds]
    simp only [show (p ∈ List.filter _ save.playerList) = (p ∈ temp) from rfl, htemp, and_comm]
  have hgroupBinds : ∀ g k, s₂.groupBinds g k =
      if k = save.mapDifficulty ∧ (s.groupBinds g save.mapDifficulty).map Prod.fst = some id then
        none
      else s.groupBinds g k := by
    intro g k
    rw [hgone₂.binds, hgone₁.groupBinds]
    simp only [h.groups.mem_iff hgroupsOf, and_comm]
  have hothers : ∀ i, i ≠ id → s₂.instanceSaveById i = s.instanceSaveById i := fun i hi => by
    rw [hsave₂, Function.update_of_ne hi]
  have hresets : s₂.resets = s.resets := hgone₂.resets.trans hgone₁.resets
  have hassert : ¬ save.playerList.any (fun p =>
      (locked.getBoundInstance cfg p save.mapDifficulty).any
        fun bind => decide (bind.1 ≠ id)) = true := by
    rw [List.any_eq_true]
    rintro ⟨p, hp, hbind⟩
    rw [hget] at hbind
    obtain ⟨⟨i, perm⟩, hb, rfl⟩ := Option.map_eq_some_iff.1 ((hlisted p).1 hp)
    rw [hb] at hbind
    simp at hbind
  have hreset : s.resetSave cfg havePlayers id =
      if (!save.playerList.any fun p =>
          (locked.getBoundInstance cfg p save.mapDifficulty).any Prod.snd) = true then
        (if (s₂.instanceSaveById id).any (fun save =>
            !(save.playerList.isEmpty && save.groupList.isEmpty)) = true then none
          else some { s₂.removeInstanceSave id with lockInstLists := false })
      else some { s₂ with lockInstLists := false } := by
    rw [resetSave, hsave]
    dsimp only
    rw [if_neg hassert, hunbind]
  by_cases hperm : ∃ p, s.playerBinds p save.mapDifficulty = some (id, true)
  · -- a permanent bind keeps the save
    obtain ⟨p, hp⟩ := hperm
    refine ⟨{ s₂ with lockInstLists := false }, ?_, hlinked₂.lock false, rfl, hresets, hplayerBinds,
      hgroupBinds, hothers, fun _ _ _ => ⟨p, hp⟩⟩
    rw [hreset, if_neg]
    rw [Bool.not_eq_true', Bool.not_eq_false, List.any_eq_true]
    refine ⟨p, (hlisted p).2 (by rw [hp]; rfl), ?_⟩
    rw [hget, hp]
    rfl
  · have hall : ∀ p ∈ save.playerList, p ∈ temp := by
      intro p hp
      obtain ⟨⟨i, perm⟩, hb, rfl⟩ := Option.map_eq_some_iff.1 ((hlisted p).1 hp)
      cases perm with
      | false => exact (htemp p).2 hb
      | true => exact absurd ⟨p, hb⟩ hperm
    have hempty : save.playerList.filter (· ∉ temp) = [] := by
      rw [List.filter_eq_nil_iff]
      intro p hp
      simpa using hall p hp
    refine ⟨{ s₂.removeInstanceSave id with lockInstLists := false }, ?_, ?_, rfl, hresets,
      hplayerBinds, hgroupBinds, fun i hi => ?_, fun save' hsave' _ => ?_⟩
    · rw [hreset, if_pos, if_neg]
      · rw [hself, Option.any_some, hempty]
        simp
      · rw [Bool.not_eq_true', ← Bool.not_eq_true, List.any_eq_true]
        rintro ⟨p, hp, hkept⟩
        have hb := (htemp p).1 (hall p hp)
        rw [hget, hb] at hkept
        cases hkept
    · refine Linked.lock (hlinked₂.removeInstanceSave fun save' hsave' => ?_) false
      rw [hself] at hsave'
      cases hsave'
      exact ⟨hempty, rfl⟩
    · exact (Function.update_of_ne hi _ _).trans (hothers i hi)
    · rw [show ({ s₂.removeInstanceSave id with lockInstLists := false } :
        InstanceSaveMgr P G).instanceSaveById id = none from Function.update_self _ _ _] at hsave'
      cases hsave'

/-- A save of another map is left alone, and nobody is bound to it for this one. -/
theorem saveReset_skip (h : s.Linked) (hlock : s.lockInstLists = false)
    (hother : ∀ save, s.instanceSaveById id = some save → save.mapDifficulty ≠ map) :
    SaveReset id map s s where
  linked := h
  lock := hlock
  resets := rfl
  playerBinds := by
    intro p k
    rw [if_neg]
    rintro ⟨-, hbind⟩
    obtain ⟨l, hl, -⟩ := h.players.bound hbind
    obtain ⟨save, hsave, heq⟩ := Option.map_eq_some_iff.1 hl
    exact hother save hsave (Prod.mk.inj heq).1
  groupBinds := by
    intro g k
    rw [if_neg]
    rintro ⟨-, hbind⟩
    obtain ⟨⟨_, perm⟩, hg, rfl⟩ := Option.map_eq_some_iff.1 hbind
    obtain ⟨l, hl, -⟩ := h.groups.bound hg
    obtain ⟨save, hsave, heq⟩ := Option.map_eq_some_iff.1 hl
    exact hother save hsave (Prod.mk.inj heq).1
  others _ _ := rfl
  deleted save hsave hmap := absurd hmap (hother save hsave)

/-! ## All saves of a map -/

/-- What going through a list of saves leaves. -/
structure SavesReset (ids : List Nat) (map : MapDifficulty) (s s' : InstanceSaveMgr P G) :
    Prop where
  linked : s'.Linked
  lock : s'.lockInstLists = false
  resets : s'.resets = s.resets
  playerBinds : ∀ p k, s'.playerBinds p k =
    if k = map ∧ ∃ id ∈ ids, s.playerBinds p map = some (id, false) then none
    else s.playerBinds p k
  groupBinds : ∀ g k, s'.groupBinds g k =
    if k = map ∧ ∃ id ∈ ids, (s.groupBinds g map).map Prod.fst = some id then none
    else s.groupBinds g k
  others : ∀ i, i ∉ ids → s'.instanceSaveById i = s.instanceSaveById i
  deleted : ∀ id ∈ ids, ∀ save, s'.instanceSaveById id = some save → save.mapDifficulty = map →
    ∃ p, s.playerBinds p map = some (id, true)

theorem SaveReset.cons {ids : List Nat} {s₁ : InstanceSaveMgr P G} (h₁ : SaveReset id map s s₁)
    (h : SavesReset ids map s₁ s') (hid : id ∉ ids) : SavesReset (id :: ids) map s s' where
  linked := h.linked
  lock := h.lock
  resets := h.resets.trans h₁.resets
  playerBinds := by
    intro p k
    rw [h.playerBinds, h₁.playerBinds, h₁.playerBinds]
    by_cases hk : k = map
    · by_cases hb : s.playerBinds p map = some (id, false)
      · simp [hk, hb]
      · simp [hk, hb]
    · simp [hk]
  groupBinds := by
    intro g k
    rw [h.groupBinds, h₁.groupBinds, h₁.groupBinds]
    by_cases hk : k = map
    · by_cases hb : (s.groupBinds g map).map Prod.fst = some id
      · simp [hk, hb]
      · simp only [hk, hb, true_and, and_false, if_false, List.exists_mem_cons_iff, false_or]
    · simp [hk]
  others := by
    intro i hi
    rw [List.mem_cons, not_or] at hi
    rw [h.others i hi.2, h₁.others i hi.1]
  deleted := by
    intro i hi save hsave hmap
    rcases List.mem_cons.1 hi with rfl | hi
    · rw [h.others i hid] at hsave
      exact h₁.deleted save hsave hmap
    · obtain ⟨p, hp⟩ := h.deleted i hi save hsave hmap
      refine ⟨p, ?_⟩
      rw [h₁.playerBinds] at hp
      split at hp
      · cases hp
      · exact hp

variable (havePlayers) in
theorem resetSaves_spec (hmap : cfg.hasMapDifficulty map = true) {ids : List Nat}
    (hnodup : ids.Nodup) (h : s.Linked) (hlock : s.lockInstLists = false) :
    ∃ s', resetSaves cfg havePlayers map ids s = some s' ∧ SavesReset ids map s s' := by
  induction ids generalizing s with
  | nil =>
      exact ⟨s, rfl, h, hlock, rfl, by simp, by simp, fun _ _ => rfl, by simp⟩
  | cons id ids ih =>
      obtain ⟨hid, hnodup⟩ := List.nodup_cons.1 hnodup
      rw [resetSaves]
      split <;> rename_i hof
      · obtain ⟨save, hsave, heq⟩ := (Option.any_eq_true _ _).1 hof
        obtain rfl := of_decide_eq_true heq
        obtain ⟨s₁, hreset, h₁⟩ := resetSave_spec havePlayers h hsave hmap
        obtain ⟨s', hrest, h'⟩ := ih hnodup h₁.linked h₁.lock
        refine ⟨s', ?_, h₁.cons h' hid⟩
        rw [hreset]
        exact hrest
      · obtain ⟨s', hrest, h'⟩ := ih hnodup h hlock
        refine ⟨s', hrest, (saveReset_skip h hlock fun save hsave heq => hof ?_).cons h' hid⟩
        rw [hsave, Option.any_some]
        exact decide_eq_true heq

/-! ## The global reset -/

/-- Nobody is bound for the map and difficulty, and no save of it is left. -/
structure Unbound (s : InstanceSaveMgr P G) (map : MapDifficulty) : Prop where
  players : ∀ p, s.playerBinds p map = none
  groups : ∀ g, s.groupBinds g map = none
  saves : ∀ id save, s.instanceSaveById id = some save → save.mapDifficulty ≠ map

/-- A reset of the map takes place: the map has instances and a next reset time. -/
def TakesPlace (cfg : SaveConfig) (map : MapDifficulty) (resetTime : Int) : Prop :=
  cfg.instanceable map = true ∧
    ResetState.getSubsequentResetTime cfg.toResetConfig map resetTime ≠ 0

theorem TakesPlace.has (h : TakesPlace cfg map resetTime) : cfg.hasMapDifficulty map = true := by
  refine cfg.known map ?_
  have hnext := h.2
  rw [ResetState.getSubsequentResetTime] at hnext
  split at hnext <;> rename_i hperiod
  · exact absurd rfl hnext
  · rw [hperiod]
    rfl

/-- A global reset without one: nothing happens. -/
theorem resetOrWarnAll_of_not (h : ¬ TakesPlace cfg map resetTime) :
    s.resetOrWarnAll cfg havePlayers map false resetTime = some s := by
  rw [resetOrWarnAll]
  split <;> rename_i hinst
  · rfl
  · rw [if_neg Bool.false_ne_true]
    have hnext : ResetState.getSubsequentResetTime cfg.toResetConfig map resetTime = 0 := by
      by_contra hne
      exact h ⟨by simpa using hinst, hne⟩
    dsimp only
    rw [if_pos hnext]

variable (havePlayers) in
/-- A global reset goes through every save, and then needs a stored reset time. -/
theorem resetOrWarnAll_spec (h : s.Linked) (hlock : s.lockInstLists = false)
    (htakes : TakesPlace cfg map resetTime) :
    (s.resets.resetTimeByMapDifficulty map = none ∧
        s.resetOrWarnAll cfg havePlayers map false resetTime = none) ∨
      ∃ s₁ resets, (s.resets.resetTimeByMapDifficulty map).isSome ∧
        SavesReset s.order map s s₁ ∧
        s.resetOrWarnAll cfg havePlayers map false resetTime = some { s₁ with resets := resets } := by
  obtain ⟨s₁, hsaves, h₁⟩ := resetSaves_spec havePlayers htakes.has h.nodup h hlock
  rw [resetOrWarnAll, htakes.1, Bool.not_true, if_neg Bool.false_ne_true,
    if_neg Bool.false_ne_true]
  dsimp only
  rw [if_neg htakes.2, hsaves]
  dsimp only
  rw [ResetState.setResetTimeFor, h₁.resets]
  cases hstored : s.resets.resetTimeByMapDifficulty map with
  | none => exact Or.inl ⟨rfl, rfl⟩
  | some old => exact Or.inr ⟨s₁, _, rfl, h₁, rfl⟩

/-! Binds and lists agree at every moment: the manager starts without saves, and every call
keeps it so. -/

theorem lock_unloadIfEmpty (s : InstanceSaveMgr P G) (id : Nat) :
    (s.unloadIfEmpty havePlayers id).lockInstLists = s.lockInstLists := by
  rw [unloadIfEmpty]
  split
  · rfl
  · split
    · split
      · rfl
      · split <;> rfl
    · rfl

theorem lock_mapSave (s : InstanceSaveMgr P G) (id : Nat)
    (f : InstanceSave P G → InstanceSave P G) :
    (s.mapSave id f).lockInstLists = s.lockInstLists := rfl

theorem lock_playerBindToInstance (s : InstanceSaveMgr P G) (p : P) (id : Nat)
    (permanent : Bool) :
    (s.playerBindToInstance havePlayers p id permanent).lockInstLists = s.lockInstLists := by
  rw [playerBindToInstance]
  split
  · rfl
  · show InstanceSaveMgr.lockInstLists (if _ then _ else _) = _
    split
    all_goals
      try rw [lock_mapSave]
      split
      · rfl
      · rw [lock_mapSave]
        split
        · exact lock_unloadIfEmpty _ _
        · rfl

theorem lock_groupBindToInstance (s : InstanceSaveMgr P G) (g : G) (isBGGroup : Bool) (id : Nat)
    (permanent : Bool) :
    (s.groupBindToInstance havePlayers g isBGGroup id permanent).lockInstLists =
      s.lockInstLists := by
  rw [groupBindToInstance]
  split
  · rfl
  · split
    · rfl
    · show InstanceSaveMgr.lockInstLists (if _ then _ else _) = _
      split
      · rfl
      · rw [lock_mapSave]
        split
        · exact lock_unloadIfEmpty _ _
        · rfl

theorem step_linked (h : s.Linked) (hlock : s.lockInstLists = false)
    {call : (Nat → Bool) × Op P G} (hstep : s.step cfg call = some s') :
    s'.Linked ∧ s'.lockInstLists = false := by
  obtain ⟨havePlayers, op⟩ := call
  cases op with
  | addInstanceSave map id canReset =>
      cases hstep
      refine ⟨h.addInstanceSave map id canReset, ?_⟩
      rw [addInstanceSave]
      split <;> exact hlock
  | playerBindToInstance p id permanent =>
      cases hstep
      exact ⟨h.playerBindToInstance havePlayers p id permanent,
        (lock_playerBindToInstance s p id permanent).trans hlock⟩
  | playerUnbindInstance p map =>
      cases hstep
      refine ⟨h.playerUnbindInstance havePlayers p map, ?_⟩
      cases hb : s.playerBinds p map with
      | none =>
          rw [playerUnbindInstance, hb]
          exact hlock
      | some bind =>
          rw [playerUnbindInstance_eq hb]
          exact (lock_unloadIfEmpty _ _).trans hlock
  | groupBindToInstance g isBGGroup id permanent =>
      cases hstep
      exact ⟨h.groupBindToInstance havePlayers g isBGGroup id permanent,
        (lock_groupBindToInstance s g isBGGroup id permanent).trans hlock⟩
  | groupUnbindInstance g map =>
      cases hstep
      refine ⟨h.groupUnbindInstance havePlayers g map, ?_⟩
      cases hb : s.groupBinds g map with
      | none =>
          rw [groupUnbindInstance, hb]
          exact hlock
      | some bind =>
          rw [groupUnbindInstance_eq hb]
          exact (lock_unloadIfEmpty _ _).trans hlock
  | resetOrWarnAll map warn resetTime =>
      replace hstep : s.resetOrWarnAll cfg havePlayers map warn resetTime = some s' := hstep
      cases warn with
      | true =>
          rw [resetOrWarnAll, if_pos rfl, ite_self] at hstep
          cases hstep
          exact ⟨h, hlock⟩
      | false =>
          by_cases htakes : TakesPlace cfg map resetTime
          · rcases resetOrWarnAll_spec havePlayers h hlock htakes with
              ⟨-, hfail⟩ | ⟨s₁, resets, -, h₁, hrun⟩
            · rw [hfail] at hstep
              cases hstep
            · rw [hrun] at hstep
              cases hstep
              exact ⟨⟨h₁.linked.players, h₁.linked.groups, h₁.linked.registered,
                h₁.linked.nodup⟩, h₁.lock⟩
          · rw [resetOrWarnAll_of_not htakes] at hstep
            cases hstep
            exact ⟨h, hlock⟩

variable (cfg) in
theorem run_linked (h : s.Linked) (hlock : s.lockInstLists = false)
    {calls : List ((Nat → Bool) × Op P G)} (hrun : run cfg s calls = some s') :
    s'.Linked ∧ s'.lockInstLists = false := by
  induction calls generalizing s with
  | nil =>
      cases hrun
      exact ⟨h, hlock⟩
  | cons call calls ih =>
      obtain ⟨s₁, hstep, hrest⟩ := Option.bind_eq_some_iff.1 hrun
      obtain ⟨h₁, hlock₁⟩ := step_linked h hlock hstep
      exact ih h₁ hlock₁ hrest

/-- The server survives a global reset that leaves nobody bound and no save registered exactly
when the reset takes place, its reset time is stored and no loaded player is bound permanently;
or when there was nothing to do. -/
theorem resetOrWarnAll_unbound_iff {s : InstanceSaveMgr P G} (h : s.Linked)
    (hlock : s.lockInstLists = false) (havePlayers : Nat → Bool) (map : MapDifficulty)
    (resetTime : Int) :
    (∃ s', s.resetOrWarnAll cfg havePlayers map false resetTime = some s' ∧ s'.Unbound map) ↔
      (TakesPlace cfg map resetTime ∧ (s.resets.resetTimeByMapDifficulty map).isSome ∧
        ∀ p id, s.playerBinds p map ≠ some (id, true)) ∨
      (¬ TakesPlace cfg map resetTime ∧ s.Unbound map) := by
  by_cases htakes : TakesPlace cfg map resetTime
  · have hregistered : ∀ {id save}, s.instanceSaveById id = some save → id ∈ s.order := by
      intro id save hsave
      rw [h.registered, hsave]
      rfl
    rcases resetOrWarnAll_spec havePlayers h hlock htakes with
      ⟨hnone, hfail⟩ | ⟨s₁, resets, hstored, h₁, hrun⟩
    · rw [hfail, hnone]
      simp [htakes]
    · rw [hrun]
      constructor
      · rintro ⟨s', heq, hunbound⟩
        cases heq
        refine Or.inl ⟨htakes, hstored, fun p id hp => ?_⟩
        -- the permanent bind is still there
        have hnone : s₁.playerBinds p map = none := hunbound.players p
        rw [h₁.playerBinds, hp, if_neg] at hnone
        · cases hnone
        · rintro ⟨-, i, -, heq⟩
          cases heq
      · rintro (⟨-, -, hperm⟩ | ⟨hno, -⟩)
        · refine ⟨_, rfl, ?_, ?_, ?_⟩
          · intro p
            show s₁.playerBinds p map = none
            rw [h₁.playerBinds]
            cases hp : s.playerBinds p map with
            | none => simp
            | some bind =>
                obtain ⟨id, perm⟩ := bind
                obtain ⟨l, hl, -⟩ := h.players.bound hp
                obtain ⟨save, hsave, -⟩ := Option.map_eq_some_iff.1 hl
                cases perm with
                | true => exact absurd hp (hperm p id)
                | false => exact if_pos ⟨rfl, id, hregistered hsave, rfl⟩
          · intro g
            show s₁.groupBinds g map = none
            rw [h₁.groupBinds]
            cases hg : s.groupBinds g map with
            | none => simp
            | some bind =>
                obtain ⟨l, hl, -⟩ := h.groups.bound hg
                obtain ⟨save, hsave, -⟩ := Option.map_eq_some_iff.1 hl
                exact if_pos ⟨rfl, bind.1, hregistered hsave, rfl⟩
          · intro id save hsave hmap
            by_cases hid : id ∈ s.order
            · obtain ⟨p, hp⟩ := h₁.deleted id hid save hsave hmap
              exact hperm p id hp
            · rw [show s₁.instanceSaveById id = _ from h₁.others id hid] at hsave
              exact hid (hregistered hsave)
        · exact absurd htakes hno
  · rw [resetOrWarnAll_of_not htakes]
    simp [htakes]

/-! ## A raid with two players -/

/-- One raid, reset every week at four o'clock. -/
def weekly : SaveConfig where
  instanceable _ := true
  resetPeriod _ := some 604800
  resetHour := 4
  hasMapDifficulty _ := true
  known _ _ := rfl

def noResets : ResetState where
  queue := []
  resetTimeByMapDifficulty _ := some 43200
  nextTag := 0
  handled := []

/-- Two players and a group enter a raid. -/
def raidCalls : List ((Nat → Bool) × Op (Fin 2) Unit) :=
  [(fun _ => false, .addInstanceSave (533, 0) 7 true),
    (fun _ => false, .playerBindToInstance 0 7 false),
    (fun _ => false, .playerBindToInstance 1 7 false),
    (fun _ => false, .groupBindToInstance () false 7 false)]

/-- The same raid after a boss: one player is bound permanently. -/
def bossCalls : List ((Nat → Bool) × Op (Fin 2) Unit) :=
  raidCalls ++ [(fun _ => false, .playerBindToInstance 0 7 true)]

def raid : InstanceSaveMgr (Fin 2) Unit :=
  (run weekly (init noResets) raidCalls).getD (init noResets)

def afterBoss : InstanceSaveMgr (Fin 2) Unit :=
  (run weekly (init noResets) bossCalls).getD (init noResets)

theorem raid_unbound_after_reset :
    ∃ s', raid.resetOrWarnAll weekly (fun _ => false) (533, 0) false 43200 = some s' ∧
      s'.Unbound (533, 0) := by
  have hrun : run weekly (init noResets) raidCalls = some raid := rfl
  obtain ⟨h, hlock⟩ := run_linked weekly (init_linked noResets) rfl hrun
  have htemporary : ∀ p, raid.playerBinds p (533, 0) = some (7, false) := by decide
  refine (resetOrWarnAll_unbound_iff h hlock (fun _ => false) (533, 0) 43200).2
    (Or.inl ⟨⟨rfl, by decide⟩, rfl, fun p id hp => ?_⟩)
  rw [htemporary p] at hp
  cases hp

/-- The player is still bound to the raid after its reset. -/
theorem afterBoss_still_bound :
    ¬ ∃ s', afterBoss.resetOrWarnAll weekly (fun _ => false) (533, 0) false 43200 = some s' ∧
      s'.Unbound (533, 0) := by
  rintro ⟨s', hrun, hunbound⟩
  have hbind : (afterBoss.resetOrWarnAll weekly (fun _ => false) (533, 0) false 43200).map
      (fun s => s.playerBinds 0 (533, 0)) = some (some (7, true)) := by rfl
  rw [hrun, Option.map_some, hunbound.players 0] at hbind
  cases hbind

end InstanceSaveMgr

end Sunstrider.Instances
