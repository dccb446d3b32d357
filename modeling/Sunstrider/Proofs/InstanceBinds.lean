import Sunstrider.Instances.InstanceSaveMgr

/-!
# Binds and lists agree

Who is bound to a save is on its list, once, and whoever is on a list is bound to its save for
the save's map and difficulty. Binding and unbinding keep this, and unloading a save with empty
lists does. It is what the assertions of a reset and the end of its loop over the groups rest
on.

Players and groups are bound in the same way, so the argument is made once, about anything that
can be bound.
-/

set_option linter.unusedSectionVars false

namespace Sunstrider.Instances

/-! ## One kind of binds -/

section Side

variable {B : Type} [DecidableEq B]

variable {b : B} {map : MapDifficulty} {id : Nat} {perm : Bool}

theorem updateBind_apply (binds : B → MapDifficulty → Option (Nat × Bool)) (b : B)
    (map : MapDifficulty) (x : Option (Nat × Bool)) (c : B) (k : MapDifficulty) :
    Function.update binds b (Function.update (binds b) map x) c k =
      if c = b ∧ k = map then x else binds c k := by
  rw [Function.update_apply]
  by_cases hc : c = b
  · subst hc
    rw [if_pos rfl, Function.update_apply]
    simp
  · simp [hc]

/-- Binds and lists of one kind agree; `lists` gives the map and the list of each save. -/
structure Agree (binds : B → MapDifficulty → Option (Nat × Bool))
    (lists : Nat → Option (MapDifficulty × List B)) : Prop where
  bound : ∀ {b map id perm}, binds b map = some (id, perm) →
    ∃ l, lists id = some (map, l) ∧ b ∈ l
  listed : ∀ {id map l b}, lists id = some (map, l) → b ∈ l →
    ∃ perm, binds b map = some (id, perm)
  nodup : ∀ {id map l}, lists id = some (map, l) → l.Nodup

theorem agree_empty : Agree (fun (_ : B) _ => none) (fun _ => none) where
  bound := by
    intro b map id perm h
    cases h
  listed := by
    intro id map l b h
    cases h
  nodup := by
    intro id map l h
    cases h

variable {binds binds' : B → MapDifficulty → Option (Nat × Bool)}
variable {lists lists' : Nat → Option (MapDifficulty × List B)}

/-- On the list of a save is who is bound to it. -/
theorem Agree.mem_iff (h : Agree binds lists) {l : List B} (hid : lists id = some (map, l)) :
    b ∈ l ↔ (binds b map).map Prod.fst = some id := by
  constructor
  · intro hb
    obtain ⟨perm, hbind⟩ := h.listed hid hb
    rw [hbind]
    rfl
  · intro hb
    obtain ⟨⟨_, perm⟩, hbind, rfl⟩ := Option.map_eq_some_iff.1 hb
    obtain ⟨l', hl', hmem⟩ := h.bound hbind
    rw [hid] at hl'
    cases hl'
    exact hmem

/-- Taking somebody off the list of the save they are bound to, and the bind away. -/
theorem Agree.unbind (h : Agree binds lists) (hb : binds b map = some (id, perm))
    (hbinds : binds' = Function.update binds b (Function.update (binds b) map none))
    (hlists : lists' = Function.update lists id ((lists id).map fun x =>
      (x.1, x.2.filter (· ≠ b)))) :
    Agree binds' lists' := by
  have hget : ∀ c k, binds' c k = if c = b ∧ k = map then none else binds c k := by
    intro c k
    rw [hbinds, updateBind_apply]
  have hlist : ∀ i, lists' i = if i = id then (lists id).map fun x => (x.1, x.2.filter (· ≠ b))
      else lists i := fun i => by rw [hlists, Function.update_apply]
  obtain ⟨lb, hlb, -⟩ := h.bound hb
  constructor
  case bound =>
    intro c k i perm' hc
    rw [hget] at hc
    split at hc <;> rename_i hne
    · cases hc
    obtain ⟨l, hl, hmem⟩ := h.bound hc
    rw [hlist]
    split <;> rename_i hi
    · subst hi
      refine ⟨l.filter (· ≠ b), by rw [hl]; rfl, List.mem_filter.2 ⟨hmem, ?_⟩⟩
      have hcb : c ≠ b := by
        rintro rfl
        rw [hl] at hlb
        cases hlb
        exact hne ⟨rfl, rfl⟩
      simpa using hcb
    · exact ⟨l, hl, hmem⟩
  case listed =>
    intro i k l c hl hmem
    rw [hlist] at hl
    split at hl <;> rename_i hi
    · subst hi
      obtain ⟨⟨k', l'⟩, hl', heq⟩ := Option.map_eq_some_iff.1 hl
      cases heq
      obtain ⟨hmem', hcb⟩ := List.mem_filter.1 hmem
      rw [hget, if_neg (by rintro ⟨rfl, -⟩; simp at hcb)]
      exact h.listed hl' hmem'
    · obtain ⟨perm', hbind⟩ := h.listed hl hmem
      rw [hget, if_neg]
      · exact ⟨perm', hbind⟩
      · -- nobody is on two lists of one map
        rintro ⟨rfl, rfl⟩
        rw [hb] at hbind
        cases hbind
        exact hi rfl
  case nodup =>
    intro i k l hl
    rw [hlist] at hl
    split at hl
    · obtain ⟨⟨k', l'⟩, hl', heq⟩ := Option.map_eq_some_iff.1 hl
      cases heq
      exact (h.nodup hl').filter _
    · exact h.nodup hl

/-- Binding somebody who is not bound for the map. -/
theorem Agree.bind (h : Agree binds lists) {l : List B} (hid : lists id = some (map, l))
    (hb : binds b map = none)
    (hbinds : binds' = Function.update binds b (Function.update (binds b) map (some (id, perm))))
    (hlists : lists' = Function.update lists id (some (map, l ++ [b]))) : Agree binds' lists' := by
  have hget : ∀ c k, binds' c k = if c = b ∧ k = map then some (id, perm) else binds c k := by
    intro c k
    rw [hbinds, updateBind_apply]
  have hlist : ∀ i, lists' i = if i = id then some (map, l ++ [b]) else lists i :=
    fun i => by rw [hlists, Function.update_apply]
  have hnot : b ∉ l := by
    intro hmem
    obtain ⟨perm', hbind⟩ := h.listed hid hmem
    rw [hb] at hbind
    cases hbind
  constructor
  case bound =>
    intro c k i perm' hc
    rw [hget] at hc
    rw [hlist]
    split at hc <;> rename_i hcb
    · obtain ⟨rfl, rfl⟩ := hcb
      cases hc
      exact ⟨l ++ [c], if_pos rfl, by simp⟩
    · obtain ⟨l', hl', hmem⟩ := h.bound hc
      split <;> rename_i hi
      · subst hi
        rw [hid] at hl'
        cases hl'
        exact ⟨_, rfl, List.mem_append_left _ hmem⟩
      · exact ⟨l', hl', hmem⟩
  case listed =>
    intro i k l' c hl' hmem
    rw [hlist] at hl'
    rw [hget]
    split at hl' <;> rename_i hi
    · subst hi
      cases hl'
      split <;> rename_i hcb
      · exact ⟨perm, rfl⟩
      · rcases List.mem_append.1 hmem with hmem | hmem
        · exact h.listed hid hmem
        · exact absurd ⟨List.mem_singleton.1 hmem, rfl⟩ hcb
    · obtain ⟨perm', hbind⟩ := h.listed hl' hmem
      rw [if_neg]
      · exact ⟨perm', hbind⟩
      · rintro ⟨rfl, rfl⟩
        rw [hb] at hbind
        cases hbind
  case nodup =>
    intro i k l' hl'
    rw [hlist] at hl'
    split at hl'
    · cases hl'
      exact List.nodup_append.2 ⟨h.nodup hid, List.nodup_singleton b, fun x hx y hy =>
        (List.mem_singleton.1 hy) ▸ fun heq => hnot (heq ▸ hx)⟩
    · exact h.nodup hl'

/-- Making a bind permanent, or not. -/
theorem Agree.rebind (h : Agree binds lists) {perm' : Bool} (hb : binds b map = some (id, perm))
    (hbinds : binds' = Function.update binds b (Function.update (binds b) map (some (id, perm')))) :
    Agree binds' lists := by
  have hget : ∀ c k, binds' c k = if c = b ∧ k = map then some (id, perm') else binds c k := by
    intro c k
    rw [hbinds, updateBind_apply]
  refine ⟨fun {c k i p} hc => ?_, fun {i k l c} hl hmem => ?_, h.nodup⟩
  · rw [hget] at hc
    split at hc <;> rename_i hcb
    · obtain ⟨rfl, rfl⟩ := hcb
      cases hc
      exact h.bound hb
    · exact h.bound hc
  · obtain ⟨p, hbind⟩ := h.listed hl hmem
    rw [hget]
    split <;> rename_i hcb
    · obtain ⟨rfl, rfl⟩ := hcb
      rw [hb] at hbind
      cases hbind
      exact ⟨perm', rfl⟩
    · exact ⟨p, hbind⟩

/-- A save with an empty list may go, or come. -/
theorem Agree.update_nil (h : Agree binds lists) (id : Nat) {x : Option (MapDifficulty × List B)}
    (hold : ∀ map l, lists id = some (map, l) → l = []) (hnew : ∀ map l, x = some (map, l) → l = [])
    (hlists : lists' = Function.update lists id x) : Agree binds lists' := by
  have hlist : ∀ i, lists' i = if i = id then x else lists i :=
    fun i => by rw [hlists, Function.update_apply]
  constructor
  case bound =>
    intro c k i perm hc
    obtain ⟨l, hl, hmem⟩ := h.bound hc
    refine ⟨l, ?_, hmem⟩
    rw [hlist, if_neg]
    · exact hl
    · rintro rfl
      rw [hold k l hl] at hmem
      cases hmem
  case listed =>
    intro i k l c hl hmem
    rw [hlist] at hl
    split at hl
    · rw [hnew k l hl] at hmem
      cases hmem
    · exact h.listed hl hmem
  case nodup =>
    intro i k l hl
    rw [hlist] at hl
    split at hl
    · rw [hnew k l hl]
      exact List.nodup_nil
    · exact h.nodup hl

end Side

namespace InstanceSaveMgr

variable {P G : Type} [DecidableEq P] [DecidableEq G]

variable {f : InstanceSave P G → InstanceSave P G} {s : InstanceSaveMgr P G} {id : Nat}
  {havePlayers : Nat → Bool} {p : P} {map : MapDifficulty} {perm : Bool} {g : G}

/-! ## Both kinds -/

def playersOf (s : InstanceSaveMgr P G) (id : Nat) : Option (MapDifficulty × List P) :=
  (s.instanceSaveById id).map fun save => (save.mapDifficulty, save.playerList)

def groupsOf (s : InstanceSaveMgr P G) (id : Nat) : Option (MapDifficulty × List G) :=
  (s.instanceSaveById id).map fun save => (save.mapDifficulty, save.groupList)

/-- Binds and lists agree, and the manager goes through the saves there are. -/
structure Linked (s : InstanceSaveMgr P G) : Prop where
  players : Agree s.playerBinds s.playersOf
  groups : Agree s.groupBinds s.groupsOf
  registered : ∀ id, id ∈ s.order ↔ (s.instanceSaveById id).isSome
  nodup : s.order.Nodup

theorem init_linked (resets : ResetState) : (init resets : InstanceSaveMgr P G).Linked where
  players := agree_empty
  groups := agree_empty
  registered := by simp [init]
  nodup := List.nodup_nil

theorem mapSave_apply (s : InstanceSaveMgr P G) (id : Nat) (f : InstanceSave P G → InstanceSave P G)
    (i : Nat) : (s.mapSave id f).instanceSaveById i =
      if i = id then (s.instanceSaveById id).map f else s.instanceSaveById i :=
  Function.update_apply _ _ _ _

theorem playersOf_mapSave (s : InstanceSaveMgr P G) (id : Nat) {l : List P → List P}
    (hmap : ∀ save, (f save).mapDifficulty = save.mapDifficulty)
    (hlist : ∀ save, (f save).playerList = l save.playerList) :
    (s.mapSave id f).playersOf =
      Function.update s.playersOf id ((s.playersOf id).map fun x => (x.1, l x.2)) := by
  funext i
  rw [playersOf, mapSave_apply, Function.update_apply]
  split <;> rename_i hi
  · rw [playersOf, Option.map_map, Option.map_map]
    congr 1
    funext save
    rw [Function.comp_apply, hmap, hlist]
    rfl
  · rfl

theorem groupsOf_mapSave (s : InstanceSaveMgr P G) (id : Nat) {l : List G → List G}
    (hmap : ∀ save, (f save).mapDifficulty = save.mapDifficulty)
    (hlist : ∀ save, (f save).groupList = l save.groupList) :
    (s.mapSave id f).groupsOf =
      Function.update s.groupsOf id ((s.groupsOf id).map fun x => (x.1, l x.2)) := by
  funext i
  rw [groupsOf, mapSave_apply, Function.update_apply]
  split <;> rename_i hi
  · rw [groupsOf, Option.map_map, Option.map_map]
    congr 1
    funext save
    rw [Function.comp_apply, hmap, hlist]
    rfl
  · rfl

theorem playersOf_mapSave_same (s : InstanceSaveMgr P G) (id : Nat)
    (hmap : ∀ save, (f save).mapDifficulty = save.mapDifficulty)
    (hlist : ∀ save, (f save).playerList = save.playerList) :
    (s.mapSave id f).playersOf = s.playersOf := by
  rw [playersOf_mapSave s id (l := fun l => l) hmap hlist, Option.map_id', Function.update_eq_self]

theorem groupsOf_mapSave_same (s : InstanceSaveMgr P G) (id : Nat)
    (hmap : ∀ save, (f save).mapDifficulty = save.mapDifficulty)
    (hlist : ∀ save, (f save).groupList = save.groupList) :
    (s.mapSave id f).groupsOf = s.groupsOf := by
  rw [groupsOf_mapSave s id (l := fun l => l) hmap hlist, Option.map_id', Function.update_eq_self]

theorem registered_mapSave (h : s.Linked) (id : Nat) (f : InstanceSave P G → InstanceSave P G)
    (i : Nat) : i ∈ (s.mapSave id f).order ↔ ((s.mapSave id f).instanceSaveById i).isSome := by
  rw [mapSave_apply]
  show i ∈ s.order ↔ _
  rw [h.registered]
  split <;> rename_i hi
  · rw [hi, Option.isSome_map]
  · rfl

theorem Linked.removeInstanceSave (h : s.Linked)
    (hempty : ∀ save, s.instanceSaveById id = some save → save.playerList = [] ∧ save.groupList =
      []) :
    (s.removeInstanceSave id).Linked where
  players := by
    refine h.players.update_nil id (x := none) (fun map l hl => ?_) (fun _ _ h => by cases h) ?_
    · obtain ⟨save, hsave, heq⟩ := Option.map_eq_some_iff.1 hl
      cases heq
      exact (hempty save hsave).1
    · funext i
      rw [playersOf, InstanceSaveMgr.removeInstanceSave]
      dsimp only
      rw [Function.update_apply, Function.update_apply]
      split <;> rfl
  groups := by
    refine h.groups.update_nil id (x := none) (fun map l hl => ?_) (fun _ _ h => by cases h) ?_
    · obtain ⟨save, hsave, heq⟩ := Option.map_eq_some_iff.1 hl
      cases heq
      exact (hempty save hsave).2
    · funext i
      rw [groupsOf, InstanceSaveMgr.removeInstanceSave]
      dsimp only
      rw [Function.update_apply, Function.update_apply]
      split <;> rfl
  registered := by
    intro i
    rw [InstanceSaveMgr.removeInstanceSave]
    dsimp only
    rw [List.mem_filter, h.registered, Function.update_apply]
    split <;> rename_i hi
    · simp [hi]
    · simp [hi]
  nodup := h.nodup.filter _

theorem Linked.unloadIfEmpty (h : s.Linked) (havePlayers : Nat → Bool) (id : Nat) :
    (s.unloadIfEmpty havePlayers id).Linked := by
  rw [InstanceSaveMgr.unloadIfEmpty]
  split <;> rename_i hsave
  · exact h
  split <;> rename_i hempty
  · split
    · exact h
    split
    · exact h
    · refine h.removeInstanceSave fun save hsave' => ?_
      rw [hsave] at hsave'
      cases hsave'
      simpa using hempty
  · exact h

/-! ## Binding and unbinding -/

theorem setPlayerBind_unloadIfEmpty (havePlayers : Nat → Bool) (s : InstanceSaveMgr P G) (id : Nat)
    (p : P) (map : MapDifficulty) (bind : Option (Nat × Bool)) :
    (s.unloadIfEmpty havePlayers id).setPlayerBind p map bind =
      (s.setPlayerBind p map bind).unloadIfEmpty havePlayers id := by
  rw [unloadIfEmpty, unloadIfEmpty, show (s.setPlayerBind p map bind).instanceSaveById =
    s.instanceSaveById from rfl]
  split
  · rfl
  · split
    · split
      · rfl
      · show _ = if s.lockInstLists = true then _ else _
        split <;> rfl
    · rfl

theorem setGroupBind_unloadIfEmpty (havePlayers : Nat → Bool) (s : InstanceSaveMgr P G) (id : Nat)
    (g : G) (map : MapDifficulty) (bind : Option (Nat × Bool)) :
    (s.unloadIfEmpty havePlayers id).setGroupBind g map bind =
      (s.setGroupBind g map bind).unloadIfEmpty havePlayers id := by
  rw [unloadIfEmpty, unloadIfEmpty, show (s.setGroupBind g map bind).instanceSaveById =
    s.instanceSaveById from rfl]
  split
  · rfl
  · split
    · split
      · rfl
      · show _ = if s.lockInstLists = true then _ else _
        split <;> rfl
    · rfl

/-- A player off a list and out of the bind, before the save may unload. -/
def withoutPlayer (s : InstanceSaveMgr P G) (id : Nat) (p : P) (map : MapDifficulty) :
    InstanceSaveMgr P G :=
  (s.mapSave id fun save =>
    { save with playerList := save.playerList.filter (· ≠ p) }).setPlayerBind p map none

def withoutGroup (s : InstanceSaveMgr P G) (id : Nat) (g : G) (map : MapDifficulty) :
    InstanceSaveMgr P G :=
  (s.mapSave id fun save =>
    { save with groupList := save.groupList.filter (· ≠ g) }).setGroupBind g map none

theorem playerUnbindInstance_eq (h : s.playerBinds p map = some (id, perm)) :
    s.playerUnbindInstance havePlayers p map =
      (s.withoutPlayer id p map).unloadIfEmpty havePlayers id := by
  rw [playerUnbindInstance, h]
  exact setPlayerBind_unloadIfEmpty havePlayers _ id p map none

theorem groupUnbindInstance_eq (h : s.groupBinds g map = some (id, perm)) :
    s.groupUnbindInstance havePlayers g map =
      (s.withoutGroup id g map).unloadIfEmpty havePlayers id := by
  rw [groupUnbindInstance, h]
  exact setGroupBind_unloadIfEmpty havePlayers _ id g map none

theorem Linked.withoutPlayer (h : s.Linked) (hb : s.playerBinds p map = some (id, perm)) :
    (s.withoutPlayer id p map).Linked where
  players := h.players.unbind hb rfl (playersOf_mapSave s id (fun _ => rfl) (fun _ => rfl))
  groups := by
    have hsame : (s.withoutPlayer id p map).groupsOf = s.groupsOf :=
      groupsOf_mapSave_same s id (f := fun save =>
        { save with playerList := save.playerList.filter (· ≠ p) }) (fun _ => rfl) fun _ => rfl
    rw [hsame]
    exact h.groups
  registered := registered_mapSave h id _
  nodup := h.nodup

theorem Linked.withoutGroup (h : s.Linked) (hb : s.groupBinds g map = some (id, perm)) :
    (s.withoutGroup id g map).Linked where
  players := by
    have hsame : (s.withoutGroup id g map).playersOf = s.playersOf :=
      playersOf_mapSave_same s id (f := fun save =>
        { save with groupList := save.groupList.filter (· ≠ g) }) (fun _ => rfl) fun _ => rfl
    rw [hsame]
    exact h.players
  groups := h.groups.unbind hb rfl (groupsOf_mapSave s id (fun _ => rfl) (fun _ => rfl))
  registered := registered_mapSave h id _
  nodup := h.nodup

theorem Linked.playerUnbindInstance (h : s.Linked) (havePlayers : Nat → Bool) (p : P)
    (map : MapDifficulty) : (s.playerUnbindInstance havePlayers p map).Linked := by
  cases hb : s.playerBinds p map with
  | none =>
      rw [InstanceSaveMgr.playerUnbindInstance, hb]
      exact h
  | some bind =>
      rw [playerUnbindInstance_eq hb]
      exact (h.withoutPlayer hb).unloadIfEmpty havePlayers bind.1

theorem Linked.groupUnbindInstance (h : s.Linked) (havePlayers : Nat → Bool) (g : G)
    (map : MapDifficulty) : (s.groupUnbindInstance havePlayers g map).Linked := by
  cases hb : s.groupBinds g map with
  | none =>
      rw [InstanceSaveMgr.groupUnbindInstance, hb]
      exact h
  | some bind =>
      rw [groupUnbindInstance_eq hb]
      exact (h.withoutGroup hb).unloadIfEmpty havePlayers bind.1

theorem unloadIfEmpty_of_ne {i : Nat} (hne : i ≠ id) :
    (s.unloadIfEmpty havePlayers id).instanceSaveById i = s.instanceSaveById i := by
  rw [unloadIfEmpty]
  split
  · rfl
  · split
    · split
      · rfl
      · split
        · rfl
        · exact Function.update_of_ne hne _ _
    · rfl

theorem playerBinds_unloadIfEmpty (havePlayers : Nat → Bool) (s : InstanceSaveMgr P G) (id : Nat) :
    (s.unloadIfEmpty havePlayers id).playerBinds = s.playerBinds := by
  rw [unloadIfEmpty]
  split
  · rfl
  · split
    · split
      · rfl
      · split <;> rfl
    · rfl

theorem groupBinds_unloadIfEmpty (havePlayers : Nat → Bool) (s : InstanceSaveMgr P G) (id : Nat) :
    (s.unloadIfEmpty havePlayers id).groupBinds = s.groupBinds := by
  rw [unloadIfEmpty]
  split
  · rfl
  · split
    · split
      · rfl
      · split <;> rfl
    · rfl

/-- Off every list of the map: what a bind to another save finds. -/
theorem playerUnbindInstance_spec (havePlayers : Nat → Bool) (p : P) (map : MapDifficulty)
    (hid : (s.playerBinds p map).map Prod.fst ≠ some id) :
    (s.playerUnbindInstance havePlayers p map).playerBinds p map = none ∧
      (s.playerUnbindInstance havePlayers p map).instanceSaveById id = s.instanceSaveById id := by
  cases hb : s.playerBinds p map with
  | none =>
      rw [playerUnbindInstance, hb]
      exact ⟨hb, rfl⟩
  | some bind =>
      rw [hb, Option.map_some, ne_eq, Option.some.injEq] at hid
      rw [playerUnbindInstance_eq hb, playerBinds_unloadIfEmpty,
        unloadIfEmpty_of_ne (Ne.symm hid)]
      refine ⟨(updateBind_apply s.playerBinds p map none p map).trans (if_pos ⟨rfl, rfl⟩), ?_⟩
      exact (mapSave_apply s bind.1 _ id).trans (if_neg (Ne.symm hid))

theorem groupUnbindInstance_spec (havePlayers : Nat → Bool) (g : G) (map : MapDifficulty)
    (hid : (s.groupBinds g map).map Prod.fst ≠ some id) :
    (s.groupUnbindInstance havePlayers g map).groupBinds g map = none ∧
      (s.groupUnbindInstance havePlayers g map).instanceSaveById id = s.instanceSaveById id := by
  cases hb : s.groupBinds g map with
  | none =>
      rw [groupUnbindInstance, hb]
      exact ⟨hb, rfl⟩
  | some bind =>
      rw [hb, Option.map_some, ne_eq, Option.some.injEq] at hid
      rw [groupUnbindInstance_eq hb, groupBinds_unloadIfEmpty,
        unloadIfEmpty_of_ne (Ne.symm hid)]
      refine ⟨(updateBind_apply s.groupBinds g map none g map).trans (if_pos ⟨rfl, rfl⟩), ?_⟩
      exact (mapSave_apply s bind.1 _ id).trans (if_neg (Ne.symm hid))

/-- Setting a bind covers what was set before. -/
theorem setPlayerBind_again (s : InstanceSaveMgr P G) (p : P) (map : MapDifficulty)
    (x y : Option (Nat × Bool)) :
    (s.setPlayerBind p map x).setPlayerBind p map y = s.setPlayerBind p map y := by
  rw [setPlayerBind, setPlayerBind, setPlayerBind]
  simp

theorem setGroupBind_again (s : InstanceSaveMgr P G) (g : G) (map : MapDifficulty)
    (x y : Option (Nat × Bool)) :
    (s.setGroupBind g map x).setGroupBind g map y = s.setGroupBind g map y := by
  rw [setGroupBind, setGroupBind, setGroupBind]
  simp

theorem mapSave_setPlayerBind (s : InstanceSaveMgr P G) (p : P) (map : MapDifficulty)
    (x : Option (Nat × Bool)) (id : Nat) (f : InstanceSave P G → InstanceSave P G) :
    (s.setPlayerBind p map x).mapSave id f = (s.mapSave id f).setPlayerBind p map x := rfl

theorem mapSave_setGroupBind (s : InstanceSaveMgr P G) (g : G) (map : MapDifficulty)
    (x : Option (Nat × Bool)) (id : Nat) (f : InstanceSave P G → InstanceSave P G) :
    (s.setGroupBind g map x).mapSave id f = (s.mapSave id f).setGroupBind g map x := rfl

/-- `SetCanReset` concerns no list. -/
theorem Linked.mapSave (h : s.Linked) (id : Nat)
    (hmap : ∀ save, (f save).mapDifficulty = save.mapDifficulty)
    (hplayers : ∀ save, (f save).playerList = save.playerList)
    (hgroups : ∀ save, (f save).groupList = save.groupList) : (s.mapSave id f).Linked where
  players := by
    rw [playersOf_mapSave_same s id hmap hplayers]
    exact h.players
  groups := by
    rw [groupsOf_mapSave_same s id hmap hgroups]
    exact h.groups
  registered := registered_mapSave h id f
  nodup := h.nodup

/-- A new bind, for somebody who is not bound for the map. -/
theorem Linked.addPlayer (h : s.Linked) {save : InstanceSave P G}
    (hsave : s.instanceSaveById id = some save)
    (hnone : s.playerBinds p save.mapDifficulty = none) (permanent : Bool) :
    ((s.mapSave id fun save => { save with playerList := save.playerList ++ [p] }).setPlayerBind p
      save.mapDifficulty (some (id, permanent))).Linked where
  players := by
    have hid : s.playersOf id = some (save.mapDifficulty, save.playerList) := by
      rw [playersOf, hsave]
      rfl
    refine h.players.bind hid hnone rfl ?_
    refine (playersOf_mapSave s id (f := fun save =>
      { save with playerList := save.playerList ++ [p] }) (l := fun l => l ++ [p])
      (fun _ => rfl) fun _ => rfl).trans ?_
    rw [hid]
    rfl
  groups := by
    refine (groupsOf_mapSave_same s id (f := fun save =>
      { save with playerList := save.playerList ++ [p] }) (fun _ => rfl) fun _ => rfl).symm ▸ ?_
    exact h.groups
  registered := registered_mapSave h id _
  nodup := h.nodup

theorem Linked.addGroup (h : s.Linked) {save : InstanceSave P G}
    (hsave : s.instanceSaveById id = some save) (hnone : s.groupBinds g save.mapDifficulty = none)
    (permanent : Bool) :
    ((s.mapSave id fun save => { save with groupList := save.groupList ++ [g] }).setGroupBind g
      save.mapDifficulty (some (id, permanent))).Linked where
  players := by
    refine (playersOf_mapSave_same s id (f := fun save =>
      { save with groupList := save.groupList ++ [g] }) (fun _ => rfl) fun _ => rfl).symm ▸ ?_
    exact h.players
  groups := by
    have hid : s.groupsOf id = some (save.mapDifficulty, save.groupList) := by
      rw [groupsOf, hsave]
      rfl
    refine h.groups.bind hid hnone rfl ?_
    refine (groupsOf_mapSave s id (f := fun save =>
      { save with groupList := save.groupList ++ [g] }) (l := fun l => l ++ [g])
      (fun _ => rfl) fun _ => rfl).trans ?_
    rw [hid]
    rfl
  registered := registered_mapSave h id _
  nodup := h.nodup

theorem Linked.playerBindToInstance (h : s.Linked) (havePlayers : Nat → Bool) (p : P) (id : Nat)
    (permanent : Bool) : (s.playerBindToInstance havePlayers p id permanent).Linked := by
  rw [InstanceSaveMgr.playerBindToInstance]
  split <;> rename_i hsave
  · exact h
  rename_i save
  -- `SetCanReset` can be left for the end
  suffices hbind : ∀ s₁ : InstanceSaveMgr P G,
      (s₁.setPlayerBind p save.mapDifficulty (some (id, permanent))).Linked →
        ((if permanent = true then s₁.mapSave id fun save => { save with canReset := false }
          else s₁).setPlayerBind p save.mapDifficulty (some (id, permanent))).Linked by
    refine hbind _ ?_
    split <;> rename_i hsame
    · obtain ⟨⟨old, perm⟩, hb, rfl⟩ := Option.map_eq_some_iff.1 hsame
      exact ⟨h.players.rebind hb rfl, h.groups, h.registered, h.nodup⟩
    · obtain ⟨hnone, hkept⟩ := playerUnbindInstance_spec havePlayers p
        save.mapDifficulty hsame
      have hnew := (h.playerUnbindInstance havePlayers p save.mapDifficulty).addPlayer
        (hkept.trans hsave) hnone permanent
      cases hb : s.playerBinds p save.mapDifficulty with
      | none =>
          rw [InstanceSaveMgr.playerUnbindInstance, hb] at hnew
          exact hnew
      | some bind =>
          rw [InstanceSaveMgr.playerUnbindInstance, hb] at hnew
          dsimp only at hnew
          rw [mapSave_setPlayerBind, setPlayerBind_again] at hnew
          exact hnew
  intro s₁ h₁
  split
  · exact h₁.mapSave id (f := fun save => { save with canReset := false }) (fun _ => rfl)
      (fun _ => rfl) fun _ => rfl
  · exact h₁

theorem Linked.groupBindToInstance (h : s.Linked) (havePlayers : Nat → Bool) (g : G)
    (isBGGroup : Bool) (id : Nat) (permanent : Bool) :
    (s.groupBindToInstance havePlayers g isBGGroup id permanent).Linked := by
  rw [InstanceSaveMgr.groupBindToInstance]
  split <;> rename_i hsave
  · exact h
  rename_i save
  split
  · exact h
  dsimp only
  split <;> rename_i hsame
  · obtain ⟨⟨old, perm⟩, hb, rfl⟩ := Option.map_eq_some_iff.1 hsame
    exact ⟨h.players, h.groups.rebind hb rfl, h.registered, h.nodup⟩
  · obtain ⟨hnone, hkept⟩ := groupUnbindInstance_spec havePlayers g
      save.mapDifficulty hsame
    have hnew := (h.groupUnbindInstance havePlayers g save.mapDifficulty).addGroup
      (hkept.trans hsave) hnone permanent
    cases hb : s.groupBinds g save.mapDifficulty with
    | none =>
        rw [InstanceSaveMgr.groupUnbindInstance, hb] at hnew
        exact hnew
    | some bind =>
        rw [InstanceSaveMgr.groupUnbindInstance, hb] at hnew
        dsimp only at hnew
        rw [mapSave_setGroupBind, setGroupBind_again] at hnew
        exact hnew

theorem Linked.addInstanceSave (h : s.Linked) (map : MapDifficulty) (id : Nat) (canReset : Bool) :
    (s.addInstanceSave map id canReset).Linked := by
  rw [InstanceSaveMgr.addInstanceSave]
  split <;> rename_i hsave
  · exact h
  constructor
  case players =>
    refine h.players.update_nil id (x := some (map, [])) (fun _ l hl => ?_)
      (fun _ _ heq => by cases heq; rfl) ?_
    · rw [playersOf, hsave] at hl
      cases hl
    · funext i
      rw [playersOf]
      dsimp only
      rw [Function.update_apply, Function.update_apply]
      split <;> rfl
  case groups =>
    refine h.groups.update_nil id (x := some (map, [])) (fun _ l hl => ?_)
      (fun _ _ heq => by cases heq; rfl) ?_
    · rw [groupsOf, hsave] at hl
      cases hl
    · funext i
      rw [groupsOf]
      dsimp only
      rw [Function.update_apply, Function.update_apply]
      split <;> rfl
  case registered =>
    intro i
    dsimp only
    rw [List.mem_append, List.mem_singleton, h.registered, Function.update_apply]
    split <;> rename_i hi
    · simp [hi]
    · simp [hi]
  case nodup =>
    refine List.nodup_append.2 ⟨h.nodup, List.nodup_singleton id, fun i hi j hj => ?_⟩
    rintro rfl
    rw [List.mem_singleton.1 hj, h.registered, hsave] at hi
    cases hi

end InstanceSaveMgr

end Sunstrider.Instances
