import Sunstrider.Proofs.ReputationLoads

/-!
# What is saved comes back

A state that is neither to be saved nor to be deleted has its row, or has none and is as new
where that shows. Saving writes the states that are to be saved. But deletion goes first: a
state that was dropped has its row deleted whatever was set since, and is only written when
it is saved once more. And what a drop leaves, the flags, is gone with the row.

So a save loses something exactly if a faction is dropped that is shown or inactive other
than from the start, or is set after it was dropped and before it was saved. It also loses
that a faction which is inactive from the start no longer is.
-/

namespace Sunstrider.Reputation

variable {c : Config} {m m' : ReputationMgr} {e : FactionEntry} {f : FactionState}
  {row : SavedRow} {rows : List SavedRow} {s : Session}

/-! ## What shows of a state -/

/-- The standing, and whether the faction is visible and inactive. -/
def FactionState.shown (f : FactionState) : Int × Bool × Bool :=
  (f.standing, f.has .visible, f.has .inactive)

theorem shown_eq_iff {f f' : FactionState} : f.shown = f'.shown ↔ f.standing = f'.standing ∧
    f.has .visible = f'.has .visible ∧ f.has .inactive = f'.has .inactive := by
  unfold FactionState.shown
  rw [Prod.mk.injEq, Prod.mk.injEq]

/-- The row has what shows of the state. -/
structure RowOf (row : SavedRow) (f : FactionState) : Prop where
  standing : row.standing = f.standing
  visible : hasFlag row.flags .visible = f.has .visible
  inactive : hasFlag row.flags .inactive = f.has .inactive

theorem RowOf.of_shown {row : SavedRow} {f' : FactionState} (h : RowOf row f)
    (hshown : f'.shown = f.shown) : RowOf row f' := by
  obtain ⟨hstanding, hvisible, hinactive⟩ := shown_eq_iff.1 hshown
  exact ⟨h.standing.trans hstanding.symm, h.visible.trans hvisible.symm,
    h.inactive.trans hinactive.symm⟩

/-- The row that is written for a state. -/
def rowOf (f : FactionState) : SavedRow := ⟨f.id, f.standing, f.flags.setWidth 16⟩

theorem rowOf_rowOf (f : FactionState) : RowOf (rowOf f) f := by
  have hflag (flag : FactionFlag) : hasFlag (f.flags.setWidth 16) flag = f.has flag := by
    unfold FactionState.has hasFlag
    rw [BitVec.getLsbD_setWidth, decide_eq_true (Nat.lt_trans (bit_lt flag) (by decide)),
      Bool.true_and]
  exact ⟨rfl, hflag _, hflag _⟩

theorem has_loadState (f : FactionState) (row : SavedRow) (flag : FactionFlag) :
    (loadState c e f row).has flag =
      (({ f with standing := row.standing } : FactionState).loadFlags (c.getBaseReputation e)
        row.flags).has flag := by
  unfold loadState
  dsimp only
  split
  · rfl
  · rfl

theorem loadState_fields (f : FactionState) (row : SavedRow) :
    (loadState c e f row).standing = row.standing ∧
      (loadState c e f row).needDelete = f.needDelete := by
  have hsets := sets_loadFlags { f with standing := row.standing } (c.getBaseReputation e) row.flags
  unfold loadState
  dsimp only
  split
  · exact ⟨hsets.standing, hsets.needDelete⟩
  · exact ⟨hsets.standing, hsets.needDelete⟩

theorem inactive_loadState (row : SavedRow) (h : f.has .inactive = true) :
    (loadState c e f row).has .inactive = true := by
  rw [has_loadState, inactive_loadFlags]
  exact .inl h

/-- A row brings back the state, unless it is inactive from the start and no longer was. -/
theorem shown_loadState_iff (hf : StateOf c e f) (hrow : RowOf row f) :
    (loadState c e (newFaction c e) row).shown = f.shown ↔
      ((newFaction c e).has .inactive = true → f.has .inactive = true) := by
  have hvisible : (loadState c e (newFaction c e) row).has .visible = f.has .visible := by
    rw [Bool.eq_iff_iff, has_loadState, visible_loadFlags, hrow.visible]
    refine ⟨fun h => h.elim hf.visible And.left, fun h => ?_⟩
    exact (hf.seen h).imp_right fun hseen => ⟨h, fun hnew => hseen (hf.unseen.2 hnew)⟩
  have hinactive : (loadState c e (newFaction c e) row).has .inactive = true ↔
      (newFaction c e).has .inactive = true ∨ f.has .inactive = true := by
    rw [has_loadState, inactive_loadFlags, hrow.inactive, hrow.visible]
    refine or_congr_right' fun hnew => ⟨And.left, fun h => ⟨h, ?_⟩⟩
    obtain ⟨hseen, hshows⟩ := (hf.active h).resolve_left hnew
    exact ⟨fun hunseen => hseen (hf.unseen.2 hunseen), .inr hshows⟩
  rw [shown_eq_iff, hvisible, (loadState_fields _ _).1, hrow.standing, and_iff_right rfl,
    and_iff_right rfl, Bool.eq_iff_iff, hinactive]
  exact or_iff_right_iff_imp

/-! ## The statements -/

section

variable {l : List FactionState}

/-- Something is written for the state. -/
def Written (f : FactionState) : Prop := f.needDelete = true ∨ f.needSave = true

/-- The rows after the statements for one state. -/
theorem executeAll_statements (hid : f.id < 2 ^ 16) :
    ReputationMgr.executeAll rows (ReputationMgr.statements f) =
      if f.needDelete then rows.filter fun row => row.faction ≠ f.id
      else if f.needSave then (rows.filter fun row => row.faction ≠ f.id) ++ [rowOf f]
      else rows := by
  have hdelete : ReputationMgr.Statement.execute rows (.delete f.id) =
      rows.filter fun row => row.faction ≠ f.id := by
    rw [ReputationMgr.Statement.execute, Nat.mod_eq_of_lt hid]
  have hinsert (rows : List SavedRow) :
      ReputationMgr.Statement.execute rows (.insert (rowOf f)) = rows ++ [rowOf f] := by
    rw [ReputationMgr.Statement.execute, rowOf, Nat.mod_eq_of_lt hid]
  unfold ReputationMgr.statements ReputationMgr.executeAll
  split
  · exact hdelete
  split
  · exact (hinsert _).trans (congrArg (· ++ [rowOf f]) hdelete)
  · rfl

theorem mem_executeAll_statements (hid : f.id < 2 ^ 16) :
    row ∈ ReputationMgr.executeAll rows (ReputationMgr.statements f) ↔
      (f.needDelete = false ∧ f.needSave = true ∧ row = rowOf f) ∨
        row ∈ rows ∧ ¬ (Written f ∧ row.faction = f.id) := by
  rw [executeAll_statements hid]
  unfold Written
  cases f.needDelete with
  | true => simp
  | false =>
      cases f.needSave with
      | true => simp [or_comm]
      | false => simp

theorem keyed_executeAll_statements (hid : f.id < 2 ^ 16) (hrows : Keyed rows) :
    Keyed (ReputationMgr.executeAll rows (ReputationMgr.statements f)) := by
  have hdeleted : Keyed (rows.filter fun row => row.faction ≠ f.id) :=
    hrows.sublist (List.filter_sublist.map _)
  rw [executeAll_statements hid]
  split
  · exact hdeleted
  split
  · unfold Keyed
    rw [List.map_append, List.map_singleton]
    refine (List.perm_append_singleton _ _).nodup_iff.2 (List.nodup_cons.2 ⟨fun hmem => ?_, hdeleted⟩)
    obtain ⟨row, hrow, heq⟩ := List.mem_map.1 hmem
    exact of_decide_eq_true (List.mem_filter.1 hrow).2 heq
  · exact hrows

/-- The rows after the statements for all states. -/
def writeAll (rows : List SavedRow) (l : List FactionState) : List SavedRow :=
  ReputationMgr.executeAll rows (l.flatMap ReputationMgr.statements)

theorem writeAll_cons (f : FactionState) (l : List FactionState) :
    writeAll rows (f :: l) =
      writeAll (ReputationMgr.executeAll rows (ReputationMgr.statements f)) l := by
  unfold writeAll ReputationMgr.executeAll
  rw [List.flatMap_cons, List.foldl_append]

theorem keyed_writeAll (hids : ∀ f ∈ l, f.id < 2 ^ 16) (hrows : Keyed rows) :
    Keyed (writeAll rows l) := by
  induction l generalizing rows with
  | nil => exact hrows
  | cons f l ih =>
      rw [writeAll_cons]
      refine ih (fun x hx => hids x (List.mem_cons_of_mem _ hx)) ?_
      exact keyed_executeAll_statements (hids f List.mem_cons_self) hrows

/-- A row of no faction that is written stays as it is. -/
theorem mem_writeAll_other (hids : ∀ f ∈ l, f.id < 2 ^ 16)
    (hother : ∀ f ∈ l, f.id ≠ row.faction) : row ∈ writeAll rows l ↔ row ∈ rows := by
  induction l generalizing rows with
  | nil => exact Iff.rfl
  | cons f l ih =>
      have hne := hother f List.mem_cons_self
      rw [writeAll_cons, ih (fun x hx => hids x (List.mem_cons_of_mem _ hx))
        fun x hx => hother x (List.mem_cons_of_mem _ hx),
        mem_executeAll_statements (hids f List.mem_cons_self)]
      constructor
      · rintro (⟨-, -, heq⟩ | ⟨hrow, -⟩)
        · exact absurd (congrArg SavedRow.faction heq).symm hne
        · exact hrow
      · exact fun hrow => .inr ⟨hrow, fun h => hne h.2.symm⟩

/-- The rows of a faction are what its state has made of them. -/
theorem mem_writeAll (hids : ∀ f ∈ l, f.id < 2 ^ 16) (hdistinct : (l.map FactionState.id).Nodup)
    (hf : f ∈ l) (hrow : row.faction = f.id) :
    row ∈ writeAll rows l ↔ (f.needDelete = false ∧ f.needSave = true ∧ row = rowOf f) ∨
      row ∈ rows ∧ ¬ Written f := by
  induction l generalizing rows with
  | nil => cases hf
  | cons f' l ih =>
      rw [List.map_cons] at hdistinct
      obtain ⟨hnew, hdistinct⟩ := List.nodup_cons.1 hdistinct
      have hidsl : ∀ f ∈ l, f.id < 2 ^ 16 := fun x hx => hids x (List.mem_cons_of_mem _ hx)
      rw [writeAll_cons]
      rcases List.mem_cons.1 hf with rfl | hf
      · rw [mem_writeAll_other hidsl fun x hx heq =>
          hnew (heq.trans hrow ▸ List.mem_map_of_mem hx),
          mem_executeAll_statements (hids f List.mem_cons_self), hrow, eq_self_iff_true, and_true]
      · have hne : row.faction ≠ f'.id := fun heq =>
          hnew (hrow.symm.trans heq ▸ List.mem_map_of_mem hf)
        rw [ih hidsl hdistinct hf, mem_executeAll_statements (hids f' List.mem_cons_self)]
        refine or_congr_right (and_congr_left fun _ => ?_)
        constructor
        · rintro (⟨-, -, heq⟩ | ⟨hmem, -⟩)
          · exact absurd (congrArg SavedRow.faction heq) hne
          · exact hmem
        · exact fun hmem => .inr ⟨hmem, fun h => hne h.2⟩

end

/-! ## Saving -/

theorem lookup_saveToDB (m : ReputationMgr) (k : Nat) :
    m.saveToDB.1.factions.lookup k = (m.factions.lookup k).map ReputationMgr.saved := by
  have hloop : ∀ (keys : List Nat) (m : ReputationMgr), keys.Nodup →
      (keys.foldl (fun m k => m.updateState k ReputationMgr.saved) m).factions.lookup k =
        if k ∈ keys then (m.factions.lookup k).map ReputationMgr.saved
        else m.factions.lookup k := by
    intro keys
    induction keys with
    | nil => exact fun _ _ => rfl
    | cons k' keys ih =>
        intro m hkeys
        obtain ⟨hnew, hkeys⟩ := List.nodup_cons.1 hkeys
        rw [List.foldl_cons, ih _ hkeys, lookup_updateState]
        by_cases heq : k = k'
        · subst heq
          rw [if_neg hnew, if_pos rfl, if_pos List.mem_cons_self]
        · rw [if_neg heq]
          by_cases hmem : k ∈ keys
          · rw [if_pos hmem, if_pos (List.mem_cons_of_mem _ hmem)]
          · rw [if_neg hmem, if_neg fun h => hmem ((List.mem_cons.1 h).resolve_left heq)]
  unfold ReputationMgr.saveToDB
  dsimp only
  rw [hloop _ m m.factions.keys_nodup]
  split
  · rfl
  · rename_i hnot
    rw [AList.lookup_eq_none.2 hnot]
    rfl

namespace Session

/-- What is so between operations: the rows are keyed, and a state that nothing is to be
written for is as its row, if it has one. -/
structure Recorded (c : Config) (s : Session) : Prop where
  sound : Sound c s.mgr
  keyed : Keyed s.rows
  rows : ∀ e ∈ c.store.entries, ∀ f, s.mgr.factions.lookup e.repListID = some f →
    ¬ Written f → ∀ row ∈ s.rows, row.faction = e.id → RowOf row f

/-- Saving and loading again brings every faction back as it shows. -/
def Reloads (c : Config) (s : Session) : Prop :=
  ∀ e ∈ c.store.entries,
    ((ReputationMgr.loadFromDB c s.save.rows).getState e).map FactionState.shown =
      (s.mgr.getState e).map FactionState.shown

/-- There is a row of the faction once it is saved. -/
def WillHaveRow (e : FactionEntry) (f : FactionState) (rows : List SavedRow) : Prop :=
  f.needDelete = false ∧ (f.needSave = true ∨ ∃ row ∈ rows, row.faction = e.id)

/-- A state that comes back as it shows. -/
def ComesBack (c : Config) (e : FactionEntry) (f : FactionState) (rows : List SavedRow) : Prop :=
  (WillHaveRow e f rows → (newFaction c e).has .inactive = true → f.has .inactive = true) ∧
    (¬ WillHaveRow e f rows → f.shown = (newFaction c e).shown)

section

variable (hids : ∀ e ∈ c.store.entries, e.id < 2 ^ 16)

theorem states_of_sound (hm : Sound c m) {p : Sigma fun _ : Nat => FactionState}
    (hp : p ∈ m.factions.entries) : ∃ e ∈ c.store.entries, e.canHaveReputation = true ∧
      e.repListID = p.1 ∧ StateOf c e p.2 :=
  hm.states p.1 p.2 (AList.mem_lookup_iff.2 hp)

theorem ids_distinct (hm : Sound c m) :
    ((m.factions.entries.map Sigma.snd).map FactionState.id).Nodup := by
  rw [List.map_map]
  refine List.pairwise_map.2 ?_
  refine (List.nodupKeys_iff_pairwise.1 m.factions.nodupKeys).imp_of_mem fun {p p'} hp hp' hne => ?_
  obtain ⟨e, he, -, hkey, hstate⟩ := states_of_sound hm hp
  obtain ⟨e', he', -, hkey', hstate'⟩ := states_of_sound hm hp'
  intro heq
  have hid : e.id = e'.id := hstate.id.symm.trans (heq.trans hstate'.id)
  have hsame : some e = some e' :=
    (lookupEntry_self he).symm.trans ((congrArg _ hid).trans (lookupEntry_self he'))
  cases hsame
  exact hne (hkey.symm.trans hkey')

theorem save_rows (s : Session) :
    s.save.rows = writeAll s.rows (s.mgr.factions.entries.map Sigma.snd) := by
  unfold writeAll
  rw [List.flatMap_map]
  rfl

include hids

theorem ids_lt (hm : Sound c m) : ∀ f ∈ m.factions.entries.map Sigma.snd, f.id < 2 ^ 16 := by
  intro f hf
  obtain ⟨p, hp, rfl⟩ := List.mem_map.1 hf
  obtain ⟨e, he, -, -, hstate⟩ := states_of_sound hm hp
  rw [hstate.id]
  exact hids e he

theorem keyed_save (h : Recorded c s) : Keyed s.save.rows := by
  rw [save_rows]
  exact keyed_writeAll (ids_lt hids h.sound) h.keyed

theorem mem_save_rows (h : Recorded c s) (he : e ∈ c.store.entries)
    (hf : s.mgr.factions.lookup e.repListID = some f) (hrow : row.faction = e.id) :
    row ∈ s.save.rows ↔ (f.needDelete = false ∧ f.needSave = true ∧ row = rowOf f) ∨
      row ∈ s.rows ∧ ¬ Written f := by
  rw [save_rows]
  refine mem_writeAll (ids_lt hids h.sound) (ids_distinct h.sound)
    (List.mem_map.2 ⟨_, AList.mem_lookup_iff.1 hf, rfl⟩) ?_
  rw [hrow, (h.sound.stateOf he hf).id]

/-- The row of a faction after a save has what shows of it. -/
theorem rowOf_of_mem_save (h : Recorded c s) (he : e ∈ c.store.entries)
    (hf : s.mgr.factions.lookup e.repListID = some f) (hrow : row.faction = e.id)
    (hmem : row ∈ s.save.rows) : RowOf row f := by
  rcases (mem_save_rows hids h he hf hrow).1 hmem with ⟨-, -, rfl⟩ | ⟨hmem, hclean⟩
  · exact rowOf_rowOf f
  · exact h.rows e he f hf hclean row hmem hrow

theorem willHaveRow_iff (h : Recorded c s) (he : e ∈ c.store.entries)
    (hf : s.mgr.factions.lookup e.repListID = some f) :
    WillHaveRow e f s.rows ↔ ∃ row ∈ s.save.rows, row.faction = e.id := by
  have hid := (h.sound.stateOf he hf).id
  unfold WillHaveRow
  constructor
  · rintro ⟨hdelete, hsaved⟩
    cases hsave : f.needSave with
    | true =>
        exact ⟨rowOf f, (mem_save_rows hids h he hf hid).2 (.inl ⟨hdelete, hsave, rfl⟩), hid⟩
    | false =>
        obtain ⟨row, hmem, hrow⟩ := hsaved.resolve_left (by rw [hsave]; decide)
        refine ⟨row, (mem_save_rows hids h he hf hrow).2 (.inr ⟨hmem, ?_⟩), hrow⟩
        rw [Written, hdelete, hsave]
        decide
  · rintro ⟨row, hmem, hrow⟩
    rcases (mem_save_rows hids h he hf hrow).1 hmem with ⟨hdelete, hsave, -⟩ | ⟨hmem, hclean⟩
    · exact ⟨hdelete, .inl hsave⟩
    · exact ⟨Bool.eq_false_iff.2 fun hdelete => hclean (.inl hdelete), .inr ⟨row, hmem, hrow⟩⟩

theorem shown_loadedState_iff (h : Recorded c s) (he : e ∈ c.store.entries)
    (hf : s.mgr.factions.lookup e.repListID = some f) :
    (loadedState c e s.save.rows).shown = f.shown ↔ ComesBack c e f s.rows := by
  unfold ComesBack
  rw [willHaveRow_iff hids h he hf, loadedState]
  cases hfind : s.save.rows.find? fun row => row.faction = e.id with
  | none =>
      have hnone : ¬ ∃ row ∈ s.save.rows, row.faction = e.id := by
        rintro ⟨row, hmem, hrow⟩
        exact List.find?_eq_none.1 hfind row hmem (decide_eq_true hrow)
      rw [and_iff_right fun hrow => absurd hrow hnone, forall_prop_of_true hnone]
      exact eq_comm
  | some row =>
      have hmem := List.mem_of_find?_eq_some hfind
      have hrow : row.faction = e.id := by simpa using List.find?_some hfind
      have hsome : ∃ row ∈ s.save.rows, row.faction = e.id := ⟨row, hmem, hrow⟩
      rw [and_iff_left fun hnot => absurd hsome hnot, forall_prop_of_true hsome]
      exact shown_loadState_iff (h.sound.stateOf he hf) (rowOf_of_mem_save hids h he hf hrow hmem)

theorem reloads_iff (h : Recorded c s) :
    Reloads c s ↔ ∀ e ∈ c.store.entries, e.canHaveReputation = true →
      ∀ f, s.mgr.factions.lookup e.repListID = some f → ComesBack c e f s.rows := by
  have hkeyed := keyed_save hids h
  unfold Reloads ReputationMgr.getState
  constructor
  · intro hall e he hcan f hf
    have hsame := hall e he
    rw [if_pos hcan, if_pos hcan, lookup_loadFromDB hkeyed he hcan, hf, Option.map_some,
      Option.map_some] at hsame
    exact (shown_loadedState_iff hids h he hf).1 (Option.some.inj hsame)
  · intro hall e he
    by_cases hcan : e.canHaveReputation = true
    · obtain ⟨f, hf⟩ := h.sound.complete e he hcan
      rw [if_pos hcan, if_pos hcan, lookup_loadFromDB hkeyed he hcan, hf, Option.map_some,
        Option.map_some, (shown_loadedState_iff hids h he hf).2 (hall e he hcan f hf)]
    · rw [if_neg hcan, if_neg hcan]

end

end Session

end Sunstrider.Reputation
