import Sunstrider.Lib.Runs
import Sunstrider.Social.SocialMgr

/-!
# The social list and its rows

The rows of a player describe the list if they are its contacts, in some order. They are
then loaded as this list, in whatever order they come, as long as there are no more than
the loading stops at.

All statements do to the rows what is done to the list but one: a note is kept in memory as
it was escaped for the statement, and the database has undone that by the time it is a
column. So the two agree on the notes that `EscapeString` leaves as they are.
-/

namespace Sunstrider.Social

open Lib Utilities

variable {assign : SocialRow → SocialRow}

/-- A row as the contact it is loaded as. -/
def entryOf (row : SocialRow) : Sigma fun _ : UInt32 => FriendInfo :=
  ⟨row.friend, ⟨row.flags.toUInt32, row.note⟩⟩

/-- The rows of the player are the contacts of the list. -/
def Describes (s : Stores) : Prop :=
  ((rowsOf s.table s.social.playerGuid).map entryOf).Perm s.social.playerSocialMap.entries

/-- The rows describe the list, and loading them gives the same contacts with the same flags
and the same notes. -/
structure Agrees (s : Stores) : Prop where
  describes : Describes s
  rebuilt : ∀ result, Selected s.table s.social.playerGuid result → ∀ friendGuid,
    (loadFromDB result s.social.playerGuid).playerSocialMap.lookup friendGuid =
      s.social.playerSocialMap.lookup friendGuid

/-- Rows that are loaded as they are: no more than the two lists have places, and one for
each contact. -/
structure Loadable (table : List SocialRow) (guid : UInt32) : Prop where
  distinct : ((rowsOf table guid).map SocialRow.friend).Nodup
  few : (rowsOf table guid).length ≤ friendLimit + ignoreLimit

/-- A contact that comes in finds a place that is loaded, and the note of a contact is one
that escaping leaves as it is. -/
def Meets (escapeString : Text → Text) (s : Stores) : Op → Prop
  | .addToSocialList friendGuid ignore =>
      limitOf ignore ≤ numberOfSocialsWithFlag s.social.playerSocialMap (flagOf ignore) ∨
        friendGuid ∈ s.social.playerSocialMap ∨
          s.social.playerSocialMap.entries.length < friendLimit + ignoreLimit
  | .removeFromSocialList _ _ => True
  | .setFriendNote friendGuid note =>
      friendGuid ∉ s.social.playerSocialMap ∨
        escapeString (utf8truncate note 48) = utf8truncate note 48

variable {escapeString literal : Text → Text} {s : Stores} {table rows result : List SocialRow}
  {guid friendGuid : UInt32} {map : PlayerSocialMap} {fi : FriendInfo}

/-! ## Loading -/

theorem map_fst_entryOf (rows : List SocialRow) :
    (rows.map entryOf).keys = rows.map SocialRow.friend := by
  rw [List.keys, List.map_map]
  rfl

/-- Rows of other contacts than there are already come in, all of them if there is room. -/
theorem loadLoop_perm (hdistinct : (rows.map SocialRow.friend).Nodup)
    (hnew : ∀ row ∈ rows, row.friend ∉ map)
    (hfew : map.entries.length + rows.length ≤ friendLimit + ignoreLimit) :
    (loadLoop map rows).entries.Perm (rows.map entryOf ++ map.entries) := by
  induction rows generalizing map with
  | nil => exact .refl _
  | cons row rows ih =>
      rw [List.map_cons] at hdistinct
      obtain ⟨hrow, hrest⟩ := List.nodup_cons.1 hdistinct
      have hentries : (map.insert row.friend ⟨row.flags.toUInt32, row.note⟩).entries =
          entryOf row :: map.entries :=
        AList.entries_insert_of_notMem (hnew row List.mem_cons_self)
      rw [List.length_cons] at hfew
      rw [loadLoop]
      split
      · -- the last place is taken, so that this was the last row
        rename_i hfull
        rw [hentries, List.length_cons] at hfull
        have hnil : rows = [] := List.length_eq_zero_iff.1 (by omega)
        rw [hentries, hnil]
        exact .refl _
      · refine (ih hrest ?_ ?_).trans ?_
        · intro other hother
          rw [AList.mem_insert]
          rintro (heq | hmem)
          · exact hrow (heq ▸ List.mem_map_of_mem hother)
          · exact hnew other (List.mem_cons_of_mem _ hother) hmem
        · rw [hentries, List.length_cons]
          omega
        · rw [hentries]
          exact List.perm_middle

theorem length_loadLoop (hfew : map.entries.length < friendLimit + ignoreLimit) :
    (loadLoop map rows).entries.length ≤ friendLimit + ignoreLimit := by
  induction rows generalizing map with
  | nil => exact Nat.le_of_lt hfew
  | cons row rows ih =>
      have hone : (map.insert row.friend ⟨row.flags.toUInt32, row.note⟩).entries.length ≤
          map.entries.length + 1 := by
        rw [AList.entries_insert, List.length_cons]
        exact Nat.succ_le_succ (List.kerase_sublist _ _).length_le
      rw [loadLoop]
      split
      · omega
      · exact ih (Nat.not_le.1 ‹_›)

theorem length_loadFromDB :
    (loadFromDB result guid).playerSocialMap.entries.length ≤ friendLimit + ignoreLimit :=
  length_loadLoop (by decide)

/-- A list whose rows are loadable is loaded, in whatever order the rows come. -/
theorem loadFromDB_perm (h : Loadable table guid) (hresult : Selected table guid result) :
    ((rowsOf table guid).map entryOf).Perm (loadFromDB result guid).playerSocialMap.entries := by
  obtain ⟨rows, hperm, rfl⟩ := hresult
  have hlength : rows.length ≤ friendLimit + ignoreLimit := hperm.length_eq ▸ h.few
  rw [List.take_of_length_le (Nat.le_trans hlength (by decide))]
  have hload : (loadLoop ∅ rows).entries.Perm (rows.map entryOf ++ []) := by
    refine loadLoop_perm ((hperm.map _).nodup_iff.2 h.distinct) (fun _ _ => AList.notMem_empty _) ?_
    rw [AList.empty_entries, List.length_nil, Nat.zero_add]
    exact hlength
  rw [List.append_nil] at hload
  exact (hperm.map entryOf).symm.trans hload.symm

theorem Describes.length_rows (h : Describes s) :
    (rowsOf s.table s.social.playerGuid).length = s.social.playerSocialMap.entries.length := by
  rw [← List.Perm.length_eq h, List.length_map]

theorem Describes.loadable (h : Describes s)
    (hfew : s.social.playerSocialMap.entries.length ≤ friendLimit + ignoreLimit) :
    Loadable s.table s.social.playerGuid := by
  refine ⟨?_, h.length_rows ▸ hfew⟩
  rw [← map_fst_entryOf]
  exact (h.map Sigma.fst).nodup_iff.2 s.social.playerSocialMap.nodupKeys

theorem agrees_iff : Agrees s ↔ Describes s ∧
    s.social.playerSocialMap.entries.length ≤ friendLimit + ignoreLimit := by
  constructor
  · intro h
    refine ⟨h.describes, ?_⟩
    have hsame := h.rebuilt _ ⟨_, .refl _, rfl⟩
    have hperm := List.lookup_ext (AList.nodupKeys _) s.social.playerSocialMap.nodupKeys
      fun friendGuid fi => Iff.of_eq (congrArg (fi ∈ ·) (hsame friendGuid))
    rw [← hperm.length_eq]
    exact length_loadFromDB
  · rintro ⟨hdescribes, hfew⟩
    refine ⟨hdescribes, fun result hresult friendGuid => AList.perm_lookup ?_⟩
    exact (loadFromDB_perm (hdescribes.loadable hfew) hresult).symm.trans hdescribes

/-! ## Lists of contacts -/

section

variable {α : Type} {β : α → Type} [DecidableEq α] {a : α} {b : β a} {l : List (Sigma β)}

theorem kerase_eq_filter (h : l.NodupKeys) : l.kerase a = l.filter fun e => ! (e.1 == a) := by
  induction l with
  | nil => rfl
  | cons e l ih =>
      obtain ⟨he, hl⟩ := List.nodupKeys_cons.1 h
      by_cases heq : a = e.1
      · subst heq
        rw [List.kerase_cons_eq rfl, List.filter_cons_of_neg (by simp)]
        refine (List.filter_eq_self.2 fun e' he' => ?_).symm
        have hne : e'.1 ≠ e.1 := fun h => he (h ▸ List.mem_keys_of_mem he')
        simpa using hne
      · rw [List.kerase_cons_ne heq, List.filter_cons, if_pos (by simpa using Ne.symm heq), ih hl]

/-- The one value of a key is replaced. -/
theorem map_perm_kinsert (h : l.NodupKeys) (hb : ⟨a, b⟩ ∈ l) {f : Sigma β → Sigma β} {b' : β a}
    (hself : f ⟨a, b⟩ = ⟨a, b'⟩) (hother : ∀ e ∈ l, e.1 ≠ a → f e = e) :
    (l.map f).Perm (l.kinsert a b') := by
  induction l with
  | nil => cases hb
  | cons e l ih =>
      obtain ⟨he, hl⟩ := List.nodupKeys_cons.1 h
      rw [List.kinsert_def, List.map_cons]
      rcases List.mem_cons.1 hb with rfl | hmem
      · have hnew : ∀ e ∈ l, e.1 ≠ a := fun e hmem heq => by
          have hkey : e.1 ∈ l.keys := List.mem_keys_of_mem hmem
          rw [heq] at hkey
          exact he hkey
        have hrest : l.map f = l :=
          (List.map_congr_left fun e' he' =>
            hother e' (List.mem_cons_of_mem _ he') (hnew e' he')).trans (List.map_id l)
        have herased : List.kerase a (⟨a, b⟩ :: l) = l := List.kerase_cons_eq rfl
        rw [hself, hrest, herased]
      · have hne : a ≠ e.1 := fun heq => he (heq ▸ List.mem_keys_of_mem hmem)
        rw [List.kerase_cons_ne hne, hother e List.mem_cons_self (Ne.symm hne)]
        refine ((ih hl hmem fun e' he' => hother e' (List.mem_cons_of_mem _ he')).cons e).trans ?_
        rw [List.kinsert_def]
        exact .swap _ _ _

end

/-! ## The statements -/

theorem rowsOf_updateRows (hassign : ∀ row, (assign row).guid = row.guid) :
    rowsOf (updateRows guid friendGuid assign table) guid =
      (rowsOf table guid).map fun row => if row.friend = friendGuid then assign row else row := by
  rw [updateRows, rowsOf, List.filter_map]
  have hguid (row : SocialRow) :
      (if row.isFor guid friendGuid then assign row else row).guid = row.guid := by
    split
    · exact hassign row
    · rfl
  have hsame : table.filter ((fun row => row.guid == guid) ∘ fun row =>
      if row.isFor guid friendGuid then assign row else row) = rowsOf table guid :=
    List.filter_congr fun row _ => congrArg (· == guid) (hguid row)
  rw [hsame]
  refine List.map_congr_left fun row hrow => ?_
  have hmine : (row.guid == guid) = true := (List.mem_filter.1 hrow).2
  have hfor : row.isFor guid friendGuid = true ↔ row.friend = friendGuid := by
    rw [SocialRow.isFor, hmine, Bool.true_and, beq_iff_eq]
  by_cases heq : row.friend = friendGuid
  · rw [if_pos (hfor.2 heq), if_pos heq]
  · rw [if_neg fun h => heq (hfor.1 h), if_neg heq]

theorem rowsOf_delete :
    rowsOf ((Statement.delete guid friendGuid).execute literal table) guid =
      (rowsOf table guid).filter fun row => ! (row.friend == friendGuid) := by
  rw [Statement.execute, rowsOf, rowsOf, List.filter_filter, List.filter_filter]
  refine List.filter_congr fun row _ => ?_
  rw [SocialRow.isFor]
  cases row.guid == guid with
  | false => rw [Bool.false_and, Bool.and_false]
  | true => rw [Bool.true_and, Bool.true_and, Bool.and_true]

/-- The flag of a list is the same in the byte of a row. -/
theorem toUInt32_flagOf (ignore : Bool) : (flagOf ignore).toUInt8.toUInt32 = flagOf ignore := by
  cases ignore with
  | false => rfl
  | true => rfl

theorem describes_delete (h : Describes s) :
    Describes ⟨{ s.social with playerSocialMap := s.social.playerSocialMap.erase friendGuid },
      (Statement.delete s.social.playerGuid friendGuid).execute literal s.table⟩ := by
  unfold Describes
  rw [rowsOf_delete]
  have hfilter := h.filter fun e => ! (e.1 == friendGuid)
  rw [← kerase_eq_filter s.social.playerSocialMap.nodupKeys, List.filter_map] at hfilter
  exact hfilter

theorem describes_insert (h : Describes s) (hnot : friendGuid ∉ s.social.playerSocialMap)
    {ignore : Bool} :
    Describes ⟨{ s.social with
        playerSocialMap := s.social.playerSocialMap.insert friendGuid ⟨flagOf ignore, []⟩ },
      (Statement.insert s.social.playerGuid friendGuid (flagOf ignore)).execute literal
        s.table⟩ := by
  have hnone : ¬ (s.table.any fun row =>
      row.isFor s.social.playerGuid friendGuid && row.flags == (flagOf ignore).toUInt8) = true := by
    intro hany
    obtain ⟨row, hrow, hfor⟩ := List.any_eq_true.1 hany
    rw [SocialRow.isFor, Bool.and_eq_true, Bool.and_eq_true] at hfor
    have hmem : entryOf row ∈ s.social.playerSocialMap.entries :=
      h.subset (List.mem_map_of_mem (List.mem_filter.2 ⟨hrow, hfor.1.1⟩))
    have hkey := List.mem_keys_of_mem hmem
    rw [show (entryOf row).1 = friendGuid from beq_iff_eq.1 hfor.1.2] at hkey
    exact hnot hkey
  have hmine : (s.social.playerGuid == s.social.playerGuid) = true := beq_self_eq_true _
  have hentry : entryOf ⟨s.social.playerGuid, friendGuid, (flagOf ignore).toUInt8, []⟩ =
      ⟨friendGuid, ⟨flagOf ignore, []⟩⟩ := by
    rw [entryOf, toUInt32_flagOf]
  unfold Describes
  rw [AList.entries_insert_of_notMem hnot, Statement.execute, if_neg hnone, rowsOf,
    List.filter_append, List.filter_singleton, hmine, List.map_append, cond_true, List.map_singleton,
    hentry]
  exact (List.perm_append_comm).trans (List.Perm.cons _ h)

/-- What a statement sets in the rows of a contact, the list has set in the contact, if it
has set the same. -/
theorem describes_update {fi' : FriendInfo} (h : Describes s)
    (hfi : s.social.playerSocialMap.lookup friendGuid = some fi)
    (hassign : ∀ row, (assign row).guid = row.guid ∧ (assign row).friend = row.friend) :
    Describes ⟨{ s.social with playerSocialMap := s.social.playerSocialMap.insert friendGuid fi' },
        updateRows s.social.playerGuid friendGuid assign s.table⟩ ↔
      ∀ row ∈ rowsOf s.table s.social.playerGuid, row.friend = friendGuid →
        entryOf (assign row) = ⟨friendGuid, fi'⟩ := by
  unfold Describes
  rw [rowsOf_updateRows fun row => (hassign row).1, List.map_map]
  constructor
  · intro hperm row hrow hfriend
    have hkey : (assign row).friend = friendGuid := (hassign row).2.trans hfriend
    have hmem := hperm.subset (List.mem_map_of_mem hrow)
    rw [Function.comp_apply, if_pos hfriend] at hmem
    have hlookup : (s.social.playerSocialMap.insert friendGuid fi').lookup (assign row).friend =
        some ⟨(assign row).flags.toUInt32, (assign row).note⟩ := AList.mem_lookup_iff.2 hmem
    rw [hkey, AList.lookup_insert] at hlookup
    rw [entryOf, hkey, Option.some.inj hlookup]
  · intro hrows
    have hmaps : (rowsOf s.table s.social.playerGuid).map
        (entryOf ∘ fun row => if row.friend = friendGuid then assign row else row) =
        ((rowsOf s.table s.social.playerGuid).map entryOf).map fun e =>
          if e.1 = friendGuid then ⟨friendGuid, fi'⟩ else e := by
      rw [List.map_map]
      refine List.map_congr_left fun row hrow => ?_
      rw [Function.comp_apply, Function.comp_apply]
      by_cases heq : row.friend = friendGuid
      · rw [if_pos heq, hrows row hrow heq]
        exact (if_pos heq).symm
      · rw [if_neg heq]
        exact (if_neg heq).symm
    rw [hmaps]
    refine (h.map _).trans ?_
    exact map_perm_kinsert s.social.playerSocialMap.nodupKeys (AList.mem_lookup_iff.1 hfi)
      (if_pos rfl) fun e _ hne => if_neg hne

theorem Describes.row_eq (h : Describes s) {row : SocialRow}
    (hrow : row ∈ rowsOf s.table s.social.playerGuid)
    (hfi : s.social.playerSocialMap.lookup row.friend = some fi) :
    fi = ⟨row.flags.toUInt32, row.note⟩ := by
  have hmem : entryOf row ∈ s.social.playerSocialMap.entries :=
    h.subset (List.mem_map_of_mem hrow)
  have hlookup : s.social.playerSocialMap.lookup row.friend =
      some ⟨row.flags.toUInt32, row.note⟩ := AList.mem_lookup_iff.2 hmem
  exact Option.some.inj (hfi.symm.trans hlookup)

theorem Describes.exists_row (h : Describes s)
    (hfi : s.social.playerSocialMap.lookup friendGuid = some fi) :
    ∃ row ∈ rowsOf s.table s.social.playerGuid, row.friend = friendGuid := by
  obtain ⟨row, hrow, heq⟩ := List.mem_map.1 (h.symm.subset (AList.mem_lookup_iff.1 hfi))
  exact ⟨row, hrow, congrArg Sigma.fst heq⟩

theorem length_insert_of_lookup (hfi : map.lookup friendGuid = some fi) (fi' : FriendInfo) :
    (map.insert friendGuid fi').entries.length = map.entries.length := by
  have hmem : friendGuid ∈ map := AList.lookup_isSome.1 (hfi ▸ rfl)
  have hkeys := congrArg List.length (@AList.keys_insert _ _ _ friendGuid fi' map)
  rw [List.length_cons, List.length_erase_of_mem (AList.mem_keys.1 hmem)] at hkeys
  have hpos := List.length_pos_of_mem (AList.mem_keys.1 hmem)
  unfold AList.keys List.keys at hkeys hpos
  rw [List.length_map, List.length_map] at hkeys
  rw [List.length_map] at hpos
  omega

theorem toUInt32_and_not_flagOf (flags : UInt8) (ignore : Bool) :
    (flags &&& ~~~(flagOf ignore).toUInt8).toUInt32 = flags.toUInt32 &&& ~~~flagOf ignore := by
  have hbytes : ∀ n < 256, ∀ ignore : Bool,
      (UInt8.ofNat n &&& ~~~(flagOf ignore).toUInt8).toUInt32 =
        (UInt8.ofNat n).toUInt32 &&& ~~~flagOf ignore := by
    decide +kernel
  have hflags := hbytes flags.toNat flags.toNat_lt ignore
  rwa [UInt8.ofNat_toNat] at hflags

/-! ## The operations -/

/-- A contact that is set anew in the list and in its rows. -/
theorem agrees_update_iff {fi' : FriendInfo} (h : Agrees s)
    (hfi : s.social.playerSocialMap.lookup friendGuid = some fi)
    (hassign : ∀ row, (assign row).guid = row.guid ∧ (assign row).friend = row.friend) :
    Agrees ⟨{ s.social with playerSocialMap := s.social.playerSocialMap.insert friendGuid fi' },
        updateRows s.social.playerGuid friendGuid assign s.table⟩ ↔
      ∀ row ∈ rowsOf s.table s.social.playerGuid, row.friend = friendGuid →
        entryOf (assign row) = ⟨friendGuid, fi'⟩ := by
  obtain ⟨hdescribes, hfew⟩ := agrees_iff.1 h
  rw [agrees_iff, describes_update hdescribes hfi hassign]
  refine and_iff_left ?_
  show (s.social.playerSocialMap.insert friendGuid fi').entries.length ≤ _
  rw [length_insert_of_lookup hfi]
  exact hfew

theorem agrees_addToSocialList_iff (h : Agrees s) (ignore : Bool) :
    Agrees (s.step escapeString literal (.addToSocialList friendGuid ignore)) ↔
      Meets escapeString s (.addToSocialList friendGuid ignore) := by
  unfold Stores.step Op.apply PlayerSocial.addToSocialList Meets
  dsimp only
  by_cases hlimit : limitOf ignore ≤
      numberOfSocialsWithFlag s.social.playerSocialMap (flagOf ignore)
  · rw [if_pos hlimit]
    exact iff_of_true h (.inl hlimit)
  · rw [if_neg hlimit]
    cases hfi : s.social.playerSocialMap.lookup friendGuid with
    | some fi =>
        refine iff_of_true ?_ (.inr (.inl (AList.lookup_isSome.1 (hfi ▸ rfl))))
        dsimp only [Statement.execute]
        refine (agrees_update_iff h hfi fun row => ?_).2 fun row hrow hfriend => ?_
        · exact ⟨rfl, rfl⟩
        · subst hfriend
          rw [h.describes.row_eq hrow hfi, entryOf, UInt8.toUInt32_or, toUInt32_flagOf]
    | none =>
        have hnot : friendGuid ∉ s.social.playerSocialMap := AList.lookup_eq_none.1 hfi
        dsimp only
        rw [agrees_iff, or_iff_right hlimit, or_iff_right hnot]
        have hentries : (s.social.playerSocialMap.insert friendGuid ⟨flagOf ignore, []⟩).entries =
            ⟨friendGuid, ⟨flagOf ignore, []⟩⟩ :: s.social.playerSocialMap.entries :=
          AList.entries_insert_of_notMem hnot
        rw [and_iff_right (describes_insert h.describes hnot)]
        show (s.social.playerSocialMap.insert friendGuid ⟨flagOf ignore, []⟩).entries.length ≤ _ ↔ _
        rw [hentries, List.length_cons]
        exact Nat.succ_le_iff

theorem agrees_removeFromSocialList (h : Agrees s) (ignore : Bool) :
    Agrees (s.step escapeString literal (.removeFromSocialList friendGuid ignore)) := by
  unfold Stores.step Op.apply PlayerSocial.removeFromSocialList
  dsimp only
  cases hfi : s.social.playerSocialMap.lookup friendGuid with
  | none => exact h
  | some fi =>
      dsimp only
      split
      · rename_i heq
        split at heq
        · cases heq
          obtain ⟨hdescribes, hfew⟩ := agrees_iff.1 h
          refine agrees_iff.2 ⟨describes_delete hdescribes, ?_⟩
          exact Nat.le_trans (List.kerase_sublist _ _).length_le hfew
        · cases heq
          dsimp only [Statement.execute]
          refine (agrees_update_iff h hfi fun row => ?_).2 fun row hrow hfriend => ?_
          · exact ⟨rfl, rfl⟩
          · subst hfriend
            rw [h.describes.row_eq hrow hfi, entryOf, toUInt32_and_not_flagOf]
      · rename_i heq
        split at heq
        · cases heq
        · cases heq

/-- The list has the escaped note, the row the note. -/
theorem agrees_setFriendNote_iff (hliteral : ∀ text, literal (escapeString text) = text)
    (h : Agrees s) (note : Text) :
    Agrees (s.step escapeString literal (.setFriendNote friendGuid note)) ↔
      Meets escapeString s (.setFriendNote friendGuid note) := by
  unfold Stores.step Op.apply PlayerSocial.setFriendNote Meets
  dsimp only
  cases hfi : s.social.playerSocialMap.lookup friendGuid with
  | none => exact iff_of_true h (.inl (AList.lookup_eq_none.1 hfi))
  | some fi =>
      have hmem : friendGuid ∈ s.social.playerSocialMap := AList.lookup_isSome.1 (hfi ▸ rfl)
      rw [or_iff_right (not_not_intro hmem)]
      dsimp only [Statement.execute]
      rw [hliteral]
      refine (agrees_update_iff h hfi fun row => ?_).trans ?_
      · exact ⟨rfl, rfl⟩
      constructor
      · intro hrows
        obtain ⟨row, hrow, hfriend⟩ := h.describes.exists_row hfi
        have hentry := hrows row hrow hfriend
        exact (congrArg (fun e => e.2.note) hentry).symm
      · intro hsame row hrow hfriend
        subst hfriend
        rw [hsame, h.describes.row_eq hrow hfi]
        rfl

theorem agrees_step_iff (hliteral : ∀ text, literal (escapeString text) = text)
    (h : Agrees s) (op : Op) :
    Agrees (s.step escapeString literal op) ↔ Meets escapeString s op := by
  cases op with
  | addToSocialList friendGuid ignore => exact agrees_addToSocialList_iff h ignore
  | removeFromSocialList friendGuid ignore =>
      exact iff_of_true (agrees_removeFromSocialList h ignore) trivial
  | setFriendNote friendGuid note => exact agrees_setFriendNote_iff hliteral h note

/-! ## Runs -/

theorem agrees_loadFromDB_iff (hresult : Selected table guid result) :
    Agrees ⟨loadFromDB result guid, table⟩ ↔ Loadable table guid := by
  constructor
  · intro h
    exact h.describes.loadable length_loadFromDB
  · intro h
    exact agrees_iff.2 ⟨loadFromDB_perm h hresult, length_loadFromDB⟩

/-- From a list that was loaded, the list and the rows agree after every operation of a run
if and only if they were loadable and every operation meets the condition. -/
theorem run_agrees_iff (hliteral : ∀ text, literal (escapeString text) = text)
    (hresult : Selected table guid result) (ops : List Op) :
    (∀ ops', ops' <+: ops →
        Agrees (ops'.foldl (Stores.step escapeString literal) ⟨loadFromDB result guid, table⟩)) ↔
      Loadable table guid ∧
        Along (Stores.step escapeString literal) (Meets escapeString)
          ⟨loadFromDB result guid, table⟩ ops := by
  have hrun (hload : Loadable table guid) :
      (∀ ops', ops' <+: ops →
        Agrees (ops'.foldl (Stores.step escapeString literal) ⟨loadFromDB result guid, table⟩)) ↔
      Along (Stores.step escapeString literal) (Meets escapeString)
        ⟨loadFromDB result guid, table⟩ ops :=
    Along.holds_iff (fun _ h => h)
      (fun s op (h : Agrees s) => (agrees_step_iff hliteral h op).2)
      (fun s op h => (agrees_step_iff hliteral h op).1) ((agrees_loadFromDB_iff hresult).2 hload)
  constructor
  · intro h
    have hload := (agrees_loadFromDB_iff hresult).1 (h [] (List.nil_prefix))
    exact ⟨hload, (hrun hload).1 h⟩
  · rintro ⟨hload, hops⟩
    exact (hrun hload).2 hops

/-- A byte that `mysql_real_escape_string` puts a backslash before, as it puts it: a zero, a
line feed, a carriage return, a control-Z, the two quotes and the backslash. -/
def escapedByte (b : UInt8) : Option UInt8 :=
  if b = 0 then some 48
  else if b = 10 then some 110
  else if b = 13 then some 114
  else if b = 26 then some 90
  else if b = 34 ∨ b = 39 ∨ b = 92 then some b
  else none

def mysqlEscape : Text → Text
  | [] => []
  | b :: text =>
      match escapedByte b with
      | some c => 92 :: c :: mysqlEscape text
      | none => b :: mysqlEscape text

/-- What the byte behind a backslash stands for. -/
def unescapedByte (c : UInt8) : UInt8 :=
  if c = 48 then 0 else if c = 110 then 10 else if c = 114 then 13 else if c = 90 then 26 else c

/-- A string literal, read. -/
def mysqlLiteral : Text → Text
  | [] => []
  | [b] => [b]
  | b :: c :: text =>
      if b = 92 then unescapedByte c :: mysqlLiteral text else b :: mysqlLiteral (c :: text)

theorem mysqlLiteral_cons {b : UInt8} (h : b ≠ 92) (text : Text) :
    mysqlLiteral (b :: text) = b :: mysqlLiteral text := by
  cases text with
  | nil => rfl
  | cons c text => rw [mysqlLiteral, if_neg h]

theorem unescapedByte_escapedByte (b : UInt8) :
    (∀ c, escapedByte b = some c → unescapedByte c = b) ∧ (escapedByte b = none → b ≠ 92) := by
  have hbytes : ∀ n < 256, ((escapedByte (UInt8.ofNat n)).all fun c =>
      unescapedByte c == UInt8.ofNat n) ∧
        (escapedByte (UInt8.ofNat n) = none → UInt8.ofNat n ≠ 92) := by
    decide +kernel
  obtain ⟨hsome, hnone⟩ := hbytes b.toNat b.toNat_lt
  rw [UInt8.ofNat_toNat] at hsome hnone
  refine ⟨fun c hc => ?_, hnone⟩
  rw [hc] at hsome
  exact beq_iff_eq.1 hsome

theorem mysqlLiteral_mysqlEscape (text : Text) : mysqlLiteral (mysqlEscape text) = text := by
  induction text with
  | nil => rfl
  | cons b text ih =>
      obtain ⟨hsome, hnone⟩ := unescapedByte_escapedByte b
      rw [mysqlEscape]
      split
      · rename_i c hc
        rw [mysqlLiteral, if_pos rfl, hsome c hc, ih]
      · rename_i hplain
        rw [mysqlLiteral_cons (hnone hplain), ih]

/-- A list of a friend with a note that is ignored too and is no friend any more. -/
theorem friend_is_ignored_now :
    Agrees ([.addToSocialList 7 false, .setFriendNote 7 [104, 105], .addToSocialList 7 true,
      .removeFromSocialList 7 false].foldl (Stores.step mysqlEscape mysqlLiteral)
        ⟨loadFromDB [] 1, []⟩) := by
  have hselected : Selected [] 1 [] := ⟨[], .refl _, rfl⟩
  refine (run_agrees_iff mysqlLiteral_mysqlEscape hselected _).2 ⟨⟨by decide, by decide⟩, ?_⟩ _
    (List.prefix_refl _)
  exact ⟨.inr (.inr (by decide)), .inr (by decide +kernel), .inr (.inl (by decide +kernel)),
    trivial, trivial⟩

/-- A note that is a single quote has a backslash before it in memory. -/
theorem quoted_note_is_longer :
    (∀ text, mysqlLiteral (mysqlEscape text) = text) ∧
      ¬ Agrees ([.addToSocialList 7 false, .setFriendNote 7 [39]].foldl
        (Stores.step mysqlEscape mysqlLiteral) ⟨loadFromDB [] 1, []⟩) := by
  refine ⟨mysqlLiteral_mysqlEscape, fun h => ?_⟩
  exact absurd (h.rebuilt _ ⟨_, .refl _, rfl⟩ 7) (by decide +kernel)

end Sunstrider.Social
