import Sunstrider.Utilities.Utf8

/-!
# Friends and ignored players

The social list of a player in memory, the rows of `character_social`, and the statements
with which the list keeps the rows up to date. `EscapeString` is a function of the database
library; what it makes of a text goes between quotes into a statement, and `literal` is what
the database reads there.

A contact is what is stored of it. Where and of what level it is, is looked up when a list
is sent.
-/

namespace Sunstrider.Social

open Utilities

/-- A text, in bytes. -/
abbrev Text := List UInt8

def socialFlagFriend : UInt32 := 0x01

def socialFlagIgnored : UInt32 := 0x02

def friendLimit : Nat := 50

def ignoreLimit : Nat := 25

structure FriendInfo where
  flags : UInt32
  note : Text
deriving DecidableEq, Repr

abbrev PlayerSocialMap := AList fun _ : UInt32 => FriendInfo

structure PlayerSocial where
  playerGuid : UInt32
  playerSocialMap : PlayerSocialMap

/-! ## The rows -/

/-- A row of `character_social`. -/
structure SocialRow where
  guid : UInt32
  friend : UInt32
  flags : UInt8
  note : Text
deriving DecidableEq, Repr

/-- The statements, with the values that are put into their texts. -/
inductive Statement where
  | addFlags (flag guid friend : UInt32)
  | insert (guid friend flags : UInt32)
  | delete (guid friend : UInt32)
  | removeFlags (flag guid friend : UInt32)
  | setNote (note : Text) (guid friend : UInt32)
deriving DecidableEq, Repr

/-- `WHERE guid = … AND friend = …`. -/
def SocialRow.isFor (row : SocialRow) (guid friend : UInt32) : Bool :=
  row.guid == guid && row.friend == friend

/-- `UPDATE` sets columns of the rows of a contact. -/
def updateRows (guid friend : UInt32) (assign : SocialRow → SocialRow) (table : List SocialRow) :
    List SocialRow :=
  table.map fun row => if row.isFor guid friend then assign row else row

/-- A statement is executed. The flags of a row fit in its byte before and after; a row with
the key of one that is there is not inserted. -/
def Statement.execute (literal : Text → Text) (table : List SocialRow) :
    Statement → List SocialRow
  | .addFlags flag guid friend =>
      updateRows guid friend (fun row => { row with flags := row.flags ||| flag.toUInt8 }) table
  | .insert guid friend flags =>
      if table.any fun row => row.isFor guid friend && row.flags == flags.toUInt8 then table
      else table ++ [⟨guid, friend, flags.toUInt8, []⟩]
  | .delete guid friend => table.filter fun row => ! row.isFor guid friend
  | .removeFlags flag guid friend =>
      updateRows guid friend (fun row => { row with flags := row.flags &&& ~~~flag.toUInt8 }) table
  | .setNote note guid friend =>
      updateRows guid friend (fun row => { row with note := literal note }) table

/-- The rows of a player. -/
def rowsOf (table : List SocialRow) (guid : UInt32) : List SocialRow :=
  table.filter fun row => row.guid == guid

/-- A result of the query that loads a list: no order is asked for, and no more than 255
rows. -/
def Selected (table : List SocialRow) (guid : UInt32) (result : List SocialRow) : Prop :=
  ∃ rows : List SocialRow, rows.Perm (rowsOf table guid) ∧ result = rows.take 255

/-! ## The list in memory -/

/-- `GetNumberOfSocialsWithFlag`. -/
def numberOfSocialsWithFlag (map : PlayerSocialMap) (flag : UInt32) : Nat :=
  map.entries.countP fun e => e.2.flags &&& flag != 0

/-- The flag of one of the two lists. -/
def flagOf (ignore : Bool) : UInt32 := if ignore then socialFlagIgnored else socialFlagFriend

def limitOf (ignore : Bool) : Nat := if ignore then ignoreLimit else friendLimit

namespace PlayerSocial

/-- What the list is afterwards, the statement, and what is returned. -/
def addToSocialList (social : PlayerSocial) (friendGuid : UInt32) (ignore : Bool) :
    PlayerSocial × Option Statement × Bool :=
  let map := social.playerSocialMap
  if limitOf ignore ≤ numberOfSocialsWithFlag map (flagOf ignore) then (social, none, false)
  else
    let flag := flagOf ignore
    match map.lookup friendGuid with
    | some fi =>
        ({ social with
            playerSocialMap := map.insert friendGuid { fi with flags := fi.flags ||| flag } },
          some (.addFlags flag social.playerGuid friendGuid), true)
    | none =>
        ({ social with playerSocialMap := map.insert friendGuid ⟨flag, []⟩ },
          some (.insert social.playerGuid friendGuid flag), true)

def removeFromSocialList (social : PlayerSocial) (friendGuid : UInt32) (ignore : Bool) :
    PlayerSocial × Option Statement :=
  let map := social.playerSocialMap
  match map.lookup friendGuid with
  | none => (social, none)
  | some fi =>
      let flag := flagOf ignore
      let flags := fi.flags &&& ~~~flag
      if flags = 0 then
        ({ social with playerSocialMap := map.erase friendGuid },
          some (.delete social.playerGuid friendGuid))
      else
        ({ social with playerSocialMap := map.insert friendGuid { fi with flags := flags } },
          some (.removeFlags flag social.playerGuid friendGuid))

def setFriendNote (escapeString : Text → Text) (social : PlayerSocial) (friendGuid : UInt32)
    (note : Text) : PlayerSocial × Option Statement :=
  let map := social.playerSocialMap
  match map.lookup friendGuid with
  | none => (social, none)
  | some fi =>
      let note := utf8truncate note 48
      let note := escapeString note
      ({ social with playerSocialMap := map.insert friendGuid { fi with note := note } },
        some (.setNote note social.playerGuid friendGuid))

end PlayerSocial

/-- The loop of `LoadFromDB`. -/
def loadLoop (map : PlayerSocialMap) : List SocialRow → PlayerSocialMap
  | [] => map
  | row :: rows =>
      let map := map.insert row.friend ⟨row.flags.toUInt32, row.note⟩
      if friendLimit + ignoreLimit ≤ map.entries.length then map else loadLoop map rows

/-- `LoadFromDB` for a player that is not in memory. -/
def loadFromDB (result : List SocialRow) (guid : UInt32) : PlayerSocial :=
  ⟨guid, loadLoop ∅ result⟩

/-! ## Runs -/

/-- The list of a player that is in the game, and the table. -/
structure Stores where
  social : PlayerSocial
  table : List SocialRow

inductive Op where
  | addToSocialList (friendGuid : UInt32) (ignore : Bool)
  | removeFromSocialList (friendGuid : UInt32) (ignore : Bool)
  | setFriendNote (friendGuid : UInt32) (note : Text)
deriving DecidableEq, Repr

/-- What an operation makes of the list, and its statement. -/
def Op.apply (escapeString : Text → Text) (social : PlayerSocial) :
    Op → PlayerSocial × Option Statement
  | .addToSocialList friendGuid ignore =>
      let (social, statement, _) := social.addToSocialList friendGuid ignore
      (social, statement)
  | .removeFromSocialList friendGuid ignore => social.removeFromSocialList friendGuid ignore
  | .setFriendNote friendGuid note => social.setFriendNote escapeString friendGuid note

/-- An operation, and its statement on the table. -/
def Stores.step (escapeString literal : Text → Text) (s : Stores) (op : Op) : Stores :=
  match op.apply escapeString s.social with
  | (social, some statement) => ⟨social, statement.execute literal s.table⟩
  | (social, none) => ⟨social, s.table⟩

end Sunstrider.Social
