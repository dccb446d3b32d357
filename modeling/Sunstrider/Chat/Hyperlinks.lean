import Sunstrider.Lib.Loop
import Sunstrider.Lib.Scanner

/-!
# Links in what players say

A link is in the text of a message, between control sequences that begin with a pipe: its
colour, what it leads to, and the text in brackets that is shown. `ParseHyperlink` reads one
from where a pointer stands, with three loops that look for the delimiters. `CheckAllLinks`
goes over a whole message twice. The first time it looks at what follows each pipe, and the
second time it has every link parsed and asks `ValidateLinkInfo` about it.
-/

namespace Sunstrider.Chat

open Lib Lib.Scanner

/-- Not zero for the hexadecimal digits, whose value is in the low four bits. -/
def toHex (c : Char) : UInt8 :=
  if '0' ≤ c ∧ c ≤ '9' then UInt8.ofNat (c.toNat - '0'.toNat + 0x10)
  else if 'a' ≤ c ∧ c ≤ 'f' then UInt8.ofNat (c.toNat - 'a'.toNat + 0x1a)
  else 0x00

structure HyperlinkInfo where
  next : Ptr
  color : UInt32
  tag : List Char
  data : List Char
  text : List Char
deriving DecidableEq, Repr

/-- The rounds of the loop that are to go, and the colour so far. -/
def readColor : Nat → UInt32 → Scanner UInt32
  | 0, color => pure color
  | i + 1, color => do
      let hex := toHex (← next)
      if hex ≠ 0 then readColor i (color <<< 4 ||| (hex &&& 0xf).toUInt32) else giveUp

/-- `while (*pos && *pos != '|' && *(pos++) != ':')` -/
def tagTurn (c : Char) : Turn :=
  if c = '|' then .endBefore else if c = ':' then .endBehind else .on

/-- `while (*pos && *(pos++) != '|')` -/
def dataTurn (c : Char) : Turn :=
  if c = '|' then .endBehind else .on

/-- The loop returns at an unexpected `|` and breaks at the `]`. -/
def textTurn (c : Char) : Turn :=
  if c = '|' then .giveUp else if c = ']' then .endBehind else .on

def parseHyperlink : Scanner HyperlinkInfo := do
  -- color tag
  eat '|'
  eat 'c'
  let color ← readColor 8 0
  -- link data start tag
  eat '|'
  eat 'H'
  -- the pointer is moved past a `:` at the end of the link tag but not past a `|`
  let tagStart ← position
  let tagLength ← skip tagTurn
  let dataStart ← position
  let dataLength ← skip dataTurn
  -- link data end tag and visible link text
  eat 'h'
  eat '['
  let textStart ← position
  let textLength ← skip textTurn
  -- link end tag
  eat '|'
  eat 'h'
  eat '|'
  eat 'r'
  let next ← position
  pure
    { next, color
      tag := tagStart.take tagLength
      data := dataStart.take dataLength
      text := textStart.take textLength }

/-! ## Whole messages -/

/-- Why a pass over a message ends early: with `return false`, or with a read that must not
be. -/
inductive Stop
  | refused
  | overrun
deriving DecidableEq, Repr

/-- The message from the next pipe on. -/
def findPipe (str : List Char) : List Char := str.dropWhile (· ≠ '|')

/-- `(pos = str.find('|', pos)) != std::string::npos` -/
def hasPipe (str : List Char) : Bool := !(findPipe str).isEmpty

def isControl (next : Char) : Bool :=
  next = 'H' || next = 'h' || next = 'c' || next = 'r' || next = '|'

/-- What follows the pipe that was found; `str[str.size()]` is the NUL. -/
def afterPipe (str : List Char) : Char := (findPipe str).tail.headD nul

/-- A round of step 1. -/
def checkControl (str : List Char) : Except Stop (List Char) :=
  if isControl (afterPipe str) then .ok ((findPipe str).drop 2) else .error .refused

/-- A round of step 2. -/
def checkLink (validateLinkInfo : HyperlinkInfo → Bool) (str : List Char) :
    Except Stop (List Char) :=
  if afterPipe str = '|' then .ok ((findPipe str).drop 2)
  else
    match parseHyperlink (.at (findPipe str)) with
    | .error .overrun => .error .overrun
    | .ok none => .error .refused
    | .ok (some (info, _)) =>
        if validateLinkInfo info then
          match info.next with
          | .at rest => .ok rest
          | .behind => .error .overrun
        else .error .refused

/-- `none` if there is not fuel enough for one of the loops. -/
def checkAllLinks (fuel : Nat) (validateLinkInfo : HyperlinkInfo → Bool) (str : List Char) :
    Option (Except Stop Bool) :=
  match loop hasPipe checkControl fuel str with
  | none => none
  | some (.error .refused) => some (.ok false)
  | some (.error .overrun) => some (.error .overrun)
  | some (.ok _) =>
      match loop hasPipe (checkLink validateLinkInfo) fuel str with
      | none => none
      | some (.error .refused) => some (.ok false)
      | some (.error .overrun) => some (.error .overrun)
      | some (.ok _) => some (.ok true)

end Sunstrider.Chat
