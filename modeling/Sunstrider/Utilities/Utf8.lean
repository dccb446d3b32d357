import Mathlib

/-!
# UTF-8 and UTF-16

The parts of the utf8 library that the server converts names and texts with. `next` takes
one code point off a byte string and checks it, `append` is the way back, and the
conversions go through a string with them. UTF-16 has two units for a code point above
`0xffff`, a leading and a trailing surrogate. Whatever the library throws is caught as a
`std::exception` and not looked at, so it is `none` here.

`utf8truncate` counts code points, but cuts off UTF-16 units. The buffer they are
written to has room for one unit a code point. What is written past its end is no part
of it; that it is written at all is what `staysInBuffer` denies.
-/

namespace Sunstrider.Utilities

/-! ## The library -/

namespace Utf8

def isTrail (oc : UInt8) : Bool := oc >>> 6 == 0x2

def isLeadSurrogate (cp : Nat) : Bool := decide (0xd800 ≤ cp) && decide (cp ≤ 0xdbff)

def isTrailSurrogate (cp : Nat) : Bool := decide (0xdc00 ≤ cp) && decide (cp ≤ 0xdfff)

def isSurrogate (cp : Nat) : Bool := decide (0xd800 ≤ cp) && decide (cp ≤ 0xdfff)

def isCodePointValid (cp : Nat) : Bool := decide (cp ≤ 0x10ffff) && !isSurrogate cp

def sequenceLength (lead : UInt8) : Nat :=
  if lead < 0x80 then 1
  else if lead >>> 5 == 0x6 then 2
  else if lead >>> 4 == 0xe then 3
  else if lead >>> 3 == 0x1e then 4
  else 0

def isOverlongSequence (cp length : Nat) : Bool :=
  if cp < 0x80 then decide (length ≠ 1)
  else if cp < 0x800 then decide (length ≠ 2)
  else if cp < 0x10000 then decide (length ≠ 3)
  else false

/-- The code point of a sequence, and what is behind it: `get_sequence_1` to
`get_sequence_4`. -/
def getSequence (lead : UInt8) (rest : List UInt8) : Option (Nat × List UInt8) :=
  match sequenceLength lead, rest with
  | 1, rest => some (lead.toNat, rest)
  | 2, b :: rest =>
      if isTrail b then some ((lead.toNat <<< 6 &&& 0x7ff) + (b.toNat &&& 0x3f), rest) else none
  | 3, b :: c :: rest =>
      if isTrail b && isTrail c then
        some ((lead.toNat <<< 12 &&& 0xffff) + (b.toNat <<< 6 &&& 0xfff) + (c.toNat &&& 0x3f),
          rest)
      else none
  | 4, b :: c :: d :: rest =>
      if isTrail b && isTrail c && isTrail d then
        some ((lead.toNat <<< 18 &&& 0x1fffff) + (b.toNat <<< 12 &&& 0x3ffff) +
          (c.toNat <<< 6 &&& 0xfff) + (d.toNat &&& 0x3f), rest)
      else none
  | _, _ => none

/-- `next`, with `validate_next`. -/
def next : List UInt8 → Option (Nat × List UInt8)
  | [] => none
  | lead :: rest =>
      match getSequence lead rest with
      | none => none
      | some (cp, rest) =>
          if isCodePointValid cp && !isOverlongSequence cp (sequenceLength lead) then
            some (cp, rest)
          else none

/-- `append` of a valid code point. -/
def append (cp : Nat) : List UInt8 :=
  if cp < 0x80 then [.ofNat cp]
  else if cp < 0x800 then [.ofNat (cp >>> 6 ||| 0xc0), .ofNat (cp &&& 0x3f ||| 0x80)]
  else if cp < 0x10000 then
    [.ofNat (cp >>> 12 ||| 0xe0), .ofNat (cp >>> 6 &&& 0x3f ||| 0x80),
      .ofNat (cp &&& 0x3f ||| 0x80)]
  else
    [.ofNat (cp >>> 18 ||| 0xf0), .ofNat (cp >>> 12 &&& 0x3f ||| 0x80),
      .ofNat (cp >>> 6 &&& 0x3f ||| 0x80), .ofNat (cp &&& 0x3f ||| 0x80)]

/-- The code points `next` takes off, one after the other; every one is a byte at least. -/
def codePoints : Nat → List UInt8 → Option (List Nat)
  | _, [] => some []
  | 0, _ :: _ => none
  | more + 1, b :: rest => do
      let (cp, rest) ← next (b :: rest)
      let cps ← codePoints more rest
      some (cp :: cps)

/-- `distance`. -/
def distance (s : List UInt8) : Option Nat := (codePoints s.length s).map List.length

/-- The units of a code point. -/
def units (cp : Nat) : List Nat :=
  if 0xffff < cp then [(cp >>> 10) + (0xd800 - (0x10000 >>> 10)), (cp &&& 0x3ff) + 0xdc00]
  else [cp]

/-- `utf8to16`. -/
def utf8to16 (s : List UInt8) : Option (List Nat) :=
  (codePoints s.length s).map fun cps => cps.flatMap units

/-- The code point of a pair; the offset is a `uint32` that wraps around. -/
def fromPair (lead trail : Nat) : Nat :=
  ((lead <<< 10) + trail + (0x10000 + 2 ^ 32 - (0xd800 <<< 10) - 0xdc00)) % 2 ^ 32

/-- `utf16to8`. -/
def utf16to8 : List Nat → Option (List UInt8)
  | [] => some []
  | [cp] =>
      if isLeadSurrogate cp || isTrailSurrogate cp then none
      else if isCodePointValid cp then some (append cp)
      else none
  | cp :: trail :: rest =>
      if isLeadSurrogate cp then
        if isTrailSurrogate trail then
          if isCodePointValid (fromPair cp trail) then do
            let result ← utf16to8 rest
            some (append (fromPair cp trail) ++ result)
          else none
        else none
      else if isTrailSurrogate cp then none
      else if isCodePointValid cp then do
        let result ← utf16to8 (trail :: rest)
        some (append cp ++ result)
      else none

end Utf8

/-! ## Util -/

open Utf8

/-- `utf8truncate`. -/
def utf8truncate (utf8str : List UInt8) (len : Nat) : List UInt8 :=
  let truncated : Option (List UInt8) := do
    let wlen ← distance utf8str
    if wlen ≤ len then some utf8str
    else
      let written ← utf8to16 utf8str
      utf16to8 ((written.take wlen).take len)
  truncated.getD []

/-- Every unit is written to the buffer, which has one for a code point. -/
def staysInBuffer (utf8str : List UInt8) (len : Nat) : Bool :=
  match distance utf8str, utf8to16 utf8str with
  | some wlen, some written => decide (wlen ≤ len) || decide (written.length ≤ wlen)
  | _, _ => true

end Sunstrider.Utilities
