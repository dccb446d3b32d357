import Sunstrider.Lib.Scanner

/-!
# Numbers among the arguments of a chat command

The arguments of a command are one string, cut into tokens at the spaces. A parameter of an
integral type takes the first token and hands it to a conversion of the standard library,
`stoll` for the signed types and `stoull` for the unsigned ones. What these return has
64 bits, and assigning it to the parameter keeps as many of them as the parameter has.

The conversions take the number a string begins with. They pass over white space before it
and do not mind what comes after it, and `stoull` takes a minus sign too.
-/

namespace Sunstrider.Chat

open Lib

def commandDelimiter : Char := ' '

/-! ## Tokens -/

def isToken (c : Char) : Bool := c ≠ nul && c ≠ commandDelimiter

/-- The length of the first token, and the string from the next one on. -/
def tokenize (args : List Char) : Nat × List Char :=
  ((args.takeWhile isToken).length,
    (args.dropWhile isToken).dropWhile (· == commandDelimiter))

/-- `std::string token(args, tokenize(next))` -/
def firstToken (args : List Char) : List Char := args.take (tokenize args).1

theorem firstToken_eq (args : List Char) : firstToken args = args.takeWhile isToken :=
  (List.prefix_iff_eq_take.1 (List.takeWhile_prefix isToken)).symm

/-! ## The conversions of the standard library -/

inductive ConversionError
  | invalid_argument
  | out_of_range
deriving DecidableEq, Repr

def isspace (c : Char) : Bool :=
  c = ' ' || c = '\t' || c = '\n' || c = Char.ofNat 11 || c = Char.ofNat 12 || c = '\r'

/-- A string as the conversions see it. -/
structure Scan where
  space : List Char
  sign : Option Char
  digits : List Char
  rest : List Char
deriving DecidableEq, Repr

def scanSign : List Char → Option Char × List Char
  | '+' :: cs => (some '+', cs)
  | '-' :: cs => (some '-', cs)
  | cs => (none, cs)

def scan (str : List Char) : Scan :=
  let afterSpace := str.dropWhile isspace
  let afterSign := (scanSign afterSpace).2
  { space := str.takeWhile isspace
    sign := (scanSign afterSpace).1
    digits := afterSign.takeWhile Char.isDigit
    rest := afterSign.dropWhile Char.isDigit }

/-- The value of decimal digits. -/
def magnitude (digits : List Char) : Nat :=
  digits.foldl (fun value d => 10 * value + (d.toNat - '0'.toNat)) 0

def Scan.number (s : Scan) : Int :=
  if s.sign = some '-' then -(magnitude s.digits : Int) else magnitude s.digits

def stoll (str : List Char) : Except ConversionError Int :=
  if (scan str).digits = [] then .error .invalid_argument
  else if (scan str).number < -2 ^ 63 ∨ 2 ^ 63 ≤ (scan str).number then .error .out_of_range
  else .ok (scan str).number

/-- The range is that of the digits alone; a minus sign negates what they give in 64 bits. -/
def stoull (str : List Char) : Except ConversionError Int :=
  if (scan str).digits = [] then .error .invalid_argument
  else if 2 ^ 64 ≤ magnitude (scan str).digits then .error .out_of_range
  else .ok ((scan str).number % 2 ^ 64)

/-! ## The parameters -/

inductive Width
  | w8 | w16 | w32 | w64
deriving DecidableEq, Repr

def Width.bits : Width → Nat
  | .w8 => 8
  | .w16 => 16
  | .w32 => 32
  | .w64 => 64

structure IntegralType where
  signed : Bool
  width : Width
deriving DecidableEq, Repr

namespace IntegralType

/-- The assignment `val = …` of a 64-bit value to a parameter of the type. -/
def assign (T : IntegralType) (v : Int) : Int :=
  if T.signed then v.bmod (2 ^ T.width.bits) else v % 2 ^ T.width.bits

/-- `ArgInfo<T>::TryConsume`: the value and the arguments that are left. -/
def tryConsume (T : IntegralType) (args : List Char) : Option (Int × List Char) :=
  let next := (tokenize args).2
  let token := firstToken args
  match if T.signed then stoll token else stoull token with
  | .ok v => some (T.assign v, next)
  | .error _ => none

end IntegralType

end Sunstrider.Chat
