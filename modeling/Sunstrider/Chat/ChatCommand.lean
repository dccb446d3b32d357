import Mathlib

/-!
# The arguments of a chat command

The parameters of a command's handler are its signature. The arguments are consumed from left
to right and the values put into one tuple, which is there from the beginning: a parameter
writes to its own place in it, also when it then turns out that the rest does not parse. At an
`Optional` there are two ways to go on, with a value and without one, and the second is tried
when the first has failed at whatever place.

What a type takes from the arguments is a parameter of the model. It either fails, and then
what it leaves behind is indeterminate, or it gives a value and the arguments that remain.
-/

namespace Sunstrider.Chat

variable {V T : Type}

/-! ## One parameter -/

/-- `ArgInfo<T>`, with the value that a new `T` has. -/
structure ArgInfo (V : Type) where
  parse : List Char → Option (V × List Char)
  leftover : V → List Char → V
  initial : V

/-- `char const* TryConsume(T& val, char const* args)`; the second part is the pointer. -/
def ArgInfo.tryConsume (A : ArgInfo V) (val : V) (args : List Char) : V × Option (List Char) :=
  match A.parse args with
  | some (v, next) => (v, some next)
  | none => (A.leftover val args, none)

/-- What can be an element of a vector: it takes some of the arguments. -/
structure Element (V : Type) extends ArgInfo V where
  consumes : ∀ args v next, parse args = some (v, next) → next.length < args.length

theorem ArgInfo.parse_of_tryConsume {A : ArgInfo V} {val v : V} {args next : List Char}
    (h : A.tryConsume val args = (v, some next)) : A.parse args = some (v, next) := by
  rw [ArgInfo.tryConsume] at h
  split at h
  · rename_i hparse
    cases h
    exact hparse
  · cases h

/-- The loop of a vector that has `val` already. The new element at the back is written to,
and taken away again when there are no more. -/
def vectorLoop (A : Element V) (val : List V) (args : List Char) : List V × List Char :=
  match _h : A.tryConsume A.initial args with
  | (back, some next) => vectorLoop A (val ++ [back]) next
  | (back, none) => ((val ++ [back]).dropLast, args)
termination_by args.length
decreasing_by exact A.consumes _ _ _ (ArgInfo.parse_of_tryConsume _h)

inductive Single : Type → Type 1
  | plain {V : Type} (A : ArgInfo V) : Single V
  | vector {V : Type} (A : Element V) : Single (List V)

namespace Single

def initial : Single V → V
  | .plain A => A.initial
  | .vector _ => []

/-- `CommandArgsConsumerSingle::TryConsumeTo` -/
def tryConsumeTo : Single V → V → List Char → V × Option (List Char)
  | .plain A, val, args => A.tryConsume val args
  | .vector A, _, args => ((vectorLoop A [] args).1, some (vectorLoop A [] args).2)

end Single

/-! ## All parameters -/

/-- The parameters from some offset on, and the part of the tuple they write to. -/
inductive Signature : Type → Type 1
  | nil : Signature Unit
  | single {V T : Type} (S : Single V) (next : Signature T) : Signature (V × T)
  | optional {V T : Type} (S : Single V) (next : Signature T) : Signature (Option V × T)

/-- `CommandArgsConsumerNext::GoNext`, with `CommandArgsConsumerMulti::TryConsumeTo` for the
parameter at the offset. -/
def goNext {T : Type} : Signature T → T → List Char → T × Option (List Char)
  | .nil, tuple, args => (tuple, some args)
  | .single S sig, (val, tuple), args =>
      match S.tryConsumeTo val args with
      | (val, some next) =>
          let (tuple, result) := goNext sig tuple next
          ((val, tuple), result)
      | (val, none) => ((val, tuple), none)
  | .optional S sig, (_, tuple), args =>
      -- try with the argument
      let (val, next) := S.tryConsumeTo S.initial args
      let (tuple, result) :=
        match next with
        | some next => goNext sig tuple next
        | none => (tuple, none)
      match result with
      | some next => ((some val, tuple), some next)
      | none =>
          -- try again omitting the argument
          let (tuple, result) := goNext sig tuple args
          ((none, tuple), result)

structure CommandArgs where
  _original : List Char
  _args : List Char
deriving DecidableEq, Repr

/-- The tuple, the arguments and whether it was a success. -/
def CommandArgs.tryConsumeToTuple (self : CommandArgs) (sig : Signature T) (tuple : T) :
    T × CommandArgs × Bool :=
  match goNext sig tuple self._args with
  | (tuple, some next) => (tuple, { self with _args := next }, true)
  | (tuple, none) => (tuple, self, false)

end Sunstrider.Chat
